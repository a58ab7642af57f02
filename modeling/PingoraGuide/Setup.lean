import PingoraGuide.Schema
import PingoraGuide.Startup
/-!
# The setup of the process

`main` reads the configuration, builds the upstreams, the router and the listeners, and registers
the services before any of them runs. A load balancer has no backends of its own: they come from
the background service that is registered for it.

| here | there |
| --- | --- |
| `Args`, `main`          | src/main.rs:31-39, 63-168; log lines are left out |
| `loadFromYaml`          | `GatewayConf::load_from_yaml` (src/config.rs:442-446) |
| `makeUpstreamServices`  | `make_upstream` with the services it returns (src/upstreams/factory.rs:198-204, 260-288) |
| `initUpstreams`         | main.rs:99-114 |
| `addListeners`          | main.rs:141-149 |
| `SetupCrates`           | the file system, `serde_yaml`, `Server::new`, `num_cpus`, `add_tls` |
-/
namespace PingoraGuide
open Schema (ListenerConf)

variable (K : Crates)

structure BackgroundService where
  name : String
  lb : LoadBalancer

inductive Endpoint where
  | tcp (address : String)
  | tls (address certPath keyPath : String)
deriving DecidableEq, Repr

inductive Service where
  | proxy (gateway : Gateway K) (endpoints : List Endpoint)
  | background (service : BackgroundService)
  | prometheus (address : String)

/-- The part of Pingora's `ServerConf` that `main` sets. -/
structure Tuning where
  daemon : Bool
  pidFile : String
  threads : Nat
  gracePeriodSeconds : Option Nat
deriving DecidableEq, Repr

structure Server where
  configuration : Tuning
  services : List (Service K)

structure SetupCrates where
  readToString : String → Except String String
  /-- `serde_yaml::from_str` with the derived impls -/
  yamlFromStr : String → Except String Schema.GatewayConf
  /-- `Server::new` for an `Opt` with this daemon flag -/
  serverNew : Bool → Except PError Tuning
  numCpus : Nat
  addTls : String → String → String → Except PError Unit

inductive MainError where
  | io (e : String)
  | yaml (e : String)
  | pingora (e : PError)
  | gateway (e : PingoraGuideError)

structure Args where
  config : String := "gateway_full.yaml"
  daemon : Bool := false

variable (S : SetupCrates)

def loadFromYaml (path : String) : Except MainError Schema.GatewayConf := do
  let content ← (S.readToString path).mapError .io
  (S.yamlFromStr content).mapError .yaml

def makeUpstreamServices (conf : UpstreamConf) : Except PError (Upstream × List BackgroundService) :=
  match conf.source with
  | .Uds path => .ok (.static (.newUds path conf.options), [])
  | _ => do
    let lb ← makeLb K conf
    let lb := finalizeLb K lb conf
    let services := [⟨"lb-" ++ conf.id, lb⟩]
    .ok (.cluster (.new lb conf.options.tls (conf.options.sni.getD "") (some conf.options)
      (some conf.hashSource)), services)

def initUpstreams : List UpstreamConf → (String → Option Upstream) → List BackgroundService →
    Except PError ((String → Option Upstream) × List BackgroundService)
  | [], upstreamMap, backgroundServices => .ok (upstreamMap, backgroundServices)
  | conf :: confs, upstreamMap, backgroundServices => do
    let (upstream, services) ← makeUpstreamServices K conf
    initUpstreams confs (Function.update upstreamMap conf.id (some upstream))
      (backgroundServices ++ services)

def ListenerConf.endpoint (l : ListenerConf) : Endpoint :=
  match l.tls with
  | some tls => .tls l.address tls.certPath tls.keyPath
  | none => .tcp l.address

def addListeners : List ListenerConf → List Endpoint → Except PError (List Endpoint)
  | [], endpoints => .ok endpoints
  | l :: ls, endpoints => do
    match l.tls with
    | some tls => S.addTls l.address tls.certPath tls.keyPath
    | none => pure ()
    addListeners ls (endpoints ++ [ListenerConf.endpoint l])

def tune (base : Tuning) (conf : Schema.ServerConf) : Tuning :=
  { base with
    pidFile := conf.pidFile.getD base.pidFile
    threads := (conf.workerThreads.map Fin.val).getD S.numCpus
    gracePeriodSeconds := some ((conf.gracefulShutdownTimeout.map (· / 1000)).getD 30) }

def prometheusServices (conf : Schema.GatewayConf) : List (Service K) :=
  ((conf.observability.bind fun obs => obs.prometheusAddr).map Service.prometheus).toList

def main (args : Args) : Except MainError (Server K) := do
  let conf ← loadFromYaml S args.config
  let base ← (S.serverNew (args.daemon || conf.server.daemon)).mapError .pingora
  let (upstreams, backgroundServices) ←
    (initUpstreams K conf.core.upstreams (fun _ => none) []).mapError .pingora
  let router ← (Router.new K conf.core).mapError .gateway
  let gateway := { router, upstreams, middlewares := mainMiddlewares K conf.core.server }
  let endpoints ← (addListeners S conf.server.listeners []).mapError .pingora
  .ok {
    configuration := tune S base conf.server
    services := .proxy gateway endpoints :: backgroundServices.map Service.background ++
      prometheusServices K conf }

/-! ## The parts -/

/-- The services that go with an upstream. -/
def Upstream.drivers (id : String) : Upstream → List BackgroundService
  | .static _ => []
  | .cluster c => [⟨"lb-" ++ id, c.lb⟩]

theorem makeUpstreamServices_eq (conf : UpstreamConf) : makeUpstreamServices K conf =
    (makeUpstream K conf).map fun u => (u, u.drivers conf.id) := by
  unfold makeUpstreamServices makeUpstream
  cases hsource : conf.source with
  | Uds path => rfl
  | _ =>
    dsimp only
    unfold makeLbInstance
    cases makeLb K conf <;> rfl

/-- The services of an upstream that can be built. -/
def driversOf (conf : UpstreamConf) : List BackgroundService :=
  match makeUpstream K conf with
  | .ok u => u.drivers conf.id
  | .error _ => []

theorem initUpstreams_eq (confs : List UpstreamConf) (m : String → Option Upstream)
    (services : List BackgroundService) : initUpstreams K confs m services =
      (upstreamMap K confs m).map fun m' => (m', services ++ confs.flatMap (driversOf K)) := by
  induction confs generalizing m services with
  | nil => simp [initUpstreams, upstreamMap, Except.map]
  | cons conf confs ih =>
    rw [initUpstreams, upstreamMap, makeUpstreamServices_eq]
    cases hu : makeUpstream K conf with
    | error e => rfl
    | ok u =>
      have hdrivers : driversOf K conf = u.drivers conf.id := by rw [driversOf, hu]
      have hrest := ih (Function.update m conf.id (some u)) (services ++ u.drivers conf.id)
      rw [List.append_assoc, ← hdrivers, ← List.flatMap_cons] at hrest
      rw [hdrivers] at hrest
      exact hrest

/-- The certificates of every TLS listener load. -/
def TlsLoads (listeners : List ListenerConf) : Prop :=
  ∀ l ∈ listeners, ∀ tls, l.tls = some tls → S.addTls l.address tls.certPath tls.keyPath = .ok ()

theorem addListeners_eq_ok {ls : List ListenerConf} {endpoints out : List Endpoint} :
    addListeners S ls endpoints = .ok out ↔
      TlsLoads S ls ∧ out = endpoints ++ ls.map ListenerConf.endpoint := by
  induction ls generalizing endpoints with
  | nil => simp [addListeners, TlsLoads, eq_comm]
  | cons l ls ih =>
    have hcons : TlsLoads S (l :: ls) ↔
        (∀ tls, l.tls = some tls → S.addTls l.address tls.certPath tls.keyPath = .ok ()) ∧
          TlsLoads S ls := by simp [TlsLoads]
    have ih := @ih (endpoints ++ [ListenerConf.endpoint l])
    rw [List.append_assoc, List.singleton_append] at ih
    rw [hcons, List.map_cons, addListeners]
    cases htls : l.tls with
    | none => simpa [htls] using ih
    | some tls =>
      cases hadd : S.addTls l.address tls.certPath tls.keyPath with
      | error e => simp [hadd, bind, Except.bind]
      | ok u => simpa [hadd, bind, Except.bind] using ih

variable {K S}

theorem mapError_eq_ok {ε ε' α : Type} {x : Except ε α} {f : ε → ε'} {a : α} :
    x.mapError f = .ok a ↔ x = .ok a := by
  cases x <;> simp [Except.mapError]

theorem except_bind_eq_ok {ε α β : Type} {x : Except ε α} {f : α → Except ε β} {b : β} :
    (x >>= f) = .ok b ↔ ∃ a, x = .ok a ∧ f a = .ok b := by
  cases x <;> simp [bind, Except.bind]

theorem toOption_eq_some {ε α : Type} {x : Except ε α} {a : α} : x.toOption = some a ↔ x = .ok a := by
  cases x <;> simp [Except.toOption]

/-- What `main` has built when it gets to run the server. -/
structure Built (K : Crates) (S : SetupCrates) (args : Args) (conf : Schema.GatewayConf)
    (gateway : Gateway K) (server : Server K) : Prop where
  loaded : loadFromYaml S args.config = .ok conf
  started : mainGateway K conf.core = .ok gateway
  listens : TlsLoads S conf.server.listeners
  tuned : ∃ base, S.serverNew (args.daemon || conf.server.daemon) = .ok base ∧
    server.configuration = tune S base conf.server
  services : server.services =
    .proxy gateway (conf.server.listeners.map ListenerConf.endpoint) ::
      (conf.core.upstreams.flatMap (driversOf K)).map Service.background ++ prometheusServices K conf

theorem main_eq_ok {args : Args} {server : Server K} :
    main K S args = .ok server ↔ ∃ conf gateway, Built K S args conf gateway server := by
  unfold main
  simp only [except_bind_eq_ok, mapError_eq_ok, initUpstreams_eq, addListeners_eq_ok, List.nil_append]
  constructor
  · rintro ⟨conf, hload, base, hbase, ⟨upstreams, services⟩, hup, router, hrouter, endpoints,
      ⟨htls, rfl⟩, hserver⟩
    obtain rfl := Except.ok.inj hserver
    cases hmap : upstreamMap K conf.core.upstreams fun _ => none with
    | error e => simp [hmap, Except.map] at hup
    | ok m =>
      obtain ⟨rfl, rfl⟩ : m = upstreams ∧ conf.core.upstreams.flatMap (driversOf K) = services := by
        simpa [hmap, Except.map] using hup
      refine ⟨conf, _, hload, ?_, htls, ⟨base, hbase, rfl⟩, rfl⟩
      simp [mainGateway, hmap, hrouter, bind, Except.bind]
  · rintro ⟨conf, gateway, hload, hstart, htls, ⟨base, hbase, htuned⟩, hservices⟩
    obtain ⟨hmap, hrouter, hmiddlewares⟩ := mainGateway_ok hstart
    obtain ⟨router, upstreams, middlewares⟩ := gateway
    obtain ⟨configuration, services⟩ := server
    dsimp only at hmap hrouter hmiddlewares htuned hservices
    subst hmiddlewares htuned hservices
    exact ⟨conf, hload, base, hbase, _, by rw [hmap]; rfl, router, hrouter, _, ⟨htls, rfl⟩, rfl⟩

/-! ## What drives the clusters -/

theorem driversOf_cluster {conf : UpstreamConf} {c : LoadBalancerCluster}
    (h : makeUpstream K conf = .ok (.cluster c)) : driversOf K conf = [⟨"lb-" ++ conf.id, c.lb⟩] := by
  rw [driversOf, h]
  rfl

/-- Each cluster that the gateway can select has its own service, under `lb-` and its id. -/
def Driven (gateway : Gateway K) (server : Server K) : Prop :=
  ∀ id c, gateway.upstreams id = some (.cluster c) →
    .background ⟨"lb-" ++ id, c.lb⟩ ∈ server.services

theorem Built.driven {args : Args} {conf : Schema.GatewayConf} {gateway : Gateway K}
    {server : Server K} (h : Built K S args conf gateway server) : Driven gateway server := by
  intro id c hc
  obtain ⟨hkeys, hlast⟩ := mainGateway_upstreams h.started
  have hid : ∃ u ∈ conf.core.upstreams, u.id = id := by
    by_contra hnone
    push Not at hnone
    rw [(hkeys id).2 hnone] at hc
    cases hc
  obtain ⟨u, hu, rfl⟩ := hid
  -- the last upstream configured under the id holds it, and its own services were kept
  obtain ⟨last, up, hconf, hmake, hup⟩ := hlast u hu
  obtain rfl : up = .cluster c := Option.some.inj (hup.symm.trans hc)
  obtain ⟨hmem, hsame⟩ := lastConfigured_eq_some hconf
  have hdriver : ⟨"lb-" ++ u.id, c.lb⟩ ∈ driversOf K last := by
    rw [driversOf_cluster hmake, hsame]
    simp
  rw [h.services]
  refine List.mem_cons_of_mem _ (List.mem_append_left _ (List.mem_map_of_mem ?_))
  exact List.mem_flatMap.2 ⟨last, hmem, hdriver⟩

/-- `main` gets to run a server exactly when everything it needs can be built, and nothing runs
otherwise. The server has one proxy service with the configured listeners, the background services
of every configured upstream in order, and the metrics endpoint if there is one; no cluster that
requests can reach is without the service that gives it backends, also where an id is configured
more than once. -/
theorem main_exact {args : Args} {server : Server K} : main K S args = .ok server ↔
    ∃ conf gateway, Built K S args conf gateway server ∧ Driven gateway server := by
  rw [main_eq_ok]
  exact ⟨fun ⟨conf, gateway, h⟩ => ⟨conf, gateway, h, h.driven⟩,
    fun ⟨conf, gateway, h, _⟩ => ⟨conf, gateway, h⟩⟩

/-- A user name of digits: a number in the document, a string to the field that asks for one. -/
def digitsConf : Schema.GatewayConf where
  server := { user := some "1000" }

def digitsSetup : SetupCrates where
  readToString _ := .ok ("\n".intercalate ["server:", "  user: 1000", "upstreams: []", "routes: []"])
  yamlFromStr _ := .ok digitsConf
  serverNew daemon := .ok ⟨daemon, "/tmp/pingora.pid", 1, none⟩
  numCpus := 8
  addTls _ _ _ := .ok ()

theorem main_exact_digits : ∃ server conf gateway, main refCrates digitsSetup {} = .ok server ∧
    Built refCrates digitsSetup {} conf gateway server ∧ Driven gateway server := by
  have hservices : (main refCrates digitsSetup {}).toOption.map (fun server => server.services.length) =
      some 1 := rfl
  obtain ⟨server, hserver, -⟩ := Option.map_eq_some_iff.1 hservices
  have hmain : main refCrates digitsSetup {} = .ok server := toOption_eq_some.1 hserver
  obtain ⟨conf, gateway, hbuilt, hdriven⟩ := main_exact.1 hmain
  exact ⟨server, conf, gateway, hmain, hbuilt, hdriven⟩

/-! ## What the operator wrote -/

/-- What the schema reads from the document of a text is what `from_str` reads from the text. -/
def ReadsDocuments (S : SetupCrates) (H : Schema.Humantime) (document : String → Option Serde.Value) :
    Prop :=
  ∀ content v conf, document content = some v → (Schema.gatewayConf H).codec.de v = some conf →
    S.yamlFromStr content = .ok conf

/-- What the operator wrote is what is served: from a file with the entries of `conf`, `main` builds
the server of `conf`. -/
theorem main_written {args : Args} {server : Server K} {H : Schema.Humantime}
    {document : String → Option Serde.Value} (hreads : ReadsDocuments S H document)
    {conf : Schema.GatewayConf} {skip : Serde.Skip} {content : String}
    {es : MultiMap String Serde.Value} (hread : S.readToString args.config = .ok content)
    (hdocument : document content = some (.map (es.map fun e => (.string e.1, e.2))))
    (hes : ∀ k ∈ (Schema.gatewayConf H).keys,
      es.getAll k = ((Schema.gatewayConf H).ser skip conf).getAll k) :
    main K S args = .ok server ↔ ∃ gateway, Built K S args conf gateway server := by
  have hload : loadFromYaml S args.config = .ok conf := by
    have hyaml := hreads content _ conf hdocument ((Schema.gatewayConf H).de_written hes)
    simp [loadFromYaml, hread, hyaml, Except.mapError, bind, Except.bind]
  rw [main_eq_ok]
  constructor
  · rintro ⟨conf', gateway, h⟩
    obtain rfl : conf = conf' := Except.ok.inj (hload.symm.trans h.loaded)
    exact ⟨gateway, h⟩
  · rintro ⟨gateway, h⟩
    exact ⟨conf, gateway, h⟩

def shortText : String := "\n".intercalate [
  "routes:",
  "- path: /api",
  "  upstream_id: api",
  "  rate_limit:",
  "    requests_per_sec: 10",
  "    burst: 20",
  "    key: !header x-user",
  "  proxy_connect: false",
  "- path: /admin",
  "  path_type: exact",
  "  upstream_id: api",
  "comment: no key of the schema",
  "upstreams:",
  "- id: api",
  "  type: static",
  "  backends:",
  "  - address: 127.0.0.1:80",
  "    weight: 5",
  "  hash_source:",
  "    type: cookie",
  "    name: sid",
  "  options:",
  "    idle_timeout: null",
  "    sni: api.local",
  "  health_check:",
  "    protocol: http",
  "    interval: 250ms",
  "    path: /health",
  "server:",
  "  listeners:",
  "  - address: 0.0.0.0:80",
  "  graceful_shutdown_timeout: 500ms"]

/-- The document of `shortText`. -/
def shortYaml (_ : String) : Option Serde.Value :=
  some (.map (Schema.shortDocument.map fun e => (.string e.1, e.2)))

/-- A process that reads `shortText`. -/
def shortSetup : SetupCrates :=
  { digitsSetup with
    readToString _ := .ok shortText
    yamlFromStr content :=
      match (shortYaml content).bind (Schema.gatewayConf Schema.refHumantime).codec.de with
      | some conf => .ok conf
      | none => .error "invalid type" }

theorem shortSetup_reads : ReadsDocuments shortSetup Schema.refHumantime shortYaml := by
  intro content v conf hdocument hde
  simp [shortSetup, hdocument, hde]

theorem main_written_short : ∃ server gateway, main refCrates shortSetup {} = .ok server ∧
    server.services.length = 2 ∧ Built refCrates shortSetup {} Schema.shortConf gateway server := by
  have hservices : (main refCrates shortSetup {}).toOption.map (fun server => server.services.length) =
      some 2 := rfl
  obtain ⟨server, hserver, hlength⟩ := Option.map_eq_some_iff.1 hservices
  have hmain : main refCrates shortSetup {} = .ok server := toOption_eq_some.1 hserver
  have hread : shortSetup.readToString ({} : Args).config = .ok shortText := rfl
  have hdocument : shortYaml shortText =
      some (.map (Schema.shortDocument.map fun e => (.string e.1, e.2))) := rfl
  obtain ⟨gateway, hbuilt⟩ :=
    (main_written shortSetup_reads hread hdocument Schema.shortDocument_written).1 hmain
  exact ⟨server, gateway, hmain, hlength, hbuilt⟩

end PingoraGuide
