import Mathlib.Logic.Function.Basic
import PingoraGuide.State
/-!
# Upstreams

| here | there |
| --- | --- |
| `LoadBalancerCluster`          | src/upstreams/load_balancer.rs:38-72; no caller passes a client certificate |
| `firstCookie`                  | the loop over `cookie_str.split(";")` (load_balancer.rs:102-108) |
| `LoadBalancerCluster.hashKey`  | load_balancer.rs:80-125 |
| `LoadBalancerCluster.selectPeer` | load_balancer.rs:79-161 |
| `StaticUpstream`               | src/upstreams/static_upstream.rs:32-105 |
| `Upstream`                     | `Box<dyn Upstream>`: the two implementors of the trait |
| `resolveBackends`              | factory.rs:216-229: every address in order, the first that does not resolve ends the loop |
| `finalizeLb`, `makeLbInstance`, `makeUpstream` | src/upstreams/factory.rs:138-288; the background services are not modelled |
| `upstreamMap`                  | the loop of `main` over `conf.upstreams` (src/main.rs:99-114) |
-/
namespace PingoraGuide
open Fallible Wire

variable {K : Crates}

structure LoadBalancerCluster where
  lb : LoadBalancer
  tls : Bool
  sni : String
  options : ClusterOptions
  hashSource : HashSource

/-- `LoadBalancerCluster::new`: a cookie name is kept with its `=`. -/
def LoadBalancerCluster.new (lb : LoadBalancer) (tls : Bool) (sni : String)
    (options : Option ClusterOptions) (hashSource : Option HashSource) : LoadBalancerCluster where
  lb := lb
  tls := tls
  sni := sni
  options := options.getD {}
  hashSource :=
    match hashSource with
    | some (.Cookie name) => .Cookie (name ++ "=")
    | some h => h
    | none => .None

def trim (cs : List Char) : List Char :=
  ((cs.dropWhile Char.isWhitespace).reverse.dropWhile Char.isWhitespace).reverse

/-- The rest of the first trimmed part that starts with the key. -/
def firstCookie (key : List Char) : List (List Char) → List Char
  | [] => []
  | part :: parts =>
    if key.isPrefixOf (trim part) then (trim part).drop key.length else firstCookie key parts

/-- The text of the first header line of that name, if it is text. -/
def headerText (h : RequestHeader) (name : String) : Option String :=
  (HeaderMap.header h.headers name).bind toStr

def LoadBalancerCluster.hashKey (c : LoadBalancerCluster) :
    Act (St K Unit) PingoraGuideError String := do
  let s ← Act.get
  match c.hashSource with
  | .None => pure ""
  | .ClientIp =>
    match s.session.clientAddr with
    | some addr =>
      match addr.asInet with
      | some (ip, _) => pure (K.ipToString ip)
      | none => newUuid
    | none => pure ""
  | .Cookie name =>
    match headerText s.session.reqHeader "Cookie" with
    | some cookies =>
      pure (String.ofList (firstCookie name.toList (cookies.toList.splitOn ';')))
    | none => pure ""
  | .Uri => pure s.session.reqHeader.path
  | .Header name => pure ((headerText s.session.reqHeader name).getD "")

/-- The options both upstream kinds put on a peer. -/
def HttpPeer.withOptions (p : HttpPeer) (o : ClusterOptions) : HttpPeer :=
  { p with
    connectionTimeout := some o.connectTimeout
    readTimeout := some o.readTimeout
    writeTimeout := some o.writeTimeout
    idleTimeout := o.idleTimeout
    alpn := if o.enableH2 then .H2H1 else .H1
    verifyHostname := o.verifyHostname }

/-- `if let Some(meta) = ctx.get_mut::<RequestMeta>() { .. }` of both `select_peer`s. -/
def recordPeer (addr : SocketAddr) (sni : String) : Act (St K Unit) PingoraGuideError Unit :=
  ctxModify .requestMeta fun (rm : RequestMeta) => { rm with peerAddr := some addr, sni := some sni }

/-- The next answer of the load balancer. -/
def lbSelect (lb : LoadBalancer) (key : Bytes) (maxIterations : Nat) :
    Act (St K Unit) PingoraGuideError (Option Backend) := fun s =>
  (.ok (K.lbSelect lb s.session.selects key maxIterations),
    { s with session := { s.session with selects := s.session.selects + 1 } })

/-- `HttpPeer::new` on a resolved address list; it unwraps. -/
def firstAddr : Except String (List (IpAddr × Nat)) → Res PingoraGuideError SocketAddr
  | .ok ((ip, port) :: _) => .ok (.inet ip port)
  | .ok [] => .panic "called `Option::unwrap()` on a `None` value"
  | .error e => .panic ("called `Result::unwrap()` on an `Err` value: " ++ e)

/-- `upstream.to_socket_addrs()` of a `Backend`. -/
def Backend.socketAddrs (b : Backend) : Except String (List (IpAddr × Nat)) :=
  match b.addr with
  | .inet ip port => .ok [(ip, port)]
  | .unix _ => .error "not an internet address"

def LoadBalancerCluster.selectPeer (c : LoadBalancerCluster) :
    Act (St K Unit) PingoraGuideError HttpPeer := do
  let keyStr ← c.hashKey
  match ← lbSelect c.lb (utf8 keyStr) 256 with
  | none => Act.throw (.Gateway .UpstreamUnavailable)
  | some upstream =>
    recordPeer upstream.addr c.sni
    let addr ← Act.ofRes (firstAddr upstream.socketAddrs)
    pure ({ address := addr, tls := c.tls, sni := c.sni : HttpPeer }.withOptions c.options)

structure StaticUpstream where
  addr : String × Nat
  tls : Bool
  sni : String
  options : ClusterOptions
  isUds : Bool

def StaticUpstream.newUds (path : String) (options : ClusterOptions) : StaticUpstream where
  addr := (path, 0)
  tls := false
  sni := ""
  options := options
  isUds := true

/-- The address of the peer: a socket path, or the first address the host resolves to. -/
def StaticUpstream.peerAddr (u : StaticUpstream) : Res PingoraGuideError SocketAddr :=
  if u.isUds then
    match K.udsAddr u.addr.1 with
    | .ok addr => .ok addr
    | .error e => .err (.Pingora e)
  else firstAddr (K.toSocketAddrs (u.addr.1 ++ ":" ++ toString u.addr.2))

def StaticUpstream.selectPeer (u : StaticUpstream) :
    Act (St K Unit) PingoraGuideError HttpPeer := do
  let addr ← Act.ofRes (u.peerAddr (K := K))
  recordPeer addr u.sni
  pure ({ address := addr, tls := u.tls, sni := u.sni : HttpPeer }.withOptions u.options)

inductive Upstream where
  | cluster (c : LoadBalancerCluster)
  | static (u : StaticUpstream)

def Upstream.selectPeer : Upstream → Act (St K Unit) PingoraGuideError HttpPeer
  | .cluster c => c.selectPeer
  | .static u => u.selectPeer

/-- The SNI an upstream was built with. -/
def Upstream.sni : Upstream → String
  | .cluster c => c.sni
  | .static u => u.sni

/-! ## The factory -/

variable (K) in
def resolveBackends : List BackendConf → Except PError (List Backend)
  | [] => .ok []
  | b :: bs =>
    match K.toSocketAddrs b.address with
    | .ok addrs => do
      let rest ← resolveBackends bs
      .ok (addrs.map (fun a => ⟨.inet a.1 a.2, b.weight⟩) ++ rest)
    | .error e => .error (.explain .InternalError e)

variable (K) in
/-- `factory.rs:148-195`: the health check a configuration asks for. -/
def makeHealthCheck (conf : UpstreamConf) : HealthCheckConf → HealthCheck
  | .Tcp common => .Tcp common.timeout common.consecutiveSuccess common.consecutiveFailure
  | .Http common path _ =>
    let host :=
      match conf.source with
      | .Dns hostname _ => hostname
      | _ => "localhost"
    .Http host conf.options.tls ((K.parseUri path).getD "/")
      common.timeout common.consecutiveSuccess common.consecutiveFailure
  | .Custom common command =>
    .Command command common.timeout [] common.consecutiveFailure common.consecutiveSuccess

def HealthCheckConf.common : HealthCheckConf → HealthCheckCommon
  | .Tcp common | .Http common _ _ | .Custom common _ => common

variable (K) in
def finalizeLb (lb : LoadBalancer) (conf : UpstreamConf) : LoadBalancer :=
  match conf.healthCheck with
  | some hc =>
    { lb with
      healthCheck := some (makeHealthCheck K conf hc)
      healthCheckFrequency := some hc.common.interval
      parallelHealthCheck := true }
  | none => { lb with parallelHealthCheck := true }

variable (K) in
/-- The load balancer of a source (factory.rs:213-262). -/
def makeLb (conf : UpstreamConf) : Except PError LoadBalancer :=
  match conf.source with
  | .Static backends => do
    let upstreams ← resolveBackends K backends
    .ok { selection := conf.selection, discovery := .Static upstreams.toFinset }
  | .Dns hostname refreshInterval =>
    .ok { selection := conf.selection, discovery := .Dns hostname
          updateFrequency := some refreshInterval }
  | .File path format refreshInterval =>
    .ok { selection := conf.selection, discovery := .File path format
          updateFrequency := some refreshInterval }
  | .Uds _ =>
    .error (.explain (.Custom "InvalidConfiguration")
      "Unix Domain Sockets cannot be used with Load Balancer Selection algorithms.")

variable (K) in
def makeLbInstance (conf : UpstreamConf) : Except PError Upstream := do
  let lb ← makeLb K conf
  .ok (.cluster (.new (finalizeLb K lb conf) conf.options.tls (conf.options.sni.getD "")
    (some conf.options) (some conf.hashSource)))

variable (K) in
def makeUpstream (conf : UpstreamConf) : Except PError Upstream :=
  match conf.source with
  | .Uds path => .ok (.static (.newUds path conf.options))
  | _ => makeLbInstance K conf

variable (K) in
def upstreamMap : List UpstreamConf → (String → Option Upstream) →
    Except PError (String → Option Upstream)
  | [], m => .ok m
  | conf :: confs, m => do
    let upstream ← makeUpstream K conf
    upstreamMap confs (Function.update m conf.id (some upstream))

/-! ## What building and selecting leave -/

@[simp] theorem finalizeLb_discovery (lb : LoadBalancer) (conf : UpstreamConf) :
    (finalizeLb K lb conf).discovery = lb.discovery := by
  unfold finalizeLb
  cases conf.healthCheck <;> rfl

theorem makeLbInstance_eq_ok {conf : UpstreamConf} {u : Upstream} :
    makeLbInstance K conf = .ok u ↔ ∃ lb, makeLb K conf = .ok lb ∧
      u = .cluster (.new (finalizeLb K lb conf) conf.options.tls (conf.options.sni.getD "")
        (some conf.options) (some conf.hashSource)) := by
  unfold makeLbInstance
  cases makeLb K conf with
  | error e => simp [bind, Except.bind]
  | ok lb => simp [bind, Except.bind, eq_comm]

theorem makeLbInstance_eq_error {conf : UpstreamConf} {e : PError} :
    makeLbInstance K conf = .error e ↔ makeLb K conf = .error e := by
  unfold makeLbInstance
  cases makeLb K conf <;> simp [bind, Except.bind]

/-- A static source is resolved when the load balancer is built. -/
theorem makeLb_static {conf : UpstreamConf} {backends : List BackendConf}
    (hsource : conf.source = .Static backends) :
    makeLb K conf = (resolveBackends K backends).map fun l =>
      { selection := conf.selection, discovery := .Static l.toFinset } := by
  unfold makeLb
  rw [hsource]
  dsimp only
  cases resolveBackends K backends <;> rfl

/-- The SNI a configuration ends up with: none configured is the empty string, and a socket
path drops the configured one. -/
theorem makeUpstream_sni {conf : UpstreamConf} {u : Upstream} (h : makeUpstream K conf = .ok u) :
    u.sni = match conf.source with
      | .Uds _ => ""
      | _ => conf.options.sni.getD "" := by
  unfold makeUpstream at h
  cases hs : conf.source with
  | Uds path =>
    simp only [hs, Except.ok.injEq] at h
    subst h
    rfl
  | Static | Dns | File =>
    simp only [hs] at h
    obtain ⟨lb, -, rfl⟩ := makeLbInstance_eq_ok.1 h
    rfl

end PingoraGuide
