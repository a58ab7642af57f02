import PingoraGuide.Discovery
import PingoraGuide.Selection
import PingoraGuide.Startup
/-!
# The peer of an attempt

From the configuration file to the connection: whatever came before, an `upstream_peer` that
returns `Ok` returns a peer with the options of the upstream its route names, whichever of the two
implementors of `Upstream` serves it, and `RequestMeta` names that peer until the next attempt.

| here | meaning |
| --- | --- |
| `Configured`    | the peer is what this upstream configuration asks for |
| `RecordsPeer`   | address and SNI in `RequestMeta` are those of the peer |
-/
namespace PingoraGuide
open Fallible Wire

variable {K : Crates}

/-- The TLS settings of an upstream: those of its options, but a socket path has none. -/
def UpstreamConf.connects (up : UpstreamConf) : Bool × String :=
  match up.source with
  | .Uds _ => (false, "")
  | _ => (up.options.tls, up.options.sni.getD "")

/-- Where an attempt of this upstream may connect to: its socket, or the backend that its load
balancer answered with. -/
def UpstreamConf.Offers (up : UpstreamConf) (K : Crates) (addr : SocketAddr) : Prop :=
  match up.source with
  | .Uds path => K.udsAddr path = .ok addr
  | _ => ∃ lb n key b, makeLb K up = .ok lb ∧
      K.lbSelect (finalizeLb K lb up) n key 256 = some b ∧ b.addr = addr

structure Configured (K : Crates) (up : UpstreamConf) (peer : HttpPeer) : Prop where
  address : up.Offers K peer.address
  tls : (peer.tls, peer.sni) = up.connects
  timeouts : peer.connectionTimeout = some up.options.connectTimeout ∧
    peer.readTimeout = some up.options.readTimeout ∧
    peer.writeTimeout = some up.options.writeTimeout ∧ peer.idleTimeout = up.options.idleTimeout
  alpn : peer.alpn = .H2H1 ↔ up.options.enableH2 = true
  verifyHostname : peer.verifyHostname = up.options.verifyHostname

def RecordsPeer (peer : HttpPeer) (ctx : GatewayContext (CtxVal K)) : Prop :=
  ∃ rm : RequestMeta, ctx.get .requestMeta = some rm ∧ rm.peerAddr = some peer.address ∧
    rm.sni = some peer.sni

/-! ## `select_peer` -/

theorem withOptions_configured {up : UpstreamConf} {addr : SocketAddr}
    (haddr : up.Offers K addr) :
    Configured K up (HttpPeer.withOptions
      { address := addr, tls := up.connects.1, sni := up.connects.2 } up.options) := by
  refine ⟨haddr, rfl, ⟨rfl, rfl, rfl, rfl⟩, ?_, rfl⟩
  unfold HttpPeer.withOptions
  cases up.options.enableH2 <;> simp

theorem recordPeer_records {rm : RequestMeta} {s : St K Unit} (hmeta : s.ctx.get .requestMeta = some rm)
    (peer : HttpPeer) : RecordsPeer peer (recordPeer peer.address peer.sni s).2.ctx := by
  refine ⟨{ rm with peerAddr := some peer.address, sni := some peer.sni }, ?_, rfl, rfl⟩
  change (s.ctx.modify .requestMeta _).get .requestMeta = _
  rw [GatewayContext.get_modify_self, hmeta]
  rfl

/-- A cluster connects to the answer of its load balancer, and records it. -/
theorem cluster_selectPeer_ok {c : LoadBalancerCluster} {s s' : St K Unit} {peer : HttpPeer}
    (h : c.selectPeer s = (.ok peer, s')) :
    ∃ n key b s1, K.lbSelect c.lb n key 256 = some b ∧ s1.ctx = s.ctx ∧
      peer = HttpPeer.withOptions { address := b.addr, tls := c.tls, sni := c.sni } c.options ∧
      s' = (recordPeer peer.address peer.sni s1).2 := by
  obtain ⟨key, s1, hkey, h⟩ := Act.bind_eq_ok.1 h
  obtain ⟨found, s2, hsel, h⟩ := Act.bind_eq_ok.1 h
  have hctx1 : s1.ctx = s.ctx := by
    have := hashKey_keeps (J := fun s' => s'.ctx = s.ctx) (g := ⟨.empty, fun _ => none, []⟩) c
      (fun _ _ _ hs => hs) s rfl
    rwa [hkey] at this
  have hctx2 : s2.ctx = s1.ctx := (congrArg (fun r => r.2.ctx) hsel).symm
  cases found with
  | none => cases h
  | some b =>
    obtain ⟨_, s3, hrec, h⟩ := Act.bind_eq_ok.1 h
    obtain ⟨addr, s4, haddr, h⟩ := Act.bind_eq_ok.1 h
    obtain rfl : s3 = s4 := congrArg Prod.snd haddr
    obtain rfl : s3 = s' := congrArg Prod.snd h
    have hpeer : HttpPeer.withOptions { address := addr, tls := c.tls, sni := c.sni } c.options =
        peer := Res.ok.inj (congrArg Prod.fst h)
    -- `HttpPeer::new` resolves the backend once more: an internet address is its own resolution
    obtain rfl : addr = b.addr := by
      have hres : firstAddr b.socketAddrs = .ok addr := congrArg Prod.fst haddr
      unfold Backend.socketAddrs at hres
      cases hb : b.addr with
      | inet ip port =>
        rw [hb] at hres
        exact (Res.ok.inj hres).symm
      | unix path =>
        rw [hb] at hres
        cases hres
    refine ⟨s1.session.selects, utf8 key, b, s2, ?_, hctx2.trans hctx1, hpeer.symm, ?_⟩
    · exact Res.ok.inj (congrArg Prod.fst hsel)
    · rw [← hpeer]
      exact (congrArg Prod.snd hrec).symm

/-- A socket path connects to its socket. -/
theorem uds_selectPeer_ok {path : String} {options : ClusterOptions} {s s' : St K Unit}
    {peer : HttpPeer} (h : (StaticUpstream.newUds path options).selectPeer s = (.ok peer, s')) :
    K.udsAddr path = .ok peer.address ∧
      peer = HttpPeer.withOptions { address := peer.address, tls := false, sni := "" } options ∧
      s' = (recordPeer peer.address peer.sni s).2 := by
  obtain ⟨addr, s1, haddr, h⟩ := Act.bind_eq_ok.1 h
  obtain rfl : s = s1 := congrArg Prod.snd haddr
  obtain ⟨_, s2, hrec, h⟩ := Act.bind_eq_ok.1 h
  obtain rfl : s2 = s' := congrArg Prod.snd h
  obtain rfl : HttpPeer.withOptions { address := addr, tls := false, sni := "" } options = peer :=
    Res.ok.inj (congrArg Prod.fst h)
  refine ⟨?_, rfl, (congrArg Prod.snd hrec).symm⟩
  have hres : (StaticUpstream.newUds path options).peerAddr (K := K) = .ok addr :=
    congrArg Prod.fst haddr
  unfold StaticUpstream.peerAddr at hres
  cases hk : K.udsAddr path with
  | ok a =>
    simp only [StaticUpstream.newUds, hk] at hres
    exact congrArg Except.ok (Res.ok.inj hres)
  | error e => simp [StaticUpstream.newUds, hk] at hres

theorem selectPeer_configured {up : UpstreamConf} {u : Upstream} (hmake : makeUpstream K up = .ok u)
    {rm : RequestMeta} {s s' : St K Unit} {peer : HttpPeer}
    (hmeta : s.ctx.get .requestMeta = some rm) (h : u.selectPeer s = (.ok peer, s')) :
    Configured K up peer ∧ RecordsPeer peer s'.ctx := by
  unfold makeUpstream at hmake
  cases hsource : up.source with
  | Uds path =>
    rw [hsource] at hmake
    obtain rfl : _ = u := Except.ok.inj hmake
    obtain ⟨haddr, hpeer, rfl⟩ := uds_selectPeer_ok h
    have hconnects : up.connects = (false, "") := by simp [UpstreamConf.connects, hsource]
    have hoffers : up.Offers K peer.address := by
      unfold UpstreamConf.Offers
      rw [hsource]
      exact haddr
    have hconf := withOptions_configured hoffers
    rw [hconnects, ← hpeer] at hconf
    exact ⟨hconf, recordPeer_records hmeta peer⟩
  | Static | Dns | File =>
    rw [hsource] at hmake
    obtain ⟨lb, hlb, rfl⟩ := makeLbInstance_eq_ok.1 hmake
    obtain ⟨n, key, b, s1, hsel, hctx, rfl, rfl⟩ := cluster_selectPeer_ok h
    have hconnects : up.connects = (up.options.tls, up.options.sni.getD "") := by
      simp [UpstreamConf.connects, hsource]
    have hoffers : up.Offers K b.addr := by
      unfold UpstreamConf.Offers
      rw [hsource]
      exact ⟨lb, n, key, b, hlb, hsel, rfl⟩
    have hconf := withOptions_configured hoffers
    rw [hconnects] at hconf
    exact ⟨hconf, recordPeer_records (hctx ▸ hmeta) _⟩

/-! ## From the file to the peer -/

variable {g : Gateway K}

/-- Nothing but `select_peer` touches the record. -/
theorem recordsPeer_stable {conf : ServerConf} (hmain : g.middlewares = mainMiddlewares K conf)
    (peer : HttpPeer) {e : Effect} (he : e ≠ .enter ∧ e ≠ .record) :
    g.Stable (fun s => RecordsPeer peer s.ctx) e := by
  cases e with
  | hook k =>
    rintro β c - m hm s ⟨rm, hget, hrm⟩
    exact ⟨rm, (main_hook_get (hmain ▸ List.fst_mem_of_mem_zipIdx hm) c (by simp) s).trans hget, hrm⟩
  | write => exact write_keeps fun _ _ _ hs => hs
  | enter => exact absurd rfl he.1
  | record => exact absurd rfl he.2
  | counters => exact fun _ _ _ hs => hs
  | peer => exact fun _ hs => ⟨hs, fun _ => hs⟩
  | lookup => exact fun _ hs => hs
  | fail => exact fun _ _ hs => hs

/-- The phases between two attempts. -/
def WithinAttempt (ps : List Phase) : Prop := .upstreamPeer ∉ ps

theorem run_recordsPeer {conf : ServerConf} (hmain : g.middlewares = mainMiddlewares K conf)
    {peer : HttpPeer} {c c' : Cfg K} {ps : List Phase} (hps : WithinAttempt ps)
    (hlater : c.1.Later) (hc : RecordsPeer peer c.2.ctx) (h : g.run c ps = some c') :
    RecordsPeer peer c'.2.ctx := by
  have hwithin : Trace.Guarded g.step (fun _ p => p ≠ .upstreamPeer) c ps :=
    .of_labels fun p hp hpeer => hps (hpeer ▸ hp)
  refine (Trace.run_keeps (I := fun c => c.1.Later ∧ RecordsPeer peer c.2.ctx) ?_ ⟨hlater, hc⟩
    hwithin h).2
  rintro c p c' ⟨hlater, hc⟩ hp hs
  obtain ⟨hp', hlater'⟩ := step_later hlater hs
  obtain ⟨x, hx, rfl⟩ := Gateway.step_eq_some.1 hs
  refine ⟨hlater', ?_⟩
  rw [Gateway.settle_snd]
  refine phase_keeps (J := fun s => RecordsPeer peer s.ctx)
    (fun e he => recordsPeer_stable hmain peer ⟨(hp'.effects e he).1, ?_⟩) hx c.2 hc
  rintro rfl
  cases p <;> simp_all [Phase.effects]

/-- **The peer is the configured one.** After a successful start, for every request let through and
whatever phases it went through since: an `upstream_peer` that returns `Ok` returns the peer that
the last upstream configured under the route's id asks for, and `RequestMeta` holds its address and
SNI until the next `upstream_peer`. -/
theorem upstream_peer_configured {conf : GatewayConf} (hstart : mainGateway K conf = .ok g)
    {session : Session} {s : St K Unit}
    (hthrough : g.run (Gateway.start session) [.earlyRequestFilter, .requestFilter] =
      some (.proxying, s))
    {ps : List Phase} {stage : Stage} {s' : St K Unit}
    (hrun : g.run (.proxying, s) ps = some (stage, s'))
    {peer : HttpPeer} {s'' : St K Unit} (hpeer : g.upstreamPeer s' = (.ok peer, s'')) :
    ∃ entry up, g.matched (Gateway.start session).2 = .ok (some entry) ∧
      lastConfigured conf.upstreams entry.conf.val.upstreamId = some up ∧ Configured K up peer ∧
      ∀ ps' c, WithinAttempt ps' → g.run (.proxying, s'') ps' = some c → RecordsPeer peer c.2.ctx := by
  obtain ⟨hmap, -, hmain⟩ := mainGateway_ok hstart
  have hframes : ∀ m ∈ g.middlewares, m.Frames := hmain ▸ fun _ => main_frames
  obtain ⟨entry, hmatch, hcoh⟩ := requestFilter_coherent hframes (run_opening_main hmain hthrough)
  have hcoh' : Coherent entry s'.ctx :=
    run_coherent (c := (.proxying, s)) hframes Stage.proxying_later hcoh hrun
  have hget := (upstreamMap_get hmap).2 entry.conf.val.upstreamId
  rw [hcoh'.upstreamPeer_run] at hpeer
  cases hlast : lastConfigured conf.upstreams entry.conf.val.upstreamId with
  | none =>
    rw [hlast] at hget
    rw [hget] at hpeer
    obtain ⟨_, s1, -, hthrow⟩ := Act.bind_eq_ok.1 hpeer
    cases hthrow
  | some up =>
    obtain ⟨u, hmake⟩ := (upstreamMap_get hmap).1 up (lastConfigured_eq_some hlast).1
    rw [hlast, Option.bind_some, hmake] at hget
    have hu : g.upstreams entry.conf.val.upstreamId = some u := hget
    rw [hu] at hpeer
    dsimp only at hpeer
    rw [Act.mapErr_run, Prod.mk.injEq, Res.mapErr_eq_ok] at hpeer
    obtain ⟨rm, hmeta, -⟩ := hcoh'.requestMeta
    obtain ⟨hconf, hrec⟩ := selectPeer_configured
      (s := (s'.log .upstreamPeer).log (.selectPeer entry.conf.val.upstreamId)) hmake hmeta
      (Prod.ext hpeer.1 hpeer.2)
    refine ⟨entry, up, hmatch, hlast, hconf, fun ps' c hps' hrun' => ?_⟩
    exact run_recordsPeer (c := (.proxying, s'')) hmain hps' Stage.proxying_later hrec hrun'

/-- Two upstreams under one id: the second is the one that serves it. -/
def peerConf : GatewayConf where
  upstreams :=
    [{ id := "a", source := .Uds "/run/first.sock" },
     { id := "a", source := .Static oneBackend
       options := { connectTimeout := 1000, enableH2 := true, sni := some "backend" } }]
  routes := [{ path := "/", upstreamId := "a" }]

def peerGateway : Gateway refCrates := (mainGateway refCrates peerConf).toOption.get rfl

theorem upstream_peer_configured_last :
    ∃ s peer s'', peerGateway.run (Gateway.start (getRequest "/"))
        [.earlyRequestFilter, .requestFilter] = some (.proxying, s) ∧
      peerGateway.upstreamPeer s = (.ok peer, s'') ∧
      ∃ entry up, peerGateway.matched (Gateway.start (getRequest "/")).2 = .ok (some entry) ∧
        lastConfigured peerConf.upstreams entry.conf.val.upstreamId = some up ∧
        Configured refCrates up peer ∧
        ∀ ps' c, WithinAttempt ps' → peerGateway.run (.proxying, s'') ps' = some c →
          RecordsPeer peer c.2.ctx := by
  have hopens : (peerGateway.run (Gateway.start (getRequest "/"))
      [.earlyRequestFilter, .requestFilter]).map (fun c =>
        (c.1, (peerGateway.upstreamPeer c.2).1)) = some (.proxying, .ok
          { address := .inet loopback 80
            tls := false
            sni := "backend"
            connectionTimeout := some 1000
            readTimeout := some 60000
            writeTimeout := some 60000
            idleTimeout := some 60000
            alpn := .H2H1 }) := by
    decide +kernel
  obtain ⟨⟨stage, s⟩, hrun, heq⟩ := Option.map_eq_some_iff.1 hopens
  obtain ⟨rfl, hpeer⟩ := Prod.mk.inj heq
  have hstart : mainGateway refCrates peerConf = .ok peerGateway := rfl
  have hfirst : peerGateway.run (.proxying, s) [] = some (.proxying, s) := rfl
  exact ⟨s, _, _, hrun, Prod.ext hpeer rfl,
    upstream_peer_configured hstart hrun hfirst (Prod.ext hpeer rfl)⟩

end PingoraGuide
