import PingoraGuide.Footprint
import PingoraGuide.Routing
/-!
# One route per request

`request_filter` stores the matched route in four places. They agree when it lets the request
through, they still agree after any later phases (`select_peer` rewrites `RequestMeta`, but not the
fields that name the route), and so every `upstream_peer` delegates to the route's own upstream.
-/
namespace PingoraGuide
open Fallible Wire

variable {K : Crates}

/-- The cells that hold the routing decision. -/
def CtxType.HoldsRoute (t : CtxType K) : Prop :=
  t = .requestMeta ∨ t = .routeEntry ∨ t = .arcRouteConf

/-- No hook of the middleware writes a cell that holds the routing decision. -/
def Middleware.Frames (m : Middleware K) : Prop :=
  ∀ {β : Type} (c : HookCall β) (s : St K β) (t : CtxType K), t.HoldsRoute →
    (m.hook c s).2.ctx.get t = s.ctx.get t

/-- All four places hold the same route. -/
structure Coherent (entry : RouteEntry K) (ctx : GatewayContext (CtxVal K)) : Prop where
  routeEntry : ctx.get .routeEntry = some entry
  arcRouteConf : ctx.get .arcRouteConf = some entry.conf
  requestMeta : ∃ rm : RequestMeta, ctx.get .requestMeta = some rm ∧
    rm.matchedRouteId = some entry.conf.val.path ∧ rm.upstreamId = some entry.conf.val.upstreamId

variable {g : Gateway K} {entry : RouteEntry K}

theorem Coherent.congr {ctx ctx' : GatewayContext (CtxVal K)} (h : Coherent entry ctx)
    (heq : ∀ t : CtxType K, t.HoldsRoute → ctx'.get t = ctx.get t) : Coherent entry ctx' where
  routeEntry := (heq _ (.inr (.inl rfl))).trans h.routeEntry
  arcRouteConf := (heq _ (.inr (.inr rfl))).trans h.arcRouteConf
  requestMeta := by
    rw [heq _ (.inl rfl)]
    exact h.requestMeta

/-- `select_peer` writes to `RequestMeta`, but to none of the fields that name the route. -/
theorem Coherent.record {ctx : GatewayContext (CtxVal K)} (h : Coherent entry ctx)
    (addr : SocketAddr) (sni : String) :
    Coherent entry (ctx.modify .requestMeta fun (rm : RequestMeta) =>
      { rm with peerAddr := some addr, sni := some sni }) where
  routeEntry := by simp [GatewayContext.get_modify, h.routeEntry]
  arcRouteConf := by simp [GatewayContext.get_modify, h.arcRouteConf]
  requestMeta := by
    obtain ⟨rm, hget, hroute, hup⟩ := h.requestMeta
    refine ⟨{ rm with peerAddr := some addr, sni := some sni }, ?_, hroute, hup⟩
    simp [hget]

theorem coherent_stable (hframes : ∀ m ∈ g.middlewares, m.Frames) :
    ∀ e, e ≠ .enter → g.Stable (fun s => Coherent entry s.ctx) e :=
  ctx_stable (fun c m hm s hs => hs.congr (hframes m hm c s)) fun _ addr sni hs => hs.record addr sni

theorem coherent_enterRoute {s : St K Unit} {rm : RequestMeta}
    (hmeta : s.ctx.get .requestMeta = some rm) : Coherent entry (enterRoute s entry).ctx where
  routeEntry := (enterRoute_get entry).1
  arcRouteConf := (enterRoute_get entry).2.1
  requestMeta := ⟨_, enterRoute_requestMeta entry hmeta, rfl, rfl⟩

/-- When `request_filter` lets a request through, the four places agree. -/
theorem requestFilter_coherent (hframes : ∀ m ∈ g.middlewares, m.Frames) {s s' : St K Unit}
    (h : g.requestFilter s = (.ok false, s')) :
    ∃ entry, g.matched s = .ok (some entry) ∧ Coherent entry s'.ctx := by
  obtain ⟨rm, entry, hmeta, hmatch, hrun⟩ := requestFilter_ok_false h
  have hkeeps := Gateway.Stable.chain (J := fun s => Coherent entry s.ctx) (c := .request)
    (coherent_stable hframes (.hook .request) (by decide))
  have := hkeeps (enterRoute s entry) (coherent_enterRoute hmeta)
  rw [hrun] at this
  exact ⟨entry, hmatch, this⟩

/-- Any phases after `request_filter` leave the four places in agreement. -/
theorem run_coherent (hframes : ∀ m ∈ g.middlewares, m.Frames) {ps : List Phase} {c c' : Cfg K}
    (hlater : c.1.Later) (hc : Coherent entry c.2.ctx) (h : g.run c ps = some c') :
    Coherent entry c'.2.ctx := by
  refine (Trace.run_always (I := fun c => c.1.Later ∧ Coherent entry c.2.ctx) ?_
    ⟨hlater, hc⟩ h).2
  rintro c p c' ⟨hlater, hc⟩ hs
  obtain ⟨hp, hlater'⟩ := step_later hlater hs
  obtain ⟨x, hx, rfl⟩ := Gateway.step_eq_some.1 hs
  refine ⟨hlater', ?_⟩
  rw [Gateway.settle_snd]
  exact phase_keeps (J := fun s => Coherent entry s.ctx)
    (fun e he => coherent_stable hframes e (hp.effects e he).1) hx c.2 hc

/-- `upstream_peer` runs `select_peer` of the upstream under `id`, or returns `Err`. -/
def DelegatesTo (g : Gateway K) (id : String) (s : St K Unit) : Prop :=
  (∃ u, g.upstreams id = some u ∧
    g.upstreamPeer s = (u.selectPeer.mapErr PingoraGuideError.toPError)
      ((s.log .upstreamPeer).log (.selectPeer id))) ∨
  (g.upstreams id = none ∧ ∃ e s', g.upstreamPeer s = (.err e, s'))

/-- The branches of `upstream_peer` on a coherent context. -/
theorem Coherent.upstreamPeer_run {s : St K Unit} (h : Coherent entry s.ctx) :
    g.upstreamPeer s =
      match g.upstreams entry.conf.val.upstreamId with
      | some u => (u.selectPeer.mapErr PingoraGuideError.toPError)
          ((s.log .upstreamPeer).log (.selectPeer entry.conf.val.upstreamId))
      | none => (respondError 500 >>= fun _ =>
          Act.throw (upstreamError "Upstream config not found")) (s.log .upstreamPeer) := by
  obtain ⟨rm, hget, -, hup⟩ := h.requestMeta
  have hexp := ctxExpect_of_some (ε := PError) (s := s.log .upstreamPeer)
    "RequestMeta should exist" hget
  unfold Gateway.upstreamPeer
  refine (Act.bind_of_ok rfl).trans ((Act.bind_of_ok hexp).trans ?_)
  rw [hup]
  dsimp only
  cases g.upstreams entry.conf.val.upstreamId <;> rfl

theorem Coherent.delegates {s : St K Unit} (h : Coherent entry s.ctx) :
    DelegatesTo g entry.conf.val.upstreamId s := by
  have hrun := h.upstreamPeer_run (g := g)
  cases hu : g.upstreams entry.conf.val.upstreamId with
  | some u =>
    rw [hu] at hrun
    exact .inl ⟨u, hu, hrun⟩
  | none =>
    rw [hu] at hrun
    refine .inr ⟨hu, ?_⟩
    dsimp only at hrun
    rw [hrun]
    obtain ⟨_, -, -, -, ⟨hok, -⟩ | ⟨herr, -⟩⟩ := write_cases (.error 500) (s.log .upstreamPeer)
    · exact ⟨_, _, Act.bind_of_ok (Prod.ext hok rfl)⟩
    · exact ⟨_, _, Act.bind_of_err (Prod.ext herr rfl)⟩

/-- **One route per request.** A request let through by `request_filter` matched one configured
route; all four places hold it then and after any later phases, and every later `upstream_peer`
delegates to exactly that route's upstream, or returns `Err`. -/
theorem routing_coherence {conf : GatewayConf} (hrouter : Router.new K conf = .ok g.router)
    (hframes : ∀ m ∈ g.middlewares, m.Frames) {s s' : St K Unit}
    (h : g.requestFilter s = (.ok false, s')) :
    ∃ entry, g.matched s = .ok (some entry) ∧ entry.conf.val ∈ conf.routes ∧
      Coherent entry s'.ctx ∧
      ∀ ps stage s'', g.run (.proxying, s') ps = some (stage, s'') →
        Coherent entry s''.ctx ∧ DelegatesTo g entry.conf.val.upstreamId s'' := by
  obtain ⟨entry, hmatch, hcoh⟩ := requestFilter_coherent hframes h
  obtain ⟨i, hmem, -⟩ := (new_indexed hrouter).matched_entry hmatch
  refine ⟨entry, hmatch, List.fst_mem_of_mem_zipIdx hmem, hcoh, fun ps stage s'' hrun => ?_⟩
  have := run_coherent (c := (.proxying, s')) hframes Stage.proxying_later hcoh hrun
  exact ⟨this, this.delegates⟩

/-- The middlewares of `main` write none of the four cells. -/
theorem main_frames {conf : ServerConf} {m : Middleware K} (hm : m ∈ mainMiddlewares K conf) :
    m.Frames := by
  intro β c s t ht
  refine main_hook_get hm c ?_ s
  rcases ht with rfl | rfl | rfl <;> simp

theorem routing_coherence_plain :
    ∃ s s', plainGateway.requestFilter s = (.ok false, s') ∧
      ∃ entry, plainGateway.matched s = .ok (some entry) ∧ Coherent entry s'.ctx := by
  obtain ⟨s', hs⟩ := plainGateway_opens
  obtain ⟨s, -, hreq⟩ := Gateway.run_opening hs
  obtain ⟨entry, hmatch, -, hcoh, -⟩ :=
    routing_coherence plainGateway_router (plainGateway_main ▸ fun _ => main_frames) hreq
  exact ⟨s, s', hreq, entry, hmatch, hcoh⟩

end PingoraGuide
