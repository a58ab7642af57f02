import PingoraGuide.BodySize
import PingoraGuide.HookOrder
/-!
# The state a consumer unwraps is there

`new_ctx` creates `RequestMeta`; `handle_request` of `request_size` creates `RequestSizeState`. Every
`expect` on the two, and the lookup of `handle_logging`, is reached only after its producer ran, in
any chain that contains the middlewares of `main` (`MainWithin`): no phase empties a cell, and a
request is proxied only after all request hooks continued.
-/
namespace PingoraGuide
open Fallible Wire

variable {K : Crates} {β ε : Type}

def Present (t : CtxType K) (s : St K β) : Prop := ∃ v, s.ctx.get t = some v

/-- `ctx.get::<T>().expect(..)` returns the value and leaves the state. -/
def ExpectSucceeds (t : CtxType K) (s : St K β) : Prop :=
  ∀ (ε : Type) (msg : String), ∃ v, (ctxExpect t msg : Act (St K β) ε _) s = (.ok v, s)

theorem Present.expect {t : CtxType K} {s : St K β} (h : Present t s) : ExpectSucceeds t s := by
  intro _ msg
  obtain ⟨v, hv⟩ := h
  exact ⟨v, ctxExpect_of_some msg hv⟩

/-- The cells this module is about. -/
def CtxType.PerRequest (t : CtxType K) : Prop := t = .requestMeta ∨ t = .requestSizeState

/-- No hook of the middleware empties the cell. -/
def Middleware.KeepsCell (m : Middleware K) (t : CtxType K) : Prop :=
  ∀ {β : Type} (c : HookCall β), Act.Keeps (Present t) (m.hook c)

/-- A chain with the middlewares of `main`; the others empty neither cell. -/
structure MainWithin (g : Gateway K) (conf : ServerConf) : Prop where
  contains : ∀ m ∈ mainMiddlewares K conf, m ∈ g.middlewares
  others : ∀ m ∈ g.middlewares, m ∉ mainMiddlewares K conf →
    ∀ t : CtxType K, t.PerRequest → m.KeepsCell t

/-- The state of a request with a message lent to a phase. -/
def St.lend (s : St K Unit) (m : β) : St K β := ⟨s.session, s.ctx, m, s.metrics, s.calls⟩

/-- Every consumer that can be called next finds its state. -/
structure StatePresent (g : Gateway K) (c : Cfg K) : Prop where
  /-- gateway.rs:104-106 -/
  requestFilter : c.1 = .request →
    ExpectSucceeds .requestMeta ((newUuid : Act (St K Unit) PError String) c.2).2
  /-- gateway.rs:71 -/
  upstreamPeer : c.1 = .proxying → ExpectSucceeds .requestMeta (c.2.log .upstreamPeer)
  /-- gateway.rs:197, after the hooks and the lookup of the route -/
  upstreamRequest : c.1 = .proxying → ∀ req s,
    runHooks .upstreamRequest g.chain (c.2.lend req) = (.ok .Continue, s) →
    ExpectSucceeds .requestMeta ((expectRouteConf : Act (St K RequestHeader) PError RouteConf) s).2
  /-- request_size.rs:66-67, wherever the body hooks are called -/
  requestBody : c.1 = .proxying → ∀ body eos,
    ∀ v ∈ hookVisits (.requestBody eos) proceeds g.chain (c.2.lend body),
      ExpectSucceeds .requestSizeState v.before
  /-- metrics.rs:79, wherever the logging hooks are called -/
  logging : ∀ e, c.1 = .finish e →
    ∀ v ∈ hookVisits (.logging e) proceedsLenient g.chain.reverse c.2, Present .requestMeta v.before

/-! ## No phase empties a cell -/

section
variable {g : Gateway K} {conf : ServerConf} {t : CtxType K}

theorem present_modify {ctx : GatewayContext (CtxVal K)} {t t' : CtxType K}
    {f : CtxVal K t' → CtxVal K t'} (h : ∃ v, ctx.get t = some v) :
    ∃ v, (ctx.modify t' f).get t = some v := by
  obtain ⟨v, hv⟩ := h
  by_cases ht : t = t'
  · subst ht
    exact ⟨f v, by simp [hv]⟩
  · exact ⟨v, (ctx.get_modify_ne f ht).trans hv⟩

theorem present_insert {ctx : GatewayContext (CtxVal K)} {t t' : CtxType K} {w : CtxVal K t'}
    (h : ∃ v, ctx.get t = some v) : ∃ v, (ctx.insert t' w).get t = some v := by
  obtain ⟨v, hv⟩ := h
  by_cases ht : t = t'
  · subst ht
    exact ⟨w, by simp⟩
  · exact ⟨v, (ctx.get_insert_ne w ht).trans hv⟩

theorem main_keepsCell {m : Middleware K} (hm : m ∈ mainMiddlewares K conf) :
    m.KeepsCell t := by
  intro β c
  refine main_hook_keeps (P := fun ctx => ∃ v, ctx.get t = some v) ?_ hm c
  intro ctx h
  exact ⟨present_insert h, fun f => present_modify h⟩

theorem MainWithin.keepsCell (hg : MainWithin g conf) (ht : t.PerRequest) {m : Middleware K}
    (hm : m ∈ g.middlewares) : m.KeepsCell t := by
  by_cases hmain : m ∈ mainMiddlewares K conf
  · exact main_keepsCell hmain
  · exact hg.others m hm hmain t ht

theorem present_stable (hg : MainWithin g conf) (ht : t.PerRequest) (e : Effect) :
    g.Stable (fun s => Present t s) e := by
  by_cases he : e = .enter
  · subst he
    intro s hs
    have hopen : Present t (openRequest s) := present_modify hs
    exact ⟨hopen, fun entry => present_insert (present_insert (present_modify hopen))⟩
  · refine ctx_stable (P := fun ctx => ∃ v, ctx.get t = some v) ?_ ?_ e he
    · exact fun c m hm s hs => hg.keepsCell ht hm c s hs
    · exact fun ctx addr sni hs => present_modify hs

theorem visitHook_present (hg : MainWithin g conf) (ht : t.PerRequest) (c : HookCall β) :
    ∀ m ∈ g.chain, ∀ s, Present t s → Present t (visitHook c m s).2 :=
  fun _ hm s hs => hg.keepsCell ht (List.fst_mem_of_mem_zipIdx hm) c s hs

/-! ## `RequestSizeState` -/

/-- A request is let through with the counter created. -/
theorem requestFilter_creates (hg : MainWithin g conf) {s s' : St K Unit}
    (h : g.requestFilter s = (.ok false, s')) : Present .requestSizeState s' := by
  obtain ⟨rm, entry, -, -, hrun⟩ := requestFilter_ok_false h
  have hmem : requestSize K (maxBytesOf conf) ∈ g.middlewares :=
    hg.contains _ (by simp [mainMiddlewares])
  obtain ⟨i, hi⟩ := List.getElem?_of_mem hmem
  have hchain : (requestSize K (maxBytesOf conf), i) ∈ g.chain :=
    List.mk_mem_zipIdx_iff_getElem?.2 hi
  have hall : ∀ v ∈ hookVisits .request proceeds g.chain (enterRoute s entry),
      proceeds v.out = true := by
    intro v hv
    rw [(runHooks_visits .request g.chain (enterRoute s entry)).1 (by rw [hrun]) v hv]
    rfl
  have hs' : s' = afterHooks .request proceeds g.chain (enterRoute s entry) := by
    rw [← runHooks_snd, hrun]
  rw [hs']
  refine Pipeline.final_establishes hchain ?_ (visitHook_present hg (.inr rfl) .request) hall
  exact fun s => ⟨_, (handleRequest_size (maxBytesOf conf) s).2⟩

/-! ## Every run -/

theorem run_requestMeta (hg : MainWithin g conf) {session : Session} {ps : List Phase} {c : Cfg K}
    (h : g.run (Gateway.start session) ps = some c) : Present .requestMeta c.2 := by
  refine run_stable (fun _ _ e _ => present_stable hg (.inl rfl) e) ?_ h
  exact ⟨{}, by simp [Gateway.start, newCtx]⟩

/-- A request being proxied was let through by `request_filter`, and no phase since emptied the
cell. -/
theorem step_proxying (hg : MainWithin g conf) {c c' : Cfg K} {p : Phase}
    (hc : c.1 = .proxying → Present .requestSizeState c.2) (h : g.step c p = some c')
    (hc' : c'.1 = .proxying) : Present .requestSizeState c'.2 := by
  obtain ⟨stage, s⟩ := c
  by_cases hstage : stage = .proxying
  · obtain ⟨x, hx, rfl⟩ := Gateway.step_eq_some.1 h
    rw [Gateway.settle_snd]
    exact phase_keeps (fun e _ => present_stable hg (.inr rfl) e) hx s (hc hstage)
  · obtain ⟨x, hx, rfl⟩ := Gateway.step_eq_some.1 h
    cases Gateway.makes_of_phase g hx
    case requestFilter =>
      rw [Gateway.settle_bind_pure] at hc' ⊢
      rcases hr : g.requestFilter s with ⟨handled | e | msg, s'⟩ <;> rw [hr] at hc'
      · cases handled with
        | false => exact requestFilter_creates hg hr
        | true => simp at hc'
      · simp at hc'
      · simp at hc'
    case earlyRequestFilter | failToProxy | logging =>
      rw [Gateway.settle_bind_pure] at hc'
      split at hc' <;> simp at hc'
    all_goals exact absurd rfl hstage

theorem run_requestSizeState (hg : MainWithin g conf) {session : Session} {ps : List Phase}
    {c : Cfg K} (h : g.run (Gateway.start session) ps = some c) (hc : c.1 = .proxying) :
    Present .requestSizeState c.2 := by
  refine Trace.run_always (I := fun c => c.1 = .proxying → Present .requestSizeState c.2) ?_ ?_ h hc
  · exact fun c p c' hI hs hc' => step_proxying hg hI hs hc'
  · simp [Gateway.start]

/-- **Per-request state is always there.** In every run, for every chain that contains the
middlewares of `main` and otherwise middlewares that empty neither cell, each consumer of
`RequestMeta` and of `RequestSizeState` finds its value. -/
theorem request_state_present (hg : MainWithin g conf) {session : Session} {ps : List Phase}
    {c : Cfg K} (h : g.run (Gateway.start session) ps = some c) : StatePresent g c := by
  have hmeta := run_requestMeta hg h
  constructor
  case requestFilter =>
    intro _
    have hopen : Present .requestMeta ((newUuid : Act (St K Unit) PError String) c.2).2 := hmeta
    exact hopen.expect
  case upstreamPeer =>
    intro _
    have hpeer : Present .requestMeta (c.2.log .upstreamPeer) := hmeta
    exact hpeer.expect
  case upstreamRequest =>
    intro _ req s hrun
    have hkeep : Act.Keeps (Present .requestMeta) (runHooks .upstreamRequest g.chain) :=
      runHooks_keeps (visitHook_present hg (.inl rfl) .upstreamRequest)
    have hs := hkeep (c.2.lend req) hmeta
    rw [hrun] at hs
    have hlook : Present .requestMeta
        ((expectRouteConf : Act (St K RequestHeader) PError RouteConf) s).2 := hs
    exact hlook.expect
  case requestBody =>
    intro hproxying body eos v hv
    have hsize : Present .requestSizeState (c.2.lend body) := run_requestSizeState hg h hproxying
    have hkeep := visitHook_present hg (.inr rfl) (.requestBody eos)
    exact ((Pipeline.visits_keeps hkeep hsize).1 v hv).expect
  case logging =>
    intro e _ v hv
    have hkeep : ∀ m ∈ g.chain.reverse, ∀ s, Present .requestMeta s →
        Present .requestMeta (visitHook (.logging e) m s).2 :=
      fun m hm => visitHook_present hg (.inl rfl) (.logging e) m (by simpa using hm)
    exact (Pipeline.visits_keeps hkeep hmeta).1 v hv

end

/-- The plain gateway with one more middleware, before those of `main`. -/
def auditedGateway : Gateway refCrates :=
  { plainGateway with middlewares := { name := "audit" } :: plainGateway.middlewares }

theorem request_state_present_audited :
    ∃ s, auditedGateway.run (Gateway.start (getRequest "/")) [.earlyRequestFilter, .requestFilter] =
        some (.proxying, s) ∧
      StatePresent auditedGateway (.proxying, s) := by
  have hg : MainWithin auditedGateway plainConf.server := by
    constructor
    case contains => exact fun m hm => List.mem_cons_of_mem _ hm
    case others =>
      intro m hm hother t _ β c
      rcases List.mem_cons.1 hm with rfl | hm
      · cases c <;> exact Act.Keeps.pure _
      · exact absurd hm hother
  have hopens : (auditedGateway.run (Gateway.start (getRequest "/"))
      [.earlyRequestFilter, .requestFilter]).map Prod.fst = some .proxying := by
    decide +kernel
  obtain ⟨⟨_, s⟩, hrun, rfl⟩ := Option.map_eq_some_iff.1 hopens
  exact ⟨s, hrun, request_state_present hg hrun⟩

end PingoraGuide
