import PingoraGuide.Footprint
/-!
# Looking up the route

`request_filter` stores the matched route as an `Arc<RouteConf>`; four later phases ask the context
for a `RouteConf`. A context is keyed by the type, so with the middlewares of `main` every such
lookup finds nothing, and the three that unwrap it panic.
-/
namespace PingoraGuide
open Fallible Wire

variable {K : Crates} {β : Type}

/-- The phases that look up the route by the type `RouteConf`. -/
def Phase.LooksUpRoute : Phase → Prop
  | .upstreamRequestFilter _ | .upstreamResponseFilter _ | .responseFilter _ | .failToProxy => True
  | _ => False

/-- Every lookup so far found `route`, and the request did not crash on one. -/
def LookupsFind (route : RouteConf) (c : Cfg K) : Prop :=
  (∀ found, .routeLookup found ∈ c.2.calls → found = some route) ∧
    c.1 ≠ .crashed "RouteConf should exist"

variable {g : Gateway K} {conf : ServerConf}

/-! ## The cell `RouteConf` stays empty -/

theorem main_routeConf_stable (hmain : g.middlewares = mainMiddlewares K conf) :
    ∀ e, g.Stable (fun s => s.ctx.get .routeConf = none) e := by
  intro e
  by_cases he : e = .enter
  · subst he
    intro s hs
    refine ⟨?_, fun entry => ?_⟩
    · exact (s.ctx.get_modify_ne _ (by simp)).trans hs
    · exact ((enterRoute_get entry).2.2 .routeConf (by simp) (by simp) (by simp)).trans hs
  · refine ctx_stable (P := fun ctx => ctx.get .routeConf = none) ?_ ?_ e he
    · exact fun c m hm s hs => (main_hook_get (hmain ▸ hm) c (by simp) s).trans hs
    · exact fun ctx addr sni hs => (ctx.get_modify_ne _ (by simp)).trans hs

theorem Phase.LooksUpRoute.of_effect {p : Phase} (h : .lookup ∈ p.effects) : p.LooksUpRoute := by
  cases p <;> simp_all [Phase.effects, Phase.LooksUpRoute]

/-- Phases that look nothing up add no lookup to the log. -/
theorem noLookup_stable {p : Phase} (hp : ¬ p.LooksUpRoute) :
    ∀ e ∈ p.effects, g.Stable (fun s => ∀ found, .routeLookup found ∉ s.calls) e := by
  intro e he
  refine calls_stable (Q := fun l => ∀ found, Call.routeLookup found ∉ l) fun l c hlog hl found => ?_
  rw [List.mem_append, not_or, List.mem_singleton]
  refine ⟨hl found, ?_⟩
  rintro rfl
  cases e <;> simp only [Effect.Logs] at hlog
  exact hp (.of_effect he)

theorem logged_stable (call : Call) : ∀ e, g.Stable (fun s => call ∈ s.calls) e :=
  fun _ => calls_stable (Q := fun l => call ∈ l) fun _ _ _ hl => List.mem_append_left _ hl

/-! ## A lookup fails -/

theorem getRouteConf_none {ε : Type} {s : St K β} (h : s.ctx.get .routeConf = none) :
    (getRouteConf : Act (St K β) ε _) s = (.ok none, s.log (.routeLookup none)) := by
  have : (getRouteConf : Act (St K β) ε _) s =
      (.ok (s.ctx.get .routeConf), s.log (.routeLookup (s.ctx.get .routeConf))) := rfl
  rw [this, h]

theorem expectRouteConf_none {ε : Type} {s : St K β} (h : s.ctx.get .routeConf = none) :
    (expectRouteConf : Act (St K β) ε _) s =
      (.panic "RouteConf should exist", s.log (.routeLookup none)) :=
  Act.bind_of_ok (getRouteConf_none h)

/-- A phase that unwraps the lookup, after hooks that do nothing, logs the failed lookup. -/
theorem unwrap_logs {c : HookCall β} {ms : List (Middleware K × Nat)}
    (hms : ∀ m ∈ ms, m.1.Silent c) {err : PError} {α : Type} {rest : RouteConf → Act (St K β) PError α}
    {s : St K β} (h : s.ctx.get .routeConf = none) :
    .routeLookup none ∈ ((runHooks c ms >>= fun d =>
      if d == .Stop then Act.throw err else expectRouteConf >>= rest) s).2.calls := by
  rw [Act.bind_of_ok (runHooks_silent hms)]
  let s1 : St K β := { s with calls := s.calls ++ continues c ms }
  have : (expectRouteConf >>= rest : Act (St K β) PError α) s1 = _ :=
    Act.bind_of_panic (expectRouteConf_none (s := s1) h)
  change _ ∈ ((expectRouteConf >>= rest : Act (St K β) PError α) s1).2.calls
  rw [this]
  simp

theorem failToProxy_logs (hmain : g.middlewares = mainMiddlewares K conf) (e : PError)
    {s : St K Unit} (h : s.ctx.get .routeConf = none) :
    .routeLookup none ∈ (g.failToProxy e s).2.calls := by
  let s1 : St K Unit := { s with calls := s.calls ++ continues (.error e) g.chain.reverse }
  have hsilent := (chain_silent hmain (c := .error e) (by simp)).2
  have hpage : (serveErrorPage (errorStatus e.etype) : Act (St K Unit) PError Bool) s1 =
      (.ok false, s1.log (.routeLookup none)) :=
    Act.bind_of_ok (getRouteConf_none (s := s1) h)
  have hrest : ∀ code, Act.Keeps (fun s : St K Unit => Call.routeLookup none ∈ s.calls)
      (respondUnless false code >>= fun _ => logCall (.failToProxy code) >>= fun _ =>
        (pure ⟨code, false⟩ : Act (St K Unit) PError FailToProxy)) := by
    intro code
    refine (respondUnless_keeps (g := g) false _ (logged_stable _ .write)).bind fun _ => ?_
    exact Act.Keeps.bind (fun s hs => logged_stable (g := g) _ .fail s _ hs) fun _ => .pure _
  unfold Gateway.failToProxy
  rw [Act.bind_of_ok (runHooksLenient_silent hsilent)]
  change _ ∈ ((serveErrorPage _ >>= _) s1).2.calls
  rw [Act.bind_of_ok hpage]
  exact hrest _ _ (by simp)

theorem lookup_logs (hmain : g.middlewares = mainMiddlewares K conf) {stage : Stage} {p : Phase}
    {x : Act (St K Unit) PError Stage} (hx : g.phase stage p = some x) (hp : p.LooksUpRoute)
    {s : St K Unit} (h : s.ctx.get .routeConf = none) : .routeLookup none ∈ (x s).2.calls := by
  cases Gateway.makes_of_phase g hx
  case upstreamRequestFilter req =>
    rw [Act.bind_pure_snd]
    exact unwrap_logs (s := ⟨s.session, s.ctx, req, s.metrics, s.calls⟩)
      (chain_silent hmain (c := .upstreamRequest) (by simp)).1 h
  case upstreamResponseFilter resp =>
    rw [Act.bind_pure_snd]
    exact unwrap_logs (s := ⟨s.session, s.ctx, resp, s.metrics, s.calls⟩)
      (chain_silent hmain (c := .upstreamResponse) (by simp)).2 h
  case responseFilter resp =>
    rw [Act.bind_pure_snd]
    exact unwrap_logs (s := ⟨s.session, s.ctx, resp, s.metrics, s.calls⟩)
      (chain_silent hmain (c := .response) (by simp)).2 h
  case failToProxy e =>
    rw [Act.bind_pure_snd]
    exact failToProxy_logs hmain e h
  all_goals exact hp.elim

/-- A run that takes a phase that looks the route up has a failed lookup in its log. -/
theorem run_lookup_logs (hmain : g.middlewares = mainMiddlewares K conf) {ps : List Phase}
    {c c' : Cfg K} (hnone : c.2.ctx.get .routeConf = none) (hrun : g.run c ps = some c') {p : Phase}
    (hp : p ∈ ps) (hlooks : p.LooksUpRoute) : .routeLookup none ∈ c'.2.calls := by
  obtain ⟨qs, rs, c1, c2, rfl, hbefore, hs, hafter⟩ := Trace.run_mem hp hrun
  have hnone1 : c1.2.ctx.get .routeConf = none :=
    run_stable (J := fun s => s.ctx.get .routeConf = none)
      (fun _ _ e _ => main_routeConf_stable hmain e) hnone hbefore
  have hlogged : .routeLookup none ∈ c2.2.calls := by
    obtain ⟨x, hx, rfl⟩ := Gateway.step_eq_some.1 hs
    rw [Gateway.settle_snd]
    exact lookup_logs hmain hx hlooks hnone1
  exact run_stable (J := fun s => .routeLookup none ∈ s.calls)
    (fun _ _ e _ => logged_stable _ e) hlogged hafter

/-! ## No other phase panics like that -/

theorem ctxExpect_avoids {ε : Type} {t : CtxType K} {msg msg' : String} (h : msg' ≠ msg) :
    Act.Avoids msg (ctxExpect t msg' : Act (St K β) ε _) := by
  intro s hs
  unfold ctxExpect at hs
  cases hget : s.ctx.get t with
  | none =>
    rw [hget] at hs
    exact h (Res.panic.inj hs)
  | some v =>
    rw [hget] at hs
    cases hs

theorem respondError_avoids {code : Nat} {msg : String} :
    Act.Avoids msg (respondError code : Act (St K β) PError Unit) := by
  intro s hs
  obtain ⟨_, -, -, -, ⟨hok, -⟩ | ⟨herr, -⟩⟩ := write_cases (.error code) s
  · cases hok.symm.trans hs
  · cases herr.symm.trans hs

theorem main_hook_avoids {m : Middleware K} (hm : m ∈ mainMiddlewares K conf) (c : HookCall β) :
    Act.Avoids "RouteConf should exist" (m.hook c) := by
  refine HookRule.main (R := fun x => Act.Avoids "RouteConf should exist" x) ?_ hm c
  constructor
  case toUnloggedRule =>
    constructor
    case pure => exact fun _ => .pure _
    case stop => exact fun _ _ => respondError_avoids.mapErr.bind fun _ => .pure _
    case get => exact fun h => Act.Avoids.get.bind h
    case ctxGet => exact fun _ _ h => (Act.Avoids.ok fun s => ⟨_, rfl⟩).bind h
    case expectSize => exact fun h => (ctxExpect_avoids (by decide)).bind h
    case insertSize => exact fun h => (Act.Avoids.modify _).bind fun _ => h
    case modifySize => exact fun _ _ h => (Act.Avoids.modify _).bind fun _ => h
  case record => exact fun _ _ h => (Act.Avoids.modify _).bind fun _ => h

theorem firstAddr_avoids (found : Except String (List (IpAddr × Nat))) :
    firstAddr found ≠ .panic "RouteConf should exist" := by
  rcases found with e | _ | ⟨⟨ip, port⟩, rest⟩
  · intro h
    have := congrArg String.toList (Res.panic.inj h)
    simp at this
  · intro h
    exact absurd (Res.panic.inj h) (by decide)
  · simp [firstAddr]

theorem hashKey_avoids (c : LoadBalancerCluster) {msg : String} :
    Act.Avoids msg (c.hashKey (K := K)) := by
  refine Act.Avoids.get.bind fun s => ?_
  cases c.hashSource with
  | None => exact .pure _
  | ClientIp =>
    rcases s.session.clientAddr with _ | ⟨ip, port⟩ | path
    · exact .pure _
    · exact .pure _
    · exact .ok fun _ => ⟨_, rfl⟩
  | Cookie name => cases headerText s.session.reqHeader "Cookie" <;> exact .pure _
  | Uri => exact .pure _
  | Header name => exact .pure _

theorem selectPeer_avoids (u : Upstream) :
    Act.Avoids "RouteConf should exist" (u.selectPeer (K := K)) := by
  cases u with
  | cluster c =>
    have hselect : ∀ key, Act.Avoids "RouteConf should exist" (lbSelect (K := K) c.lb key 256) :=
      fun key => .ok fun _ => ⟨_, rfl⟩
    refine (hashKey_avoids c).bind fun key => (hselect _).bind fun found => ?_
    cases found with
    | none => exact .throw _
    | some b =>
      exact (Act.Avoids.modify _).bind fun _ =>
        (Act.Avoids.ofRes (firstAddr_avoids _)).bind fun _ => .pure _
  | static u =>
    refine (Act.Avoids.ofRes ?_).bind fun _ => (Act.Avoids.modify _).bind fun _ => .pure _
    unfold StaticUpstream.peerAddr
    split
    · cases K.udsAddr u.addr.1 <;> simp
    · exact firstAddr_avoids _

theorem upstreamPeer_avoids : Act.Avoids "RouteConf should exist" g.upstreamPeer := by
  refine (Act.Avoids.modify _).bind fun _ => (ctxExpect_avoids (by decide)).bind fun rm => ?_
  cases RequestMeta.upstreamId rm with
  | none => exact respondError_avoids.bind fun _ => .throw _
  | some id =>
    dsimp only
    cases g.upstreams id with
    | none => exact respondError_avoids.bind fun _ => .throw _
    | some u => exact (Act.Avoids.modify _).bind fun _ => (selectPeer_avoids u).mapErr

theorem runHooks_avoids {msg : String} {c : HookCall β} {ms : List (Middleware K × Nat)}
    (h : ∀ m ∈ ms, Act.Avoids msg (callHook c m)) : Act.Avoids msg (runHooks c ms) := by
  refine Act.Avoids.untilStop fun x hx => ?_
  obtain ⟨m, hm, rfl⟩ := List.mem_map.1 hx
  exact h m hm

theorem runHooksLenient_avoids {msg : String} {c : HookCall β} {ms : List (Middleware K × Nat)}
    (h : ∀ m ∈ ms, Act.Avoids msg (callHook c m)) : Act.Avoids msg (runHooksLenient c ms) := by
  refine Act.Avoids.untilStop fun x hx => ?_
  obtain ⟨m, hm, rfl⟩ := List.mem_map.1 hx
  exact (h m hm).unwrapOr

theorem phase_avoids (hmain : g.middlewares = mainMiddlewares K conf) {stage : Stage} {p : Phase}
    {x : Act (St K Unit) PError Stage} (hx : g.phase stage p = some x) (hp : ¬ p.LooksUpRoute)
    (hlater : p.Later) : Act.Avoids "RouteConf should exist" x := by
  have hhook : ∀ {β : Type} (c : HookCall β), ∀ m ∈ g.chain,
      Act.Avoids "RouteConf should exist" (callHook c m) :=
    fun c m hm s hs => main_hook_avoids (hmain ▸ List.fst_mem_of_mem_zipIdx hm) c s
      (Res.mapErr_eq_panic.1 hs)
  cases Gateway.makes_of_phase g hx
  case earlyRequestFilter => exact absurd rfl hlater.1
  case requestFilter => exact absurd rfl hlater.2
  case upstreamRequestFilter | upstreamResponseFilter | responseFilter | failToProxy =>
    exact absurd trivial hp
  case upstreamPeer => exact upstreamPeer_avoids.bind fun _ => .pure _
  case connectedToUpstream c =>
    refine Act.Avoids.bind ?_ fun _ => .pure _
    exact (runHooks_avoids (hhook (.upstreamConnected c))).bind fun d =>
      Act.Avoids.ite (.throw _) (.pure _)
  case requestBodyFilter body eos =>
    refine Act.Avoids.bind (fun s => ?_) fun _ => .pure _
    exact ((runHooks_avoids (hhook (.requestBody eos))).bind fun d =>
      Act.Avoids.ite (.throw _) (.pure _)) _
  case responseBodyFilter body eos =>
    refine Act.Avoids.bind (fun s => ?_) fun _ => .pure _
    exact ((runHooks_avoids fun m hm => hhook (.responseBody eos) m (by simpa using hm)).bind fun d =>
      Act.Avoids.ite (.throw _) (.pure _)) _
  case proxyError e => exact .throw e
  case proxied => exact .pure _
  case logging e =>
    refine Act.Avoids.bind (Act.Avoids.bind ?_ fun _ => .pure _) fun _ => .pure _
    exact runHooksLenient_avoids fun m hm => hhook (.logging e) m (by simpa using hm)

theorem run_avoids (hmain : g.middlewares = mainMiddlewares K conf) {ps : List Phase}
    {c c' : Cfg K} (hlater : c.1.Later) (hc : c.1 ≠ .crashed "RouteConf should exist")
    (hps : ∀ p ∈ ps, ¬ p.LooksUpRoute) (hrun : g.run c ps = some c') :
    c'.1 ≠ .crashed "RouteConf should exist" := by
  refine (Trace.run_keeps (I := fun c => c.1.Later ∧ c.1 ≠ .crashed "RouteConf should exist") ?_
    ⟨hlater, hc⟩ (.of_labels hps) hrun).2
  rintro c p ⟨stage, s'⟩ ⟨hlater, -⟩ hlooks hs
  obtain ⟨hp, hlater'⟩ := step_later hlater hs
  refine ⟨hlater', ?_⟩
  rintro rfl
  obtain ⟨x, hx, hpanic⟩ := Gateway.step_crashed hs
  exact phase_avoids hmain hx hlooks hp c.2 hpanic

/-! ## The verdict -/

/-- Before any later phase, no lookup is made and the cell is empty. -/
theorem opening_keeps (hmain : g.middlewares = mainMiddlewares K conf) {session : Session}
    {c : Cfg K} (h : g.run (Gateway.start session) [.earlyRequestFilter, .requestFilter] = some c) :
    c.2.ctx.get .routeConf = none ∧ ∀ found, .routeLookup found ∉ c.2.calls := by
  constructor
  · refine run_stable (J := fun s => s.ctx.get .routeConf = none)
      (fun _ _ e _ => main_routeConf_stable hmain e) ?_ h
    simp [Gateway.start, newCtx, GatewayContext.get_insert]
  · refine run_stable (J := fun s => ∀ found, .routeLookup found ∉ s.calls) (fun p hp => ?_) ?_ h
    · refine noLookup_stable ?_
      simp only [List.mem_cons, List.not_mem_nil, or_false] at hp
      rcases hp with rfl | rfl <;> exact id
    · simp [Gateway.start]

/-- The early hooks of `main` do nothing, so the lookup is made for the request as it came in. -/
theorem opening_matched (hmain : g.middlewares = mainMiddlewares K conf) {session : Session}
    {s : St K Unit} (h : g.run (Gateway.start session) [.earlyRequestFilter, .requestFilter] =
      some (.proxying, s)) :
    ∃ entry, g.matched (Gateway.start session).2 = .ok (some entry) := by
  obtain ⟨-, entry, -, hmatch, -⟩ := requestFilter_ok_false (run_opening_main hmain h)
  exact ⟨entry, hmatch⟩

/-- **No lookup of the route succeeds.** A request that `main`'s middlewares let through matched a
route; its later lookups all find that route, and none panics, exactly in the runs that make no
lookup at all. -/
theorem route_lookup_iff (hmain : g.middlewares = mainMiddlewares K conf) {session : Session}
    {s : St K Unit} (hthrough : g.run (Gateway.start session) [.earlyRequestFilter, .requestFilter] =
      some (.proxying, s)) :
    ∃ entry, g.matched (Gateway.start session).2 = .ok (some entry) ∧
      ∀ ps c, g.run (.proxying, s) ps = some c →
        (LookupsFind entry.conf.val c ↔ ∀ p ∈ ps, ¬ p.LooksUpRoute) := by
  obtain ⟨entry, hmatch⟩ := opening_matched hmain hthrough
  obtain ⟨hnone, hlog⟩ := opening_keeps hmain hthrough
  refine ⟨entry, hmatch, fun ps c hrun => ⟨?_, fun hps => ⟨?_, ?_⟩⟩⟩
  · rintro ⟨hfound, -⟩ p hp hl
    cases hfound none (run_lookup_logs hmain hnone hrun hp hl)
  · have hkept := run_stable (J := fun s => ∀ found, .routeLookup found ∉ s.calls)
      (fun p hp => noLookup_stable (hps p hp)) hlog hrun
    exact fun found hf => absurd hf (hkept found)
  · exact run_avoids (c := (.proxying, s)) hmain Stage.proxying_later (by simp) hps hrun

/-- The first attempt of a matched request ends in a panic. -/
theorem route_lookup_panics :
    ∃ s c, plainGateway.run (Gateway.start (getRequest "/")) [.earlyRequestFilter, .requestFilter] =
        some (.proxying, s) ∧
      plainGateway.run (.proxying, s) [.upstreamRequestFilter ⟨"GET", "/", none, []⟩] = some c ∧
      c.1 = .crashed "RouteConf should exist" ∧ ∀ route, ¬ LookupsFind route c := by
  obtain ⟨s, hs⟩ := plainGateway_opens
  have h : (plainGateway.run (Gateway.start (getRequest "/")) ([.earlyRequestFilter, .requestFilter] ++
      [.upstreamRequestFilter ⟨"GET", "/", none, []⟩])).map Prod.fst =
        some (.crashed "RouteConf should exist") := by
    decide +kernel
  unfold Gateway.run at h hs
  rw [Trace.run_append, hs] at h
  obtain ⟨c, hc, hcrash⟩ := Option.map_eq_some_iff.1 h
  exact ⟨s, c, hs, hc, hcrash, fun route hl => hl.2 hcrash⟩

theorem route_lookup_iff_plain :
    ∃ s, ∃ entry : RouteEntry refCrates, plainGateway.run (Gateway.start (getRequest "/"))
        [.earlyRequestFilter, .requestFilter] = some (.proxying, s) ∧
      ∀ ps c, plainGateway.run (.proxying, s) ps = some c →
        (LookupsFind entry.conf.val c ↔ ∀ p ∈ ps, ¬ p.LooksUpRoute) := by
  obtain ⟨s, hs⟩ := plainGateway_opens
  obtain ⟨entry, -, h⟩ := route_lookup_iff plainGateway_main hs
  exact ⟨s, entry, hs, h⟩

end PingoraGuide
