import PingoraGuide.Cardinality
import PingoraGuide.Lib.Tasks
/-!
# Many requests at once

The gateway is one value behind every connection; what its requests share and write to is the
registry of the metrics middleware. The answers of a request's connection and of its load balancer
come with its session. `registry_exact`: in any interleaving of any number of requests each counter
is the number of finished requests it stands for. No increment is lost or made twice and a request
that crashed is not counted.

| here | there |
| --- | --- |
| `Counters`, `Counters.inc`  | `IntCounterVec`, `with_label_values(labels).inc()` (src/middlewares/metrics.rs:109), as the number of these calls: the `u64` behind it wraps after `2 ^ 64` |
| `Gateway.server`            | the requests of one process: a connection starts one, Pingora and the peers move them |
| `Gateway.labelsFor`         | the labels of a request, by the route the router has for it |
-/
namespace PingoraGuide
open Fallible Wire

variable {K : Crates}

abbrev Counters := MetricLabels → Nat

def Counters.inc (r : Counters) (labels : MetricLabels) : Counters :=
  Function.update r labels (r labels + 1)

/-- An event of one request, and the tuples it records. -/
def Gateway.server (g : Gateway K) : Tasks.System Counters (Cfg K) Session Event where
  init := Gateway.start
  act := fun r c ev => (g.serve c ev).map fun c' =>
    ((c'.2.metrics.drop c.2.metrics.length).foldl Counters.inc r, c')

/-- The route the router has for this request. -/
def Gateway.routeOf (g : Gateway K) (s : St K Unit) : Option (RouteEntry K) :=
  match g.matched s with
  | .ok found => found
  | _ => none

def Gateway.labelsFor (g : Gateway K) (s : St K Unit) : MetricLabels where
  method := s.session.reqHeader.method
  path := ((g.routeOf s).map fun entry => entry.conf.val.path).getD "unknown"
  status := statusLabel s.session.responseWritten
  upstream := ((g.routeOf s).map fun entry => entry.conf.val.upstreamId).getD "unknown"

theorem foldl_inc (ls : List MetricLabels) (r : Counters) (l : MetricLabels) :
    ls.foldl Counters.inc r l = r l + ls.count l := by
  induction ls generalizing r with
  | nil => simp
  | cons x ls ih =>
    rw [List.foldl_cons, ih, List.count_cons]
    by_cases h : x = l
    · subst h
      simp only [Counters.inc, Function.update_self, beq_self_eq_true, if_true]
      omega
    · have hne : l ≠ x := fun hl => h hl.symm
      simp [Counters.inc, Function.update_of_ne hne, h]

variable {g : Gateway K} {conf : GatewayConf}

/-- Only the header decides the route. -/
theorem routeOf_congr {s s' : St K Unit} (h : s'.session.reqHeader = s.session.reqHeader) :
    g.routeOf s' = g.routeOf s := by
  unfold Gateway.routeOf Gateway.matched
  rw [h]

/-- `RequestMeta` names this route, or none. -/
def NamesRoute (found : Option (RouteEntry K)) (ctx : GatewayContext (CtxVal K)) : Prop :=
  ∃ rm : RequestMeta, ctx.get .requestMeta = some rm ∧
    rm.matchedRouteId = found.map (fun entry => entry.conf.val.path) ∧
    rm.upstreamId = found.map fun entry => entry.conf.val.upstreamId

theorem namesRoute_stable (hmain : g.middlewares = mainMiddlewares K conf.server)
    (found : Option (RouteEntry K)) {e : Effect} (he : e ≠ .enter) :
    g.Stable (fun s => NamesRoute found s.ctx) e := by
  refine ctx_stable ?_ ?_ e he
  · rintro β c m hm s ⟨rm, hget, hnames⟩
    exact ⟨rm, (main_hook_get (hmain ▸ hm) c (by simp) s).trans hget, hnames⟩
  · rintro ctx addr sni ⟨rm, hget, hnames⟩
    exact ⟨{ rm with peerAddr := some addr, sni := some sni }, by simp [hget], hnames⟩

/-- Whatever `request_filter` returns, it names the route the router has. -/
theorem requestFilter_names (hmain : g.middlewares = mainMiddlewares K conf.server)
    {s : St K Unit} (hmeta : s.ctx.get .requestMeta = some {}) :
    NamesRoute (g.routeOf s) (g.requestFilter s).2.ctx := by
  have hopen : NamesRoute (none : Option (RouteEntry K)) (openRequest s).ctx :=
    ⟨_, by simp [openRequest, hmeta]; rfl, rfl, rfl⟩
  unfold Gateway.routeOf
  rcases hmatch : g.matched s with (_ | entry) | e | msg
  · rw [requestFilter_run hmeta, hmatch]
    dsimp only
    rw [Act.bind_pure_snd]
    exact write_keeps (I := fun s => NamesRoute none s.ctx) (fun _ _ _ hs => hs) _ _ hopen
  · rw [(requestFilter_decides hmeta hmatch).2]
    have hhooks := Gateway.Stable.chain (J := fun s => NamesRoute (some entry) s.ctx) (c := .request)
      (namesRoute_stable (e := .hook .request) hmain (some entry) (by decide))
    exact hhooks (enterRoute s entry) ⟨_, enterRoute_requestMeta entry hmeta, rfl, rfl⟩
  · rw [requestFilter_run hmeta, hmatch]
    exact hopen
  · rw [requestFilter_run hmeta, hmatch]
    exact hopen

/-! ## One request -/

/-- A request that may still reach `logging`. -/
def Stage.Underway : Stage → Prop
  | .proxying | .failed _ | .finish _ => True
  | _ => False

/-- What holds of a request at every moment. -/
structure Tracked (g : Gateway K) (c : Cfg K) : Prop where
  unrouted : c.1 = .early ∨ c.1 = .request → c.2.ctx.get .requestMeta = some {}
  routed : c.1.Underway → NamesRoute (g.routeOf c.2) c.2.ctx
  recorded : c.2.metrics = if c.1 = .done then [g.labelsFor c.2] else []

theorem tracked_start (g : Gateway K) (session : Session) : Tracked g (Gateway.start session) where
  unrouted := fun _ => by simp [Gateway.start, newCtx]
  routed := nofun
  recorded := rfl

/-- Past `request_filter`, while nothing is recorded. -/
theorem Tracked.underway {c : Cfg K} (hlater : c.1.Later) (hdone : c.1 ≠ .done)
    (hnames : NamesRoute (g.routeOf c.2) c.2.ctx) (hnone : c.2.metrics = []) : Tracked g c where
  unrouted := by
    rintro (h | h)
    · exact absurd h hlater.1
    · exact absurd h hlater.2
  routed := fun _ => hnames
  recorded := by rw [hnone, if_neg hdone]

/-- A phase other than `logging` keeps the header and records nothing. -/
theorem phase_unrecorded (hmain : g.middlewares = mainMiddlewares K conf.server) {stage : Stage}
    {p : Phase} {x : Act (St K Unit) PError Stage} (hx : g.phase stage p = some x)
    (hp : p ≠ .logging) {s : St K Unit} (hnone : s.metrics = []) :
    (x s).2.session.reqHeader = s.session.reqHeader ∧ (x s).2.metrics = [] := by
  refine phase_keeps (J := fun t => t.session.reqHeader = s.session.reqHeader ∧ t.metrics = [])
    (fun e he => unrecorded_stable hmain _ _ ?_) hx s ⟨rfl, hnone⟩
  rintro rfl
  cases p <;> simp_all [Phase.effects]

theorem tracked_logging (hmain : g.middlewares = mainMiddlewares K conf.server) {e : Option PError}
    {s : St K Unit} (hs : Tracked g (.finish e, s)) :
    Tracked g (settle ((g.logging e >>= fun _ => pure .done) s)) := by
  obtain ⟨calls, hrun⟩ := logging_main hmain e s
  rw [Gateway.settle_bind_pure, hrun]
  obtain ⟨rm, hget, hpath, hup⟩ := hs.routed trivial
  have hlabels : labelsOf s.session rm = g.labelsFor s := by
    simp [labelsOf, Gateway.labelsFor, hpath, hup]
  have hnone : s.metrics = [] := hs.recorded
  constructor
  case unrouted => simp
  case routed => exact False.elim
  case recorded =>
    simp only [hnone, hget, Option.toList_some, List.map_cons, List.map_nil, List.nil_append, hlabels,
      if_true]
    rfl

theorem tracked_early (hmain : g.middlewares = mainMiddlewares K conf.server) {s : St K Unit}
    (hs : Tracked g (.early, s)) :
    Tracked g (settle ((g.earlyRequestFilter >>= fun _ => pure .request) s)) := by
  rw [Gateway.settle_bind_pure, earlyRequestFilter_main hmain]
  exact ⟨fun _ => hs.unrouted (.inl rfl), False.elim, hs.recorded⟩

theorem tracked_request (hmain : g.middlewares = mainMiddlewares K conf.server) {s : St K Unit}
    (hs : Tracked g (.request, s)) :
    Tracked g (settle ((g.requestFilter >>= fun handled =>
      pure (if handled then .finish none else .proxying)) s)) := by
  have hx : g.phase .request .requestFilter = some (g.requestFilter >>= fun handled =>
      pure (if handled then .finish none else .proxying)) := rfl
  obtain ⟨hheader, hnone⟩ := phase_unrecorded hmain hx (by simp) hs.recorded
  have hstage := Gateway.settle_rule (P := fun stage => stage.Later ∧ stage ≠ .done)
    (by simp [Stage.Later]) (by simp [Stage.Later]) g.requestFilter
    (fun handled => if handled then .finish none else .proxying) s
    (by rintro (_ | _) <;> simp [Stage.Later])
  refine .underway hstage.1 hstage.2 ?_ ?_
  · rw [Gateway.settle_snd, routeOf_congr hheader, Act.bind_pure_snd]
    exact requestFilter_names hmain (hs.unrouted (.inr rfl))
  · rw [Gateway.settle_snd]
    exact hnone

/-- Attempts and `fail_to_proxy` leave the route. -/
theorem tracked_later (hmain : g.middlewares = mainMiddlewares K conf.server) {stage : Stage}
    (hunder : stage.Underway) {p : Phase} (hp : p ≠ .logging) {s : St K Unit}
    (hs : Tracked g (stage, s)) (hnone : s.metrics = []) {x : Act (St K Unit) PError Stage}
    (hx : g.phase stage p = some x) : Tracked g (settle (x s)) := by
  have hlater : stage.Later := by
    cases stage <;> simp_all [Stage.Underway, Stage.Later]
  have hstep : g.step (stage, s) p = some (settle (x s)) := Gateway.step_eq_some.2 ⟨x, hx, rfl⟩
  obtain ⟨hp', hlater'⟩ := step_later hlater hstep
  obtain ⟨hheader, hmetrics⟩ := phase_unrecorded hmain hx hp hnone
  have hnames : NamesRoute (g.routeOf s) (x s).2.ctx :=
    phase_keeps (J := fun t => NamesRoute (g.routeOf s) t.ctx)
      (fun e he => namesRoute_stable hmain _ (hp'.effects e he).1) hx s (hs.routed hunder)
  refine .underway hlater' ?_ ?_ ?_
  · cases Gateway.makes_of_phase g hx
    case earlyRequestFilter | requestFilter => exact hunder.elim
    case logging => exact absurd rfl hp
    case proxyError | proxied => simp [settle]
    all_goals
      exact Gateway.settle_rule (P := fun stage => stage ≠ .done) (by simp) (by simp) _ _ _ (by simp)
  · rw [Gateway.settle_snd, routeOf_congr hheader]
    exact hnames
  · rw [Gateway.settle_snd]
    exact hmetrics

theorem tracked_step (hmain : g.middlewares = mainMiddlewares K conf.server) {c c' : Cfg K}
    {ev : Event} (hc : Tracked g c) (h : g.serve c ev = some c') : Tracked g c' := by
  cases ev with
  | respond status =>
    obtain ⟨stage, s⟩ := c
    obtain ⟨rfl, -, rfl⟩ := Gateway.serve_respond.1 h
    exact ⟨hc.unrouted, hc.routed, hc.recorded⟩
  | phase p =>
    obtain ⟨stage, s⟩ := c
    obtain ⟨x, hx, rfl⟩ := Gateway.step_eq_some.1 h
    by_cases hp : p = .logging
    · subst hp
      cases Gateway.makes_of_phase g hx
      exact tracked_logging hmain hc
    · cases stage with
      | early =>
        cases Gateway.makes_of_phase g hx
        exact tracked_early hmain hc
      | request =>
        cases Gateway.makes_of_phase g hx
        exact tracked_request hmain hc
      | proxying => exact tracked_later hmain (by trivial) hp hc hc.recorded hx
      | failed e => exact tracked_later hmain (by trivial) hp hc hc.recorded hx
      | finish e => exact tracked_later hmain (by trivial) hp hc hc.recorded hx
      | done | crashed => cases Gateway.makes_of_phase g hx

/-! ## The server -/

theorem server_invariant (hmain : g.middlewares = mainMiddlewares K conf.server) :
    g.server.Invariant (fun _ => True) fun _ c => Tracked g c where
  spawn := fun _ session _ => tracked_start g session
  act := by
    rintro r c ev r' c' - hc hact
    obtain ⟨c1, hserve, heq⟩ := Option.map_eq_some_iff.1 hact
    obtain ⟨-, rfl⟩ := Prod.mk.inj heq
    exact ⟨trivial, tracked_step hmain hc hserve⟩
  frame := fun _ _ _ _ _ _ _ _ hu _ => hu

/-- A request that is done takes no more events; before, nothing is recorded. -/
theorem Tracked.unrecorded {c c' : Cfg K} {ev : Event} (hc : Tracked g c)
    (h : g.serve c ev = some c') : c.2.metrics = [] := by
  have hnone := hc.recorded
  rw [if_neg] at hnone
  · exact hnone
  · intro hdone
    cases ev with
    | respond status =>
      have hproxying := (Gateway.serve_respond.1 h).1
      rw [hdone] at hproxying
      cases hproxying
    | phase p =>
      obtain ⟨x, hx, -⟩ := Gateway.step_eq_some.1 h
      rw [hdone] at hx
      cases Gateway.makes_of_phase g hx

theorem Tracked.count {c : Cfg K} (h : Tracked g c) (l : MetricLabels) :
    c.2.metrics.count l = if c.1 = .done ∧ g.labelsFor c.2 = l then 1 else 0 := by
  rw [h.recorded]
  by_cases hdone : c.1 = .done
  · by_cases hl : g.labelsFor c.2 = l <;> simp [hdone, hl]
  · simp [hdone]

/-- **The registry is exact.** However the events of any number of requests are interleaved, the
counter of a tuple is the number of requests that are done and have these labels. -/
theorem registry_exact {conf : GatewayConf} {g : Gateway K} (hstart : mainGateway K conf = .ok g)
    {ms : List (Tasks.Move Session Event)} {s : Tasks.State Counters (Cfg K)}
    (hrun : g.server.run (fun _ => 0) ms = some s) (l : MetricLabels) :
    s.shared l = s.tasks.countP fun c => decide (c.1 = .done ∧ g.labelsFor c.2 = l) := by
  obtain ⟨-, -, hmain⟩ := mainGateway_ok hstart
  have h := (server_invariant hmain).counted (m := fun r : Counters => (r l : ℤ))
    (fun c => c.1 = .done ∧ g.labelsFor c.2 = l) (by simp [Gateway.server, Gateway.start]) ?_ trivial
    hrun
  · rw [Nat.cast_zero, zero_add] at h
    exact_mod_cast h
  · rintro r c ev r' c' - hc hact
    obtain ⟨c1, hserve, heq⟩ := Option.map_eq_some_iff.1 hact
    obtain ⟨rfl, rfl⟩ := Prod.mk.inj heq
    have hold := hc.count l
    have hnew := (tracked_step hmain hc hserve).count l
    rw [hc.unrecorded hserve] at hold
    have hzero : (if c.1 = .done ∧ g.labelsFor c.2 = l then (1 : ℤ) else 0) = 0 := by
      exact_mod_cast hold.symm
    rw [hzero, hc.unrecorded hserve, foldl_inc, List.length_nil, List.drop_zero, hnew]
    simp

/-- Two requests whose phases alternate; one is answered with 404 and logged, one is let through. -/
def alternating : List (Tasks.Move Session Event) :=
  [.spawn (getRequest "/"), .spawn (getRequest "/missing"),
   .act 0 (.phase .earlyRequestFilter), .act 1 (.phase .earlyRequestFilter),
   .act 0 (.phase .requestFilter), .act 1 (.phase .requestFilter),
   .act 0 (.respond 200), .act 1 (.phase .logging)]

theorem registry_exact_alternating :
    ∃ s, plainGateway.server.run (fun _ => 0) alternating = some s ∧
      s.tasks.map Prod.fst = [.proxying, .done] ∧
      s.shared ⟨"GET", "unknown", "404", "unknown"⟩ = s.tasks.countP fun c => decide (c.1 = .done ∧
        plainGateway.labelsFor c.2 = ⟨"GET", "unknown", "404", "unknown"⟩) := by
  have hstages : (plainGateway.server.run (fun _ => 0) alternating).map
      (fun s => s.tasks.map Prod.fst) = some [.proxying, .done] := by
    decide +kernel
  obtain ⟨s, hrun, hs⟩ := Option.map_eq_some_iff.1 hstages
  have hstart : mainGateway refCrates plainConf = .ok plainGateway := rfl
  exact ⟨s, hrun, hs, registry_exact hstart hrun _⟩

end PingoraGuide
