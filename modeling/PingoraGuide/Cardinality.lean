import Mathlib.Data.Set.Card
import PingoraGuide.Coherence
import PingoraGuide.RouteMatch
import PingoraGuide.Startup
/-!
# What the metrics registry grows with

Every label tuple the gateway records has a path and an upstream of its route table and the status
of a response, but the method as the client spelled it: a configuration bounds the registry for
requests with finitely many methods (`registry_bound`), and for no others
(`metric_cardinality_iff`).

| here | meaning |
| --- | --- |
| `Served`    | a request from its start to wherever it got |
| `registry`  | the label tuples recorded while these requests are served. They share nothing else, so their order and interleaving do not show |
| `Traced`    | the invariant of such a run: where each label comes from |
-/
namespace PingoraGuide
open Fallible Wire
open Template (TreeSound)

variable {K : Crates} {β : Type}

structure Served (g : Gateway K) where
  session : Session
  events : List Event
  final : Cfg K
  run : Trace.run g.serve (Gateway.start session) events = some final
  /-- the range of `http::StatusCode` -/
  status : ∀ n, final.2.session.responseWritten = some n → 100 ≤ n ∧ n ≤ 999

def registry {g : Gateway K} (requests : Set (Served g)) : Set MetricLabels :=
  {labels | ∃ q ∈ requests, labels ∈ q.final.2.metrics}

/-! ## The labels -/

/-- The values of the labels path and upstream. -/
def tableLabels (conf : GatewayConf) : List (String × String) :=
  ("unknown", "unknown") :: conf.routes.map fun route => (route.path, route.upstreamId)

def statusLabel (responseWritten : Option Nat) : String := (responseWritten.map toString).getD "0"

/-- `handle_logging` (metrics.rs:82-107). -/
def labelsOf (session : Session) (rm : RequestMeta) : MetricLabels where
  method := session.reqHeader.method
  path := rm.matchedRouteId.getD "unknown"
  status := statusLabel session.responseWritten
  upstream := rm.upstreamId.getD "unknown"

variable {g : Gateway K} {conf : GatewayConf}

theorem metrics_logging (e : Option PError) (s : St K Unit) :
    (metrics K).hook (.logging e) s = (.ok .Continue, { s with
      metrics := s.metrics ++ (s.ctx.get .requestMeta).toList.map (labelsOf s.session) }) := by
  show (ctxGet .requestMeta >>= _ : Hook Unit K) s = _
  rw [ctxGet_bind_run]
  cases s.ctx.get .requestMeta with
  | none => simp
  | some rm => rfl

/-- `logging` records one tuple, if there is a `RequestMeta`, and changes nothing else. -/
theorem logging_main (hmain : g.middlewares = mainMiddlewares K conf.server) (e : Option PError)
    (s : St K Unit) : ∃ calls, g.logging e s = (.ok (), { s with
      metrics := s.metrics ++ (s.ctx.get .requestMeta).toList.map (labelsOf s.session)
      calls := calls }) := by
  have hchain : g.chain.reverse = [(requestSize K (maxBytesOf conf.server), 2),
      (ipRestriction K, 1), (metrics K, 0)] := by
    rw [chain_main hmain]
    rfl
  have hloop : ∃ calls, runHooksLenient (.logging e) g.chain.reverse s = (.ok .Continue, { s with
      metrics := s.metrics ++ (s.ctx.get .requestMeta).toList.map (labelsOf s.session)
      calls := calls }) := by
    rw [hchain, runHooksLenient_continue rfl, runHooksLenient_continue rfl,
      runHooksLenient_continue (by rw [metrics_logging]), metrics_logging]
    exact ⟨_, rfl⟩
  obtain ⟨calls, hrun⟩ := hloop
  exact ⟨calls, Act.bind_of_ok hrun⟩

/-! ## Where the labels come from -/

/-- The header is the client's, and nothing is recorded before `logging`. -/
theorem unrecorded_stable (hmain : g.middlewares = mainMiddlewares K conf.server)
    (h : RequestHeader) (l : List MetricLabels) {e : Effect} (he : e ≠ .hook .logging) :
    g.Stable (fun s => s.session.reqHeader = h ∧ s.metrics = l) e := by
  cases e with
  | hook k =>
    rintro β c rfl m hm s ⟨hheader, hmetrics⟩
    have hmem : m.1 ∈ mainMiddlewares K conf.server := hmain ▸ List.fst_mem_of_mem_zipIdx hm
    have hc : c.kind ≠ .logging := fun hc => he (congrArg Effect.hook hc)
    exact ⟨(main_hook_reqHeader hmem c s).trans hheader, main_hook_unrecorded hmem hc l s hmetrics⟩
  | write => exact write_keeps fun s se hkept hs => ⟨hkept.trans hs.1, hs.2⟩
  | enter => exact fun _ hs => ⟨hs, fun _ => hs⟩
  | record => exact fun _ _ _ hs => hs
  | counters => exact fun _ _ _ hs => hs
  | peer => exact fun _ hs => ⟨hs, fun _ => hs⟩
  | lookup => exact fun _ hs => hs
  | fail => exact fun _ _ hs => hs

/-- The labels path and upstream of the request, as they stand, are a row of the route table. -/
def FromTable (conf : GatewayConf) (ctx : GatewayContext (CtxVal K)) : Prop :=
  ∀ rm : RequestMeta, ctx.get .requestMeta = some rm →
    (rm.matchedRouteId.getD "unknown", rm.upstreamId.getD "unknown") ∈ tableLabels conf

theorem fromTable_new (conf : GatewayConf) : FromTable conf (newCtx (K := K)) := by
  intro rm hget
  obtain rfl : {} = rm := by simpa [newCtx] using hget
  exact List.mem_cons_self

/-- `RequestMeta` may change in its other fields. -/
theorem FromTable.modify {ctx : GatewayContext (CtxVal K)} (h : FromTable conf ctx)
    {f : RequestMeta → RequestMeta}
    (hf : ∀ rm, (f rm).matchedRouteId = rm.matchedRouteId ∧ (f rm).upstreamId = rm.upstreamId) :
    FromTable conf (ctx.modify .requestMeta f) := by
  intro rm hget
  rw [GatewayContext.get_modify_self] at hget
  obtain ⟨rm0, hget0, rfl⟩ := Option.map_eq_some_iff.1 hget
  rw [(hf rm0).1, (hf rm0).2]
  exact h rm0 hget0

theorem fromTable_stable (hmain : g.middlewares = mainMiddlewares K conf.server) {e : Effect}
    (he : e ≠ .enter) : g.Stable (fun s => FromTable conf s.ctx) e := by
  refine ctx_stable ?_ ?_ e he
  · intro β c m hm s hs rm hget
    rw [main_hook_get (hmain ▸ hm) c (by simp)] at hget
    exact hs rm hget
  · exact fun ctx addr sni hctx => hctx.modify fun rm => ⟨rfl, rfl⟩

/-- `request_filter` enters a route of the configuration, or none. -/
theorem requestFilter_fromTable (hmain : g.middlewares = mainMiddlewares K conf.server)
    (hrouter : Router.new K conf = .ok g.router) {s : St K Unit} (hs : FromTable conf s.ctx) :
    FromTable conf (g.requestFilter s).2.ctx := by
  have hopen : FromTable conf (openRequest s).ctx := hs.modify fun rm => ⟨rfl, rfl⟩
  cases hmeta : s.ctx.get .requestMeta with
  | none =>
    rw [requestFilter_panics hmeta]
    exact hs
  | some rm =>
    rcases hmatch : g.matched s with (_ | entry) | e | msg
    · rw [requestFilter_run hmeta, hmatch]
      dsimp only
      rw [Act.bind_pure_snd]
      exact write_keeps (I := fun s => FromTable conf s.ctx) (fun _ _ _ hs => hs) _ _ hopen
    · rw [(requestFilter_decides hmeta hmatch).2]
      have hhooks := Gateway.Stable.chain (J := fun s => FromTable conf s.ctx) (c := .request)
        (fromTable_stable (e := .hook .request) hmain (by decide))
      refine hhooks (enterRoute s entry) ?_
      intro rm' hget
      rw [bare_unit, enterRoute_requestMeta entry hmeta] at hget
      obtain rfl := Option.some.inj hget
      obtain ⟨i, hmem, -⟩ := (new_indexed hrouter).matched_entry hmatch
      exact List.mem_cons_of_mem _
        (List.mem_map_of_mem (f := fun route : RouteConf => (route.path, route.upstreamId))
          (List.fst_mem_of_mem_zipIdx hmem))
    · rw [requestFilter_run hmeta, hmatch]
      exact hopen
    · rw [requestFilter_run hmeta, hmatch]
      exact hopen

/-- What holds at every moment of a request with this method. -/
structure Traced (conf : GatewayConf) (m : String) (c : Cfg K) : Prop where
  method : c.2.session.reqHeader.method = m
  table : FromTable conf c.2.ctx
  last : c.2.metrics = [] ∨ c.1 = .done
  labels : ∀ l ∈ c.2.metrics, l.method = m ∧ (l.path, l.upstream) ∈ tableLabels conf ∧
    l.status = statusLabel c.2.session.responseWritten

/-- Before `logging` nothing is recorded. -/
theorem Traced.of_unrecorded {m : String} {c : Cfg K} (hmethod : c.2.session.reqHeader.method = m)
    (htable : FromTable conf c.2.ctx) (hnone : c.2.metrics = []) : Traced conf m c where
  method := hmethod
  table := htable
  last := .inl hnone
  labels := by simp [hnone]

theorem traced_logging (hmain : g.middlewares = mainMiddlewares K conf.server) {m : String}
    {s : St K Unit} (hmethod : s.session.reqHeader.method = m) (htable : FromTable conf s.ctx)
    (hnone : s.metrics = []) (e : Option PError) :
    Traced conf m (settle ((g.logging e >>= fun _ => pure .done) s)) := by
  obtain ⟨calls, hrun⟩ := logging_main hmain e s
  rw [Gateway.settle_bind_pure, hrun]
  refine ⟨hmethod, htable, .inr rfl, ?_⟩
  intro l hl
  simp only [hnone, List.nil_append, List.mem_map, Option.mem_toList] at hl
  obtain ⟨rm, hget, rfl⟩ := hl
  exact ⟨hmethod, htable rm hget, rfl⟩

theorem phase_fromTable (hmain : g.middlewares = mainMiddlewares K conf.server)
    (hrouter : Router.new K conf = .ok g.router) {stage : Stage} {p : Phase}
    {x : Act (St K Unit) PError Stage} (hx : g.phase stage p = some x) {s : St K Unit}
    (hs : FromTable conf s.ctx) : FromTable conf (x s).2.ctx := by
  by_cases hp : p = .requestFilter
  · subst hp
    cases Gateway.makes_of_phase g hx
    rw [Act.bind_pure_snd]
    exact requestFilter_fromTable hmain hrouter hs
  · refine phase_keeps (J := fun s => FromTable conf s.ctx) (fun e he => ?_) hx s hs
    refine fromTable_stable hmain ?_
    rintro rfl
    cases p <;> simp_all [Phase.effects]

theorem traced_step (hmain : g.middlewares = mainMiddlewares K conf.server)
    (hrouter : Router.new K conf = .ok g.router) {m : String} {c c' : Cfg K} {ev : Event}
    (hc : Traced conf m c) (h : g.serve c ev = some c') : Traced conf m c' := by
  cases ev with
  | respond status =>
    obtain ⟨hproxying, -, rfl⟩ := Gateway.serve_respond.1 h
    exact .of_unrecorded hc.method hc.table (hc.last.resolve_right (by simp [hproxying]))
  | phase p =>
    obtain ⟨x, hx, rfl⟩ := Gateway.step_eq_some.1 h
    have hnone : c.2.metrics = [] := by
      refine hc.last.resolve_right fun hdone => ?_
      rw [hdone] at hx
      cases Gateway.makes_of_phase g hx
    by_cases hp : p = .logging
    · subst hp
      obtain ⟨stage, s⟩ := c
      cases Gateway.makes_of_phase g hx with
      | logging e => exact traced_logging hmain hc.method hc.table hnone e
    · obtain ⟨hheader, hmetrics⟩ := phase_keeps
        (J := fun s => s.session.reqHeader = c.2.session.reqHeader ∧ s.metrics = [])
        (fun e he => unrecorded_stable hmain _ _ (by
          rintro rfl
          cases p <;> simp_all [Phase.effects])) hx c.2 ⟨rfl, hnone⟩
      refine .of_unrecorded ?_ ?_ ?_ <;> rw [Gateway.settle_snd]
      · rw [hheader]
        exact hc.method
      · exact phase_fromTable hmain hrouter hx hc.table
      · exact hmetrics

theorem Served.traced (hmain : g.middlewares = mainMiddlewares K conf.server)
    (hrouter : Router.new K conf = .ok g.router) (q : Served g) :
    Traced conf q.session.reqHeader.method q.final := by
  have hstart : Traced conf q.session.reqHeader.method (Gateway.start q.session : Cfg K) :=
    .of_unrecorded rfl (fromTable_new conf) rfl
  exact Trace.run_always (fun _ _ _ hc h => traced_step hmain hrouter hc h) hstart q.run

/-! ## The bound -/

/-- The values of the label status. -/
def statusLabels : List String := "0" :: (List.range 900).map fun n => toString (n + 100)

theorem statusLabel_mem {responseWritten : Option Nat}
    (h : ∀ n, responseWritten = some n → 100 ≤ n ∧ n ≤ 999) :
    statusLabel responseWritten ∈ statusLabels := by
  cases responseWritten with
  | none => exact List.mem_cons_self
  | some n =>
    obtain ⟨hlow, hhigh⟩ := h n rfl
    refine List.mem_cons_of_mem _ (List.mem_map.2 ⟨n - 100, List.mem_range.2 (by omega), ?_⟩)
    rw [Nat.sub_add_cancel hlow]
    rfl

def labelTuple (t : String × (String × String) × String) : MetricLabels where
  method := t.1
  path := t.2.1.1
  status := t.2.2
  upstream := t.2.1.2

theorem registry_subset (hmain : g.middlewares = mainMiddlewares K conf.server)
    (hrouter : Router.new K conf = .ok g.router) {requests : Set (Served g)} {methods : Set String}
    (hmethods : ∀ q ∈ requests, q.session.reqHeader.method ∈ methods) :
    registry requests ⊆ labelTuple '' (methods ×ˢ ({t | t ∈ tableLabels conf} ×ˢ
      {status | status ∈ statusLabels})) := by
  rintro l ⟨q, hq, hl⟩
  obtain ⟨hmethod, htable, hstatus⟩ := (q.traced hmain hrouter).labels l hl
  refine ⟨(l.method, (l.path, l.upstream), l.status), ⟨?_, htable, ?_⟩, rfl⟩
  · exact hmethod ▸ hmethods q hq
  · exact hstatus ▸ statusLabel_mem q.status

theorem encard_list_le {α : Type} (l : List α) : {a | a ∈ l}.encard ≤ l.length := by
  classical
  have hset : {a | a ∈ l} = (l.toFinset : Set α) := by
    ext a
    simp
  rw [hset, Set.encard_coe_eq_coe_finsetCard]
  exact_mod_cast l.toFinset_card_le

/-- **The bound.** As many tuples as there are methods, rows of the table and statuses. -/
theorem registry_bound (hmain : g.middlewares = mainMiddlewares K conf.server)
    (hrouter : Router.new K conf = .ok g.router) {requests : Set (Served g)} {methods : Set String}
    (hmethods : ∀ q ∈ requests, q.session.reqHeader.method ∈ methods) :
    (registry requests).encard ≤ methods.encard * ((conf.routes.length + 1) * 901) := by
  calc (registry requests).encard
      ≤ (labelTuple '' (methods ×ˢ ({t | t ∈ tableLabels conf} ×ˢ
          {status | status ∈ statusLabels}))).encard :=
        Set.encard_le_encard (registry_subset hmain hrouter hmethods)
    _ ≤ (methods ×ˢ ({t | t ∈ tableLabels conf} ×ˢ {status | status ∈ statusLabels})).encard :=
        Set.encard_image_le _ _
    _ = methods.encard * ({t | t ∈ tableLabels conf}.encard *
          {status | status ∈ statusLabels}.encard) := by
        rw [Set.encard_prod, Set.encard_prod]
    _ ≤ methods.encard * ((conf.routes.length + 1) * 901) := by
        gcongr
        · exact (encard_list_le _).trans (by simp [tableLabels])
        · exact (encard_list_le _).trans (by simp [statusLabels])

/-! ## Every method can be recorded -/

/-- A request for `/` without headers, from a client without an address. -/
def methodRequest (method : String) : Session where
  reqHeader := ⟨method, "/", none, []⟩
  clientAddr := none
  env := ⟨fun _ => true, fun _ => ""⟩

/-- The hooks of `main` let a request without address and length pass. -/
theorem requestHooks_pass (hmain : g.middlewares = mainMiddlewares K conf.server) {s : St K Unit}
    (haddr : s.session.clientAddr = none) (hlen : contentLength s.session.reqHeader = none) :
    runHooks .request g.chain s = (.ok .Continue, { s with
      ctx := s.ctx.insert .requestSizeState {}
      calls := s.calls ++ [.hook .request 0 (.ok .Continue)] ++
        [.hook .request 1 (.ok .Continue)] ++ [.hook .request 2 (.ok .Continue)] }) := by
  have hip : ∀ s : St K Unit, s.session.clientAddr = none →
      (ipRestriction K).hook .request s = (.ok .Continue, s) := by
    intro s haddr
    show (ctxGet .routeEntry >>= _ : Hook Unit K) s = _
    rw [ctxGet_bind_run]
    rcases s.ctx.get .routeEntry with _ | ⟨route, _ | acl⟩
    · rfl
    · rfl
    · dsimp only
      rw [Act.get_bind_run, haddr]
      rfl
  have hsize : ∀ s : St K Unit, contentLength s.session.reqHeader = none →
      (requestSize K (maxBytesOf conf.server)).hook .request s =
        (.ok .Continue, { s with ctx := s.ctx.insert .requestSizeState {} }) := by
    intro s hlen
    refine (Act.bind_of_ok (ctxInsert_run _ _ _)).trans ?_
    rw [Act.get_bind_run]
    dsimp only
    rw [hlen]
    rfl
  rw [chain_main hmain]
  refine (runHooks_passes rfl).trans ?_
  refine (runHooks_passes (hip _ (by exact haddr))).trans ?_
  exact (runHooks_passes (hsize _ (by exact hlen))).trans runHooks_nil

theorem step_early (hmain : g.middlewares = mainMiddlewares K conf.server) (s : St K Unit) :
    g.step (.early, s) .earlyRequestFilter =
      some (.request, { s with calls := s.calls ++ continues .earlyRequest g.chain }) := by
  show some (settle ((g.earlyRequestFilter >>= fun _ => pure .request) s)) = _
  rw [Gateway.settle_bind_pure, earlyRequestFilter_main hmain]

/-- What `logging` will read of the request at hand. -/
structure Loggable (method : String) (s : St K Unit) : Prop where
  requestMeta : ∃ rm, s.ctx.get .requestMeta = some rm
  method : s.session.reqHeader.method = method
  status : ∀ n, s.session.responseWritten = some n → 100 ≤ n ∧ n ≤ 999

/-- Without a route the answer is 404, and the request is handled. -/
theorem requestFilter_notFound {s : St K Unit} {method : String} {rm : RequestMeta}
    (hsession : s.session = methodRequest method) (hmeta : s.ctx.get .requestMeta = some rm)
    (hmatch : g.matched s = .ok none) :
    ∃ s', g.requestFilter s = (.ok true, s') ∧ Loggable method s' := by
  have hwrite : (respondError 404 : Act (St K Unit) PError Unit) (openRequest s) =
      (.ok (), { openRequest s with session :=
        { methodRequest method with
          uuids := 1
          writes := 1
          sent := [.error 404]
          responseWritten := some 404
          bodyDone := true } }) := by
    simp [respondError, write, openRequest, hsession, methodRequest, Session.takes, Session.after,
      Session.drops, Session.finalWritten, Sent.status, Sent.endsBody]
  have hrun := requestFilter_run (g := g) hmeta
  rw [hmatch] at hrun
  refine ⟨_, hrun.trans (Act.bind_of_ok hwrite), ?_, rfl, ?_⟩
  · simp [openRequest, hmeta]
  · intro n hn
    obtain rfl := Option.some.inj hn
    omega

/-- With one the request is let through. -/
theorem requestFilter_entered (hmain : g.middlewares = mainMiddlewares K conf.server)
    {s : St K Unit} {method : String} {rm : RequestMeta} {entry : RouteEntry K}
    (hsession : s.session = methodRequest method) (hmeta : s.ctx.get .requestMeta = some rm)
    (hmatch : g.matched s = .ok (some entry)) :
    ∃ s', g.requestFilter s = (.ok false, s') ∧ Loggable method s' := by
  have hentered : (enterRoute s entry).session = { methodRequest method with uuids := 1 } := by
    rw [enterRoute_session, hsession]
    rfl
  have hpass := requestHooks_pass hmain (s := enterRoute s entry) (by rw [hentered]; rfl)
    (by rw [hentered]; rfl)
  have hrun := requestFilter_matched hmeta hmatch
  refine ⟨_, hrun.trans (Act.bind_of_ok hpass), ?_, ?_, ?_⟩
  · exact ⟨_, (GatewayContext.get_insert_ne _ _ (by simp)).trans
      (enterRoute_requestMeta entry hmeta)⟩
  · show (enterRoute s entry).session.reqHeader.method = method
    rw [hentered]
    rfl
  · intro n hn
    change (enterRoute s entry).session.responseWritten = some n at hn
    rw [hentered] at hn
    cases hn

/-- Whatever the method, the request comes to its end. -/
theorem methodRequest_finishes {accepts : String → String → Bool} (hs : TreeSound K.tree accepts)
    (hmain : g.middlewares = mainMiddlewares K conf.server)
    (hrouter : Router.new K conf = .ok g.router) (method : String) :
    ∃ ps s, g.run (Gateway.start (methodRequest method)) ps = some (.finish none, s) ∧
      Loggable method s := by
  obtain ⟨-, -, -, -, found, hfound, -⟩ :=
    match_request_sound hs hrouter "/" (requestHost (methodRequest method).reqHeader)
  obtain ⟨s1, hearly, hsession, hmeta⟩ : ∃ s1 : St K Unit,
      g.step (Gateway.start (methodRequest method)) .earlyRequestFilter = some (.request, s1) ∧
        s1.session = methodRequest method ∧ s1.ctx.get .requestMeta = some {} :=
    ⟨_, step_early hmain _, rfl, by simp [newCtx]⟩
  have hmatch : g.matched s1 = .ok found := by
    unfold Gateway.matched
    rw [hsession]
    exact hfound
  have hrequest : g.step (.request, s1) .requestFilter = some (settle ((g.requestFilter >>=
      fun handled => pure (if handled then .finish none else .proxying)) s1)) := rfl
  rw [Gateway.settle_bind_pure] at hrequest
  cases found with
  | none =>
    obtain ⟨s2, hrun, hlog⟩ := requestFilter_notFound hsession hmeta hmatch
    rw [hrun] at hrequest
    exact ⟨[.earlyRequestFilter, .requestFilter], s2,
      Trace.run_cons.2 ⟨_, hearly, Trace.run_cons.2 ⟨_, hrequest, rfl⟩⟩, hlog⟩
  | some entry =>
    obtain ⟨s2, hrun, hlog⟩ := requestFilter_entered hmain hsession hmeta hmatch
    rw [hrun] at hrequest
    exact ⟨[.earlyRequestFilter, .requestFilter, .proxied], s2,
      Trace.run_cons.2 ⟨_, hearly, Trace.run_cons.2 ⟨_, hrequest, Trace.run_cons.2 ⟨_, rfl, rfl⟩⟩⟩,
      hlog⟩

/-- Every method shows up in the registry. -/
theorem method_recorded {accepts : String → String → Bool} (hs : TreeSound K.tree accepts)
    (hmain : g.middlewares = mainMiddlewares K conf.server)
    (hrouter : Router.new K conf = .ok g.router) (method : String) :
    ∃ q : Served g, q.session.reqHeader.method = method ∧
      ∃ l ∈ q.final.2.metrics, l.method = method := by
  obtain ⟨ps, s, hrun, ⟨rm, hmeta⟩, hmethod, hstatus⟩ :=
    methodRequest_finishes hs hmain hrouter method
  obtain ⟨calls, hlog⟩ := logging_main hmain none s
  have hlast : g.step (.finish none, s) .logging = some (.done, { s with
      metrics := s.metrics ++ [labelsOf s.session rm]
      calls := calls }) := by
    show some (settle ((g.logging none >>= fun _ => pure .done) s)) = _
    rw [Gateway.settle_bind_pure, hlog, hmeta]
    rfl
  have hserved : Trace.run g.serve (Gateway.start (methodRequest method))
      ((ps ++ [Phase.logging]).map Event.phase) = some (.done, { s with
        metrics := s.metrics ++ [labelsOf s.session rm]
        calls := calls }) := by
    rw [Gateway.serve_phases, Gateway.run, Trace.run_append, show Trace.run g.step _ ps = _ from hrun]
    exact Trace.run_cons.2 ⟨_, hlast, rfl⟩
  refine ⟨⟨_, _, _, hserved, hstatus⟩, rfl, labelsOf s.session rm, by simp, hmethod⟩

/-- Methods that a bound covers are finitely many. -/
theorem finite_of_bounded {accepts : String → String → Bool} (hs : TreeSound K.tree accepts)
    (hmain : g.middlewares = mainMiddlewares K conf.server)
    (hrouter : Router.new K conf = .ok g.router) {methods : Set String} {bound : ℕ}
    (h : ∀ requests : Set (Served g), (∀ q ∈ requests, q.session.reqHeader.method ∈ methods) →
      (registry requests).encard ≤ bound) : methods.Finite := by
  have hregistry := Set.finite_of_encard_le_coe
    (h {q | q.session.reqHeader.method ∈ methods} fun q hq => hq)
  refine (hregistry.image MetricLabels.method).subset fun method hmem => ?_
  obtain ⟨q, hq, l, hl, hmethod⟩ := method_recorded hs hmain hrouter method
  have hserved : q.session.reqHeader.method ∈ methods := hq.symm ▸ hmem
  exact ⟨l, ⟨q, hserved, hl⟩, hmethod⟩

/-- **Metric cardinality.** For requests with methods from a given set, the label tuples ever
recorded are bounded by the configuration if and only if the set is finite. -/
theorem metric_cardinality_iff {accepts : String → String → Bool} (hs : TreeSound K.tree accepts)
    {conf : GatewayConf} {g : Gateway K} (hstart : mainGateway K conf = .ok g)
    (methods : Set String) :
    (∃ bound : ℕ, ∀ requests : Set (Served g),
      (∀ q ∈ requests, q.session.reqHeader.method ∈ methods) →
        (registry requests).encard ≤ bound) ↔ methods.Finite := by
  obtain ⟨-, hrouter, hmain⟩ := mainGateway_ok hstart
  constructor
  · rintro ⟨bound, h⟩
    exact finite_of_bounded hs hmain hrouter h
  · intro hfinite
    refine ⟨methods.ncard * ((conf.routes.length + 1) * 901), fun requests hmethods => ?_⟩
    have hbound := registry_bound hmain hrouter hmethods
    rw [← hfinite.cast_ncard_eq] at hbound
    exact_mod_cast hbound

/-- Letters and digits, a token of HTTP. -/
def MethodToken (method : String) : Prop :=
  method ≠ "" ∧ ∀ c ∈ method.toList, c.isAlphanum = true

theorem methodToken_infinite : {method | MethodToken method}.Infinite := by
  refine Set.infinite_of_injective_forall_mem
    (f := fun n : ℕ => String.ofList (List.replicate (n + 1) 'A')) ?_ ?_
  · intro m n h
    have hlen := congrArg (fun s => s.toList.length) h
    simpa using hlen
  · intro n
    refine ⟨by simp [List.replicate_succ], ?_⟩
    intro c hc
    rw [String.toList_ofList] at hc
    rw [List.eq_of_mem_replicate hc]
    decide

/-- With one route configured, methods `A`, `AA`, `AAA`, ... outgrow every bound. -/
theorem method_labels_unbounded :
    mainGateway refCrates plainConf = .ok plainGateway ∧
      ¬ ∃ bound : ℕ, ∀ requests : Set (Served plainGateway),
        (∀ q ∈ requests, MethodToken q.session.reqHeader.method) →
          (registry requests).encard ≤ bound := by
  refine ⟨rfl, ?_⟩
  rintro ⟨bound, h⟩
  have hfinite : {method | MethodToken method}.Finite :=
    finite_of_bounded Template.refTree_spec.sound plainGateway_main plainGateway_router h
  exact methodToken_infinite hfinite

theorem metric_cardinality_plain :
    ∃ bound : ℕ, ∀ requests : Set (Served plainGateway),
      (∀ q ∈ requests, q.session.reqHeader.method ∈ ({"GET", "POST"} : Set String)) →
        (registry requests).encard ≤ bound := by
  have hstart : mainGateway refCrates plainConf = .ok plainGateway := rfl
  exact (metric_cardinality_iff Template.refTree_spec.sound hstart {"GET", "POST"}).2
    (Set.toFinite _)

end PingoraGuide
