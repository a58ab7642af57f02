import PingoraGuide.Lifecycle
/-!
# What the hook loops and `request_filter` do

One equation for each way a hook can end, so that no later proof unfolds the loop, the two branches
of `request_filter`, and what the chain of `main` does in them. `Middleware.Silent` names a hook left
at its trait default.
-/
namespace PingoraGuide
open Fallible Wire

variable {K : Crates} {β : Type}

/-! ## One hook -/

/-- The state after a hook, its call logged. -/
def logged (c : HookCall β) (idx : Nat) (s : St K β)
    (r : Res PingoraGuideError MiddlewareDecision × St K β) : St K β :=
  { r.2 with calls := s.calls ++ [.hook c.kind idx r.1] }

@[simp] theorem logged_session (c : HookCall β) (idx : Nat) (s : St K β) (r) :
    (logged c idx s r).session = r.2.session := rfl
@[simp] theorem logged_ctx (c : HookCall β) (idx : Nat) (s : St K β) (r) :
    (logged c idx s r).ctx = r.2.ctx := rfl
@[simp] theorem logged_msg (c : HookCall β) (idx : Nat) (s : St K β) (r) :
    (logged c idx s r).msg = r.2.msg := rfl
@[simp] theorem logged_calls (c : HookCall β) (idx : Nat) (s : St K β) (r) :
    (logged c idx s r).calls = s.calls ++ [.hook c.kind idx r.1] := rfl

theorem callHook_run (c : HookCall β) (m : Middleware K × Nat) (s : St K β) :
    callHook c m s = ((m.1.hook c s).1.mapErr PingoraGuideError.toPError,
      logged c m.2 s (m.1.hook c s)) := rfl

/-- `Continue` alone lets a loop go on. -/
theorem decision_continue (d : MiddlewareDecision) : (d == .Stop) = false ↔ d = .Continue := by
  cases d <;> decide

section
variable {c : HookCall β} {m : Middleware K × Nat} {ms : List (Middleware K × Nat)} {s : St K β}

@[simp] theorem runHooks_nil : runHooks c ([] : List (Middleware K × Nat)) s = (.ok .Continue, s) :=
  rfl

theorem runHooks_continue (h : (m.1.hook c s).1 = .ok .Continue) :
    runHooks c (m :: ms) s = runHooks c ms (logged c m.2 s (m.1.hook c s)) := by
  have : callHook c m s = (.ok .Continue, logged c m.2 s (m.1.hook c s)) := by
    rw [callHook_run, h]
    rfl
  exact Act.bind_of_ok this

theorem runHooks_passes {s' : St K β} (h : m.1.hook c s = (.ok .Continue, s')) :
    runHooks c (m :: ms) s =
      runHooks c ms { s' with calls := s.calls ++ [.hook c.kind m.2 (.ok .Continue)] } := by
  rw [runHooks_continue (by rw [h]), h]
  rfl

theorem runHooks_stop (h : (m.1.hook c s).1 = .ok .Stop) :
    runHooks c (m :: ms) s = (.ok .Stop, logged c m.2 s (m.1.hook c s)) := by
  have : callHook c m s = (.ok .Stop, logged c m.2 s (m.1.hook c s)) := by
    rw [callHook_run, h]
    rfl
  exact Act.bind_of_ok this

theorem runHooks_err {e : PingoraGuideError} (h : (m.1.hook c s).1 = .err e) :
    runHooks c (m :: ms) s = (.err e.toPError, logged c m.2 s (m.1.hook c s)) := by
  have : callHook c m s = (.err e.toPError, logged c m.2 s (m.1.hook c s)) := by
    rw [callHook_run, h]
    rfl
  exact Act.bind_of_err this

theorem runHooks_panic {msg : String} (h : (m.1.hook c s).1 = .panic msg) :
    runHooks c (m :: ms) s = (.panic msg, logged c m.2 s (m.1.hook c s)) := by
  have : callHook c m s = (.panic msg, logged c m.2 s (m.1.hook c s)) := by
    rw [callHook_run, h]
    rfl
  exact Act.bind_of_panic this

/-- A first hook that does not continue decides the loop. -/
theorem runHooks_halt (h : (m.1.hook c s).1 ≠ .ok .Continue) :
    (runHooks c (m :: ms) s).1 ≠ .ok .Continue ∧
      (runHooks c (m :: ms) s).2 = logged c m.2 s (m.1.hook c s) := by
  cases hr : (m.1.hook c s).1 with
  | ok d =>
    cases d with
    | Continue => exact absurd hr h
    | Stop => simp [runHooks_stop hr]
  | err e => simp [runHooks_err hr]
  | panic msg => simp [runHooks_panic hr]

/-- A loop of one hook leaves what the hook leaves. -/
theorem runHooks_singleton : (runHooks c [m] s).2 = logged c m.2 s (m.1.hook c s) := by
  by_cases h : (m.1.hook c s).1 = .ok .Continue
  · rw [runHooks_continue h, runHooks_nil]
  · exact (runHooks_halt h).2

/-- The loop lets through only what its first hook lets through. -/
theorem runHooks_cons_continue :
    (runHooks c (m :: ms) s).1 = .ok .Continue ↔
      (m.1.hook c s).1 = .ok .Continue ∧
        (runHooks c ms (logged c m.2 s (m.1.hook c s))).1 = .ok .Continue := by
  have h : (runHooks c (m :: ms) s).1 = .ok .Continue ↔ _ :=
    Act.untilStop_cons_eq_ok decision_continue
  rwa [callHook_run, Res.mapErr_eq_ok] at h

/-- The log of a loop only grows. -/
theorem runHooks_calls (c : HookCall β) (ms : List (Middleware K × Nat)) (s : St K β) :
    ∃ l, (runHooks c ms s).2.calls = s.calls ++ l := by
  induction ms generalizing s with
  | nil => exact ⟨[], by simp⟩
  | cons m ms ih =>
    by_cases hr : (m.1.hook c s).1 = .ok .Continue
    · obtain ⟨l, hl⟩ := ih (logged c m.2 s (m.1.hook c s))
      rw [runHooks_continue hr, hl]
      exact ⟨_, List.append_assoc ..⟩
    · rw [(runHooks_halt hr).2]
      exact ⟨_, rfl⟩

/-- The first hook of a loop is called first, on the state the loop starts in. -/
theorem runHooks_cons_calls (c : HookCall β) (m : Middleware K × Nat)
    (ms : List (Middleware K × Nat)) (s : St K β) :
    ∃ rest, (runHooks c (m :: ms) s).2.calls =
      s.calls ++ .hook c.kind m.2 (m.1.hook c s).1 :: rest := by
  by_cases hr : (m.1.hook c s).1 = .ok .Continue
  · obtain ⟨rest, hrest⟩ := runHooks_calls c ms (logged c m.2 s (m.1.hook c s))
    exact ⟨rest, by rw [runHooks_continue hr, hrest, logged_calls, List.append_assoc]; rfl⟩
  · exact ⟨[], by rw [(runHooks_halt hr).2, logged_calls]⟩

end

/-- The calls logged while every hook continues. -/
def continues (c : HookCall β) (ms : List (Middleware K × Nat)) : List Call :=
  ms.map fun m => .hook c.kind m.2 (.ok .Continue)

def Middleware.Silent (m : Middleware K) (c : HookCall β) : Prop := m.hook c = pure .Continue

theorem runHooks_silent {c : HookCall β} {ms : List (Middleware K × Nat)} {s : St K β}
    (h : ∀ m ∈ ms, m.1.Silent c) :
    runHooks c ms s = (.ok .Continue, { s with calls := s.calls ++ continues c ms }) := by
  induction ms generalizing s with
  | nil => simp [continues]
  | cons m ms ih =>
    have hm : m.1.hook c s = (.ok .Continue, s) := congrFun (h m (by simp)) s
    rw [runHooks_continue (by rw [hm]), ih fun x hx => h x (by simp [hx])]
    simp [hm, logged, continues]

theorem runHooksLenient_continue {c : HookCall β} {m : Middleware K × Nat}
    {ms : List (Middleware K × Nat)} {s : St K β} (h : (m.1.hook c s).1 = .ok .Continue) :
    runHooksLenient c (m :: ms) s = runHooksLenient c ms (logged c m.2 s (m.1.hook c s)) := by
  have hcall : ((callHook c m).unwrapOr .Continue : Act (St K β) PError _) s =
      (.ok .Continue, logged c m.2 s (m.1.hook c s)) := by
    simp [Act.unwrapOr, callHook_run, h, Res.mapErr]
  exact Act.bind_of_ok hcall

theorem runHooksLenient_silent {c : HookCall β} {ms : List (Middleware K × Nat)} {s : St K β}
    (h : ∀ m ∈ ms, m.1.Silent c) :
    runHooksLenient c ms s = (.ok .Continue, { s with calls := s.calls ++ continues c ms }) := by
  induction ms generalizing s with
  | nil =>
    simp only [continues, List.map_nil, List.append_nil]
    rfl
  | cons m ms ih =>
    have hm : m.1.hook c s = (.ok .Continue, s) := congrFun (h m (by simp)) s
    rw [runHooksLenient_continue (by rw [hm]), ih fun x hx => h x (by simp [hx])]
    simp [hm, logged, continues]

/-! ## The chain of `main` -/

def mainChain (K : Crates) (conf : ServerConf) : List (Middleware K × Nat) :=
  [(metrics K, 0), (ipRestriction K, 1), (requestSize K (maxBytesOf conf), 2)]

theorem chain_main {g : Gateway K} {conf : ServerConf}
    (h : g.middlewares = mainMiddlewares K conf) : g.chain = mainChain K conf := by
  simp [Gateway.chain, h, mainMiddlewares, mainChain]

/-- The hooks no middleware of `main` implements. -/
theorem main_silent {conf : ServerConf} {c : HookCall β}
    (hk : c.kind ≠ .request ∧ c.kind ≠ .requestBody ∧ c.kind ≠ .logging) :
    ∀ m ∈ mainChain K conf, m.1.Silent c := by
  intro m hm
  simp only [mainChain, List.mem_cons, List.not_mem_nil, or_false] at hm
  rcases hm with rfl | rfl | rfl <;> cases c <;> first | rfl | simp [HookCall.kind] at hk

/-- The loops over such hooks, in either order. -/
theorem chain_silent {g : Gateway K} {conf : ServerConf} (h : g.middlewares = mainMiddlewares K conf)
    {c : HookCall β} (hk : c.kind ≠ .request ∧ c.kind ≠ .requestBody ∧ c.kind ≠ .logging) :
    (∀ m ∈ g.chain, m.1.Silent c) ∧ ∀ m ∈ g.chain.reverse, m.1.Silent c := by
  rw [chain_main h]
  exact ⟨main_silent hk, fun m hm => main_silent hk m (by simpa using hm)⟩

/-- The early hooks of `main` do nothing. -/
theorem earlyRequestFilter_main {g : Gateway K} {conf : ServerConf}
    (hmain : g.middlewares = mainMiddlewares K conf) (s : St K Unit) :
    g.earlyRequestFilter s =
      (.ok (), { s with calls := s.calls ++ continues .earlyRequest g.chain }) :=
  Act.bind_of_ok (runHooks_silent (chain_silent hmain (c := .earlyRequest) (by simp)).1)

/-- A request that the gateway of `main` lets through entered `request_filter` as it came in. -/
theorem run_opening_main {g : Gateway K} {conf : ServerConf}
    (hmain : g.middlewares = mainMiddlewares K conf) {session : Session} {s : St K Unit}
    (h : g.run (Gateway.start session) [.earlyRequestFilter, .requestFilter] = some (.proxying, s)) :
    g.requestFilter { (Gateway.start session).2 with calls := continues .earlyRequest g.chain } =
      (.ok false, s) := by
  obtain ⟨s1, hearly, hreq⟩ := Gateway.run_opening h
  rw [earlyRequestFilter_main hmain] at hearly
  obtain rfl : _ = s1 := congrArg Prod.snd hearly
  simpa [Gateway.start] using hreq

/-- Whether or not the answer can be written, the hook that gives it does not continue. -/
theorem stop_ne_continue (code : Nat) (f : PError → PingoraGuideError) (s : St K β) :
    (((respondError code).mapErr f >>= fun _ => pure .Stop : Hook β K) s).1 ≠ .ok .Continue := by
  intro h
  obtain ⟨a, -, hd⟩ := (Act.bind_pure_fst _ (fun _ => MiddlewareDecision.Stop) s _).1 h
  cases hd

/-- It stops, or fails because the answer cannot be written. -/
theorem stop_cases (code : Nat) (f : PError → PingoraGuideError) (s : St K β) :
    (((respondError code).mapErr f >>= fun _ => pure .Stop : Hook β K) s).1 = .ok .Stop ∨
      ∃ e, (((respondError code).mapErr f >>= fun _ => pure .Stop : Hook β K) s).1 = .err e := by
  have hmap : (respondError code).mapErr f s =
      (((write (.error code) s).1).mapErr f, (write (.error code) s).2) := rfl
  obtain ⟨_, -, -, -, ⟨hok, -⟩ | ⟨herr, -⟩⟩ := write_cases (.error code) s
  · rw [hok] at hmap
    exact .inl (congrArg Prod.fst (Act.bind_of_ok hmap))
  · rw [herr] at hmap
    exact .inr ⟨_, congrArg Prod.fst (Act.bind_of_err hmap)⟩

theorem stop_ctx (code : Nat) (f : PError → PingoraGuideError) (s : St K β) :
    (((respondError code).mapErr f >>= fun _ => pure .Stop : Hook β K) s).2.ctx = s.ctx := by
  obtain ⟨se, hse, -⟩ := write_cases (.error code) s
  rw [Act.bind_pure_snd, Act.mapErr_run, respondError, hse]

/-- A property of calls closed under the steps that the hooks of `main` other than `handle_logging`
are made of. -/
structure UnloggedRule (R : ∀ {β : Type}, Hook β K → Prop) : Prop where
  pure : ∀ {β : Type} d, R (Pure.pure d : Hook β K)
  stop : ∀ {β : Type} code f,
    R ((respondError code).mapErr f >>= fun _ => Pure.pure .Stop : Hook β K)
  get : ∀ {β : Type} {f : St K β → Hook β K}, (∀ s, R (f s)) → R (Act.get >>= f)
  ctxGet : ∀ {β : Type} t {f : Option (CtxVal K t) → Hook β K}, (∀ v, R (f v)) →
    R (ctxGet t >>= f)
  expectSize : ∀ {β : Type} {f : RequestSizeState → Hook β K}, (∀ v, R (f v)) →
    R (ctxExpect .requestSizeState "Request size state should exist" >>= f)
  insertSize : ∀ {β : Type} {x : Hook β K}, R x → R (ctxInsert .requestSizeState {} >>= fun _ => x)
  modifySize : ∀ {β : Type} (f : RequestSizeState → RequestSizeState) {x : Hook β K}, R x →
    R (ctxModify .requestSizeState f >>= fun _ => x)

/-- Every other hook of `main` has such a property. -/
theorem UnloggedRule.main {R : ∀ {β : Type}, Hook β K → Prop} (hR : UnloggedRule R)
    {conf : ServerConf} {m : Middleware K} (hm : m ∈ mainMiddlewares K conf) {c : HookCall β}
    (hc : c.kind ≠ .logging) : R (m.hook c) := by
  have hite : ∀ {β : Type} (p : Prop) [Decidable p] {x y : Hook β K}, R x → R y →
      R (if p then x else y) := by
    intro β p _ x y hx hy
    split
    · exact hx
    · exact hy
  simp only [mainMiddlewares, List.mem_cons, List.not_mem_nil, or_false] at hm
  rcases hm with rfl | rfl | rfl
  · cases c
    case logging => exact absurd rfl hc
    all_goals exact hR.pure _
  · cases c
    case request =>
      refine hR.ctxGet _ fun route => ?_
      rcases route with _ | ⟨conf, _ | acl⟩
      · exact hR.pure _
      · exact hR.pure _
      · refine hR.get fun s => ?_
        cases s.session.clientAddr.bind SocketAddr.asInet with
        | none => exact hR.pure _
        | some addr =>
          exact hite _ (hR.stop 403 _) (hite _ (hR.pure _) (hite _ (hR.stop 403 _) (hR.pure _)))
    all_goals exact hR.pure _
  · cases c
    case request =>
      refine hR.insertSize (hR.get fun s => ?_)
      cases contentLength s.session.reqHeader with
      | none => exact hR.pure _
      | some len => exact hite _ (hR.stop 413 _) (hR.pure _)
    case requestBody eos =>
      refine hR.get fun s => hR.expectSize fun state => ?_
      rcases s.msg with _ | b
      · exact hR.pure _
      · exact hR.modifySize _ (hite _ (hR.stop 413 _) (hR.pure _))
    all_goals exact hR.pure _

/-- The same with the step of `handle_logging`. -/
structure HookRule (R : ∀ {β : Type}, Hook β K → Prop) : Prop extends UnloggedRule R where
  record : ∀ {β : Type} labels {x : Hook β K}, R x →
    R ((Act.modify fun s => { s with metrics := s.metrics ++ [labels] }) >>= fun _ => x)

/-- Every hook of `main` has such a property. -/
theorem HookRule.main {R : ∀ {β : Type}, Hook β K → Prop} (hR : HookRule R) {conf : ServerConf}
    {m : Middleware K} (hm : m ∈ mainMiddlewares K conf) (c : HookCall β) : R (m.hook c) := by
  by_cases hc : c.kind = .logging
  · simp only [mainMiddlewares, List.mem_cons, List.not_mem_nil, or_false] at hm
    cases c <;> simp only [HookCall.kind, reduceCtorEq] at hc
    rcases hm with rfl | rfl | rfl
    · refine hR.ctxGet _ fun rm => ?_
      cases rm with
      | none => exact hR.pure _
      | some rm => exact hR.get fun s => hR.record _ (hR.pure _)
    · exact hR.pure _
    · exact hR.pure _
  · exact hR.toUnloggedRule.main hm hc

/-- The hooks of `main` write to one cell of the context, the size counter. -/
theorem main_hook_keeps {conf : ServerConf} {P : GatewayContext (CtxVal K) → Prop}
    (hsize : ∀ ctx, P ctx → P (ctx.insert .requestSizeState {}) ∧
      ∀ f : RequestSizeState → RequestSizeState, P (ctx.modify .requestSizeState f))
    {m : Middleware K} (hm : m ∈ mainMiddlewares K conf) (c : HookCall β) :
    Act.Keeps (fun s : St K β => P s.ctx) (m.hook c) := by
  refine HookRule.main (R := fun x => Act.Keeps (fun s => P s.ctx) x) ?_ hm c
  constructor
  case toUnloggedRule =>
    constructor
    case pure => exact fun _ => .pure _
    case stop => exact fun _ _ => (write_keeps (fun _ _ _ hs => hs) _).mapErr.bind fun _ => .pure _
    case get => exact fun h => Act.Keeps.get.bind h
    case ctxGet => exact fun _ _ h => Act.Keeps.bind (fun _ hs => hs) h
    case expectSize => exact fun h => Act.Keeps.bind (fun _ hs => hs) h
    case insertSize => exact fun h => Act.Keeps.bind (fun s hs => (hsize s.ctx hs).1) fun _ => h
    case modifySize => exact fun f _ h => Act.Keeps.bind (fun s hs => (hsize s.ctx hs).2 f) fun _ => h
  case record => exact fun _ _ h => Act.Keeps.bind (fun _ hs => hs) fun _ => h

theorem main_hook_get {conf : ServerConf} {m : Middleware K} (hm : m ∈ mainMiddlewares K conf)
    (c : HookCall β) {t : CtxType K} (ht : t ≠ .requestSizeState) (s : St K β) :
    (m.hook c s).2.ctx.get t = s.ctx.get t := by
  refine main_hook_keeps (P := fun ctx => ctx.get t = s.ctx.get t) ?_ hm c s rfl
  intro ctx h
  exact ⟨(ctx.get_insert_ne _ ht).trans h, fun f => (ctx.get_modify_ne f ht).trans h⟩

theorem main_hook_silent {conf : ServerConf} {m : Middleware K} (hm : m ∈ mainMiddlewares K conf)
    {c : HookCall β} (hk : c.kind ≠ .request ∧ c.kind ≠ .requestBody ∧ c.kind ≠ .logging) :
    m.Silent c := by
  obtain ⟨i, hi⟩ : ∃ i, (m, i) ∈ mainChain K conf := by
    simp only [mainMiddlewares, List.mem_cons, List.not_mem_nil, or_false] at hm
    rcases hm with rfl | rfl | rfl
    exacts [⟨0, by simp [mainChain]⟩, ⟨1, by simp [mainChain]⟩, ⟨2, by simp [mainChain]⟩]
  exact main_silent hk _ hi

/-- Apart from the request hooks, a hook of `main` writes at most a metric. -/
theorem main_hook_metrics {conf : ServerConf} {m : Middleware K} (hm : m ∈ mainMiddlewares K conf)
    {c : HookCall β} (hk : c.kind ≠ .request ∧ c.kind ≠ .requestBody) (s : St K β) :
    ∃ l, (m.hook c s).2 = { s with metrics := l } := by
  by_cases hl : c.kind = .logging
  · simp only [mainMiddlewares, List.mem_cons, List.not_mem_nil, or_false] at hm
    cases c <;> simp only [HookCall.kind, reduceCtorEq] at hl
    rcases hm with rfl | rfl | rfl
    · show ∃ l, ((ctxGet .requestMeta >>= _ : Hook Unit K) s).2 = { s with metrics := l }
      rw [ctxGet_bind_run]
      cases s.ctx.get .requestMeta <;> exact ⟨_, rfl⟩
    · exact ⟨_, rfl⟩
    · exact ⟨_, rfl⟩
  · have hsilent : m.hook c = pure .Continue := main_hook_silent hm ⟨hk.1, hk.2, hl⟩
    rw [hsilent]
    exact ⟨_, rfl⟩

/-- Only `handle_logging` records. -/
theorem main_hook_unrecorded {conf : ServerConf} {m : Middleware K}
    (hm : m ∈ mainMiddlewares K conf) {c : HookCall β} (hc : c.kind ≠ .logging)
    (l : List MetricLabels) : Act.Keeps (fun s : St K β => s.metrics = l) (m.hook c) := by
  refine UnloggedRule.main (R := fun {β} x => Act.Keeps (fun s : St K β => s.metrics = l) x) ?_ hm hc
  constructor
  case pure => exact fun _ => .pure _
  case stop => exact fun _ _ => (write_keeps (fun _ _ _ hs => hs) _).mapErr.bind fun _ => .pure _
  case get => exact fun h => Act.Keeps.get.bind h
  case ctxGet => exact fun _ _ h => Act.Keeps.bind (fun _ hs => hs) h
  case expectSize => exact fun h => Act.Keeps.bind (fun _ hs => hs) h
  case insertSize => exact fun h => Act.Keeps.bind (fun _ hs => hs) fun _ => h
  case modifySize => exact fun _ _ h => Act.Keeps.bind (fun _ hs => hs) fun _ => h

/-- The hooks of `main` leave the request header alone. -/
theorem main_hook_reqHeader {conf : ServerConf} {m : Middleware K} (hm : m ∈ mainMiddlewares K conf)
    (c : HookCall β) (s : St K β) : (m.hook c s).2.session.reqHeader = s.session.reqHeader := by
  refine HookRule.main
    (R := fun {β} x => ∀ h, Act.Keeps (fun s : St K β => s.session.reqHeader = h) x) ?_ hm c _ s rfl
  constructor
  case toUnloggedRule =>
    constructor
    case pure => exact fun _ _ => .pure _
    case stop =>
      intro β code f h
      have hwrite : Act.Keeps (fun s : St K β => s.session.reqHeader = h) (write (.error code)) :=
        write_keeps (fun s se hheader hs => hheader.trans hs) _
      exact hwrite.mapErr.bind fun _ => .pure _
    case get => exact fun hf h => Act.Keeps.get.bind fun s => hf s h
    case ctxGet => exact fun _ _ hf h => Act.Keeps.bind (fun _ hs => hs) fun v => hf v h
    case expectSize => exact fun hf h => Act.Keeps.bind (fun _ hs => hs) fun v => hf v h
    case insertSize => exact fun hx h => Act.Keeps.bind (fun _ hs => hs) fun _ => hx h
    case modifySize => exact fun _ _ hx h => Act.Keeps.bind (fun _ hs => hs) fun _ => hx h
  case record => exact fun _ _ hx h => Act.Keeps.bind (fun _ hs => hs) fun _ => hx h

/-! ## `request_filter` -/

/-- The request id is set (gateway.rs:102-107). -/
def openRequest (s : St K Unit) : St K Unit :=
  { s with
    session := { s.session with uuids := s.session.uuids + 1 }
    ctx := s.ctx.modify .requestMeta fun (rm : RequestMeta) =>
      { rm with requestId := s.session.env.uuid s.session.uuids } }

/-- What the gateway writes to the context once a route matched (gateway.rs:104-122). -/
def enterRoute (s : St K Unit) (entry : RouteEntry K) : St K Unit :=
  { openRequest s with
    ctx :=
      (((openRequest s).ctx.modify .requestMeta fun (rm : RequestMeta) =>
        { rm with
          matchedRouteId := some entry.conf.val.path
          upstreamId := some entry.conf.val.upstreamId }).insert .routeEntry entry).insert
        .arcRouteConf entry.conf }

/-- The lookup `request_filter` makes. -/
def Gateway.matched (g : Gateway K) (s : St K Unit) : Res PError (Option (RouteEntry K)) :=
  g.router.matchRequest s.session.reqHeader.path (requestHost s.session.reqHeader)

section
variable {g : Gateway K} {s : St K Unit}

theorem requestFilter_panics (hmeta : s.ctx.get .requestMeta = none) :
    g.requestFilter s = (.panic "Context should already be created",
      { s with session := { s.session with uuids := s.session.uuids + 1 } }) := by
  have hexp := ctxExpect_of_none (ε := PError) "Context should already be created"
    (s := { s with session := { s.session with uuids := s.session.uuids + 1 } }) hmeta
  unfold Gateway.requestFilter
  exact (Act.bind_of_ok rfl).trans (Act.bind_of_panic hexp)

/-- The branches of `request_filter`, by the result of the lookup. -/
theorem requestFilter_run {rm : RequestMeta} (hmeta : s.ctx.get .requestMeta = some rm) :
    g.requestFilter s =
      match g.matched s with
      | .ok (some entry) =>
        (runHooks .request g.chain >>= fun d => pure (d == .Stop)) (enterRoute s entry)
      | .ok none => (respondError 404 >>= fun _ => pure true) (openRequest s)
      | .err e => (.err e, openRequest s)
      | .panic msg => (.panic msg, openRequest s) := by
  have hexp := ctxExpect_of_some (ε := PError) "Context should already be created"
    (s := { s with session := { s.session with uuids := s.session.uuids + 1 } }) hmeta
  unfold Gateway.requestFilter
  refine (Act.bind_of_ok rfl).trans ((Act.bind_of_ok hexp).trans ?_)
  refine (Act.bind_of_ok rfl).trans ((Act.bind_of_ok rfl).trans ?_)
  have hlookup : (Act.ofRes (g.matched s) : Act (St K Unit) PError _) (openRequest s) =
      (g.matched s, openRequest s) := rfl
  change (Act.ofRes (g.matched s) >>= _) (openRequest s) = _
  cases hmatch : g.matched s with
  | ok found =>
    rw [hmatch] at hlookup
    refine (Act.bind_of_ok hlookup).trans ?_
    cases found <;> rfl
  | err e =>
    rw [hmatch] at hlookup
    exact Act.bind_of_err hlookup
  | panic msg =>
    rw [hmatch] at hlookup
    exact Act.bind_of_panic hlookup

theorem requestFilter_matched {rm : RequestMeta} {entry : RouteEntry K}
    (hmeta : s.ctx.get .requestMeta = some rm) (hmatch : g.matched s = .ok (some entry)) :
    g.requestFilter s =
      (runHooks .request g.chain >>= fun d => pure (d == .Stop)) (enterRoute s entry) := by
  rw [requestFilter_run hmeta, hmatch]

/-- A request that is let through matched a route, and its hooks all continued. -/
theorem requestFilter_ok_false {s' : St K Unit} (h : g.requestFilter s = (.ok false, s')) :
    ∃ rm entry, s.ctx.get .requestMeta = some rm ∧ g.matched s = .ok (some entry) ∧
      runHooks .request g.chain (enterRoute s entry) = (.ok .Continue, s') := by
  cases hmeta : s.ctx.get .requestMeta with
  | none =>
    rw [requestFilter_panics hmeta] at h
    cases h
  | some rm =>
    rw [requestFilter_run hmeta] at h
    cases hmatch : g.matched s with
    | ok found =>
      rw [hmatch] at h
      cases found with
      | some entry =>
        obtain ⟨d, s1, hd, hr⟩ := Act.bind_eq_ok.1 h
        cases d with
        | Continue =>
          obtain rfl : s1 = s' := congrArg Prod.snd hr
          exact ⟨rm, entry, rfl, rfl, hd⟩
        | Stop => cases hr
      | none =>
        obtain ⟨_, _, -, hr⟩ := Act.bind_eq_ok.1 h
        cases hr
    | err e =>
      rw [hmatch] at h
      cases h
    | panic msg =>
      rw [hmatch] at h
      cases h

/-- The hooks of the chain decide whether a matched request is let through. -/
theorem requestFilter_decides {rm : RequestMeta} {entry : RouteEntry K}
    (hmeta : s.ctx.get .requestMeta = some rm) (hmatch : g.matched s = .ok (some entry)) :
    ((g.requestFilter s).1 = .ok false ↔
      (runHooks .request g.chain (enterRoute s entry)).1 = .ok .Continue) ∧
    (g.requestFilter s).2 = (runHooks .request g.chain (enterRoute s entry)).2 := by
  rw [requestFilter_matched hmeta hmatch]
  refine ⟨?_, Act.bind_pure_snd _ _ _⟩
  rw [Act.bind_pure_fst]
  constructor
  · rintro ⟨_ | _, hd, hf⟩
    · exact hd
    · cases hf
  · exact fun h => ⟨.Continue, h, rfl⟩

@[simp] theorem enterRoute_session (entry : RouteEntry K) :
    (enterRoute s entry).session = { s.session with uuids := s.session.uuids + 1 } := rfl
@[simp] theorem enterRoute_calls (entry : RouteEntry K) :
    (enterRoute s entry).calls = s.calls := rfl

/-- The two route cells hold the matched entry; the cells of other types are untouched. -/
theorem enterRoute_get (entry : RouteEntry K) :
    (enterRoute s entry).ctx.get .routeEntry = some entry ∧
      (enterRoute s entry).ctx.get .arcRouteConf = some entry.conf ∧
      ∀ t, t ≠ .requestMeta → t ≠ .routeEntry → t ≠ .arcRouteConf →
        (enterRoute s entry).ctx.get t = s.ctx.get t := by
  refine ⟨?_, ?_, ?_⟩
  · simp [enterRoute, GatewayContext.get_insert]
  · simp [enterRoute]
  · intro t h1 h2 h3
    simp [enterRoute, openRequest, GatewayContext.get_insert, GatewayContext.get_modify, h1, h2, h3]

theorem enterRoute_requestMeta {rm : RequestMeta} (entry : RouteEntry K)
    (hmeta : s.ctx.get .requestMeta = some rm) :
    (enterRoute s entry).ctx.get .requestMeta = some
      { rm with
        requestId := s.session.env.uuid s.session.uuids
        matchedRouteId := some entry.conf.val.path
        upstreamId := some entry.conf.val.upstreamId } := by
  simp [enterRoute, openRequest, GatewayContext.get_insert, GatewayContext.get_modify, hmeta]

end

/-! ## The request hooks of `main` -/

section
variable {g : Gateway K} {conf : ServerConf} {s : St K Unit} {rm : RequestMeta}
  {entry : RouteEntry K}

/-- What `ip_restriction` sees: `metrics` has no request hook. -/
def ipSees (s : St K Unit) (entry : RouteEntry K) : St K Unit :=
  logged .request 0 (enterRoute s entry) (.ok .Continue, enterRoute s entry)

/-- What `request_size` sees, if `ip_restriction` continues. -/
def sizeSees (s : St K Unit) (entry : RouteEntry K) : St K Unit :=
  logged .request 1 (ipSees s entry) ((ipRestriction K).handleRequest (ipSees s entry))

theorem sizeSees_calls (s : St K Unit) (entry : RouteEntry K) :
    (sizeSees s entry).calls = s.calls ++ [.hook .request 0 (.ok .Continue),
      .hook .request 1 ((ipRestriction K).handleRequest (ipSees s entry)).1] := by
  simp [sizeSees, ipSees, HookCall.kind]

theorem sizeSees_reqHeader (s : St K Unit) (entry : RouteEntry K) :
    (sizeSees s entry).session.reqHeader = s.session.reqHeader := by
  have hmem : ipRestriction K ∈ mainMiddlewares K {} := by simp [mainMiddlewares]
  exact main_hook_reqHeader hmem .request (ipSees s entry)

theorem runHooks_request_main (hmain : g.middlewares = mainMiddlewares K conf) (s : St K Unit)
    (entry : RouteEntry K) :
    runHooks .request g.chain (enterRoute s entry) =
      runHooks .request [(ipRestriction K, 1), (requestSize K (maxBytesOf conf), 2)]
        (ipSees s entry) := by
  rw [chain_main hmain]
  exact runHooks_continue rfl

/-- `ip_restriction`, then `request_size`, decide whether a matched request is let through. -/
theorem requestFilter_main (hmain : g.middlewares = mainMiddlewares K conf)
    (hmeta : s.ctx.get .requestMeta = some rm) (hmatch : g.matched s = .ok (some entry)) :
    (g.requestFilter s).1 = .ok false ↔
      ((ipRestriction K).handleRequest (ipSees s entry)).1 = .ok .Continue ∧
        ((requestSize K (maxBytesOf conf)).handleRequest (sizeSees s entry)).1 = .ok .Continue := by
  rw [(requestFilter_decides hmeta hmatch).1, runHooks_request_main hmain, runHooks_cons_continue,
    runHooks_cons_continue]
  simp [Middleware.hook, sizeSees]

/-- The state after it: `request_size` ran only if `ip_restriction` continued. -/
theorem requestFilter_main_snd (hmain : g.middlewares = mainMiddlewares K conf)
    (hmeta : s.ctx.get .requestMeta = some rm) (hmatch : g.matched s = .ok (some entry)) :
    (((ipRestriction K).handleRequest (ipSees s entry)).1 = .ok .Continue ∧
      (g.requestFilter s).2 = logged .request 2 (sizeSees s entry)
        ((requestSize K (maxBytesOf conf)).handleRequest (sizeSees s entry))) ∨
    (((ipRestriction K).handleRequest (ipSees s entry)).1 ≠ .ok .Continue ∧
      (g.requestFilter s).2 = sizeSees s entry) := by
  rw [(requestFilter_decides hmeta hmatch).2, runHooks_request_main hmain]
  by_cases hip : ((ipRestriction K).hook .request (ipSees s entry)).1 = .ok .Continue
  · refine .inl ⟨hip, ?_⟩
    rw [runHooks_continue hip, runHooks_singleton]
    rfl
  · refine .inr ⟨hip, ?_⟩
    rw [(runHooks_halt hip).2]
    rfl

/-- `handle_request` of `request_size` runs only on a matched request that `ip_restriction` lets
through; it is the last hook. -/
theorem requestFilter_ran_size (hmain : g.middlewares = mainMiddlewares K conf)
    {out : Res PingoraGuideError MiddlewareDecision}
    (hran : .hook .request 2 out ∈ (g.requestFilter s).2.calls)
    (hfresh : .hook .request 2 out ∉ s.calls) :
    ∃ entry, ((ipRestriction K).handleRequest (ipSees s entry)).1 = .ok .Continue ∧
      (g.requestFilter s).2 = logged .request 2 (sizeSees s entry)
        ((requestSize K (maxBytesOf conf)).handleRequest (sizeSees s entry)) := by
  cases hmeta : s.ctx.get .requestMeta with
  | none =>
    rw [requestFilter_panics hmeta] at hran
    exact absurd hran hfresh
  | some rm =>
    rcases hmatch : g.matched s with (_ | entry) | e | msg
    · rw [requestFilter_run hmeta, hmatch] at hran
      dsimp only at hran
      obtain ⟨se, hse, -⟩ := write_cases (.error 404) (openRequest s)
      rw [Act.bind_pure_snd, respondError, hse] at hran
      exact absurd hran hfresh
    · rcases requestFilter_main_snd hmain hmeta hmatch with hlast | ⟨-, hstate⟩
      · exact ⟨entry, hlast⟩
      · rw [hstate, sizeSees_calls] at hran
        rcases List.mem_append.1 hran with hmem | hmem
        · exact absurd hmem hfresh
        · simp at hmem
    · rw [requestFilter_run hmeta, hmatch] at hran
      exact absurd hran hfresh
    · rw [requestFilter_run hmeta, hmatch] at hran
      exact absurd hran hfresh

end

/-! ## `request_body_filter` -/

section
variable {g : Gateway K} {conf : ServerConf}

theorem requestBodyFilter_snd (g : Gateway K) (eos : Bool) (s : St K (Option Bytes)) :
    (g.requestBodyFilter eos s).2 = (runHooks (.requestBody eos) g.chain s).2 := by
  unfold Gateway.requestBodyFilter
  refine Act.bind_frame_snd (fun d t => ?_) s
  cases d <;> rfl

/-- `metrics` and `ip_restriction` have no body hook. -/
theorem runHooks_body_main (hmain : g.middlewares = mainMiddlewares K conf) (eos : Bool)
    (s : St K (Option Bytes)) :
    runHooks (.requestBody eos) g.chain s =
      runHooks (.requestBody eos) [(requestSize K (maxBytesOf conf), 2)]
        { s with
          calls := s.calls ++ [.hook .requestBody 0 (.ok .Continue)] ++
            [.hook .requestBody 1 (.ok .Continue)] } := by
  rw [chain_main hmain, mainChain, runHooks_continue rfl, runHooks_continue rfl]
  rfl

end

end PingoraGuide
