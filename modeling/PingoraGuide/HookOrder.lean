import PingoraGuide.Footprint
import PingoraGuide.Lib.Pipeline
/-!
# Hook order in every phase

The ten loops of src/gateway.rs are one pipeline in three variants: over the chain, over the reversed
chain, and over the reversed chain with an `Err` counted as `Continue` (`logging` and
`fail_to_proxy`). `afterHooks` is the state the hooks of a phase leave, `CallsHooks` says which hooks
a phase calls, read off the log of its calls, and `EditsLast` that a phase whose hooks do not all
continue does nothing else.
-/
namespace PingoraGuide
open Fallible Wire
open Pipeline (Visit UpToFirst)

variable {K : Crates} {β ε : Type}

abbrev Outcome := Res PingoraGuideError MiddlewareDecision

def proceeds : Outcome → Bool
  | .ok .Continue => true
  | _ => false

/-- `unwrap_or(MiddlewareDecision::Continue)`; a panic still ends the task. -/
def proceedsLenient : Outcome → Bool
  | .ok .Continue | .err _ => true
  | _ => false

/-- What the lenient loops make of an outcome. -/
def leniently : Outcome → Res PError MiddlewareDecision
  | .ok d => .ok d
  | .err _ => .ok .Continue
  | .panic msg => .panic msg

/-- One hook, its call logged. -/
def visitHook (c : HookCall β) (m : Middleware K × Nat) (s : St K β) : Outcome × St K β :=
  ((m.1.hook c s).1, logged c m.2 s (m.1.hook c s))

def hookVisits (c : HookCall β) (go : Outcome → Bool) (order : List (Middleware K × Nat))
    (s : St K β) : List (Visit (St K β) (Middleware K × Nat) Outcome) :=
  Pipeline.visits go (visitHook c) order s

def afterHooks (c : HookCall β) (go : Outcome → Bool) (order : List (Middleware K × Nat))
    (s : St K β) : St K β :=
  Pipeline.final go (visitHook c) order s

/-- The hook calls of a log, each with the index of its middleware and its outcome. -/
def hookLog (calls : List Call) : List (HookKind × Nat × Outcome) :=
  calls.filterMap fun
    | .hook k idx out => some (k, idx, out)
    | _ => none

/-- Between `s` and `after` the hooks of `order` are called up to and including the first that does
not let the phase go on, and no other hook. -/
def CallsHooks (c : HookCall β) (go : Outcome → Bool) (order : List (Middleware K × Nat))
    (s after : St K β) : Prop :=
  UpToFirst go order (hookVisits c go order s) ∧
    hookLog after.calls =
      hookLog s.calls ++ (hookVisits c go order s).map fun v => (c.kind, v.hook.2, v.out)

/-- When a hook does not continue, the phase leaves what the hooks left. -/
def EditsLast (c : HookCall β) (order : List (Middleware K × Nat)) (s after : St K β) : Prop :=
  (∃ v ∈ hookVisits c proceeds order s, v.out ≠ .ok .Continue) →
    after = afterHooks c proceeds order s

/-! ## The loops are pipelines -/

section
variable (c : HookCall β) (ms : List (Middleware K × Nat)) (s : St K β)

theorem runHooks_snd : (runHooks c ms s).2 = afterHooks c proceeds ms s := by
  unfold runHooks afterHooks
  rw [Pipeline.untilStop_snd]
  refine Pipeline.final_relabel (Res.mapErr PingoraGuideError.toPError) ?_ ?_ ms s
  · exact fun m s => callHook_run c m s
  · rintro (d | e | msg)
    · cases d <;> rfl
    · rfl
    · rfl

theorem runHooksLenient_snd : (runHooksLenient c ms s).2 = afterHooks c proceedsLenient ms s := by
  unfold runHooksLenient afterHooks
  rw [Pipeline.untilStop_snd]
  refine Pipeline.final_relabel leniently ?_ ?_ ms s
  · intro m s
    simp only [Act.unwrapOr, callHook_run, visitHook]
    cases (m.1.hook c s).1 <;> rfl
  · rintro (d | e | msg)
    · cases d <;> rfl
    · rfl
    · rfl

/-- A hook that does not continue decides the loop. -/
theorem runHooks_visits :
    (runHooks c ms s).1 = .ok .Continue ↔
      ∀ v ∈ hookVisits c proceeds ms s, v.out = .ok .Continue := by
  unfold hookVisits
  induction ms generalizing s with
  | nil => simp [Pipeline.visits]
  | cons m ms ih =>
    rw [runHooks_cons_continue, ih, Pipeline.visits, List.forall_mem_cons]
    refine and_congr_right fun hm => ?_
    rw [visitHook, hm]
    rfl

theorem hookLog_append (l m : List Call) : hookLog (l ++ m) = hookLog l ++ hookLog m :=
  List.filterMap_append

theorem afterHooks_log (go : Outcome → Bool) :
    hookLog (afterHooks c go ms s).calls =
      hookLog s.calls ++ (hookVisits c go ms s).map fun v => (c.kind, v.hook.2, v.out) := by
  refine Pipeline.final_logs (fun s => hookLog s.calls) (fun m out => (c.kind, m.2, out)) ?_ ms s
  intro m s
  simp only [visitHook, logged_calls, hookLog_append]
  rfl

end

/-! ## After the loops -/

section
variable {c : HookCall β} {ms : List (Middleware K × Nat)} {s after : St K β}

/-- No hook is called between the end of the loop and the end of the phase. -/
def Quiet {α : Type} (x : Act (St K β) ε α) : Prop :=
  ∀ l, Act.Keeps (fun s => hookLog s.calls = l) x

theorem callsHooks_of_log {go : Outcome → Bool}
    (h : hookLog after.calls = hookLog (afterHooks c go ms s).calls) :
    CallsHooks c go ms s after :=
  ⟨Pipeline.visits_upToFirst ms s, h.trans (afterHooks_log c ms s go)⟩

theorem bind_quiet {α γ : Type} {x : Act (St K β) ε α} {f : α → Act (St K β) ε γ}
    (hf : ∀ a, Quiet (f a)) (s : St K β) :
    hookLog ((x >>= f) s).2.calls = hookLog (x s).2.calls := by
  rcases Act.bind_cases x f s with ⟨a, s', h, h'⟩ | ⟨e, s', h, h'⟩ | ⟨msg, s', h, h'⟩
  · rw [h, h']
    exact hf a _ s' rfl
  · rw [h, h']
  · rw [h, h']

/-- A phase that runs the loop first calls the hooks of the loop. -/
theorem callsHooks_bind {α : Type} {f : MiddlewareDecision → Act (St K β) PError α}
    (hf : ∀ d, Quiet (f d)) : CallsHooks c proceeds ms s ((runHooks c ms >>= f) s).2 := by
  refine callsHooks_of_log ?_
  rw [bind_quiet hf, runHooks_snd]

theorem callsHooksLenient_bind {α : Type} {f : MiddlewareDecision → Act (St K β) PError α}
    (hf : ∀ d, Quiet (f d)) :
    CallsHooks c proceedsLenient ms s ((runHooksLenient c ms >>= f) s).2 := by
  refine callsHooks_of_log ?_
  rw [bind_quiet hf, runHooksLenient_snd]

/-- A phase that turns `Stop` into an error edits nothing after a hook that does not continue. -/
theorem editsLast_bind {α : Type} {f : MiddlewareDecision → Act (St K β) PError α}
    (hstop : ∀ s, (f .Stop s).2 = s) : EditsLast c ms s ((runHooks c ms >>= f) s).2 := by
  rintro ⟨v, hv, hne⟩
  have hr : (runHooks c ms s).1 ≠ .ok .Continue := by
    intro h
    exact hne ((runHooks_visits c ms s).1 h v hv)
  rw [← runHooks_snd]
  rcases hrun : runHooks c ms s with ⟨(_ | _) | e | msg, s'⟩ <;> rw [hrun] at hr
  · exact absurd rfl hr
  · rw [Act.bind_of_ok hrun, hstop]
  · rw [Act.bind_of_err hrun]
  · rw [Act.bind_of_panic hrun]

end

/-! ## The rest of each phase calls no hook -/

theorem Quiet.pure {α : Type} (a : α) : Quiet (Pure.pure a : Act (St K β) ε α) := fun _ => .pure a

theorem Quiet.throw {α : Type} (e : ε) : Quiet (Act.throw e : Act (St K β) ε α) := fun _ => .throw e

theorem Quiet.ite {α : Type} {p : Prop} [Decidable p] {x y : Act (St K β) ε α} (hx : Quiet x)
    (hy : Quiet y) : Quiet (if p then x else y) := fun l => (hx l).ite (hy l)

/-- The effects other than hooks. -/
theorem hookLog_stable (g : Gateway K) {e : Effect} (he : ∀ k, e ≠ .hook k)
    (l : List (HookKind × Nat × Outcome)) : g.Stable (fun s => hookLog s.calls = l) e := by
  refine calls_stable (Q := fun calls => hookLog calls = l) fun calls c hlogs hl => ?_
  have hc : hookLog [c] = [] := by
    cases c with
    | hook k idx out =>
      cases e with
      | hook k' => exact absurd rfl (he k')
      | _ => simp [Effect.Logs] at hlogs
    | _ => rfl
  rw [hookLog_append, hl, hc, List.append_nil]

theorem expectRouteConf_quiet (g : Gateway K) {α : Type} {f : RouteConf → Act (St K β) ε α}
    (hf : ∀ route, Quiet (f route)) : Quiet (expectRouteConf >>= f) := by
  intro l
  exact (expectRouteConf_keeps (hookLog_stable g (by simp) l)).bind fun route => hf route l

theorem upstreamRequest_quiet (g : Gateway K) (d : MiddlewareDecision) :
    Quiet (if d == .Stop then Act.throw (middlewareRejected "Upstream Request Rejected")
      else do
        let route ← expectRouteConf
        let reqMeta ← ctxExpect .requestMeta "RequestMeta should exist"
        onRequestHeaders (editRequest route.headers (RequestMeta.sni reqMeta)) :
        Act (St K RequestHeader) PError Unit) := by
  refine (Quiet.throw _).ite (expectRouteConf_quiet g fun route l => ?_)
  refine ctxExpect_keeps.bind fun rm => ?_
  exact Act.Keeps.zoom fun s hs => hs

theorem responseEdit_quiet (g : Gateway K) (d : MiddlewareDecision) (e : PError)
    (edit : HeaderConf → Act HeaderMap PError Unit) :
    Quiet (if d == .Stop then Act.throw e
      else do
        let route ← expectRouteConf
        onResponseHeaders (edit route.headers) : Act (St K ResponseHeader) PError Unit) :=
  (Quiet.throw _).ite (expectRouteConf_quiet g fun _ _ => Act.Keeps.zoom fun _ hs => hs)

theorem reject_quiet (d : MiddlewareDecision) (e : PError) :
    Quiet (if d == .Stop then Act.throw e else pure () : Act (St K β) PError Unit) :=
  (Quiet.throw _).ite (.pure _)

theorem failToProxy_quiet (g : Gateway K) (d : MiddlewareDecision) (e : PError) :
    Quiet (if d == .Stop then do
        logCall (.failToProxy 0)
        pure ⟨0, false⟩
      else do
        let code := errorStatus e.etype
        let errorPageServed ← serveErrorPage code
        respondUnless errorPageServed code
        logCall (.failToProxy code)
        pure ⟨code, false⟩ : Act (St K Unit) PError FailToProxy) := by
  intro l
  have hw : g.Stable (fun s => hookLog s.calls = l) .write := hookLog_stable g (by simp) l
  have hl : g.Stable (fun s => hookLog s.calls = l) .lookup := hookLog_stable g (by simp) l
  have hf : g.Stable (fun s => hookLog s.calls = l) .fail := hookLog_stable g (by simp) l
  refine Act.Keeps.ite (Act.Keeps.bind (fun s hs => hf s 0 hs) fun _ => .pure _) ?_
  refine (serveErrorPage_keeps _ hl hw).bind fun served => ?_
  refine (respondUnless_keeps served _ hw).bind fun _ => ?_
  exact Act.Keeps.bind (fun s hs => hf s _ hs) fun _ => .pure _

/-- **Hook order in every phase.** Forward over the chain on the way in, backward on the way out,
with errors ignored in `logging` and `fail_to_proxy`; the route's header edits come after hooks
that all continued. -/
theorem hook_order (g : Gateway K) :
    (∀ s, CallsHooks .earlyRequest proceeds g.chain s (g.earlyRequestFilter s).2) ∧
    (∀ s rm entry, s.ctx.get .requestMeta = some rm → g.matched s = .ok (some entry) →
      CallsHooks .request proceeds g.chain (enterRoute s entry) (g.requestFilter s).2) ∧
    (∀ eos s, CallsHooks (.requestBody eos) proceeds g.chain s (g.requestBodyFilter eos s).2) ∧
    (∀ s, CallsHooks .upstreamRequest proceeds g.chain s (g.upstreamRequestFilter s).2 ∧
      EditsLast .upstreamRequest g.chain s (g.upstreamRequestFilter s).2) ∧
    (∀ conn s, CallsHooks (.upstreamConnected conn) proceeds g.chain s
      (g.connectedToUpstream conn s).2) ∧
    (∀ s, CallsHooks .upstreamResponse proceeds g.chain.reverse s (g.upstreamResponseFilter s).2 ∧
      EditsLast .upstreamResponse g.chain.reverse s (g.upstreamResponseFilter s).2) ∧
    (∀ s, CallsHooks .response proceeds g.chain.reverse s (g.responseFilter s).2 ∧
      EditsLast .response g.chain.reverse s (g.responseFilter s).2) ∧
    (∀ eos s, CallsHooks (.responseBody eos) proceeds g.chain.reverse s
      (g.responseBodyFilter eos s).2) ∧
    (∀ e s, CallsHooks (.logging e) proceedsLenient g.chain.reverse s (g.logging e s).2) ∧
    (∀ e s, CallsHooks (.error e) proceedsLenient g.chain.reverse s (g.failToProxy e s).2) := by
  refine ⟨?_, ?_, ?_, ?_, ?_, ?_, ?_, ?_, ?_, ?_⟩
  case refine_1 => exact fun s => callsHooks_bind fun d => .pure _
  case refine_2 =>
    intro s rm entry hmeta hmatch
    rw [requestFilter_matched hmeta hmatch]
    exact callsHooks_bind fun d => .pure _
  case refine_3 => exact fun eos s => callsHooks_bind fun d => reject_quiet d _
  case refine_4 =>
    exact fun s => ⟨callsHooks_bind fun d => upstreamRequest_quiet g d, editsLast_bind fun s => rfl⟩
  case refine_5 => exact fun conn s => callsHooks_bind fun d => reject_quiet d _
  case refine_6 =>
    exact fun s => ⟨callsHooks_bind fun d => responseEdit_quiet g d _ fun headers =>
      Act.modify (removeHeaders headers.removeRespHeaders), editsLast_bind fun s => rfl⟩
  case refine_7 =>
    exact fun s => ⟨callsHooks_bind fun d => responseEdit_quiet g d _ fun headers =>
      setHeaders headers.addRespHeaders.entries, editsLast_bind fun s => rfl⟩
  case refine_8 => exact fun eos s => callsHooks_bind fun d => reject_quiet d _
  case refine_9 => exact fun e s => callsHooksLenient_bind fun d => .pure _
  case refine_10 => exact fun e s => callsHooksLenient_bind fun d => failToProxy_quiet g d e

end PingoraGuide
