import PingoraGuide.Footprint
/-!
# Stop halts the request

`request_filter` turns a `Stop` into `Ok(true)`, after which Pingora is done with the request.
`early_request_filter` only leaves its loop on a `Stop` and returns `Ok(())`, so Pingora goes on to
`request_filter`: the request is halted anyway exactly when that filter finds no route to run hooks
for (`halts_on_stop_iff`).
-/
namespace PingoraGuide
open Fallible Wire

variable {K : Crates} {β : Type}

/-- `Stop` from `handle_early_request` or `handle_request`. -/
def Call.StopsRequest : Call → Prop
  | .hook k _ out => (k = .earlyRequest ∨ k = .request) ∧ out = .ok .Stop
  | _ => False

/-- A request-phase hook, or `upstream_peer`. -/
def Call.RequestPhase : Call → Prop
  | .hook k _ _ => k = .earlyRequest ∨ k = .request ∨ k = .requestBody ∨ k = .upstreamRequest
  | .upstreamPeer => True
  | _ => False

/-- After a `Stop` no request-phase call is made. -/
def HaltsOnStop (calls : List Call) : Prop :=
  calls.Pairwise fun c d => c.StopsRequest → ¬ d.RequestPhase

def NoStop (calls : List Call) : Prop := ∀ c ∈ calls, ¬ c.StopsRequest

theorem NoStop.halts {calls : List Call} (h : NoStop calls) : HaltsOnStop calls :=
  List.Pairwise.imp_of_mem (fun hc _ _ hs => absurd hs (h _ hc))
    (List.pairwise_of_forall fun _ _ => trivial)

theorem haltsOnStop_append {l m : List Call} :
    HaltsOnStop (l ++ m) ↔ HaltsOnStop l ∧ HaltsOnStop m ∧
      ∀ c ∈ l, ∀ d ∈ m, c.StopsRequest → ¬ d.RequestPhase :=
  List.pairwise_append

/-- One more call, after no `Stop`. -/
theorem NoStop.halts_append {calls : List Call} (h : NoStop calls) (c : Call) :
    HaltsOnStop (calls ++ [c]) :=
  haltsOnStop_append.2 ⟨h.halts, List.pairwise_singleton _ _, fun d hd _ _ hs => absurd hs (h d hd)⟩

theorem noStop_append {l m : List Call} : NoStop (l ++ m) ↔ NoStop l ∧ NoStop m := by
  simp only [NoStop, List.mem_append, or_imp, forall_and]

/-! ## What the hook loops log -/

/-- A loop logs its hooks in order; a `Stop` is the last of them, and the value of the loop. -/
theorem runHooks_log (c : HookCall β) (ms : List (Middleware K × Nat)) (s : St K β) :
    ∃ l, (∀ call ∈ l, ∃ idx out, call = .hook c.kind idx out ∧ out ≠ .ok .Stop) ∧
      (((runHooks c ms s).1 ≠ .ok .Stop ∧ (runHooks c ms s).2.calls = s.calls ++ l) ∨
        ((runHooks c ms s).1 = .ok .Stop ∧ ms ≠ [] ∧
          ∃ idx, (runHooks c ms s).2.calls = s.calls ++ l ++ [.hook c.kind idx (.ok .Stop)])) := by
  induction ms generalizing s with
  | nil => exact ⟨[], by simp⟩
  | cons m ms ih =>
    rcases hr : (m.1.hook c s).1 with (_ | _) | e | msg
    · obtain ⟨l, hl, hcase⟩ := ih (logged c m.2 s (m.1.hook c s))
      rw [runHooks_continue hr]
      refine ⟨.hook c.kind m.2 (.ok .Continue) :: l, ?_, ?_⟩
      · intro call hcall
        rcases List.mem_cons.1 hcall with rfl | hcall
        · exact ⟨_, _, rfl, by simp⟩
        · exact hl call hcall
      · rw [logged_calls, hr] at hcase
        rcases hcase with ⟨hne, hcalls⟩ | ⟨hstop, -, idx, hcalls⟩
        · exact .inl ⟨hne, by simp [hcalls]⟩
        · exact .inr ⟨hstop, by simp, idx, by simp [hcalls]⟩
    · refine ⟨[], by simp, .inr ?_⟩
      rw [runHooks_stop hr, logged_calls, hr]
      exact ⟨rfl, by simp, m.2, by simp⟩
    · refine ⟨[.hook c.kind m.2 (.err e)], by simp, .inl ?_⟩
      rw [runHooks_err hr, logged_calls, hr]
      exact ⟨by simp, rfl⟩
    · refine ⟨[.hook c.kind m.2 (.panic msg)], by simp, .inl ?_⟩
      rw [runHooks_panic hr, logged_calls, hr]
      exact ⟨by simp, rfl⟩

/-- Hooks called on a log without `Stop`: without one either, or with one at the very end. -/
theorem runHooks_halts (c : HookCall β) (ms : List (Middleware K × Nat)) {s : St K β}
    (h : NoStop s.calls) :
    HaltsOnStop (runHooks c ms s).2.calls ∧
      ((runHooks c ms s).1 ≠ .ok .Stop → NoStop (runHooks c ms s).2.calls) := by
  obtain ⟨l, hl, hcase⟩ := runHooks_log c ms s
  have hl' : NoStop (s.calls ++ l) := by
    refine noStop_append.2 ⟨h, fun call hcall hs => ?_⟩
    obtain ⟨idx, out, rfl, hne⟩ := hl call hcall
    exact hne hs.2
  rcases hcase with ⟨-, hcalls⟩ | ⟨hstop, -, idx, hcalls⟩
  · rw [hcalls]
    exact ⟨hl'.halts, fun _ => hl'⟩
  · rw [hcalls]
    exact ⟨hl'.halts_append _, fun hne => absurd hstop hne⟩

/-! ## The invariant -/

variable (g : Gateway K)

/-- `request_filter` would run its hooks on this state. -/
def RunsRequestHooks (s : St K Unit) : Prop :=
  (∃ rm, s.ctx.get .requestMeta = some rm) ∧ ∃ entry, g.matched s = .ok (some entry)

/-- An early hook stops, and the request it leaves still matches a route. -/
def StopsEarlyAndMatches (session : Session) : Prop :=
  ∃ s, runHooks .earlyRequest g.chain (Gateway.start session).2 = (.ok .Stop, s) ∧
    RunsRequestHooks g s

/-- What holds between two phases of a request that is halted by every `Stop`. -/
structure Halting (session : Session) (c : Cfg K) : Prop where
  halts : HaltsOnStop c.2.calls
  early : c.1 = .early → c = Gateway.start session
  request : c.1 = .request → NoStop c.2.calls ∨ ¬ RunsRequestHooks g c.2
  proxying : c.1 = .proxying → NoStop c.2.calls

variable {g} {session : Session}

/-- Past the last attempt only the log matters. -/
theorem Halting.over {c : Cfg K} (h : HaltsOnStop c.2.calls) (hover : c.1.Over) :
    Halting g session c :=
  ⟨h, fun he => absurd he hover.later.1, fun hr => absurd hr hover.later.2,
    fun hp => absurd hp hover.ne_proxying⟩

theorem Halting.noStop {c : Cfg K} (h : NoStop c.2.calls) (hne : c.1 ≠ .early) :
    Halting g session c :=
  ⟨h.halts, fun he => absurd he hne, fun _ => .inl h, fun _ => h⟩

theorem halting_early (hno : ¬ StopsEarlyAndMatches g session) :
    Halting g session (settle ((g.earlyRequestFilter >>= fun _ => pure .request)
      (Gateway.start session).2)) := by
  have hstart : NoStop (Gateway.start (K := K) session).2.calls := by simp [NoStop, Gateway.start]
  obtain ⟨hhalts, hgo⟩ := runHooks_halts .earlyRequest g.chain hstart
  have hrun : g.earlyRequestFilter (Gateway.start session).2 =
      (runHooks .earlyRequest g.chain >>= fun _ => pure ()) (Gateway.start session).2 := rfl
  rw [Gateway.settle_bind_pure, hrun]
  rcases hr : runHooks .earlyRequest g.chain (Gateway.start session).2 with ⟨d | e | msg, s⟩ <;>
    rw [hr] at hhalts hgo
  · rw [Act.bind_of_ok hr]
    cases d with
    | Continue => exact .noStop (hgo (by simp)) (by simp)
    | Stop => exact ⟨hhalts, by simp, fun _ => .inr fun hm => hno ⟨s, hr, hm⟩, by simp⟩
  · rw [Act.bind_of_err hr]
    exact .over hhalts trivial
  · rw [Act.bind_of_panic hr]
    exact .over hhalts trivial

/-- The filter either runs no hook and lets nothing through, or starts on a log without `Stop`. -/
theorem requestFilter_halts {s : St K Unit} (h : HaltsOnStop s.calls)
    (hs : NoStop s.calls ∨ ¬ RunsRequestHooks g s) :
    HaltsOnStop (g.requestFilter s).2.calls ∧
      ((g.requestFilter s).1 = .ok false → NoStop (g.requestFilter s).2.calls) := by
  cases hmeta : s.ctx.get .requestMeta with
  | none =>
    rw [requestFilter_panics hmeta]
    exact ⟨h, by simp⟩
  | some rm =>
    rcases hm : g.matched s with (_ | entry) | e | msg
    · rw [requestFilter_run hmeta, hm]
      refine ⟨?_, fun hf => ?_⟩
      · dsimp only
        rw [Act.bind_pure_snd]
        obtain ⟨se, hse, -⟩ := write_cases (.error 404) (openRequest s)
        rw [respondError, hse]
        exact h
      · obtain ⟨-, -, hd⟩ := (Act.bind_pure_fst _ (fun _ => true) _ _).1 hf
        cases hd
    · have hno : NoStop s.calls := hs.resolve_right fun hn => hn ⟨⟨rm, hmeta⟩, entry, hm⟩
      obtain ⟨hdec, hstate⟩ := requestFilter_decides hmeta hm
      obtain ⟨hhalts, hgo⟩ := runHooks_halts .request g.chain (s := enterRoute s entry) hno
      rw [hstate]
      refine ⟨hhalts, fun hf => hgo ?_⟩
      rw [hdec.1 hf]
      simp
    · rw [requestFilter_run hmeta, hm]
      exact ⟨h, by simp⟩
    · rw [requestFilter_run hmeta, hm]
      exact ⟨h, by simp⟩

theorem halting_request {s : St K Unit} (h : HaltsOnStop s.calls)
    (hs : NoStop s.calls ∨ ¬ RunsRequestHooks g s) :
    Halting g session (settle ((g.requestFilter >>= fun handled =>
      pure (if handled then .finish none else .proxying)) s)) := by
  obtain ⟨hhalts, hgo⟩ := requestFilter_halts h hs
  rw [Gateway.settle_bind_pure]
  rcases hr : g.requestFilter s with ⟨handled | e | msg, s'⟩ <;> rw [hr] at hhalts hgo
  · cases handled with
    | true => exact .over hhalts trivial
    | false => exact .noStop (hgo rfl) (by simp)
  · exact .over hhalts trivial
  · exact .over hhalts trivial

/-- A later phase logs no `Stop` of the request. -/
theorem noStop_stable {p : Phase} (hp : p.Later) :
    ∀ e ∈ p.effects, g.Stable (fun s => NoStop s.calls) e := by
  intro e he
  obtain ⟨-, h1, h2⟩ := hp.effects e he
  refine calls_stable (Q := NoStop) fun l c hlog hl => noStop_append.2 ⟨hl, fun d hd hs => ?_⟩
  obtain rfl := List.mem_singleton.1 hd
  cases e <;> cases d <;> simp only [Effect.Logs, Call.StopsRequest] at hlog hs
  subst hlog
  rcases hs.1 with rfl | rfl
  · exact h1 rfl
  · exact h2 rfl

/-- `fail_to_proxy` and `logging` make no request-phase call. -/
theorem halts_stable {p : Phase} (hp : p = .failToProxy ∨ p = .logging) :
    ∀ e ∈ p.effects, g.Stable (fun s => HaltsOnStop s.calls) e := by
  intro e he
  refine calls_stable (Q := HaltsOnStop) fun l c hlog hl => ?_
  refine haltsOnStop_append.2 ⟨hl, List.pairwise_singleton _ _, fun _ _ d hd _ hreq => ?_⟩
  obtain rfl := List.mem_singleton.1 hd
  rcases hp with rfl | rfl <;> simp only [Phase.effects, List.mem_cons, List.not_mem_nil, or_false] at he
  · rcases he with rfl | rfl | rfl | rfl <;> cases d <;> simp_all [Effect.Logs, Call.RequestPhase]
  · subst he
    cases d <;> simp_all [Effect.Logs, Call.RequestPhase]

theorem halting_last {stage : Stage} {p : Phase} {x : Act (St K Unit) PError Stage}
    (hp : p = .failToProxy ∨ p = .logging) (hx : g.phase stage p = some x) {s : St K Unit}
    (h : HaltsOnStop s.calls) : Halting g session (settle (x s)) := by
  refine .over ?_ ?_
  · rw [Gateway.settle_snd]
    exact phase_keeps (halts_stable hp) hx s h
  · rcases hp with rfl | rfl <;> cases Gateway.makes_of_phase g hx
    · exact Gateway.settle_rule (fun _ => trivial) (fun _ => trivial) _ _ _ fun _ => trivial
    · exact Gateway.settle_rule (fun _ => trivial) (fun _ => trivial) _ _ _ fun _ => trivial

/-- One phase. -/
theorem halting_step (hno : ¬ StopsEarlyAndMatches g session) {c c' : Cfg K} {p : Phase}
    (h : Halting g session c) (hs : g.step c p = some c') : Halting g session c' := by
  obtain ⟨x, hx, rfl⟩ := Gateway.step_eq_some.1 hs
  obtain ⟨stage, s⟩ := c
  have hproxying : stage = .proxying → p.Later → (settle (x s)).1.Later →
      Halting g session (settle (x s)) := by
    intro hst hp hlater
    refine .noStop ?_ hlater.1
    rw [Gateway.settle_snd]
    exact phase_keeps (noStop_stable hp) hx s (h.proxying hst)
  cases Gateway.makes_of_phase g hx
  case earlyRequestFilter =>
    obtain rfl : s = (Gateway.start session).2 := congrArg Prod.snd (h.early rfl)
    exact halting_early hno
  case requestFilter => exact halting_request h.halts (h.request rfl)
  case failToProxy e => exact halting_last (.inl rfl) hx h.halts
  case logging e => exact halting_last (.inr rfl) hx h.halts
  all_goals
    obtain ⟨hp, hlater⟩ := step_later (c := (.proxying, s)) Stage.proxying_later hs
    exact hproxying rfl hp hlater

/-- When an early `Stop` leaves a request that matches, its request hooks run. -/
theorem stopsEarly_breaks (h : StopsEarlyAndMatches g session) :
    ∃ c, g.run (Gateway.start session) [.earlyRequestFilter, .requestFilter] = some c ∧
      ¬ HaltsOnStop c.2.calls := by
  obtain ⟨s, hrun, ⟨rm, hmeta⟩, entry, hmatch⟩ := h
  refine ⟨settle ((g.requestFilter >>= fun handled =>
    pure (if handled then .finish none else .proxying)) s), ?_, ?_⟩
  · have hearly : g.earlyRequestFilter (Gateway.start session).2 = (.ok (), s) :=
      Act.bind_of_ok hrun
    have hstep : g.step (Gateway.start session) .earlyRequestFilter = some (.request, s) := by
      change some (settle ((g.earlyRequestFilter >>= fun _ => pure .request)
        (Gateway.start session).2)) = _
      rw [Gateway.settle_bind_pure, hearly]
    rw [Gateway.run, Trace.run, hstep]
    rfl
  · rw [Gateway.settle_snd, Act.bind_pure_snd, (requestFilter_decides hmeta hmatch).2]
    obtain ⟨l, -, ⟨hne, -⟩ | ⟨-, hnil, idx, hcalls⟩⟩ :=
      runHooks_log .earlyRequest g.chain (Gateway.start session).2
    · rw [hrun] at hne
      exact absurd rfl hne
    · rw [hrun] at hcalls
      obtain ⟨m, ms, hms⟩ := List.exists_cons_of_ne_nil hnil
      obtain ⟨rest, hrest⟩ := runHooks_cons_calls .request m ms (enterRoute s entry)
      rw [hms, hrest, enterRoute_calls, show s.calls = _ from hcalls]
      intro hhalts
      refine (haltsOnStop_append.1 hhalts).2.2 (.hook .earlyRequest idx (.ok .Stop)) (by simp [HookCall.kind])
        (.hook .request m.2 (m.1.hook .request (enterRoute s entry)).1) (by simp [HookCall.kind]) ?_ ?_
      · exact ⟨.inl rfl, rfl⟩
      · exact .inr (.inl rfl)

/-- **Stop halts the request, except an early one that leaves it matching a route.** In every run
of a request no request-phase call follows a `Stop`, if and only if it is not the case that an
early hook stops and the request then matches. -/
theorem halts_on_stop_iff (g : Gateway K) (session : Session) :
    (∀ ps c, g.run (Gateway.start session) ps = some c → HaltsOnStop c.2.calls) ↔
      ¬ StopsEarlyAndMatches g session := by
  constructor
  · intro h hbad
    obtain ⟨c, hrun, hno⟩ := stopsEarly_breaks hbad
    exact hno (h _ c hrun)
  · intro hno ps c hrun
    have hstart : Halting g session (Gateway.start session) :=
      ⟨List.Pairwise.nil, fun _ => rfl, by simp [Gateway.start], by simp [Gateway.start]⟩
    exact (Trace.run_always (I := Halting g session)
      (fun _ _ _ h hs => halting_step hno h hs) hstart hrun).halts

/-- A middleware that stops every request early. -/
def earlyStop : Middleware refCrates where
  name := "early_stop"
  handleEarlyRequest := pure .Stop

/-- Stopped early, the request is matched, its hooks run and an upstream is asked for. -/
theorem early_stop_goes_on :
    ∃ c, ({ plainGateway with middlewares := [earlyStop] } : Gateway refCrates).run
        (Gateway.start (getRequest "/")) [.earlyRequestFilter, .requestFilter, .upstreamPeer] =
          some c ∧
      c.2.calls = [.hook .earlyRequest 0 (.ok .Stop), .hook .request 0 (.ok .Continue),
        .upstreamPeer] ∧
      ¬ HaltsOnStop c.2.calls := by
  have h : (({ plainGateway with middlewares := [earlyStop] } : Gateway refCrates).run
      (Gateway.start (getRequest "/")) [.earlyRequestFilter, .requestFilter, .upstreamPeer]).map
        (fun c => c.2.calls) = some [.hook .earlyRequest 0 (.ok .Stop),
          .hook .request 0 (.ok .Continue), .upstreamPeer] := by
    decide +kernel
  obtain ⟨c, hc, hcalls⟩ := Option.map_eq_some_iff.1 h
  refine ⟨c, hc, hcalls, ?_⟩
  rw [hcalls]
  simp [HaltsOnStop, Call.StopsRequest, Call.RequestPhase]

end PingoraGuide
