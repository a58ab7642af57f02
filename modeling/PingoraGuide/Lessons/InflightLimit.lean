import PingoraGuide.Lib.Tasks
/-!
# The in-flight limit

`InflightLimitProxy` counts the requests in flight of the whole process. A guard counts for one
request; it is kept in the context of a request that is let through, and in a local variable of
`request_filter` while a refused one is answered. The count therefore includes the refusals still
being written: never more than two requests are served, but a slow refusal can take a slot.

| here | there |
| --- | --- |
| `maxConcurrentReq`, `InflightCtx` | examples/38_inflight_limit.rs:15-19 |
| `Inflight`        | `pingora_limits::inflight::Inflight` under its one key, told the calls one at a time |
| `Inflight.incr`, `release` | `Inflight::incr(key, 1)` and `Drop for Guard` |
| `requestFilter`   | 38_inflight_limit.rs:32-49, up to its `await` |
| `Stage`, `step`   | where the future of one request stands, and what moves it |
| `limiter`         | the requests of the process, in any interleaving |

`Inflight` is a sketch that gives estimates; `Inflight.Covers` and `Inflight.Exact` are what is
assumed of them. Its rows are updated one by one, so calls that overlap are another matter.
-/
namespace PingoraGuide.InflightLimit

def maxConcurrentReq : Int := 2

structure Guard where
  value : Int
deriving DecidableEq, Repr

structure InflightCtx where
  guard : Option Guard
deriving DecidableEq, Repr

def newCtx : InflightCtx := ⟨none⟩

inductive Call where
  | incr (value : Int)
  | drop (value : Int)
deriving DecidableEq, Repr

def Call.weight : Call → Int
  | .incr value => value
  | .drop value => -value

/-- What the guards in existence count together. -/
def inFlight (calls : List Call) : Int := (calls.map Call.weight).sum

structure Inflight where
  /-- the estimate that `incr` returns after these calls -/
  estimate : List Call → Int → Int

/-- The guard, the estimate, and the calls so far. -/
def Inflight.incr (inflight : Inflight) (calls : List Call) (value : Int) : Guard × Int × List Call :=
  (⟨value⟩, inflight.estimate calls value, calls ++ [.incr value])

def release (calls : List Call) (guards : List Guard) : List Call :=
  calls ++ guards.map fun guard => .drop guard.value

/-- No guard is left out of an estimate. -/
def Inflight.Covers (inflight : Inflight) : Prop :=
  ∀ calls value, inFlight calls + value ≤ inflight.estimate calls value

def Inflight.Exact (inflight : Inflight) : Prop :=
  ∀ calls value, inflight.estimate calls value = inFlight calls + value

theorem inFlight_release (calls : List Call) (guards : List Guard) :
    inFlight (release calls guards) = inFlight calls - (guards.map Guard.value).sum := by
  have hdrops : ((guards.map fun guard => Call.drop guard.value).map Call.weight).sum =
      -(guards.map Guard.value).sum := by
    induction guards with
    | nil => rfl
    | cons guard guards ih =>
      rw [List.map_cons, List.map_cons, List.map_cons, List.sum_cons, List.sum_cons, ih, Call.weight]
      omega
  rw [inFlight, release, List.map_append, List.sum_append, hdrops]
  rfl

inductive Stage where
  | accepted
  /-- in `session.respond_error(429).await`, with the guard still in scope -/
  | refusing (guard : Guard)
  /-- `request_filter` returned `Ok(true)`, or the error of the write -/
  | refused (written : Bool)
  /-- `request_filter` returned `Ok(false)`; `upstream_peer` and its delay follow -/
  | serving
  /-- future and context are dropped -/
  | ended
deriving DecidableEq, Repr

structure Request where
  stage : Stage
  ctx : InflightCtx
deriving DecidableEq, Repr

/-- The guards that the future of the request owns. -/
def Request.guards (r : Request) : List Guard :=
  r.ctx.guard.toList ++ match r.stage with
    | .refusing guard => [guard]
    | _ => []

inductive Step where
  | requestFilter
  | responded (ok : Bool)
  /-- Pingora is done with the request, or its task is cancelled -/
  | drop
deriving DecidableEq, Repr

def requestFilter (inflight : Inflight) (calls : List Call) (r : Request) : List Call × Request :=
  let (guard, count, calls) := inflight.incr calls 1
  if count > maxConcurrentReq then (calls, { r with stage := .refusing guard })
  else (calls, { stage := .serving, ctx := { r.ctx with guard := some guard } })

def step (inflight : Inflight) (calls : List Call) (r : Request) : Step → Option (List Call × Request)
  | .requestFilter =>
    match r.stage with
    | .accepted => some (requestFilter inflight calls r)
    | _ => none
  | .responded ok =>
    match r.stage with
    | .refusing guard => some (release calls [guard], { r with stage := .refused ok })
    | _ => none
  | .drop =>
    if r.stage = .ended then none
    else some (release calls r.guards, ⟨.ended, ⟨none⟩⟩)

def limiter (inflight : Inflight) : Tasks.System (List Call) Request Unit Step where
  init := fun _ => ⟨.accepted, newCtx⟩
  act := step inflight

/-! ## What a request owns -/

/-- The request owns a guard. -/
def Request.Holds (r : Request) : Prop := r.guards ≠ []

def Request.Served (r : Request) : Prop := r.stage = .serving

instance (r : Request) : Decidable r.Holds := inferInstanceAs (Decidable (r.guards ≠ []))
instance (r : Request) : Decidable r.Served := inferInstanceAs (Decidable (r.stage = .serving))

/-- A request that is served, or being refused, owns a guard that counts 1; any other owns none. -/
def Request.Owns (r : Request) : Prop :=
  match r.stage with
  | .refusing _ | .serving => r.guards = [⟨1⟩]
  | _ => r.guards = []

theorem Request.Owns.served_holds {r : Request} (h : r.Owns) (hs : r.Served) : r.Holds := by
  have hstage : r.stage = .serving := hs
  simp only [Owns, hstage] at h
  simp [Holds, h]

/-- What the guards of a request count together. -/
theorem Request.Owns.count {r : Request} (h : r.Owns) :
    (r.guards.map Guard.value).sum = if r.Holds then 1 else 0 := by
  have hguards : r.guards = [⟨1⟩] ∨ r.guards = [] := by
    unfold Owns at h
    split at h
    · exact .inl h
    · exact .inl h
    · exact .inr h
  rcases hguards with hg | hg <;> simp [Holds, hg]

variable {inflight : Inflight}

theorem requestFilter_cases (calls : List Call) (r : Request) :
    (maxConcurrentReq < inflight.estimate calls 1 ∧
      requestFilter inflight calls r = (calls ++ [.incr 1], { r with stage := .refusing ⟨1⟩ })) ∨
    (inflight.estimate calls 1 ≤ maxConcurrentReq ∧
      requestFilter inflight calls r = (calls ++ [.incr 1], ⟨.serving, ⟨some ⟨1⟩⟩⟩)) := by
  by_cases h : inflight.estimate calls 1 > maxConcurrentReq
  · exact .inl ⟨h, by simp [requestFilter, Inflight.incr, h]⟩
  · exact .inr ⟨Int.not_lt.1 h, by simp [requestFilter, Inflight.incr, h]⟩

/-- What a step does: `request_filter` refuses or admits by the estimate, an answered refusal lets go
of its guard, and the end of a request of all that it still owns. -/
theorem step_cases {calls calls' : List Call} {r r' : Request} {x : Step}
    (h : step inflight calls r x = some (calls', r')) :
    (x = .requestFilter ∧ r.stage = .accepted ∧ calls' = calls ++ [.incr 1] ∧
      ((maxConcurrentReq < inflight.estimate calls 1 ∧ r' = { r with stage := .refusing ⟨1⟩ }) ∨
        (inflight.estimate calls 1 ≤ maxConcurrentReq ∧ r' = ⟨.serving, ⟨some ⟨1⟩⟩⟩))) ∨
    (∃ ok guard, x = .responded ok ∧ r.stage = .refusing guard ∧
      calls' = release calls [guard] ∧ r' = { r with stage := .refused ok }) ∨
    (x = .drop ∧ calls' = release calls r.guards ∧ r' = ⟨.ended, ⟨none⟩⟩) := by
  cases x with
  | requestFilter =>
    cases hstage : r.stage <;> simp only [step, hstage, reduceCtorEq, Option.some.injEq] at h
    rcases requestFilter_cases calls r with ⟨hmax, hrun⟩ | ⟨hmax, hrun⟩ <;> rw [hrun] at h
    · obtain ⟨rfl, rfl⟩ := Prod.mk.inj h
      exact .inl ⟨rfl, rfl, rfl, .inl ⟨hmax, rfl⟩⟩
    · obtain ⟨rfl, rfl⟩ := Prod.mk.inj h
      exact .inl ⟨rfl, rfl, rfl, .inr ⟨hmax, rfl⟩⟩
  | responded ok =>
    cases hstage : r.stage <;> simp only [step, hstage, reduceCtorEq, Option.some.injEq] at h
    obtain ⟨rfl, rfl⟩ := Prod.mk.inj h
    exact .inr (.inl ⟨ok, _, rfl, rfl, rfl, rfl⟩)
  | drop =>
    simp only [step] at h
    split at h
    · cases h
    · obtain ⟨rfl, rfl⟩ := Prod.mk.inj (Option.some.inj h)
      exact .inr (.inr ⟨rfl, rfl, rfl⟩)

/-! ## Every interleaving -/

/-- A step keeps what its request owns in order, and the calls account for it. -/
theorem step_owns {calls calls' : List Call} {r r' : Request} {x : Step} (hr : r.Owns)
    (h : step inflight calls r x = some (calls', r')) :
    r'.Owns ∧
      inFlight calls' + (if r.Holds then 1 else 0) = inFlight calls + if r'.Holds then 1 else 0 := by
  rcases step_cases h with ⟨-, hstage, rfl, hfilter⟩ | ⟨ok, guard, -, hstage, rfl, rfl⟩ | ⟨-, rfl, rfl⟩
  · have hnone : r.ctx.guard = none := by
      simpa [Request.Owns, Request.guards, hstage] using hr
    have hincr : inFlight (calls ++ [.incr 1]) = inFlight calls + 1 := by
      simp [inFlight, Call.weight]
    rw [hincr]
    rcases hfilter with ⟨-, rfl⟩ | ⟨-, rfl⟩ <;>
      simp [Request.Owns, Request.Holds, Request.guards, hstage, hnone]
  · obtain ⟨hnone, hone⟩ : r.ctx.guard = none ∧ guard = ⟨1⟩ := by
      cases hg : r.ctx.guard <;> simp_all [Request.Owns, Request.guards]
    rw [inFlight_release]
    simp [Request.Owns, Request.Holds, Request.guards, hstage, hnone, hone]
  · refine ⟨by simp [Request.Owns, Request.guards], ?_⟩
    rw [inFlight_release, hr.count]
    simp [Request.Holds, Request.guards]

theorem limiter_invariant : (limiter inflight).Invariant (fun _ => True) fun _ r => r.Owns where
  spawn := fun _ _ _ => by simp [limiter, Request.Owns, Request.guards, newCtx]
  act := fun _ _ _ _ _ _ hr hact => ⟨trivial, (step_owns hr hact).1⟩
  frame := fun _ _ _ _ _ _ _ _ hu _ => hu

theorem limiter_idle (a : Unit) : ¬ ((limiter inflight).init a).Holds := by
  simp [limiter, Request.Holds, Request.guards, newCtx]

variable {ms : List (Tasks.Move Unit Step)} {s : Tasks.State (List Call) Request}

/-- **What the counter is told is exact**: the guards in existence are those of the requests that
are served or being refused. -/
theorem inflight_exact (hrun : (limiter inflight).run [] ms = some s) :
    inFlight s.shared = s.tasks.countP fun r => decide r.Holds := by
  have h := limiter_invariant.counted (m := inFlight) Request.Holds limiter_idle
    (fun _ _ _ _ _ _ hr hact => (step_owns hr hact).2) trivial hrun
  simpa [inFlight] using h

/-- **The limit holds.** In every interleaving of any number of requests, however each of them ends:
where no guard is left out of an estimate, at most two requests are served at any time. -/
theorem served_le (hcovers : inflight.Covers) (hrun : (limiter inflight).run [] ms = some s) :
    s.tasks.countP (fun r => decide r.Served) ≤ 2 := by
  refine limiter_invariant.bounded (m := inFlight) (p := Request.Holds)
    (fun _ _ => Request.Owns.served_holds) limiter_idle (by simp [limiter, Request.Served])
    (fun _ _ _ _ _ _ hr hact => (step_owns hr hact).2) ?_ trivial rfl hrun
  rintro calls r x calls' r' hact hserved
  rcases step_cases hact with ⟨-, -, rfl, ⟨-, rfl⟩ | ⟨hmax, rfl⟩⟩ | ⟨ok, guard, -, -, -, rfl⟩ |
    ⟨-, -, rfl⟩
  · cases hserved
  · refine .inr ?_
    have hle := Int.le_trans (hcovers calls 1) hmax
    simpa [inFlight, Call.weight, maxConcurrentReq] using hle
  · cases hserved
  · cases hserved

/-- One guard too many is counted. -/
def cautious : Inflight where
  estimate calls value := inFlight calls + value + 1

/-- Three requests arrive. -/
def threeArrive : List (Tasks.Move Unit Step) :=
  [.spawn (), .spawn (), .spawn (), .act 0 .requestFilter, .act 1 .requestFilter,
   .act 2 .requestFilter]

theorem served_le_three :
    ∃ s, (limiter cautious).run [] threeArrive = some s ∧ inFlight s.shared = 3 ∧
      s.tasks.countP (fun r => decide r.Served) ≤ 2 := by
  have hrun : (limiter cautious).run [] threeArrive =
      some ⟨[.incr 1, .incr 1, .incr 1],
        [⟨.serving, ⟨some ⟨1⟩⟩⟩, ⟨.refusing ⟨1⟩, ⟨none⟩⟩, ⟨.refusing ⟨1⟩, ⟨none⟩⟩]⟩ := rfl
  have hcovers : cautious.Covers := fun calls value => Int.le_add_of_nonneg_right (by decide)
  exact ⟨_, hrun, rfl, served_le hcovers hrun⟩

/-- **Who is let through.** Where the estimates are exact, a request that arrives is served if fewer
than two others are served or still being refused, and refused otherwise. -/
theorem admission_iff (hexact : inflight.Exact) (hrun : (limiter inflight).run [] ms = some s)
    {i : Nat} {r : Request} (hi : s.tasks[i]? = some r) (hstage : r.stage = .accepted) :
    ∃ s' r', (limiter inflight).step s (.act i .requestFilter) = some s' ∧ s'.tasks[i]? = some r' ∧
      (r'.Served ↔ s.tasks.countP (fun r => decide r.Holds) < 2) ∧
      (¬ r'.Served → ∃ guard, r'.stage = .refusing guard) := by
  have hlt : i < s.tasks.length := (List.getElem?_eq_some_iff.1 hi).1
  have hestimate : inflight.estimate s.shared 1 = (s.tasks.countP fun r => decide r.Holds) + 1 := by
    rw [hexact, inflight_exact hrun]
  have hstep : (limiter inflight).step s (.act i .requestFilter) =
      some ⟨(requestFilter inflight s.shared r).1,
        s.tasks.set i (requestFilter inflight s.shared r).2⟩ := by
    simp [Tasks.System.step, hi, limiter, step, hstage]
  refine ⟨_, _, hstep, List.getElem?_set_self hlt, ?_⟩
  rcases requestFilter_cases s.shared r with ⟨hmax, hfilter⟩ | ⟨hmax, hfilter⟩ <;>
    rw [hfilter] <;> rw [hestimate, maxConcurrentReq] at hmax
  · refine ⟨?_, fun _ => ⟨⟨1⟩, rfl⟩⟩
    simp only [Request.Served, reduceCtorEq, false_iff]
    omega
  · refine ⟨?_, fun hno => absurd rfl hno⟩
    simp only [Request.Served, true_iff]
    omega

def exact : Inflight where
  estimate calls value := inFlight calls + value

/-- Four arrive, the two that are let through end, the answers to the other two are still being
written when a fifth arrives. -/
def slowRefusals : List (Tasks.Move Unit Step) :=
  [.spawn (), .spawn (), .spawn (), .spawn (), .spawn (), .act 0 .requestFilter,
   .act 1 .requestFilter, .act 2 .requestFilter, .act 3 .requestFilter, .act 0 .drop, .act 1 .drop]

/-- The fifth is refused although nobody is served. -/
theorem admission_iff_slow :
    ∃ s s' r', (limiter exact).run [] slowRefusals = some s ∧
      s.tasks.countP (fun r => decide r.Served) = 0 ∧
      (limiter exact).step s (.act 4 .requestFilter) = some s' ∧ s'.tasks[4]? = some r' ∧
      ¬ r'.Served := by
  have hrun : (limiter exact).run [] slowRefusals =
      some ⟨[.incr 1, .incr 1, .incr 1, .incr 1, .drop 1, .drop 1],
        [⟨.ended, ⟨none⟩⟩, ⟨.ended, ⟨none⟩⟩, ⟨.refusing ⟨1⟩, ⟨none⟩⟩, ⟨.refusing ⟨1⟩, ⟨none⟩⟩,
          ⟨.accepted, ⟨none⟩⟩]⟩ := rfl
  obtain ⟨s', r', hstep, hget, hserved, -⟩ :=
    admission_iff (fun _ _ => rfl) hrun (i := 4) (r := ⟨.accepted, ⟨none⟩⟩) rfl rfl
  exact ⟨_, s', r', hrun, rfl, hstep, hget, fun h => absurd (hserved.1 h) (by decide)⟩

/-- **No slot is lost.** Once every request is over, in whichever way, no guard is left. -/
theorem inflight_drains (hrun : (limiter inflight).run [] ms = some s)
    (hover : ∀ r ∈ s.tasks, r.stage = .ended ∨ ∃ written, r.stage = .refused written) :
    inFlight s.shared = 0 := by
  rw [inflight_exact hrun]
  have howns := (limiter_invariant.run trivial hrun).2
  have hnone : s.tasks.countP (fun r => decide r.Holds) = 0 := by
    refine List.countP_eq_zero.2 fun r hr => ?_
    have hr' : r.Owns := howns r hr
    rcases hover r hr with h | ⟨written, h⟩ <;> simp_all [Request.Owns, Request.Holds]
  simp [hnone]

end PingoraGuide.InflightLimit
