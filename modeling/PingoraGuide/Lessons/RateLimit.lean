import PingoraGuide.Crates
import PingoraGuide.Lib.Tasks
/-!
# The rate limit

One `Rate` counts the requests of all clients, refused ones included, interval by interval. It is a
sketch: what it reports for a client may include requests of others, but leaves none of its own out.
So a client gets at most five requests through in an interval, and all of the first five where the
sketch is exact; a request without a known address is let through uncounted.

| here | there |
| --- | --- |
| `Rate`           | `pingora_limits::rate::Rate`, told everything in the order of the calls |
| `requestFilter`  | examples/36_basic_rate_limit.rs:39-60, up to its `await` |
| `step`           | what moves the future of one request |
| `limiter`        | the requests of the process, in any interleaving |
-/
namespace PingoraGuide.RateLimit
open Tasks

def maxReqPerSec : Int := 5

/-- A request of a client in one of the limiter's intervals. -/
structure Observation where
  clientIp : IpAddr
  interval : Nat
deriving DecidableEq, Repr

structure Rate where
  /-- the number of events in the current interval, with the one now reported -/
  seen : List Observation → Observation → Int
  seen_ge : ∀ past o, (past.count o : Int) + 1 ≤ seen past o

/-- `observe(&client_ip, 1)` -/
def Rate.observe (rate : Rate) (past : List Observation) (o : Observation) :
    Int × List Observation :=
  (rate.seen past o, past ++ [o])

/-- The sketch counts nothing else to this client. -/
def Rate.ExactFor (rate : Rate) (o : Observation) : Prop :=
  ∀ past, rate.seen past o = past.count o + 1

inductive Stage where
  | accepted
  /-- `request_filter` returned `Ok(false)` -/
  | passed (counted : Option Observation)
  /-- in `session.respond_error(429).await` -/
  | refusing (counted : Observation)
  /-- `request_filter` returned `Ok(true)`, or the error of the write -/
  | refused (counted : Observation) (written : Bool)
  /-- `as_inet().unwrap()` of a Unix socket -/
  | crashed
deriving DecidableEq, Repr

structure Request where
  clientAddr : Option SocketAddr
  stage : Stage
deriving DecidableEq, Repr

inductive Step where
  | requestFilter (interval : Nat)
  | responded (ok : Bool)
deriving DecidableEq, Repr

def requestFilter (rate : Rate) (past : List Observation) (interval : Nat)
    (clientAddr : Option SocketAddr) : Stage × List Observation :=
  match clientAddr with
  | none => (.passed none, past)
  | some addr =>
    match addr.asInet with
    | none => (.crashed, past)
    | some (clientIp, _) =>
      let o : Observation := { clientIp, interval }
      let (currReqCount, past) := rate.observe past o
      if currReqCount > maxReqPerSec then (.refusing o, past) else (.passed (some o), past)

def step (rate : Rate) (past : List Observation) (r : Request) :
    Step → Option (List Observation × Request)
  | .requestFilter interval =>
    match r.stage with
    | .accepted =>
      let (stage, past) := requestFilter rate past interval r.clientAddr
      some (past, { r with stage })
    | _ => none
  | .responded ok =>
    match r.stage with
    | .refusing counted => some (past, { r with stage := .refused counted ok })
    | _ => none

def limiter (rate : Rate) : System (List Observation) Request (Option SocketAddr) Step where
  init clientAddr := ⟨clientAddr, .accepted⟩
  act := step rate

/-! ## What a request is counted as -/

def Request.counted (r : Request) : Option Observation :=
  match r.stage with
  | .passed counted => counted
  | .refusing counted | .refused counted _ => some counted
  | _ => none

def Request.Counts (o : Observation) (r : Request) : Prop := r.counted = some o

def Request.Passes (o : Observation) (r : Request) : Prop := r.stage = .passed (some o)

instance (o : Observation) (r : Request) : Decidable (r.Counts o) :=
  inferInstanceAs (Decidable (r.counted = some o))

instance (o : Observation) (r : Request) : Decidable (r.Passes o) :=
  inferInstanceAs (Decidable (r.stage = .passed (some o)))

theorem Request.Passes.counts {o : Observation} {r : Request} (h : r.Passes o) : r.Counts o := by
  have hstage : r.stage = .passed (some o) := h
  simp [Counts, counted, hstage]

variable {rate : Rate}

/-- What a step does: it counts nobody, or the request itself, which it then lets through or
refuses by what the sketch reports. -/
theorem step_cases {past past' : List Observation} {r r' : Request} {x : Step}
    (h : step rate past r x = some (past', r')) :
    (past' = past ∧ r'.counted = r.counted ∧ ∀ o, r'.Passes o ↔ r.Passes o) ∨
    (∃ o, r.counted = none ∧ past' = past ++ [o] ∧ r'.counted = some o ∧
      (r'.Passes o ↔ rate.seen past o ≤ maxReqPerSec)) := by
  cases x with
  | responded ok =>
    cases hstage : r.stage <;> simp only [step, hstage, reduceCtorEq, Option.some.injEq] at h
    obtain ⟨rfl, rfl⟩ := Prod.mk.inj h
    exact .inl ⟨rfl, by simp [Request.counted, hstage], by simp [Request.Passes, hstage]⟩
  | requestFilter interval =>
    cases hstage : r.stage <;> simp only [step, hstage, reduceCtorEq, Option.some.injEq] at h
    obtain ⟨rfl, rfl⟩ := Prod.mk.inj h
    cases haddr : r.clientAddr with
    | none =>
      exact .inl ⟨rfl, by simp [requestFilter, Request.counted, hstage],
        by simp [requestFilter, Request.Passes, hstage]⟩
    | some addr =>
      cases hinet : addr.asInet with
      | none =>
        refine .inl ⟨by simp [requestFilter, hinet], ?_, ?_⟩ <;>
          simp [requestFilter, hinet, Request.counted, Request.Passes, hstage]
      | some peer =>
        refine .inr ⟨⟨peer.1, interval⟩, by simp [Request.counted, hstage], ?_⟩
        by_cases hmax : rate.seen past ⟨peer.1, interval⟩ > maxReqPerSec
        · simp [requestFilter, hinet, Rate.observe, hmax, Request.counted, Request.Passes]
        · simp [requestFilter, hinet, Rate.observe, hmax, Request.counted, Request.Passes,
            Int.not_lt.1 hmax]

/-! ## Every interleaving -/

/-- A step books its request. -/
theorem step_books {past past' : List Observation} {r r' : Request} {x : Step} (o : Observation)
    (h : step rate past r x = some (past', r')) :
    (past'.count o : ℤ) + (if r.Counts o then 1 else 0) =
      past.count o + if r'.Counts o then 1 else 0 := by
  rcases step_cases h with ⟨rfl, hsame, -⟩ | ⟨o', hnone, rfl, hnew, -⟩
  · have hiff : r'.Counts o ↔ r.Counts o := by rw [Request.Counts, Request.Counts, hsame]
    simp only [hiff]
  · by_cases ho : o' = o
    · subst ho
      simp [Request.Counts, hnone, hnew]
    · simp [Request.Counts, hnone, hnew, ho]

theorem limiter_uncounted (o : Observation) (clientAddr : Option SocketAddr) :
    ¬ ((limiter rate).init clientAddr).Counts o := by
  simp [limiter, Request.Counts, Request.counted]

variable {ms : List (Move (Option SocketAddr) Step)} {s : State (List Observation) Request}

/-- **The limit holds.** In every interleaving of any number of requests, however the sketch mixes
the clients up: at most five requests of a client pass in an interval. -/
theorem passes_le (hrun : (limiter rate).run [] ms = some s) (o : Observation) :
    s.tasks.countP (fun r => decide (r.Passes o)) ≤ 5 := by
  refine (System.Invariant.top (limiter rate)).bounded (m := fun past => (past.count o : ℤ))
    (p := Request.Counts o) (fun _ _ _ => Request.Passes.counts) (limiter_uncounted o)
    (by simp [limiter, Request.Passes]) (fun _ _ _ _ _ _ _ hx => step_books o hx) ?_ trivial rfl hrun
  intro past r x past' r' hx hpass
  rcases step_cases hx with ⟨-, -, hsame⟩ | ⟨o', -, rfl, hnew, hiff⟩
  · exact .inl ((hsame o).1 hpass)
  · obtain rfl : o' = o := Option.some.inj (hnew.symm.trans hpass.counts)
    have hmax := hiff.1 hpass
    have hcount := rate.seen_ge past o'
    simp only [maxReqPerSec] at hmax
    refine .inr ?_
    simp only [List.count_append, List.count_singleton_self]
    omega

/-- A sketch with a single cell: whoever asks is told the number of all clients. -/
def oneCell : Rate where
  seen := fun past o => past.countP (fun p => decide (p.interval = o.interval)) + 1
  seen_ge := fun past o => by
    have hmono : past.count o ≤ past.countP fun p => decide (p.interval = o.interval) :=
      List.countP_mono_left fun p _ hp => by simp [eq_of_beq hp]
    omega

/-- Six requests of one client in an interval, then one of another. -/
def crowded : List (Move (Option SocketAddr) Step) :=
  (List.range 6).flatMap (fun i => [.spawn (some (.inet loopback 1)), .act i (.requestFilter 0)]) ++
    [.spawn (some (.inet (.v4 0) 1)), .act 6 (.requestFilter 0)]

/-- The other client is refused for the requests of the first. -/
theorem passes_le_crowded : ∃ s, (limiter oneCell).run [] crowded = some s ∧
    s.tasks.countP (fun r => decide (r.Passes ⟨loopback, 0⟩)) ≤ 5 ∧
    s.tasks[6]? = some ⟨some (.inet (.v4 0) 1), .refusing ⟨.v4 0, 0⟩⟩ := by
  have hlast : ((limiter oneCell).run [] crowded).map (fun s => s.tasks[6]?) =
      some (some ⟨some (.inet (.v4 0) 1), .refusing ⟨.v4 0, 0⟩⟩) := by
    decide +kernel
  obtain ⟨s, hrun, hs⟩ := Option.map_eq_some_iff.1 hlast
  exact ⟨s, hrun, passes_le hrun _, hs⟩

/-- Every request that was observed is there. -/
theorem observed_exact (hrun : (limiter rate).run [] ms = some s) (o : Observation) :
    s.shared.count o = s.tasks.countP fun r => decide (r.Counts o) := by
  have h := (System.Invariant.top (limiter rate)).counted (m := fun past => (past.count o : ℤ))
    (Request.Counts o) (limiter_uncounted o) (fun _ _ _ _ _ _ _ hx => step_books o hx) trivial hrun
  simpa using h

/-- A step lets its request pass where fewer than five were observed. -/
theorem step_passes {past past' : List Observation} {r r' : Request} {x : Step} {o : Observation}
    (hexact : rate.ExactFor o) (h : step rate past r x = some (past', r')) :
    (min 5 (past'.count o) : ℤ) + (if r.Passes o then 1 else 0) =
      (min 5 (past.count o) : ℤ) + if r'.Passes o then 1 else 0 := by
  rcases step_cases h with ⟨rfl, -, hsame⟩ | ⟨o', hnone, rfl, hnew, hiff⟩
  · simp only [hsame o]
  · have hold : ¬ r.Passes o := fun hp => by
      rw [hp.counts] at hnone
      cases hnone
    by_cases ho : o' = o
    · subst ho
      rw [hexact past, maxReqPerSec] at hiff
      simp only [hold, hiff, if_false, List.count_append, List.count_singleton_self]
      split <;> omega
    · have hnew' : ¬ r'.Passes o := fun hp => ho (Option.some.inj (hnew.symm.trans hp.counts))
      simp [hold, hnew', ho]

/-- **No request is refused early.** Where the sketch is exact for a client, as many of its requests
pass in an interval as it makes, up to five. -/
theorem passes_eq_min (hrun : (limiter rate).run [] ms = some s) {o : Observation}
    (hexact : rate.ExactFor o) :
    s.tasks.countP (fun r => decide (r.Passes o)) =
      min 5 (s.tasks.countP fun r => decide (r.Counts o)) := by
  have hpass := (System.Invariant.top (limiter rate)).counted
    (m := fun past => (min 5 (past.count o) : ℤ)) (Request.Passes o) (by simp [limiter, Request.Passes])
    (fun _ _ _ _ _ _ _ hx => step_passes hexact hx) trivial hrun
  rw [observed_exact hrun o] at hpass
  simp only [List.count_nil, Nat.cast_zero] at hpass
  omega

def exactRate : Rate where
  seen := fun past o => past.count o + 1
  seen_ge := fun _ _ => Int.le_refl _

/-- Six requests at the end of an interval, six at the start of the next: ten pass. -/
def straddling : List (Move (Option SocketAddr) Step) :=
  (List.range 12).flatMap fun i =>
    [.spawn (some (.inet loopback 1)), .act i (.requestFilter (i / 6))]

theorem passes_eq_min_straddling : ∃ s, (limiter exactRate).run [] straddling = some s ∧
    s.tasks.countP (fun r => decide (r.Passes ⟨loopback, 0⟩)) = 5 ∧
    s.tasks.countP (fun r => decide (r.Passes ⟨loopback, 1⟩)) = 5 := by
  have hcounts : ((limiter exactRate).run [] straddling).map (fun s =>
      (s.tasks.countP (fun r => decide (r.Counts ⟨loopback, 0⟩)),
        s.tasks.countP fun r => decide (r.Counts ⟨loopback, 1⟩))) = some (6, 6) := by
    decide +kernel
  obtain ⟨s, hrun, hs⟩ := Option.map_eq_some_iff.1 hcounts
  obtain ⟨hfirst, hsecond⟩ := Prod.mk.inj hs
  refine ⟨s, hrun, ?_, ?_⟩
  · rw [passes_eq_min hrun fun _ => rfl, hfirst]
    rfl
  · rw [passes_eq_min hrun fun _ => rfl, hsecond]
    rfl

end PingoraGuide.RateLimit
