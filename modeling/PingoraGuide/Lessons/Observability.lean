import PingoraGuide.Crates
import PingoraGuide.Lib.Tasks
/-!
# Observability

Each attempt of each request draws the next number of `REQUEST_COUNTER` and goes to Blue if it is
even and to Green if it is odd. A request is counted once, when it is logged.

| here | there |
| --- | --- |
| `upstreamPeer` | examples/48_observability.rs:32-50 |
| `logging`      | `self.req_counter.inc()` (48_observability.rs:59); latencies are left out |
| `proxy`        | the requests of the process, in any interleaving |
-/
namespace PingoraGuide.Observability
open Tasks

inductive Label where
  | Blue | Green
deriving DecidableEq, Repr

def Label.addr : Label → SocketAddr
  | .Blue => .inet loopback 6201
  | .Green => .inet loopback 6202

/-- Where the attempt goes, its peer, and the counter after. -/
def upstreamPeer (requestCounter : Nat) : Label × HttpPeer × Nat :=
  let (count, requestCounter) := fetchAdd requestCounter
  let label := if count % 2 = 0 then Label.Blue else Label.Green
  (label, { address := label.addr, tls := false, sni := "metrics.local" }, requestCounter)

structure Counters where
  requestCounter : Nat := 0
  /-- the number of `inc()` calls -/
  reqCounter : Nat := 0
deriving DecidableEq, Repr

structure Request where
  attempts : List Label := []
  logged : Bool := false
deriving DecidableEq, Repr

inductive Step where
  | upstreamPeer
  | logging
deriving DecidableEq, Repr

def step (g : Counters) (r : Request) : Step → Option (Counters × Request)
  | .upstreamPeer =>
    if r.logged then none
    else
      let (label, _, requestCounter) := upstreamPeer g.requestCounter
      some ({ g with requestCounter }, { r with attempts := r.attempts ++ [label] })
  | .logging =>
    if r.logged then none
    else some ({ g with reqCounter := g.reqCounter + 1 }, { r with logged := true })

def proxy : System Counters Request Unit Step where
  init _ := {}
  act := step

/-! ## Where the attempts go -/

theorem step_cases {g g' : Counters} {r r' : Request} {x : Step} (h : step g r x = some (g', r')) :
    (r' = { r with attempts := r.attempts ++ [if g.requestCounter % 2 = 0 then .Blue else .Green] } ∧
      g' = { g with requestCounter := g.requestCounter + 1 }) ∨
    (r.logged = false ∧ r' = { r with logged := true } ∧
      g' = { g with reqCounter := g.reqCounter + 1 }) := by
  have hparity : g.requestCounter % 2 ^ 64 % 2 = g.requestCounter % 2 :=
    Nat.mod_mod_of_dvd _ (by decide)
  cases hlogged : r.logged <;> cases x <;>
    simp only [step, hlogged, Bool.false_eq_true, if_true, if_false, reduceCtorEq, upstreamPeer,
      fetchAdd, hparity, Option.some.injEq, Prod.mk.injEq] at h
  · exact .inl ⟨h.2.symm, h.1.symm⟩
  · exact .inr ⟨rfl, h.2.symm, h.1.symm⟩

def attempts (label : Label) (rs : List Request) : Nat :=
  (rs.map fun r => r.attempts.count label).sum

variable {s : State Counters Request} {ms : List (Move Unit Step)}

/-- Blue has the even numbers below the counter, Green the odd ones. -/
theorem attempts_eq (label : Label) (h : proxy.run {} ms = some s) :
    attempts label s.tasks =
      (s.shared.requestCounter + if label = .Blue then 1 else 0) / 2 := by
  have hsum := (System.Invariant.top proxy).conserved
    (m := fun g : Counters => (g.requestCounter + if label = .Blue then 1 else 0) / 2)
    (w := fun r => r.attempts.count label) (fun _ => rfl) (fun g r x g' r' _ _ hx => ?_) trivial h
  · cases label <;> simpa [attempts] using hsum.symm
  · rcases step_cases hx with ⟨rfl, rfl⟩ | ⟨-, rfl, rfl⟩
    · rw [List.count_append, List.count_singleton]
      rcases Nat.mod_two_eq_zero_or_one g.requestCounter with hpar | hpar <;> cases label <;>
        simp [hpar] <;> omega
    · rfl

/-- In any interleaving, whoever retries how often: Blue and Green have had the same number of
attempts, or Blue one more; together they are the numbers drawn, and `req_counter` was incremented
once for each logged request. -/
theorem attempts_alternate (h : proxy.run {} ms = some s) :
    (attempts .Blue s.tasks = attempts .Green s.tasks ∨
      attempts .Blue s.tasks = attempts .Green s.tasks + 1) ∧
    attempts .Blue s.tasks + attempts .Green s.tasks = s.shared.requestCounter ∧
    s.shared.reqCounter = s.tasks.countP fun r => r.logged := by
  have hblue := attempts_eq .Blue h
  have hgreen := attempts_eq .Green h
  simp only [if_true, reduceCtorEq, if_false, Nat.add_zero] at hblue hgreen
  refine ⟨by omega, by omega, ?_⟩
  have hlogged := (System.Invariant.top proxy).counted (m := fun g : Counters => (g.reqCounter : ℤ))
    (fun r => r.logged = true) (fun _ => Bool.false_ne_true) (fun g r x g' r' _ _ hx => ?_) trivial h
  · simpa using hlogged
  · rcases step_cases hx with ⟨rfl, rfl⟩ | ⟨hr, rfl, rfl⟩
    · rfl
    · simp [hr]

/-- Two requests whose attempts interleave, the first retried twice. -/
def retried : List (Move Unit Step) :=
  [.spawn (), .spawn (), .act 0 .upstreamPeer, .act 1 .upstreamPeer, .act 0 .upstreamPeer,
   .act 0 .upstreamPeer, .act 1 .logging]

theorem attempts_alternate_retried : ∃ s, proxy.run {} retried = some s ∧
    attempts .Blue s.tasks + attempts .Green s.tasks = 4 ∧
    (attempts .Blue s.tasks = attempts .Green s.tasks ∨
      attempts .Blue s.tasks = attempts .Green s.tasks + 1) := by
  have hrun : proxy.run {} retried =
      some ⟨⟨4, 1⟩, [⟨[.Blue, .Blue, .Green], false⟩, ⟨[.Green], true⟩]⟩ := rfl
  obtain ⟨hnear, htotal, -⟩ := attempts_alternate hrun
  exact ⟨_, hrun, htotal, hnear⟩

end PingoraGuide.Observability
