import Mathlib.Algebra.BigOperators.Group.List.Basic
import Mathlib.Data.List.Induction
import Mathlib.Tactic.Abel
import PingoraGuide.Lib.Trace
/-!
# Tasks that share a state

A server starts a task for every client. The tasks take their steps in any order; a step moves the
task that takes it and the state they share, and no other task.

| here | meaning |
| --- | --- |
| `System`    | how a task starts and what one step of a task does; `none` where it cannot be taken |
| `Move`      | a new task, or a step of the task at an index |
| `tasks_from` | what every task is started with and keeps |
| `fetchAdd`  | a counter that the tasks draw numbers from |
| `separate`   | **the separation rule**: every task is where its own steps, taken alone, have brought it |
| `Invariant` | a condition on the shared state and one on each task in it, which a step leaves to the others |
| `Invariant.run`       | **the task rule**: it holds in every state that an interleaving reaches |
| `Invariant.conserved` | **the conservation rule**: what a step books in the shared state it books in its own task |
| `Invariant.counted`   | the same where each task books one or nothing |
| `Invariant.bounded`   | **the admission rule**: tasks admitted below a limit stay below it |
| `Invariant.apart`     | **the pair rule**: what a step leaves between its task and each other one holds between any two |
-/
namespace Tasks
variable {S σ α ι M : Type}

structure State (S σ : Type) where
  shared : S
  tasks : List σ

inductive Move (α ι : Type) where
  | spawn (a : α)
  | act (i : Nat) (x : ι)

structure System (S σ α ι : Type) where
  init : α → σ
  act : S → σ → ι → Option (S × σ)

namespace System

def step (P : System S σ α ι) (s : State S σ) : Move α ι → Option (State S σ)
  | .spawn a => some ⟨s.shared, s.tasks ++ [P.init a]⟩
  | .act i x => do
    let t ← s.tasks[i]?
    let (g, t') ← P.act s.shared t x
    some ⟨g, s.tasks.set i t'⟩

/-- The states of a run that starts without tasks. -/
abbrev run (P : System S σ α ι) (g : S) (ms : List (Move α ι)) : Option (State S σ) :=
  Trace.run P.step ⟨g, []⟩ ms

variable {P : System S σ α ι} {g : S} {s s' : State S σ} {ms : List (Move α ι)}

/-- What a step does: the tasks before and behind the one that takes it stay. -/
theorem step_cases {m : Move α ι} (h : P.step s m = some s') :
    (∃ a, m = .spawn a ∧ s' = ⟨s.shared, s.tasks ++ [P.init a]⟩) ∨
    (∃ x pre t post g' t', m = .act pre.length x ∧ s.tasks = pre ++ t :: post ∧
      P.act s.shared t x = some (g', t') ∧ s' = ⟨g', pre ++ t' :: post⟩) := by
  cases m with
  | spawn a => exact .inl ⟨a, rfl, (Option.some.inj h).symm⟩
  | act i x =>
    simp only [step, Option.bind_eq_bind, Option.bind_eq_some_iff] at h
    obtain ⟨t, ht, ⟨g', t'⟩, hact, h⟩ := h
    obtain ⟨hi, rfl⟩ := List.getElem?_eq_some_iff.1 ht
    have hsplit : s.tasks = s.tasks.take i ++ s.tasks[i] :: s.tasks.drop (i + 1) := by
      rw [← List.drop_eq_getElem_cons hi, List.take_append_drop]
    have hlen : (s.tasks.take i).length = i := by
      rw [List.length_take]
      omega
    refine .inr ⟨x, s.tasks.take i, s.tasks[i], s.tasks.drop (i + 1), g', t', by rw [hlen], hsplit,
      hact, ?_⟩
    rw [← Option.some.inj h, List.set_eq_take_append_cons_drop, if_pos hi]

/-- The same for the task at one index: it stays, it takes the step, or another task does. -/
theorem step_at {m : Move α ι} {j : Nat} {t : σ} (h : P.step s m = some s')
    (hj : s.tasks[j]? = some t) :
    (s'.shared = s.shared ∧ s'.tasks[j]? = some t) ∨
    (∃ x g' t', P.act s.shared t x = some (g', t') ∧ s'.shared = g' ∧ s'.tasks[j]? = some t') ∨
    (∃ x u g' u', u ∈ s.tasks ∧ P.act s.shared u x = some (g', u') ∧ s'.shared = g' ∧
      s'.tasks[j]? = some t) := by
  rcases step_cases h with ⟨a, -, rfl⟩ | ⟨x, pre, u, post, g', u', -, hs, hx, rfl⟩
  · refine .inl ⟨rfl, ?_⟩
    exact List.getElem?_append_left (List.getElem?_eq_some_iff.1 hj).1 ▸ hj
  · rw [hs] at hj
    rcases Nat.lt_trichotomy j pre.length with hlt | rfl | hgt
    · refine .inr (.inr ⟨x, u, g', u', by simp [hs], hx, rfl, ?_⟩)
      rw [← hj, List.getElem?_append_left hlt, List.getElem?_append_left hlt]
    · obtain rfl : u = t := by simpa using hj
      exact .inr (.inl ⟨x, g', u', hx, rfl, by simp⟩)
    · refine .inr (.inr ⟨x, u, g', u', by simp [hs], hx, rfl, ?_⟩)
      obtain ⟨i, hi⟩ : ∃ i, j - pre.length = i + 1 := ⟨j - pre.length - 1, by omega⟩
      rw [← hj, List.getElem?_append_right (Nat.le_of_lt hgt),
        List.getElem?_append_right (Nat.le_of_lt hgt), hi]
      rfl

theorem run_concat {m : Move α ι} (h : P.run g ms = some s) (hstep : P.step s m = some s') :
    P.run g (ms ++ [m]) = some s' := by
  rw [run, Trace.run_append, Option.bind_eq_some_iff]
  exact ⟨s, h, Trace.run_cons.2 ⟨s', hstep, Trace.run_nil.2 rfl⟩⟩

/-- What a task is started with and keeps. -/
theorem tasks_from {T : σ → Prop} (hspawn : ∀ a, .spawn a ∈ ms → T (P.init a))
    (hact : ∀ g t x g' t', T t → P.act g t x = some (g', t') → T t')
    (h : P.run g ms = some s) : ∀ t ∈ s.tasks, T t := by
  have hmoves : Trace.Guarded P.step (fun _ m => m ∈ ms) ⟨g, []⟩ ms := .of_labels fun m hm => hm
  refine Trace.run_keeps (I := fun s : State S σ => ∀ t ∈ s.tasks, T t)
    (fun s m s' hT hm hstep => ?_) (by simp) hmoves h
  rcases step_cases hstep with ⟨a, rfl, rfl⟩ | ⟨x, pre, t, post, g', t', -, hs, hx, rfl⟩
  · intro t ht
    rcases List.mem_append.1 ht with ht | ht
    · exact hT t ht
    · obtain rfl := List.mem_singleton.1 ht
      exact hspawn a hm
  · intro u hu
    rw [hs] at hT
    have hcases : u ∈ pre ∨ u = t' ∨ u ∈ post := by simpa using hu
    rcases hcases with hu | rfl | hu
    · exact hT u (by simp [hu])
    · exact hact _ _ _ _ _ (hT t (by simp)) hx
    · exact hT u (by simp [hu])

/-- Induction over the steps of a run, where `F` is known of every state reached. -/
theorem run_under {F I : State S σ → Prop} (hF : ∀ ms s, P.run g ms = some s → F s)
    (hstart : I ⟨g, []⟩)
    (hstep : ∀ s m s', F s → F s' → I s → P.step s m = some s' → I s')
    (h : P.run g ms = some s) : I s := by
  induction ms using List.reverseRecOn generalizing s with
  | nil => exact Trace.run_nil.1 h ▸ hstart
  | append_singleton ms m ih =>
    have hs := hF _ s h
    rw [run, Trace.run_append, Option.bind_eq_some_iff] at h
    obtain ⟨s1, h1, h⟩ := h
    obtain ⟨s2, h2, h⟩ := Trace.run_cons.1 h
    obtain rfl := Trace.run_nil.1 h
    exact hstep s1 m s2 (hF ms s1 h1) hs (ih h1) h2

/-! ### Each task by itself -/

def spawned (ms : List (Move α ι)) : List α := ms.filterMap fun
  | .spawn a => some a
  | .act _ _ => none

/-- The steps of the task at an index. -/
def stepsOf (i : Nat) (ms : List (Move α ι)) : List ι := ms.filterMap fun
  | .spawn _ => none
  | .act j x => if j = i then some x else none

/-- Every task is where its own steps, taken alone, have brought it. -/
structure Separate (P : System S σ α ι) (own : σ → ι → Option σ) (ms : List (Move α ι))
    (s : State S σ) : Prop where
  length : (spawned ms).length = s.tasks.length
  fresh : ∀ i, s.tasks.length ≤ i → stepsOf i ms = []
  alone : ∀ i t, s.tasks[i]? = some t →
    ∃ a, (spawned ms)[i]? = some a ∧ Trace.run own (P.init a) (stepsOf i ms) = some t

theorem Separate.spawn {own : σ → ι → Option σ} (h : P.Separate own ms s) (a : α) :
    P.Separate own (ms ++ [.spawn a]) ⟨s.shared, s.tasks ++ [P.init a]⟩ := by
  have hspawned : spawned (ms ++ [.spawn a] : List (Move α ι)) = spawned ms ++ [a] := by
    simp [spawned]
  have hsteps : ∀ i, stepsOf i (ms ++ [.spawn a]) = stepsOf i ms := fun i => by simp [stepsOf]
  refine ⟨by simp [hspawned, h.length], fun i hi => ?_, fun i t ht => ?_⟩
  · rw [hsteps]
    exact h.fresh i (by simp at hi; omega)
  · rw [hsteps, hspawned]
    rw [List.getElem?_append] at ht ⊢
    rw [h.length]
    split at ht
    · rename_i hlt
      rw [if_pos hlt]
      exact h.alone i t ht
    · rename_i hge
      rw [if_neg hge, h.fresh i (by omega)]
      obtain ⟨hi, rfl⟩ := List.getElem?_eq_some_iff.1 ht
      obtain hi0 : i - s.tasks.length = 0 := by simpa using hi
      exact ⟨a, by simp [hi0], by simp⟩

theorem Separate.act {own : σ → ι → Option σ} {x : ι} {pre post : List σ} {t t' : σ} {g g' : S}
    (h : P.Separate own ms ⟨g, pre ++ t :: post⟩) (ht : own t x = some t') :
    P.Separate own (ms ++ [.act pre.length x]) ⟨g', pre ++ t' :: post⟩ := by
  have hspawned : spawned (ms ++ [.act pre.length x] : List (Move α ι)) = spawned ms := by
    simp [spawned]
  have hsteps : ∀ i, stepsOf i (ms ++ [.act pre.length x]) =
      stepsOf i ms ++ if pre.length = i then [x] else [] := fun i => by
    by_cases hi : pre.length = i <;> simp [stepsOf, hi]
  obtain ⟨hlen, hfresh, halone⟩ := h
  refine ⟨by rw [hspawned, hlen]; simp, fun i hi => ?_, fun i u hu => ?_⟩
  · have hi' : (pre ++ t :: post).length ≤ i := by simpa using hi
    rw [hsteps, hfresh i hi', if_neg (by simp at hi'; omega), List.nil_append]
  · rw [hspawned, hsteps]
    by_cases hi : pre.length = i
    · subst hi
      obtain rfl : t' = u := by simpa using hu
      obtain ⟨a, ha, hrun⟩ := halone pre.length t (by simp)
      refine ⟨a, ha, ?_⟩
      rw [if_pos rfl, Trace.run_append, hrun, Option.bind_some]
      exact Trace.run_cons.2 ⟨t', ht, Trace.run_nil.2 rfl⟩
    · rw [if_neg hi, List.append_nil]
      refine halone i u ?_
      rw [← hu, List.getElem?_append, List.getElem?_append]
      split
      · rfl
      · obtain ⟨j, hj⟩ : ∃ j, i - pre.length = j + 1 := ⟨i - pre.length - 1, by omega⟩
        rw [hj]
        rfl

/-- **The separation rule.** It holds where what a step makes of its own task does not depend on
what is shared. -/
theorem separate {own : σ → ι → Option σ}
    (hown : ∀ g t x g' t', P.act g t x = some (g', t') → own t x = some t')
    (h : P.run g ms = some s) : P.Separate own ms s := by
  induction ms using List.reverseRecOn generalizing s with
  | nil =>
    obtain rfl := Trace.run_nil.1 h
    exact ⟨rfl, fun _ _ => rfl, by simp⟩
  | append_singleton ms m ih =>
    rw [run, Trace.run_append, Option.bind_eq_some_iff] at h
    obtain ⟨s1, h1, h⟩ := h
    obtain ⟨s2, h2, h⟩ := Trace.run_cons.1 h
    obtain rfl := Trace.run_nil.1 h
    have ih := ih h1
    rcases step_cases h2 with ⟨a, rfl, rfl⟩ | ⟨x, pre, t, post, g', t', rfl, hs, hx, rfl⟩
    · exact ih.spawn a
    · obtain ⟨g1, tasks⟩ := s1
      obtain rfl : tasks = pre ++ t :: post := hs
      exact ih.act (hown _ _ _ _ _ hx)

/-- `J` of the shared state and `T` of each task in it. -/
structure Invariant (P : System S σ α ι) (J : S → Prop) (T : S → σ → Prop) : Prop where
  spawn : ∀ g a, J g → T g (P.init a)
  act : ∀ g t x g' t', J g → T g t → P.act g t x = some (g', t') → J g' ∧ T g' t'
  frame : ∀ g t x g' t' u, J g → T g t → T g u → P.act g t x = some (g', t') → T g' u

namespace Invariant
variable {J : S → Prop} {T : S → σ → Prop}

/-- Where the rules below need no condition. -/
theorem top (P : System S σ α ι) : P.Invariant (fun _ => True) fun _ _ => True where
  spawn := fun _ _ _ => trivial
  act := fun _ _ _ _ _ _ _ _ => ⟨trivial, trivial⟩
  frame := fun _ _ _ _ _ _ _ _ _ _ => trivial

theorem step {m : Move α ι} (hI : P.Invariant J T) (hJ : J s.shared)
    (hT : ∀ t ∈ s.tasks, T s.shared t) (h : P.step s m = some s') :
    J s'.shared ∧ ∀ t ∈ s'.tasks, T s'.shared t := by
  rcases step_cases h with ⟨a, -, rfl⟩ | ⟨x, pre, t, post, g', t', -, htasks, hact, rfl⟩
  · refine ⟨hJ, fun t ht => ?_⟩
    rcases List.mem_append.1 ht with ht | ht
    · exact hT t ht
    · obtain rfl := List.mem_singleton.1 ht
      exact hI.spawn _ a hJ
  · rw [htasks] at hT
    have ht : T s.shared t := hT t (by simp)
    obtain ⟨hJ', ht'⟩ := hI.act _ _ _ _ _ hJ ht hact
    refine ⟨hJ', fun u hu => ?_⟩
    have hothers : u ∈ pre ∨ u = t' ∨ u ∈ post := by simpa using hu
    rcases hothers with hu | rfl | hu
    · exact hI.frame _ _ _ _ _ u hJ ht (hT u (by simp [hu])) hact
    · exact ht'
    · exact hI.frame _ _ _ _ _ u hJ ht (hT u (by simp [hu])) hact

/-- **The task rule.** -/
theorem run (hI : P.Invariant J T) (hJ : J g) (h : P.run g ms = some s) :
    J s.shared ∧ ∀ t ∈ s.tasks, T s.shared t := by
  refine Trace.run_always (I := fun s : State S σ => J s.shared ∧ ∀ t ∈ s.tasks, T s.shared t)
    (fun s m s' hs hstep => hI.step hs.1 hs.2 hstep) ⟨hJ, by simp⟩ h

/-- **The conservation rule.** -/
theorem conserved [AddCancelCommMonoid M] (hI : P.Invariant J T) {m : S → M} {w : σ → M}
    (hinit : ∀ a, w (P.init a) = 0)
    (hact : ∀ g t x g' t', J g → T g t → P.act g t x = some (g', t') → m g' + w t = m g + w t')
    (hJ : J g) (h : P.run g ms = some s) : m s.shared = m g + (s.tasks.map w).sum := by
  refine (Trace.run_always (I := fun s : State S σ => (J s.shared ∧ ∀ t ∈ s.tasks, T s.shared t) ∧
    m s.shared = m g + (s.tasks.map w).sum) ?_ ⟨⟨hJ, by simp⟩, by simp⟩ h).2
  rintro s e s' ⟨⟨hJ, hT⟩, hm⟩ hstep
  refine ⟨hI.step hJ hT hstep, ?_⟩
  rcases step_cases hstep with ⟨a, -, rfl⟩ | ⟨x, pre, t, post, g', t', -, htasks, hx, rfl⟩
  · simp [hm, hinit]
  · have hpay := hact _ _ _ _ _ hJ (hT t (by simp [htasks])) hx
    have hbefore : m s.shared = m g + ((pre.map w).sum + (w t + (post.map w).sum)) := by
      rw [hm, htasks]
      simp
    show m g' = m g + ((pre ++ t' :: post).map w).sum
    refine add_right_cancel (b := w t) ?_
    rw [hpay, hbefore]
    simp only [List.map_append, List.map_cons, List.sum_append, List.sum_cons]
    abel

theorem sum_ite_eq_countP (p : σ → Prop) [DecidablePred p] (ts : List σ) :
    (ts.map fun t => if p t then (1 : ℤ) else 0).sum = ts.countP fun t => decide (p t) := by
  induction ts with
  | nil => rfl
  | cons t ts ih =>
    rw [List.map_cons, List.sum_cons, ih, List.countP_cons]
    by_cases h : p t <;> simp [h, add_comm]

/-- **The counting rule.** A number that every step changes as its own task starts or ceases to be
of a kind counts the tasks of that kind. -/
theorem counted (hI : P.Invariant J T) {m : S → ℤ} (p : σ → Prop) [DecidablePred p]
    (hinit : ∀ a, ¬ p (P.init a))
    (hact : ∀ g t x g' t', J g → T g t → P.act g t x = some (g', t') →
      m g' + (if p t then 1 else 0) = m g + if p t' then 1 else 0)
    (hJ : J g) (h : P.run g ms = some s) :
    m s.shared = m g + s.tasks.countP fun t => decide (p t) := by
  rw [← sum_ite_eq_countP]
  exact hI.conserved (fun a => if_neg (hinit a)) hact hJ h

/-- **The admission rule.** If the number counts the tasks of a kind, and a task is admitted, which
makes it of that kind, only where the number does not exceed `n`, no more than `n` are admitted. -/
theorem bounded (hI : P.Invariant J T) {m : S → ℤ} {p q : σ → Prop} [DecidablePred p]
    [DecidablePred q] {n : ℕ} (hqp : ∀ g t, T g t → q t → p t) (hinit : ∀ a, ¬ p (P.init a))
    (hinit' : ∀ a, ¬ q (P.init a))
    (hact : ∀ g t x g' t', J g → T g t → P.act g t x = some (g', t') →
      m g' + (if p t then 1 else 0) = m g + if p t' then 1 else 0)
    (hlimit : ∀ g t x g' t', P.act g t x = some (g', t') → q t' → q t ∨ m g' ≤ n)
    (hJ : J g) (hm : m g = 0) (h : P.run g ms = some s) :
    s.tasks.countP (fun t => decide (q t)) ≤ n := by
  refine run_under (F := fun s => (∀ t ∈ s.tasks, T s.shared t) ∧
      m s.shared = s.tasks.countP fun t => decide (p t))
    (I := fun s => s.tasks.countP (fun t => decide (q t)) ≤ n) ?_ (by simp) ?_ h
  · intro ms s h
    refine ⟨(hI.run hJ h).2, ?_⟩
    rw [hI.counted p hinit hact hJ h, hm, zero_add]
  · rintro s e s' - ⟨hT', hm'⟩ hle hstep
    rcases step_cases hstep with ⟨a, -, rfl⟩ | ⟨x, pre, t, post, g', t', -, htasks, hx, rfl⟩
    · simpa [hinit' a] using hle
    · have hmono : (pre ++ t' :: post).countP (fun t => decide (q t)) ≤
          (pre ++ t' :: post).countP fun t => decide (p t) :=
        List.countP_mono_left fun t ht hq => by
          simpa using hqp _ t (hT' t ht) (by simpa using hq)
      rw [htasks] at hle
      by_cases hq' : q t'
      · rcases hlimit _ _ _ _ _ hx hq' with hq | hn
        · simpa [List.countP_append, List.countP_cons, hq, hq'] using hle
        · refine hmono.trans ?_
          have hle' : ((pre ++ t' :: post).countP fun t => decide (p t) : ℤ) ≤ n := hm' ▸ hn
          exact_mod_cast hle'
      · refine Nat.le_trans ?_ hle
        simp [List.countP_append, List.countP_cons, hq']

/-- **The pair rule.** -/
theorem apart (hI : P.Invariant J T) {R : σ → σ → Prop}
    (hsymm : ∀ t u, R t u → R u t) (hspawn : ∀ g a u, J g → T g u → R u (P.init a))
    (hact : ∀ g t x g' t' u, J g → T g t → T g u → P.act g t x = some (g', t') → R t u → R t' u)
    (hJ : J g) (h : P.run g ms = some s) : s.tasks.Pairwise R := by
  refine (Trace.run_always (I := fun s : State S σ => (J s.shared ∧ ∀ t ∈ s.tasks, T s.shared t) ∧
    s.tasks.Pairwise R) ?_ ⟨⟨hJ, by simp⟩, by simp⟩ h).2
  rintro s e s' ⟨⟨hJ, hT⟩, hR⟩ hstep
  refine ⟨hI.step hJ hT hstep, ?_⟩
  rcases step_cases hstep with ⟨a, -, rfl⟩ | ⟨x, pre, t, post, g', t', -, htasks, hx, rfl⟩
  · refine List.pairwise_append.2 ⟨hR, by simp, fun u hu t ht => ?_⟩
    obtain rfl := List.mem_singleton.1 ht
    exact hspawn _ _ u hJ (hT u hu)
  · rw [htasks] at hR hT
    have hmoved : ∀ u, u ∈ pre ∨ u ∈ post → R t u → R t' u := fun u hu =>
      hact _ _ _ _ _ u hJ (hT t (by simp)) (hT u (by
        rcases hu with hu | hu <;> simp [hu])) hx
    obtain ⟨hpre, hpost, hcross⟩ := List.pairwise_append.1 hR
    obtain ⟨htpost, hpost⟩ := List.pairwise_cons.1 hpost
    refine List.pairwise_append.2 ⟨hpre, List.pairwise_cons.2 ⟨fun u hu => ?_, hpost⟩, ?_⟩
    · exact hmoved u (.inr hu) (htpost u hu)
    · intro u hu v hv
      rcases List.mem_cons.1 hv with rfl | hv
      · exact hsymm _ _ (hmoved u (.inl hu) (hsymm _ _ (hcross u hu t (by simp))))
      · exact hcross u hu v (by simp [hv])

end Invariant

end System

/-- A 64-bit counter that the tasks share: what the call returns, and how far the counter is after
it. It counts on here and is read modulo `2 ^ 64`. -/
def fetchAdd (counter : Nat) : Nat × Nat := (counter % 2 ^ 64, counter + 1)

end Tasks
