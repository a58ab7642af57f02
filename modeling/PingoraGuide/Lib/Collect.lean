import Mathlib.Data.Finset.Basic
import Mathlib.Data.Finset.Dedup
/-!
# Loops that insert into a set

| here | meaning |
| --- | --- |
| `collect`   | per item, insert all it yields; the first item that fails ends the loop |
| `Collected` | what the loop leaves: every item yielded, and nothing but what they yielded was added |

* `collect_ok_iff`: the loop ends with a set exactly when `Collected` says so; order and repetition
  of the items do not show in it (`Collected.of_mem_iff`).
* `forIn_eq_collect`: a `for` loop whose body does this is `collect`.
-/
namespace Collect
variable {α β ε : Type} [DecidableEq β]

def collect (yields : α → Except ε (List β)) : List α → Finset β → Except ε (Finset β)
  | [], acc => .ok acc
  | x :: xs, acc =>
    match yields x with
    | .error e => .error e
    | .ok ys => collect yields xs (acc ∪ ys.toFinset)

variable {yields : α → Except ε (List β)} {xs : List α} {acc out : Finset β}

structure Collected (yields : α → Except ε (List β)) (xs : List α) (acc out : Finset β) :
    Prop where
  all : ∀ x ∈ xs, ∃ ys, yields x = .ok ys
  mem : ∀ y, y ∈ out ↔ y ∈ acc ∨ ∃ x ∈ xs, ∃ ys, yields x = .ok ys ∧ y ∈ ys

omit [DecidableEq β] in
/-- Only which items there are counts. -/
theorem Collected.of_mem_iff {xs' : List α} (h : Collected yields xs acc out)
    (hsame : ∀ x, x ∈ xs' ↔ x ∈ xs) : Collected yields xs' acc out where
  all x hx := h.all x ((hsame x).1 hx)
  mem y := by simp only [hsame, h.mem y]

/-- One round: what the first item yields moves to the set the rest starts from. -/
theorem collected_cons {x : α} {ys : List β} (hx : yields x = .ok ys) :
    Collected yields (x :: xs) acc out ↔ Collected yields xs (acc ∪ ys.toFinset) out := by
  have hmem : ∀ y, (y ∈ acc ∪ ys.toFinset ∨ ∃ z ∈ xs, ∃ zs, yields z = .ok zs ∧ y ∈ zs) ↔
      (y ∈ acc ∨ ∃ z ∈ x :: xs, ∃ zs, yields z = .ok zs ∧ y ∈ zs) := by
    intro y
    simp [hx, or_assoc]
  constructor
  · intro h
    refine ⟨fun z hz => h.all z (List.mem_cons_of_mem _ hz), fun y => ?_⟩
    rw [hmem, h.mem]
  · intro h
    refine ⟨?_, fun y => ?_⟩
    · intro z hz
      rcases List.mem_cons.1 hz with rfl | hz
      · exact ⟨ys, hx⟩
      · exact h.all z hz
    · rw [h.mem, hmem]

theorem collect_ok_iff : collect yields xs acc = .ok out ↔ Collected yields xs acc out := by
  induction xs generalizing acc with
  | nil =>
    constructor
    · intro h
      obtain rfl : acc = out := Except.ok.inj h
      exact ⟨by simp, by simp⟩
    · intro h
      have hout : acc = out := by
        ext y
        simp [h.mem y]
      rw [collect, hout]
  | cons x xs ih =>
    unfold collect
    cases hx : yields x with
    | error e =>
      constructor
      · intro h
        cases h
      · intro h
        obtain ⟨ys, hys⟩ := h.all x (by simp)
        simp [hx] at hys
    | ok ys => rw [collected_cons hx, ← ih]

/-- The loop fails exactly when some item does. -/
theorem collect_fails :
    (∃ e, collect yields xs acc = .error e) ↔ ∃ x ∈ xs, ∃ e, yields x = .error e := by
  induction xs generalizing acc with
  | nil => simp [collect]
  | cons x xs ih =>
    unfold collect
    cases hx : yields x with
    | error e => simp [hx]
    | ok ys => simp [hx, ih]

/-! ## The loops of a program -/

/-- The inner loop. -/
theorem forIn_insert {γ : Type} (f : γ → β) (ys : List γ) (acc : Finset β) :
    (forIn ys acc fun y acc => (.ok (.yield (insert (f y) acc)) : Except ε _)) =
      .ok (acc ∪ (ys.map f).toFinset) := by
  induction ys generalizing acc with
  | nil => simp [pure, Except.pure]
  | cons y ys ih =>
    rw [List.forIn_cons]
    refine (ih (insert (f y) acc)).trans (congrArg Except.ok ?_)
    ext z
    simp only [Finset.mem_union, Finset.mem_insert, List.map_cons, List.toFinset_cons]
    tauto

/-- The outer loop. -/
theorem forIn_eq_collect {body : α → Finset β → Except ε (ForInStep (Finset β))}
    (hbody : ∀ x acc, body x acc = (yields x).map fun ys => .yield (acc ∪ ys.toFinset)) :
    forIn xs acc body = collect yields xs acc := by
  induction xs generalizing acc with
  | nil => rfl
  | cons x xs ih =>
    rw [List.forIn_cons, hbody]
    unfold collect
    cases hx : yields x with
    | error e => rfl
    | ok ys => exact ih

end Collect
