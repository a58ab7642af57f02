import Mathlib.Algebra.BigOperators.Group.Finset.Basic
import Mathlib.Data.List.Basic
/-!
# Weighted lists and bounded searches

| here | meaning |
| --- | --- |
| `expand`     | every element as many times as it weighs: the table a weighted choice indexes |
| `firstReady` | the first ready one among the first `n` candidates of an iterator |
| `Walks`      | after its first candidate, the iterator goes round a list of distinct elements |
| `Settled`    | the members of a family of tests do not differ on where a search ends |
-/
namespace Search
variable {α : Type} [DecidableEq α]

/-! ## Weights -/

def expand (w : α → Nat) (l : List α) : List α := l.flatMap fun a => List.replicate (w a) a

/-- The length of the table over a set, in whatever order the set is enumerated. -/
theorem length_expand (w : α → Nat) {l : List α} (hl : l.Nodup) :
    (expand w l).length = ∑ a ∈ l.toFinset, w a := by
  induction l with
  | nil => simp [expand]
  | cons a l ih =>
    obtain ⟨hnot, hl⟩ := List.nodup_cons.1 hl
    have hcons : expand w (a :: l) = List.replicate (w a) a ++ expand w l := rfl
    rw [hcons, List.length_append, List.length_replicate, ih hl, List.toFinset_cons,
      Finset.sum_insert (by simpa using hnot)]

/-! ## Candidates -/

/-- An iterator: its `i`-th item, `none` once it has ended. -/
abbrev Candidates (α : Type) := Nat → Option α

def firstReady (ready : α → Bool) (candidates : Candidates α) (n : Nat) : Option α :=
  ((List.range n).filterMap candidates).find? ready

variable {ready : α → Bool} {candidates : Candidates α} {n : Nat}

omit [DecidableEq α]

theorem firstReady_eq_some {a : α} (h : firstReady ready candidates n = some a) :
    ready a = true ∧ ∃ i < n, candidates i = some a := by
  obtain ⟨i, hi, hc⟩ := List.mem_filterMap.1 (List.mem_of_find?_eq_some h)
  exact ⟨List.find?_some h, i, by simpa using hi, hc⟩

/-- The search fails only when none of the first `n` candidates is ready. -/
theorem firstReady_eq_none :
    firstReady ready candidates n = none ↔
      ∀ i < n, ∀ a, candidates i = some a → ready a = false := by
  simp only [firstReady, List.find?_eq_none, List.mem_filterMap, List.mem_range, Bool.not_eq_true]
  constructor
  · exact fun h i hi a ha => h a ⟨i, hi, ha⟩
  · rintro h a ⟨i, hi, ha⟩
    exact h i hi a ha

/-! ## Going round a list -/

def Walks (candidates : Candidates α) (l : List α) : Prop :=
  ∃ start, ∀ i, candidates (i + 1) = l[(start + i) % l.length]?

/-- Once round the list, every element was a candidate. -/
theorem Walks.covers {l : List α} (h : Walks candidates l) {a : α} (ha : a ∈ l) :
    ∃ i ≤ l.length, candidates i = some a := by
  obtain ⟨start, hwalk⟩ := h
  obtain ⟨j, hj, rfl⟩ := List.mem_iff_getElem.1 ha
  -- the number of steps from the start to place `j`
  have hsteps : ∃ i < l.length, (start + i) % l.length = j := by
    have hstart : start % l.length < l.length := Nat.mod_lt _ (by omega)
    by_cases hle : start % l.length ≤ j
    · refine ⟨j - start % l.length, by omega, ?_⟩
      rw [← Nat.mod_add_mod, Nat.add_sub_cancel' hle, Nat.mod_eq_of_lt hj]
    · refine ⟨l.length - start % l.length + j, by omega, ?_⟩
      have hround : start % l.length + (l.length - start % l.length + j) = l.length + j := by omega
      rw [← Nat.mod_add_mod, hround, Nat.add_mod_left, Nat.mod_eq_of_lt hj]
  obtain ⟨i, hi, hplace⟩ := hsteps
  refine ⟨i + 1, hi, ?_⟩
  rw [hwalk i, hplace, List.getElem?_eq_getElem hj]

/-! ## A family of searches -/

section
variable {ι : Type} {F : ι → Prop} {p : ι → α → Bool}

/-- The first element that some test of the family accepts is accepted by all of them. -/
def Settled (F : ι → Prop) (p : ι → α → Bool) : List α → Prop
  | [] => True
  | a :: l => (∀ i, F i → p i a = true) ∨ ((∀ i, F i → p i a = false) ∧ Settled F p l)

theorem find?_agree_iff {l : List α} :
    (∀ i j, F i → F j → l.find? (p i) = l.find? (p j)) ↔ Settled F p l := by
  induction l with
  | nil => simp [Settled]
  | cons a l ih =>
    unfold Settled
    rw [← ih]
    constructor
    · intro h
      by_cases hall : ∀ i, F i → p i a = true
      · exact .inl hall
      · obtain ⟨j, hj, hno⟩ : ∃ j, F j ∧ ¬ p j a = true := by
          simpa only [not_forall, exists_prop] using hall
        have hnone : ∀ i, F i → p i a = false := by
          intro i hi
          by_contra hyes
          have hyes : p i a = true := by simpa using hyes
          have hfound : (a :: l).find? (p j) = some a := by
            rw [← h i j hi hj, List.find?_cons_of_pos hyes]
          exact hno (List.find?_some hfound)
        refine .inr ⟨hnone, fun i j hi hj => ?_⟩
        have := h i j hi hj
        rwa [List.find?_cons_of_neg (by simp [hnone i hi]),
          List.find?_cons_of_neg (by simp [hnone j hj])] at this
    · rintro (hall | ⟨hnone, h⟩) i j hi hj
      · rw [List.find?_cons_of_pos (hall i hi), List.find?_cons_of_pos (hall j hj)]
      · rw [List.find?_cons_of_neg (by simp [hnone i hi]),
          List.find?_cons_of_neg (by simp [hnone j hj])]
        exact h i j hi hj

end

end Search
