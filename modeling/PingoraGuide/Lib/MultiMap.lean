import Mathlib.Data.List.Basic
import Mathlib.Data.List.Induction
/-!
# Multi-valued maps

One key may carry several values; the values of a key keep their order. `insert` replaces every
value of its key, as a header line that is set replaces all lines of that name.

`insertAll` inserts entries one after the other: the last entry of a key decides
(`getAll_insertAll`), so their order matters exactly where a key has two entries with different
values (`insertAll_order_iff`).
-/
abbrev MultiMap (κ ν : Type) := List (κ × ν)

namespace MultiMap
variable {κ ν : Type} [DecidableEq κ]

def getAll (m : MultiMap κ ν) (k : κ) : List ν := (m.filter fun e => e.1 = k).map Prod.snd

/-- The first value of a key. -/
def get (m : MultiMap κ ν) (k : κ) : Option ν := (m.getAll k).head?

def remove (m : MultiMap κ ν) (k : κ) : MultiMap κ ν := m.filter fun e => e.1 ≠ k

def insert (m : MultiMap κ ν) (k : κ) (v : ν) : MultiMap κ ν := m.remove k ++ [(k, v)]

theorem getAll_remove (m : MultiMap κ ν) (k k' : κ) :
    (m.remove k).getAll k' = if k' = k then [] else m.getAll k' := by
  unfold getAll remove
  rw [List.filter_filter]
  split
  · rename_i h
    subst h
    simp
  · rename_i h
    congr 2
    funext e
    by_cases he : e.1 = k'
    · simp [he, h]
    · simp [he]

theorem getAll_insert (m : MultiMap κ ν) (k k' : κ) (v : ν) :
    (m.insert k v).getAll k' = if k' = k then [v] else m.getAll k' := by
  have h := getAll_remove m k k'
  unfold getAll at h ⊢
  unfold insert
  rw [List.filter_append, List.map_append, h]
  split
  · rename_i he
    simp [he]
  · rename_i he
    simp [Ne.symm he]

theorem getAll_insert_self (m : MultiMap κ ν) (k : κ) (v : ν) : (m.insert k v).getAll k = [v] := by
  simp [getAll_insert]

/-! ## Insertions one after the other -/

def insertAll (m : MultiMap κ ν) (es : List (κ × ν)) : MultiMap κ ν :=
  es.foldl (fun m e => m.insert e.1 e.2) m

theorem insertAll_concat (m : MultiMap κ ν) (es : List (κ × ν)) (e : κ × ν) :
    m.insertAll (es ++ [e]) = (m.insertAll es).insert e.1 e.2 := by
  simp [insertAll]

section
variable {α : Type} (line : α → κ × ν) {es : List α}

/-- The last entry of a key decides it. -/
theorem getAll_insertAll (m : MultiMap κ ν) (es : List α) (k : κ) :
    (∃ e ∈ es, (line e).1 = k ∧ (m.insertAll (es.map line)).getAll k = [(line e).2]) ∨
      (∀ e ∈ es, (line e).1 ≠ k) ∧ (m.insertAll (es.map line)).getAll k = m.getAll k := by
  induction es using List.reverseRecOn with
  | nil => exact .inr ⟨by simp, rfl⟩
  | append_singleton es e ih =>
    rw [List.map_append, List.map_singleton, insertAll_concat, getAll_insert]
    by_cases he : k = (line e).1
    · exact .inl ⟨e, by simp, he.symm, if_pos he⟩
    · rw [if_neg he]
      rcases ih with ⟨e', he', hk, hget⟩ | ⟨hno, hget⟩
      · exact .inl ⟨e', by simp [he'], hk, hget⟩
      · refine .inr ⟨?_, hget⟩
        intro e' he'
        rcases List.mem_append.1 he' with he' | he'
        · exact hno e' he'
        · obtain rfl := List.mem_singleton.1 he'
          exact Ne.symm he

/-- Any entry can come last. -/
theorem insertAll_last (m : MultiMap κ ν) {e : α} (h : e ∈ es) :
    ∃ a : List α, a.Perm es ∧ (m.insertAll (a.map line)).getAll (line e).1 = [(line e).2] := by
  obtain ⟨es1, es2, rfl⟩ := List.append_of_mem h
  refine ⟨(es1 ++ es2) ++ [e], ?_, ?_⟩
  · exact (List.perm_append_singleton _ _).trans List.perm_middle.symm
  · rw [List.map_append, List.map_singleton, insertAll_concat]
    exact getAll_insert_self _ _ _

/-- **The order of insertions shows exactly at the keys with two different values.** -/
theorem insertAll_order_iff (es : List α) (m : MultiMap κ ν) (k : κ) :
    (∀ a b : List α, a.Perm es → b.Perm es →
      (m.insertAll (a.map line)).getAll k = (m.insertAll (b.map line)).getAll k) ↔
      ∀ e ∈ es, ∀ e' ∈ es, (line e).1 = k → (line e').1 = k → (line e).2 = (line e').2 := by
  constructor
  · rintro h e he e' he' rfl hk
    obtain ⟨a, ha, hae⟩ := insertAll_last line m he
    obtain ⟨b, hb, hbe⟩ := insertAll_last line m he'
    have hsame := h a b ha hb
    rw [hae, ← hk, hbe] at hsame
    exact List.singleton_inj.1 hsame
  · intro h a b ha hb
    have hab : ∀ e, e ∈ a ↔ e ∈ b := fun e => (ha.trans hb.symm).mem_iff
    rcases getAll_insertAll line m a k with ⟨e, he, hk, hgeta⟩ | ⟨hnoa, hgeta⟩ <;>
      rcases getAll_insertAll line m b k with ⟨e', he', hk', hgetb⟩ | ⟨hnob, hgetb⟩
    · rw [hgeta, hgetb, h e (ha.mem_iff.1 he) e' (hb.mem_iff.1 he') hk hk']
    · exact absurd hk (hnob e ((hab e).1 he))
    · exact absurd hk' (hnoa e' ((hab e').2 he'))
    · rw [hgeta, hgetb]

end

end MultiMap
