import Mathlib.Data.List.Induction
import Mathlib.Logic.Function.Basic
import PingoraGuide.Lib.Act
/-!
# Stores of one optional cell per type

`El t` are the values of the type `t`. A store answers operations on the cell of any type, in any
order; it is right when each type behaves as a cell of its own.

| here | meaning |
| --- | --- |
| `CellOp`, `Seen`      | an operation on one cell, and what its caller sees |
| `seen`, `after`       | the cell's answer and what the operation leaves in it |
| `seenAll`, `left`     | the same for a list of operations |
| `LastStored`          | a value was inserted, not overwritten or removed since, and updated since |
| `on`                  | the part of a list that concerns one type |
| `runAll`              | a list of operations on a store |
| `Serves`              | the refinement, one operation at a time |
| `Serves.run`          | the run rule: each type sees its own cell, whatever the other types do |
-/
namespace Cells
open Fallible

inductive CellOp (α : Type) where
  | insert (v : α)
  | get
  /-- a mutable reference, written through by `f` -/
  | getMut (f : α → α)
  | remove
  | «exists»

inductive Seen (α : Type) where
  | value (v : Option α)
  | held (b : Bool)
deriving DecidableEq, Repr

section Cell
variable {α : Type} {ops ops' : List (CellOp α)} {op : CellOp α} {v w : α}

def CellOp.seen : CellOp α → Option α → Seen α
  | .exists, c => .held c.isSome
  | _, c => .value c

def CellOp.after : CellOp α → Option α → Option α
  | .insert v, _ => some v
  | .getMut f, c => c.map f
  | .remove, _ => none
  | .get, c | .exists, c => c

def left (ops : List (CellOp α)) (c : Option α) : Option α := ops.foldl (fun c op => op.after c) c

def seenAll : List (CellOp α) → Option α → List (Seen α)
  | [], _ => []
  | op :: ops, c => op.seen c :: seenAll ops (op.after c)

@[simp] theorem left_nil (c : Option α) : left [] c = c := rfl

@[simp] theorem left_cons (op : CellOp α) (ops : List (CellOp α)) (c : Option α) :
    left (op :: ops) c = left ops (op.after c) := rfl

@[simp] theorem left_concat (ops : List (CellOp α)) (op : CellOp α) (c : Option α) :
    left (ops ++ [op]) c = op.after (left ops c) := by
  simp [left]

/-! ## The value last stored -/

/-- The operation stores nothing new and takes nothing out. -/
def CellOp.Rests : CellOp α → Prop
  | .insert _ | .remove => False
  | .get | .getMut _ | .exists => True

/-- What becomes of a stored value. -/
def CellOp.update : CellOp α → α → α
  | .getMut f => f
  | _ => id

/-- `v` is the value last inserted, with every update made since. -/
def LastStored (ops : List (CellOp α)) (v : α) : Prop :=
  ∃ before w since, ops = before ++ .insert w :: since ∧ (∀ op ∈ since, op.Rests) ∧
    since.foldl (fun v op => op.update v) w = v

theorem LastStored.of_insert : LastStored (ops ++ [.insert v]) v := ⟨ops, v, [], by simp⟩

theorem LastStored.concat (h : LastStored ops v) (hop : op.Rests) :
    LastStored (ops ++ [op]) (op.update v) := by
  obtain ⟨before, w, since, rfl, hrests, rfl⟩ := h
  refine ⟨before, w, since ++ [op], by simp, ?_, by simp⟩
  intro op' hop'
  rcases List.mem_append.1 hop' with hop' | hop'
  · exact hrests op' hop'
  · obtain rfl := List.mem_singleton.1 hop'
    exact hop

/-- The last operation inserted the value or rested on it. -/
theorem LastStored.of_concat (h : LastStored (ops ++ [op]) v) :
    op = .insert v ∨ op.Rests ∧ ∃ w, LastStored ops w ∧ op.update w = v := by
  obtain ⟨before, w, since, hops, hrests, rfl⟩ := h
  rcases since.eq_nil_or_concat' with rfl | ⟨since, last, rfl⟩
  · obtain ⟨-, hlast⟩ := List.append_inj' hops rfl
    exact .inl (List.singleton_inj.1 hlast)
  · rw [← List.cons_append, ← List.append_assoc] at hops
    obtain ⟨hfront, hlast⟩ := List.append_inj' hops rfl
    obtain rfl := List.singleton_inj.1 hlast
    refine .inr ⟨hrests _ (by simp), _, ⟨before, w, since, hfront, ?_, rfl⟩, by simp⟩
    exact fun op' hop' => hrests op' (by simp [hop'])

/-- **A cell holds the value last stored in it.** -/
theorem left_eq_some : left ops none = some v ↔ LastStored ops v := by
  induction ops using List.reverseRecOn generalizing v with
  | nil =>
    constructor
    · intro h
      cases h
    · rintro ⟨before, w, since, h, -⟩
      simp at h
  | append_singleton ops op ih =>
    rw [left_concat]
    constructor
    · intro h
      cases op with
      | insert w =>
        cases h
        exact .of_insert
      | getMut f =>
        obtain ⟨w, hw, rfl⟩ := Option.map_eq_some_iff.1 h
        exact (ih.1 hw).concat trivial
      | remove => cases h
      | get | «exists» => exact (ih.1 h).concat trivial
    · intro h
      rcases h.of_concat with rfl | ⟨hop, w, hw, rfl⟩
      · rfl
      · have hleft := ih.2 hw
        cases op with
        | insert w => exact hop.elim
        | remove => exact hop.elim
        | get | getMut f | «exists» => simp [CellOp.after, CellOp.update, hleft]

end Cell

/-! ## Operations on many types -/

section On
variable {ι : Type} [DecidableEq ι] {F : ι → Type}

def on (t : ι) : List ((t : ι) × F t) → List (F t)
  | [] => []
  | x :: xs => if h : x.1 = t then (h ▸ x.2) :: on t xs else on t xs

@[simp] theorem on_nil (t : ι) : on t ([] : List ((t : ι) × F t)) = [] := rfl

@[simp] theorem on_cons_self (t : ι) (x : F t) (xs : List ((t : ι) × F t)) :
    on t (⟨t, x⟩ :: xs) = x :: on t xs := by
  simp [on]

theorem on_cons_ne {t : ι} {x : (t : ι) × F t} (h : x.1 ≠ t) (xs : List ((t : ι) × F t)) :
    on t (x :: xs) = on t xs := by
  simp [on, h]

end On

section Store
variable {ι : Type} [DecidableEq ι] {El : ι → Type} {σ ε : Type}

abbrev Request (El : ι → Type) := (t : ι) × CellOp (El t)

abbrev Answer (El : ι → Type) := (t : ι) × Seen (El t)

def runAll (serve : (t : ι) → CellOp (El t) → Act σ ε (Seen (El t))) :
    List (Request El) → Act σ ε (List (Answer El))
  | [] => pure []
  | r :: rs => do
    let seen ← serve r.1 r.2
    let answers ← runAll serve rs
    pure (⟨r.1, seen⟩ :: answers)

/-- On the stores with `I`, every operation ends well, answers as the cell of its type does, and
leaves in the cells what it leaves in that one. -/
def Serves (serve : (t : ι) → CellOp (El t) → Act σ ε (Seen (El t))) (I : σ → Prop)
    (cell : σ → (t : ι) → Option (El t)) : Prop :=
  ∀ s, I s → ∀ t op, ∃ s', serve t op s = (.ok (op.seen (cell s t)), s') ∧ I s' ∧
    cell s' = Function.update (cell s) t (op.after (cell s t))

variable {serve : (t : ι) → CellOp (El t) → Act σ ε (Seen (El t))} {I : σ → Prop}
  {cell : σ → (t : ι) → Option (El t)} {s : σ}

/-- **The types of a store are independent cells.** -/
theorem Serves.run (h : Serves serve I cell) (hs : I s) (rs : List (Request El)) :
    ∃ answers s', runAll serve rs s = (.ok answers, s') ∧ I s' ∧
      ∀ t, on t answers = seenAll (on t rs) (cell s t) ∧ cell s' t = left (on t rs) (cell s t) := by
  induction rs generalizing s with
  | nil => exact ⟨[], s, rfl, hs, fun _ => ⟨rfl, rfl⟩⟩
  | cons r rs ih =>
    obtain ⟨t, op⟩ := r
    obtain ⟨s1, hserve, hs1, hcell⟩ := h s hs t op
    obtain ⟨answers, s', hrun, hs', hall⟩ := ih hs1
    refine ⟨⟨t, op.seen (cell s t)⟩ :: answers, s', ?_, hs', ?_⟩
    · show (serve t op >>= _) s = _
      rw [Act.bind_of_ok hserve, Act.bind_of_ok hrun]
      rfl
    · intro t'
      obtain ⟨hanswers, hleft⟩ := hall t'
      by_cases ht : t = t'
      · subst ht
        rw [hcell, Function.update_self] at hanswers hleft
        simp only [on_cons_self, seenAll, left_cons]
        exact ⟨by rw [hanswers], hleft⟩
      · rw [hcell, Function.update_of_ne (Ne.symm ht)] at hanswers hleft
        rw [on_cons_ne ht, on_cons_ne ht]
        exact ⟨hanswers, hleft⟩

end Store

end Cells
