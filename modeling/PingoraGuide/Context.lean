import Mathlib.Logic.Function.Basic
import PingoraGuide.Lib.Act
/-!
# `GatewayContext`: one value per type

`ι` stands for the Rust types a context can hold, `El t` for the values of the type `t`;
`TypeId::of` is injective, so a type is its own `TypeId`.

| here | there |
| --- | --- |
| `AnyBox`, `downcast`     | `Box<dyn Any>`, `downcast`, `downcast_ref`, `downcast_mut` |
| `RawContext`             | the `state` map of `GatewayContext` (src/context.rs:31-34) |
| `insert` ... `exists`    | context.rs:43-73; `modify` is `get_mut` with an update through the reference |
| `RawContext.Keyed`       | every box holds a value of the type it is stored under |
| `GatewayContext`         | a context as other modules can build it: `state` is private, so it is keyed |

`GatewayContext.get_insert` and its neighbours say that a keyed context is one independent
optional cell per type: each operation is `Function.update` on the cells.
-/
namespace PingoraGuide
open Fallible

variable {ι : Type} [DecidableEq ι] {El : ι → Type} {ε : Type}

structure AnyBox (El : ι → Type) where
  typeId : ι
  val : El typeId

def AnyBox.downcast (b : AnyBox El) (t : ι) : Option (El t) :=
  if h : b.typeId = t then some (h ▸ b.val) else none

@[simp] theorem AnyBox.downcast_mk (t : ι) (v : El t) : (AnyBox.mk t v).downcast t = some v := by
  simp [downcast]

theorem AnyBox.downcast_isSome {b : AnyBox El} {t : ι} (h : b.typeId = t) :
    ∃ v, b = ⟨t, v⟩ ∧ b.downcast t = some v := by
  subst h
  exact ⟨b.val, rfl, by simp [downcast]⟩

structure RawContext (El : ι → Type) where
  state : ι → Option (AnyBox El)

namespace RawContext

def new : RawContext El := ⟨fun _ => none⟩

def put (c : RawContext El) (t : ι) (b : Option (AnyBox El)) : RawContext El :=
  ⟨Function.update c.state t b⟩

/-- The box taken out of the map, as `insert` and `remove` hand it back. -/
def unbox (t : ι) : Option (AnyBox El) → Res ε (Option (El t))
  | none => .ok none
  | some b => (Res.expect "GatewayContext: TypeId mismatch" (b.downcast t)).bind (.ok ∘ some)

def insert (t : ι) (v : El t) : Act (RawContext El) ε (Option (El t)) := fun c =>
  (unbox t (c.state t), c.put t (some ⟨t, v⟩))

def get (c : RawContext El) (t : ι) : Option (El t) := (c.state t).bind (·.downcast t)

def modify (c : RawContext El) (t : ι) (f : El t → El t) : RawContext El :=
  match c.get t with
  | some v => c.put t (some ⟨t, f v⟩)
  | none => c

def remove (t : ι) : Act (RawContext El) ε (Option (El t)) := fun c =>
  (unbox t (c.state t), c.put t none)

def «exists» (c : RawContext El) (t : ι) : Bool := (c.state t).isSome

def Keyed (c : RawContext El) : Prop := ∀ t b, c.state t = some b → b.typeId = t

omit [DecidableEq ι] in
theorem keyed_new : (new : RawContext El).Keyed := by simp [Keyed, new]

theorem Keyed.put {c : RawContext El} (h : c.Keyed) (t : ι) {b : Option (AnyBox El)}
    (hb : ∀ x, b = some x → x.typeId = t) : (c.put t b).Keyed := by
  intro t' x hx
  by_cases ht : t' = t
  · subst ht
    exact hb x (by simpa [RawContext.put] using hx)
  · exact h t' x (by simpa [RawContext.put, ht] using hx)

theorem Keyed.modify {c : RawContext El} (h : c.Keyed) (t : ι) (f : El t → El t) :
    (c.modify t f).Keyed := by
  unfold RawContext.modify
  split
  · exact h.put t (by rintro x hx; cases hx; rfl)
  · exact h

/-- In a keyed context the `expect` of `insert` and `remove` succeeds, with what `get` sees. -/
theorem Keyed.unbox {c : RawContext El} (h : c.Keyed) (t : ι) :
    unbox t (c.state t) = (.ok (c.get t) : Res ε _) := by
  unfold RawContext.unbox RawContext.get
  cases hs : c.state t with
  | none => rfl
  | some b =>
    obtain ⟨v, rfl, hv⟩ := AnyBox.downcast_isSome (h t b hs)
    simp [Res.expect, Res.bind]

theorem Keyed.exists_eq {c : RawContext El} (h : c.Keyed) (t : ι) :
    c.exists t = (c.get t).isSome := by
  unfold RawContext.exists RawContext.get
  cases hs : c.state t with
  | none => rfl
  | some b =>
    obtain ⟨v, rfl, hv⟩ := AnyBox.downcast_isSome (h t b hs)
    simp

theorem get_put (c : RawContext El) (t : ι) (b : Option (AnyBox El)) :
    (c.put t b).get = Function.update c.get t (b.bind (·.downcast t)) := by
  funext t'
  by_cases ht : t' = t
  · subst ht
    simp [get, put]
  · simp [get, put, ht]

theorem get_modify (c : RawContext El) (t : ι) (f : El t → El t) :
    (c.modify t f).get = Function.update c.get t ((c.get t).map f) := by
  unfold RawContext.modify
  split
  · rename_i v h
    simp [get_put, h]
  · rename_i h
    rw [h, Option.map_none, ← h, Function.update_eq_self]

end RawContext

/-! ## Keyed contexts -/

structure GatewayContext (El : ι → Type) where
  raw : RawContext El
  keyed : raw.Keyed

namespace GatewayContext

def new : GatewayContext El := ⟨.new, RawContext.keyed_new⟩

def get (c : GatewayContext El) (t : ι) : Option (El t) := c.raw.get t

def insert (c : GatewayContext El) (t : ι) (v : El t) : GatewayContext El :=
  ⟨(RawContext.insert (ε := Empty) t v c.raw).2, c.keyed.put t (by rintro x hx; cases hx; rfl)⟩

def modify (c : GatewayContext El) (t : ι) (f : El t → El t) : GatewayContext El :=
  ⟨c.raw.modify t f, c.keyed.modify t f⟩

def remove (c : GatewayContext El) (t : ι) : GatewayContext El :=
  ⟨(RawContext.remove (ε := Empty) t c.raw).2, c.keyed.put t (by simp)⟩

@[simp] theorem get_new (t : ι) : (new : GatewayContext El).get t = none := rfl

theorem get_insert (c : GatewayContext El) (t : ι) (v : El t) :
    (c.insert t v).get = Function.update c.get t (some v) := by
  show (c.raw.put t (some ⟨t, v⟩)).get = _
  rw [RawContext.get_put]
  simp
  rfl

theorem get_modify (c : GatewayContext El) (t : ι) (f : El t → El t) :
    (c.modify t f).get = Function.update c.get t ((c.get t).map f) :=
  c.raw.get_modify t f

@[simp] theorem get_insert_self (c : GatewayContext El) (t : ι) (v : El t) :
    (c.insert t v).get t = some v := by
  simp [get_insert]

theorem get_insert_ne (c : GatewayContext El) {t t' : ι} (v : El t) (h : t' ≠ t) :
    (c.insert t v).get t' = c.get t' := by
  simp [get_insert, h]

@[simp] theorem get_modify_self (c : GatewayContext El) (t : ι) (f : El t → El t) :
    (c.modify t f).get t = (c.get t).map f := by
  simp [get_modify]

theorem get_modify_ne (c : GatewayContext El) {t t' : ι} (f : El t → El t) (h : t' ≠ t) :
    (c.modify t f).get t' = c.get t' := by
  simp [get_modify, h]

end GatewayContext

end PingoraGuide
