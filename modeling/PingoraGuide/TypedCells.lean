import PingoraGuide.Context
import PingoraGuide.Lib.Cells
/-!
# A context is one optional cell per type

`RawContext.serve` answers the five operations of `GatewayContext` (src/context.rs:43-73), on any type.
`serve_keyed` is the step: in a keyed context no `expect` fails, and only the cell of the type in
question changes. The runs follow by `Cells.Serves.run`.
-/
namespace PingoraGuide
open Fallible Cells

variable {ι : Type} [DecidableEq ι] {El : ι → Type} {ε : Type}

namespace RawContext

def serve (t : ι) : CellOp (El t) → Act (RawContext El) ε (Seen (El t))
  | .insert v => do
    let old ← insert t v
    pure (.value old)
  | .get => fun c => (.ok (.value (c.get t)), c)
  | .getMut f => fun c => (.ok (.value (c.get t)), c.modify t f)
  | .remove => do
    let old ← remove t
    pure (.value old)
  | .exists => fun c => (.ok (.held (c.exists t)), c)

theorem insert_keyed {c : RawContext El} (h : c.Keyed) (t : ι) (v : El t) :
    (insert t v : Act _ ε _) c = (.ok (c.get t), c.put t (some ⟨t, v⟩)) := by
  unfold insert
  rw [h.unbox]

theorem remove_keyed {c : RawContext El} (h : c.Keyed) (t : ι) :
    (remove t : Act _ ε _) c = (.ok (c.get t), c.put t none) := by
  unfold remove
  rw [h.unbox]

/-- One operation on a keyed context. -/
theorem serve_keyed :
    Serves (serve : (t : ι) → CellOp (El t) → Act (RawContext El) ε _) Keyed get := by
  intro c h t op
  cases op with
  | insert v =>
    refine ⟨c.put t (some ⟨t, v⟩), ?_, h.put t (by rintro x ⟨⟩; rfl), ?_⟩
    · exact Act.bind_of_ok (insert_keyed h t v)
    · simp [get_put, CellOp.after]
  | remove =>
    refine ⟨c.put t none, ?_, h.put t (by simp), ?_⟩
    · exact Act.bind_of_ok (remove_keyed h t)
    · simp [get_put, CellOp.after]
  | getMut f => exact ⟨c.modify t f, rfl, h.modify t f, c.get_modify t f⟩
  | get => exact ⟨c, rfl, h, (Function.update_eq_self t c.get).symm⟩
  | «exists» =>
    refine ⟨c, ?_, h, (Function.update_eq_self t c.get).symm⟩
    show (Res.ok (Seen.held (c.exists t)), c) = _
    rw [h.exists_eq]
    rfl

end RawContext

/-- **The typed context.** Whatever the operations and the types, no `expect` of `GatewayContext`
fails, every box stays under the type of its value, and each type is a cell of its own: its callers
see the value last stored and updated, and nothing of the other types. -/
theorem typed_context (rs : List (Request El)) :
    ∃ answers c, (runAll RawContext.serve rs .new : Res ε (List (Answer El)) × _) = (.ok answers, c) ∧
      c.Keyed ∧ ∀ t, on t answers = seenAll (on t rs) none ∧
        (∀ v, c.get t = some v ↔ LastStored (on t rs) v) ∧ c.exists t = (c.get t).isSome := by
  obtain ⟨answers, c, hrun, hkeyed, hcells⟩ :=
    (RawContext.serve_keyed (ε := ε)).run RawContext.keyed_new rs
  refine ⟨answers, c, hrun, hkeyed, fun t => ?_⟩
  obtain ⟨hanswers, hleft⟩ := hcells t
  refine ⟨hanswers, fun v => ?_, hkeyed.exists_eq t⟩
  rw [hleft]
  exact left_eq_some

end PingoraGuide
