import PingoraGuide.Lib.Act
/-!
# Pipelines of hooks

Hooks are called on a state one after the other, until one of them does not let the pipeline go on.

| here | meaning |
| --- | --- |
| `Visit`             | one call: the hook, the state it is called on, its answer |
| `visits`, `final`   | the calls of a pipeline in order, and the state they leave |
| `UpToFirst`         | the hooks called are those up to and including the first that ends the pipeline |
| `visits_keeps`      | the invariant rule: every hook is called on a state with the invariant |
| `final_logs`        | a log that each call extends ends with the calls of the pipeline |
| `untilStop_snd`     | a loop that stops (`Act.untilStop`) runs a pipeline |
-/
namespace Pipeline
open Fallible

variable {σ ι ο ο' ε δ α : Type}

structure Visit (σ ι ο : Type) where
  hook : ι
  before : σ
  out : ο

def visits (go : ο → Bool) (call : ι → σ → ο × σ) : List ι → σ → List (Visit σ ι ο)
  | [], _ => []
  | x :: xs, s =>
    ⟨x, s, (call x s).1⟩ :: if go (call x s).1 then visits go call xs (call x s).2 else []

def final (go : ο → Bool) (call : ι → σ → ο × σ) : List ι → σ → σ
  | [], s => s
  | x :: xs, s => if go (call x s).1 then final go call xs (call x s).2 else (call x s).2

/-- The hooks called are those of `order` from the first up to and including the first whose answer
does not let the pipeline go on. -/
structure UpToFirst (go : ο → Bool) (order : List ι) (called : List (Visit σ ι ο)) : Prop where
  inOrder : called.map Visit.hook <+: order
  before : ∀ v ∈ called.dropLast, go v.out = true
  last : called.length < order.length → ∃ v, called.getLast? = some v ∧ go v.out = false

section
variable {go : ο → Bool} {call : ι → σ → ο × σ}

theorem visits_upToFirst (order : List ι) (s : σ) :
    UpToFirst go order (visits go call order s) := by
  induction order generalizing s with
  | nil => exact ⟨by simp [visits], by simp [visits], by simp [visits]⟩
  | cons x xs ih =>
    unfold visits
    by_cases hgo : go (call x s).1 = true
    · obtain ⟨hord, hbefore, hlast⟩ := ih (call x s).2
      rw [if_pos hgo]
      cases hrest : visits go call xs (call x s).2 with
      | nil =>
        rw [hrest] at hlast
        refine ⟨by simp, by simp, ?_⟩
        intro hlt
        obtain ⟨v, hv, -⟩ := hlast (by simpa using hlt)
        simp at hv
      | cons v rest =>
        rw [hrest] at hord hbefore hlast
        refine ⟨by simpa using hord, ?_, ?_⟩
        · intro w hw
          rw [List.dropLast_cons_of_ne_nil (by simp)] at hw
          rcases List.mem_cons.1 hw with rfl | hw
          · exact hgo
          · exact hbefore w hw
        · intro hlt
          obtain ⟨w, hw, hstop⟩ := hlast (by simpa using hlt)
          exact ⟨w, by simpa using hw, hstop⟩
    · rw [if_neg hgo]
      refine ⟨by simp, by simp, fun _ => ⟨_, rfl, by simpa using hgo⟩⟩

/-- **The invariant rule.** -/
theorem visits_keeps {I : σ → Prop} {order : List ι} {s : σ}
    (h : ∀ x ∈ order, ∀ s, I s → I (call x s).2) (hs : I s) :
    (∀ v ∈ visits go call order s, I v.before) ∧ I (final go call order s) := by
  induction order generalizing s with
  | nil => exact ⟨by simp [visits], hs⟩
  | cons x xs ih =>
    have hx := h x (by simp) s hs
    obtain ⟨hrest, hfinal⟩ := ih (fun y hy => h y (by simp [hy])) hx
    unfold visits final
    by_cases hgo : go (call x s).1 = true
    · rw [if_pos hgo, if_pos hgo]
      refine ⟨?_, hfinal⟩
      intro v hv
      rcases List.mem_cons.1 hv with rfl | hv
      · exact hs
      · exact hrest v hv
    · rw [if_neg hgo, if_neg hgo]
      refine ⟨?_, hx⟩
      intro v hv
      obtain rfl := List.mem_singleton.1 hv
      exact hs

/-- What one hook establishes and all keep holds at the end of a pipeline that goes through. -/
theorem final_establishes {I : σ → Prop} {order : List ι} {s : σ} {x : ι} (hx : x ∈ order)
    (hest : ∀ s, I (call x s).2) (hkeep : ∀ y ∈ order, ∀ s, I s → I (call y s).2)
    (hgo : ∀ v ∈ visits go call order s, go v.out = true) : I (final go call order s) := by
  induction order generalizing s with
  | nil => simp at hx
  | cons y ys ih =>
    unfold visits at hgo
    unfold final
    have hy : go (call y s).1 = true := hgo ⟨y, s, (call y s).1⟩ (by simp)
    rw [if_pos hy] at hgo ⊢
    have hkeep' : ∀ z ∈ ys, ∀ s, I s → I (call z s).2 := fun z hz => hkeep z (by simp [hz])
    rcases List.mem_cons.1 hx with rfl | hx
    · exact (visits_keeps hkeep' (hest s)).2
    · exact ih hx hkeep' fun v hv => hgo v (by simp [hv])

theorem final_logs (L : σ → List α) (entry : ι → ο → α)
    (h : ∀ x s, L (call x s).2 = L s ++ [entry x (call x s).1]) (order : List ι) (s : σ) :
    L (final go call order s) =
      L s ++ (visits go call order s).map fun v => entry v.hook v.out := by
  induction order generalizing s with
  | nil => simp [final, visits]
  | cons x xs ih =>
    unfold visits final
    by_cases hgo : go (call x s).1 = true
    · simp [hgo, ih, h]
    · simp [hgo, h]

/-- The same pipeline seen through other answers. -/
theorem final_relabel {go' : ο' → Bool} {call' : ι → σ → ο' × σ} (φ : ο → ο')
    (hcall : ∀ x s, call' x s = (φ (call x s).1, (call x s).2)) (hgo : ∀ o, go' (φ o) = go o)
    (order : List ι) (s : σ) : final go' call' order s = final go call order s := by
  induction order generalizing s with
  | nil => rfl
  | cons x xs ih => simp only [final, hcall, hgo, ih]

end

/-! ## Loops that stop -/

def goesOn (stop : δ → Bool) : Res ε δ → Bool
  | .ok d => !stop d
  | _ => false

theorem untilStop_snd (stop : δ → Bool) (done : δ) (f : ι → Act σ ε δ) (xs : List ι) (s : σ) :
    (Act.untilStop stop done (xs.map f) s).2 = final (goesOn stop) f xs s := by
  induction xs generalizing s with
  | nil => rfl
  | cons x xs ih =>
    rcases hx : f x s with ⟨d | e | msg, s'⟩
    · have hrun : Act.untilStop stop done ((x :: xs).map f) s =
          (if stop d then pure d else Act.untilStop stop done (xs.map f) : Act σ ε δ) s' :=
        Act.bind_of_ok hx
      rw [hrun, Act.ite_run]
      cases hd : stop d with
      | true => simp [final, hx, goesOn, hd]
      | false => simpa [final, hx, goesOn, hd] using ih s'
    · have hrun : Act.untilStop stop done ((x :: xs).map f) s = (.err e, s') := Act.bind_of_err hx
      rw [hrun]
      simp [final, hx, goesOn]
    · have hrun : Act.untilStop stop done ((x :: xs).map f) s = (.panic msg, s') :=
        Act.bind_of_panic hx
      rw [hrun]
      simp [final, hx, goesOn]

end Pipeline
