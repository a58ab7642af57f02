import Mathlib.Data.List.Basic
/-!
# Runs of a transition system

`step : σ → ι → Option σ` takes a state by a label to the next state, `none` where the label cannot
be taken.

| here | meaning |
| --- | --- |
| `run`       | the labels one after the other |
| `Guarded`   | a condition on state and label holds at every step of the run |
| `run_keeps` | the invariant rule: what every guarded step keeps, every guarded run keeps |
| `run_mem`   | a run passes through each of its labels |
| `accepted`  | the labels up to the first that cannot be taken |
| `total`     | what the steps of a run weigh together |
| `total_le`  | the accounting rule: a potential that grows by at least the weight of each step bounds the total |
-/
namespace Trace
variable {σ ι : Type} {step : σ → ι → Option σ} {is js : List ι} {s s' : σ}

def run (step : σ → ι → Option σ) (s : σ) : List ι → Option σ
  | [] => some s
  | i :: is => (step s i).bind fun s' => run step s' is

def Guarded (step : σ → ι → Option σ) (ok : σ → ι → Prop) (s : σ) : List ι → Prop
  | [] => True
  | i :: is => ok s i ∧ ∀ s', step s i = some s' → Guarded step ok s' is

@[simp] theorem run_nil : run step s [] = some s' ↔ s = s' := by simp [run]

theorem run_cons {i : ι} :
    run step s (i :: is) = some s' ↔ ∃ s1, step s i = some s1 ∧ run step s1 is = some s' := by
  simp only [run, Option.bind_eq_some_iff]

theorem run_append : run step s (is ++ js) = (run step s is).bind fun s1 => run step s1 js := by
  induction is generalizing s with
  | nil => rfl
  | cons i is ih =>
    simp only [List.cons_append, run, ih, Option.bind_assoc]

theorem run_mem {i : ι} (hi : i ∈ is) (h : run step s is = some s') :
    ∃ js ks s1 s2, is = js ++ i :: ks ∧ run step s js = some s1 ∧ step s1 i = some s2 ∧
      run step s2 ks = some s' := by
  obtain ⟨js, ks, rfl⟩ := List.append_of_mem hi
  rw [run_append, Option.bind_eq_some_iff] at h
  obtain ⟨s1, h1, h⟩ := h
  obtain ⟨s2, h2, h⟩ := run_cons.1 h
  exact ⟨js, ks, s1, s2, rfl, h1, h2, h⟩

/-- A condition on the labels alone. -/
theorem Guarded.of_labels {P : ι → Prop} (h : ∀ i ∈ is, P i) :
    Guarded step (fun _ i => P i) s is := by
  induction is generalizing s with
  | nil => trivial
  | cons i is ih => exact ⟨h i (by simp), fun s1 _ => ih fun j hj => h j (by simp [hj])⟩

/-- A guarded run, then a guarded run from wherever it ended. -/
theorem Guarded.append {ok : σ → ι → Prop} (his : Guarded step ok s is)
    (hjs : ∀ s1, run step s is = some s1 → Guarded step ok s1 js) : Guarded step ok s (is ++ js) := by
  induction is generalizing s with
  | nil => exact hjs s rfl
  | cons i is ih =>
    refine ⟨his.1, fun s1 h1 => ih (his.2 s1 h1) fun s2 h2 => hjs s2 ?_⟩
    exact run_cons.2 ⟨s1, h1, h2⟩

/-- **The invariant rule.** -/
theorem run_keeps {I : σ → Prop} {ok : σ → ι → Prop}
    (hstep : ∀ s i s', I s → ok s i → step s i = some s' → I s') (hs : I s)
    (hok : Guarded step ok s is) (h : run step s is = some s') : I s' := by
  induction is generalizing s with
  | nil => exact run_nil.1 h ▸ hs
  | cons i is ih =>
    obtain ⟨s1, h1, h⟩ := run_cons.1 h
    exact ih (hstep s i s1 hs hok.1 h1) (hok.2 s1 h1) h

/-- Without a condition. -/
theorem run_always {I : σ → Prop} (hstep : ∀ s i s', I s → step s i = some s' → I s') (hs : I s)
    (h : run step s is = some s') : I s' := by
  have htrue : Guarded step (fun _ _ => True) s is := .of_labels fun _ _ => trivial
  exact run_keeps (fun s i s' hI _ => hstep s i s' hI) hs htrue h

/-! ## How far a run gets -/

def accepted (step : σ → ι → Option σ) (s : σ) : List ι → List ι
  | [] => []
  | i :: is => (step s i).elim [] fun s' => i :: accepted step s' is

/-- The first labels are accepted exactly when they are a run. -/
theorem prefix_accepted (hjs : js <+: is) :
    js <+: accepted step s is ↔ (run step s js).isSome := by
  induction is generalizing s js with
  | nil =>
    obtain rfl := List.prefix_nil.1 hjs
    simp [run]
  | cons i is ih =>
    cases js with
    | nil => simp [run]
    | cons j js =>
      obtain ⟨rfl, htail⟩ := List.cons_prefix_cons.1 hjs
      cases hstep : step s j with
      | none => simp [accepted, run, hstep]
      | some s' => simpa [accepted, run, hstep] using ih htail

theorem accepted_prefix : accepted step s is <+: is := by
  induction is generalizing s with
  | nil => exact List.prefix_rfl
  | cons i is ih =>
    cases hstep : step s i with
    | none => simp [accepted, hstep]
    | some s' => simpa [accepted, hstep] using ih

/-! ## Weights -/

def total (step : σ → ι → Option σ) (w : σ → ι → Nat) (s : σ) : List ι → Nat
  | [] => 0
  | i :: is => w s i + ((step s i).map fun s' => total step w s' is).getD 0

theorem total_cons {w : σ → ι → Nat} {i : ι} (h : step s i = some s') :
    total step w s (i :: is) = w s i + total step w s' is := by
  simp [total, h]

/-- **The accounting rule.** -/
theorem total_le {I : σ → Prop} {ok : ι → Prop} {w : σ → ι → Nat} {Φ : σ → Nat}
    (hstep : ∀ s i s', I s → ok i → step s i = some s' → I s' ∧ Φ s + w s i ≤ Φ s')
    (hs : I s) (hok : ∀ i ∈ is, ok i) (h : run step s is = some s') :
    Φ s + total step w s is ≤ Φ s' := by
  induction is generalizing s with
  | nil =>
    obtain rfl := run_nil.1 h
    exact Nat.le_refl _
  | cons i is ih =>
    obtain ⟨s1, h1, h⟩ := run_cons.1 h
    obtain ⟨hs1, hpay⟩ := hstep s i s1 hs (hok i (by simp)) h1
    have hrest := ih hs1 (fun j hj => hok j (by simp [hj])) h
    rw [total_cons h1]
    omega

end Trace
