import Mathlib.Logic.Basic
import Mathlib.Data.List.Basic
/-!
# Fallible calls over a mutable state

A call that borrows a state `σ` mutably ends with a value, with an `Err` that the caller sees, or
in a panic that unwinds the task; whatever it wrote to the state stays written in all three cases.

| here | meaning |
| --- | --- |
| `Res`         | how a call ends |
| `Act`         | a call: the state before to the end and the state after |
| `Act.attempt` | look at an `Err` instead of propagating it (`match x.await { Ok(..) => .., Err(..) => .. }`) |
| `Act.zoom`    | run a call that borrows one part of the state |
| `untilStop`   | `for x in xs { if stop(x()?) { return .. } }` |
| `Keeps`       | the invariant rule: a property of the state survives the call, however it ends |
| `Avoids`      | the panic rule: a call never panics with a given message |
-/
namespace Fallible

inductive Res (ε α : Type) where
  | ok (a : α)
  | err (e : ε)
  | panic (msg : String)
deriving DecidableEq, Repr

namespace Res
variable {ε ε' α β : Type}

def bind : Res ε α → (α → Res ε β) → Res ε β
  | .ok a, f => f a
  | .err e, _ => .err e
  | .panic m, _ => .panic m

instance : Monad (Res ε) where
  pure := .ok
  bind := bind

def mapErr (f : ε → ε') : Res ε α → Res ε' α
  | .ok a => .ok a
  | .err e => .err (f e)
  | .panic m => .panic m

/-- `Option::expect`. -/
def expect (msg : String) : Option α → Res ε α
  | some a => .ok a
  | none => .panic msg

@[simp] theorem pure_eq (a : α) : (pure a : Res ε α) = .ok a := rfl
@[simp] theorem ok_bind (a : α) (f : α → Res ε β) : (Res.ok a >>= f) = f a := rfl
@[simp] theorem err_bind (e : ε) (f : α → Res ε β) : (Res.err e >>= f) = .err e := rfl
@[simp] theorem panic_bind (m : String) (f : α → Res ε β) : (Res.panic m >>= f) = .panic m := rfl

theorem bind_eq_ok {x : Res ε α} {f : α → Res ε β} {b : β} :
    (x >>= f) = .ok b ↔ ∃ a, x = .ok a ∧ f a = .ok b := by
  cases x <;> simp

@[simp] theorem expect_eq_ok {msg : String} {o : Option α} {a : α} :
    (expect msg o : Res ε α) = .ok a ↔ o = some a := by
  cases o <;> simp [expect]

@[simp] theorem mapErr_eq_ok {f : ε → ε'} {x : Res ε α} {a : α} :
    x.mapErr f = .ok a ↔ x = .ok a := by
  cases x <;> simp [mapErr]

@[simp] theorem mapErr_eq_panic {f : ε → ε'} {x : Res ε α} {m : String} :
    x.mapErr f = .panic m ↔ x = .panic m := by
  cases x <;> simp [mapErr]

end Res

def Act (σ ε α : Type) : Type := σ → Res ε α × σ

namespace Act
variable {σ τ ε ε' α β δ : Type}

def bind (x : Act σ ε α) (f : α → Act σ ε β) : Act σ ε β := fun s =>
  match x s with
  | (.ok a, s') => f a s'
  | (.err e, s') => (.err e, s')
  | (.panic m, s') => (.panic m, s')

instance : Monad (Act σ ε) where
  pure a := fun s => (.ok a, s)
  bind := bind

def get : Act σ ε σ := fun s => (.ok s, s)
def modify (f : σ → σ) : Act σ ε Unit := fun s => (.ok (), f s)
def throw (e : ε) : Act σ ε α := fun s => (.err e, s)

/-- A call that does not touch the state. -/
def ofRes (r : Res ε α) : Act σ ε α := fun s => (r, s)

def mapErr (f : ε → ε') (x : Act σ ε α) : Act σ ε' α := fun s => ((x s).1.mapErr f, (x s).2)

def attempt (x : Act σ ε α) : Act σ ε' (Except ε α) := fun s =>
  match x s with
  | (.ok a, s') => (.ok (.ok a), s')
  | (.err e, s') => (.ok (.error e), s')
  | (.panic m, s') => (.panic m, s')

/-- `x.unwrap_or(d)`. -/
def unwrapOr (d : α) (x : Act σ ε α) : Act σ ε' α := fun s =>
  match x s with
  | (.ok a, s') => (.ok a, s')
  | (.err _, s') => (.ok d, s')
  | (.panic m, s') => (.panic m, s')

def zoom (view : σ → τ) (put : σ → τ → σ) (x : Act τ ε α) : Act σ ε α := fun s =>
  ((x (view s)).1, put s (x (view s)).2)

/-- The calls in order, up to and including the first whose value stops the loop. -/
def untilStop (stop : δ → Bool) (done : δ) : List (Act σ ε δ) → Act σ ε δ
  | [] => pure done
  | x :: xs => do
    let d ← x
    if stop d then pure d else untilStop stop done xs

/-! ## Running -/

@[simp] theorem pure_run (a : α) (s : σ) : (pure a : Act σ ε α) s = (.ok a, s) := rfl
@[simp] theorem get_run (s : σ) : (get : Act σ ε σ) s = (.ok s, s) := rfl
@[simp] theorem modify_run (f : σ → σ) (s : σ) : (modify f : Act σ ε Unit) s = (.ok (), f s) := rfl
@[simp] theorem throw_run (e : ε) (s : σ) : (throw e : Act σ ε α) s = (.err e, s) := rfl
@[simp] theorem ofRes_run (r : Res ε α) (s : σ) : (ofRes r : Act σ ε α) s = (r, s) := rfl
@[simp] theorem zoom_run (view : σ → τ) (put : σ → τ → σ) (x : Act τ ε α) (s : σ) :
    zoom view put x s = ((x (view s)).1, put s (x (view s)).2) := rfl
@[simp] theorem mapErr_run (f : ε → ε') (x : Act σ ε α) (s : σ) :
    mapErr f x s = ((x s).1.mapErr f, (x s).2) := rfl

theorem bind_of_ok {x : Act σ ε α} {f : α → Act σ ε β} {s s' : σ} {a : α}
    (h : x s = (.ok a, s')) : (x >>= f) s = f a s' := by
  show bind x f s = _
  simp [bind, h]

theorem bind_of_err {x : Act σ ε α} {f : α → Act σ ε β} {s s' : σ} {e : ε}
    (h : x s = (.err e, s')) : (x >>= f) s = (.err e, s') := by
  show bind x f s = _
  simp [bind, h]

theorem bind_of_panic {x : Act σ ε α} {f : α → Act σ ε β} {s s' : σ} {m : String}
    (h : x s = (.panic m, s')) : (x >>= f) s = (.panic m, s') := by
  show bind x f s = _
  simp [bind, h]

/-- The three ways a sequence of two calls can go. -/
theorem bind_cases (x : Act σ ε α) (f : α → Act σ ε β) (s : σ) :
    (∃ a s', x s = (.ok a, s') ∧ (x >>= f) s = f a s') ∨
    (∃ e s', x s = (.err e, s') ∧ (x >>= f) s = (.err e, s')) ∨
    (∃ m s', x s = (.panic m, s') ∧ (x >>= f) s = (.panic m, s')) := by
  rcases h : x s with ⟨a | e | m, s'⟩
  · exact .inl ⟨a, s', rfl, bind_of_ok h⟩
  · exact .inr (.inl ⟨e, s', rfl, bind_of_err h⟩)
  · exact .inr (.inr ⟨m, s', rfl, bind_of_panic h⟩)

theorem bind_eq_ok {x : Act σ ε α} {f : α → Act σ ε β} {s s'' : σ} {b : β} :
    (x >>= f) s = (.ok b, s'') ↔ ∃ a s', x s = (.ok a, s') ∧ f a s' = (.ok b, s'') := by
  rcases bind_cases x f s with ⟨a, s', h, h'⟩ | ⟨e, s', h, h'⟩ | ⟨m, s', h, h'⟩ <;>
    simp [h, h']

@[simp] theorem pure_bind_eq (a : α) (f : α → Act σ ε β) : (pure a >>= f) = f a := rfl
@[simp] theorem get_bind_run (f : σ → Act σ ε β) (s : σ) : (get >>= f) s = f s s := rfl
@[simp] theorem modify_bind_run (g : σ → σ) (f : Unit → Act σ ε β) (s : σ) :
    (modify g >>= f) s = f () (g s) := rfl
@[simp] theorem throw_bind_run (e : ε) (f : α → Act σ ε β) (s : σ) :
    (throw e >>= f) s = (.err e, s) := rfl

/-- A pure continuation maps the value of a call. -/
theorem bind_pure_fst (x : Act σ ε α) (f : α → β) (s : σ) (b : β) :
    ((x >>= fun a => pure (f a)) s).1 = .ok b ↔ ∃ a, (x s).1 = .ok a ∧ f a = b := by
  rcases bind_cases x (fun a => pure (f a)) s with ⟨a, s', h, h'⟩ | ⟨e, s', h, h'⟩ | ⟨m, s', h, h'⟩ <;>
    simp [h, h']

theorem bind_pure_snd (x : Act σ ε α) (f : α → β) (s : σ) :
    ((x >>= fun a => pure (f a)) s).2 = (x s).2 := by
  rcases bind_cases x (fun a => pure (f a)) s with ⟨a, s', h, h'⟩ | ⟨e, s', h, h'⟩ | ⟨m, s', h, h'⟩ <;>
    simp [h, h']

/-- A continuation that only decides how to end leaves the state. -/
theorem bind_frame_snd {x : Act σ ε α} {f : α → Act σ ε β} (hf : ∀ a s, (f a s).2 = s) (s : σ) :
    ((x >>= f) s).2 = (x s).2 := by
  rcases bind_cases x f s with ⟨a, s', h, h'⟩ | ⟨e, s', h, h'⟩ | ⟨m, s', h, h'⟩ <;>
    simp [h, h', hf]

theorem attempt_of_ok {x : Act σ ε α} {s s' : σ} {a : α} (h : x s = (.ok a, s')) :
    (attempt x : Act σ ε' _) s = (.ok (.ok a), s') := by
  simp [attempt, h]

theorem attempt_of_err {x : Act σ ε α} {s s' : σ} {e : ε} (h : x s = (.err e, s')) :
    (attempt x : Act σ ε' _) s = (.ok (.error e), s') := by
  simp [attempt, h]

theorem ite_run {p : Prop} [Decidable p] (x y : Act σ ε α) (s : σ) :
    (if p then x else y) s = if p then x s else y s := by
  split <;> rfl

/-- Where one value alone lets a loop go on, the loop ends with it when all its calls do. -/
theorem untilStop_cons_eq_ok {stop : δ → Bool} {done d : δ} {x : Act σ ε δ}
    {xs : List (Act σ ε δ)} {s : σ} (hd : ∀ d', stop d' = false ↔ d' = d) :
    (untilStop stop done (x :: xs) s).1 = .ok d ↔
      (x s).1 = .ok d ∧ (untilStop stop done xs (x s).2).1 = .ok d := by
  rcases hx : x s with ⟨a | e | m, s'⟩
  · have hrun : untilStop stop done (x :: xs) s =
        (if stop a then pure a else untilStop stop done xs : Act σ ε δ) s' := bind_of_ok hx
    rw [hrun, ite_run]
    have hne : stop d = false := (hd d).2 rfl
    cases ha : stop a with
    | true =>
      have : a ≠ d := by
        rintro rfl
        rw [ha] at hne
        cases hne
      simp [this]
    | false => simp [(hd a).1 ha]
  · have hrun : untilStop stop done (x :: xs) s = (.err e, s') := bind_of_err hx
    simp [hrun]
  · have hrun : untilStop stop done (x :: xs) s = (.panic m, s') := bind_of_panic hx
    simp [hrun]

/-- A loop over calls that never return `Err` never does. -/
theorem untilStop_ne_err {stop : δ → Bool} {done : δ} {xs : List (Act σ ε δ)}
    (h : ∀ x ∈ xs, ∀ s e, (x s).1 ≠ .err e) (s : σ) (e : ε) :
    (untilStop stop done xs s).1 ≠ .err e := by
  induction xs generalizing s with
  | nil => simp [untilStop]
  | cons x xs ih =>
    have hx := h x (by simp) s e
    have ih := fun s => ih (fun y hy => h y (by simp [hy])) s
    rcases bind_cases x (fun d => if stop d then pure d else untilStop stop done xs) s with
      ⟨a, s', -, h'⟩ | ⟨e', s', hr, h'⟩ | ⟨m, s', -, h'⟩ <;> rw [untilStop, h']
    · rw [ite_run]
      split
      · simp
      · exact ih s'
    · rw [hr] at hx
      exact hx
    · simp

theorem unwrapOr_ne_err (d : α) (x : Act σ ε α) (s : σ) (e : ε') :
    (unwrapOr d x s : Res ε' α × σ).1 ≠ .err e := by
  unfold unwrapOr
  rcases x s with ⟨a | e' | m, s'⟩ <;> nofun

/-! ## The invariant rule -/

/-- `I` survives `x`, however `x` ends. -/
def Keeps (I : σ → Prop) (x : Act σ ε α) : Prop := ∀ s, I s → I (x s).2

namespace Keeps
variable {I : σ → Prop} {x : Act σ ε α}

theorem pure (a : α) : Keeps I (Pure.pure a : Act σ ε α) := fun _ h => h
theorem throw (e : ε) : Keeps I (Act.throw e : Act σ ε α) := fun _ h => h
theorem get : Keeps I (Act.get : Act σ ε σ) := fun _ h => h
theorem ofRes (r : Res ε α) : Keeps I (Act.ofRes r : Act σ ε α) := fun _ h => h

theorem modify {f : σ → σ} (h : ∀ s, I s → I (f s)) : Keeps I (Act.modify f : Act σ ε Unit) := h

theorem bind {f : α → Act σ ε β} (hx : Keeps I x) (hf : ∀ a, Keeps I (f a)) :
    Keeps I (x >>= f) := by
  intro s hs
  have hx' := hx s hs
  rcases bind_cases x f s with ⟨a, s', h, h'⟩ | ⟨e, s', h, h'⟩ | ⟨m, s', h, h'⟩ <;>
    rw [h] at hx' <;> rw [h']
  · exact hf a s' hx'
  · exact hx'
  · exact hx'

theorem ite {p : Prop} [Decidable p] {y : Act σ ε α} (hx : Keeps I x) (hy : Keeps I y) :
    Keeps I (if p then x else y) := by
  split
  · exact hx
  · exact hy

theorem mapErr {f : ε → ε'} (hx : Keeps I x) : Keeps I (Act.mapErr f x) := hx

theorem attempt (hx : Keeps I x) : Keeps I (Act.attempt x : Act σ ε' _) := by
  intro s hs
  have hx' := hx s hs
  unfold Act.attempt
  rcases h : x s with ⟨a | e | m, s'⟩ <;> rw [h] at hx' <;> exact hx'

theorem unwrapOr {d : α} (hx : Keeps I x) : Keeps I (Act.unwrapOr d x : Act σ ε' _) := by
  intro s hs
  have hx' := hx s hs
  unfold Act.unwrapOr
  rcases h : x s with ⟨a | e | m, s'⟩ <;> rw [h] at hx' <;> exact hx'

theorem zoom {view : σ → τ} {put : σ → τ → σ} {y : Act τ ε α}
    (h : ∀ s, I s → I (put s (y (view s)).2)) : Keeps I (Act.zoom view put y) := h

/-- A loop keeps what each of its calls keeps. -/
theorem untilStop {stop : δ → Bool} {done : δ} {xs : List (Act σ ε δ)}
    (h : ∀ x ∈ xs, Keeps I x) : Keeps I (Act.untilStop stop done xs) := by
  induction xs with
  | nil => exact .pure done
  | cons x xs ih =>
    have hrest : Keeps I (Act.untilStop stop done xs) := ih fun y hy => h y (by simp [hy])
    exact Keeps.bind (h x (by simp)) fun d => Keeps.ite (.pure d) hrest

end Keeps

/-! ## The panic rule -/

/-- `x` never panics with this message. -/
def Avoids (msg : String) (x : Act σ ε α) : Prop := ∀ s, (x s).1 ≠ .panic msg

namespace Avoids
variable {msg : String} {x : Act σ ε α}

/-- A call that always returns `Ok`. -/
theorem ok (h : ∀ s, ∃ a, (x s).1 = .ok a) : Avoids msg x := by
  intro s
  obtain ⟨a, ha⟩ := h s
  simp [ha]

theorem pure (a : α) : Avoids msg (Pure.pure a : Act σ ε α) := .ok fun _ => ⟨a, rfl⟩
theorem throw (e : ε) : Avoids msg (Act.throw e : Act σ ε α) := fun _ => by simp
theorem get : Avoids msg (Act.get : Act σ ε σ) := .ok fun s => ⟨s, rfl⟩
theorem modify (f : σ → σ) : Avoids msg (Act.modify f : Act σ ε Unit) := .ok fun _ => ⟨(), rfl⟩
theorem ofRes {r : Res ε α} (h : r ≠ .panic msg) : Avoids msg (Act.ofRes r : Act σ ε α) := fun _ => h

theorem bind {f : α → Act σ ε β} (hx : Avoids msg x) (hf : ∀ a, Avoids msg (f a)) :
    Avoids msg (x >>= f) := by
  intro s
  rcases bind_cases x f s with ⟨a, s', -, h'⟩ | ⟨e, s', -, h'⟩ | ⟨m, s', h, h'⟩ <;> rw [h']
  · exact hf a s'
  · nofun
  · have := hx s
    rw [h] at this
    simpa using this

theorem ite {p : Prop} [Decidable p] {y : Act σ ε α} (hx : Avoids msg x) (hy : Avoids msg y) :
    Avoids msg (if p then x else y) := by
  split
  · exact hx
  · exact hy

theorem mapErr {f : ε → ε'} (hx : Avoids msg x) : Avoids msg (Act.mapErr f x) :=
  fun s h => hx s (Res.mapErr_eq_panic.1 h)

theorem unwrapOr {d : α} (hx : Avoids msg x) : Avoids msg (Act.unwrapOr d x : Act σ ε' _) := by
  intro s
  have hx' := hx s
  unfold Act.unwrapOr
  rcases h : x s with ⟨a | e | m, s'⟩ <;> rw [h] at hx'
  · nofun
  · nofun
  · simpa using hx'

theorem untilStop {stop : δ → Bool} {done : δ} {xs : List (Act σ ε δ)}
    (h : ∀ x ∈ xs, Avoids msg x) : Avoids msg (Act.untilStop stop done xs) := by
  induction xs with
  | nil => exact .pure done
  | cons x xs ih =>
    have hrest : Avoids msg (Act.untilStop stop done xs) := ih fun y hy => h y (by simp [hy])
    exact Avoids.bind (h x (by simp)) fun d => Avoids.ite (.pure d) hrest

end Avoids

end Act

end Fallible
