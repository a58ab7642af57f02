import PingoraGuide.Lib.Tasks
/-!
# A value behind a readers-writer lock

Any number of readers copy the value, any number of writers change it in several steps. What is
proved: a copy is never taken in the middle of a writer's section. It is what whole sections left,
one after the other, and every section that had begun when the reader asked is among them.

| here | meaning |
| --- | --- |
| `Shared`       | the value, the guards that are out, and (for the statements) what each section left |
| `Client`       | one reader or writer; a reader notes how many sections had begun when it asked |
| `lock`         | all of them, in any interleaving |
| `Locked`       | the invariant: who excludes whom, and what value, copies and open sections are |
| `past_keeps`   | what every section that is over keeps holds of the value after each of them |
| `got_fresh`    | a reader copies what the sections begun before it asked have left, or later ones |
-/
namespace RwLock
variable {V W α : Type}

/-- The steps of a section, one after the other. -/
def apply (fs : List (V → V)) (v : V) : V := fs.foldl (fun v f => f v) v

structure Shared (V : Type) where
  value : V
  readers : Int := 0
  writers : Int := 0
  committed : List V := []

/-- The number of sections that are over or open. -/
def Shared.begun (g : Shared V) : Nat := g.committed.length + g.writers.toNat

inductive Role (W : Type) where
  | read
  | write (w : W)
  /-- never comes to the lock -/
  | pass
deriving DecidableEq

inductive Client (V W : Type) where
  | reader
  | waiting (since : Nat)
  | reading (since : Nat)
  | copied (since : Nat) (v : V)
  /-- the guard is dropped -/
  | got (since : Nat) (v : V)
  | writer (w : W)
  | writing (w : W) (rest : List (V → V))
  /-- it was the `n`-th section -/
  | left (w : W) (n : Nat)
  | passed

def Role.client : Role W → Client V W
  | .read => .reader
  | .write w => .writer w
  | .pass => .passed

inductive Op where
  | ask | enter | work | leave

def step (body : W → List (V → V)) (g : Shared V) : Client V W → Op → Option (Shared V × Client V W)
  | .reader, .ask => some (g, .waiting g.begun)
  | .waiting n, .enter =>
    if g.writers = 0 then some ({ g with readers := g.readers + 1 }, .reading n) else none
  | .reading n, .work => some (g, .copied n g.value)
  | .copied n v, .leave => some ({ g with readers := g.readers - 1 }, .got n v)
  | .writer w, .enter =>
    if g.writers = 0 ∧ g.readers = 0 then
      some ({ g with writers := g.writers + 1 }, .writing w (body w))
    else none
  | .writing w (f :: rest), .work => some ({ g with value := f g.value }, .writing w rest)
  | .writing w [], .leave =>
    some ({ g with writers := g.writers - 1, committed := g.committed ++ [g.value] },
      .left w (g.committed.length + 1))
  | _, _ => none

def lock (V : Type) (role : α → Role W) (body : W → List (V → V)) :
    Tasks.System (Shared V) (Client V W) α Op where
  init a := (role a).client
  act := step body

/-! ## The guards that are out -/

def Client.Reads : Client V W → Prop
  | .reading _ | .copied _ _ => True
  | _ => False

def Client.Writes : Client V W → Prop
  | .writing _ _ => True
  | _ => False

instance (c : Client V W) : Decidable c.Reads := by
  cases c <;> simp only [Client.Reads] <;> infer_instance

instance (c : Client V W) : Decidable c.Writes := by
  cases c <;> simp only [Client.Writes] <;> infer_instance

/-- What each step does to the guards and to the value. -/
inductive Steps (body : W → List (V → V)) (g : Shared V) : Client V W → Shared V → Client V W → Prop
  | ask : Steps body g .reader g (.waiting g.begun)
  | enterRead (n : Nat) (h : g.writers = 0) :
      Steps body g (.waiting n) { g with readers := g.readers + 1 } (.reading n)
  | copy (n : Nat) : Steps body g (.reading n) g (.copied n g.value)
  | leaveRead (n : Nat) (v : V) :
      Steps body g (.copied n v) { g with readers := g.readers - 1 } (.got n v)
  | enterWrite (w : W) (h : g.writers = 0) (h' : g.readers = 0) :
      Steps body g (.writer w) { g with writers := g.writers + 1 } (.writing w (body w))
  | work (w : W) (f : V → V) (rest : List (V → V)) :
      Steps body g (.writing w (f :: rest)) { g with value := f g.value } (.writing w rest)
  | leaveWrite (w : W) : Steps body g (.writing w [])
      { g with writers := g.writers - 1, committed := g.committed ++ [g.value] }
      (.left w (g.committed.length + 1))

section Step
variable {body : W → List (V → V)} {g g' : Shared V} {c c' : Client V W} {x : Op}

theorem steps_of_step (h : step body g c x = some (g', c')) : Steps body g c g' c' := by
  unfold step at h
  split at h
  case h_2 | h_5 =>
    split at h
    · obtain ⟨rfl, rfl⟩ := Prod.mk.inj (Option.some.inj h)
      constructor <;> simp_all
    · cases h
  case h_8 => cases h
  all_goals
    obtain ⟨rfl, rfl⟩ := Prod.mk.inj (Option.some.inj h)
    constructor

/-- Readers and writers book their guards in the lock. -/
theorem steps_books (h : Steps body g c g' c') :
    g'.readers + (if c.Reads then 1 else 0) = g.readers + (if c'.Reads then 1 else 0) ∧
      g'.writers + (if c.Writes then 1 else 0) = g.writers + if c'.Writes then 1 else 0 := by
  cases h <;> simp [Client.Reads, Client.Writes]

end Step

variable {role : α → Role W} {body : W → List (V → V)} {ms is : List (Tasks.Move α Op)}
  {s s' : Tasks.State (Shared V) (Client V W)} {v₀ v : V}

theorem lock_invariant : (lock V role body).Invariant (fun _ => True) fun _ _ => True where
  spawn := fun _ _ _ => trivial
  act := fun _ _ _ _ _ _ _ _ => ⟨trivial, trivial⟩
  frame := fun _ _ _ _ _ _ _ _ _ _ => trivial

/-- The numbers of guards that are out. -/
structure Counted (s : Tasks.State (Shared V) (Client V W)) : Prop where
  readers : s.shared.readers = s.tasks.countP fun c => decide c.Reads
  writers : s.shared.writers = s.tasks.countP fun c => decide c.Writes

theorem counted (h : (lock V role body).run { value := v₀ } ms = some s) : Counted s := by
  have hinit : ∀ r : Role W, ¬ (r.client : Client V W).Reads ∧ ¬ (r.client : Client V W).Writes := by
    rintro (_ | w | _) <;> simp [Role.client, Client.Reads, Client.Writes]
  constructor
  · have hcount := lock_invariant.counted (m := fun g : Shared V => g.readers) Client.Reads
      (fun a => (hinit (role a)).1)
      (fun _ _ _ _ _ _ _ hx => (steps_books (steps_of_step hx)).1) trivial h
    simpa using hcount
  · have hcount := lock_invariant.counted (m := fun g : Shared V => g.writers) Client.Writes
      (fun a => (hinit (role a)).2)
      (fun _ _ _ _ _ _ _ hx => (steps_books (steps_of_step hx)).2) trivial h
    simpa using hcount

/-! ## The invariant -/

/-- What the first section found, then what each section left. -/
def Shared.past (v₀ : V) (g : Shared V) : List V := v₀ :: g.committed

/-- What the last section left. -/
def Shared.last (v₀ : V) (g : Shared V) : V := g.committed.getLast?.getD v₀

theorem Shared.past_last (v₀ : V) (g : Shared V) :
    (g.past v₀)[g.committed.length]? = some (g.last v₀) := by
  cases hc : g.committed.reverse with
  | nil => simp [past, last, List.reverse_eq_nil_iff.1 hc]
  | cons v l =>
    have hsplit : g.committed = l.reverse ++ [v] := by simpa using congrArg List.reverse hc
    simp [past, last, hsplit]

/-- What a client knows of the sections that have begun. -/
def Knows (body : W → List (V → V)) (v₀ : V) (g : Shared V) : Client V W → Prop
  | .waiting n => n ≤ g.begun
  | .reading n => n ≤ g.committed.length
  | .copied n v | .got n v => ∃ k, n ≤ k ∧ (g.past v₀)[k]? = some v
  | .writing w rest => apply rest g.value = apply (body w) (g.last v₀)
  | _ => True

structure Locked (body : W → List (V → V)) (v₀ : V) (s : Tasks.State (Shared V) (Client V W)) :
    Prop where
  excludes : s.shared.writers = 0 ∨ s.shared.writers = 1 ∧ s.shared.readers = 0
  quiet : s.shared.writers = 0 → s.shared.value = s.shared.last v₀
  /-- each section that is over has gone on from what the one before left -/
  sections : ∀ k v, (s.shared.past v₀)[k + 1]? = some v → ∃ w u, .left w (k + 1) ∈ s.tasks ∧
    (s.shared.past v₀)[k]? = some u ∧ v = apply (body w) u
  knows : ∀ c ∈ s.tasks, Knows body v₀ s.shared c

section Step
variable {g g' : Shared V} {c c' : Client V W}

/-- While a reader has its guard no section is open. -/
theorem Locked.quiet_of_reads (hl : Locked body v₀ s) (hn : Counted s) (hc : c ∈ s.tasks)
    (hr : c.Reads) : s.shared.writers = 0 := by
  have hpos : 0 < s.tasks.countP fun c => decide c.Reads :=
    List.countP_pos_iff.2 ⟨c, hc, by simpa using hr⟩
  have hreaders := hn.readers
  have hex := hl.excludes
  omega

theorem Locked.open_of_writes (hl : Locked body v₀ s) (hn : Counted s) (hc : c ∈ s.tasks)
    (hw : c.Writes) : s.shared.writers = 1 := by
  have hpos : 0 < s.tasks.countP fun c => decide c.Writes :=
    List.countP_pos_iff.2 ⟨c, hc, by simpa using hw⟩
  have hwriters := hn.writers
  have hex := hl.excludes
  omega

/-- The sections that are over stay what they were. -/
theorem steps_committed (h : Steps body g c g' c') : g.committed <+: g'.committed := by
  cases h <;> simp

theorem steps_past (h : Steps body g c g' c') {k : Nat} (hk : (g.past v₀)[k]? = some v) :
    (g'.past v₀)[k]? = some v := by
  obtain ⟨more, hmore⟩ := steps_committed h
  rw [Shared.past, ← hmore, ← List.cons_append]
  exact List.getElem?_append_left (List.getElem?_eq_some_iff.1 hk).1 ▸ hk

/-- A section that ends was open, so no section is ever forgotten. -/
theorem steps_begun (h : Steps body g c g' c') (hopen : c.Writes → g.writers = 1) :
    g.begun ≤ g'.begun := by
  cases h with
  | leaveWrite w =>
    have hone : g.writers = 1 := hopen trivial
    simp [Shared.begun, hone]
  | enterWrite w hw hr => simp [Shared.begun, hw]
  | _ => exact Nat.le_refl _

/-- A step leaves to the other clients what they know, as no two of them write. -/
theorem knows_frame {u : Client V W} (h : Steps body g c g' c')
    (hopen : c.Writes → g.writers = 1) (hother : c.Writes → ¬ u.Writes)
    (hu : Knows body v₀ g u) : Knows body v₀ g' u := by
  cases u with
  | waiting n => exact Nat.le_trans hu (steps_begun h hopen)
  | reading n => exact Nat.le_trans hu (steps_committed h).length_le
  | copied n u | got n u =>
    obtain ⟨k, hn, hk⟩ := hu
    exact ⟨k, hn, steps_past h hk⟩
  | writing w rest =>
    cases h with
    | work w' f rest' => exact absurd trivial (hother trivial)
    | leaveWrite w' => exact absurd trivial (hother trivial)
    | _ => exact hu
  | _ => trivial

/-- What a client knows after its own step. -/
theorem knows_act (h : Steps body g c g' c') (hread : c.Reads → g.writers = 0)
    (hquiet : g.writers = 0 → g.value = g.last v₀) (hc : Knows body v₀ g c) :
    Knows body v₀ g' c' := by
  cases h with
  | ask => exact Nat.le_refl _
  | enterRead n hw =>
    have hn : n ≤ g.begun := hc
    simpa [Knows, Shared.begun, hw] using hn
  | copy n =>
    refine ⟨g.committed.length, hc, ?_⟩
    rw [Shared.past_last, hquiet (hread trivial)]
  | leaveRead n v => exact hc
  | enterWrite w hw hr => exact congrArg (apply (body w)) (hquiet hw)
  | work w f rest => exact hc
  | leaveWrite w => trivial

/-- A step adds at most the section of its own client. -/
theorem steps_sections (h : Steps body g c g' c') (hc : Knows body v₀ g c) {k : Nat}
    (hk : (g'.past v₀)[k]? = some v) :
    (g.past v₀)[k]? = some v ∨ ∃ w u, c' = .left w k ∧ 0 < k ∧
      (g.past v₀)[k - 1]? = some u ∧ v = apply (body w) u := by
  cases h with
  | leaveWrite w =>
    have hvalue : g.value = apply (body w) (g.last v₀) := hc
    rw [Shared.past, ← List.cons_append, List.getElem?_append] at hk
    split at hk
    · exact .inl hk
    · rename_i hlen
      obtain rfl : k = g.committed.length + 1 := by
        have hk' := (List.getElem?_eq_some_iff.1 hk).1
        simp at hk' hlen
        omega
      refine .inr ⟨w, g.last v₀, rfl, by omega, g.past_last v₀, ?_⟩
      rw [← hvalue]
      simpa using hk.symm
  | _ => exact .inl hk

/-- One step of one client keeps the lock in order. -/
theorem locked_act {pre post : List (Client V W)} (h : Steps body g c g' c')
    (hn : Counted ⟨g, pre ++ c :: post⟩) (hl : Locked body v₀ ⟨g, pre ++ c :: post⟩) :
    Locked body v₀ ⟨g', pre ++ c' :: post⟩ := by
  have hread : c.Reads → g.writers = 0 := hl.quiet_of_reads hn (by simp)
  have hopen : c.Writes → g.writers = 1 := hl.open_of_writes hn (by simp)
  -- a second writer would make the count two
  have hother : c.Writes → ∀ u ∈ pre ++ post, ¬ u.Writes := fun hc u hu hw => by
    have hone := hopen hc
    have hwriters : g.writers = (pre ++ c :: post).countP fun c => decide c.Writes := hn.writers
    have hu' : 0 < (pre ++ post).countP fun c => decide c.Writes :=
      List.countP_pos_iff.2 ⟨u, hu, by simpa using hw⟩
    rw [List.countP_append, List.countP_cons, if_pos (by simpa using hc)] at hwriters
    rw [List.countP_append] at hu'
    omega
  -- a section that is over stays with the client that left it
  have hleft : ∀ w n, .left w n ∈ pre ++ c :: post → .left w n ∈ pre ++ c' :: post := by
    intro w n hw
    have hcases : .left w n ∈ pre ∨ .left w n = c ∨ .left w n ∈ post := by simpa using hw
    rcases hcases with hw | rfl | hw
    · simp [hw]
    · cases h
    · simp [hw]
  obtain ⟨hex, hquiet, hsections, hknows⟩ := hl
  have hc : Knows body v₀ g c := hknows c (by simp)
  refine ⟨?_, ?_, fun k v hk => ?_, fun u hu => ?_⟩
  · cases h with
    | enterRead n hw => exact .inl hw
    | leaveRead n v => exact .inl (hread trivial)
    | enterWrite w hw hr => exact .inr ⟨by simp [hw], hr⟩
    | leaveWrite w => exact .inl (by simp [hopen trivial])
    | _ => exact hex
  · cases h with
    | enterWrite w hw hr => simp [hw]
    | work w f rest => simp [hopen trivial]
    | leaveWrite w => simp [Shared.last]
    | _ => exact hquiet
  · rcases steps_sections h hc hk with hk | ⟨w, u, rfl, -, hu, hv⟩
    · obtain ⟨w, u, hw, hu, hv⟩ := hsections k v hk
      exact ⟨w, u, hleft w _ hw, steps_past h hu, hv⟩
    · exact ⟨w, u, by simp, steps_past h hu, hv⟩
  · have hu' : u = c' ∨ u ∈ pre ++ post := by simpa [or_left_comm] using hu
    rcases hu' with rfl | hu'
    · exact knows_act h hread hquiet hc
    · refine knows_frame h hopen (fun hw => hother hw u hu') (hknows u ?_)
      rcases List.mem_append.1 hu' with hu' | hu' <;> simp [hu']

end Step

/-- The lock is in order in every interleaving. -/
theorem locked (h : (lock V role body).run { value := v₀ } ms = some s) : Locked body v₀ s := by
  refine Tasks.System.run_under (F := Counted) (fun ms s => counted)
    ⟨.inl rfl, fun _ => rfl, by simp [Shared.past], by simp⟩ ?_ h
  intro s m s' hn _ hl hstep
  rcases Tasks.System.step_cases hstep with ⟨a, -, rfl⟩ | ⟨x, pre, c, post, g', c', -, hs, hx, rfl⟩
  · refine ⟨hl.excludes, hl.quiet, fun k v hk => ?_, fun c hc => ?_⟩
    · obtain ⟨w, u, hw, hrest⟩ := hl.sections k v hk
      exact ⟨w, u, List.mem_append_left _ hw, hrest⟩
    · rcases List.mem_append.1 hc with hc | hc
      · exact hl.knows c hc
      · obtain rfl := List.mem_singleton.1 hc
        show Knows body v₀ s.shared (role a).client
        cases role a <;> trivial
  · obtain ⟨g, tasks⟩ := s
    obtain rfl : tasks = pre ++ c :: post := hs
    exact locked_act (steps_of_step hx) hn hl

/-! ## Who wrote, and what a copy is -/

/-- The writer that a client is. -/
def Client.WritesAs (w : W) : Client V W → Prop
  | .writer u | .writing u _ | .left u _ => u = w
  | _ => False

theorem steps_writesAs {g g' : Shared V} {c c' : Client V W} {w : W} (h : Steps body g c g' c')
    (hc : c'.WritesAs w) : c.WritesAs w := by
  cases h <;> exact hc

/-- The sections that are over are those of writers that the run has started. -/
theorem left_spawned {w : W} {n : Nat} (h : (lock V role body).run { value := v₀ } ms = some s)
    (hw : .left w n ∈ s.tasks) : ∃ a, .spawn a ∈ ms ∧ role a = .write w := by
  refine Tasks.System.tasks_from (T := fun c : Client V W => c.WritesAs w →
    ∃ a, .spawn a ∈ ms ∧ role a = .write w) (fun a ha hc => ⟨a, ha, ?_⟩)
    (fun g c x g' c' hc hx hc' => hc (steps_writesAs (steps_of_step hx) hc')) h _ hw rfl
  change (role a).client.WritesAs w at hc
  cases hr : role a with
  | write u =>
    rw [hr] at hc
    exact congrArg Role.write hc
  | read | pass =>
    rw [hr] at hc
    exact hc.elim

/-- What every section that is over keeps holds of the value after each of them, though no single
step of a section need keep it. -/
theorem past_keeps {J : Nat → V → Prop} (hl : Locked body v₀ s) (h₀ : J 0 v₀)
    (hJ : ∀ w k u, .left w (k + 1) ∈ s.tasks → J k u → J (k + 1) (apply (body w) u)) {k : Nat}
    (hk : (s.shared.past v₀)[k]? = some v) : J k v := by
  induction k generalizing v with
  | zero =>
    obtain rfl : v₀ = v := by simpa [Shared.past] using hk
    exact h₀
  | succ k ih =>
    obtain ⟨w, u, hw, hu, rfl⟩ := hl.sections k v hk
    exact hJ w k u hw (ih hu)

/-- A reader that had not asked when `n` sections had begun. -/
def Client.Since (n : Nat) : Client V W → Prop
  | .reader => True
  | .waiting m | .reading m | .copied m _ | .got m _ => n ≤ m
  | _ => False

theorem steps_since {g g' : Shared V} {c c' : Client V W} {n : Nat} (h : Steps body g c g' c')
    (hn : n ≤ g.begun) (hc : c.Since n) : c'.Since n := by
  cases h with
  | ask => exact hn
  | _ => exact hc

/-- A reader copies what the sections begun before it asked have left, or later ones. -/
theorem got_fresh {j n : Nat} (h : (lock V role body).run { value := v₀ } ms = some s)
    (hj : s.tasks[j]? = some .reader) (h' : Trace.run (lock V role body).step s is = some s')
    (hgot : s'.tasks[j]? = some (.got n v)) :
    ∃ k, s.shared.begun ≤ k ∧ (s'.shared.past v₀)[k]? = some v := by
  have hinv := Trace.run_always (I := fun t =>
    (∃ ms, (lock V role body).run { value := v₀ } ms = some t) ∧
    s.shared.begun ≤ t.shared.begun ∧ ∃ c, t.tasks[j]? = some c ∧ c.Since s.shared.begun) ?_
    ⟨⟨ms, h⟩, Nat.le_refl _, _, hj, trivial⟩ h'
  · obtain ⟨⟨ms', hrun⟩, -, c, hc, hsince⟩ := hinv
    obtain rfl : Client.got n v = c := Option.some.inj (hgot.symm.trans hc)
    obtain ⟨k, hk, hv⟩ := (locked hrun).knows _ (List.mem_of_getElem? hc)
    exact ⟨k, Nat.le_trans hsince hk, hv⟩
  · rintro t m t' ⟨⟨ms', hrun⟩, hbegun, c, hc, hsince⟩ hstep
    refine ⟨⟨ms' ++ [m], Tasks.System.run_concat hrun hstep⟩, ?_⟩
    rcases Tasks.System.step_at hstep hc with ⟨hshared, hsame⟩ | ⟨x, g', c', hx, hshared, hnew⟩ |
        ⟨x, d, g', d', hd, hx, hshared, hsame⟩
    · rw [hshared]
      exact ⟨hbegun, c, hsame, hsince⟩
    · have hs : Steps body t.shared c g' c' := steps_of_step hx
      have hopen := (locked hrun).open_of_writes (counted hrun) (List.mem_of_getElem? hc)
      rw [hshared]
      exact ⟨hbegun.trans (steps_begun hs hopen), c', hnew, steps_since hs hbegun hsince⟩
    · have hs : Steps body t.shared d g' d' := steps_of_step hx
      have hopen := (locked hrun).open_of_writes (counted hrun) hd
      rw [hshared]
      exact ⟨hbegun.trans (steps_begun hs hopen), c, hsame, hsince⟩

end RwLock
