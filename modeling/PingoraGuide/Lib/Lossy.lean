import Mathlib.Algebra.GroupWithZero.Nat
import PingoraGuide.Lib.Text
/-!
# UTF-8, decoded whatever the bytes are

Each longest start of a character that the bytes then break off becomes one `U+FFFD`. No byte of a
longer character is lost without a trace: ASCII text is found in the decoded bytes exactly where
its bytes are.

| here | meaning |
| --- | --- |
| `Pending`       | a character begun: what its next byte may be, and that it will be one outside ASCII |
| `feed`          | one byte: the characters it completes, and what is pending after it |
| `fromUtf8Lossy` | all bytes |
| `infix_fromUtf8Lossy` | **ASCII text is in the decoded bytes exactly when its bytes are** |
-/
namespace Wire

/-- `need` more bytes follow the next one, which lies between `low` and `high`. -/
structure Pending where
  need : Nat
  point : Nat
  low : Nat
  high : Nat
  tail : 0x80 ≤ low
  /-- whatever the bytes will be, they make a character, and none of ASCII -/
  scalar : ∀ n, (64 * point + (low - 0x80)) * 64 ^ need ≤ n →
    n < (64 * point + (high - 0x80) + 1) * 64 ^ need → 128 ≤ n ∧ n.isValidChar

def replacement : Char := '\uFFFD'

/-- A byte between characters. -/
def first (b : UInt8) : List Char × Option Pending :=
  let n := b.toNat
  if n < 0x80 then ([chr b], none)
  else if h : 0xC2 ≤ n ∧ n ≤ 0xDF then
    ([], some ⟨0, n - 0xC0, 0x80, 0xBF, by decide, fun k => by simp only [Nat.isValidChar]; omega⟩)
  else if n = 0xE0 then
    ([], some ⟨1, 0, 0xA0, 0xBF, by decide, fun k => by simp only [Nat.isValidChar]; omega⟩)
  else if n = 0xED then
    ([], some ⟨1, 13, 0x80, 0x9F, by decide, fun k => by simp only [Nat.isValidChar]; omega⟩)
  else if h : 0xE1 ≤ n ∧ n ≤ 0xEC ∨ 0xEE ≤ n ∧ n ≤ 0xEF then
    ([], some ⟨1, n - 0xE0, 0x80, 0xBF, by decide, fun k => by simp only [Nat.isValidChar]; omega⟩)
  else if n = 0xF0 then
    ([], some ⟨2, 0, 0x90, 0xBF, by decide, fun k => by simp only [Nat.isValidChar]; omega⟩)
  else if h : 0xF1 ≤ n ∧ n ≤ 0xF3 then
    ([], some ⟨2, n - 0xF0, 0x80, 0xBF, by decide, fun k => by simp only [Nat.isValidChar]; omega⟩)
  else if n = 0xF4 then
    ([], some ⟨2, 4, 0x80, 0x8F, by decide, fun k => by simp only [Nat.isValidChar]; omega⟩)
  else ([replacement], none)

/-- The bits of the next byte join the point. -/
def Pending.join (p : Pending) (b : Nat) : Nat := 64 * p.point + (b - 0x80)

theorem Pending.join_scalar (p : Pending) {b : Nat} (h : p.low ≤ b ∧ b ≤ p.high) (n : Nat)
    (hlow : p.join b * 64 ^ p.need ≤ n) (hhigh : n < (p.join b + 1) * 64 ^ p.need) :
    128 ≤ n ∧ n.isValidChar := by
  unfold join at hlow hhigh
  refine p.scalar n (Nat.le_trans (Nat.mul_le_mul_right _ ?_) hlow)
    (Nat.lt_of_lt_of_le hhigh (Nat.mul_le_mul_right _ ?_))
  · omega
  · omega

/-- A byte that may follow. -/
def Pending.take (p : Pending) (b : Nat) (h : p.low ≤ b ∧ b ≤ p.high) : List Char × Option Pending :=
  match hneed : p.need with
  | 0 => ([Char.ofNat (p.join b)], none)
  | need + 1 => ([], some ⟨need, p.join b, 0x80, 0xBF, Nat.le_refl _, fun n hlow hhigh => by
      rw [Nat.mul_comm 64, Nat.sub_self, Nat.add_zero, Nat.mul_assoc, ← Nat.pow_succ'] at hlow
      have hnext : 64 * p.join b + (0xBF - 0x80) + 1 = (p.join b + 1) * 64 := by omega
      rw [hnext, Nat.mul_assoc, ← Nat.pow_succ'] at hhigh
      exact p.join_scalar h n (hneed ▸ hlow) (hneed ▸ hhigh)⟩)

def feed : Option Pending → UInt8 → List Char × Option Pending
  | none, b => first b
  | some p, b =>
    if h : p.low ≤ b.toNat ∧ b.toNat ≤ p.high then p.take b.toNat h
    else (replacement :: (first b).1, (first b).2)

def decode : Option Pending → Bytes → List Char
  | none, [] => []
  | some _, [] => [replacement]
  | p, b :: bs => (feed p b).1 ++ decode (feed p b).2 bs

def fromUtf8Lossy (bs : Bytes) : List Char := decode none bs

/-! ## What becomes of ASCII -/

theorem first_ascii {b : UInt8} (hb : b.toNat < 128) : first b = ([chr b], none) := if_pos hb

/-- No ASCII, and a character at once or one pending. -/
def Foreign (out : List Char × Option Pending) : Prop :=
  (∀ c ∈ out.1, 128 ≤ c.toNat) ∧ (out.1 ≠ [] ∨ out.2.isSome)

theorem first_foreign {b : UInt8} (hb : 128 ≤ b.toNat) : Foreign (first b) := by
  unfold first
  rw [if_neg (by omega)]
  split_ifs <;> simp [Foreign]
  decide

theorem Pending.take_foreign (p : Pending) {b : Nat} (h : p.low ≤ b ∧ b ≤ p.high) :
    Foreign (p.take b h) := by
  unfold take
  split
  · rename_i hneed
    obtain ⟨hascii, hvalid⟩ := p.join_scalar h (p.join b) (by simp [hneed]) (by simp [hneed])
    have hchar : (Char.ofNat (p.join b)).toNat = p.join b := by
      rw [Char.ofNat, dif_pos hvalid]
      rfl
    simp [Foreign, hchar, hascii]
  · simp [Foreign]

/-- A byte outside ASCII leaves no ASCII, wherever it comes. -/
theorem feed_foreign (p : Option Pending) {b : UInt8} (hb : 128 ≤ b.toNat) :
    Foreign (feed p b) := by
  cases p with
  | none => exact first_foreign hb
  | some p =>
    rw [feed]
    by_cases h : p.low ≤ b.toNat ∧ b.toNat ≤ p.high
    · rw [dif_pos h]
      exact p.take_foreign h
    · rw [dif_neg h]
      refine ⟨fun c hc => ?_, .inl (by simp)⟩
      rcases List.mem_cons.1 hc with rfl | hc
      · decide
      · exact (first_foreign hb).1 c hc

/-- An ASCII byte breaks off what is pending. -/
theorem feed_ascii (p : Pending) {b : UInt8} (hb : b.toNat < 128) :
    feed (some p) b = ([replacement, chr b], none) := by
  have hout : ¬ (p.low ≤ b.toNat ∧ b.toNat ≤ p.high) := by
    have htail := p.tail
    omega
  simp [feed, hout, first_ascii hb]

/-- What is pending becomes a character outside ASCII before anything else does. -/
theorem decode_pending (p : Pending) (bs : Bytes) :
    ∃ c cs, decode (some p) bs = c :: cs ∧ 128 ≤ c.toNat := by
  induction bs generalizing p with
  | nil => exact ⟨_, _, rfl, by decide⟩
  | cons b bs ih =>
    rcases Nat.lt_or_ge b.toNat 128 with hb | hb
    · exact ⟨_, _, by rw [decode, feed_ascii p hb]; rfl, by decide⟩
    · obtain ⟨hforeign, hsome⟩ := feed_foreign (some p) hb
      rw [decode]
      cases hout : (feed (some p) b).1 with
      | cons c cs => exact ⟨c, _, rfl, hforeign c (by simp [hout])⟩
      | nil =>
        obtain ⟨q, hq⟩ := Option.isSome_iff_exists.1 (hsome.resolve_left fun h => h hout)
        rw [hq]
        exact ih q

/-- The same of a byte outside ASCII between characters. -/
theorem decode_foreign {b : UInt8} (hb : 128 ≤ b.toNat) (bs : Bytes) :
    ∃ c cs, decode none (b :: bs) = c :: cs ∧ 128 ≤ c.toNat := by
  obtain ⟨hforeign, hsome⟩ := feed_foreign none hb
  rw [decode]
  cases hout : (feed none b).1 with
  | cons c cs => exact ⟨c, _, rfl, hforeign c (by simp [hout])⟩
  | nil =>
    obtain ⟨q, hq⟩ := Option.isSome_iff_exists.1 (hsome.resolve_left fun h => h hout)
    rw [hq]
    exact decode_pending q bs

theorem chr_inj {a b : UInt8} : chr a = chr b ↔ a = b := by
  rw [← Char.toNat_inj, chr_toNat, chr_toNat, UInt8.toNat_inj]

/-- ASCII text starts the decoded bytes exactly when its bytes start them. -/
theorem prefix_fromUtf8Lossy {w : Bytes} (hw : ∀ b ∈ w, b.toNat < 128) (bs : Bytes) :
    w.map chr <+: fromUtf8Lossy bs ↔ w <+: bs := by
  induction w generalizing bs with
  | nil => simp
  | cons a w ih =>
    have ha := hw a (by simp)
    cases bs with
    | nil => simp [fromUtf8Lossy, decode]
    | cons b bs =>
      rw [List.map_cons, List.cons_prefix_cons, ← ih fun x hx => hw x (by simp [hx])]
      rcases Nat.lt_or_ge b.toNat 128 with hb | hb
      · rw [fromUtf8Lossy, decode, feed, first_ascii hb, List.singleton_append,
          List.cons_prefix_cons, chr_inj]
        rfl
      · obtain ⟨c, cs, hdecode, hc⟩ := decode_foreign hb bs
        rw [fromUtf8Lossy, hdecode, List.cons_prefix_cons]
        refine iff_of_false ?_ ?_
        · rintro ⟨rfl, -⟩
          rw [chr_toNat] at hc
          omega
        · rintro ⟨rfl, -⟩
          omega

/-- Characters outside ASCII in front of a text add no place where ASCII is found. -/
theorem infix_append_foreign {w : Bytes} (hw : ∀ b ∈ w, b.toNat < 128) (hne : w ≠ [])
    {out : List Char} (hout : ∀ c ∈ out, 128 ≤ c.toNat) (cs : List Char) :
    w.map chr <:+: out ++ cs ↔ w.map chr <:+: cs := by
  induction out with
  | nil => rfl
  | cons c out ih =>
    obtain ⟨a, w', rfl⟩ := List.exists_cons_of_ne_nil hne
    have ha := hw a (by simp)
    have hc := hout c (by simp)
    rw [List.cons_append, List.infix_cons_iff, ← ih fun d hd => hout d (by simp [hd])]
    refine or_iff_right fun h => ?_
    obtain rfl : chr a = c := (List.cons_prefix_cons.1 h).1
    rw [chr_toNat] at hc
    omega

/-- **ASCII text is in the decoded bytes exactly when its bytes are in them.** -/
theorem infix_decode {w : Bytes} (hw : ∀ b ∈ w, b.toNat < 128) (hne : w ≠ [])
    (p : Option Pending) (bs : Bytes) : w.map chr <:+: decode p bs ↔ w <:+: bs := by
  induction bs generalizing p with
  | nil =>
    obtain ⟨a, w', rfl⟩ := List.exists_cons_of_ne_nil hne
    have hnil : decode p [] = p.elim [] fun _ => [replacement] := by cases p <;> rfl
    have hout : ∀ c ∈ decode p [], 128 ≤ c.toNat := by
      cases p with
      | none => simp [hnil]
      | some p =>
        rintro c hc
        obtain rfl : c = replacement := by simpa [hnil] using hc
        decide
    rw [← List.append_nil (decode p []), infix_append_foreign hw hne hout]
    simp
  | cons b bs ih =>
    rw [List.infix_cons_iff]
    rcases Nat.lt_or_ge b.toNat 128 with hb | hb
    · have hfirst : w.map chr <:+: chr b :: decode none bs ↔ w <+: b :: bs ∨ w <:+: bs := by
        rw [List.infix_cons_iff, ih, ← prefix_fromUtf8Lossy hw, fromUtf8Lossy, decode, feed,
          first_ascii hb]
        rfl
      cases p with
      | none =>
        rw [← hfirst, decode, feed, first_ascii hb]
        rfl
      | some p =>
        rw [← hfirst, decode, feed_ascii p hb]
        have hforeign : ∀ c ∈ [replacement], 128 ≤ c.toNat := by simp; decide
        exact infix_append_foreign hw hne hforeign _
    · rw [decode, infix_append_foreign hw hne (feed_foreign p hb).1, ih]
      refine (or_iff_right fun h => ?_).symm
      obtain ⟨a, w', rfl⟩ := List.exists_cons_of_ne_nil hne
      obtain rfl : a = b := (List.cons_prefix_cons.1 h).1
      have ha := hw a (by simp)
      omega

theorem infix_fromUtf8Lossy {w : Bytes} (hw : ∀ b ∈ w, b.toNat < 128) (hne : w ≠ [])
    (bs : Bytes) : w.map chr <:+: fromUtf8Lossy bs ↔ w <:+: bs :=
  infix_decode hw hne none bs

end Wire
