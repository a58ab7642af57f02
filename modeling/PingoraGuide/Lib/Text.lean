import Mathlib.Data.List.Basic
/-!
# Bytes, ASCII text and decimal numbers

| here | meaning |
| --- | --- |
| `Bytes`     | the bytes of a wire value; a value on the wire need not be text |
| `utf8`      | the bytes of a string |
| `toStr`     | a byte string read as text, only when every byte is visible ASCII, a space or a tab |
| `lower`     | ASCII lower-casing, the key of a case-insensitive name |
| `decimal`   | a decimal number: an optional `+`, then at least one digit |
| `chr`       | the character of an ASCII byte |
| `sliceFrom` | the text from a byte index on; none off a character boundary |
| `trimBlank`, `valueOf` | white space around a value, and what follows a key in it, on bytes |
-/
namespace Wire

abbrev Bytes := List UInt8

def utf8 (s : String) : Bytes := s.toList.flatMap String.utf8EncodeChar

def visibleAscii (b : UInt8) : Bool := (32 ≤ b && b < 127) || b == 9

def toStr (v : Bytes) : Option String :=
  if v.all visibleAscii then some (String.ofList (v.map fun b => Char.ofNat b.toNat)) else none

def lower (s : String) : String := String.ofList (s.toList.map Char.toLower)

/-- Read digits onto `n`. -/
def decimalFrom : Nat → List Char → Option Nat
  | n, [] => some n
  | n, c :: cs => if c.isDigit then decimalFrom (10 * n + (c.toNat - 48)) cs else none

def decimal : List Char → Option Nat
  | [] | ['+'] => none
  | '+' :: cs => decimalFrom 0 cs
  | cs => decimalFrom 0 cs

/-- A decimal number below a bound, as a fixed-width parser accepts it. -/
def decimalBelow (bound : Nat) (cs : List Char) : Option Nat := (decimal cs).filter (· < bound)

theorem utf8_eq_nil {s : String} : utf8 s = [] ↔ s = "" := by
  constructor
  · intro h
    unfold utf8 at h
    rw [List.flatMap_eq_nil_iff] at h
    cases hs : s.toList with
    | nil => simpa using hs
    | cons c cs =>
      have := h c (by simp [hs])
      simp [String.utf8EncodeChar_ne_nil] at this
  · rintro rfl
    rfl

/-- A string is read back from its bytes. -/
theorem utf8_inj {s t : String} : utf8 s = utf8 t ↔ s = t := by
  constructor
  · intro h
    rw [← String.toByteArray_inj, ← String.utf8Encode_toList, ← String.utf8Encode_toList]
    exact congrArg List.toByteArray h
  · exact congrArg utf8

theorem decimalBelow_eq_some {bound n : Nat} {cs : List Char} :
    decimalBelow bound cs = some n ↔ decimal cs = some n ∧ n < bound := by
  unfold decimalBelow
  cases decimal cs with
  | none => simp
  | some m =>
    by_cases hm : m < bound
    · simp only [Option.filter_some, hm, decide_true, if_true, Option.some.injEq]
      exact ⟨fun h => ⟨h, h ▸ hm⟩, fun h => h.1⟩
    · simp only [Option.filter_some, hm, decide_false, Option.some.injEq]
      exact ⟨fun h => by simp at h, fun h => absurd (h.1 ▸ h.2) hm⟩

example : decimal "10".toList = some 10 ∧ decimal "".toList = none ∧ decimal "1x".toList = none := by
  decide

/-! ## Slices -/

def sliceFrom : List Char → Nat → Option (List Char)
  | cs, 0 => some cs
  | [], _ + 1 => none
  | c :: cs, n + 1 =>
    if (String.utf8EncodeChar c).length ≤ n + 1 then
      sliceFrom cs (n + 1 - (String.utf8EncodeChar c).length)
    else none

/-- A slice that starts where a prefix ends. -/
theorem sliceFrom_append (key rest : List Char) :
    sliceFrom (key ++ rest) (key.flatMap String.utf8EncodeChar).length = some rest := by
  induction key with
  | nil => cases rest <;> rfl
  | cons c key ih =>
    have hpos : 0 < (String.utf8EncodeChar c).length :=
      List.length_pos_iff.2 String.utf8EncodeChar_ne_nil
    obtain ⟨n, hn⟩ : ∃ n, ((c :: key).flatMap String.utf8EncodeChar).length = n + 1 := by
      refine ⟨((c :: key).flatMap String.utf8EncodeChar).length - 1, ?_⟩
      simp only [List.flatMap_cons, List.length_append]
      omega
    have hsum : (String.utf8EncodeChar c).length + (key.flatMap String.utf8EncodeChar).length =
        n + 1 := by
      simpa using hn
    have hrest : n + 1 - (String.utf8EncodeChar c).length =
        (key.flatMap String.utf8EncodeChar).length := by omega
    rw [hn, List.cons_append, sliceFrom, if_pos (by omega), hrest, ih]

example : sliceFrom "sid=a".toList 4 = some ['a'] ∧ sliceFrom ['é', 'a'] 1 = none ∧
    sliceFrom ['a'] 2 = none := by
  decide

/-! ## ASCII bytes -/

def chr (b : UInt8) : Char := Char.ofNat b.toNat

theorem chr_toNat (b : UInt8) : (chr b).toNat = b.toNat := by
  have hvalid : b.toNat.isValidChar := .inl (by have := b.toNat_lt; omega)
  rw [chr, Char.ofNat, dif_pos hvalid]
  rfl

theorem utf8EncodeChar_of_lt {c : Char} (h : c.toNat < 128) :
    String.utf8EncodeChar c = [UInt8.ofNat c.toNat] :=
  if_pos (Nat.le_of_lt_succ h)

/-- The first byte of any other character is no ASCII byte. -/
theorem utf8EncodeChar_of_ge {c : Char} (h : 128 ≤ c.toNat) :
    ∃ b bs, String.utf8EncodeChar c = b :: bs ∧ 128 ≤ b.toNat := by
  have hv : ¬ c.val.toNat ≤ 127 := by
    show ¬ c.toNat ≤ 127
    omega
  unfold String.utf8EncodeChar
  dsimp only
  rw [if_neg hv]
  split
  · refine ⟨_, _, rfl, ?_⟩
    rw [UInt8.toNat_ofNat']
    omega
  · split
    all_goals
      refine ⟨_, _, rfl, ?_⟩
      rw [UInt8.toNat_ofNat']
      omega

theorem chr_eq_iff {b : UInt8} {c : Char} (hb : b.toNat < 128) :
    chr b = c ↔ String.utf8EncodeChar c = [b] := by
  rw [← Char.toNat_inj, chr_toNat]
  by_cases hc : c.toNat < 128
  · rw [utf8EncodeChar_of_lt hc, List.cons.injEq]
    simp only [and_true]
    rw [← UInt8.toNat_inj, UInt8.toNat_ofNat', Nat.mod_eq_of_lt (by omega)]
    exact eq_comm
  · obtain ⟨b', bs, henc, hge⟩ := utf8EncodeChar_of_ge (Nat.le_of_not_lt hc)
    rw [henc]
    refine iff_of_false (by omega) fun h => ?_
    obtain rfl : b' = b := (List.cons.inj h).1
    omega

/-- Text starts ASCII bytes exactly when its encoding does, and is then as long. -/
theorem prefix_chr (cs : List Char) {w : Bytes} (hw : ∀ b ∈ w, b.toNat < 128) :
    (cs <+: w.map chr ↔ cs.flatMap String.utf8EncodeChar <+: w) ∧
      (cs <+: w.map chr → (cs.flatMap String.utf8EncodeChar).length = cs.length) := by
  induction cs generalizing w with
  | nil => simp
  | cons c cs ih =>
    cases w with
    | nil => simp [String.utf8EncodeChar_ne_nil]
    | cons b w =>
      obtain ⟨ihiff, ihlen⟩ := ih (w := w) fun x hx => hw x (by simp [hx])
      have hb := hw b (by simp)
      rw [List.map_cons, List.cons_prefix_cons, List.flatMap_cons, eq_comm, chr_eq_iff hb]
      by_cases hc : c.toNat < 128
      · rw [utf8EncodeChar_of_lt hc, List.singleton_append, List.cons_prefix_cons, ihiff,
          List.cons.injEq]
        refine ⟨by simp, fun h => ?_⟩
        simpa using ihlen (ihiff.2 h.2)
      · obtain ⟨b', bs, henc, hge⟩ := utf8EncodeChar_of_ge (Nat.le_of_not_lt hc)
        have hne : ¬ b' = b := by
          rintro rfl
          omega
        rw [henc, List.cons_append, List.cons_prefix_cons]
        simp [hne]

/-- Bytes and their characters split at the same places. -/
theorem splitOn_map {α β : Type} [BEq α] [BEq β] {f : α → β} {a : α} {l : List α}
    (hf : ∀ x ∈ l, (f x == f a) = (x == a)) : (l.map f).splitOn (f a) = (l.splitOn a).map (·.map f) := by
  induction l with
  | nil => rfl
  | cons x l ih =>
    have ih := ih fun y hy => hf y (by simp [hy])
    rw [List.map_cons, List.splitOn_cons_eq_if_modifyHead, List.splitOn_cons_eq_if_modifyHead,
      hf x (by simp), ih]
    split
    · rfl
    · cases List.splitOn a l <;> rfl

theorem splitOn_subset {α : Type} [BEq α] {a : α} {l part : List α} (h : part ∈ l.splitOn a) :
    part ⊆ l := by
  induction l generalizing part with
  | nil =>
    obtain rfl : part = [] := by simpa using h
    simp
  | cons x l ih =>
    rw [List.splitOn_cons_eq_if_modifyHead] at h
    split at h
    · rcases List.mem_cons.1 h with rfl | h
      · simp
      · exact List.subset_cons_of_subset x (ih h)
    · cases hs : l.splitOn a with
      | nil => simp [hs] at h
      | cons p ps =>
        rw [hs] at h
        rcases List.mem_cons.1 h with rfl | h
        · exact List.cons_subset_cons x (ih (by simp [hs]))
        · exact List.subset_cons_of_subset x (ih (by simp [hs, h]))

def blank (b : UInt8) : Bool := (chr b).isWhitespace

def trimBlank (w : Bytes) : Bytes := ((w.dropWhile blank).reverse.dropWhile blank).reverse

def valueOf (key w : Bytes) : Option Bytes :=
  if key.isPrefixOf w then some (w.drop key.length) else none

theorem trimBlank_subset (w : Bytes) : trimBlank w ⊆ w := by
  intro b hb
  unfold trimBlank at hb
  have hb := (List.dropWhile_sublist _).subset (List.mem_reverse.1 hb)
  exact (List.dropWhile_sublist _).subset (List.mem_reverse.1 hb)

/-- The value after a key, read as characters or as bytes. -/
theorem valueOf_chr (key : String) {w : Bytes} (hw : ∀ b ∈ w, b.toNat < 128) :
    (if key.toList.isPrefixOf (w.map chr) then some ((w.map chr).drop key.toList.length) else none) =
      (valueOf (utf8 key) w).map (·.map chr) := by
  obtain ⟨hiff, hlen⟩ := prefix_chr key.toList hw
  unfold valueOf utf8
  by_cases hp : key.toList <+: w.map chr
  · rw [if_pos (List.isPrefixOf_iff_prefix.2 hp), if_pos (List.isPrefixOf_iff_prefix.2 (hiff.1 hp)),
      hlen hp, Option.map_some, List.map_drop]
  · rw [if_neg (mt List.isPrefixOf_iff_prefix.1 hp),
      if_neg (mt List.isPrefixOf_iff_prefix.1 (mt hiff.2 hp)), Option.map_none]

theorem toStr_eq {v : Bytes} (h : v.all visibleAscii = true) :
    toStr v = some (String.ofList (v.map chr)) :=
  if_pos h

theorem toStr_none {v : Bytes} (h : v.all visibleAscii = false) : toStr v = none :=
  if_neg (by simp [h])

/-- Visible ASCII text is encoded by one byte a character. -/
theorem encode_visible {cs : List Char} (h : ∀ c ∈ cs, 32 ≤ c.toNat ∧ c.toNat < 127) :
    (cs.flatMap String.utf8EncodeChar).all visibleAscii = true ∧
      (cs.flatMap String.utf8EncodeChar).map chr = cs := by
  induction cs with
  | nil => exact ⟨rfl, rfl⟩
  | cons c cs ih =>
    obtain ⟨hall, hmap⟩ := ih fun d hd => h d (by simp [hd])
    obtain ⟨hge, hlt⟩ := h c (by simp)
    have hnat : (UInt8.ofNat c.toNat).toNat = c.toNat := by
      rw [UInt8.toNat_ofNat', Nat.mod_eq_of_lt (by omega)]
    have hvisible : visibleAscii (UInt8.ofNat c.toNat) = true := by
      have h32 : 32 ≤ UInt8.ofNat c.toNat := UInt8.le_iff_toNat_le.2 (by rw [hnat]; exact hge)
      have h127 : UInt8.ofNat c.toNat < 127 := UInt8.lt_iff_toNat_lt.2 (by rw [hnat]; exact hlt)
      simp [visibleAscii, h32, h127]
    have hchr : chr (UInt8.ofNat c.toNat) = c := by rw [← Char.toNat_inj, chr_toNat, hnat]
    rw [List.flatMap_cons, utf8EncodeChar_of_lt (by omega)]
    simp [hvisible, hchr, hall, hmap]

theorem toStr_utf8 {s : String} (h : ∀ c ∈ s.toList, 32 ≤ c.toNat ∧ c.toNat < 127) :
    toStr (utf8 s) = some s := by
  obtain ⟨hall, hmap⟩ := encode_visible h
  have hread : toStr (utf8 s) = some (String.ofList ((utf8 s).map chr)) := toStr_eq hall
  rw [hread, utf8, hmap, String.ofList_toList]

theorem toLower_toNat (c : Char) :
    c.toLower.toNat = if 65 ≤ c.toNat ∧ c.toNat ≤ 90 then c.toNat + 32 else c.toNat := by
  have hle : ∀ d : Char, c.val ≤ d.val ↔ c.toNat ≤ d.toNat := fun d => UInt32.le_iff_toNat_le
  have hge : ∀ d : Char, d.val ≤ c.val ↔ d.toNat ≤ c.toNat := fun d => UInt32.le_iff_toNat_le
  unfold Char.toLower
  split
  · rename_i h
    obtain ⟨hlow, hhigh⟩ := h
    have hlow : 65 ≤ c.toNat := (hge 'A').1 hlow
    have hhigh : c.toNat ≤ 90 := (hle 'Z').1 hhigh
    rw [if_pos ⟨hlow, hhigh⟩]
    show (c.val + 32).toNat = c.toNat + 32
    rw [UInt32.toNat_add]
    show (c.toNat + 32) % _ = _
    omega
  · rename_i h
    rw [if_neg]
    rintro ⟨hlow, hhigh⟩
    exact h ⟨(hge 'A').2 hlow, (hle 'Z').2 hhigh⟩

/-- Spellings that differ in letter case only are visible ASCII alike. -/
theorem visible_of_lower {s t : String} (h : lower s = lower t)
    (ht : ∀ c ∈ t.toList, 33 ≤ c.toNat ∧ c.toNat < 127) : ∀ c ∈ s.toList, 33 ≤ c.toNat ∧ c.toNat < 127 := by
  intro c hc
  have hmem : c.toLower ∈ t.toList.map Char.toLower := by
    rw [← String.ofList_inj.1 h]
    exact List.mem_map_of_mem hc
  obtain ⟨d, hd, heq⟩ := List.mem_map.1 hmem
  have hbound := ht d hd
  have hnat : d.toLower.toNat = c.toLower.toNat := congrArg Char.toNat heq
  rw [toLower_toNat, toLower_toNat] at hnat
  split at hnat <;> split at hnat <;> omega

theorem visibleAscii_lt {b : UInt8} (h : visibleAscii b = true) : b.toNat < 128 := by
  simp only [visibleAscii, Bool.or_eq_true, Bool.and_eq_true, decide_eq_true_eq, beq_iff_eq] at h
  rcases h with ⟨-, h⟩ | rfl
  · have := UInt8.lt_iff_toNat_lt.1 h
    simp at this
    omega
  · decide

end Wire
