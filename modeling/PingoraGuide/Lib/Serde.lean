import PingoraGuide.Lib.MultiMap
/-!
# Documents and the types they hold

A type comes with what is written for a value and with what is read back, and the pair carries its
own round trip: reading what was written gives the value, also where fields that have their default
are left out. The combinators build the pair for a record from those for its fields, for a record
flattened into another and for a choice that a tag decides, as derived (de)serializers do.

| here | meaning |
| --- | --- |
| `Value`          | a document |
| `Skip`           | the places at which a field that has its default is left out |
| `Codec`          | writing and reading one type |
| `Codec.buffered` | reading by way of a copy that cannot hold tags |
| `Fields`         | the same for entries of a map; entries under other keys are not looked at |
| `Fields.field`, `Fields.default` | one field, required or with a default |
| `Fields.both`    | the fields of two records in one map |
| `Fields.tagged`  | a choice: the tag is an entry beside those of the variant |
-/
namespace Serde
variable {α β κ ν : Type}

inductive Value where
  | null
  | bool (b : Bool)
  | number (n : Int)
  | float (text : String)
  | string (s : String)
  | seq (vs : List Value)
  | map (es : List (Value × Value))
  | tagged (tag : String) (v : Value)

/-! ## Tags -/

mutual

/-- No tag at any depth. -/
def Value.untagged : Value → Bool
  | .tagged _ _ => false
  | .seq vs => untaggedSeq vs
  | .map es => untaggedMap es
  | .null | .bool _ | .number _ | .float _ | .string _ => true

def untaggedSeq : List Value → Bool
  | [] => true
  | v :: vs => v.untagged && untaggedSeq vs

def untaggedMap : List (Value × Value) → Bool
  | [] => true
  | (k, v) :: es => k.untagged && v.untagged && untaggedMap es

end

/-! ## Writing and reading -/

/-- One step into a document: a field, or a position in a sequence or among the keys or values of a
map. -/
inductive Step where
  | field (name : String)
  | item (n : Nat)
  | key (n : Nat)
deriving DecidableEq, Repr

/-- A choice of fields by where they are in the document. -/
abbrev Skip := List Step → Bool

/-- The choice, seen from one step further in. -/
def Skip.under (skip : Skip) (s : Step) : Skip := fun path => skip (s :: path)

structure Codec (α : Type) where
  ser : Skip → α → Value
  de : Value → Option α
  round : ∀ skip a, de (ser skip a) = some a
  /-- whether tags may be written -/
  tags : Bool := false
  untagged : tags = false → ∀ skip a, (ser skip a).untagged = true

namespace Codec

def string : Codec String where
  ser _ s := .string s
  de
    | .string s => some s
    | _ => none
  round _ _ := rfl
  untagged _ _ _ := rfl

def bool : Codec Bool where
  ser _ b := .bool b
  de
    | .bool b => some b
    | _ => none
  round _ _ := rfl
  untagged _ _ _ := rfl

/-- Numbers below a bound. -/
def below (bound : Nat) : Codec (Fin bound) where
  ser _ n := .number n
  de
    | .number (.ofNat n) => if h : n < bound then some ⟨n, h⟩ else none
    | _ => none
  round _ n := dif_pos n.isLt
  untagged _ _ _ := rfl

/-- Reading from a copy of the document that cannot hold tags. -/
def buffered (c : Codec α) (htags : c.tags = false) : Codec α where
  ser := c.ser
  de v := if v.untagged = true then c.de v else none
  round skip a := by rw [if_pos (c.untagged htags skip a), c.round]
  untagged _ := c.untagged htags

def iso (c : Codec α) (make : α → β) (parts : β → α) (h : ∀ b, make (parts b) = b) : Codec β where
  ser skip b := c.ser skip (parts b)
  de v := (c.de v).map make
  round skip b := by rw [c.round, Option.map_some, h]
  tags := c.tags
  untagged htags skip b := c.untagged htags skip (parts b)

def option (c : Codec α) (hnull : ∀ skip a, c.ser skip a ≠ .null) : Codec (Option α) where
  ser skip
    | none => .null
    | some a => c.ser skip a
  de
    | .null => some none
    | v => (c.de v).map some
  round skip a := by
    cases a with
    | none => rfl
    | some a =>
      have hne := hnull skip a
      have hround := c.round skip a
      cases h : c.ser skip a <;> simp_all
  tags := c.tags
  untagged htags skip
    | none => rfl
    | some a => c.untagged htags skip a

def deSeq (c : Codec α) : List Value → Option (List α)
  | [] => some []
  | v :: vs => do
    let a ← c.de v
    let xs ← deSeq c vs
    some (a :: xs)

/-- The elements from position `n` on. -/
def serSeq (c : Codec α) (skip : Skip) : Nat → List α → List Value
  | _, [] => []
  | n, a :: xs => c.ser (skip.under (.item n)) a :: serSeq c skip (n + 1) xs

theorem deSeq_round (c : Codec α) (skip : Skip) (n : Nat) (xs : List α) :
    c.deSeq (c.serSeq skip n xs) = some xs := by
  induction xs generalizing n with
  | nil => rfl
  | cons a xs ih => simp [serSeq, deSeq, c.round, ih]

theorem serSeq_untagged (c : Codec α) (htags : c.tags = false) (skip : Skip) (n : Nat)
    (xs : List α) : untaggedSeq (c.serSeq skip n xs) = true := by
  induction xs generalizing n with
  | nil => rfl
  | cons a xs ih => simp [serSeq, untaggedSeq, c.untagged htags, ih]

def seq (c : Codec α) : Codec (List α) where
  ser skip xs := .seq (c.serSeq skip 0 xs)
  de
    | .seq vs => c.deSeq vs
    | _ => none
  round skip xs := c.deSeq_round skip 0 xs
  tags := c.tags
  untagged htags skip xs := c.serSeq_untagged htags skip 0 xs

/-- A choice without data: the name of the variant. -/
def enum (name : α → String) (variants : List α) (hall : ∀ a, a ∈ variants)
    (hname : ∀ a b, name a = name b → a = b) : Codec α where
  ser _ a := .string (name a)
  de
    | .string s | .tagged s .null => variants.find? fun a => name a = s
    | _ => none
  round _ a := by
    cases hfind : variants.find? fun b => decide (name b = name a) with
    | none => exact absurd (List.find?_eq_none.1 hfind a (hall a)) (by simp)
    | some b =>
      obtain rfl := hname b a (by simpa using List.find?_some hfind)
      exact hfind
  untagged _ _ _ := rfl

end Codec

/-! ## Maps with any keys -/

theorem insertAll_nodup [DecidableEq κ] (m es : MultiMap κ ν) (h : ((m ++ es).map Prod.fst).Nodup) :
    MultiMap.insertAll m es = m ++ es := by
  induction es generalizing m with
  | nil => simp [MultiMap.insertAll]
  | cons e es ih =>
    have hfresh : m.remove e.1 = m := by
      refine List.filter_eq_self.2 fun x hx => ?_
      rw [List.map_append, List.nodup_append] at h
      simpa using h.2.2 x.1 (List.mem_map_of_mem hx) e.1 (by simp)
    have hstep : m.insert e.1 e.2 = m ++ [e] := by rw [MultiMap.insert, hfresh]
    have hnext := ih (m ++ [e]) (by simpa using h)
    rw [MultiMap.insertAll, List.foldl_cons, hstep]
    simpa [MultiMap.insertAll] using hnext

theorem nodup_insert [DecidableEq κ] {m : MultiMap κ ν} (h : (m.map Prod.fst).Nodup) (k : κ) (v : ν) :
    ((m.insert k v).map Prod.fst).Nodup := by
  have hsub : ((m.remove k).map Prod.fst).Sublist (m.map Prod.fst) :=
    List.Sublist.map _ List.filter_sublist
  rw [MultiMap.insert, List.map_append, List.nodup_append]
  refine ⟨h.sublist hsub, by simp, fun a ha b hb => ?_⟩
  obtain ⟨x, hx, rfl⟩ := List.mem_map.1 ha
  obtain rfl : b = k := by simpa using hb
  simpa using List.of_mem_filter hx

theorem nodup_insertAll [DecidableEq κ] (es : MultiMap κ ν) {m : MultiMap κ ν}
    (h : (m.map Prod.fst).Nodup) : ((m.insertAll es).map Prod.fst).Nodup := by
  induction es generalizing m with
  | nil => exact h
  | cons e es ih => exact ih (nodup_insert h e.1 e.2)

namespace Codec

def pair (c : Codec κ) (d : Codec ν) (e : Value × Value) : Option (κ × ν) := do
  let k ← c.de e.1
  let v ← d.de e.2
  some (k, v)

/-- The entries from position `n` on. -/
def serEntries (c : Codec κ) (d : Codec ν) (skip : Skip) : Nat → List (κ × ν) → List (Value × Value)
  | _, [] => []
  | n, e :: es => (c.ser (skip.under (.key n)) e.1, d.ser (skip.under (.item n)) e.2) ::
    serEntries c d skip (n + 1) es

theorem serEntries_round (c : Codec κ) (d : Codec ν) (skip : Skip) (n : Nat) (es : List (κ × ν)) :
    (serEntries c d skip n es).mapM (pair c d) = some es := by
  induction es generalizing n with
  | nil => rfl
  | cons e es ih => simp [serEntries, pair, c.round, d.round, ih]

theorem serEntries_untagged (c : Codec κ) (d : Codec ν) (htags : (c.tags || d.tags) = false)
    (skip : Skip) (n : Nat) (es : List (κ × ν)) : untaggedMap (serEntries c d skip n es) = true := by
  obtain ⟨hc, hd⟩ := Bool.or_eq_false_iff.1 htags
  induction es generalizing n with
  | nil => rfl
  | cons e es ih => simp [serEntries, untaggedMap, c.untagged hc, d.untagged hd, ih]

/-- Entries are inserted as they come, so the last of a key stays. -/
def entries [DecidableEq κ] (c : Codec κ) (d : Codec ν) :
    Codec { es : MultiMap κ ν // (es.map Prod.fst).Nodup } where
  ser skip es := .map (serEntries c d skip 0 es.1)
  de
    | .map es => (es.mapM (pair c d)).map fun es =>
      ⟨MultiMap.insertAll [] es, nodup_insertAll es (by simp)⟩
    | _ => none
  round skip es := by
    obtain ⟨es, hes⟩ := es
    dsimp only
    rw [serEntries_round, Option.map_some]
    congr 2
    simpa using insertAll_nodup [] es (by simpa using hes)
  tags := c.tags || d.tags
  untagged htags skip es := serEntries_untagged c d htags skip 0 es.1

end Codec

/-! ## Records -/

def apart (ks ls : List String) : Bool := ks.all fun k => !ls.contains k

def distinct : List String → Bool
  | [] => true
  | k :: ks => !ks.contains k && distinct ks

theorem not_mem_of_apart {ks ls : List String} (h : apart ks ls = true) {k : String} (hk : k ∈ ks) :
    k ∉ ls := by
  simpa using List.all_eq_true.1 h k hk

theorem nodup_of_distinct {ks : List String} (h : distinct ks = true) : ks.Nodup := by
  induction ks with
  | nil => exact List.nodup_nil
  | cons k ks ih =>
    simp only [distinct, Bool.and_eq_true, Bool.not_eq_true', List.contains_eq_mem,
      decide_eq_false_iff_not] at h
    exact List.nodup_cons.2 ⟨h.1, ih h.2⟩

structure Fields (α : Type) where
  keys : List String
  ser : Skip → α → MultiMap String Value
  de : MultiMap String Value → Option α
  ser_keys : ∀ skip a, ∀ e ∈ ser skip a, e.1 ∈ keys
  /-- only the entries under the keys matter, in whatever order and among whatever others -/
  round : ∀ skip a es, (∀ k ∈ keys, es.getAll k = (ser skip a).getAll k) → de es = some a
  tags : Bool := false
  untagged : tags = false → ∀ skip a, ∀ e ∈ ser skip a, e.2.untagged = true

namespace Fields

theorem getAll_eq_nil {m : MultiMap String Value} {k : String} (h : ∀ e ∈ m, e.1 ≠ k) :
    m.getAll k = [] := by
  simpa [MultiMap.getAll] using h

theorem getAll_append (m m' : MultiMap String Value) (k : String) :
    (m ++ m').getAll k = m.getAll k ++ m'.getAll k := by
  simp [MultiMap.getAll]

def none : Fields Unit where
  keys := []
  ser _ _ := []
  de _ := some ()
  ser_keys := by simp
  round _ _ _ _ := rfl
  untagged := by simp

def field (name : String) (c : Codec α) : Fields α where
  keys := [name]
  ser skip a := [(name, c.ser (skip.under (.field name)) a)]
  de es :=
    match es.getAll name with
    | [v] => c.de v
    | _ => .none
  ser_keys := by simp
  round skip a es h := by
    rw [h name (by simp)]
    simp [MultiMap.getAll, c.round]
  tags := c.tags
  untagged htags skip a e he := by
    rw [List.mem_singleton.1 he]
    exact c.untagged htags _ a

def default [DecidableEq α] (name : String) (c : Codec α) (d : α) : Fields α where
  keys := [name]
  ser skip a :=
    if skip [.field name] = true ∧ a = d then [] else [(name, c.ser (skip.under (.field name)) a)]
  de es :=
    match es.getAll name with
    | [] => some d
    | [v] => c.de v
    | _ => .none
  ser_keys skip a e he := by
    split at he
    · cases he
    · rw [List.mem_singleton.1 he]
      simp
  round skip a es h := by
    rw [h name (by simp)]
    by_cases hd : skip [.field name] = true ∧ a = d
    · simp [MultiMap.getAll, hd]
    · simp [MultiMap.getAll, hd, c.round]
  tags := c.tags
  untagged htags skip a e he := by
    split at he
    · cases he
    · rw [List.mem_singleton.1 he]
      exact c.untagged htags _ a

/-- A field that may be missing. -/
def opt [DecidableEq α] (name : String) (c : Codec α) (hnull : ∀ skip a, c.ser skip a ≠ .null) :
    Fields (Option α) := default name (c.option hnull) .none

def both (f : Fields α) (g : Fields β) (hapart : apart f.keys g.keys = true) : Fields (α × β) where
  keys := f.keys ++ g.keys
  ser skip p := f.ser skip p.1 ++ g.ser skip p.2
  de es := do
    let a ← f.de es
    let b ← g.de es
    some (a, b)
  ser_keys skip p e he := by
    rcases List.mem_append.1 he with he | he
    · exact List.mem_append_left _ (f.ser_keys _ _ e he)
    · exact List.mem_append_right _ (g.ser_keys _ _ e he)
  round skip p es h := by
    have hf : f.de es = some p.1 := f.round skip p.1 es fun k hk => by
      have hnone : (g.ser skip p.2).getAll k = [] :=
        getAll_eq_nil fun e he hek => not_mem_of_apart hapart hk (hek ▸ g.ser_keys _ _ e he)
      rw [h k (List.mem_append_left _ hk), getAll_append, hnone, List.append_nil]
    have hg : g.de es = some p.2 := g.round skip p.2 es fun k hk => by
      have hnone : (f.ser skip p.1).getAll k = [] :=
        getAll_eq_nil fun e he hek => not_mem_of_apart hapart (hek ▸ f.ser_keys _ _ e he) hk
      rw [h k (List.mem_append_right _ hk), getAll_append, hnone, List.nil_append]
    simp [hf, hg]
  tags := f.tags || g.tags
  untagged htags skip p e he := by
    obtain ⟨hf, hg⟩ := Bool.or_eq_false_iff.1 htags
    rcases List.mem_append.1 he with he | he
    · exact f.untagged hf skip p.1 e he
    · exact g.untagged hg skip p.2 e he

def iso (f : Fields α) (make : α → β) (parts : β → α) (h : ∀ b, make (parts b) = b) : Fields β where
  keys := f.keys
  ser skip b := f.ser skip (parts b)
  de es := (f.de es).map make
  ser_keys skip b := f.ser_keys skip (parts b)
  round skip b es hes := by rw [f.round skip (parts b) es hes, Option.map_some, h]
  tags := f.tags
  untagged htags skip b := f.untagged htags skip (parts b)

def strKey (e : Value × Value) : Option (String × Value) :=
  match e.1 with
  | .string k => some (k, e.2)
  | _ => .none

theorem strKey_round (es : MultiMap String Value) :
    (es.map fun e => (Value.string e.1, e.2)).mapM strKey = some es := by
  induction es with
  | nil => rfl
  | cons e es ih => simp [strKey, ih]

theorem untagged_entries {es : MultiMap String Value} (h : ∀ e ∈ es, e.2.untagged = true) :
    untaggedMap (es.map fun e => (.string e.1, e.2)) = true := by
  induction es with
  | nil => rfl
  | cons e es ih =>
    obtain ⟨hhead, htail⟩ := List.forall_mem_cons.1 h
    simp [untaggedMap, Value.untagged, hhead, ih htail]

/-- A record as a map of its own. -/
def codec (f : Fields α) : Codec α where
  ser skip a := .map ((f.ser skip a).map fun e => (.string e.1, e.2))
  de
    | .map es => (es.mapM strKey).bind f.de
    | _ => .none
  round skip a := by
    dsimp only
    rw [strKey_round, Option.bind_some, f.round skip a _ fun _ _ => rfl]
  tags := f.tags
  untagged htags skip a := untagged_entries (f.untagged htags skip a)

/-- The entries that were written are enough, in any order and among any others. -/
theorem de_written (f : Fields α) {skip : Skip} {a : α} {es : MultiMap String Value}
    (hes : ∀ k ∈ f.keys, es.getAll k = (f.ser skip a).getAll k) :
    f.codec.de (.map (es.map fun e => (.string e.1, e.2))) = some a := by
  rw [codec]
  dsimp only
  rw [strKey_round, Option.bind_some, f.round skip a es hes]

end Fields

/-! ## Tagged choices -/

structure Variant (α : Type) where
  name : String
  Data : Type
  fields : Fields Data
  inj : Data → α
  data? : α → Option Data
  data_inj : ∀ a d, data? a = some d → inj d = a

/-- A variant without data. -/
def Variant.unit [DecidableEq α] (name : String) (a : α) : Variant α where
  name := name
  Data := Unit
  fields := .none
  inj _ := a
  data? b := if b = a then some () else .none
  data_inj b d h := by
    split at h
    · rename_i hb
      exact hb.symm
    · cases h

namespace Fields

/-- The entries of the variant that the value is, behind its tag. -/
def serTagged (tag : String) (skip : Skip) (a : α) :
    List (Variant α) → MultiMap String Value
  | [] => []
  | v :: vs =>
    match v.data? a with
    | some d => (tag, .string v.name) :: v.fields.ser skip d
    | .none => serTagged tag skip a vs

theorem serTagged_eq (tag : String) (skip : Skip) {a : α} {vs : List (Variant α)}
    (h : ∃ v ∈ vs, (v.data? a).isSome) : ∃ v ∈ vs, ∃ d, v.data? a = some d ∧
      serTagged tag skip a vs = (tag, .string v.name) :: v.fields.ser skip d := by
  induction vs with
  | nil => simp at h
  | cons v vs ih =>
    cases hv : v.data? a with
    | some d => exact ⟨v, by simp, d, hv, by simp [serTagged, hv]⟩
    | none =>
      obtain ⟨w, hw, d, hd, hser⟩ := ih (by simpa [hv] using h)
      exact ⟨w, by simp [hw], d, hd, by simp [serTagged, hv, hser]⟩

theorem find_variant {vs : List (Variant α)} (hnames : (vs.map Variant.name).Nodup)
    {v : Variant α} (hv : v ∈ vs) : vs.find? (fun w => w.name = v.name) = some v := by
  induction vs with
  | nil => cases hv
  | cons w vs ih =>
    obtain ⟨hw, hnames⟩ := List.nodup_cons.1 hnames
    rcases List.mem_cons.1 hv with rfl | hv
    · simp
    · have hne : w.name ≠ v.name := fun h => hw (h ▸ List.mem_map_of_mem hv)
      rw [List.find?_cons, decide_eq_false hne]
      exact ih hnames hv

def tagged (tag : String) (vs : List (Variant α)) (hnames : distinct (vs.map Variant.name) = true)
    (htag : apart [tag] (vs.flatMap fun v => v.fields.keys) = true)
    (hall : ∀ a, ∃ v ∈ vs, (v.data? a).isSome) : Fields α where
  keys := tag :: vs.flatMap fun v => v.fields.keys
  ser skip a := serTagged tag skip a vs
  de es :=
    match es.getAll tag with
    | [.string name] =>
      match vs.find? fun v => v.name = name with
      | some v => (v.fields.de es).map v.inj
      | .none => .none
    | _ => .none
  ser_keys skip a e he := by
    obtain ⟨v, hv, d, -, hser⟩ := serTagged_eq tag skip (hall a)
    rw [hser] at he
    rcases List.mem_cons.1 he with rfl | he
    · simp
    · exact List.mem_cons_of_mem _ (List.mem_flatMap.2 ⟨v, hv, v.fields.ser_keys _ _ e he⟩)
  round skip a es h := by
    obtain ⟨v, hv, d, hd, hser⟩ := serTagged_eq tag skip (hall a)
    rw [hser] at h
    have hfresh : tag ∉ v.fields.keys := fun hk =>
      not_mem_of_apart htag (List.mem_singleton_self tag) (List.mem_flatMap.2 ⟨v, hv, hk⟩)
    have hnone : (v.fields.ser skip d).getAll tag = [] :=
      getAll_eq_nil fun e he hek => hfresh (hek ▸ v.fields.ser_keys _ _ e he)
    have htagged : es.getAll tag = [.string v.name] := by
      rw [h tag (by simp), ← List.singleton_append, getAll_append, hnone]
      simp [MultiMap.getAll]
    have hfields : v.fields.de es = some d := v.fields.round skip d es fun k hk => by
      have hne : tag ≠ k := fun hkt => hfresh (hkt ▸ hk)
      rw [h k (List.mem_cons_of_mem _ (List.mem_flatMap.2 ⟨v, hv, hk⟩)), ← List.singleton_append,
        getAll_append]
      simp [MultiMap.getAll, hne]
    rw [htagged]
    dsimp only
    rw [find_variant (nodup_of_distinct hnames) hv]
    dsimp only
    rw [hfields, Option.map_some, v.data_inj a d hd]
  tags := vs.any fun v => v.fields.tags
  untagged htags skip a e he := by
    obtain ⟨v, hv, d, -, hser⟩ := serTagged_eq tag skip (hall a)
    rw [hser] at he
    rcases List.mem_cons.1 he with rfl | he
    · rfl
    · exact v.fields.untagged (by simpa using List.any_eq_false.1 htags v hv) skip d e he

end Fields

end Serde
