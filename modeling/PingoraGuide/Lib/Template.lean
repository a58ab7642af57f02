import Mathlib.Data.Finset.Max
import Mathlib.Data.List.Lex
import Mathlib.Data.List.Basic
/-!
# Path templates and template trees

The template language of a path router: literal text, `{name}` for a non-empty run inside one
segment, `{*name}` at the end for a non-empty remainder, `{{` and `}}` for the two braces. The
doubled braces are collapsed first, from left to right and also inside a name, and a brace that came
out of it is a character like any other. A template tree stores one value per inserted template and
looks a path up, returning at most one value: that of the finest inserted template that accepts the
path.

| here | meaning |
| --- | --- |
| `unescape`       | the characters of a template, each with whether it is a collapsed brace |
| `Tok`, `parse`   | a template's pieces; `none` for text that is no template |
| `accepts`        | a template accepts a path |
| `finer`          | of two templates accepting one path, which one takes priority: at the first piece that differs, literal before parameter before catch-all, and longer literal text first |
| `doubled`        | a brace is doubled in the text |
| `slashNamed`     | a name starts with a slash, so its parameter cannot accept the text that names it |
| `TreeOps`        | the operations of a tree, as a parameter |
| `TreeOps.Built`  | the tree that a list of insertions, in order, leaves |
| `TreeSound`, `ServesAlone`, `TreeSpec` | what a tree promises: of every table, of a table with one template, and with priorities |
| `refTree`        | a reference tree, showing the contract is satisfiable |
-/
namespace Template

inductive Tok where
  | lit (c : Char)
  | param (name : List Char)
  | rest (name : List Char)
deriving DecidableEq, Repr

def unescape : List Char → List (Char × Bool)
  | '{' :: '{' :: cs => ('{', true) :: unescape cs
  | '}' :: '}' :: cs => ('}', true) :: unescape cs
  | c :: cs => (c, false) :: unescape cs
  | [] => []

/-- `some name` while a name is being read, last character first. Its first character may be any but
a closing brace; further on `*` and `/` are refused. -/
def parseFrom : Option (List Char) → List (Char × Bool) → Option (List Tok)
  | none, [] => some []
  | none, [('{', false)] => none
  | none, ('{', false) :: (c, _) :: cs => if c = '}' then none else parseFrom (some [c]) cs
  | none, ('}', false) :: _ => none
  | none, (c, _) :: cs => (parseFrom none cs).map (.lit c :: ·)
  | some _, [] => none
  | some name, ('}', false) :: cs =>
    match name.reverse with
    | ['*'] => none
    | '*' :: n => if cs = [] then some [.rest n] else none
    | n => (parseFrom none cs).map (.param n :: ·)
  | some name, (c, _) :: cs => if c = '*' ∨ c = '/' then none else parseFrom (some (c :: name)) cs

/-- At most one parameter in each segment; `true` once there is one. -/
def oneParam : Bool → List Tok → Bool
  | _, [] => true
  | used, .lit c :: ts => oneParam (used && c != '/') ts
  | used, .param _ :: ts => !used && oneParam true ts
  | used, .rest _ :: _ => !used

def parse (t : String) : Option (List Tok) :=
  (parseFrom none (unescape t.toList)).filter (oneParam false)

def matchToks : List Tok → List Char → Bool
  | [], cs => cs.isEmpty
  | .lit c :: ts, cs => cs.head? = some c && matchToks ts cs.tail
  | .param _ :: ts, cs =>
    (List.range cs.length).any fun k =>
      !(cs.take (k + 1)).contains '/' && matchToks ts (cs.drop (k + 1))
  | .rest _ :: _, cs => !cs.isEmpty

def accepts (t path : String) : Bool :=
  match parse t with
  | some ts => matchToks ts path.toList
  | none => false

def Tok.rank : Tok → Nat
  | .lit _ => 2
  | .param _ => 1
  | .rest _ => 0

def ranks (t : String) : List Nat := ((parse t).getD []).map Tok.rank

def finer (t u : String) : Bool := decide (ranks u < ranks t)

/-! ## Templates without braces -/

/-- No brace: the text is its own only match. -/
def Plain (t : String) : Prop := ∀ c ∈ t.toList, c ≠ '{' ∧ c ≠ '}'

instance (t : String) : Decidable (Plain t) := List.decidableBAll _ t.toList

theorem unescape_cons {c : Char} {cs : List Char} (h : c ≠ '{' ∧ c ≠ '}') :
    unescape (c :: cs) = (c, false) :: unescape cs := by
  rw [unescape]
  · simp [h.1]
  · simp [h.2]

theorem unescape_plain {cs : List Char} (h : ∀ c ∈ cs, c ≠ '{' ∧ c ≠ '}') :
    unescape cs = cs.map fun c => (c, false) := by
  induction cs with
  | nil => rfl
  | cons c cs ih =>
    rw [unescape_cons (h c (by simp)), ih fun d hd => h d (by simp [hd]), List.map_cons]

theorem parseFrom_plain {cs : List Char} (h : ∀ c ∈ cs, c ≠ '{' ∧ c ≠ '}') :
    parseFrom none (cs.map fun c => (c, false)) = some (cs.map .lit) := by
  induction cs with
  | nil => rfl
  | cons c cs ih =>
    have hc := h c (by simp)
    rw [List.map_cons, parseFrom, ih fun d hd => h d (by simp [hd])]
    · rfl
    all_goals simp [hc.1, hc.2]

theorem oneParam_lits (used : Bool) (cs : List Char) : oneParam used (cs.map .lit) = true := by
  induction cs generalizing used with
  | nil => rfl
  | cons c cs ih => exact ih _

theorem parse_plain {t : String} (h : Plain t) : parse t = some (t.toList.map .lit) := by
  rw [parse, unescape_plain h, parseFrom_plain h, Option.filter_some, oneParam_lits]
  rfl

theorem matchToks_lits (cs ds : List Char) : matchToks (cs.map .lit) ds = true ↔ ds = cs := by
  induction cs generalizing ds with
  | nil => simp [matchToks]
  | cons c cs ih =>
    cases ds with
    | nil => simp [matchToks]
    | cons d ds => simp [matchToks, ih]

/-- A template without braces accepts its own text and nothing else. -/
theorem accepts_plain {t path : String} (h : Plain t) : accepts t path = true ↔ path = t := by
  unfold accepts
  rw [parse_plain h]
  simp only [matchToks_lits]
  exact String.toList_inj

example : accepts "/static/{*path}" "/static/css/a.css" = true ∧
    accepts "/static/{*path}" "/static/" = false ∧ accepts "/{{x}}" "/{x}" = true := by
  decide

/-! ## A template and its own text -/

/-- Two equal braces in a row. -/
def doubled : List Char → Bool
  | '{' :: '{' :: _ => true
  | '}' :: '}' :: _ => true
  | _ :: cs => doubled cs
  | [] => false

/-- An opening brace before a slash. -/
def slashNamed : List Char → Bool
  | '{' :: '/' :: _ => true
  | _ :: cs => slashNamed cs
  | [] => false

theorem slashNamed_cons {c : Char} {cs : List Char} (h : slashNamed (c :: cs) = false) :
    slashNamed cs = false := by
  unfold slashNamed at h
  split at h <;> simp_all

/-- Nothing to collapse. -/
theorem unescape_undoubled {cs : List Char} (h : doubled cs = false) :
    unescape cs = cs.map fun c => (c, false) := by
  fun_induction unescape cs with
  | case1 | case2 => cases h
  | case3 c cs hopen hclose ih =>
    rw [doubled] at h
    · rw [ih h, List.map_cons]
    · exact hopen
    · exact hclose
  | case4 => rfl

/-- Collapsing shortens the text. -/
theorem unescape_length (cs : List Char) :
    (unescape cs).length ≤ cs.length ∧ (doubled cs = true → (unescape cs).length < cs.length) := by
  fun_induction unescape cs with
  | case1 cs ih | case2 cs ih =>
    simp only [List.length_cons]
    exact ⟨by omega, fun _ => by omega⟩
  | case3 c cs hopen hclose ih =>
    rw [doubled]
    · simp only [List.length_cons]
      exact ⟨by omega, fun hd => Nat.succ_lt_succ (ih.2 hd)⟩
    · exact hopen
    · exact hclose
  | case4 => simp [doubled]

/-- A parameter accepts any run inside one segment. -/
theorem matchToks_param {name run ds : List Char} {ts : List Tok} (hne : run ≠ [])
    (hslash : '/' ∉ run) (h : matchToks ts ds = true) :
    matchToks (.param name :: ts) (run ++ ds) = true := by
  obtain ⟨c, cs, rfl⟩ := List.exists_cons_of_ne_nil hne
  have htake : (c :: cs ++ ds).take (cs.length + 1) = c :: cs := by simp
  have hdrop : (c :: cs ++ ds).drop (cs.length + 1) = ds := by simp
  rw [matchToks, List.any_eq_true]
  refine ⟨cs.length, by simp only [List.length_append, List.length_cons, List.mem_range]; omega, ?_⟩
  rw [htake, hdrop, h]
  simpa using hslash

/-- What has been read of an open parameter, its brace first. -/
def opened : Option (List Char) → List Char
  | none => []
  | some name => '{' :: name.reverse

/-- A template accepts its text with the doubled braces collapsed: a parameter accepts the text that
names it, unless the name starts with a slash. -/
theorem parseFrom_self {st : Option (List Char)} {l : List (Char × Bool)} {ts : List Tok}
    (hp : parseFrom st l = some ts) (hn : slashNamed (l.map Prod.fst) = false)
    (hslash : '/' ∉ opened st) : matchToks ts (opened st ++ l.map Prod.fst) = true := by
  fun_induction parseFrom st l generalizing ts with
  | case1 =>
    obtain rfl := Option.some.inj hp
    rfl
  | case4 c _ cs _ ih =>
    simp only [List.map_cons] at hn ⊢
    have hc : c ≠ '/' := by
      rintro rfl
      cases hn
    exact ih hp (slashNamed_cons (slashNamed_cons hn)) (by simpa [opened] using hc.symm)
  | case6 c _ cs _ _ _ ih =>
    obtain ⟨ts', hts', rfl⟩ := Option.map_eq_some_iff.1 hp
    simpa [matchToks, opened] using ih hts' (slashNamed_cons hn) hslash
  | case9 name n _ hname =>
    obtain rfl := Option.some.inj hp
    rfl
  | case11 name cs _ _ ih =>
    obtain ⟨ts', hts', rfl⟩ := Option.map_eq_some_iff.1 hp
    have hsplit : opened (some name) ++ '}' :: cs.map Prod.fst =
        (opened (some name) ++ ['}']) ++ cs.map Prod.fst := by simp
    rw [List.map_cons, hsplit]
    exact matchToks_param (by simp) (by simpa using hslash)
      (ih hts' (slashNamed_cons hn) (by simp [opened]))
  | case13 name c _ cs _ hc ih =>
    have hopened : opened (some (c :: name)) = opened (some name) ++ [c] := by simp [opened]
    rw [not_or] at hc
    have h := ih hp (slashNamed_cons hn) (by simpa [hopened, eq_comm] using ⟨hslash, hc.2⟩)
    rw [hopened] at h
    simpa using h
  | case2 | case3 | case5 | case7 | case8 | case10 | case12 => cases hp

/-- A template without doubled braces and without such names accepts its own text. -/
theorem accepts_self {t : String} (hp : (parse t).isSome) (hd : doubled t.toList = false)
    (hn : slashNamed t.toList = false) : accepts t t = true := by
  obtain ⟨ts, hts⟩ := Option.isSome_iff_exists.1 hp
  unfold accepts
  rw [hts]
  have htext : (t.toList.map fun c => (c, false)).map Prod.fst = t.toList := by
    rw [List.map_map]
    exact List.map_id _
  have hfrom := (Option.filter_eq_some_iff.1 hts).1
  rw [unescape_undoubled hd] at hfrom
  have h := parseFrom_self hfrom (htext.symm ▸ hn) (by simp [opened])
  rwa [htext] at h

/-- A template of literals has one for each character. -/
theorem parseFrom_lits {st : Option (List Char)} {l : List (Char × Bool)} {ts : List Tok}
    (hp : parseFrom st l = some ts) (hlit : ∀ tok ∈ ts, ∃ c, tok = .lit c) :
    st = none ∧ ts.length = l.length := by
  fun_induction parseFrom st l generalizing ts with
  | case1 =>
    obtain rfl := Option.some.inj hp
    exact ⟨rfl, rfl⟩
  | case4 c _ cs _ ih => cases (ih hp hlit).1
  | case6 c _ cs _ _ _ ih =>
    obtain ⟨ts', hts', rfl⟩ := Option.map_eq_some_iff.1 hp
    obtain ⟨-, hlen⟩ := ih hts' fun tok htok => hlit tok (List.mem_cons_of_mem _ htok)
    exact ⟨rfl, by simp [hlen]⟩
  | case9 name n =>
    obtain rfl := Option.some.inj hp
    obtain ⟨c, hc⟩ := hlit _ (List.mem_singleton_self _)
    cases hc
  | case11 name cs =>
    obtain ⟨ts', hts', rfl⟩ := Option.map_eq_some_iff.1 hp
    obtain ⟨c, hc⟩ := hlit _ List.mem_cons_self
    cases hc
  | case13 name c _ cs _ _ ih => cases (ih hp hlit).1
  | case2 | case3 | case5 | case7 | case8 | case10 | case12 => cases hp

/-- The text a template of literals accepts is as long as the template. -/
theorem matchToks_length {ts : List Tok} (hlit : ∀ tok ∈ ts, ∃ c, tok = .lit c) {ds : List Char}
    (h : matchToks ts ds = true) : ds.length = ts.length := by
  induction ts generalizing ds with
  | nil => simpa [matchToks] using h
  | cons tok ts ih =>
    obtain ⟨c, rfl⟩ := hlit tok List.mem_cons_self
    cases ds with
    | nil => simp [matchToks] at h
    | cons d ds =>
      simp only [matchToks, Bool.and_eq_true] at h
      simpa using ih (fun tok htok => hlit tok (List.mem_cons_of_mem _ htok)) h.2

/-- A template of literals that doubles a brace does not accept its own text. -/
theorem not_accepts_self {t : String} {ts : List Tok} (hp : parse t = some ts)
    (hlit : ∀ tok ∈ ts, ∃ c, tok = .lit c) (hd : doubled t.toList = true) :
    accepts t t = false := by
  obtain ⟨-, hlen⟩ := parseFrom_lits (Option.filter_eq_some_iff.1 hp).1 hlit
  have hshort := (unescape_length t.toList).2 hd
  unfold accepts
  rw [hp]
  dsimp only
  by_contra h
  have htext := matchToks_length hlit (Bool.eq_true_of_not_eq_false h)
  omega

example : accepts "/a{{b}}" "/a{{b}}" = false ∧ accepts "/{{{x}}}" "/{{{x}}}" = true ∧
    accepts "/{/}" "/{/}" = false ∧ accepts "/\x7ba\x7bb\x7d" "/\x7ba\x7bb\x7d" = true := by decide

/-! ## Template trees -/

structure TreeOps where
  Tree : Type
  empty : Tree
  insert : Tree → String → Nat → Except String Tree
  lookup : Tree → String → Option Nat

/-- The tree that these insertions, in order, leave. -/
inductive TreeOps.Built (O : TreeOps) : O.Tree → List (String × Nat) → Prop where
  | empty : Built O O.empty []
  | insert {t t' : O.Tree} {l : List (String × Nat)} {p : String} {v : Nat} :
      Built O t l → O.insert t p v = .ok t' → Built O t' (l ++ [(p, v)])

namespace TreeOps.Built
variable {O : TreeOps} {t t' : O.Tree} {l l' : List (String × Nat)} {p : String} {v : Nat}

/-- The last insertion. -/
theorem last (h : O.Built t' (l ++ [(p, v)])) : ∃ t, O.Built t l ∧ O.insert t p v = .ok t' := by
  generalize hm : l ++ [(p, v)] = m at h
  cases h with
  | empty => simp at hm
  | insert h0 hi =>
    obtain ⟨rfl, heq⟩ := List.append_inj' hm rfl
    obtain ⟨rfl, rfl⟩ := by simpa using heq
    exact ⟨_, h0, hi⟩

theorem before (h : O.Built t (l ++ l')) : ∃ t0, O.Built t0 l := by
  induction l' using List.reverseRecOn generalizing t with
  | nil => exact ⟨t, by simpa using h⟩
  | append_singleton l' e ih =>
    rw [← List.append_assoc] at h
    obtain ⟨t1, h1, -⟩ := h.last
    exact ih h1

theorem unique (h : O.Built t l) (h' : O.Built t' l) : t = t' := by
  induction h generalizing t' with
  | empty =>
    generalize hm : ([] : List (String × Nat)) = m at h'
    cases h' with
    | empty => rfl
    | insert _ _ => simp at hm
  | insert _ hi ih =>
    obtain ⟨t1, h1, hi'⟩ := h'.last
    rw [ih h1, hi'] at hi
    exact (Except.ok.inj hi).symm

end TreeOps.Built

/-- The least a tree promises: a value it returns was inserted with a template that accepts the
path. -/
def TreeSound (O : TreeOps) (accepts : String → String → Bool) : Prop :=
  ∀ {t l path v}, O.Built t l → O.lookup t path = some v → ∃ p, (p, v) ∈ l ∧ accepts p path = true

/-- A tree with this template alone returns its value exactly on the paths that the template
accepts. -/
def ServesAlone (O : TreeOps) (accepts : String → String → Bool) (p : String) : Prop :=
  ∀ {t v path}, O.Built t [(p, v)] → O.lookup t path = if accepts p path then some v else none

/-- What a tree promises: a value it returns belongs to an inserted template that accepts the
path and that no other such template is finer than; it returns a value if any accepts. -/
structure TreeSpec (O : TreeOps) (accepts finer : String → String → Bool) : Prop where
  lookup_some : ∀ {t l path v}, O.Built t l → O.lookup t path = some v →
    ∃ p, (p, v) ∈ l ∧ accepts p path = true ∧
      ∀ q w, (q, w) ∈ l → accepts q path = true → finer q p = false
  lookup_isSome : ∀ {t l path p v}, O.Built t l → (p, v) ∈ l → accepts p path = true →
    (O.lookup t path).isSome

/-- A tree that is generic in its values: under other values the same templates are taken, and a
lookup finds what the renamed value was. -/
structure TreeGeneric (O : TreeOps) : Prop where
  insert : ∀ (f : Nat → Nat) {t t' l p v}, O.Built t l → O.Built t' (l.map (Prod.map id f)) →
    ((∃ u, O.insert t p v = .ok u) ↔ ∃ u, O.insert t' p (f v) = .ok u)
  lookup : ∀ (f : Nat → Nat) {t t' l} path, O.Built t l → O.Built t' (l.map (Prod.map id f)) →
    O.lookup t' path = (O.lookup t path).map f

namespace TreeGeneric
variable {O : TreeOps}

theorem built_iff (h : TreeGeneric O) (f : Nat → Nat) {l : List (String × Nat)} :
    (∃ t, O.Built t l) ↔ ∃ t, O.Built t (l.map (Prod.map id f)) := by
  induction l using List.reverseRecOn with
  | nil => rfl
  | append_singleton l e ih =>
    obtain ⟨p, v⟩ := e
    simp only [List.map_append, List.map_singleton, Prod.map_apply, id]
    constructor
    · rintro ⟨t, ht⟩
      obtain ⟨t0, h0, hi⟩ := ht.last
      obtain ⟨t1, h1⟩ := ih.1 ⟨t0, h0⟩
      obtain ⟨u, hu⟩ := (h.insert f h0 h1).1 ⟨t, hi⟩
      exact ⟨u, .insert h1 hu⟩
    · rintro ⟨t, ht⟩
      obtain ⟨t1, h1, hi⟩ := ht.last
      obtain ⟨t0, h0⟩ := ih.2 ⟨t1, h1⟩
      obtain ⟨u, hu⟩ := (h.insert f h0 h1).2 ⟨t, hi⟩
      exact ⟨u, .insert h0 hu⟩

/-- A tree that can only copy its values finds no other ones. -/
theorem sound (h : TreeGeneric O) : TreeSound O fun _ _ => true := by
  intro t l path v hb hl
  by_contra hno
  -- renaming `v` away leaves the same tree, which would have to find the other value
  have hmap : l.map (Prod.map id (Function.update id v (v + 1))) = l := by
    conv_rhs => rw [← List.map_id l]
    refine List.map_congr_left fun e he => ?_
    have hne : e.2 ≠ v := by
      rintro rfl
      exact hno ⟨e.1, he, rfl⟩
    simp [Prod.map, hne]
  have := h.lookup _ path hb (hmap.symm ▸ hb)
  simp [hl] at this

end TreeGeneric

section
variable {O : TreeOps} {accepts finer : String → String → Bool}

theorem TreeSpec.sound (h : TreeSpec O accepts finer) : TreeSound O accepts := by
  intro t l path v hb hl
  obtain ⟨p, hp, ha, -⟩ := h.lookup_some hb hl
  exact ⟨p, hp, ha⟩

theorem TreeSpec.lookup_none (h : TreeSpec O accepts finer) {t : O.Tree} {l : List (String × Nat)}
    {path : String} (hb : O.Built t l) (hn : O.lookup t path = none) :
    ∀ e ∈ l, accepts e.1 path = false := by
  intro e he
  by_contra hc
  have := h.lookup_isSome hb (p := e.1) (v := e.2) he (by simpa using hc)
  simp [hn] at this

theorem TreeSpec.servesAlone (h : TreeSpec O accepts finer) (p : String) :
    ServesAlone O accepts p := by
  intro t v path hb
  cases hl : O.lookup t path with
  | none =>
    have := h.lookup_none hb hl (p, v) (by simp)
    simp [this]
  | some w =>
    obtain ⟨q, hq, ha, -⟩ := h.lookup_some hb hl
    simp only [List.mem_singleton, Prod.mk.injEq] at hq
    obtain ⟨rfl, rfl⟩ := hq
    simp [ha]

end

/-! ## A reference tree -/

/-- No priority decides between two templates of one shape. -/
def clash (t u : String) : Bool :=
  ranks t == ranks u && (parse t).map (·.map shape) == (parse u).map (·.map shape)
where
  shape : Tok → Option Char
    | .lit c => some c
    | _ => none

def best (l : List (String × Nat)) (path : String) (e : String × Nat) : Bool :=
  accepts e.1 path && l.all fun e' => !(accepts e'.1 path && finer e'.1 e.1)

def refTree : TreeOps where
  Tree := List (String × Nat)
  empty := []
  insert l p v :=
    if (parse p).isNone then .error "malformed route"
    else if l.any fun e => clash e.1 p then .error "conflict with previously registered route"
    else .ok (l ++ [(p, v)])
  lookup l path := (l.find? (best l path)).map Prod.snd

theorem refTree_built {t : refTree.Tree} {l : List (String × Nat)} (h : refTree.Built t l) :
    t = l := by
  induction h with
  | empty => rfl
  | insert _ hi ih =>
    subst ih
    simp only [refTree] at hi
    split at hi
    · simp at hi
    · split at hi
      · simp at hi
      · exact (Except.ok.inj hi).symm

theorem refTree_generic : TreeGeneric refTree where
  insert := by
    intro f t t' l p v hb hb'
    rw [refTree_built hb, refTree_built hb']
    have hany : (l.map (Prod.map id f)).any (fun e => clash e.1 p) = l.any fun e => clash e.1 p := by
      simp [List.any_map, Function.comp_def]
    simp only [refTree, hany]
    split
    · simp
    · split <;> simp
  lookup := by
    intro f t t' l path hb hb'
    rw [refTree_built hb, refTree_built hb']
    have hbest : best (l.map (Prod.map id f)) path ∘ Prod.map id f = best l path := by
      funext e
      simp [best, List.all_map, Function.comp_def]
    simp only [refTree, List.find?_map, hbest, Option.map_map]
    rfl

theorem exists_best {l : List (String × Nat)} {path : String} {e : String × Nat} (he : e ∈ l)
    (ha : accepts e.1 path = true) : ∃ b ∈ l, best l path b = true := by
  have hne : (l.toFinset.filter fun e => accepts e.1 path = true).Nonempty :=
    ⟨e, by simp [he, ha]⟩
  obtain ⟨b, hb, hmax⟩ := Finset.exists_max_image _ (fun e => ranks e.1) hne
  simp only [Finset.mem_filter, List.mem_toFinset] at hb hmax
  refine ⟨b, hb.1, ?_⟩
  simp only [best, hb.2, Bool.true_and, List.all_eq_true, Bool.not_eq_true', Bool.and_eq_false_iff]
  intro e' he'
  by_cases ha' : accepts e'.1 path = true
  · exact .inr (by simpa [finer] using hmax e' ⟨he', ha'⟩)
  · exact .inl (by simpa using ha')

theorem refTree_spec : TreeSpec refTree accepts finer where
  lookup_some := by
    intro t l path v hb hl
    rw [refTree_built hb] at hl
    simp only [refTree, Option.map_eq_some_iff] at hl
    obtain ⟨⟨p, w⟩, hf, rfl⟩ := hl
    have hp := List.find?_some hf
    simp only [best, Bool.and_eq_true, List.all_eq_true] at hp
    refine ⟨p, List.mem_of_find?_eq_some hf, hp.1, fun q u hq ha => ?_⟩
    have := hp.2 (q, u) hq
    simpa [ha] using this
  lookup_isSome := by
    intro t l path p v hb hm ha
    rw [refTree_built hb]
    obtain ⟨b, hbm, hbb⟩ := exists_best hm ha
    simp only [refTree, Option.isSome_map]
    exact List.find?_isSome.2 ⟨b, hbm, hbb⟩

end Template
