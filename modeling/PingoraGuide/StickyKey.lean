import PingoraGuide.Lifecycle
/-!
# The key of a sticky session

| here | meaning |
| --- | --- |
| `cookieLines`, `cookieParts` | the values of the `Cookie` header lines, and one line cut at its `;` |
| `cookieValue`                | the value of the first cookie of a name, over all lines, on bytes |
| `SameAttribute`              | two requests agree on what the cluster hashes |
| `SeenFirst`                  | the cookie stands in the first line, and that line is text |

The key depends on the attribute alone, except for a cookie: only the first `Cookie` line is read,
and an unrelated byte in it that is not text discards the whole line (`sticky_key_iff`).
-/
namespace PingoraGuide
open Fallible Wire

variable {K : Crates}

/-! ## Cookies on bytes -/

def cookieLines (h : RequestHeader) : List Bytes := MultiMap.getAll h.headers "cookie"

def cookieParts (line : Bytes) : List Bytes := (line.splitOn 59).map trimBlank

def namedValue (name : String) (parts : List Bytes) : Option Bytes :=
  parts.findSome? (valueOf (utf8 (name ++ "=")))

def cookieValue (h : RequestHeader) (name : String) : Option Bytes :=
  namedValue name ((cookieLines h).flatMap cookieParts)

def SeenFirst (name : String) (h : RequestHeader) : Prop :=
  ∃ line rest, cookieLines h = line :: rest ∧ line.all visibleAscii = true ∧
    (namedValue name (cookieParts line)).isSome = true

theorem namedValue_append (name : String) (l l' : List Bytes) :
    namedValue name (l ++ l') = (namedValue name l).or (namedValue name l') :=
  List.findSome?_append

theorem trim_chr (w : Bytes) : trim (w.map chr) = (trimBlank w).map chr := by
  have hdrop : ∀ v : Bytes, (v.map chr).dropWhile Char.isWhitespace = (v.dropWhile blank).map chr :=
    fun v => List.dropWhile_map ..
  unfold trim trimBlank
  rw [hdrop, ← List.map_reverse, hdrop, ← List.map_reverse]

/-- The loop over the parts of a line that is text finds what a search on its bytes finds. -/
theorem firstCookie_chr (name : String) {parts : List Bytes}
    (hparts : ∀ part ∈ parts, ∀ b ∈ trimBlank part, b.toNat < 128) :
    firstCookie (name ++ "=").toList (parts.map (·.map chr)) =
      ((namedValue name (parts.map trimBlank)).getD []).map chr := by
  induction parts with
  | nil => rfl
  | cons part parts ih =>
    have ih := ih fun p hp => hparts p (by simp [hp])
    have hvalue := valueOf_chr (name ++ "=") (hparts part (by simp))
    rw [List.map_cons, List.map_cons, firstCookie, trim_chr]
    unfold namedValue at ih ⊢
    rw [List.findSome?_cons]
    cases hv : valueOf (utf8 (name ++ "=")) (trimBlank part) with
    | none =>
      rw [hv] at hvalue
      split at hvalue
      · cases hvalue
      · rename_i hno
        rw [if_neg hno]
        exact ih
    | some v =>
      rw [hv] at hvalue
      split at hvalue
      · rename_i hyes
        rw [if_pos hyes]
        exact Option.some.inj hvalue
      · cases hvalue

/-- A first line that is text is searched as its bytes are. -/
theorem firstCookie_line (name : String) {line : Bytes} (hline : line.all visibleAscii = true) :
    firstCookie (name ++ "=").toList ((line.map chr).splitOn ';') =
      ((namedValue name (cookieParts line)).getD []).map chr := by
  have hlt : ∀ b ∈ line, b.toNat < 128 := fun b hb => visibleAscii_lt (List.all_eq_true.1 hline b hb)
  have hsplit : (line.map chr).splitOn ';' = (line.splitOn 59).map (·.map chr) := by
    have hsemi : chr 59 = ';' := by decide
    rw [← hsemi]
    refine splitOn_map fun b hb => ?_
    rw [Bool.eq_iff_iff, beq_iff_eq, beq_iff_eq, ← UInt8.toNat_inj, ← Char.toNat_inj, chr_toNat,
      chr_toNat]
  rw [hsplit]
  exact firstCookie_chr name fun part hpart b hb =>
    hlt b (splitOn_subset hpart (trimBlank_subset part hb))

/-! ## The extracted key -/

theorem cookie_header (h : RequestHeader) :
    headerText h "Cookie" = (cookieLines h).head?.bind toStr := by
  have hname : lower "Cookie" = "cookie" := by decide
  rw [headerText, HeaderMap.header, hname]
  rfl

variable {c : LoadBalancerCluster} {name : String} {s s' : St K Unit}

theorem hashKey_seen (hc : c.hashSource = .Cookie (name ++ "="))
    (hseen : SeenFirst name s.session.reqHeader) :
    ∃ v, cookieValue s.session.reqHeader name = some v ∧
      (c.hashKey s).1 = .ok (String.ofList (v.map chr)) := by
  obtain ⟨line, rest, hlines, htext, hsome⟩ := hseen
  obtain ⟨v, hv⟩ := Option.isSome_iff_exists.1 hsome
  refine ⟨v, ?_, ?_⟩
  · rw [cookieValue, hlines, List.flatMap_cons, namedValue_append, hv, Option.some_or]
  · have hheader : headerText s.session.reqHeader "Cookie" = some (String.ofList (line.map chr)) := by
      rw [cookie_header, hlines]
      exact toStr_eq htext
    unfold LoadBalancerCluster.hashKey
    rw [Act.get_bind_run, hc]
    dsimp only
    rw [hheader]
    dsimp only
    rw [String.toList_ofList, firstCookie_line name htext, hv]
    rfl

theorem hashKey_unseen (hc : c.hashSource = .Cookie (name ++ "="))
    (hunseen : ¬ SeenFirst name s.session.reqHeader) : (c.hashKey s).1 = .ok "" := by
  unfold LoadBalancerCluster.hashKey
  rw [Act.get_bind_run, hc]
  dsimp only
  rw [cookie_header]
  cases hlines : cookieLines s.session.reqHeader with
  | nil => rfl
  | cons line rest =>
    cases htext : line.all visibleAscii with
    | false =>
      rw [List.head?_cons, Option.bind_some, toStr_none htext]
      rfl
    | true =>
      have hnone : namedValue name (cookieParts line) = none := by
        by_contra hsome
        exact hunseen ⟨line, rest, hlines, htext, Option.isSome_iff_ne_none.2 hsome⟩
      rw [List.head?_cons, Option.bind_some, toStr_eq htext]
      dsimp only
      rw [String.toList_ofList, firstCookie_line name htext, hnone]
      rfl

/-! ## Two requests -/

/-- The requests agree on what a cluster is configured to hash. A client on a Unix socket has no IP
address to agree on. -/
def SameAttribute (source : Option HashSource) (s s' : St K Unit) : Prop :=
  match source with
  | none | some .None => True
  | some .ClientIp =>
    (∃ ip port port', s.session.clientAddr = some (.inet ip port) ∧
      s'.session.clientAddr = some (.inet ip port')) ∨
    (s.session.clientAddr = none ∧ s'.session.clientAddr = none)
  | some .Uri => s.session.reqHeader.path = s'.session.reqHeader.path
  | some (.Header name) =>
    HeaderMap.header s.session.reqHeader.headers name =
      HeaderMap.header s'.session.reqHeader.headers name
  | some (.Cookie name) =>
    cookieValue s.session.reqHeader name = cookieValue s'.session.reqHeader name

/-- A cookie that both requests carry with a value is seen in both or in none of them. -/
def SeenAlike (source : Option HashSource) (s s' : St K Unit) : Prop :=
  ∀ name v, source = some (.Cookie name) → cookieValue s.session.reqHeader name = some v → v ≠ [] →
    (SeenFirst name s.session.reqHeader ↔ SeenFirst name s'.session.reqHeader)

/-- If only one of the requests has the cookie where it is read, the keys agree on the empty value
alone. -/
theorem seen_unseen (hc : c.hashSource = .Cookie (name ++ "="))
    (hseen : SeenFirst name s.session.reqHeader)
    (hunseen : ¬ SeenFirst name s'.session.reqHeader) :
    (c.hashKey s).1 = (c.hashKey s').1 ↔ cookieValue s.session.reqHeader name = some [] := by
  obtain ⟨v, hv, hkey⟩ := hashKey_seen hc hseen
  rw [hkey, hashKey_unseen hc hunseen, hv]
  cases v with
  | nil => simp
  | cons b v => simp

theorem cookie_key_iff (hc : c.hashSource = .Cookie (name ++ "="))
    (hsame : cookieValue s.session.reqHeader name = cookieValue s'.session.reqHeader name) :
    (c.hashKey s).1 = (c.hashKey s').1 ↔ SeenAlike (some (.Cookie name)) s s' := by
  have halike : SeenAlike (some (.Cookie name)) s s' ↔
      ∀ v, cookieValue s.session.reqHeader name = some v → v ≠ [] →
        (SeenFirst name s.session.reqHeader ↔ SeenFirst name s'.session.reqHeader) := by
    constructor
    · exact fun h v => h name v rfl
    · rintro h _ v ⟨⟩
      exact h v
  rw [halike]
  by_cases hseen : SeenFirst name s.session.reqHeader
  · by_cases hseen' : SeenFirst name s'.session.reqHeader
    · obtain ⟨v, hv, hkey⟩ := hashKey_seen hc hseen
      obtain ⟨v', hv', hkey'⟩ := hashKey_seen hc hseen'
      obtain rfl : v = v' := Option.some.inj (hv.symm.trans (hsame.trans hv'))
      exact iff_of_true (hkey.trans hkey'.symm) fun _ _ _ => iff_of_true hseen hseen'
    · rw [seen_unseen hc hseen hseen']
      simp only [hseen, hseen', iff_false, not_true_eq_false]
      obtain ⟨v, hv, -⟩ := hashKey_seen hc hseen
      simp [hv]
  · by_cases hseen' : SeenFirst name s'.session.reqHeader
    · rw [eq_comm, seen_unseen hc hseen' hseen, ← hsame]
      simp only [hseen, hseen', false_iff, not_true_eq_false]
      obtain ⟨v, hv, -⟩ := hashKey_seen hc hseen'
      simp [hsame, hv]
    · rw [hashKey_unseen hc hseen, hashKey_unseen hc hseen']
      exact iff_of_true rfl fun _ _ _ => iff_of_false hseen hseen'

/-- **The sticky key.** Requests that agree on the attribute get the same key exactly when the
cookie is seen alike in both; for every other source they always do. -/
theorem sticky_key_iff (lb : LoadBalancer) (tls : Bool) (sni : String)
    (options : Option ClusterOptions) (source : Option HashSource) (s s' : St K Unit)
    (hsame : SameAttribute source s s') :
    ((LoadBalancerCluster.new lb tls sni options source).hashKey s).1 =
        ((LoadBalancerCluster.new lb tls sni options source).hashKey s').1 ↔
      SeenAlike source s s' := by
  cases source with
  | none => exact iff_of_true rfl fun name v h => by cases h
  | some source =>
    cases source with
    | None => exact iff_of_true rfl fun name v h => by cases h
    | ClientIp =>
      refine iff_of_true ?_ fun name v h => by cases h
      unfold LoadBalancerCluster.hashKey
      rw [Act.get_bind_run, Act.get_bind_run]
      rcases hsame with ⟨ip, port, port', hs, hs'⟩ | ⟨hs, hs'⟩
      all_goals
        dsimp only [LoadBalancerCluster.new]
        rw [hs, hs']
        rfl
    | Uri =>
      refine iff_of_true ?_ fun name v h => by cases h
      exact congrArg Res.ok hsame
    | Header name =>
      refine iff_of_true ?_ fun name v h => by cases h
      exact congrArg (fun v => Res.ok ((Option.bind v toStr).getD "")) hsame
    | Cookie name => exact cookie_key_iff rfl hsame

/-! ## A cookie in the second line -/

def cookieRequest (lines : List Bytes) : Session :=
  { getRequest "/" with reqHeader := ⟨"GET", "/", none, lines.map fun line => ("cookie", line)⟩ }

/-- Both cookies in one line, and each in a line of its own. -/
def oneLine : St refCrates Unit := (Gateway.start (cookieRequest [utf8 "theme=dark; sid=a"])).2

def twoLines : St refCrates Unit :=
  (Gateway.start (cookieRequest [utf8 "theme=dark", utf8 "sid=a"])).2

/-- The other cookie holds a byte that is not text. -/
def binaryTheme : St refCrates Unit :=
  (Gateway.start (cookieRequest [utf8 "theme=" ++ 255 :: utf8 "; sid=a"])).2

def stickyLb : LoadBalancer := { selection := .Consistent, discovery := .Static {refBackend} }

def stickyCluster : LoadBalancerCluster := .new stickyLb false "" none (some (.Cookie "sid"))

theorem lines_agree : SameAttribute (some (.Cookie "sid")) oneLine twoLines := by
  show cookieValue oneLine.session.reqHeader "sid" = cookieValue twoLines.session.reqHeader "sid"
  decide

/-- How the cookies are put into lines, and a byte of another cookie, change the key. -/
theorem sticky_key_lost :
    SameAttribute (some (.Cookie "sid")) oneLine twoLines ∧
      SameAttribute (some (.Cookie "sid")) oneLine binaryTheme ∧
      (stickyCluster.hashKey oneLine).1 = .ok "a" ∧
      (stickyCluster.hashKey twoLines).1 = .ok "" ∧
      (stickyCluster.hashKey binaryTheme).1 = .ok "" := by
  refine ⟨lines_agree, ?_, ?_, ?_, ?_⟩
  · show cookieValue oneLine.session.reqHeader "sid" = cookieValue binaryTheme.session.reqHeader "sid"
    decide
  · rfl
  · rfl
  · rfl

theorem sticky_key_iff_lines :
    SameAttribute (some (.Cookie "sid")) oneLine twoLines ∧
      ((stickyCluster.hashKey oneLine).1 = (stickyCluster.hashKey twoLines).1 ↔
        SeenAlike (some (.Cookie "sid")) oneLine twoLines) :=
  ⟨lines_agree, sticky_key_iff stickyLb false "" none (some (.Cookie "sid")) _ _ lines_agree⟩

end PingoraGuide
