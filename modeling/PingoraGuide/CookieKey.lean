import PingoraGuide.StickyKey
/-!
# Which cookie a sticky session is keyed by

`firstCookie` looks for a part that starts with the configured name and its `=`. For a name without
`=` that is the first part whose name, the text before its first `=`, is the configured one
(`firstCookie_first`), and the byte slice behind the marker always falls on a character
(`cookieLoop_ok`).
-/
namespace PingoraGuide
open Fallible Wire

variable {K : Crates}

/-- The part is a cookie of this name with this value, cut at its first `=`. -/
def NameValue (part name value : List Char) : Prop := part = name ++ '=' :: value ∧ '=' ∉ name

/-- `value` is that of the first part named `name`, and empty if there is none. -/
def FirstNamed (name : List Char) (parts : List (List Char)) (value : List Char) : Prop :=
  (∃ before part after, parts = before ++ part :: after ∧ NameValue part name value ∧
    ∀ q ∈ before, ∀ v, ¬ NameValue q name v) ∨
  ((∀ q ∈ parts, ∀ v, ¬ NameValue q name v) ∧ value = [])

/-- The loop with its slice `part[cookie_key.len()..]` (load_balancer.rs:102-108). -/
def cookieLoop (key : List Char) : List (List Char) → Res PingoraGuideError (List Char)
  | [] => .ok []
  | part :: parts =>
    if key.isPrefixOf (trim part) then
      Res.expect "byte index is not a char boundary"
        (sliceFrom (trim part) (key.flatMap String.utf8EncodeChar).length)
    else cookieLoop key parts

/-- The slice never panics. -/
theorem cookieLoop_ok (key : List Char) (parts : List (List Char)) :
    cookieLoop key parts = .ok (firstCookie key parts) := by
  induction parts with
  | nil => rfl
  | cons part parts ih =>
    unfold cookieLoop firstCookie
    by_cases hp : key.isPrefixOf (trim part) = true
    · rw [if_pos hp, if_pos hp]
      obtain ⟨rest, hrest⟩ := List.isPrefixOf_iff_prefix.1 hp
      rw [← hrest, sliceFrom_append, List.drop_left]
      rfl
    · rw [if_neg hp, if_neg hp, ih]

/-- A part starts with the marker exactly when it is a cookie of that name. -/
theorem marker_iff {name part : List Char} (hname : '=' ∉ name) :
    (name ++ ['=']).isPrefixOf part = true ↔
      NameValue part name (part.drop (name ++ ['=']).length) := by
  rw [List.isPrefixOf_iff_prefix]
  constructor
  · rintro ⟨value, rfl⟩
    refine ⟨?_, hname⟩
    rw [List.drop_left, List.append_assoc]
    rfl
  · rintro ⟨hpart, -⟩
    refine ⟨part.drop (name ++ ['=']).length, ?_⟩
    conv_rhs => rw [hpart]
    rw [List.append_assoc]
    rfl

theorem NameValue.value {part name value : List Char} (h : NameValue part name value) :
    value = part.drop (name ++ ['=']).length := by
  have hsplit : part = (name ++ ['=']) ++ value := by simp [h.1]
  rw [hsplit, List.drop_left]

/-- The first part that starts with the marker is the first cookie of that name. -/
theorem firstCookie_first {name : List Char} (hname : '=' ∉ name) (parts : List (List Char)) :
    FirstNamed name (parts.map trim) (firstCookie (name ++ ['=']) parts) := by
  induction parts with
  | nil => exact .inr ⟨by simp, rfl⟩
  | cons part parts ih =>
    unfold firstCookie
    by_cases hp : (name ++ ['=']).isPrefixOf (trim part) = true
    · rw [if_pos hp]
      exact .inl ⟨[], trim part, parts.map trim, rfl, (marker_iff hname).1 hp, by simp⟩
    · rw [if_neg hp]
      have hno : ∀ v, ¬ NameValue (trim part) name v := by
        intro v hv
        exact hp ((marker_iff hname).2 (hv.value ▸ hv))
      rcases ih with ⟨before, found, after, heq, hfound, hbefore⟩ | ⟨hnone, hvalue⟩
      · refine .inl ⟨trim part :: before, found, after, by simp [heq], hfound, ?_⟩
        intro q hq
        rcases List.mem_cons.1 hq with rfl | hq
        · exact hno
        · exact hbefore q hq
      · refine .inr ⟨?_, hvalue⟩
        intro q hq
        rcases List.mem_cons.1 hq with rfl | hq
        · exact hno
        · exact hnone q hq

/-- **The cookie key.** For a cluster built for the cookie `name` and a first `Cookie` header line
of text, the key is the value of the first cookie of exactly that name among the trimmed parts of
the line, and empty without one; the loop does not panic. -/
theorem cookie_key_exact {name : String} (hname : '=' ∉ name.toList) (lb : LoadBalancer)
    (tls : Bool) (sni : String) (options : Option ClusterOptions) {s : St K Unit} {line : Bytes}
    {more : List Bytes} (hline : cookieLines s.session.reqHeader = line :: more)
    (htext : line.all visibleAscii = true) :
    ∃ value, FirstNamed name.toList (((line.map chr).splitOn ';').map trim) value ∧
      (LoadBalancerCluster.new lb tls sni options (some (.Cookie name))).hashKey s =
        (.ok (String.ofList value), s) ∧
      cookieLoop (name ++ "=").toList ((line.map chr).splitOn ';') = .ok value := by
  have hkey : (name ++ "=").toList = name.toList ++ ['='] := by simp
  refine ⟨firstCookie (name ++ "=").toList ((line.map chr).splitOn ';'), ?_, ?_, ?_⟩
  · rw [hkey]
    exact firstCookie_first hname _
  · have hheader : headerText s.session.reqHeader "Cookie" = some (String.ofList (line.map chr)) := by
      rw [cookie_header, hline]
      exact toStr_eq htext
    unfold LoadBalancerCluster.hashKey
    rw [Act.get_bind_run]
    dsimp only [LoadBalancerCluster.new]
    rw [hheader]
    dsimp only
    rw [String.toList_ofList]
    rfl
  · exact cookieLoop_ok _ _

/-- Lookalikes around the cookie: a longer name, a marker inside a value, a part without `=`. -/
def lookalikeLine : Bytes := utf8 "xsid=1; theme=sid=2;sid ;\tsid=a=b; sid=c"

def lookalikes : St refCrates Unit := (Gateway.start (cookieRequest [lookalikeLine])).2

theorem cookie_key_lookalikes :
    (stickyCluster.hashKey lookalikes).1 = .ok "a=b" ∧
    ∃ value, FirstNamed "sid".toList (((lookalikeLine.map chr).splitOn ';').map trim) value ∧
      stickyCluster.hashKey lookalikes = (.ok (String.ofList value), lookalikes) := by
  have hname : '=' ∉ "sid".toList := by decide
  have hline : cookieLines lookalikes.session.reqHeader = lookalikeLine :: [] := rfl
  have htext : lookalikeLine.all visibleAscii = true := by decide
  obtain ⟨value, hfirst, hrun, -⟩ := cookie_key_exact hname stickyLb false "" none hline htext
  exact ⟨by decide, value, hfirst, hrun⟩

end PingoraGuide
