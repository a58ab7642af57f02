import PingoraGuide.ForwardedHost
/-!
# The header policy of a forwarded request

`upstream_request_filter` adds, removes, and rewrites Host, in this order, over a map whose names
are compared without letter case. `Forwarded` says what a name carries afterwards; each step is
described on one name at a time (`setHeaders_values`, `removeHeaders_values`), so the iteration
order of the added headers does not matter.
-/
namespace PingoraGuide
open Fallible Wire

variable {K : Crates}

/-- The values of a header name, in any letter case. -/
def HeaderMap.values (m : HeaderMap) (name : String) : List Bytes := MultiMap.getAll m (lower name)

/-- One of the names, in any letter case. -/
def NamedBy (names : List String) (name : String) : Prop := ∃ n ∈ names, lower n = lower name

/-- `name` is Host and the gateway writes it. -/
def RewritesHost (headers : HeaderConf) (sni : Option String) (name : String) : Prop :=
  lower name = lower "Host" ∧ headers.preserveHostHeader = false ∧ sni ≠ none

/-- What `name` carries in the forwarded headers `m'`, when `m` came in: by Host rewrite, else
removed, else added, else as it was. -/
structure Forwarded (headers : HeaderConf) (sni : Option String) (m m' : HeaderMap)
    (name : String) : Prop where
  host : ∀ x, lower name = lower "Host" → headers.preserveHostHeader = false → sni = some x →
    HeaderMap.values m' name = [utf8 x]
  removed : ¬ RewritesHost headers sni name → NamedBy headers.removeReqHeaders name →
    HeaderMap.values m' name = []
  added : ¬ RewritesHost headers sni name → ¬ NamedBy headers.removeReqHeaders name →
    NamedBy (headers.addReqHeaders.entries.map Prod.fst) name →
    ∃ e ∈ headers.addReqHeaders.entries, lower e.1 = lower name ∧
      HeaderMap.values m' name = [utf8 e.2]
  kept : ¬ RewritesHost headers sni name → ¬ NamedBy headers.removeReqHeaders name →
    ¬ NamedBy (headers.addReqHeaders.entries.map Prod.fst) name →
    HeaderMap.values m' name = HeaderMap.values m name

/-! ## The three steps -/

/-- The line an entry writes. -/
def headerLine (e : String × String) : String × Bytes := (lower e.1, utf8 e.2)

theorem setHeaders_ok {entries : List (String × String)} {m m' : HeaderMap}
    (h : setHeaders entries m = (.ok (), m')) :
    m' = MultiMap.insertAll m (entries.map headerLine) := by
  induction entries generalizing m with
  | nil => exact (congrArg Prod.snd h).symm
  | cons e rest ih =>
    obtain ⟨_, m1, h1, h⟩ := Act.bind_eq_ok.1 h
    rw [ih h, setHeader_ok h1]
    rfl

/-- The last entry that names the header wins. -/
theorem setHeaders_values {entries : List (String × String)} {m m' : HeaderMap} (name : String)
    (h : setHeaders entries m = (.ok (), m')) :
    ((∃ e ∈ entries, lower e.1 = lower name ∧ HeaderMap.values m' name = [utf8 e.2]) ∨
      (∀ e ∈ entries, lower e.1 ≠ lower name) ∧
        HeaderMap.values m' name = HeaderMap.values m name) := by
  rw [setHeaders_ok h]
  exact MultiMap.getAll_insertAll headerLine m entries (lower name)

theorem removeHeaders_values (names : List String) (m : HeaderMap) (name : String) :
    (NamedBy names name → HeaderMap.values (removeHeaders names m) name = []) ∧
      (¬ NamedBy names name →
        HeaderMap.values (removeHeaders names m) name = HeaderMap.values m name) := by
  induction names generalizing m with
  | nil => exact ⟨fun h => by simp [NamedBy] at h, fun _ => rfl⟩
  | cons n names ih =>
    obtain ⟨hin, hout⟩ := ih (removeHeader m n)
    have hstep : HeaderMap.values (removeHeader m n) name =
        if lower name = lower n then [] else HeaderMap.values m name :=
      MultiMap.getAll_remove _ _ _
    have hcons : removeHeaders (n :: names) m = removeHeaders names (removeHeader m n) := rfl
    rw [hcons]
    by_cases hrest : NamedBy names name
    · refine ⟨fun _ => hin hrest, fun hno => ?_⟩
      obtain ⟨x, hx, hn⟩ := hrest
      exact absurd ⟨x, by simp [hx], hn⟩ hno
    · rw [hout hrest, hstep]
      by_cases hn : lower name = lower n
      · exact ⟨fun _ => if_pos hn, fun hno => absurd ⟨n, by simp, hn.symm⟩ hno⟩
      · refine ⟨fun hnamed => ?_, fun _ => if_neg hn⟩
        obtain ⟨x, hx, he⟩ := hnamed
        rcases List.mem_cons.1 hx with rfl | hx
        · exact absurd he.symm hn
        · exact absurd ⟨x, hx, he⟩ hrest

/-- The edits of one request, name by name. -/
theorem editRequest_forwarded {headers : HeaderConf} {sni : Option String} {m m' : HeaderMap}
    (name : String) (h : editRequest headers sni m = (.ok (), m')) :
    Forwarded headers sni m m' name := by
  obtain ⟨m1, hadd, hlast⟩ := editRequest_ok h
  have hadded := setHeaders_values name hadd
  obtain ⟨hin, hout⟩ := removeHeaders_values headers.removeReqHeaders m1 name
  have hkeep : ¬ RewritesHost headers sni name → HeaderMap.values m' name =
      HeaderMap.values (removeHeaders headers.removeReqHeaders m1) name := by
    intro hno
    rcases hlast with ⟨x, hp, rfl, rfl⟩ | ⟨-, rfl⟩
    · exact (MultiMap.getAll_insert _ _ _ _).trans (if_neg fun hn => hno ⟨hn, hp, by simp⟩)
    · rfl
  constructor
  case host =>
    rintro x hn hp rfl
    rcases hlast with ⟨_, -, ⟨⟩, rfl⟩ | ⟨hno, -⟩
    · exact (MultiMap.getAll_insert _ _ _ _).trans (if_pos hn)
    · simp [hp] at hno
  case removed =>
    intro hno hremoved
    rw [hkeep hno, hin hremoved]
  case added =>
    intro hno hremoved hnamed
    rcases hadded with ⟨e, he, hn, hv⟩ | ⟨hnone, -⟩
    · exact ⟨e, he, hn, by rw [hkeep hno, hout hremoved, hv]⟩
    · obtain ⟨n, hn, heq⟩ := hnamed
      obtain ⟨e, he, rfl⟩ := List.mem_map.1 hn
      exact absurd heq (hnone e he)
  case kept =>
    intro hno hremoved hnot
    rcases hadded with ⟨e, he, hn, -⟩ | ⟨-, hv⟩
    · exact absurd ⟨e.1, List.mem_map_of_mem he, hn⟩ hnot
    · rw [hkeep hno, hout hremoved, hv]

/-! ## The phase -/

/-- **The header policy of a forwarded request.** With a route and a `RequestMeta` in the context
and hooks that all continue without editing the request, a phase that returns `Ok` forwards every
header name by the policy of the route. -/
theorem request_header_policy {g : Gateway K} {s s1 s' : St K RequestHeader} {route : RouteConf}
    {rm : RequestMeta} (hhooks : runHooks .upstreamRequest g.chain s = (.ok .Continue, s1))
    (hunedited : s1.msg = s.msg) (hroute : s1.ctx.get .routeConf = some route)
    (hmeta : s1.ctx.get .requestMeta = some rm)
    (h : g.upstreamRequestFilter s = (.ok (), s')) (name : String) :
    Forwarded route.headers rm.sni s.msg.headers s'.msg.headers name := by
  have hedit := upstreamRequestFilter_edits hhooks hroute hmeta h
  rw [hunedited] at hedit
  exact editRequest_forwarded name hedit

/-- A route that adds one header and removes another. -/
def policyHeaders : HeaderConf where
  addReqHeaders := ⟨[("X-Gateway", "pingora")], by simp⟩
  removeReqHeaders := ["Cookie"]

/-- A request under that route, as `upstream_request_filter` gets it. -/
def policyState : St refCrates RequestHeader where
  session := getRequest "/"
  ctx := (newCtx.insert .requestMeta { sni := some "backend" }).insert .routeConf
    { headers := policyHeaders }
  msg := ⟨"GET", "/", none, [("host", utf8 "example.com"), ("cookie", utf8 "id=1")]⟩

theorem request_header_policy_edits :
    ∃ s', plainGateway.upstreamRequestFilter policyState = (.ok (), s') ∧
      Forwarded policyHeaders (some "backend") policyState.msg.headers s'.msg.headers "COOKIE" ∧
      HeaderMap.values s'.msg.headers "COOKIE" = [] := by
  have hhooks := runHooks_silent (s := policyState)
    (chain_silent plainGateway_main (c := .upstreamRequest) (by simp)).1
  have hok : (plainGateway.upstreamRequestFilter policyState).1 = .ok () := by decide +kernel
  have hforwarded := request_header_policy hhooks rfl rfl rfl (Prod.ext hok rfl) "COOKIE"
  have hnot : ¬ RewritesHost policyHeaders (some "backend") "COOKIE" := by
    rintro ⟨h, -⟩
    exact absurd h (by decide)
  refine ⟨_, Prod.ext hok rfl, hforwarded, hforwarded.removed hnot ⟨"Cookie", ?_, by decide⟩⟩
  simp [policyHeaders]

end PingoraGuide
