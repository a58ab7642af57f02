import PingoraGuide.Lib.Search
import PingoraGuide.PhaseSpecs
import PingoraGuide.RouteMatch
/-!
# The forms of an authority

A client names a host in any letter case, with or without a port, in the `Host` header or in the
request URI. `request_filter` takes the whole `Host` value, but the URI authority without its port
(gateway.rs:111-113), and `validate_host` compares it with the configured names as it stands: the
forms of one host part at every route that lists it (`host_forms_iff`).

| here | meaning |
| --- | --- |
| `Form`        | the name in some letter case, perhaps with a port |
| `Carries`     | a request header with a form in `Host`, or without `Host` and with the name in its URI |
| `considered`  | the routes whose hostnames `match_request` asks for a path, in order |
| `Unlisted`    | the first of them without hostnames comes before any that lists the host |
-/
namespace PingoraGuide
open Fallible Wire Search
open Template (TreeSound)

variable {K : Crates} {accepts : String → String → Bool}

/-! ## Authorities -/

/-- Visible, and no delimiter of an authority. -/
def hostChar (c : Char) : Bool :=
  33 ≤ c.toNat && c.toNat < 127 && !":/?#[]@".toList.contains c

def HostName (name : String) : Prop := name ≠ "" ∧ name.toList.all hostChar = true

/-- Nothing, or a colon and digits. -/
def PortSuffix (port : String) : Prop :=
  port = "" ∨ ∃ d digits, (d :: digits).all Char.isDigit = true ∧
    port = String.ofList (':' :: d :: digits)

def Form (name form : String) : Prop :=
  ∃ spelled port, lower spelled = lower name ∧ PortSuffix port ∧ form = spelled ++ port

def Carries (name : String) (h : RequestHeader) : Prop :=
  (∃ form, Form name form ∧ HeaderMap.header h.headers "Host" = some (utf8 form)) ∨
  (HeaderMap.header h.headers "Host" = none ∧
    ∃ spelled, lower spelled = lower name ∧ h.uriHost = some spelled)

theorem hostChar_visible {name : String} (hname : HostName name) :
    ∀ c ∈ name.toList, 33 ≤ c.toNat ∧ c.toNat < 127 := by
  intro c hc
  have hchar := List.all_eq_true.1 hname.2 c hc
  simp only [hostChar, Bool.and_eq_true, decide_eq_true_eq] at hchar
  exact hchar.1

theorem PortSuffix.visible {port : String} (h : PortSuffix port) :
    ∀ c ∈ port.toList, 33 ≤ c.toNat ∧ c.toNat < 127 := by
  rcases h with rfl | ⟨d, digits, hdigits, rfl⟩
  · simp
  · rw [String.toList_ofList]
    intro c hc
    rcases List.mem_cons.1 hc with rfl | hc
    · decide
    · have hdigit := List.all_eq_true.1 hdigits c hc
      simp only [Char.isDigit, Bool.and_eq_true, decide_eq_true_eq] at hdigit
      have hlow : 48 ≤ c.toNat := UInt32.le_iff_toNat_le.1 hdigit.1
      have hhigh : c.toNat ≤ 57 := UInt32.le_iff_toNat_le.1 hdigit.2
      omega

theorem Form.visible {name form : String} (hname : HostName name) (h : Form name form) :
    ∀ c ∈ form.toList, 32 ≤ c.toNat ∧ c.toNat < 127 := by
  obtain ⟨spelled, port, hlower, hport, rfl⟩ := h
  have hspelled := visible_of_lower hlower (hostChar_visible hname)
  intro c hc
  rw [String.toList_append] at hc
  rcases List.mem_append.1 hc with hc | hc
  · have := hspelled c hc
    omega
  · have := hport.visible c hc
    omega

/-- The host that is looked up is a form, and every form is looked up for some request. -/
theorem Carries.requestHost {name : String} (hname : HostName name) {h : RequestHeader}
    (hc : Carries name h) : ∃ form, Form name form ∧ requestHost h = some form := by
  rcases hc with ⟨form, hform, hheader⟩ | ⟨hheader, spelled, hlower, huri⟩
  · refine ⟨form, hform, ?_⟩
    rw [PingoraGuide.requestHost, headerText, hheader, Option.bind_some,
      toStr_utf8 (hform.visible hname), Option.some_or]
  · refine ⟨spelled, ⟨spelled, "", hlower, .inl rfl, by simp⟩, ?_⟩
    rw [PingoraGuide.requestHost, headerText, hheader, Option.bind_none, Option.none_or, huri]

/-- No finite list of names holds every form. -/
theorem exists_form_not_mem (name : String) (hs : List String) : ∃ form, Form name form ∧ form ∉ hs := by
  obtain ⟨n, hn⟩ : ∃ n, ∀ h ∈ hs, h.toList.length ≤ n := by
    induction hs with
    | nil => exact ⟨0, by simp⟩
    | cons h hs ih =>
      obtain ⟨n, hn⟩ := ih
      refine ⟨n + h.toList.length, fun x hx => ?_⟩
      rcases List.mem_cons.1 hx with rfl | hx
      · omega
      · have := hn x hx
        omega
  refine ⟨name ++ String.ofList (':' :: '1' :: List.replicate n '1'), ⟨name, _, rfl, .inr
    ⟨'1', List.replicate n '1', ?_, rfl⟩, rfl⟩, fun hmem => ?_⟩
  · refine List.all_eq_true.2 fun c hc => ?_
    obtain rfl : c = '1' := by
      rcases List.mem_cons.1 hc with hc | hc
      · exact hc
      · exact (List.mem_replicate.1 hc).2
    decide
  · have := hn _ hmem
    simp at this
    omega

/-! ## The routes a lookup asks -/

variable (K) in
def regexMatches (path : String) (route : RouteConf) : Bool :=
  match route.pathType, K.regexNew route.path with
  | .Regex, .ok re => re path
  | _, _ => false

def considered (r : Router K) (conf : GatewayConf) (path : String) : List RouteConf :=
  match (K.tree.lookup r.matchitRouter path).bind (conf.routes[·]?) with
  | some route =>
    if route.pathType = .Exact ∧ path ≠ route.path then []
    else route :: conf.routes.filter (regexMatches K path)
  | none => conf.routes.filter (regexMatches K path)

theorem regexAdmits_eq (path : String) (host : Option String) (p : RouteConf × Nat) :
    regexAdmits K path host p = (regexMatches K path p.1 && Router.validateHost p.1 host) := by
  unfold regexAdmits regexMatches
  cases p.1.pathType <;> cases K.regexNew p.1.path <;> rfl

theorem regex_scan (l : List RouteConf) (path : String) (host : Option String) :
    (l.zipIdx.find? (regexAdmits K path host)).map Prod.fst =
      (l.filter (regexMatches K path)).find? (Router.validateHost · host) := by
  have hadmits : regexAdmits K path host =
      (fun route => regexMatches K path route && Router.validateHost route host) ∘ Prod.fst :=
    funext fun p => regexAdmits_eq path host p
  rw [hadmits, ← List.find?_map, List.zipIdx_map_fst, List.find?_filter]
  simp

/-- The lookup returns the first route it asks that admits the host. -/
theorem matchRequest_considered (hs : TreeSound K.tree accepts) {conf : GatewayConf} {r : Router K}
    (hnew : Router.new K conf = .ok r) (path : String) (host : Option String) :
    ∃ found, r.matchRequest path host = .ok found ∧
      found.map (·.conf.val) = (considered r conf path).find? (Router.validateHost · host) := by
  have hr := new_indexed hnew
  obtain ⟨picked, hlook, hp, heq⟩ := matchRequest_eq_routed accepts hr path host (hs hr.tree)
  have hpicked : (K.tree.lookup r.matchitRouter path).bind (conf.routes[·]?) = picked.map Prod.fst := by
    rw [hlook]
    cases hq : picked with
    | none => rfl
    | some q => exact mem_routes_zipIdx.1 (hp q hq).1
  have hrouted : (routed K conf.routes.zipIdx picked path host).map Prod.fst =
      (considered r conf path).find? (Router.validateHost · host) := by
    unfold considered routed
    rw [hpicked]
    cases picked with
    | none => exact regex_scan ..
    | some q =>
      dsimp only [Option.map_some]
      split
      · rfl
      · rw [List.find?_cons]
        cases hv : Router.validateHost q.1 host with
        | true => rfl
        | false => exact regex_scan ..
  refine ⟨_, heq, ?_⟩
  rw [← hrouted]
  cases hrt : routed K conf.routes.zipIdx picked path host with
  | none => rfl
  | some q =>
    obtain ⟨acl, -, hg⟩ := hr.entry (routed_sound hp hrt).1
    simp [hg]

/-- Lookups agree when the searches do: an entry is determined by its route. -/
theorem matchRequest_agree_iff (hs : TreeSound K.tree accepts) {conf : GatewayConf} {r : Router K}
    (hnew : Router.new K conf = .ok r) (path : String) (host host' : Option String) :
    r.matchRequest path host = r.matchRequest path host' ↔
      (considered r conf path).find? (Router.validateHost · host) =
        (considered r conf path).find? (Router.validateHost · host') := by
  obtain ⟨found, hfound, hconf⟩ := matchRequest_considered hs hnew path host
  obtain ⟨found', hfound', hconf'⟩ := matchRequest_considered hs hnew path host'
  rw [hfound, hfound', Res.ok.injEq, ← hconf, ← hconf']
  refine ⟨fun h => by rw [h], fun h => ?_⟩
  cases hf : found with
  | none =>
    cases hf' : found' with
    | none => rfl
    | some e' => simp [hf, hf'] at h
  | some e =>
    cases hf' : found' with
    | none => simp [hf, hf'] at h
    | some e' =>
      obtain ⟨i, -, hacl⟩ := (new_indexed hnew).matched_entry (hf ▸ hfound)
      obtain ⟨i', -, hacl'⟩ := (new_indexed hnew).matched_entry (hf' ▸ hfound')
      have hval : e.conf.val = e'.conf.val := by simpa [hf, hf'] using h
      rw [hval] at hacl
      obtain ⟨⟨route⟩, acl⟩ := e
      obtain ⟨⟨route'⟩, acl'⟩ := e'
      obtain rfl : route = route' := hval
      obtain rfl : acl = acl' := Except.ok.inj (hacl.symm.trans hacl')
      rfl

/-! ## Hosts without a list -/

def Unlisted (name : String) : List RouteConf → Prop
  | [] => True
  | route :: rest =>
    route.hostnames = none ∨
      ((∀ hs, route.hostnames = some hs → ∀ h ∈ hs, ¬ Form name h) ∧ Unlisted name rest)

theorem validateHost_all {route : RouteConf} (name : String) :
    (∀ form, Form name form → Router.validateHost route (some form) = true) ↔
      route.hostnames = none := by
  unfold Router.validateHost
  cases route.hostnames with
  | none => simp
  | some hs =>
    obtain ⟨form, hform, hno⟩ := exists_form_not_mem name hs
    refine iff_of_false (fun h => hno ?_) (by simp)
    obtain ⟨x, hx, heq⟩ := List.any_eq_true.1 (h form hform)
    exact beq_iff_eq.1 heq ▸ hx

theorem validateHost_unlisted {route : RouteConf} {name : String} {hs : List String}
    (hhosts : route.hostnames = some hs) :
    (∀ form, Form name form → Router.validateHost route (some form) = false) ↔
      ∀ h ∈ hs, ¬ Form name h := by
  simp only [Router.validateHost, hhosts, List.any_eq_false, beq_iff_eq]
  constructor
  · exact fun hno h hh hform => hno h hform h hh rfl
  · rintro hno form hform h hh rfl
    exact hno h hh hform

theorem settled_iff (name : String) (l : List RouteConf) :
    Settled (Form name) (fun form route => Router.validateHost route (some form)) l ↔
      Unlisted name l := by
  induction l with
  | nil => exact Iff.rfl
  | cons route l ih =>
    unfold Settled Unlisted
    rw [validateHost_all, ih]
    refine or_congr_right' fun hlisted => and_congr_left' ?_
    obtain ⟨hs, hhosts⟩ := Option.ne_none_iff_exists'.1 hlisted
    rw [validateHost_unlisted hhosts, hhosts]
    simp

/-- Every request for the path that carries the name is given the same route. -/
def HostIndependent (g : Gateway K) (path name : String) : Prop :=
  ∀ s s' : St K Unit, s.session.reqHeader.path = path → s'.session.reqHeader.path = path →
    Carries name s.session.reqHeader → Carries name s'.session.reqHeader → g.matched s = g.matched s'

/-- The request for a path whose `Host` header is the form. -/
def formRequest (path form : String) : Session :=
  { getRequest path with reqHeader := ⟨"GET", path, none, [("host", utf8 form)]⟩ }

theorem formRequest_header (path form : String) :
    HeaderMap.header (formRequest path form).reqHeader.headers "Host" = some (utf8 form) := by
  have hlower : lower "Host" = "host" := by decide
  rw [HeaderMap.header, hlower]
  rfl

theorem formRequest_host {name form : String} (path : String) (hname : HostName name)
    (hform : Form name form) : requestHost (formRequest path form).reqHeader = some form := by
  rw [requestHost, headerText, formRequest_header, Option.bind_some,
    toStr_utf8 (hform.visible hname), Option.some_or]

def formState (path form : String) : St K Unit := (Gateway.start (formRequest path form)).2

/-- **Forms of an authority.** All forms of a host name are routed alike if and only if, among the
routes asked for the path, no route that lists a form comes before the first one without
hostnames. -/
theorem host_forms_iff (hs : TreeSound K.tree accepts) {g : Gateway K} {conf : GatewayConf}
    (hnew : Router.new K conf = .ok g.router) (path name : String) (hname : HostName name) :
    HostIndependent g path name ↔ Unlisted name (considered g.router conf path) := by
  rw [← settled_iff, ← find?_agree_iff]
  constructor
  · intro h form form' hform hform'
    have hmatched := h (formState path form) (formState path form') rfl rfl
      (.inl ⟨form, hform, formRequest_header path form⟩)
      (.inl ⟨form', hform', formRequest_header path form'⟩)
    have hlookup : ∀ f, Form name f →
        g.matched (formState path f) = g.router.matchRequest path (some f) := by
      intro f hf
      rw [← formRequest_host path hname hf]
      rfl
    rwa [hlookup form hform, hlookup form' hform', matchRequest_agree_iff hs hnew] at hmatched
  · rintro h s s' hpath hpath' hc hc'
    obtain ⟨form, hform, hhost⟩ := hc.requestHost hname
    obtain ⟨form', hform', hhost'⟩ := hc'.requestHost hname
    rw [Gateway.matched, Gateway.matched, hpath, hpath', hhost, hhost',
      matchRequest_agree_iff hs hnew]
    exact h form form' hform hform'

/-! ## A name that is listed -/

def listedConf : GatewayConf where
  routes := [{ path := "/{*rest}", upstreamId := "a", hostnames := some ["example.com"] }]

def listedGateway (r : Router refCrates) : Gateway refCrates := ⟨r, fun _ => none, []⟩

/-- The same host in the URI of a request without a `Host` header. -/
def uriState (path host : String) : St refCrates Unit :=
  (Gateway.start { getRequest path with reqHeader := ⟨"GET", path, some host, []⟩ }).2

theorem example_hostName : HostName "example.com" := ⟨by decide, rfl⟩

theorem example_with_port : Form "example.com" "example.com:8080" :=
  ⟨"example.com", ":8080", rfl, .inr ⟨'8', ['0', '8', '0'], rfl, rfl⟩, rfl⟩

theorem uriState_carries (path name : String) :
    Carries name (uriState path name).session.reqHeader :=
  .inr ⟨rfl, name, rfl, rfl⟩

/-- The port in the `Host` header, or a capital letter, loses the route. -/
theorem port_misses_route :
    ∃ r, Router.new refCrates listedConf = .ok r ∧
      Carries "example.com" (formState (K := refCrates) "/a" "example.com:8080").session.reqHeader ∧
      (∃ entry, (listedGateway r).matched (uriState "/a" "example.com") = .ok (some entry)) ∧
      (listedGateway r).matched (formState "/a" "example.com:8080") = .ok none ∧
      (listedGateway r).matched (formState "/a" "Example.com") = .ok none ∧
      ¬ HostIndependent (listedGateway r) "/a" "example.com" := by
  have hcarries : Carries "example.com"
      (formState (K := refCrates) "/a" "example.com:8080").session.reqHeader :=
    .inl ⟨_, example_with_port, formRequest_header _ _⟩
  refine ⟨_, rfl, hcarries, ⟨_, rfl⟩, rfl, rfl, fun h => ?_⟩
  have heq := h (uriState "/a" "example.com") (formState "/a" "example.com:8080") rfl rfl
    (uriState_carries _ _) hcarries
  cases heq

theorem host_forms_iff_listed :
    ∃ r, Router.new refCrates listedConf = .ok r ∧
      (HostIndependent (listedGateway r) "/a" "example.com" ↔
        Unlisted "example.com" (considered r listedConf "/a")) :=
  ⟨_, rfl, host_forms_iff Template.refTree_spec.sound rfl "/a" "example.com" example_hostName⟩

end PingoraGuide
