import PingoraGuide.Routing
/-!
# Soundness and completeness of `match_request`

* `match_request_sound`: the id a lookup yields is always registered, and the route returned
  accepts the path by its own pattern and admits the host.
* `match_request_none`: after `None`, a route that matches alone is a template route that another,
  not coarser, template took the lookup from, whose hostnames refuse the host
  (`overlapping_templates_hide`). Exact picks for another path return at once (router.rs:142-144)
  and are left out.
* `plain_prefix_matches_iff`: a Prefix route without braces matches its own path only, because it
  is inserted like an Exact one (router.rs:70-79): `prefix_slash_misses`.
-/
namespace PingoraGuide
open Fallible Wire
open Template (TreeSound TreeSpec ServesAlone)

variable {K : Crates} {accepts finer : String → String → Bool}

variable (K) in
/-- The route's own pattern accepts the path. -/
def OwnPattern (accepts : String → String → Bool) (route : RouteConf) (path : String) : Prop :=
  match route.pathType with
  | .Exact => path = route.path
  | .Prefix => accepts route.path path = true
  | .Regex => ∃ re, K.regexNew route.path = .ok re ∧ re path = true

/-- The pattern of `route` is registered under `i`. -/
def RegisteredAt (r : Router K) (templates : List (String × Nat)) (route : RouteConf) (i : Nat) :
    Prop :=
  match route.pathType with
  | .Regex => ∃ re, K.regexNew route.path = .ok re ∧ (re, i) ∈ r.regexRoutes
  | _ => (route.path, i) ∈ templates

theorem mem_routes_zipIdx {conf : GatewayConf} {route : RouteConf} {i : Nat} :
    (route, i) ∈ conf.routes.zipIdx ↔ conf.routes[i]? = some route := by
  simp [List.mk_mem_zipIdx_iff_getElem?]

/-- What the table-level decision returns accepts the request. -/
theorem routed_sound {l : List (RouteConf × Nat)} {picked : Option (RouteConf × Nat)}
    {path : String} {host : Option String} {p : RouteConf × Nat}
    (hp : ∀ q, picked = some q → q ∈ l ∧ q.1.pathType ≠ .Regex ∧ accepts q.1.path path = true)
    (h : routed K l picked path host = some p) :
    p ∈ l ∧ HostAdmits p.1 host ∧ OwnPattern K accepts p.1 path := by
  have scan : l.find? (regexAdmits K path host) = some p →
      p ∈ l ∧ HostAdmits p.1 host ∧ OwnPattern K accepts p.1 path := by
    intro hf
    obtain ⟨hty, hre, hh⟩ := regexAdmits_iff.1 (List.find?_some hf)
    exact ⟨List.mem_of_find?_eq_some hf, hh, by simpa [OwnPattern, hty] using hre⟩
  cases picked with
  | none => exact scan h
  | some q =>
    obtain ⟨hm, hty, ha⟩ := hp q rfl
    simp only [routed] at h
    split at h
    · simp at h
    · rename_i hex
      split at h
      · rename_i hv
        obtain rfl := Option.some.inj h
        refine ⟨hm, validateHost_iff.1 hv, ?_⟩
        unfold OwnPattern
        cases hpt : q.1.pathType with
        | Exact => simpa [hpt] using hex
        | Prefix => exact ha
        | Regex => exact absurd hpt hty
      · exact scan h

/-- Without an Exact pick for another path, no route is returned when the scan finds none and the
picked route refuses the host. -/
theorem routed_eq_none {l : List (RouteConf × Nat)} {picked : Option (RouteConf × Nat)}
    {path : String} {host : Option String}
    (hexact : ∀ q, picked = some q → ¬ (q.1.pathType = .Exact ∧ path ≠ q.1.path))
    (h : routed K l picked path host = none) :
    l.find? (regexAdmits K path host) = none ∧ ∀ q, picked = some q → ¬ HostAdmits q.1 host := by
  cases picked with
  | none => exact ⟨h, by simp⟩
  | some q =>
    simp only [routed, if_neg (hexact q rfl)] at h
    split at h
    · simp at h
    · rename_i hv
      refine ⟨h, fun p hp hh => hv ?_⟩
      obtain rfl := Option.some.inj hp
      exact validateHost_iff.2 hh

/-- Every route of the table is registered, so `None` is the decision of the table, too. -/
theorem Router.Indexed.routed_eq_none {r : Router K} {l : List (RouteConf × Nat)}
    (hr : r.Indexed l) {picked : Option (RouteConf × Nat)} {path : String} {host : Option String}
    (hp : ∀ q, picked = some q → q ∈ l ∧ q.1.pathType ≠ .Regex ∧ accepts q.1.path path = true)
    (hnone : ((routed K l picked path host).bind fun p => r.routeRegistry p.2) = none) :
    routed K l picked path host = none := by
  cases hrt : routed K l picked path host with
  | none => rfl
  | some q =>
    obtain ⟨acl, -, hg⟩ := hr.entry (routed_sound hp hrt).1
    simp [hrt, hg] at hnone

/-- **Routing soundness.** The router is built with every stored id registered; a lookup never
panics, and a route it returns is the configured one under its id, admits the host and accepts the
path by its own pattern. -/
theorem match_request_sound (hs : TreeSound K.tree accepts) {conf : GatewayConf} {r : Router K}
    (hnew : Router.new K conf = .ok r) (path : String) (host : Option String) :
    ∃ templates, K.tree.Built r.matchitRouter templates ∧
      (∀ e ∈ templates, (r.routeRegistry e.2).isSome) ∧
      (∀ e ∈ r.regexRoutes, (r.routeRegistry e.2).isSome) ∧
      ∃ found, r.matchRequest path host = .ok found ∧
        ∀ entry, found = some entry → ∃ i route, conf.routes[i]? = some route ∧
          r.routeRegistry i = some entry ∧ entry.conf = ⟨route⟩ ∧
          RegisteredAt r templates route i ∧ HostAdmits route host ∧
          OwnPattern K accepts route path := by
  have hr := new_indexed hnew
  refine ⟨templatesOf conf.routes.zipIdx, hr.tree, ?_, ?_, ?_⟩
  · rintro ⟨t, i⟩ he
    obtain ⟨route, hm, -, -⟩ := mem_templatesOf.1 he
    obtain ⟨acl, -, hg⟩ := hr.entry hm
    simp [hg]
  · rintro ⟨re, i⟩ he
    rw [hr.regex] at he
    obtain ⟨route, hm, -, -⟩ := mem_regexesOf.1 he
    obtain ⟨acl, -, hg⟩ := hr.entry hm
    simp [hg]
  obtain ⟨picked, -, hp, heq⟩ := matchRequest_eq_routed accepts hr path host (hs hr.tree)
  refine ⟨_, heq, ?_⟩
  intro entry he
  obtain ⟨⟨route, i⟩, hrt, hg⟩ := Option.bind_eq_some_iff.1 he
  obtain ⟨hm, hh, hown⟩ := routed_sound hp hrt
  obtain ⟨acl, -, hg'⟩ := hr.entry hm
  refine ⟨i, route, mem_routes_zipIdx.1 hm, hg, ?_, ?_, hh, hown⟩
  · obtain rfl := Option.some.inj (hg.symm.trans hg')
    rfl
  · unfold RegisteredAt
    split
    · rename_i hty
      obtain ⟨re, hre⟩ := hr.compiled hm hty
      exact ⟨re, hre, hr.regex ▸ mem_regexesOf.2 ⟨route, hm, hty, hre⟩⟩
    · rename_i hty
      exact mem_templatesOf.2 ⟨route, hm, fun h => hty h, rfl⟩

/-! ## One route alone -/

variable (K) in
/-- The route, alone in a table, matches the request. -/
def MatchesAlone (accepts : String → String → Bool) (route : RouteConf) (path : String)
    (host : Option String) : Prop :=
  OwnPattern K accepts route path ∧ HostAdmits route host ∧
    (route.pathType ≠ .Regex → accepts route.path path = true)

section
variable {conf : GatewayConf} {route : RouteConf} (hc : conf.routes = [route]) {r : Router K}
  (hnew : Router.new K conf = .ok r)
include hc hnew

theorem templates_singleton : K.tree.Built r.matchitRouter (templatesOf [(route, 0)]) := by
  have hr := new_indexed hnew
  have hz : conf.routes.zipIdx = [(route, 0)] := by simp [hc]
  rw [hz] at hr
  exact hr.tree

/-- A router with one route returns it exactly when it matches alone, if the tree finds it exactly
where its template accepts the path. -/
theorem matchRequest_singleton (path : String) (host : Option String)
    (hlook : K.tree.lookup r.matchitRouter path =
      if route.pathType ≠ .Regex ∧ accepts route.path path = true then some 0 else none) :
    (MatchesAlone K accepts route path host ∧
      ∃ entry, r.matchRequest path host = .ok (some entry) ∧ entry.conf = ⟨route⟩) ∨
    (¬ MatchesAlone K accepts route path host ∧ r.matchRequest path host = .ok none) := by
  have hr := new_indexed hnew
  have hz : conf.routes.zipIdx = [(route, 0)] := by simp [hc]
  rw [hz] at hr
  obtain ⟨acl, -, hg⟩ := hr.entry (List.mem_singleton.2 rfl)
  have hs : ∀ {v}, K.tree.lookup r.matchitRouter path = some v →
      ∃ p, (p, v) ∈ templatesOf [(route, 0)] ∧ accepts p path = true := by
    intro v hv
    rw [hlook, Option.ite_none_right_eq_some] at hv
    obtain ⟨⟨hty, ha⟩, h0⟩ := hv
    obtain rfl := Option.some.inj h0
    exact ⟨route.path, mem_templatesOf.2 ⟨route, List.mem_singleton.2 rfl, hty, rfl⟩, ha⟩
  obtain ⟨picked, hl, hp, heq⟩ := matchRequest_eq_routed accepts hr path host hs
  rw [heq]
  cases hrt : routed K [(route, 0)] picked path host with
  | some p =>
    obtain ⟨hm, hh, hown⟩ := routed_sound hp hrt
    obtain rfl := List.mem_singleton.1 hm
    refine .inl ⟨⟨hown, hh, fun hty => ?_⟩, ⟨⟨route⟩, acl⟩, by simp [hg], rfl⟩
    cases hpk : picked with
    | some q =>
      obtain ⟨hq, -, ha⟩ := hp q hpk
      obtain rfl := List.mem_singleton.1 hq
      exact ha
    | none =>
      simp only [hpk, routed, List.find?_singleton] at hrt
      split at hrt
      · rename_i had
        exact absurd (regexAdmits_iff.1 had).1 hty
      · simp at hrt
  | none =>
    refine .inr ⟨?_, rfl⟩
    rintro ⟨hown, hh, hacc⟩
    have hexact : ∀ q, picked = some q → ¬ (q.1.pathType = .Exact ∧ path ≠ q.1.path) := by
      rintro q hq ⟨he, hne⟩
      obtain rfl := List.mem_singleton.1 (hp q hq).1
      have he : route.pathType = .Exact := he
      exact hne (by simpa [OwnPattern, he] using hown)
    obtain ⟨hscan, hrefuse⟩ := routed_eq_none hexact hrt
    by_cases hty : route.pathType = .Regex
    · have had : regexAdmits K path host (route, 0) = true :=
        regexAdmits_iff.2 ⟨hty, by simpa [OwnPattern, hty] using hown, hh⟩
      simp [had] at hscan
    · rw [if_pos ⟨hty, hacc hty⟩, hl] at hlook
      obtain ⟨q, hq, -⟩ := Option.map_eq_some_iff.1 hlook
      obtain rfl := List.mem_singleton.1 (hp q hq).1
      exact hrefuse _ hq hh

/-- The tree of one template route. -/
theorem lookup_alone (hs : ServesAlone K.tree accepts route.path) (hty : route.pathType ≠ .Regex)
    (path : String) : K.tree.lookup r.matchitRouter path =
      if route.pathType ≠ .Regex ∧ accepts route.path path = true then some 0 else none := by
  have htree := templates_singleton hc hnew
  rw [show templatesOf [(route, 0)] = [(route.path, 0)] by simp [templatesOf, hty]] at htree
  rw [hs htree]
  simp [hty]

/-- The tree of one Regex route is empty. -/
theorem lookup_regex (hs : TreeSound K.tree accepts) (hty : route.pathType = .Regex)
    (path : String) : K.tree.lookup r.matchitRouter path =
      if route.pathType ≠ .Regex ∧ accepts route.path path = true then some 0 else none := by
  have htree := templates_singleton hc hnew
  rw [show templatesOf [(route, 0)] = [] by simp [templatesOf, hty]] at htree
  rw [if_neg fun h => h.1 hty, Option.eq_none_iff_forall_ne_some]
  intro v hv
  obtain ⟨p, hp, -⟩ := hs htree hv
  cases hp

end

theorem matchesAlone_of_singleton (hs : TreeSpec K.tree accepts finer) {conf : GatewayConf}
    {route : RouteConf} (hc : conf.routes = [route]) {r : Router K}
    (hnew : Router.new K conf = .ok r) {path : String} {host : Option String}
    (h : r.matchRequest path host ≠ .ok none) : MatchesAlone K accepts route path host := by
  have hlook : K.tree.lookup r.matchitRouter path =
      if route.pathType ≠ .Regex ∧ accepts route.path path = true then some 0 else none := by
    by_cases hty : route.pathType = .Regex
    · exact lookup_regex hc hnew hs.sound hty path
    · exact lookup_alone hc hnew (hs.servesAlone _) hty path
  rcases matchRequest_singleton hc hnew path host hlook with ⟨hm, -⟩ | ⟨-, hn⟩
  · exact hm
  · exact absurd hn h

/-! ## Completeness -/

/-- A template route that matches alone is in the tree, so the tree picks a route, and one that is
not coarser. -/
theorem picked_of_matchesAlone (hs : TreeSpec K.tree accepts finer) {r : Router K}
    {l : List (RouteConf × Nat)} (hr : r.Indexed l) {route : RouteConf} {i : Nat} {path : String}
    (hm : (route, i) ∈ l) (hty : route.pathType ≠ .Regex) (ha : accepts route.path path = true) :
    ∃ p ∈ l, K.tree.lookup r.matchitRouter path = some p.2 ∧
      accepts p.1.path path = true ∧ finer route.path p.1.path = false := by
  have ht : (route.path, i) ∈ templatesOf l := mem_templatesOf.2 ⟨route, hm, hty, rfl⟩
  obtain ⟨j, hj⟩ := Option.isSome_iff_exists.1 (hs.lookup_isSome hr.tree ht ha)
  obtain ⟨t, htj, hacc, hfin⟩ := hs.lookup_some hr.tree hj
  obtain ⟨route', hm', -, rfl⟩ := mem_templatesOf.1 htj
  exact ⟨(route', j), hm', hj, hacc, hfin _ _ ht ha⟩

/-- **What `None` means.** When the tree did not pick an Exact route for another path and no route
is returned, no Regex route matches alone, and a template route that does was hidden by the
route the tree picked instead, whose hostnames refuse the host. -/
theorem match_request_none (hs : TreeSpec K.tree accepts finer) {conf : GatewayConf} {r : Router K}
    (hnew : Router.new K conf = .ok r) {path : String} {host : Option String}
    (hnone : r.matchRequest path host = .ok none)
    (hexact : ∀ j picked, K.tree.lookup r.matchitRouter path = some j →
      conf.routes[j]? = some picked → picked.pathType = .Exact → path = picked.path) :
    ∀ i route, conf.routes[i]? = some route →
      ∀ r1, Router.new K { conf with routes := [route] } = .ok r1 →
        r1.matchRequest path host = .ok none ∨
        (route.pathType ≠ .Regex ∧ ∃ j picked, K.tree.lookup r.matchitRouter path = some j ∧
          j ≠ i ∧ conf.routes[j]? = some picked ∧ accepts picked.path path = true ∧
          finer route.path picked.path = false ∧ ¬ HostAdmits picked host) := by
  intro i route hi r1 hnew1
  have hr := new_indexed hnew
  have hmem := mem_routes_zipIdx.2 hi
  by_cases h1 : r1.matchRequest path host = .ok none
  · exact .inl h1
  obtain ⟨hown, hh, hacc⟩ := matchesAlone_of_singleton hs rfl hnew1 h1
  obtain ⟨picked, hl, hp, heq⟩ := matchRequest_eq_routed accepts hr path host (hs.sound hr.tree)
  have hrt : routed K conf.routes.zipIdx picked path host = none :=
    hr.routed_eq_none hp (Res.ok.inj (heq.symm.trans hnone))
  have hnotExact : ∀ q, picked = some q → ¬ (q.1.pathType = .Exact ∧ path ≠ q.1.path) := by
    rintro q rfl ⟨hex, hne⟩
    exact hne (hexact q.2 q.1 hl (mem_routes_zipIdx.1 (hp q rfl).1) hex)
  obtain ⟨hscan, hrefuse⟩ := routed_eq_none hnotExact hrt
  have hnotRegex : route.pathType ≠ .Regex := by
    intro hty
    have := List.find?_eq_none.1 hscan _ hmem
    exact this (regexAdmits_iff.2 ⟨hty, by simpa [OwnPattern, hty] using hown, hh⟩)
  obtain ⟨⟨route', j⟩, hm', hj, hacc', hfin⟩ :=
    picked_of_matchesAlone hs hr hmem hnotRegex (hacc hnotRegex)
  -- the picked route is the one registered under the id the tree returned
  have hpicked : picked = some (route', j) := by
    rw [hl] at hj
    obtain ⟨⟨rt, j'⟩, rfl, rfl⟩ := Option.map_eq_some_iff.1 hj
    have h1 := mem_routes_zipIdx.1 (hp _ rfl).1
    have h2 := mem_routes_zipIdx.1 hm'
    obtain rfl := Option.some.inj (h1.symm.trans h2)
    rfl
  have hrefuse' : ¬ HostAdmits route' host := hrefuse _ hpicked
  refine .inr ⟨hnotRegex, j, route', hj, ?_, mem_routes_zipIdx.1 hm', hacc', hfin, hrefuse'⟩
  rintro rfl
  obtain rfl := Option.some.inj ((mem_routes_zipIdx.1 hm').symm.trans hi)
  exact hrefuse' hh

/-- Two hosts share the paths under `/api/`. -/
def overlapConf : GatewayConf where
  routes :=
    [{ path := "/api/{*rest}", upstreamId := "a", hostnames := some ["a.com"] },
      { path := "/{*rest}", upstreamId := "b", hostnames := some ["b.com"] }]

theorem match_request_sound_overlap :
    ∃ r found, Router.new refCrates overlapConf = .ok r ∧
      r.matchRequest "/api/x" (some "a.com") = .ok found := by
  obtain ⟨r, hnew⟩ : ∃ r, Router.new refCrates overlapConf = .ok r := ⟨_, rfl⟩
  obtain ⟨-, -, -, -, found, h, -⟩ :=
    match_request_sound Template.refTree_spec.sound hnew "/api/x" (some "a.com")
  exact ⟨r, found, hnew, h⟩

/-- The tree picks `/api/{*rest}` for `/api/x`; its hostnames refuse `b.com`, and `/{*rest}`, which
alone serves the request, is not tried. -/
theorem overlapping_templates_hide :
    TreeSpec refCrates.tree Template.accepts Template.finer ∧
    ∃ route r r1, overlapConf.routes[1]? = some route ∧
      Router.new refCrates overlapConf = .ok r ∧
      r.matchRequest "/api/x" (some "b.com") = .ok none ∧
      Router.new refCrates { overlapConf with routes := [route] } = .ok r1 ∧
      r1.matchRequest "/api/x" (some "b.com") = .ok (some ⟨⟨route⟩, none⟩) :=
  ⟨Template.refTree_spec, _, _, _, rfl, rfl, rfl, rfl, rfl⟩

theorem match_request_none_overlap :
    ∃ r, Router.new refCrates overlapConf = .ok r ∧
      ∀ i route, overlapConf.routes[i]? = some route →
        ∀ r1, Router.new refCrates { overlapConf with routes := [route] } = .ok r1 →
          r1.matchRequest "/other" (some "a.com") = .ok none ∨
          (route.pathType ≠ .Regex ∧ ∃ j picked, refCrates.tree.lookup r.matchitRouter "/other" = some j ∧
            j ≠ i ∧ overlapConf.routes[j]? = some picked ∧
            Template.accepts picked.path "/other" = true ∧
            Template.finer route.path picked.path = false ∧ ¬ HostAdmits picked (some "a.com")) :=
  ⟨_, rfl, match_request_none Template.refTree_spec rfl rfl (by
    intro j picked hj hp
    obtain rfl : 1 = j := Option.some.inj hj
    obtain rfl := Option.some.inj hp
    simp)⟩

/-! ## Prefix routes without braces -/

/-- `path` is `p` or goes on from it at a segment boundary. -/
def SegmentExtends (p path : String) : Prop :=
  path = p ∨ (∃ rest, path = p ++ "/" ++ rest) ∨
    (p.toList.getLast? = some '/' ∧ ∃ rest, path = p ++ rest)

/-- **A plain prefix is an exact path.** A route of type Prefix without braces, alone in the table,
is returned for the paths that extend it exactly when the path is the configured one. -/
theorem plain_prefix_matches_iff {conf : GatewayConf} {route : RouteConf}
    (hs : ServesAlone K.tree Template.accepts route.path) (hc : conf.routes = [route])
    (hty : route.pathType = .Prefix) (hplain : Template.Plain route.path) {r : Router K}
    (hnew : Router.new K conf = .ok r) {host : Option String} (hhost : HostAdmits route host)
    (path : String) :
    (SegmentExtends route.path path →
      ∃ entry, r.matchRequest path host = .ok (some entry) ∧ entry.conf = ⟨route⟩) ↔
    (SegmentExtends route.path path → path = route.path) := by
  have hm : MatchesAlone K Template.accepts route path host ↔ path = route.path := by
    simp [MatchesAlone, OwnPattern, hty, hhost, Template.accepts_plain hplain]
  have hlook := lookup_alone hc hnew hs (by simp [hty]) path
  rcases matchRequest_singleton hc hnew path host hlook with ⟨hyes, hret⟩ | ⟨hno, hret⟩
  · exact ⟨fun _ _ => hm.1 hyes, fun _ _ => hret⟩
  · constructor
    · intro h hx
      obtain ⟨entry, he, -⟩ := h hx
      simp [hret] at he
    · intro h hx
      exact absurd (hm.2 (h hx)) hno

def rootConf : GatewayConf where
  routes := [{ path := "/", upstreamId := "legacy-cluster" }]

/-- The route `/` of type Prefix misses `/about`. -/
theorem prefix_slash_misses :
    ServesAlone refCrates.tree Template.accepts "/" ∧ SegmentExtends "/" "/about" ∧
    ∃ r, Router.new refCrates rootConf = .ok r ∧ r.matchRequest "/about" none = .ok none :=
  ⟨Template.refTree_spec.servesAlone _, .inr (.inr ⟨by decide, "about", by decide⟩), _, rfl, rfl⟩

theorem plain_prefix_matches_root :
    ∃ r route, Router.new refCrates rootConf = .ok r ∧ rootConf.routes = [route] ∧
      ((SegmentExtends route.path "/about" →
          ∃ entry, r.matchRequest "/about" none = .ok (some entry) ∧ entry.conf = ⟨route⟩) ↔
        (SegmentExtends route.path "/about" → "/about" = route.path)) := by
  have hnew : Router.new refCrates rootConf = .ok _ := rfl
  have hplain : Template.Plain "/" := by decide
  exact ⟨_, _, hnew, rfl, plain_prefix_matches_iff (Template.refTree_spec.servesAlone _) rfl rfl
    hplain hnew (by simp [HostAdmits]) "/about"⟩

end PingoraGuide
