import PingoraGuide.Construction
import PingoraGuide.RouteMatch
/-!
# Priority of routes under configuration edits

The ids of the routes are their positions, so an edit of the table renumbers them. The Regex routes
keep their order among themselves and the template tree is generic in its values
(`Template.TreeGeneric`), which is all the decision looks at: `decided` says it on the routes
without their ids, and `matchRequest_decided` that `match_request` computes it.
-/
namespace PingoraGuide
open Fallible Wire
open Template (TreeSound TreeGeneric)

variable {K : Crates}

variable (K) in
/-- A Regex route whose pattern matches and whose hostnames admit the host. -/
def RegexServes (path : String) (host : Option String) (route : RouteConf) : Prop :=
  route.pathType = .Regex ∧ (∃ re, K.regexNew route.path = .ok re ∧ re path = true) ∧
    HostAdmits route host

variable (K) in
/-- Route `i` is the earliest Regex route that serves the request. -/
structure EarliestRegex (conf : GatewayConf) (path : String) (host : Option String) (i : Nat)
    (route : RouteConf) : Prop where
  configured : conf.routes[i]? = some route
  serves : RegexServes K path host route
  earliest : ∀ j < i, ∀ before, conf.routes[j]? = some before → ¬ RegexServes K path host before

/-- The lookup in the template tree decides: it finds an Exact route for another path, or a route
that admits the host. -/
def TreeDecides (conf : GatewayConf) (r : Router K) (path : String) (host : Option String) : Prop :=
  ∃ i route, K.tree.lookup r.matchitRouter path = some i ∧ conf.routes[i]? = some route ∧
    ((route.pathType = .Exact ∧ path ≠ route.path) ∨ HostAdmits route host)

/-- The same Regex routes in the same order, and the same Prefix and Exact routes in the same
order, mixed in any way. -/
def SameOrder (routes routes' : List RouteConf) : Prop :=
  routes.filter (fun route => route.pathType = .Regex) =
      routes'.filter (fun route => route.pathType = .Regex) ∧
    routes.filter (fun route => route.pathType ≠ .Regex) =
      routes'.filter (fun route => route.pathType ≠ .Regex)

theorem SameOrder.mem_iff {routes routes' : List RouteConf} (h : SameOrder routes routes')
    {route : RouteConf} : route ∈ routes ↔ route ∈ routes' := by
  by_cases hty : route.pathType = .Regex
  · have := congrArg (route ∈ ·) h.1
    simpa [hty] using this
  · have := congrArg (route ∈ ·) h.2
    simpa [hty] using this

/-! ## The decision without ids -/

theorem regexAdmits_serves {path : String} {host : Option String} {p : RouteConf × Nat} :
    regexAdmits K path host p = true ↔ RegexServes K path host p.1 := regexAdmits_iff

variable (K) in
def firstRegex (routes : List RouteConf) (path : String) (host : Option String) :
    Option RouteConf :=
  routes.find? fun route => regexAdmits K path host (route, 0)

variable (K) in
/-- The decision over the routes of a table, given the route the tree picked. -/
def decided (routes : List RouteConf) (picked : Option RouteConf) (path : String)
    (host : Option String) : Option RouteConf :=
  match picked with
  | some route =>
    if route.pathType = .Exact ∧ path ≠ route.path then none
    else if Router.validateHost route host then some route
    else firstRegex K routes path host
  | none => firstRegex K routes path host

theorem find?_zipIdx_fst {α : Type} (q : α → Bool) (l : List α) (k : Nat) :
    ((l.zipIdx k).find? fun p => q p.1).map Prod.fst = l.find? q := by
  induction l generalizing k with
  | nil => rfl
  | cons a l ih =>
    simp only [List.zipIdx_cons, List.find?_cons]
    cases q a with
    | true => rfl
    | false => exact ih (k + 1)

theorem routed_fst {routes : List RouteConf} {picked : Option (RouteConf × Nat)} {path : String}
    {host : Option String} :
    (routed K routes.zipIdx picked path host).map Prod.fst =
      decided K routes (picked.map Prod.fst) path host := by
  have hscan : (routes.zipIdx.find? (regexAdmits K path host)).map Prod.fst =
      firstRegex K routes path host :=
    find?_zipIdx_fst (fun route => regexAdmits K path host (route, 0)) routes 0
  cases picked with
  | none => exact hscan
  | some p =>
    simp only [routed, decided, Option.map_some]
    split
    · rfl
    · split
      · rfl
      · exact hscan

/-- The scan sees the Regex routes only. -/
theorem firstRegex_filter (routes : List RouteConf) (path : String) (host : Option String) :
    firstRegex K routes path host =
      firstRegex K (routes.filter fun route => route.pathType = .Regex) path host := by
  unfold firstRegex
  rw [List.find?_filter]
  congr 1
  funext route
  by_cases h : regexAdmits K path host (route, 0) = true
  · have hty : route.pathType = .Regex := (regexAdmits_serves.1 h).1
    simp [h, hty]
  · simp [h]

theorem SameOrder.decided {routes routes' : List RouteConf} (h : SameOrder routes routes')
    (picked : Option RouteConf) (path : String) (host : Option String) :
    decided K routes picked path host = decided K routes' picked path host := by
  have hscan : firstRegex K routes path host = firstRegex K routes' path host := by
    rw [firstRegex_filter, h.1, ← firstRegex_filter]
  cases picked with
  | none => exact hscan
  | some route => simp only [PingoraGuide.decided, hscan]

/-- `match_request` computes the decision, on the route the tree picked. -/
theorem matchRequest_decided (hg : TreeGeneric K.tree) {conf : GatewayConf} {r : Router K}
    (h : Router.new K conf = .ok r) (path : String) (host : Option String) :
    ∃ picked found, K.tree.lookup r.matchitRouter path = picked.map Prod.snd ∧
      (∀ p, picked = some p → p ∈ conf.routes.zipIdx ∧ p.1.pathType ≠ .Regex) ∧
      r.matchRequest path host = .ok found ∧
      found = (routed K conf.routes.zipIdx picked path host).bind (fun p => r.routeRegistry p.2) ∧
      found.map (fun e => e.conf.val) = decided K conf.routes (picked.map Prod.fst) path host := by
  have hr := new_indexed h
  obtain ⟨picked, hl, hp, heq⟩ :=
    matchRequest_eq_routed (fun _ _ => true) hr path host (hg.sound hr.tree)
  refine ⟨picked, _, hl, fun p hs => ⟨(hp p hs).1, (hp p hs).2.1⟩, heq, rfl, ?_⟩
  rw [← routed_fst]
  cases hrt : routed K conf.routes.zipIdx picked path host with
  | none => rfl
  | some p =>
    obtain ⟨hm, -⟩ := @routed_sound K (fun _ _ => true) _ _ _ _ _ hp hrt
    obtain ⟨acl, -, he⟩ := hr.entry hm
    simp [he]

theorem earliest_of_find? {conf : GatewayConf} {path : String} {host : Option String}
    {p : RouteConf × Nat} (h : conf.routes.zipIdx.find? (regexAdmits K path host) = some p) :
    EarliestRegex K conf path host p.2 p.1 := by
  obtain ⟨hp, i, hi, hpi, hbefore⟩ := List.find?_eq_some_iff_getElem.1 h
  have hlen : i < conf.routes.length := by simpa using hi
  have hp2 : p.2 = i := by simp [← hpi]
  constructor
  case configured => exact mem_routes_zipIdx.1 (List.mem_of_find?_eq_some h)
  case serves => exact regexAdmits_serves.1 hp
  case earliest =>
    intro j hj before hb hserves
    obtain ⟨hjlen, rfl⟩ := List.getElem?_eq_some_iff.1 hb
    have hnot := hbefore j (by omega)
    have hadm : regexAdmits K path host (conf.routes[j], j) = true := regexAdmits_serves.2 hserves
    simp [hadm] at hnot

/-- When the lookup does not decide, the scan does. -/
theorem matchRequest_undecided (hg : TreeGeneric K.tree) {conf : GatewayConf} {r : Router K}
    (hnew : Router.new K conf = .ok r) {path : String} {host : Option String}
    (hno : ¬ TreeDecides conf r path host) :
    (∃ i route e, EarliestRegex K conf path host i route ∧ r.routeRegistry i = some e ∧
      e.conf = ⟨route⟩ ∧ r.matchRequest path host = .ok (some e)) ∨
    ((∀ route ∈ conf.routes, ¬ RegexServes K path host route) ∧
      r.matchRequest path host = .ok none) := by
  obtain ⟨picked, found, hl, hp, hmatch, hfound, -⟩ := matchRequest_decided hg hnew path host
  have hscan : routed K conf.routes.zipIdx picked path host =
      conf.routes.zipIdx.find? (regexAdmits K path host) := by
    cases picked with
    | none => rfl
    | some p =>
      have hconf := mem_routes_zipIdx.1 (hp p rfl).1
      have hex : ¬ (p.1.pathType = .Exact ∧ path ≠ p.1.path) := by
        intro hex
        exact hno ⟨p.2, p.1, hl, hconf, .inl hex⟩
      have hhost : ¬ Router.validateHost p.1 host = true := by
        intro hv
        exact hno ⟨p.2, p.1, hl, hconf, .inr (validateHost_iff.1 hv)⟩
      simp only [routed, if_neg hex, if_neg hhost]
  rw [hmatch, hfound, hscan]
  cases hf : conf.routes.zipIdx.find? (regexAdmits K path host) with
  | none =>
    refine .inr ⟨?_, rfl⟩
    intro route hm hserves
    obtain ⟨i, hi⟩ := List.getElem?_of_mem hm
    have hnot := List.find?_eq_none.1 hf (route, i) (mem_routes_zipIdx.2 hi)
    exact hnot (regexAdmits_serves.2 hserves)
  | some p =>
    obtain ⟨acl, -, he⟩ := (new_indexed hnew).entry (List.mem_of_find?_eq_some hf)
    exact .inl ⟨p.2, p.1, _, earliest_of_find? hf, he, rfl, by simp [he]⟩

/-! ## Renumbering -/

/-- Two numberings of one list differ by a renaming. -/
theorem exists_rename {α : Type} {l l' : List (α × Nat)} (h : l.map Prod.fst = l'.map Prod.fst)
    (hnd : (l.map Prod.snd).Nodup) : ∃ f, l' = l.map (Prod.map id f) := by
  induction l generalizing l' with
  | nil => exact ⟨id, by simpa using h.symm⟩
  | cons p l ih =>
    cases l' with
    | nil => simp at h
    | cons p' l' =>
      simp only [List.map_cons, List.cons.injEq, List.nodup_cons] at h hnd
      obtain ⟨f, rfl⟩ := ih h.2 hnd.2
      refine ⟨Function.update f p.2 p'.2, ?_⟩
      have hrest : l.map (Prod.map id (Function.update f p.2 p'.2)) = l.map (Prod.map id f) := by
        refine List.map_congr_left fun q hq => ?_
        have hne : q.2 ≠ p.2 := by
          intro heq
          exact hnd.1 (heq ▸ List.mem_map_of_mem hq)
        simp [Prod.map, hne]
      rw [List.map_cons, hrest]
      simp [Prod.map, h.1]

theorem templatesOf_eq (l : List (RouteConf × Nat)) :
    templatesOf l =
      (l.filter fun p => p.1.pathType ≠ .Regex).map fun p => (p.1.path, p.2) := by
  induction l with
  | nil => rfl
  | cons p l ih =>
    by_cases h : p.1.pathType = .Regex
    · simpa [templatesOf, h] using ih
    · simpa [templatesOf, h] using ih

theorem filter_zipIdx_fst {α : Type} (q : α → Bool) (l : List α) (k : Nat) :
    ((l.zipIdx k).filter fun p => q p.1).map Prod.fst = l.filter q := by
  have hmap := List.filter_map (p := q) (f := Prod.fst) (l := l.zipIdx k)
  rw [List.zipIdx_map_fst] at hmap
  exact hmap.symm

/-- The edit renumbers the templates and moves no route under another one's template. -/
theorem SameOrder.rename {routes routes' : List RouteConf} (h : SameOrder routes routes') :
    ∃ f, templatesOf routes'.zipIdx = (templatesOf routes.zipIdx).map (Prod.map id f) ∧
      ∀ p ∈ routes.zipIdx, p.1.pathType ≠ .Regex → (p.1, f p.2) ∈ routes'.zipIdx := by
  have hfst : (routes.zipIdx.filter fun p => p.1.pathType ≠ .Regex).map Prod.fst =
      (routes'.zipIdx.filter fun p => p.1.pathType ≠ .Regex).map Prod.fst := by
    have hq := filter_zipIdx_fst fun route : RouteConf => decide (route.pathType ≠ .Regex)
    exact (hq routes 0).trans (h.2.trans (hq routes' 0).symm)
  have hnd : ((routes.zipIdx.filter fun p => p.1.pathType ≠ .Regex).map Prod.snd).Nodup := by
    refine List.Nodup.sublist (List.filter_sublist.map Prod.snd) ?_
    rw [List.zipIdx_map_snd]
    exact List.nodup_range'
  obtain ⟨f, hf⟩ := exists_rename hfst hnd
  refine ⟨f, ?_, ?_⟩
  · rw [templatesOf_eq, templatesOf_eq, hf]
    simp [Function.comp_def, Prod.map]
  · intro p hp hty
    have hmem : Prod.map id f p ∈ routes'.zipIdx.filter fun p => p.1.pathType ≠ .Regex := by
      rw [hf]
      exact List.mem_map_of_mem (by simpa [hty] using hp)
    exact (List.mem_filter.1 hmem).1

theorem SameOrder.new_isOk (hg : TreeGeneric K.tree) {conf conf' : GatewayConf}
    (h : SameOrder conf.routes conf'.routes) :
    (∃ r, Router.new K conf = .ok r) ↔ ∃ r', Router.new K conf' = .ok r' := by
  obtain ⟨f, hf, -⟩ := h.rename
  rw [PingoraGuide.new_isOk, PingoraGuide.new_isOk, hf, ← hg.built_iff f]
  simp only [h.mem_iff]

theorem SameOrder.matchRequest (hg : TreeGeneric K.tree) {conf conf' : GatewayConf}
    (h : SameOrder conf.routes conf'.routes) {r r' : Router K} (hnew : Router.new K conf = .ok r)
    (hnew' : Router.new K conf' = .ok r') (path : String) (host : Option String) :
    ∃ found found', r.matchRequest path host = .ok found ∧ r'.matchRequest path host = .ok found' ∧
      found.map (fun e => e.conf.val) = found'.map (fun e => e.conf.val) := by
  obtain ⟨f, hf, hsame⟩ := h.rename
  obtain ⟨picked, found, hl, hp, hmatch, -, hfound⟩ := matchRequest_decided hg hnew path host
  obtain ⟨picked', found', hl', hp', hmatch', -, hfound'⟩ := matchRequest_decided hg hnew' path host
  have hlook : K.tree.lookup r'.matchitRouter path = (K.tree.lookup r.matchitRouter path).map f :=
    hg.lookup f path (new_indexed hnew).tree (hf ▸ (new_indexed hnew').tree)
  rw [hl, hl'] at hlook
  -- both trees pick the same route
  have hpick : picked'.map Prod.fst = picked.map Prod.fst := by
    cases picked with
    | none => simpa using hlook
    | some p =>
      obtain ⟨q, rfl, hq⟩ := Option.map_eq_some_iff.1 hlook
      have hmoved := hsame p (hp p rfl).1 (hp p rfl).2
      rw [← hq] at hmoved
      have h1 := mem_routes_zipIdx.1 (hp' q rfl).1
      have h2 := mem_routes_zipIdx.1 hmoved
      simpa using h1.symm.trans h2
  refine ⟨found, found', hmatch, hmatch', ?_⟩
  rw [hfound, hfound', hpick, h.decided]

/-! ## One more Regex route -/

theorem addRoutes_append (r : Router K) (l l' : List (RouteConf × Nat)) :
    r.addRoutes (l ++ l') = (r.addRoutes l).bind fun r1 => r1.addRoutes l' := by
  induction l generalizing r with
  | nil => rfl
  | cons p l ih =>
    simp only [List.cons_append, Router.addRoutes, bind, Except.bind]
    cases r.addRoute p.1 p.2 with
    | error e => rfl
    | ok r1 => exact ih r1

/-- `r'` knows every entry and the whole tree of `r`, and scans the regexes of `r` first. -/
structure Router.Extends (r r' : Router K) : Prop where
  tree : r'.matchitRouter = r.matchitRouter
  entry : ∀ {id e}, r.entry id = .ok e → r'.entry id = .ok e
  regex : ∃ more, r'.regexRoutes = r.regexRoutes ++ more

theorem Router.Extends.scanRegex {r r' : Router K} (h : r.Extends r') {path : String}
    {host : Option String} {e : RouteEntry K} {scan more : List ((String → Bool) × Nat)}
    (hs : r.scanRegex path host scan = .ok (some e)) :
    r'.scanRegex path host (scan ++ more) = .ok (some e) := by
  induction scan with
  | nil => simp [Router.scanRegex] at hs
  | cons p rest ih =>
    obtain ⟨re, id⟩ := p
    unfold Router.scanRegex at hs
    rw [List.cons_append, Router.scanRegex]
    split at hs
    · rename_i hre
      obtain ⟨route, hent, hs⟩ := Res.bind_eq_ok.1 hs
      rw [if_pos hre, h.entry hent, Res.ok_bind]
      split at hs
      · rename_i hv
        rw [if_pos hv, hs]
      · rename_i hv
        rw [if_neg hv, ih hs]
    · rename_i hre
      rw [if_neg hre, ih hs]

theorem Router.Extends.matchRequest {r r' : Router K} (h : r.Extends r') {path : String}
    {host : Option String} {e : RouteEntry K} (hm : r.matchRequest path host = .ok (some e)) :
    r'.matchRequest path host = .ok (some e) := by
  obtain ⟨more, hmore⟩ := h.regex
  unfold Router.matchRequest at hm ⊢
  rw [h.tree, hmore]
  split at hm
  · obtain ⟨route, hent, hm⟩ := Res.bind_eq_ok.1 hm
    simp only [h.entry hent, Res.ok_bind]
    split at hm
    · cases hm
    · rename_i hex
      rw [if_neg hex]
      split at hm
      · rename_i hv
        rw [if_pos hv, hm]
      · rename_i hv
        rw [if_neg hv]
        exact h.scanRegex hm
  · exact h.scanRegex hm

/-- A valid Regex route at the end extends the router. -/
theorem new_append_regex {conf : GatewayConf} {r : Router K} (hnew : Router.new K conf = .ok r)
    {route : RouteConf} (hty : route.pathType = .Regex) (hv : RouteValid K route) :
    ∃ r', Router.new K { conf with routes := conf.routes ++ [route] } = .ok r' ∧
      r.Extends r' := by
  have hadd : ∃ r', r.addRoute route conf.routes.length = .ok r' :=
    addRoute_isOk.2 ⟨hv, fun hne => absurd hty hne⟩
  obtain ⟨r', hadd⟩ := hadd
  refine ⟨r', ?_, ?_⟩
  · unfold Router.new at hnew ⊢
    simp only [List.zipIdx_append, addRoutes_append, hnew]
    simp [Except.bind, Router.addRoutes, hadd, bind]
  · obtain ⟨r1, acl, hreg, -, rfl⟩ := addRoute_ok hadd
    rcases register_ok hreg with ⟨-, re, -, rfl⟩ | ⟨hne, -⟩
    · refine ⟨rfl, ?_, [(re, conf.routes.length)], rfl⟩
      intro id e he
      have hid : r.routeRegistry id = some e := by simpa [Router.entry] using he
      obtain ⟨old, hm⟩ := (new_indexed hnew).key hid
      have hlt : id < conf.routes.length := by
        obtain ⟨hlt, -⟩ := List.getElem?_eq_some_iff.1 (mem_routes_zipIdx.1 hm)
        exact hlt
      have hne : id ≠ conf.routes.length := by omega
      simp [Router.entry, Res.expect, hne, hid]
    · exact absurd hty hne

/-- **Route priority is stable under configuration edits.** When the tree does not decide, the
earliest Regex route that serves the request is returned. Mixing Regex routes and templates in
another way changes neither success nor any result, and a valid Regex route at the end changes no
result that was a route. -/
theorem route_priority_stable (hg : TreeGeneric K.tree) (conf : GatewayConf) :
    (∀ r, Router.new K conf = .ok r → ∀ path host, ¬ TreeDecides conf r path host →
      (∃ i route e, EarliestRegex K conf path host i route ∧ r.routeRegistry i = some e ∧
        e.conf = ⟨route⟩ ∧ r.matchRequest path host = .ok (some e)) ∨
      ((∀ route ∈ conf.routes, ¬ RegexServes K path host route) ∧
        r.matchRequest path host = .ok none)) ∧
    (∀ conf' : GatewayConf, SameOrder conf.routes conf'.routes →
      ((∃ r, Router.new K conf = .ok r) ↔ ∃ r', Router.new K conf' = .ok r') ∧
      ∀ r r', Router.new K conf = .ok r → Router.new K conf' = .ok r' → ∀ path host,
        ∃ found found', r.matchRequest path host = .ok found ∧
          r'.matchRequest path host = .ok found' ∧
          found.map (fun e => e.conf.val) = found'.map (fun e => e.conf.val)) ∧
    (∀ r, Router.new K conf = .ok r → ∀ route : RouteConf, route.pathType = .Regex →
      RouteValid K route →
      ∃ r', Router.new K { conf with routes := conf.routes ++ [route] } = .ok r' ∧
        ∀ path host e, r.matchRequest path host = .ok (some e) →
          r'.matchRequest path host = .ok (some e)) := by
  refine ⟨?_, ?_, ?_⟩
  · intro r hnew path host hno
    exact matchRequest_undecided hg hnew hno
  · intro conf' h
    exact ⟨h.new_isOk hg, fun r r' hnew hnew' path host => h.matchRequest hg hnew hnew' path host⟩
  · intro r hnew route hty hv
    obtain ⟨r', hnew', hext⟩ := new_append_regex hnew hty hv
    exact ⟨r', hnew', fun path host e hm => hext.matchRequest hm⟩

/-- A template for `a.com` between two Regex routes. -/
def mixedConf : GatewayConf where
  routes :=
    [{ path := "^/api", pathType := .Regex, upstreamId := "a" },
      { path := "/api/{*rest}", upstreamId := "b", hostnames := some ["a.com"] },
      { path := "^/", pathType := .Regex, upstreamId := "c" }]

/-- The same routes with the template first. -/
def unmixedConf : GatewayConf where
  routes :=
    [{ path := "/api/{*rest}", upstreamId := "b", hostnames := some ["a.com"] },
      { path := "^/api", pathType := .Regex, upstreamId := "a" },
      { path := "^/", pathType := .Regex, upstreamId := "c" }]

theorem route_priority_stable_mixed :
    SameOrder mixedConf.routes unmixedConf.routes ∧
    ∃ r r', Router.new refCrates mixedConf = .ok r ∧ Router.new refCrates unmixedConf = .ok r' ∧
      ∃ found found', r.matchRequest "/api/x" (some "b.com") = .ok found ∧
        r'.matchRequest "/api/x" (some "b.com") = .ok found' ∧
        found.map (fun e => e.conf.val) = found'.map (fun e => e.conf.val) := by
  have hsame : SameOrder mixedConf.routes unmixedConf.routes := by
    constructor <;> rfl
  obtain ⟨r, hnew⟩ : ∃ r, Router.new refCrates mixedConf = .ok r := ⟨_, rfl⟩
  obtain ⟨r', hnew'⟩ : ∃ r, Router.new refCrates unmixedConf = .ok r := ⟨_, rfl⟩
  obtain ⟨-, hedit, -⟩ := route_priority_stable (K := refCrates) Template.refTree_generic mixedConf
  obtain ⟨-, hres⟩ := hedit unmixedConf hsame
  exact ⟨hsame, r, r', hnew, hnew', hres r r' hnew hnew' "/api/x" (some "b.com")⟩

end PingoraGuide
