import PingoraGuide.Router
/-!
# What the router decides

`Router::new` keeps its three structures consistent (`new_indexed`), and `match_request` is the
table-level decision `routed` (`matchRequest_eq_routed`): take the route of the template the tree
picks, else, unless that route is an Exact one for another path, the first Regex route in
configuration order that matches the path and admits the host.
-/
namespace PingoraGuide
open Fallible Wire
open Template (TreeSound TreeSpec)

variable {K : Crates}

/-- The configured hostnames are absent or contain the given host. -/
def HostAdmits (route : RouteConf) (host : Option String) : Prop :=
  ∀ hs, route.hostnames = some hs → ∃ h ∈ hs, host = some h

theorem validateHost_iff {route : RouteConf} {host : Option String} :
    Router.validateHost route host = true ↔ HostAdmits route host := by
  unfold Router.validateHost HostAdmits
  cases hh : route.hostnames with
  | none => simp
  | some hs =>
    cases host with
    | none => simp
    | some h =>
      simp only [List.any_eq_true, beq_iff_eq, Option.some.injEq, forall_eq']
      exact ⟨fun ⟨x, hx, e⟩ => ⟨x, hx, e.symm⟩, fun ⟨x, hx, e⟩ => ⟨x, hx, e.symm⟩⟩

variable (K) in
/-- A Regex route whose pattern matches and whose hostnames admit the host. -/
def regexAdmits (path : String) (host : Option String) (p : RouteConf × Nat) : Bool :=
  match p.1.pathType, K.regexNew p.1.path with
  | .Regex, .ok re => re path && Router.validateHost p.1 host
  | _, _ => false

theorem regexAdmits_iff {path : String} {host : Option String} {p : RouteConf × Nat} :
    regexAdmits K path host p = true ↔
      p.1.pathType = .Regex ∧ (∃ re, K.regexNew p.1.path = .ok re ∧ re path = true) ∧
        HostAdmits p.1 host := by
  unfold regexAdmits
  split
  · rename_i re hty hre
    simp [hty, hre, validateHost_iff]
  · rename_i hno
    constructor
    · intro h; simp at h
    · rintro ⟨hty, ⟨re, hre, -⟩, -⟩
      exact absurd hre (hno re hty)

variable (K) in
/-- The decision over the table `l`, given the route the tree picked. -/
def routed (l : List (RouteConf × Nat)) (picked : Option (RouteConf × Nat)) (path : String)
    (host : Option String) : Option (RouteConf × Nat) :=
  match picked with
  | some p =>
    if p.1.pathType = .Exact ∧ path ≠ p.1.path then none
    else if Router.validateHost p.1 host then some p
    else l.find? (regexAdmits K path host)
  | none => l.find? (regexAdmits K path host)

/-! ## The loop of `Router::new` -/

theorem insertTemplate_ok {r r' : Router K} {route : RouteConf} {idx : Nat}
    (h : r.insertTemplate route idx = .ok r') :
    route.path.toList.head? = some '/' ∧
      ∃ t, K.tree.insert r.matchitRouter route.path idx = .ok t ∧
        r' = { r with matchitRouter := t } := by
  unfold Router.insertTemplate at h
  split at h
  · simp at h
  · rename_i hs
    split at h
    · rename_i t ht
      exact ⟨by simpa using hs, t, ht, (Except.ok.inj h).symm⟩
    · simp at h

/-- The two ways a route enters the router: a compiled regex, or a template in the tree. -/
theorem register_ok {r r' : Router K} {route : RouteConf} {idx : Nat}
    (h : r.register route idx = .ok r') :
    (route.pathType = .Regex ∧ ∃ re, K.regexNew route.path = .ok re ∧
      r' = { r with regexRoutes := r.regexRoutes ++ [(re, idx)] }) ∨
    (route.pathType ≠ .Regex ∧ route.path.toList.head? = some '/' ∧
      ∃ t, K.tree.insert r.matchitRouter route.path idx = .ok t ∧
        r' = { r with matchitRouter := t }) := by
  unfold Router.register at h
  cases hty : route.pathType with
  | Regex =>
    simp only [hty] at h
    split at h
    · rename_i re hre
      exact .inl ⟨rfl, re, hre, (Except.ok.inj h).symm⟩
    · simp at h
  | Prefix | Exact =>
    simp only [hty] at h
    exact .inr ⟨by simp, insertTemplate_ok h⟩

theorem addRoute_ok {r r' : Router K} {route : RouteConf} {idx : Nat}
    (h : r.addRoute route idx = .ok r') :
    ∃ r1 acl, r.register route idx = .ok r1 ∧ compileAcl K route.accessControl = .ok acl ∧
      r' = { r1 with routeRegistry := Function.update r1.routeRegistry idx (some ⟨⟨route⟩, acl⟩) } := by
  unfold Router.addRoute at h
  cases hr : r.register route idx with
  | error e => simp [hr, bind, Except.bind] at h
  | ok r1 =>
    cases ha : compileAcl K route.accessControl with
    | error e => simp [hr, ha, bind, Except.bind] at h
    | ok acl =>
      simp only [hr, ha, bind, Except.bind, Except.ok.injEq] at h
      exact ⟨r1, acl, rfl, rfl, h.symm⟩

/-- One round of the loop: a route under a fresh id. -/
theorem Router.Indexed.addRoute {r r' : Router K} {l : List (RouteConf × Nat)} {route : RouteConf}
    {idx : Nat} (hr : r.Indexed l) (hfresh : idx ∉ l.map Prod.snd)
    (h : r.addRoute route idx = .ok r') : r'.Indexed (l ++ [(route, idx)]) := by
  obtain ⟨r1, acl, hreg, hacl, rfl⟩ := addRoute_ok h
  have hcase := register_ok hreg
  have hkeep : r1.routeRegistry = r.routeRegistry := by
    rcases hcase with ⟨-, re, -, rfl⟩ | ⟨-, -, t, -, rfl⟩ <;> rfl
  have hne : ∀ p ∈ l, p.2 ≠ idx := by
    rintro p hm rfl
    exact hfresh (List.mem_map.2 ⟨p, hm, rfl⟩)
  -- a property of the old routes and of the new one
  have hboth : ∀ (P : RouteConf → Nat → Prop), (∀ rt i, (rt, i) ∈ l → P rt i) → P route idx →
      ∀ rt i, (rt, i) ∈ l ++ [(route, idx)] → P rt i := by
    intro P hold hnew rt i hm
    rcases List.mem_append.1 hm with hm | hm
    · exact hold rt i hm
    · obtain ⟨rfl, rfl⟩ := by simpa using hm
      exact hnew
  constructor
  case entry =>
    intro rt i
    apply hboth
    · intro rt i hm
      obtain ⟨acl', ha, hg⟩ := hr.entry hm
      exact ⟨acl', ha, by simp [hkeep, hne _ hm, hg]⟩
    · exact ⟨acl, hacl, by simp⟩
  case key =>
    intro i e he
    by_cases hi : i = idx
    · exact ⟨route, by simp [hi]⟩
    · obtain ⟨rt, hm⟩ := hr.key (i := i) (e := e) (by simpa [hi, hkeep] using he)
      exact ⟨rt, by simp [hm]⟩
  case regex =>
    rcases hcase with ⟨hty, re, hre, rfl⟩ | ⟨hty, -, t, -, rfl⟩
    · simp [hr.regex, regexesOf, hty, hre]
    · simp only [hr.regex, regexesOf, List.filterMap_append]
      cases hp : route.pathType <;> simp_all
  case tree =>
    rcases hcase with ⟨hty, re, -, rfl⟩ | ⟨hty, -, t, ht, rfl⟩
    · have : templatesOf (l ++ [(route, idx)]) = templatesOf l := by simp [templatesOf, hty]
      exact this ▸ hr.tree
    · have : templatesOf (l ++ [(route, idx)]) = templatesOf l ++ [(route.path, idx)] := by
        simp [templatesOf, hty]
      exact this ▸ .insert hr.tree ht
  case slash =>
    intro rt i
    apply hboth
    · exact fun rt i hm => hr.slash hm
    · intro hty
      rcases hcase with ⟨hre, -⟩ | ⟨-, hs, -⟩
      · exact absurd hre hty
      · exact hs
  case compiled =>
    intro rt i
    apply hboth
    · exact fun rt i hm => hr.compiled hm
    · intro hty
      rcases hcase with ⟨-, re, hre, -⟩ | ⟨hne', -⟩
      · exact ⟨re, hre⟩
      · exact absurd hty hne'

theorem Router.Indexed.addRoutes {l done : List (RouteConf × Nat)} {r r' : Router K}
    (hr : r.Indexed done) (hnd : ((done ++ l).map Prod.snd).Nodup) (h : r.addRoutes l = .ok r') :
    r'.Indexed (done ++ l) := by
  induction l generalizing done r with
  | nil =>
    simp only [Router.addRoutes, Except.ok.injEq] at h
    simpa [← h] using hr
  | cons p rest ih =>
    obtain ⟨route, idx⟩ := p
    unfold Router.addRoutes at h
    cases h1 : r.addRoute route idx with
    | error e => simp [h1, bind, Except.bind] at h
    | ok r1 =>
      simp only [h1, bind, Except.bind] at h
      have hfresh : idx ∉ done.map Prod.snd := by
        intro hm
        rw [List.map_append, List.nodup_append] at hnd
        exact hnd.2.2 _ hm _ (by simp) rfl
      have := ih (hr.addRoute hfresh h1) (by simpa using hnd) h
      simpa using this

/-- **The router agrees with its configuration.** Route `i` of the table is under id `i` in all
three structures. -/
theorem new_indexed {conf : GatewayConf} {r : Router K} (h : Router.new K conf = .ok r) :
    r.Indexed conf.routes.zipIdx := by
  have hnd : (([] ++ conf.routes.zipIdx).map Prod.snd).Nodup := by
    simp only [List.nil_append, List.zipIdx_map_snd]
    exact List.nodup_range'
  simpa using Router.indexed_empty.addRoutes hnd h

/-! ## The lookup -/

section
variable {r : Router K} {l : List (RouteConf × Nat)} {path : String} {host : Option String}

theorem Router.Indexed.entry_ok (hr : r.Indexed l) {route : RouteConf} {i : Nat}
    (hm : (route, i) ∈ l) :
    ∃ acl, compileAcl K route.accessControl = .ok acl ∧ r.routeRegistry i = some ⟨⟨route⟩, acl⟩ ∧
      r.entry i = .ok ⟨⟨route⟩, acl⟩ := by
  obtain ⟨acl, ha, hg⟩ := hr.entry hm
  exact ⟨acl, ha, hg, by simp [Router.entry, Res.expect, hg]⟩

theorem regexesOf_cons_admits (p : RouteConf × Nat) (l' : List (RouteConf × Nat)) (path : String)
    (host : Option String) :
    (∃ re, K.regexNew p.1.path = .ok re ∧ regexesOf K (p :: l') = (re, p.2) :: regexesOf K l' ∧
      regexAdmits K path host p = (re path && Router.validateHost p.1 host)) ∨
    (regexesOf K (p :: l') = regexesOf K l' ∧ regexAdmits K path host p = false) := by
  cases hty : p.1.pathType with
  | Regex =>
    cases hre : K.regexNew p.1.path with
    | ok re => exact .inl ⟨re, rfl, by simp [regexesOf, hty, hre], by simp [regexAdmits, hty, hre]⟩
    | error e => exact .inr ⟨by simp [regexesOf, hty, hre], by simp [regexAdmits, hty, hre]⟩
  | Prefix | Exact => exact .inr ⟨by simp [regexesOf, hty], by simp [regexAdmits, hty]⟩

/-- The scan returns the first Regex route that admits the request. -/
theorem scanRegex_eq (hr : r.Indexed l) {l' : List (RouteConf × Nat)} (hsub : ∀ p ∈ l', p ∈ l) :
    r.scanRegex path host (regexesOf K l') =
      .ok ((l'.find? (regexAdmits K path host)).bind fun p => r.routeRegistry p.2) := by
  induction l' with
  | nil => rfl
  | cons p l' ih =>
    have ih := ih fun q hq => hsub q (by simp [hq])
    obtain ⟨acl, -, hg, hent⟩ := hr.entry_ok (hsub p (by simp))
    rcases regexesOf_cons_admits (K := K) p l' path host with
      ⟨re, hre, hcons, hadm⟩ | ⟨hskip, hadm⟩
    · rw [hcons, Router.scanRegex, hent, List.find?_cons, hadm, ih]
      cases hp : re path <;> cases hv : Router.validateHost p.1 host <;> simp [hv, hg]
    · rw [hskip, List.find?_cons, hadm, ih]

theorem scanRegex_registered {e : RouteEntry K} {scan : List ((String → Bool) × Nat)}
    (h : r.scanRegex path host scan = .ok (some e)) : ∃ i, r.routeRegistry i = some e := by
  induction scan with
  | nil => simp [Router.scanRegex] at h
  | cons p rest ih =>
    obtain ⟨re, id⟩ := p
    unfold Router.scanRegex at h
    split at h
    · obtain ⟨route, hent, h⟩ := Res.bind_eq_ok.1 h
      split at h
      · obtain rfl : route = e := by simpa using h
        exact ⟨id, by simpa [Router.entry] using hent⟩
      · exact ih h
    · exact ih h

/-- What `match_request` returns is an entry of the registry. -/
theorem matchRequest_registered {e : RouteEntry K}
    (h : r.matchRequest path host = .ok (some e)) : ∃ i, r.routeRegistry i = some e := by
  unfold Router.matchRequest at h
  split at h
  · rename_i id _
    obtain ⟨route, hent, h⟩ := Res.bind_eq_ok.1 h
    split at h
    · cases h
    · split at h
      · obtain rfl : route = e := by simpa using h
        exact ⟨id, by simpa [Router.entry] using hent⟩
      · exact scanRegex_registered h
  · exact scanRegex_registered h

/-- The entry of a matched request: a configured route with its own compiled ACL. -/
theorem Router.Indexed.matched_entry (hr : r.Indexed l) {e : RouteEntry K}
    (h : r.matchRequest path host = .ok (some e)) :
    ∃ i, (e.conf.val, i) ∈ l ∧ compileAcl K e.conf.val.accessControl = .ok e.accessControl := by
  obtain ⟨i, hi⟩ := matchRequest_registered h
  obtain ⟨route, hm⟩ := hr.key hi
  obtain ⟨acl, ha, hg⟩ := hr.entry hm
  obtain rfl : e = ⟨⟨route⟩, acl⟩ := Option.some.inj (hi.symm.trans hg)
  exact ⟨i, hm, ha⟩

/-- **`match_request` is the table-level decision**, on the route whose template the tree picks, if
the tree returns only what was inserted with a template that accepts the path. -/
theorem matchRequest_eq_routed (accepts : String → String → Bool) (hr : r.Indexed l) (path : String)
    (host : Option String) (hs : ∀ {v}, K.tree.lookup r.matchitRouter path = some v →
      ∃ p, (p, v) ∈ templatesOf l ∧ accepts p path = true) :
    ∃ picked, K.tree.lookup r.matchitRouter path = picked.map Prod.snd ∧
      (∀ p, picked = some p → p ∈ l ∧ p.1.pathType ≠ .Regex ∧ accepts p.1.path path = true) ∧
      r.matchRequest path host =
        .ok ((routed K l picked path host).bind fun p => r.routeRegistry p.2) := by
  have hscan : r.scanRegex path host r.regexRoutes =
      .ok ((l.find? (regexAdmits K path host)).bind fun p => r.routeRegistry p.2) := by
    rw [hr.regex]
    exact scanRegex_eq hr fun p hp => hp
  cases hl : K.tree.lookup r.matchitRouter path with
  | none =>
    refine ⟨none, rfl, by simp, ?_⟩
    unfold Router.matchRequest
    simp only [hl, hscan, routed]
  | some id =>
    obtain ⟨t, ht, hacc⟩ := hs hl
    obtain ⟨route, hm, hty, rfl⟩ := mem_templatesOf.1 ht
    obtain ⟨acl, -, hg, hent⟩ := hr.entry_ok hm
    refine ⟨some (route, id), rfl, ?_, ?_⟩
    · rintro p hp
      obtain rfl := Option.some.inj hp
      exact ⟨hm, hty, hacc⟩
    · unfold Router.matchRequest
      simp only [hl, hent, Res.ok_bind, hscan, routed]
      split
      · rfl
      · split <;> simp [hg]

end

end PingoraGuide
