import PingoraGuide.Access
/-!
# When `Router::new` succeeds, and what it has built then

`RouteValid` is what one route has to satisfy by itself: its pattern compiles or starts with `/`,
and its blocks parse. Besides that the template tree has to take every template after the ones
before it. There is no other way to fail, and no partial router (`router_new_exact`). The test
`invalid_route_skipped` (router.rs:290-309) says "skipped" and asserts the error.

`CompiledFrom` is the meaning of a registry entry's ACL in terms of the configured lists.
-/
namespace PingoraGuide
open Fallible Wire

variable {K : Crates}

variable (K) in
/-- Every string is an `IpNet`. -/
def Parses (blocks : List String) : Prop :=
  ∀ block ∈ blocks, ∃ net, K.ipNetFromStr block = .ok net

variable (K) in
structure RouteValid (route : RouteConf) : Prop where
  regex : route.pathType = .Regex → ∃ re, K.regexNew route.path = .ok re
  slash : route.pathType ≠ .Regex → route.path.toList.head? = some '/'
  deny : ∀ acl, route.accessControl = some acl → Parses K acl.deny
  allow : ∀ acl, route.accessControl = some acl → Parses K acl.allow

variable (K) in
/-- The tree of the templates of `done` takes the path of `route`. -/
def TakenAfter (done : List (RouteConf × Nat)) (route : RouteConf) (idx : Nat) : Prop :=
  ∃ t t', K.tree.Built t (templatesOf done) ∧ K.tree.insert t route.path idx = .ok t'

/-- The compiled ACL of a route: none if no block is configured, else the parses of both lists, in
order. -/
structure CompiledFrom (conf : Option AccessControlConf)
    (acl : Option (Arc (CompiledAccessControl K))) : Prop where
  none_iff : acl = none ↔ ∀ a, conf = some a → a.deny = [] ∧ a.allow = []
  parses : ∀ c, acl = some c → ∃ a, conf = some a ∧
    List.Forall₂ (fun block net => K.ipNetFromStr block = .ok net) a.deny c.val.deny ∧
    List.Forall₂ (fun block net => K.ipNetFromStr block = .ok net) a.allow c.val.allow

/-! ## The blocks of one route -/

theorem compileBlocks_isOk {blocks : List String} :
    (∃ nets, compileBlocks K blocks = .ok nets) ↔ Parses K blocks := by
  constructor
  · rintro ⟨nets, h⟩ block hm
    have hall := compileBlocks_ok h
    clear h
    induction hall with
    | nil => simp at hm
    | cons hb _ ih =>
      rcases List.mem_cons.1 hm with rfl | hm
      · exact ⟨_, hb⟩
      · exact ih hm
  · intro h
    induction blocks with
    | nil => exact ⟨[], rfl⟩
    | cons block blocks ih =>
      obtain ⟨net, hb⟩ := h block (by simp)
      obtain ⟨nets, hbs⟩ := ih fun b hm => h b (by simp [hm])
      exact ⟨net :: nets, by simp [compileBlocks, hb, hbs, bind, Except.bind]⟩

/-- The two loops, deny first, and the collapse of two empty lists. -/
theorem compileAcl_some {a : AccessControlConf} {acl : Option (Arc (CompiledAccessControl K))} :
    compileAcl K (some a) = .ok acl ↔
      ∃ deny allow, compileBlocks K a.deny = .ok deny ∧ compileBlocks K a.allow = .ok allow ∧
        acl = if !allow.isEmpty || !deny.isEmpty then some ⟨⟨allow, deny⟩⟩ else none := by
  unfold compileAcl
  cases hd : compileBlocks K a.deny with
  | error e => simp [hd, bind, Except.bind]
  | ok deny =>
    cases ha : compileBlocks K a.allow with
    | error e => simp [hd, ha, bind, Except.bind]
    | ok allow =>
      simp only [hd, ha, bind, Except.bind, Except.ok.injEq, exists_and_left, exists_eq_left']
      split <;> simp only [Except.ok.injEq, eq_comm]

theorem compileAcl_isOk {conf : Option AccessControlConf} :
    (∃ acl, compileAcl K conf = .ok acl) ↔
      ∀ a, conf = some a → Parses K a.deny ∧ Parses K a.allow := by
  cases conf with
  | none => simp [compileAcl]
  | some a =>
    simp only [compileAcl_some, Option.some.injEq, forall_eq', ← compileBlocks_isOk]
    constructor
    · rintro ⟨-, deny, allow, hd, ha, -⟩
      exact ⟨⟨deny, hd⟩, allow, ha⟩
    · rintro ⟨⟨deny, hd⟩, allow, ha⟩
      exact ⟨_, deny, allow, hd, ha, rfl⟩

theorem compileAcl_compiledFrom {conf : Option AccessControlConf}
    {acl : Option (Arc (CompiledAccessControl K))} (h : compileAcl K conf = .ok acl) :
    CompiledFrom conf acl := by
  cases conf with
  | none =>
    obtain rfl : none = acl := Except.ok.inj h
    exact ⟨by simp, by simp⟩
  | some a =>
    obtain ⟨deny, allow, hd, ha, rfl⟩ := compileAcl_some.1 h
    have hdn := compileBlocks_isEmpty hd
    have han := compileBlocks_isEmpty ha
    constructor
    · rw [han, hdn]
      by_cases hno : a.deny = [] ∧ a.allow = []
      · simp [hno]
      · simp [hno]
        tauto
    · intro c hc
      split at hc
      · obtain rfl := Option.some.inj hc
        exact ⟨a, rfl, compileBlocks_ok hd, compileBlocks_ok ha⟩
      · simp at hc

/-! ## The loop -/

theorem templatesOf_append (l l' : List (RouteConf × Nat)) :
    templatesOf (l ++ l') = templatesOf l ++ templatesOf l' := List.filterMap_append

theorem templatesOf_regex {p : RouteConf × Nat} (h : p.1.pathType = .Regex) :
    templatesOf [p] = [] := by simp [templatesOf, h]

theorem templatesOf_template {p : RouteConf × Nat} (h : p.1.pathType ≠ .Regex) :
    templatesOf [p] = [(p.1.path, p.2)] := by simp [templatesOf, h]

/-- All templates of a table are taken, each after the ones before it. -/
theorem built_templates_iff {l : List (RouteConf × Nat)} :
    (∃ t, K.tree.Built t (templatesOf l)) ↔
      ∀ k p, l[k]? = some p → p.1.pathType ≠ .Regex → TakenAfter K (l.take k) p.1 p.2 := by
  constructor
  · rintro ⟨t, ht⟩ k p hp hty
    obtain ⟨hk, rfl⟩ := List.getElem?_eq_some_iff.1 hp
    rw [← List.take_append_drop (k + 1) l, ← List.take_append_getElem hk, templatesOf_append,
      templatesOf_append, templatesOf_template hty] at ht
    obtain ⟨t1, h1⟩ := ht.before
    obtain ⟨t0, h0, hi⟩ := h1.last
    exact ⟨t0, t1, h0, hi⟩
  · intro h
    induction l using List.reverseRecOn with
    | nil => exact ⟨_, .empty⟩
    | append_singleton l p ih =>
      have hold : ∃ t, K.tree.Built t (templatesOf l) := by
        refine ih fun k q hq hty => ?_
        obtain ⟨hk, -⟩ := List.getElem?_eq_some_iff.1 hq
        have := h k q (by simpa [List.getElem?_append_left hk] using hq) hty
        rwa [List.take_append_of_le_length (by omega)] at this
      by_cases hty : p.1.pathType = .Regex
      · obtain ⟨t, ht⟩ := hold
        exact ⟨t, by simpa [templatesOf_append, templatesOf_regex hty] using ht⟩
      · obtain ⟨t0, t1, h0, hi⟩ := h l.length p (by simp) hty
        rw [List.take_left] at h0
        refine ⟨t1, ?_⟩
        rw [templatesOf_append, templatesOf_template hty]
        exact .insert h0 hi

/-- One round of the loop. -/
theorem addRoute_isOk {r : Router K} {route : RouteConf} {idx : Nat} :
    (∃ r', r.addRoute route idx = .ok r') ↔
      RouteValid K route ∧
        (route.pathType ≠ .Regex → ∃ t, K.tree.insert r.matchitRouter route.path idx = .ok t) := by
  constructor
  · rintro ⟨r', h⟩
    obtain ⟨r1, acl, hreg, hacl, -⟩ := addRoute_ok h
    have hblocks := compileAcl_isOk.1 ⟨acl, hacl⟩
    rcases register_ok hreg with ⟨hty, re, hre, -⟩ | ⟨hty, hs, t, ht, -⟩
    · exact ⟨⟨fun _ => ⟨re, hre⟩, fun hn => absurd hty hn, fun a ha => (hblocks a ha).1,
        fun a ha => (hblocks a ha).2⟩, fun hn => absurd hty hn⟩
    · exact ⟨⟨fun he => absurd he hty, fun _ => hs, fun a ha => (hblocks a ha).1,
        fun a ha => (hblocks a ha).2⟩, fun _ => ⟨t, ht⟩⟩
  · rintro ⟨hv, ht⟩
    obtain ⟨acl, hacl⟩ := compileAcl_isOk.2 fun a ha => ⟨hv.deny a ha, hv.allow a ha⟩
    have hreg : ∃ r1, r.register route idx = .ok r1 := by
      unfold Router.register
      cases hty : route.pathType with
      | Regex =>
        obtain ⟨re, hre⟩ := hv.regex hty
        simp [hre]
      | Prefix | Exact =>
        have hne : route.pathType ≠ .Regex := by simp [hty]
        obtain ⟨t, ht⟩ := ht hne
        simp [Router.insertTemplate, hv.slash hne, ht]
    obtain ⟨r1, hr1⟩ := hreg
    exact ⟨_, by simp only [Router.addRoute, hr1, hacl, bind, Except.bind]; rfl⟩

theorem addRoutes_isOk {l done : List (RouteConf × Nat)} {r : Router K} (hr : r.Indexed done)
    (hnd : ((done ++ l).map Prod.snd).Nodup) (hvalid : ∀ p ∈ l, RouteValid K p.1)
    (hbuilt : ∃ t, K.tree.Built t (templatesOf (done ++ l))) : ∃ r', r.addRoutes l = .ok r' := by
  induction l generalizing done r with
  | nil => exact ⟨r, rfl⟩
  | cons p rest ih =>
    obtain ⟨route, idx⟩ := p
    have htaken : route.pathType ≠ .Regex →
        ∃ t, K.tree.insert r.matchitRouter route.path idx = .ok t := by
      intro hty
      obtain ⟨t0, t1, h0, hi⟩ :=
        built_templates_iff.1 hbuilt done.length (route, idx) (by simp) hty
      rw [List.take_left] at h0
      exact ⟨t1, h0.unique hr.tree ▸ hi⟩
    obtain ⟨r1, h1⟩ := addRoute_isOk.2 ⟨hvalid (route, idx) (by simp), htaken⟩
    have hfresh : idx ∉ done.map Prod.snd := by
      intro hm
      rw [List.map_append, List.nodup_append] at hnd
      exact hnd.2.2 _ hm _ (by simp) rfl
    obtain ⟨r', h'⟩ := ih (hr.addRoute hfresh h1) (by simpa using hnd)
      (fun q hq => hvalid q (by simp [hq])) (by simpa using hbuilt)
    exact ⟨r', by simp [Router.addRoutes, h1, h', bind, Except.bind]⟩

/-- The two ways to fail: a route by itself, or a template after the ones before it. -/
theorem new_isOk {conf : GatewayConf} :
    (∃ r, Router.new K conf = .ok r) ↔
      (∀ route ∈ conf.routes, RouteValid K route) ∧
        ∃ t, K.tree.Built t (templatesOf conf.routes.zipIdx) := by
  constructor
  · rintro ⟨r, h⟩
    have hr := new_indexed h
    refine ⟨?_, _, hr.tree⟩
    intro route hm
    obtain ⟨i, hi⟩ := List.getElem?_of_mem hm
    have hm : (route, i) ∈ conf.routes.zipIdx := List.mk_mem_zipIdx_iff_getElem?.2 hi
    obtain ⟨acl, hacl, -⟩ := hr.entry hm
    have hblocks := compileAcl_isOk.1 ⟨acl, hacl⟩
    exact ⟨hr.compiled hm, hr.slash hm, fun a ha => (hblocks a ha).1, fun a ha => (hblocks a ha).2⟩
  · rintro ⟨hvalid, hbuilt⟩
    refine addRoutes_isOk Router.indexed_empty ?_ ?_ (by simpa using hbuilt)
    · simp only [List.nil_append, List.zipIdx_map_snd]
      exact List.nodup_range'
    · exact fun p hp => hvalid p.1 (List.fst_mem_of_mem_zipIdx hp)

/-- **Router construction is exact and all-or-nothing.** It succeeds exactly when every route is
valid and every template is taken after the ones before it. The registry then holds route `i` under
the key `i`, with the ACL compiled from its own lists, and no other key. -/
theorem router_new_exact (conf : GatewayConf) :
    ((∃ r, Router.new K conf = .ok r) ↔
      (∀ route ∈ conf.routes, RouteValid K route) ∧
      ∀ i route, conf.routes[i]? = some route → route.pathType ≠ .Regex →
        TakenAfter K (conf.routes.zipIdx.take i) route i) ∧
    ∀ r, Router.new K conf = .ok r →
      (∀ i, (r.routeRegistry i).isSome ↔ i < conf.routes.length) ∧
      ∀ i route, conf.routes[i]? = some route →
        ∃ acl, r.routeRegistry i = some ⟨⟨route⟩, acl⟩ ∧ CompiledFrom route.accessControl acl := by
  constructor
  · rw [new_isOk, built_templates_iff]
    refine and_congr_right fun _ => ?_
    simp only [List.getElem?_zipIdx, Nat.zero_add, Option.map_eq_some_iff]
    constructor
    · intro h i route hi hty
      exact h i (route, i) ⟨route, hi, rfl⟩ hty
    · rintro h i p ⟨route, hi, rfl⟩ hty
      exact h i route hi hty
  · intro r h
    have hr := new_indexed h
    constructor
    · intro i
      have hlt : i < conf.routes.length ↔ ∃ route, conf.routes[i]? = some route := by
        simp [List.getElem?_eq_some_iff]
      rw [Option.isSome_iff_exists, hlt]
      constructor
      · rintro ⟨e, he⟩
        obtain ⟨route, hm⟩ := hr.key he
        exact ⟨route, List.mk_mem_zipIdx_iff_getElem?.1 hm⟩
      · rintro ⟨route, hi⟩
        obtain ⟨acl, -, he⟩ := hr.entry (List.mk_mem_zipIdx_iff_getElem?.2 hi)
        exact ⟨_, he⟩
    · intro i route hi
      obtain ⟨acl, hacl, he⟩ := hr.entry (List.mk_mem_zipIdx_iff_getElem?.2 hi)
      exact ⟨acl, he, compileAcl_compiledFrom hacl⟩

end PingoraGuide
