import PingoraGuide.Coherence
/-!
# What a successful start guarantees

`main` fills the upstream map in a loop and then builds the router; nothing compares the two. After
a successful start the map holds, under each configured id, the last upstream configured with it
(`upstreamMap_get`), and a route may name an id that is not there: its requests are let through and
`upstream_peer` answers them with a 500 (`startup_integrity`).
-/
namespace PingoraGuide
open Fallible Wire

variable {K : Crates}

/-- The last upstream configured with this id. -/
def lastConfigured (confs : List UpstreamConf) (id : String) : Option UpstreamConf :=
  confs.reverse.find? fun u => u.id == id

theorem lastConfigured_cons (u : UpstreamConf) (confs : List UpstreamConf) (id : String) :
    lastConfigured (u :: confs) id =
      (lastConfigured confs id).or (if u.id = id then some u else none) := by
  unfold lastConfigured
  rw [List.reverse_cons, List.find?_append]
  by_cases h : u.id = id <;> simp [h]

theorem lastConfigured_eq_some {confs : List UpstreamConf} {id : String} {u : UpstreamConf}
    (h : lastConfigured confs id = some u) : u ∈ confs ∧ u.id = id := by
  have hmem := List.mem_of_find?_eq_some h
  have hid := List.find?_some h
  exact ⟨by simpa using hmem, by simpa using hid⟩

theorem lastConfigured_eq_none {confs : List UpstreamConf} {id : String} :
    lastConfigured confs id = none ↔ ∀ u ∈ confs, u.id ≠ id := by
  simp [lastConfigured]

/-! ## The loop of `main` -/

/-- Every upstream was built, and each id holds the last one configured with it. -/
theorem upstreamMap_get {confs : List UpstreamConf} {m m' : String → Option Upstream}
    (h : upstreamMap K confs m = .ok m') :
    (∀ u ∈ confs, ∃ up, makeUpstream K u = .ok up) ∧
      ∀ id, m' id =
        ((lastConfigured confs id).bind fun u => (makeUpstream K u).toOption).or (m id) := by
  induction confs generalizing m with
  | nil =>
    obtain rfl := Except.ok.inj h
    simp [lastConfigured]
  | cons u confs ih =>
    unfold upstreamMap at h
    cases hu : makeUpstream K u with
    | error e => simp [hu, bind, Except.bind] at h
    | ok up =>
      simp only [hu, bind, Except.bind] at h
      obtain ⟨hall, hget⟩ := ih h
      refine ⟨?_, fun id => ?_⟩
      · intro v hv
        rcases List.mem_cons.1 hv with rfl | hv
        · exact ⟨up, hu⟩
        · exact hall v hv
      · rw [hget id, lastConfigured_cons]
        cases hlast : lastConfigured confs id with
        | some v =>
          obtain ⟨hv, -⟩ := lastConfigured_eq_some hlast
          obtain ⟨vp, hvp⟩ := hall v hv
          simp [hvp, Except.toOption]
        | none =>
          by_cases hid : u.id = id
          · subst hid
            simp [hu, Except.toOption]
          · simp [hid, Function.update_of_ne (Ne.symm hid)]

theorem mainGateway_ok {conf : GatewayConf} {g : Gateway K} (h : mainGateway K conf = .ok g) :
    upstreamMap K conf.upstreams (fun _ => none) = .ok g.upstreams ∧
      Router.new K conf = .ok g.router ∧ g.middlewares = mainMiddlewares K conf.server := by
  unfold mainGateway at h
  cases hu : upstreamMap K conf.upstreams fun _ => none with
  | error e => simp [hu] at h
  | ok upstreams =>
    cases hr : Router.new K conf with
    | error e => simp [hu, hr, bind, Except.bind] at h
    | ok router =>
      simp only [hu, hr, bind, Except.bind, Except.ok.injEq] at h
      subst h
      exact ⟨rfl, rfl, rfl⟩

/-- The upstream map of a started gateway: the configured ids, each with its last upstream. -/
theorem mainGateway_upstreams {conf : GatewayConf} {g : Gateway K} (h : mainGateway K conf = .ok g) :
    (∀ id, g.upstreams id = none ↔ ∀ u ∈ conf.upstreams, u.id ≠ id) ∧
      ∀ u ∈ conf.upstreams, ∃ last up, lastConfigured conf.upstreams u.id = some last ∧
        makeUpstream K last = .ok up ∧ g.upstreams u.id = some up := by
  obtain ⟨hmap, -, -⟩ := mainGateway_ok h
  obtain ⟨hall, hget⟩ := upstreamMap_get hmap
  have hlast : ∀ id last, lastConfigured conf.upstreams id = some last →
      ∃ up, makeUpstream K last = .ok up ∧ g.upstreams id = some up := by
    intro id last hl
    obtain ⟨up, hup⟩ := hall last (lastConfigured_eq_some hl).1
    exact ⟨up, hup, by simp [hget, hl, hup, Except.toOption]⟩
  constructor
  · intro id
    rw [← lastConfigured_eq_none]
    cases hl : lastConfigured conf.upstreams id with
    | none => simp [hget, hl]
    | some last =>
      obtain ⟨up, -, hup⟩ := hlast id last hl
      simp [hup]
  · intro u hu
    cases hl : lastConfigured conf.upstreams u.id with
    | none => exact absurd rfl (lastConfigured_eq_none.1 hl u hu)
    | some last =>
      obtain ⟨up, hmake, hup⟩ := hlast u.id last hl
      exact ⟨last, up, rfl, hmake, hup⟩

/-! ## The branch of `upstream_peer` -/

/-- This call of `upstream_peer` takes the branch "Upstream config not found". -/
def TakesNotFound (g : Gateway K) (s : St K Unit) : Prop :=
  g.upstreamPeer s = (respondError 500 >>= fun _ =>
    Act.throw (upstreamError "Upstream config not found")) (s.log .upstreamPeer)

theorem Coherent.takesNotFound_iff {g : Gateway K} {entry : RouteEntry K} {s : St K Unit}
    (h : Coherent entry s.ctx) :
    TakesNotFound g s ↔ g.upstreams entry.conf.val.upstreamId = none := by
  unfold TakesNotFound
  rw [h.upstreamPeer_run]
  cases hu : g.upstreams entry.conf.val.upstreamId with
  | none => simp
  | some u =>
    simp only [reduceCtorEq, iff_false]
    intro hsame
    -- the two branches leave different logs
    let l := s.calls ++ [.upstreamPeer]
    have hkept : ∀ l, Act.Keeps (fun s : St K Unit => s.calls = l) (u.selectPeer (K := K)) :=
      fun l => selectPeer_keeps (g := g) u (fun _ _ _ hs => hs) (fun _ _ _ hs => hs)
    have hselect := hkept (l ++ [.selectPeer entry.conf.val.upstreamId])
      ((s.log .upstreamPeer).log (.selectPeer entry.conf.val.upstreamId)) rfl
    have hrespond : ((respondError 500 >>= fun _ =>
        Act.throw (upstreamError "Upstream config not found") : Act (St K Unit) PError HttpPeer)
          (s.log .upstreamPeer)).2.calls = l := by
      obtain ⟨se, hse, -⟩ := write_cases (.error 500) (s.log .upstreamPeer)
      rw [Act.bind_frame_snd (fun _ _ => rfl), respondError, hse]
      rfl
    rw [← hsame, Act.mapErr_run, hselect] at hrespond
    simp at hrespond

/-! ## After a successful start -/

/-- **What a successful start guarantees.** The keys of the upstream map are the configured ids, and
an id holds the last upstream configured with it. A request that is let through takes the branch
"Upstream config not found", at any later point, if and only if no configured upstream has the id
its route names. -/
theorem startup_integrity {conf : GatewayConf} {g : Gateway K} (hstart : mainGateway K conf = .ok g) :
    (∀ id, g.upstreams id = none ↔ ∀ u ∈ conf.upstreams, u.id ≠ id) ∧
    (∀ u ∈ conf.upstreams, ∃ last up, lastConfigured conf.upstreams u.id = some last ∧
      makeUpstream K last = .ok up ∧ g.upstreams u.id = some up) ∧
    ∀ session s, g.run (Gateway.start session) [.earlyRequestFilter, .requestFilter] =
        some (.proxying, s) →
      ∃ entry, g.matched (Gateway.start session).2 = .ok (some entry) ∧
        entry.conf.val ∈ conf.routes ∧
        ∀ ps stage s', g.run (.proxying, s) ps = some (stage, s') →
          (TakesNotFound g s' ↔ ∀ u ∈ conf.upstreams, u.id ≠ entry.conf.val.upstreamId) := by
  obtain ⟨-, hrouter, hmain⟩ := mainGateway_ok hstart
  obtain ⟨hkeys, hlast⟩ := mainGateway_upstreams hstart
  refine ⟨hkeys, hlast, fun session s hthrough => ?_⟩
  have hframes : ∀ m ∈ g.middlewares, m.Frames := hmain ▸ fun _ => main_frames
  obtain ⟨entry, hmatch, hcoh⟩ :=
    requestFilter_coherent hframes (run_opening_main hmain hthrough)
  obtain ⟨i, hmem, -⟩ := (new_indexed hrouter).matched_entry hmatch
  refine ⟨entry, hmatch, List.fst_mem_of_mem_zipIdx hmem, fun ps stage s' hrun => ?_⟩
  have hcoh' : Coherent entry s'.ctx :=
    run_coherent (c := (.proxying, s)) hframes Stage.proxying_later hcoh hrun
  rw [hcoh'.takesNotFound_iff, hkeys]

/-- Two upstreams under one id, and a route to an id that is not configured. -/
def looseConf : GatewayConf where
  upstreams :=
    [{ id := "a", source := .Uds "/run/first.sock" }, { id := "a", source := .Uds "/run/second.sock" }]
  routes := [{ path := "/", upstreamId := "b" }]

def looseGateway : Gateway refCrates := (mainGateway refCrates looseConf).toOption.get rfl

theorem looseGateway_starts : mainGateway refCrates looseConf = .ok looseGateway := rfl

theorem looseGateway_opens : ∃ s, looseGateway.run (Gateway.start (getRequest "/"))
    [.earlyRequestFilter, .requestFilter] = some (.proxying, s) := by
  have h : (looseGateway.run (Gateway.start (getRequest "/"))
      [.earlyRequestFilter, .requestFilter]).map Prod.fst = some .proxying := by
    decide +kernel
  obtain ⟨⟨_, s⟩, hrun, rfl⟩ := Option.map_eq_some_iff.1 h
  exact ⟨s, hrun⟩

/-- The start succeeds; the first upstream is replaced, the route's id is no key, and a request for
it that is let through ends in the branch "Upstream config not found". -/
theorem startup_accepts_loose :
    mainGateway refCrates looseConf = .ok looseGateway ∧
    looseGateway.upstreams "a" = some (.static (.newUds "/run/second.sock" {})) ∧
    (∀ route ∈ looseConf.routes, looseGateway.upstreams route.upstreamId = none) ∧
    ∃ s, looseGateway.run (Gateway.start (getRequest "/")) [.earlyRequestFilter, .requestFilter] =
      some (.proxying, s) ∧ TakesNotFound looseGateway s := by
  obtain ⟨-, hrouter, hmain⟩ := mainGateway_ok looseGateway_starts
  have hkey : ∀ route ∈ looseConf.routes, looseGateway.upstreams route.upstreamId = none := by
    intro route hroute
    obtain rfl := List.mem_singleton.1 hroute
    rfl
  obtain ⟨s, hs⟩ := looseGateway_opens
  obtain ⟨entry, hmatch, hcoh⟩ :=
    requestFilter_coherent (hmain ▸ fun _ => main_frames) (run_opening_main hmain hs)
  obtain ⟨i, hmem, -⟩ := (new_indexed hrouter).matched_entry hmatch
  refine ⟨looseGateway_starts, rfl, hkey, s, hs, hcoh.takesNotFound_iff.2 ?_⟩
  exact hkey _ (List.fst_mem_of_mem_zipIdx hmem)

theorem startup_integrity_loose :
    (∀ id, looseGateway.upstreams id = none ↔ ∀ u ∈ looseConf.upstreams, u.id ≠ id) ∧
    ∀ session s, looseGateway.run (Gateway.start session) [.earlyRequestFilter, .requestFilter] =
        some (.proxying, s) →
      ∃ entry, looseGateway.matched (Gateway.start session).2 = .ok (some entry) ∧
        entry.conf.val ∈ looseConf.routes := by
  obtain ⟨hkeys, -, hthrough⟩ := startup_integrity looseGateway_starts
  refine ⟨hkeys, fun session s hs => ?_⟩
  obtain ⟨entry, hmatch, hmem, -⟩ := hthrough session s hs
  exact ⟨entry, hmatch, hmem⟩

end PingoraGuide
