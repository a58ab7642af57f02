import PingoraGuide.Lib.Collect
import PingoraGuide.Lib.Search
import PingoraGuide.Upstream
/-!
# Service discovery and weights

Pingora's weighted selection indexes a table of every backend `weight` times, modulo its length
(`Search.expand`). A weight of 0 is accepted everywhere, so a set of backends can be non-empty and
its table empty (`usable_weights_iff`).

| here | there |
| --- | --- |
| `DiscoveryCrates`         | `lookup_host`, `read_to_string`, `serde_yaml::from_str`, `serde_json::from_str` |
| `DnsDiscovery.discover`   | src/upstreams/factory.rs:31-51; no discovery disables a backend, so the map of enabled ones is left out |
| `FileDiscovery.discover`  | factory.rs:58-87; its loop over the file's backends is the one over a static list, `resolveBackends` |
| `backendsOf`              | one round of either loop: the backends of an entry |
-/
namespace PingoraGuide
open Collect Search

variable {K : Crates}

structure DiscoveryCrates where
  lookupHost : String → Except String (List (IpAddr × Nat))
  readToString : String → Except String String
  yamlFromStr : String → Except String (List BackendConf)
  jsonFromStr : String → Except String (List BackendConf)

def DiscoveryCrates.fromStr (D : DiscoveryCrates) :
    FileFormat → String → Except String (List BackendConf)
  | .Yaml => D.yamlFromStr
  | .Json => D.jsonFromStr

structure DnsDiscovery where
  hostname : String

def DnsDiscovery.discover (D : DiscoveryCrates) (d : DnsDiscovery) :
    Except PError (Finset Backend) :=
  match D.lookupHost d.hostname with
  | .ok addrs => .ok (addrs.map fun a => (⟨.inet a.1 a.2, 1⟩ : Backend)).toFinset
  | .error _ => .error ⟨.Custom "DNSResolutionFailed", none⟩

structure FileDiscovery where
  path : String
  format : FileFormat

variable (K) in
def FileDiscovery.discover (D : DiscoveryCrates) (d : FileDiscovery) :
    Except PError (Finset Backend) :=
  match D.readToString d.path with
  | .error e => .error (.explain .InternalError e)
  | .ok content =>
    match D.fromStr d.format content with
    | .error e => .error (.explain .InternalError e)
    | .ok backendConfs => do
      let upstreams ← resolveBackends K backendConfs
      .ok upstreams.toFinset

/-! ## What the loop over the backends leaves -/

variable (K) in
def backendsOf (bConf : BackendConf) : Except PError (List Backend) :=
  match K.toSocketAddrs bConf.address with
  | .ok addrs => .ok (addrs.map fun a => ⟨.inet a.1 a.2, bConf.weight⟩)
  | .error e => .error (.explain .InternalError e)

theorem backendsOf_ok {bConf : BackendConf} {l : List Backend} :
    backendsOf K bConf = .ok l ↔ ∃ addrs, K.toSocketAddrs bConf.address = .ok addrs ∧
      l = addrs.map fun a => ⟨.inet a.1 a.2, bConf.weight⟩ := by
  unfold backendsOf
  cases K.toSocketAddrs bConf.address with
  | ok addrs => simp [eq_comm]
  | error e => simp

theorem backendsOf_fails {bConf : BackendConf} :
    (∃ e, backendsOf K bConf = .error e) ↔ ∃ e, K.toSocketAddrs bConf.address = .error e := by
  unfold backendsOf
  cases K.toSocketAddrs bConf.address <;> simp

/-- `resolveBackends` lists what a loop of insertions collects. -/
theorem resolveBackends_collect (confs : List BackendConf) (acc : Finset Backend) :
    (resolveBackends K confs).map (fun l => acc ∪ l.toFinset) =
      collect (backendsOf K) confs acc := by
  induction confs generalizing acc with
  | nil => simp [resolveBackends, collect, Except.map]
  | cons b confs ih =>
    unfold resolveBackends collect
    cases haddrs : K.toSocketAddrs b.address with
    | error e =>
      have hb : backendsOf K b = .error (.explain .InternalError e) := by
        simp [backendsOf, haddrs]
      rw [hb]
      rfl
    | ok addrs =>
      rw [backendsOf_ok.2 ⟨addrs, haddrs, rfl⟩]
      dsimp only
      rw [← ih]
      cases resolveBackends K confs with
      | error e => rfl
      | ok l => simp [bind, Except.bind, Except.map]

theorem resolveBackends_toFinset (confs : List BackendConf) :
    (resolveBackends K confs).map List.toFinset = collect (backendsOf K) confs ∅ := by
  rw [← resolveBackends_collect]
  cases resolveBackends K confs <;> simp [Except.map]

theorem collected_mem {confs : List BackendConf} {pool : Finset Backend}
    (h : Collected (backendsOf K) confs ∅ pool) (x : Backend) :
    x ∈ pool ↔ ∃ b ∈ confs, ∃ addrs, K.toSocketAddrs b.address = .ok addrs ∧
      ∃ a ∈ addrs, x = ⟨.inet a.1 a.2, b.weight⟩ := by
  rw [h.mem x]
  constructor
  · rintro (hx | ⟨b, hb, l, hl, hx⟩)
    · simp at hx
    · obtain ⟨addrs, haddrs, rfl⟩ := backendsOf_ok.1 hl
      obtain ⟨a, ha, rfl⟩ := List.mem_map.1 hx
      exact ⟨b, hb, addrs, haddrs, a, ha, rfl⟩
  · rintro ⟨b, hb, addrs, haddrs, a, ha, rfl⟩
    exact .inr ⟨b, hb, _, backendsOf_ok.2 ⟨addrs, haddrs, rfl⟩, List.mem_map_of_mem ha⟩

theorem resolveBackends_mem {confs : List BackendConf} {l : List Backend}
    (h : resolveBackends K confs = .ok l) :
    (∀ b ∈ confs, ∃ addrs, K.toSocketAddrs b.address = .ok addrs) ∧
      ∀ x, x ∈ l ↔ ∃ b ∈ confs, ∃ addrs, K.toSocketAddrs b.address = .ok addrs ∧
        ∃ a ∈ addrs, x = ⟨.inet a.1 a.2, b.weight⟩ := by
  have hset : collect (backendsOf K) confs ∅ = .ok l.toFinset := by
    rw [← resolveBackends_toFinset, h]
    rfl
  have hcollected := collect_ok_iff.1 hset
  constructor
  · intro b hb
    obtain ⟨_, hl⟩ := hcollected.all b hb
    obtain ⟨addrs, haddrs, -⟩ := backendsOf_ok.1 hl
    exact ⟨addrs, haddrs⟩
  · intro x
    rw [← List.mem_toFinset]
    exact collected_mem hcollected x

/-- Every discovered backend has an internet address. -/
theorem resolveBackends_inet {confs : List BackendConf} {l : List Backend}
    (h : resolveBackends K confs = .ok l) {x : Backend} (hx : x ∈ l) :
    ∃ ip port, x.addr = .inet ip port := by
  obtain ⟨b, -, addrs, -, a, -, rfl⟩ := ((resolveBackends_mem h).2 x).1 hx
  exact ⟨a.1, a.2, rfl⟩

/-! ## Usable weights -/

/-- Nothing to choose from, or a table to choose with. -/
def UsableWeights (backends : Finset Backend) : Prop :=
  backends = ∅ ∨ 1 ≤ ∑ b ∈ backends, b.weight

/-- In whatever order the selection enumerates the backends, its table is never empty for a pool
that is not. -/
theorem usableWeights_iff_expand {pool : List Backend} (hpool : pool.Nodup) :
    UsableWeights pool.toFinset ↔ (pool ≠ [] → (expand Backend.weight pool).length ≠ 0) := by
  rw [length_expand Backend.weight hpool, UsableWeights, List.toFinset_eq_empty_iff]
  by_cases hnil : pool = []
  · simp [hnil]
  · simp [hnil, Nat.one_le_iff_ne_zero]

theorem usableWeights_iff_exists {backends : Finset Backend} :
    UsableWeights backends ↔ backends = ∅ ∨ ∃ b ∈ backends, b.weight ≠ 0 := by
  rw [UsableWeights, Nat.one_le_iff_ne_zero, ne_eq, Finset.sum_eq_zero_iff]
  simp

variable (K) in
/-- No address of the list resolves to anything, or one of non-zero weight does. -/
def SomeWeight (confs : List BackendConf) : Prop :=
  (∀ b ∈ confs, K.toSocketAddrs b.address = .ok []) ∨
    ∃ b ∈ confs, b.weight.val ≠ 0 ∧ ∃ a addrs, K.toSocketAddrs b.address = .ok (a :: addrs)

theorem resolveBackends_usable {confs : List BackendConf} {l : List Backend}
    (h : resolveBackends K confs = .ok l) : UsableWeights l.toFinset ↔ SomeWeight K confs := by
  obtain ⟨hall, hmem⟩ := resolveBackends_mem h
  rw [usableWeights_iff_exists, List.toFinset_eq_empty_iff]
  simp only [List.mem_toFinset]
  refine or_congr ?_ ?_
  · rw [List.eq_nil_iff_forall_not_mem]
    constructor
    · intro hnil b hb
      obtain ⟨addrs, haddrs⟩ := hall b hb
      cases addrs with
      | nil => exact haddrs
      | cons a addrs => exact absurd ((hmem _).2 ⟨b, hb, _, haddrs, a, by simp, rfl⟩) (hnil _)
    · intro hempty x hx
      obtain ⟨b, hb, addrs, haddrs, a, ha, -⟩ := (hmem x).1 hx
      obtain rfl : [] = addrs := Except.ok.inj ((hempty b hb).symm.trans haddrs)
      cases ha
  · constructor
    · rintro ⟨x, hx, hw⟩
      obtain ⟨b, hb, addrs, haddrs, a, ha, rfl⟩ := (hmem x).1 hx
      cases addrs with
      | nil => cases ha
      | cons a' addrs => exact ⟨b, hb, hw, a', addrs, haddrs⟩
    · rintro ⟨b, hb, hw, a, addrs, haddrs⟩
      exact ⟨_, (hmem _).2 ⟨b, hb, _, haddrs, a, by simp, rfl⟩, hw⟩

/-- The backends a static cluster balances over. -/
theorem makeUpstream_static {conf : UpstreamConf} {backends : List BackendConf} {u : Upstream}
    (hsource : conf.source = .Static backends) (h : makeUpstream K conf = .ok u) :
    ∃ c l, u = .cluster c ∧ resolveBackends K backends = .ok l ∧
      c.lb.discovery = .Static l.toFinset := by
  simp only [makeUpstream, hsource] at h
  obtain ⟨lb, hlb, rfl⟩ := makeLbInstance_eq_ok.1 h
  rw [makeLb_static hsource] at hlb
  cases hl : resolveBackends K backends with
  | error e =>
    rw [hl] at hlb
    cases hlb
  | ok l =>
    rw [hl] at hlb
    obtain rfl := Except.ok.inj hlb
    exact ⟨_, l, rfl, rfl, finalizeLb_discovery _ conf⟩

theorem discover_ok {D : DiscoveryCrates} {d : FileDiscovery} {backends : Finset Backend}
    (h : d.discover K D = .ok backends) :
    ∃ content confs l, D.readToString d.path = .ok content ∧
      D.fromStr d.format content = .ok confs ∧ resolveBackends K confs = .ok l ∧
      backends = l.toFinset := by
  unfold FileDiscovery.discover at h
  cases hr : D.readToString d.path with
  | error e => simp [hr] at h
  | ok content =>
    cases hp : D.fromStr d.format content with
    | error e => simp [hr, hp] at h
    | ok confs =>
      cases hl : resolveBackends K confs with
      | error e => simp [hr, hp, hl, bind, Except.bind] at h
      | ok l =>
        simp only [hr, hp, hl, bind, Except.bind, Except.ok.injEq] at h
        exact ⟨content, confs, l, rfl, hp, hl, h.symm⟩

/-- A host that resolves has usable weights: every address weighs 1. -/
theorem DnsDiscovery.usable {D : DiscoveryCrates} {d : DnsDiscovery} {backends : Finset Backend}
    (h : d.discover D = .ok backends) : UsableWeights backends := by
  unfold DnsDiscovery.discover at h
  cases hl : D.lookupHost d.hostname with
  | error e => simp [hl] at h
  | ok addrs =>
    simp only [hl, Except.ok.injEq] at h
    subst h
    rw [usableWeights_iff_exists, List.toFinset_eq_empty_iff]
    cases addrs with
    | nil => exact .inl rfl
    | cons a addrs => exact .inr ⟨⟨.inet a.1 a.2, 1⟩, by simp, by simp⟩

/-- **Weights are usable unless every resolving backend weighs 0.** For every static list that
`make_upstream` accepts and every backend file that `discover` accepts. -/
theorem usable_weights_iff (D : DiscoveryCrates) :
    (∀ (conf : UpstreamConf) backends u, conf.source = .Static backends →
      makeUpstream K conf = .ok u →
        ∃ c pool, u = .cluster c ∧ c.lb.discovery = .Static pool ∧
          (UsableWeights pool ↔ SomeWeight K backends)) ∧
    ∀ (d : FileDiscovery) pool, d.discover K D = .ok pool →
      ∃ content confs, D.readToString d.path = .ok content ∧
        D.fromStr d.format content = .ok confs ∧ (UsableWeights pool ↔ SomeWeight K confs) := by
  constructor
  · intro conf backends u hsource hmake
    obtain ⟨c, l, hu, hl, hdisc⟩ := makeUpstream_static hsource hmake
    exact ⟨c, _, hu, hdisc, resolveBackends_usable hl⟩
  · intro d pool hd
    obtain ⟨content, confs, l, hread, hparse, hl, rfl⟩ := discover_ok hd
    exact ⟨content, confs, hread, hparse, resolveBackends_usable hl⟩

/-- One backend of weight 0. -/
def weightlessConf : UpstreamConf where
  id := "a"
  source := .Static [{ address := "127.0.0.1:80", weight := ⟨0, by decide⟩ }]

/-- It is accepted, and its table is empty although its pool is not. -/
theorem weightless_accepted :
    ∃ c pool, makeUpstream refCrates weightlessConf = .ok (.cluster c) ∧
      c.lb.discovery = .Static pool ∧ pool ≠ ∅ ∧ ∑ b ∈ pool, b.weight = 0 ∧
      ¬ UsableWeights pool := by
  refine ⟨_, {⟨.inet loopback 80, 0⟩}, rfl, rfl, by simp, by simp, ?_⟩
  simp [UsableWeights]

/-- The plain backend, static and from a file. -/
def oneBackend : List BackendConf := [{ address := "127.0.0.1:80", weight := ⟨1, by decide⟩ }]

def refDiscovery : DiscoveryCrates where
  lookupHost _ := .ok [(loopback, 80)]
  readToString _ := .ok "- address: 127.0.0.1:80"
  yamlFromStr _ := .ok oneBackend
  jsonFromStr _ := .error "invalid number at line 1 column 2"

theorem usable_weights_iff_one :
    (∃ c pool, makeUpstream refCrates { id := "a", source := .Static oneBackend } =
        .ok (.cluster c) ∧ c.lb.discovery = .Static pool ∧
        (UsableWeights pool ↔ SomeWeight refCrates oneBackend)) ∧
      ∃ pool, (FileDiscovery.mk "/b.yaml" .Yaml).discover refCrates refDiscovery = .ok pool ∧
        (UsableWeights pool ↔ SomeWeight refCrates oneBackend) := by
  obtain ⟨hstatic, hfile⟩ := usable_weights_iff (K := refCrates) refDiscovery
  obtain ⟨c, pool, hc, hpool, hiff⟩ :=
    hstatic { id := "a", source := .Static oneBackend } oneBackend _ rfl rfl
  obtain ⟨content, confs, -, hconfs, hiff'⟩ := hfile ⟨"/b.yaml", .Yaml⟩ _ rfl
  obtain rfl : oneBackend = confs := Except.ok.inj hconfs
  exact ⟨⟨c, pool, congrArg Except.ok hc, hpool, hiff⟩, _, rfl, hiff'⟩

end PingoraGuide
