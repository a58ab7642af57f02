import PingoraGuide.Discovery
/-!
# The backend sets of static and file sources

The same loop is written twice, over a static list when the upstream is built and over the entries
of a backend file at every refresh. Both are `Collect.collect` over `backendsOf`, and so is
`resolveBackends`, so the two sources agree on every list of entries.

| here | there |
| --- | --- |
| `staticBackends` | src/upstreams/factory.rs:216-229 |
| `fileBackends`   | factory.rs:71-85 |
-/
namespace PingoraGuide
open Collect

variable {K : Crates}

variable (K) in
def staticBackends (backends : List BackendConf) : Except PError (Finset Backend) := do
  let mut upstreams : Finset Backend := ∅
  for bConf in backends do
    let addrs ← (K.toSocketAddrs bConf.address).mapError fun e => .explain .InternalError e
    for addr in addrs do
      upstreams := insert ⟨.inet addr.1 addr.2, bConf.weight⟩ upstreams
  return upstreams

variable (K) in
def fileBackends (backendConfs : List BackendConf) : Except PError (Finset Backend) := do
  let mut upstreams : Finset Backend := ∅
  for bConf in backendConfs do
    let socketAddrs ← (K.toSocketAddrs bConf.address).mapError fun e => .explain .InternalError e
    for addr in socketAddrs do
      let backend : Backend := ⟨.inet addr.1 addr.2, bConf.weight⟩
      upstreams := insert backend upstreams
  return upstreams

/-! ## Three loops, one meaning -/

/-- One round of the two `for` loops. -/
theorem backendsOf_round (bConf : BackendConf) (acc : Finset Backend) :
    ((do
      let addrs ← (K.toSocketAddrs bConf.address).mapError fun e => .explain .InternalError e
      let acc ← forIn addrs acc fun addr acc =>
        pure (.yield (insert ⟨.inet addr.1 addr.2, bConf.weight⟩ acc))
      pure (.yield acc)) : Except PError (ForInStep (Finset Backend))) =
        (backendsOf K bConf).map fun ys => .yield (acc ∪ ys.toFinset) := by
  unfold backendsOf
  cases K.toSocketAddrs bConf.address with
  | error e => rfl
  | ok addrs =>
    have hinner := forIn_insert (ε := PError)
      (fun a : IpAddr × Nat => (⟨.inet a.1 a.2, bConf.weight⟩ : Backend)) addrs acc
    exact congrArg (Except.bind · fun acc => .ok (ForInStep.yield acc)) hinner

theorem staticBackends_collect (confs : List BackendConf) :
    staticBackends K confs = collect (backendsOf K) confs ∅ := by
  unfold staticBackends
  rw [bind_pure]
  exact forIn_eq_collect backendsOf_round

theorem fileBackends_collect (confs : List BackendConf) :
    fileBackends K confs = collect (backendsOf K) confs ∅ := by
  unfold fileBackends
  rw [bind_pure]
  exact forIn_eq_collect backendsOf_round

/-- The set `discover` returns for a file that decodes. -/
theorem discover_collect {D : DiscoveryCrates} {d : FileDiscovery} {content : String}
    {confs : List BackendConf} (hread : D.readToString d.path = .ok content)
    (hdecode : D.fromStr d.format content = .ok confs) :
    d.discover K D = collect (backendsOf K) confs ∅ := by
  rw [← resolveBackends_toFinset]
  simp only [FileDiscovery.discover, hread, hdecode]
  cases resolveBackends K confs <;> rfl

/-- The pool a load balancer over a static list is built on, or the error building it ends with. -/
theorem makeLbInstance_collect {conf : UpstreamConf} {confs : List BackendConf}
    (hsource : conf.source = .Static confs) :
    (∀ e, makeLbInstance K conf = .error e ↔ collect (backendsOf K) confs ∅ = .error e) ∧
    ∀ pool, (∃ c, makeLbInstance K conf = .ok (.cluster c) ∧ c.lb.discovery = .Static pool) ↔
      collect (backendsOf K) confs ∅ = .ok pool := by
  rw [← resolveBackends_toFinset]
  simp only [makeLbInstance_eq_error, makeLbInstance_eq_ok, makeLb_static hsource]
  cases resolveBackends K confs with
  | error e => simp [Except.map]
  | ok l => simp [Except.map, LoadBalancerCluster.new]

/-! ## The sources agree -/

/-- `built` is what both sources make of the entries: one set, or one error. -/
structure SourcesAgree (K : Crates) (D : DiscoveryCrates) (conf : UpstreamConf) (d : FileDiscovery)
    (confs : List BackendConf) (built : Except PError (Finset Backend)) : Prop where
  static : staticBackends K confs = built
  file : fileBackends K confs = built
  instanceFails : ∀ e, makeLbInstance K conf = .error e ↔ built = .error e
  instancePool : ∀ pool, (∃ c, makeLbInstance K conf = .ok (.cluster c) ∧
    c.lb.discovery = .Static pool) ↔ built = .ok pool
  discovered : d.discover K D = built
  noSet : (∃ e, built = .error e) → ∀ pool, d.discover K D ≠ .ok pool
  fails : (∃ e, built = .error e) ↔ ∃ b ∈ confs, ∃ e, K.toSocketAddrs b.address = .error e
  mem : ∀ pool, built = .ok pool → ∀ x, x ∈ pool ↔ ∃ b ∈ confs, ∃ addrs,
    K.toSocketAddrs b.address = .ok addrs ∧ ∃ a ∈ addrs, x = ⟨.inet a.1 a.2, b.weight⟩
  /-- Neither the order of the entries nor repeated ones matter. -/
  entries : ∀ confs' : List BackendConf, (∀ b, b ∈ confs' ↔ b ∈ confs) → ∀ pool,
    (staticBackends K confs' = .ok pool ↔ built = .ok pool) ∧
    (fileBackends K confs' = .ok pool ↔ built = .ok pool)

/-- **Static and file sources agree.** For every list of entries, a static source of that list and
a backend file that decodes to it, whatever the resolver. -/
theorem sources_agree (D : DiscoveryCrates) {conf : UpstreamConf} {d : FileDiscovery}
    {content : String} {confs : List BackendConf} (hsource : conf.source = .Static confs)
    (hread : D.readToString d.path = .ok content)
    (hdecode : D.fromStr d.format content = .ok confs) :
    ∃ built, SourcesAgree K D conf d confs built := by
  obtain ⟨hfails, hpool⟩ := makeLbInstance_collect (K := K) hsource
  have hdiscover := discover_collect (K := K) hread hdecode
  refine ⟨collect (backendsOf K) confs ∅, ?_⟩
  constructor
  case static => exact staticBackends_collect confs
  case file => exact fileBackends_collect confs
  case instanceFails => exact hfails
  case instancePool => exact hpool
  case discovered => exact hdiscover
  case noSet =>
    rintro ⟨e, he⟩ pool hok
    rw [hdiscover, he] at hok
    cases hok
  case fails => simp only [collect_fails, backendsOf_fails]
  case mem => exact fun pool hbuilt => collected_mem (collect_ok_iff.1 hbuilt)
  case entries =>
    intro confs' hsame pool
    have hcollect : collect (backendsOf K) confs' ∅ = .ok pool ↔
        collect (backendsOf K) confs ∅ = .ok pool := by
      rw [collect_ok_iff, collect_ok_iff]
      constructor
      · exact fun h => h.of_mem_iff fun b => (hsame b).symm
      · exact fun h => h.of_mem_iff hsame
    rw [staticBackends_collect, fileBackends_collect]
    exact ⟨hcollect, hcollect⟩

/-- One address with two weights, and one of the two entries twice. -/
def repeatedBackends : List BackendConf :=
  [⟨"127.0.0.1:80", ⟨3, by decide⟩⟩, ⟨"127.0.0.1:80", ⟨7, by decide⟩⟩,
    ⟨"127.0.0.1:80", ⟨3, by decide⟩⟩]

def repeatedDiscovery : DiscoveryCrates where
  lookupHost _ := .error "failed to lookup address information"
  readToString _ := .ok (",".intercalate [
    "[\x7b\"address\": \"127.0.0.1:80\", \"weight\": 3\x7d",
    "\x7b\"address\": \"127.0.0.1:80\", \"weight\": 7\x7d",
    "\x7b\"address\": \"127.0.0.1:80\", \"weight\": 3\x7d]"])
  yamlFromStr _ := .ok repeatedBackends
  jsonFromStr _ := .ok repeatedBackends

theorem sources_agree_repeated :
    SourcesAgree refCrates repeatedDiscovery { id := "a", source := .Static repeatedBackends }
      ⟨"/b.json", .Json⟩ repeatedBackends
      (.ok {⟨.inet loopback 80, 7⟩, ⟨.inet loopback 80, 3⟩}) := by
  have hagree : ∃ built, SourcesAgree refCrates repeatedDiscovery
      { id := "a", source := .Static repeatedBackends } ⟨"/b.json", .Json⟩ repeatedBackends
        built := sources_agree repeatedDiscovery rfl rfl rfl
  obtain ⟨built, h⟩ := hagree
  have hbuilt : built = .ok {⟨.inet loopback 80, 7⟩, ⟨.inet loopback 80, 3⟩} := by
    rw [← h.static]
    rfl
  exact hbuilt ▸ h

end PingoraGuide
