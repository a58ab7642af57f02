import PingoraGuide.Discovery
/-!
# Health checks against the configuration

`finalize_lb` drops `expected_status`, keeps `/` as the target when the path does not parse
(factory.rs:166-183), and hands the host name of a DNS source to the probe as it hands it to
`lookup_host`: the probe follows the configuration only outside these cases
(`http_check_follows_iff`), and over a DNS source that resolves, never (`dns_unresolved`).

| here | there |
| --- | --- |
| `ProbeCrates`   | the requests `HttpHealthCheck` sends and the answers it counts as successes |
| `HttpProbeSpec` | what is documented of it when built by `HttpHealthCheck::new(host, tls)` without a validator |
| `HostPort`      | the strings `lookup_host` takes |
| `FollowsConfig` | the probe of an `Http { path, expected_status }` check does what these say |
-/
namespace PingoraGuide
open Wire

variable {K : Crates}

structure ProbeCrates where
  target : HealthCheck → String
  host : HealthCheck → String
  serverName : HealthCheck → Option String
  accepts : HealthCheck → Nat → Bool

structure HttpProbeSpec (P : ProbeCrates) : Prop where
  target : ∀ host tls uri timeout success failure,
    P.target (.Http host tls uri timeout success failure) = uri
  host : ∀ host tls uri timeout success failure,
    P.host (.Http host tls uri timeout success failure) = host
  serverName : ∀ host tls uri timeout success failure,
    P.serverName (.Http host tls uri timeout success failure) = if tls then some host else none
  accepts : ∀ host tls uri timeout success failure status,
    P.accepts (.Http host tls uri timeout success failure) status = true ↔ status = 200

def HostPort (s : String) : Prop :=
  ∃ name port n, s.toList = name ++ ':' :: port ∧ decimalBelow UInt16.size port = some n

structure FollowsConfig (P : ProbeCrates) (hc : HealthCheck) (path : String)
    (expectedStatus : Nat) : Prop where
  target : P.target hc = path
  verdict : ∀ status, P.accepts hc status = true ↔ status = expectedStatus
  host : ':' ∉ (P.host hc).toList
  serverName : ∀ name, P.serverName hc = some name → ':' ∉ name.toList

/-! ## The probe that is built -/

/-- The host of the probe: the host name of a DNS source as it stands. -/
def probeHost (conf : UpstreamConf) : String :=
  match conf.source with
  | .Dns hostname _ => hostname
  | _ => "localhost"

theorem probeHost_plain {conf : UpstreamConf} :
    ':' ∉ (probeHost conf).toList ↔
      ∀ hostname refresh, conf.source = .Dns hostname refresh → ':' ∉ hostname.toList := by
  unfold probeHost
  cases conf.source <;> simp

theorem makeLb_healthCheck {conf : UpstreamConf} {lb : LoadBalancer}
    (h : makeLb K conf = .ok lb) : lb.healthCheck = none := by
  cases hsource : conf.source with
  | Static backends =>
    rw [makeLb_static hsource] at h
    cases hl : resolveBackends K backends <;> rw [hl] at h <;> cases h
    rfl
  | Dns hostname refresh =>
    simp only [makeLb, hsource, Except.ok.injEq] at h
    rw [← h]
  | File path format refresh =>
    simp only [makeLb, hsource, Except.ok.injEq] at h
    rw [← h]
  | Uds path => simp [makeLb, hsource] at h

theorem makeLbInstance_check {conf : UpstreamConf} {u : Upstream}
    (h : makeLbInstance K conf = .ok u) :
    ∃ c, u = .cluster c ∧ c.lb.healthCheck = conf.healthCheck.map (makeHealthCheck K conf) := by
  obtain ⟨lb, hlb, hu⟩ := makeLbInstance_eq_ok.1 h
  refine ⟨_, hu, ?_⟩
  show (finalizeLb K lb conf).healthCheck = _
  unfold finalizeLb
  cases conf.healthCheck with
  | none =>
    show lb.healthCheck = none
    exact makeLb_healthCheck hlb
  | some hc => rfl

/-- What follows from the probe's fields: the path is requested, 200 is expected, and the host has
no port. -/
theorem followsConfig_iff {P : ProbeCrates} (hP : HttpProbeSpec P) {conf : UpstreamConf}
    {common : HealthCheckCommon} {path : String} {expectedStatus : Nat} :
    FollowsConfig P (makeHealthCheck K conf (.Http common path expectedStatus)) path
        expectedStatus ↔
      (K.parseUri path).getD "/" = path ∧ expectedStatus = 200 ∧
        ':' ∉ (probeHost conf).toList := by
  have hcheck : makeHealthCheck K conf (.Http common path expectedStatus) =
      .Http (probeHost conf) conf.options.tls ((K.parseUri path).getD "/") common.timeout
        common.consecutiveSuccess common.consecutiveFailure := rfl
  rw [hcheck]
  constructor
  · intro h
    refine ⟨?_, ?_, ?_⟩
    · have htarget := h.target
      rwa [hP.target] at htarget
    · exact ((h.verdict 200).1 ((hP.accepts ..).2 rfl)).symm
    · have hhost := h.host
      rwa [hP.host] at hhost
  · rintro ⟨htarget, rfl, hhost⟩
    constructor
    case target => rw [hP.target, htarget]
    case verdict => exact fun status => hP.accepts ..
    case host => rwa [hP.host]
    case serverName =>
      intro name hname
      rw [hP.serverName] at hname
      split at hname
      · obtain rfl := Option.some.inj hname
        exact hhost
      · cases hname

theorem target_eq_path {path : String} :
    (K.parseUri path).getD "/" = path ↔
      K.parseUri path = some path ∨ (K.parseUri path = none ∧ path = "/") := by
  cases K.parseUri path with
  | none => simp [eq_comm]
  | some target => simp

/-- **HTTP health checks follow the configuration** exactly when the path is a request target (or
`/`), the expected status is 200 and the name of a DNS source has no port. -/
theorem http_check_follows_iff {P : ProbeCrates} (hP : HttpProbeSpec P) {conf : UpstreamConf}
    {common : HealthCheckCommon} {path : String} {expectedStatus : Nat}
    (hconf : conf.healthCheck = some (.Http common path expectedStatus)) {u : Upstream}
    (haccepted : makeLbInstance K conf = .ok u) :
    ∃ c hc, u = .cluster c ∧ c.lb.healthCheck = some hc ∧
      (FollowsConfig P hc path expectedStatus ↔
        (K.parseUri path = some path ∨ (K.parseUri path = none ∧ path = "/")) ∧
        expectedStatus = 200 ∧
        ∀ hostname refresh, conf.source = .Dns hostname refresh → ':' ∉ hostname.toList) := by
  obtain ⟨c, hu, hc⟩ := makeLbInstance_check haccepted
  rw [hconf] at hc
  refine ⟨c, _, hu, hc, ?_⟩
  rw [followsConfig_iff hP, target_eq_path, probeHost_plain]

/-! ## DNS sources -/

/-- A DNS source is of no use to one of its two readers: where the probe follows the
configuration, the discovery finds nothing. -/
theorem dns_unresolved {D : DiscoveryCrates}
    (hD : ∀ s addrs, D.lookupHost s = .ok addrs → HostPort s) {P : ProbeCrates}
    (hP : HttpProbeSpec P) {conf : UpstreamConf} {hostname : String} {refresh : Nat}
    (hsource : conf.source = .Dns hostname refresh) {common : HealthCheckCommon} {path : String}
    {expectedStatus : Nat}
    (hfollows : FollowsConfig P (makeHealthCheck K conf (.Http common path expectedStatus)) path
      expectedStatus) : ∃ e, (DnsDiscovery.mk hostname).discover D = .error e := by
  obtain ⟨-, -, hplain⟩ := (followsConfig_iff hP).1 hfollows
  have hcolon := probeHost_plain.1 hplain hostname refresh hsource
  unfold DnsDiscovery.discover
  cases hlookup : D.lookupHost hostname with
  | error e => exact ⟨_, rfl⟩
  | ok addrs =>
    obtain ⟨name, port, n, heq, -⟩ := hD hostname addrs hlookup
    exact absurd (by simp [heq]) hcolon

/-! ## A check that is followed and one that is not -/

/-- Pingora's probe on its own checks. -/
def refProbe : ProbeCrates where
  target
    | .Http _ _ uri _ _ _ => uri
    | _ => ""
  host
    | .Http host _ _ _ _ _ => host
    | _ => ""
  serverName
    | .Http host true _ _ _ _ => some host
    | _ => none
  accepts
    | .Http _ _ _ _ _ _, status => status == 200
    | _, _ => false

theorem refProbe_spec : HttpProbeSpec refProbe where
  target _ _ _ _ _ _ := rfl
  host _ _ _ _ _ _ := rfl
  serverName _ tls _ _ _ _ := by cases tls <;> rfl
  accepts _ _ _ _ _ _ status := by simp [refProbe]

/-- `Uri` parsing refuses a space. -/
def uriCrates : Crates :=
  { refCrates with parseUri := fun s => if ' ' ∈ s.toList then none else some s }

/-- A DNS source in the form the discovery needs, a path that is no URI, and a status other
than 200. -/
def looseCheckConf : UpstreamConf where
  id := "api-service"
  source := .Dns "api.internal.svc:443" 30000
  options := { tls := true }
  healthCheck := some (.Http {} "/health check" 204)

theorem loose_check_differs :
    ∃ c hc, makeLbInstance uriCrates looseCheckConf = .ok (.cluster c) ∧
      c.lb.healthCheck = some hc ∧ refProbe.target hc = "/" ∧
      refProbe.accepts hc 204 = false ∧ refProbe.accepts hc 200 = true ∧
      refProbe.host hc = "api.internal.svc:443" ∧
      refProbe.serverName hc = some "api.internal.svc:443" ∧
      ¬ FollowsConfig refProbe hc "/health check" 204 := by
  refine ⟨_, _, rfl, rfl, rfl, rfl, rfl, rfl, rfl, ?_⟩
  intro h
  have htarget : "/" = "/health check" := h.target
  exact absurd htarget (by decide)

/-- The check of gateway_full.yaml over its own source, a host name without a port. -/
def plainCheckConf : UpstreamConf where
  id := "api-service"
  source := .Dns "api.internal.svc" 30000
  options := { tls := true }
  healthCheck := some (.Http {} "/health" 200)

theorem http_check_follows_plain :
    ∃ c hc, makeLbInstance uriCrates plainCheckConf = .ok (.cluster c) ∧
      c.lb.healthCheck = some hc ∧ FollowsConfig refProbe hc "/health" 200 := by
  have hconf : plainCheckConf.healthCheck = some (.Http {} "/health" 200) := rfl
  have haccepted : makeLbInstance uriCrates plainCheckConf = .ok (.cluster _) := rfl
  obtain ⟨c, hc, hu, hhc, hiff⟩ := http_check_follows_iff refProbe_spec hconf haccepted
  refine ⟨c, hc, congrArg Except.ok hu, hhc, hiff.2 ⟨.inl (by decide), rfl, ?_⟩⟩
  intro hostname refresh hsource
  obtain ⟨rfl, -⟩ := UpstreamSource.Dns.inj hsource
  decide

end PingoraGuide
