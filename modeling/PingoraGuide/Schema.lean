import PingoraGuide.Config
import PingoraGuide.Lib.Serde
/-!
# The configuration format

Every type of src/config.rs with all its fields, and what its `Serialize` and `Deserialize` make of
a document. `Config` holds the part that the gateway reads (`GatewayConf.core`).

| here | there |
| --- | --- |
| the structures            | src/config.rs:44-439; the types that `Config` has in full are used from there |
| `Humantime`, `duration`   | `humantime_serde` |
| `optionHumantime`         | `option_humantime` (config.rs:460-492) |
| `gatewayConf`, ...        | the derived impls, one a type |
| `Fields.both` on records  | `#[serde(flatten)]` |
| `Fields.tagged`           | `#[serde(tag = ..)]` |
| `Codec.buffered`          | the copy that a flattened or internally tagged type is read from |

Documents are `serde_yaml::Value`s: how a text becomes one is left to the parser. The readers here
are strict, the derived ones read more: a `String` also takes the text of a plain number, an empty
entry also is an empty list or record. A `HashMap` that is read is iterated in the order of its
document.
-/
namespace PingoraGuide.Schema
open Serde

abbrev U16 := Fin UInt16.size
abbrev U32 := Fin UInt32.size
abbrev U64 := Fin UInt64.size

/-- In whole milliseconds. -/
abbrev Duration := Nat

structure ObservabilityConf where
  prometheusAddr : Option String := none
  otlpEndpoint : Option String := none
deriving DecidableEq, Repr

structure TlsSettings where
  certPath : String
  keyPath : String
  mtlsCaCert : Option String := none
deriving DecidableEq, Repr

structure ListenerConf where
  address : String
  tls : Option TlsSettings := none
deriving DecidableEq, Repr

structure ClusterOptions where
  connectTimeout : Duration := 5000
  readTimeout : Duration := 60000
  writeTimeout : Duration := 60000
  idleTimeout : Option Duration := some 60000
  enableH2 : Bool := false
  verifyHostname : Bool := true
  tls : Bool := false
  sni : Option String := none
  connectionPoolSize : U64 := 4
deriving DecidableEq, Repr

structure HealthCheckCommon where
  interval : Duration := 5000
  timeout : Duration := 1000
  consecutiveSuccess : U64 := 1
  consecutiveFailure : U64 := 1
deriving DecidableEq, Repr

inductive HealthCheckConf where
  | Tcp (common : HealthCheckCommon)
  | Http (common : HealthCheckCommon) (path : String) (expectedStatus : U16)
  | Custom (common : HealthCheckCommon) (command : String)
deriving DecidableEq, Repr

inductive RateLimitKey where
  | Ip
  | Header (name : String)
deriving DecidableEq, Repr

structure RateLimitConf where
  requestsPerSec : U64
  burst : U64
  key : RateLimitKey := .Ip
deriving DecidableEq, Repr

inductive AuthConf where
  | Basic (realm : String) (users : MapEntries String String)
  | Request (authUri : String) (headersToCopy : List String)
deriving DecidableEq, Repr

structure CacheConf where
  enabled : Bool := false
  defaultTtl : Duration
  lockTimeout : Option Duration
  staleWhileRevalidate : Option Duration
  enablePurge : Bool := false
deriving DecidableEq, Repr

structure ServerConf where
  listeners : List ListenerConf := []
  daemon : Bool := false
  pidFile : Option String := none
  user : Option String := none
  group : Option String := none
  workerThreads : Option U64 := none
  watchConfig : Bool := false
  clientMaxBodySize : Option U64 := none
  enableH2 : Bool := false
  enableH2c : Bool := false
  gracefulShutdownTimeout : Option Duration := none
deriving DecidableEq, Repr

structure UpstreamConf where
  id : String
  source : UpstreamSource
  selection : LoadBalancerSelection := .RoundRobin
  hashSource : HashSource := .None
  options : ClusterOptions := {}
  healthCheck : Option HealthCheckConf := none
  backupBackends : List BackendConf := []
deriving DecidableEq, Repr

structure RouteConf where
  path : String := ""
  pathType : PathType := .Prefix
  upstreamId : String := ""
  hostnames : Option (List String) := none
  rateLimit : Option RateLimitConf := none
  auth : Option AuthConf := none
  headers : HeaderConf := {}
  accessControl : Option AccessControlConf := none
  queryMatches : Option (MapEntries String String) := none
  stripQueryParams : Option (List String) := none
  compression : Bool := false
  bodyDenyPatterns : Option (List String) := none
  websocket : Bool := false
  proxyConnect : Bool := false
  inflightLimit : Option U32 := none
  errorPages : Option (MapEntries U16 String) := none
  cache : Option CacheConf := none
deriving DecidableEq, Repr

structure GatewayConf where
  server : ServerConf := {}
  observability : Option ObservabilityConf := none
  upstreams : List UpstreamConf := []
  routes : List RouteConf := []
deriving DecidableEq, Repr

/-! ## What is written and read -/

/-- `format_duration` and `parse_duration`. -/
structure Humantime where
  format : Duration → String
  parse : String → Option Duration
  parse_format : ∀ d, parse (format d) = some d

variable (H : Humantime)

def duration : Codec Duration where
  ser _ d := .string (H.format d)
  de
    | .string s => H.parse s
    | _ => none
  round _ d := H.parse_format d
  untagged _ _ _ := rfl

/-- `null` is `Val::None`, anything else has to be a duration. -/
def optionHumantime : Codec (Option Duration) := (duration H).option nofun

def hashMap {κ ν : Type} [DecidableEq κ] (key : Codec κ) (val : Codec ν) : Codec (MapEntries κ ν) :=
  (Codec.entries key val).iso (fun es => ⟨es.1, es.2⟩) (fun m => ⟨m.entries, m.nodup⟩) fun _ => rfl

def observabilityConf : Fields ObservabilityConf :=
  Fields.opt "prometheus_addr" .string nofun
  |>.both (.opt "otlp_endpoint" .string nofun) rfl
  |>.iso (fun (prometheusAddr, otlpEndpoint) => { prometheusAddr, otlpEndpoint })
    (fun o => (o.prometheusAddr, o.otlpEndpoint)) fun _ => rfl

def tlsSettings : Fields TlsSettings :=
  Fields.field "cert_path" .string
  |>.both (.field "key_path" .string) rfl
  |>.both (.opt "mtls_ca_cert" .string nofun) rfl
  |>.iso (fun ((certPath, keyPath), mtlsCaCert) => { certPath, keyPath, mtlsCaCert })
    (fun t => ((t.certPath, t.keyPath), t.mtlsCaCert)) fun _ => rfl

theorem weight_fits : 1 < UInt16.size := by decide

def defaultWeight : U16 := ⟨1, weight_fits⟩

def defaultStatus200 : U16 := ⟨200, by decide⟩

def backendConf : Fields BackendConf :=
  Fields.field "address" .string
  |>.both (.default "weight" (.below UInt16.size) defaultWeight) rfl
  |>.iso (fun (address, weight) => { address, weight }) (fun b => (b.address, b.weight)) fun _ => rfl

def fileFormat : Codec FileFormat :=
  .enum (fun | .Json => "json" | .Yaml => "yaml") [.Json, .Yaml]
    (by rintro (_ | _) <;> simp) (by rintro (_ | _) (_ | _) <;> simp)

def loadBalancerSelection : Codec LoadBalancerSelection :=
  .enum (fun | .RoundRobin => "round_robin" | .Random => "random" | .Consistent => "consistent")
    [.RoundRobin, .Random, .Consistent]
    (by rintro (_ | _ | _) <;> simp) (by rintro (_ | _ | _) (_ | _ | _) <;> simp)

def pathType : Codec PathType :=
  .enum (fun | .Prefix => "prefix" | .Exact => "exact" | .Regex => "regex") [.Prefix, .Exact, .Regex]
    (by rintro (_ | _ | _) <;> simp) (by rintro (_ | _ | _) (_ | _ | _) <;> simp)

def hashSource : Fields HashSource :=
  .tagged "type" [
    .unit "none" .None,
    .unit "client_ip" .ClientIp,
    .unit "uri" .Uri,
    ⟨"header", String, .field "name" .string, .Header,
      fun | .Header name => some name | _ => none, by rintro (_ | _ | _ | _ | _) <;> simp⟩,
    ⟨"cookie", String, .field "name" .string, .Cookie,
      fun | .Cookie name => some name | _ => none, by rintro (_ | _ | _ | _ | _) <;> simp⟩]
    rfl rfl (by rintro (_ | _ | _ | _ | _) <;> simp [Variant.unit])

def clusterOptions : Fields ClusterOptions :=
  Fields.default "connect_timeout" (duration H) 5000
  |>.both (.default "read_timeout" (duration H) 60000) rfl
  |>.both (.default "write_timeout" (duration H) 60000) rfl
  |>.both (.default "idle_timeout" (optionHumantime H) (some 60000)) rfl
  |>.both (.default "enable_h2" .bool false) rfl
  |>.both (.default "verify_hostname" .bool true) rfl
  |>.both (.default "tls" .bool false) rfl
  |>.both (.opt "sni" .string nofun) rfl
  |>.both (.default "connection_pool_size" (.below UInt64.size) 4) rfl
  |>.iso
    (fun ((((((((connectTimeout, readTimeout), writeTimeout), idleTimeout), enableH2), verifyHostname),
      tls), sni), connectionPoolSize) =>
        { connectTimeout, readTimeout, writeTimeout, idleTimeout, enableH2, verifyHostname, tls, sni,
          connectionPoolSize })
    (fun o => ((((((((o.connectTimeout, o.readTimeout), o.writeTimeout), o.idleTimeout), o.enableH2),
      o.verifyHostname), o.tls), o.sni), o.connectionPoolSize))
    fun _ => rfl

def healthCheckCommon : Fields HealthCheckCommon :=
  Fields.default "interval" (duration H) 5000
  |>.both (.default "timeout" (duration H) 1000) rfl
  |>.both (.default "consecutive_success" (.below UInt64.size) 1) rfl
  |>.both (.default "consecutive_failure" (.below UInt64.size) 1) rfl
  |>.iso
    (fun (((interval, timeout), consecutiveSuccess), consecutiveFailure) =>
      { interval, timeout, consecutiveSuccess, consecutiveFailure })
    (fun c => (((c.interval, c.timeout), c.consecutiveSuccess), c.consecutiveFailure)) fun _ => rfl

def healthCheckConf : Fields HealthCheckConf :=
  .tagged "protocol" [
    ⟨"tcp", HealthCheckCommon, healthCheckCommon H, .Tcp,
      fun | .Tcp common => some common | _ => none, by rintro (_ | _ | _) <;> simp⟩,
    ⟨"http", (HealthCheckCommon × String) × U16,
      (healthCheckCommon H).both (.field "path" .string) rfl
        |>.both (.default "expected_status" (.below UInt16.size) defaultStatus200) rfl,
      fun ((common, path), expectedStatus) => .Http common path expectedStatus,
      fun | .Http common path expectedStatus => some ((common, path), expectedStatus) | _ => none,
      by rintro (_ | _ | _) <;> simp⟩,
    ⟨"custom", HealthCheckCommon × String,
      (healthCheckCommon H).both (.field "command" .string) rfl,
      fun (common, command) => .Custom common command,
      fun | .Custom common command => some (common, command) | _ => none,
      by rintro (_ | _ | _) <;> simp⟩]
    rfl rfl (by rintro (_ | _ | _) <;> simp)

def headerConf : Fields HeaderConf :=
  Fields.default "add_req_headers" (hashMap .string .string) .empty
  |>.both (.default "remove_req_headers" (.seq .string) []) rfl
  |>.both (.default "add_resp_headers" (hashMap .string .string) .empty) rfl
  |>.both (.default "remove_resp_headers" (.seq .string) []) rfl
  |>.both (.default "preserve_host_header" .bool false) rfl
  |>.iso
    (fun ((((addReqHeaders, removeReqHeaders), addRespHeaders), removeRespHeaders),
      preserveHostHeader) =>
        { addReqHeaders, removeReqHeaders, addRespHeaders, removeRespHeaders, preserveHostHeader })
    (fun h => ((((h.addReqHeaders, h.removeReqHeaders), h.addRespHeaders), h.removeRespHeaders),
      h.preserveHostHeader))
    fun _ => rfl

/-- A variant with one value that no tag entry names is a tagged value. -/
def rateLimitKey : Codec RateLimitKey where
  ser _
    | .Ip => .string "ip"
    | .Header name => .tagged "header" (.string name)
  de
    | .string "ip" | .tagged "ip" .null => some .Ip
    | .tagged "header" (.string name) => some (.Header name)
    | _ => none
  round _ k := by cases k <;> rfl
  tags := true
  untagged := nofun

def accessControlConf : Fields AccessControlConf :=
  Fields.default "allow" (.seq .string) []
  |>.both (.default "deny" (.seq .string) []) rfl
  |>.iso (fun (allow, deny) => { allow, deny }) (fun a => (a.allow, a.deny)) fun _ => rfl

def authConf : Fields AuthConf :=
  .tagged "type" [
    ⟨"basic", String × MapEntries String String,
      (Fields.field "realm" .string).both (.field "users" (hashMap .string .string)) rfl,
      fun (realm, users) => .Basic realm users,
      fun | .Basic realm users => some (realm, users) | _ => none, by rintro (_ | _) <;> simp⟩,
    ⟨"request", String × List String,
      (Fields.field "auth_uri" .string).both (.field "headers_to_copy" (.seq .string)) rfl,
      fun (authUri, headersToCopy) => .Request authUri headersToCopy,
      fun | .Request authUri headersToCopy => some (authUri, headersToCopy) | _ => none,
      by rintro (_ | _) <;> simp⟩]
    rfl rfl (by rintro (_ | _) <;> simp)

def cacheConf : Fields CacheConf :=
  Fields.default "enabled" .bool false
  |>.both (.field "default_ttl" (duration H)) rfl
  |>.both (.field "lock_timeout" (optionHumantime H)) rfl
  |>.both (.field "stale_while_revalidate" (optionHumantime H)) rfl
  |>.both (.default "enable_purge" .bool false) rfl
  |>.iso
    (fun ((((enabled, defaultTtl), lockTimeout), staleWhileRevalidate), enablePurge) =>
      { enabled, defaultTtl, lockTimeout, staleWhileRevalidate, enablePurge })
    (fun c => ((((c.enabled, c.defaultTtl), c.lockTimeout), c.staleWhileRevalidate), c.enablePurge))
    fun _ => rfl

def listenerConf : Fields ListenerConf :=
  Fields.field "address" .string
  |>.both (.opt "tls" tlsSettings.codec nofun) rfl
  |>.iso (fun (address, tls) => { address, tls }) (fun l => (l.address, l.tls)) fun _ => rfl

def rateLimitConf : Fields RateLimitConf :=
  Fields.field "requests_per_sec" (.below UInt64.size)
  |>.both (.field "burst" (.below UInt64.size)) rfl
  |>.both (.default "key" rateLimitKey .Ip) rfl
  |>.iso (fun ((requestsPerSec, burst), key) => { requestsPerSec, burst, key })
    (fun r => ((r.requestsPerSec, r.burst), r.key)) fun _ => rfl

def upstreamSource : Fields UpstreamSource :=
  .tagged "type" [
    ⟨"static", List BackendConf, .field "backends" (.seq backendConf.codec), .Static,
      fun | .Static backends => some backends | _ => none, by rintro (_ | _ | _ | _) <;> simp⟩,
    ⟨"dns", String × Duration,
      (Fields.field "hostname" .string).both (.default "refresh_interval" (duration H) 60000)
        rfl,
      fun (hostname, refreshInterval) => .Dns hostname refreshInterval,
      fun | .Dns hostname refreshInterval => some (hostname, refreshInterval) | _ => none,
      by rintro (_ | _ | _ | _) <;> simp⟩,
    ⟨"file", (String × FileFormat) × Duration,
      (Fields.field "path" .string).both (.field "format" fileFormat) rfl
        |>.both (.default "refresh_interval" (duration H) 60000) rfl,
      fun ((path, format), refreshInterval) => .File path format refreshInterval,
      fun | .File path format refreshInterval => some ((path, format), refreshInterval) | _ => none,
      by rintro (_ | _ | _ | _) <;> simp⟩,
    ⟨"uds", String, .field "path" .string, .Uds,
      fun | .Uds path => some path | _ => none, by rintro (_ | _ | _ | _) <;> simp⟩]
    rfl rfl (by rintro (_ | _ | _ | _) <;> simp)

def serverConf : Fields ServerConf :=
  Fields.default "listeners" (.seq listenerConf.codec) []
  |>.both (.default "daemon" .bool false) rfl
  |>.both (.opt "pid_file" .string nofun) rfl
  |>.both (.opt "user" .string nofun) rfl
  |>.both (.opt "group" .string nofun) rfl
  |>.both (.opt "worker_threads" (.below UInt64.size) nofun) rfl
  |>.both (.default "watch_config" .bool false) rfl
  |>.both (.opt "client_max_body_size" (.below UInt64.size) nofun) rfl
  |>.both (.default "enable_h2" .bool false) rfl
  |>.both (.default "enable_h2c" .bool false) rfl
  |>.both (.default "graceful_shutdown_timeout" (optionHumantime H) none) rfl
  |>.iso
    (fun ((((((((((listeners, daemon), pidFile), user), group), workerThreads), watchConfig),
      clientMaxBodySize), enableH2), enableH2c), gracefulShutdownTimeout) =>
        { listeners, daemon, pidFile, user, group, workerThreads, watchConfig, clientMaxBodySize,
          enableH2, enableH2c, gracefulShutdownTimeout })
    (fun s => ((((((((((s.listeners, s.daemon), s.pidFile), s.user), s.group), s.workerThreads),
      s.watchConfig), s.clientMaxBodySize), s.enableH2), s.enableH2c), s.gracefulShutdownTimeout))
    fun _ => rfl

def upstreamConf : Fields UpstreamConf :=
  Fields.field "id" .string
  |>.both (upstreamSource H) rfl
  |>.both (.default "selection" loadBalancerSelection .RoundRobin) rfl
  |>.both (.default "hash_source" hashSource.codec .None) rfl
  |>.both (.default "options" (clusterOptions H).codec {}) rfl
  |>.both (.opt "health_check" (healthCheckConf H).codec nofun) rfl
  |>.both (.default "backup_backends" (.seq backendConf.codec) []) rfl
  |>.iso
    (fun ((((((id, source), selection), hashSource), options), healthCheck), backupBackends) =>
      { id, source, selection, hashSource, options, healthCheck, backupBackends })
    (fun u => ((((((u.id, u.source), u.selection), u.hashSource), u.options), u.healthCheck),
      u.backupBackends))
    fun _ => rfl

def routeConf : Fields RouteConf :=
  Fields.field "path" .string
  |>.both (.default "path_type" pathType .Prefix) rfl
  |>.both (.field "upstream_id" .string) rfl
  |>.both (.opt "hostnames" (.seq .string) nofun) rfl
  |>.both (.opt "rate_limit" rateLimitConf.codec nofun) rfl
  |>.both (.opt "auth" (authConf.codec.buffered rfl) nofun) rfl
  |>.both (.default "headers" headerConf.codec {}) rfl
  |>.both (.opt "access_control" accessControlConf.codec nofun) rfl
  |>.both (.opt "query_matches" (hashMap .string .string) nofun) rfl
  |>.both (.opt "strip_query_params" (.seq .string) nofun) rfl
  |>.both (.default "compression" .bool false) rfl
  |>.both (.opt "body_deny_patterns" (.seq .string) nofun) rfl
  |>.both (.default "websocket" .bool false) rfl
  |>.both (.default "proxy_connect" .bool false) rfl
  |>.both (.opt "inflight_limit" (.below UInt32.size) nofun) rfl
  |>.both (.opt "error_pages" (hashMap (.below UInt16.size) .string) nofun) rfl
  |>.both (.opt "cache" (cacheConf H).codec nofun) rfl
  |>.iso
    (fun ((((((((((((((((path, pathType), upstreamId), hostnames), rateLimit), auth), headers),
      accessControl), queryMatches), stripQueryParams), compression), bodyDenyPatterns), websocket),
      proxyConnect), inflightLimit), errorPages), cache) =>
        { path, pathType, upstreamId, hostnames, rateLimit, auth, headers, accessControl,
          queryMatches, stripQueryParams, compression, bodyDenyPatterns, websocket, proxyConnect,
          inflightLimit, errorPages, cache })
    (fun r => ((((((((((((((((r.path, r.pathType), r.upstreamId), r.hostnames), r.rateLimit), r.auth),
      r.headers), r.accessControl), r.queryMatches), r.stripQueryParams), r.compression),
      r.bodyDenyPatterns), r.websocket), r.proxyConnect), r.inflightLimit), r.errorPages), r.cache))
    fun _ => rfl

def gatewayConf : Fields GatewayConf :=
  Fields.field "server" (serverConf H).codec
  |>.both (.opt "observability" observabilityConf.codec nofun) rfl
  |>.both (.field "upstreams" (.seq ((upstreamConf H).codec.buffered rfl))) rfl
  |>.both (.field "routes" (.seq (routeConf H).codec)) rfl
  |>.iso
    (fun (((server, observability), upstreams), routes) => { server, observability, upstreams, routes })
    (fun c => (((c.server, c.observability), c.upstreams), c.routes)) fun _ => rfl

/-- A document with the entries that were written, without any fields that have their default,
chosen one by one at every depth, at the top in any order and among any others, is read as the
configuration that was written. -/
theorem config_round_trip (skip : Skip) (conf : GatewayConf) (es : MultiMap String Value)
    (hes : ∀ k ∈ (gatewayConf H).keys, es.getAll k = ((gatewayConf H).ser skip conf).getAll k) :
    (gatewayConf H).codec.de (.map (es.map fun e => (.string e.1, e.2))) = some conf :=
  (gatewayConf H).de_written hes

/-- Durations that are a number of milliseconds below a second. -/
def refHumantime : Humantime where
  format d := Nat.repr d ++ "ms"
  parse s :=
    match s.toList.reverse with
    | 's' :: 'm' :: digits => some (Nat.ofDigitChars 10 digits.reverse 0)
    | _ => none
  parse_format d := by simp

def shortConf : GatewayConf where
  server := { listeners := [{ address := "0.0.0.0:80" }], gracefulShutdownTimeout := some 500 }
  upstreams := [
    { id := "api", source := .Static [{ address := "127.0.0.1:80", weight := ⟨5, by decide⟩ }]
      hashSource := .Cookie "sid", options := { idleTimeout := none, sni := some "api.local" }
      healthCheck := some (.Http { interval := 250 } "/health" defaultStatus200) }]
  routes := [
    { path := "/api", upstreamId := "api", rateLimit := some ⟨10, 20, .Header "x-user"⟩ },
    { path := "/admin", pathType := .Exact, upstreamId := "api" }]

/-- What an operator writes: what differs from the defaults, the routes first, and on one of them
also a default. -/
def shortDocument : MultiMap String Value := [
  ("routes", .seq [
    .map [
      (.string "path", .string "/api"), (.string "upstream_id", .string "api"),
      (.string "rate_limit", .map [
        (.string "requests_per_sec", .number 10), (.string "burst", .number 20),
        (.string "key", .tagged "header" (.string "x-user"))]),
      (.string "proxy_connect", .bool false)],
    .map [
      (.string "path", .string "/admin"), (.string "path_type", .string "exact"),
      (.string "upstream_id", .string "api")]]),
  ("comment", .string "no key of the schema"),
  ("upstreams", .seq [.map [
    (.string "id", .string "api"), (.string "type", .string "static"),
    (.string "backends", .seq [.map [
      (.string "address", .string "127.0.0.1:80"), (.string "weight", .number 5)]]),
    (.string "hash_source", .map [(.string "type", .string "cookie"), (.string "name", .string "sid")]),
    (.string "options", .map [(.string "idle_timeout", .null), (.string "sni", .string "api.local")]),
    (.string "health_check", .map [
      (.string "protocol", .string "http"), (.string "interval", .string "250ms"),
      (.string "path", .string "/health")])]]),
  ("server", .map [
    (.string "listeners", .seq [.map [(.string "address", .string "0.0.0.0:80")]]),
    (.string "graceful_shutdown_timeout", .string "500ms")])]

def shortSkip : Skip := fun path => path ≠ [.field "routes", .item 0, .field "proxy_connect"]

theorem shortDocument_written : ∀ k ∈ (gatewayConf refHumantime).keys, shortDocument.getAll k =
    ((gatewayConf refHumantime).ser shortSkip shortConf).getAll k := by
  intro k hk
  have hkeys : (gatewayConf refHumantime).keys = ["server", "observability", "upstreams", "routes"] :=
    rfl
  simp only [hkeys, List.mem_cons, List.not_mem_nil, or_false] at hk
  rcases hk with rfl | rfl | rfl | rfl <;> rfl

theorem config_round_trip_short : (gatewayConf refHumantime).codec.de
    (.map (shortDocument.map fun e => (.string e.1, e.2))) = some shortConf :=
  config_round_trip refHumantime shortSkip shortConf shortDocument shortDocument_written

/-! ## The part that the gateway reads -/

def ClusterOptions.core (o : ClusterOptions) : PingoraGuide.ClusterOptions where
  connectTimeout := o.connectTimeout
  readTimeout := o.readTimeout
  writeTimeout := o.writeTimeout
  idleTimeout := o.idleTimeout
  enableH2 := o.enableH2
  verifyHostname := o.verifyHostname
  tls := o.tls
  sni := o.sni

def HealthCheckCommon.core (c : HealthCheckCommon) : PingoraGuide.HealthCheckCommon where
  interval := c.interval
  timeout := c.timeout
  consecutiveSuccess := c.consecutiveSuccess
  consecutiveFailure := c.consecutiveFailure

def HealthCheckConf.core : HealthCheckConf → PingoraGuide.HealthCheckConf
  | .Tcp common => .Tcp common.core
  | .Http common path expectedStatus => .Http common.core path expectedStatus
  | .Custom common command => .Custom common.core command

def UpstreamConf.core (u : UpstreamConf) : PingoraGuide.UpstreamConf where
  id := u.id
  source := u.source
  selection := u.selection
  hashSource := u.hashSource
  options := u.options.core
  healthCheck := u.healthCheck.map HealthCheckConf.core

def errorPagesCore (pages : MapEntries U16 String) : MapEntries Nat String where
  entries := pages.entries.map fun e => (e.1, e.2)
  nodup := by
    have hkeys : (pages.entries.map fun e => ((e.1 : Nat), e.2)).map Prod.fst =
        (pages.entries.map Prod.fst).map Fin.val := by simp
    rw [hkeys]
    exact List.Pairwise.map Fin.val (fun _ _ hne h => hne (Fin.ext h)) pages.nodup

def RouteConf.core (r : RouteConf) : PingoraGuide.RouteConf where
  path := r.path
  pathType := r.pathType
  upstreamId := r.upstreamId
  hostnames := r.hostnames
  headers := r.headers
  accessControl := r.accessControl
  errorPages := r.errorPages.map errorPagesCore

def GatewayConf.core (c : GatewayConf) : PingoraGuide.GatewayConf where
  server := { clientMaxBodySize := c.server.clientMaxBodySize.map Fin.val }
  upstreams := c.upstreams.map UpstreamConf.core
  routes := c.routes.map RouteConf.core

end PingoraGuide.Schema
