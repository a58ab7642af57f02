import Mathlib.Data.List.Basic
/-!
# Configuration

| here | there |
| --- | --- |
| `MapEntries`    | a `HashMap`: its entries in the order its iterator yields them |
| `RouteConf`     | src/config.rs:382-406 |
| `UpstreamConf`  | config.rs:364-379, with `UpstreamSource`, `HashSource`, `ClusterOptions`, `HealthCheckConf` |
| `GatewayConf`   | config.rs:433-439 |

Durations are in milliseconds. Fields that no code under src/ reads after deserialization
(`rate_limit`, `auth`, `cache`, `backup_backends`, ...) are left out.
-/
namespace PingoraGuide

structure MapEntries (κ ν : Type) where
  entries : List (κ × ν)
  nodup : (entries.map Prod.fst).Nodup
deriving DecidableEq, Repr

namespace MapEntries
variable {κ ν : Type}

def empty : MapEntries κ ν := ⟨[], by simp⟩

def get [BEq κ] (m : MapEntries κ ν) (k : κ) : Option ν := m.entries.lookup k

end MapEntries

inductive PathType where
  | Prefix | Exact | Regex
deriving DecidableEq, Repr

structure HeaderConf where
  addReqHeaders : MapEntries String String := .empty
  removeReqHeaders : List String := []
  addRespHeaders : MapEntries String String := .empty
  removeRespHeaders : List String := []
  preserveHostHeader : Bool := false
deriving DecidableEq, Repr

structure AccessControlConf where
  allow : List String := []
  deny : List String := []
deriving DecidableEq, Repr

/-- `RouteConf` with the values of its `Default` (config.rs:408-430). -/
structure RouteConf where
  path : String := ""
  pathType : PathType := .Prefix
  upstreamId : String := ""
  hostnames : Option (List String) := none
  headers : HeaderConf := {}
  accessControl : Option AccessControlConf := none
  errorPages : Option (MapEntries Nat String) := none
deriving DecidableEq, Repr

/-! ## Upstreams -/

structure BackendConf where
  address : String
  /-- `u16`, `default_weight` -/
  weight : Fin UInt16.size := 1
deriving DecidableEq, Repr

inductive FileFormat where
  | Json | Yaml
deriving DecidableEq, Repr

inductive LoadBalancerSelection where
  | RoundRobin | Random | Consistent
deriving DecidableEq, Repr

inductive HashSource where
  | None | ClientIp | Uri
  | Header (name : String)
  | Cookie (name : String)
deriving DecidableEq, Repr

/-- `ClusterOptions` with the values of its `Default` (config.rs:153-167). -/
structure ClusterOptions where
  connectTimeout : Nat := 5000
  readTimeout : Nat := 60000
  writeTimeout : Nat := 60000
  idleTimeout : Option Nat := some 60000
  enableH2 : Bool := false
  verifyHostname : Bool := true
  tls : Bool := false
  sni : Option String := none
deriving DecidableEq, Repr

/-- The timing parameters, with serde's defaults (config.rs:182-185). -/
structure HealthCheckCommon where
  interval : Nat := 5000
  timeout : Nat := 1000
  consecutiveSuccess : Nat := 1
  consecutiveFailure : Nat := 1
deriving DecidableEq, Repr

inductive HealthCheckConf where
  | Tcp (common : HealthCheckCommon)
  | Http (common : HealthCheckCommon) (path : String) (expectedStatus : Nat)
  | Custom (common : HealthCheckCommon) (command : String)
deriving DecidableEq, Repr

inductive UpstreamSource where
  | Static (backends : List BackendConf)
  | Dns (hostname : String) (refreshInterval : Nat)
  | File (path : String) (format : FileFormat) (refreshInterval : Nat)
  | Uds (path : String)
deriving DecidableEq, Repr

structure UpstreamConf where
  id : String
  source : UpstreamSource
  selection : LoadBalancerSelection := .RoundRobin
  hashSource : HashSource := .None
  options : ClusterOptions := {}
  healthCheck : Option HealthCheckConf := none
deriving DecidableEq, Repr

structure ServerConf where
  clientMaxBodySize : Option Nat := none
deriving DecidableEq, Repr

structure GatewayConf where
  server : ServerConf := {}
  upstreams : List UpstreamConf := []
  routes : List RouteConf := []
deriving DecidableEq, Repr

end PingoraGuide
