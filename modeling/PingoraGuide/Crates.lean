import Mathlib.Data.Finset.Basic
import PingoraGuide.Basic
import PingoraGuide.Config
import PingoraGuide.Lib.Template
/-!
# Third-party code

What the gateway calls outside src/ is a parameter: every definition and theorem below takes an
arbitrary `Crates`, and a theorem that relies on documented behaviour of a crate names it as a
hypothesis (`Template.TreeSpec` for `matchit`).

| here | there |
| --- | --- |
| `regexNew`                         | `Regex::new`, then `is_match` |
| `tree`                             | `matchit::Router<usize>` |
| `IpNet`, `ipNetFromStr`, `ipNetContains` | `ipnet::IpNet`, `from_str`, `contains` |
| `UserType`, `UserVal`              | any other types middlewares keep in the context |
| `lbSelect lb n key max`            | the `n`-th `lb.select(key, max)` made while one request runs |
| `toSocketAddrs`, `parseUri`, `udsAddr` | `to_socket_addrs`, `parse::<http::Uri>`, the address check of `HttpPeer::new_uds` |
| `fsRead`                           | `tokio::fs::read` |
| `errorToString`, `ipToString`      | `{}` of a `pingora::Error` and of an `IpAddr` |
-/
namespace PingoraGuide
open Fallible Wire

/-- `pingora::lb::Backend`; `ext` is always empty here. -/
structure Backend where
  addr : SocketAddr
  weight : Nat
deriving DecidableEq, Repr

inductive ALPN where
  | H1 | H2H1
deriving DecidableEq, Repr

/-- `pingora::upstreams::peer::HttpPeer`, the parts the gateway sets. -/
structure HttpPeer where
  address : SocketAddr
  tls : Bool
  sni : String
  connectionTimeout : Option Nat := none
  readTimeout : Option Nat := none
  writeTimeout : Option Nat := none
  idleTimeout : Option Nat := none
  alpn : ALPN := .H1
  verifyHostname : Bool := true
deriving DecidableEq, Repr

/-- The `ServiceDiscovery` a load balancer is built on. -/
inductive Discovery where
  | Static (backends : Finset Backend)
  | Dns (hostname : String)
  | File (path : String) (format : FileFormat)

inductive HealthCheck where
  | Tcp (connectionTimeout consecutiveSuccess consecutiveFailure : Nat)
  | Http (host : String) (tls : Bool) (uri : String)
      (connectionTimeout consecutiveSuccess consecutiveFailure : Nat)
  | Command (command : String) (timeout : Nat) (args : List String)
      (failureThreshold successThreshold : Nat)

/-- The public part of `pingora::lb::LoadBalancer<S>`. -/
structure LoadBalancer where
  selection : LoadBalancerSelection
  discovery : Discovery
  healthCheck : Option HealthCheck := none
  healthCheckFrequency : Option Nat := none
  updateFrequency : Option Nat := none
  parallelHealthCheck : Bool := false

structure Crates where
  regexNew : String → Except String (String → Bool)
  tree : Template.TreeOps
  IpNet : Type
  ipNetFromStr : String → Except String IpNet
  ipNetContains : IpNet → IpAddr → Bool
  UserType : Type
  userTypeDec : DecidableEq UserType
  UserVal : UserType → Type
  lbSelect : LoadBalancer → Nat → Bytes → Nat → Option Backend
  toSocketAddrs : String → Except String (List (IpAddr × Nat))
  parseUri : String → Option String
  udsAddr : String → Except PError SocketAddr
  fsRead : String → Except String Bytes
  errorToString : PError → String
  ipToString : IpAddr → String

attribute [instance] Crates.userTypeDec

/-! ## A reference instance

It behaves as the crates do on plain inputs: regexes without metacharacters but a leading `^`, IPv4
blocks `a.b.c.d/n`, the address `127.0.0.1:80`, a load balancer over that one backend. -/

/-- An IPv4 block. -/
structure Cidr where
  addr : Nat
  len : Nat
deriving DecidableEq, Repr

def Cidr.contains (c : Cidr) : IpAddr → Bool
  | .v4 a => a.toNat >>> (32 - c.len) == c.addr >>> (32 - c.len)
  | .v6 _ => false

def Cidr.fromStr (s : String) : Except String Cidr :=
  match (s.toList.splitOn '/').map fun part => (part.splitOn '.').map decimal with
  | [[some a, some b, some c, some d], [some n]] =>
    if a < 256 ∧ b < 256 ∧ c < 256 ∧ d < 256 ∧ n ≤ 32 then
      .ok ⟨((a * 256 + b) * 256 + c) * 256 + d, n⟩
    else .error "invalid IP address syntax"
  | _ => .error "invalid IP address syntax"

def refRegex (s : String) : Except String (String → Bool) :=
  match s.toList with
  | '^' :: cs => .ok fun path => cs.isPrefixOf path.toList
  | cs => .ok fun path => path.toList.tails.any fun t => cs.isPrefixOf t

def loopback : IpAddr := .v4 0x7f000001

def refBackend : Backend := ⟨.inet loopback 80, 1⟩

def refCrates : Crates where
  regexNew := refRegex
  tree := Template.refTree
  IpNet := Cidr
  ipNetFromStr := Cidr.fromStr
  ipNetContains := Cidr.contains
  UserType := Empty
  userTypeDec := inferInstance
  UserVal := fun t => t.elim
  lbSelect lb _ _ _ :=
    match lb.discovery with
    | .Static backends => if refBackend ∈ backends then some refBackend else none
    | _ => none
  toSocketAddrs s := if s = "127.0.0.1:80" then .ok [(loopback, 80)] else .error "invalid address"
  parseUri := some
  udsAddr path := .ok (.unix path)
  fsRead _ := .error "No such file or directory"
  errorToString e := e.context.getD ""
  ipToString _ := "127.0.0.1"

end PingoraGuide
