import PingoraGuide.Lib.Act
import PingoraGuide.Lib.MultiMap
import PingoraGuide.Lib.Text
/-!
# Errors, addresses and message headers

| here | there |
| --- | --- |
| `GatewayError`, `PingoraGuideError` | src/error.rs:34-50 |
| `PingoraGuideError.toPError`        | `From<PingoraGuideError> for Box<pingora::Error>` (error.rs:75-87) |
| `ErrorType`, `PError`               | `pingora::ErrorType`, `pingora::Error`: the variants the gateway names; every other one is `other` |
| `SocketAddr.asInet`                 | `SocketAddr::as_inet` |
| `HeaderMap`                         | `http::HeaderMap`: names are case-insensitive, kept in lower case |
| `insertHeader`, `removeHeader`      | `insert_header`, `remove_header` of pingora's request and response headers |
-/
namespace PingoraGuide
open Fallible Wire

inductive GatewayError where
  | UpstreamUnavailable
  | AuthFailure
  | RateLimited
  | SizeLimited (s : String)
  | AclError (s : String)
  | RouteError (s : String)
  | InvalidRequest (s : String)
  | InternalError (s : String)
deriving DecidableEq, Repr

inductive ErrorType where
  | ConnectRefused | ConnectNoRoute | BindError
  | ReadTimedout | ConnectTimedout
  | InvalidHTTPHeader | WriteError | InternalError
  | Custom (name : String)
  | other (name : String)
deriving DecidableEq, Repr

structure PError where
  etype : ErrorType
  context : Option String
deriving DecidableEq, Repr

/-- `Error::explain`. -/
def PError.explain (etype : ErrorType) (context : String) : PError := ⟨etype, some context⟩

inductive PingoraGuideError where
  | Gateway (e : GatewayError)
  | Pingora (e : PError)
deriving DecidableEq, Repr

/-- `{:?}` of a string. Unprintable characters past U+009F are left as they are here. -/
def strDebug (s : String) : String :=
  "\"" ++ String.join (s.toList.map escape) ++ "\""
where
  escape : Char → String
    | '"' => "\\\""
    | '\\' => "\\\\"
    | '\n' => "\\n"
    | '\r' => "\\r"
    | '\t' => "\\t"
    | '\x00' => "\\0"
    | c =>
      if c.toNat < 32 ∨ (127 ≤ c.toNat ∧ c.toNat < 160) then
        "\\u\x7b" ++ String.ofList (Nat.toDigits 16 c.toNat) ++ "\x7d"
      else c.toString

/-- `{}` of a `GatewayError` is its `{:?}` (error.rs:46-50). -/
def GatewayError.display : GatewayError → String
  | .UpstreamUnavailable => "UpstreamUnavailable"
  | .AuthFailure => "AuthFailure"
  | .RateLimited => "RateLimited"
  | .SizeLimited s => "SizeLimited(" ++ strDebug s ++ ")"
  | .AclError s => "AclError(" ++ strDebug s ++ ")"
  | .RouteError s => "RouteError(" ++ strDebug s ++ ")"
  | .InvalidRequest s => "InvalidRequest(" ++ strDebug s ++ ")"
  | .InternalError s => "InternalError(" ++ strDebug s ++ ")"

def PingoraGuideError.toPError : PingoraGuideError → PError
  | .Pingora e => e
  | .Gateway e => .explain (.Custom "GatewayError") e.display

/-! ## Addresses -/

inductive IpAddr where
  | v4 (a : BitVec 32)
  | v6 (a : BitVec 128)
deriving DecidableEq, Repr

inductive SocketAddr where
  | inet (ip : IpAddr) (port : Nat)
  | unix (path : String)
deriving DecidableEq, Repr

def SocketAddr.asInet : SocketAddr → Option (IpAddr × Nat)
  | .inet ip port => some (ip, port)
  | .unix _ => none

/-! ## Headers -/

abbrev HeaderMap := MultiMap String Bytes

structure RequestHeader where
  method : String
  /-- `uri.path()` -/
  path : String
  /-- `uri.host()` -/
  uriHost : Option String
  headers : HeaderMap
deriving DecidableEq, Repr

structure ResponseHeader where
  status : Nat
  headers : HeaderMap
deriving DecidableEq, Repr

def tokenChar (c : Char) : Bool := c.isAlphanum || "!#$%&'*+-.^_`|~".toList.contains c

/-- `HeaderName::from_bytes`: a token, kept in lower case. -/
def headerName (s : String) : Option String :=
  if s.toList ≠ [] ∧ s.toList.all tokenChar ∧ s.toList.length < UInt16.size then some (lower s) else none

/-- `HeaderValue::try_from(String)`: no control byte but the tab. -/
def headerValue (s : String) : Option Bytes :=
  if (utf8 s).all fun b => (32 ≤ b && b != 127) || b == 9 then some (utf8 s) else none

/-- `headers.get(name)`: the first value. -/
def HeaderMap.header (m : HeaderMap) (name : String) : Option Bytes := MultiMap.get m (lower name)

/-- The value is looked at first. -/
def insertHeader (m : HeaderMap) (name value : String) : Res PError HeaderMap :=
  match headerValue value with
  | none => .err (.explain .InvalidHTTPHeader "invalid value while insert")
  | some v =>
    match headerName name with
    | none => .err (.explain .InvalidHTTPHeader "invalid header name")
    | some n => .ok (MultiMap.insert m n v)

def removeHeader (m : HeaderMap) (name : String) : HeaderMap := MultiMap.remove m (lower name)

theorem headerName_eq_some {s n : String} (h : headerName s = some n) : n = lower s := by
  unfold headerName at h
  split at h
  · exact (Option.some.inj h).symm
  · simp at h

theorem headerValue_eq_some {s : String} {v : Bytes} (h : headerValue s = some v) : v = utf8 s := by
  unfold headerValue at h
  split at h
  · exact (Option.some.inj h).symm
  · simp at h

/-- A successful `insert_header` leaves exactly the new value under its name. -/
theorem insertHeader_eq_ok {m m' : HeaderMap} {name value : String}
    (h : insertHeader m name value = .ok m') : m' = MultiMap.insert m (lower name) (utf8 value) := by
  unfold insertHeader at h
  cases hv : headerValue value with
  | none => simp [hv] at h
  | some v =>
    cases hn : headerName name with
    | none => simp [hv, hn] at h
    | some n =>
      simp only [hv, hn, headerName_eq_some hn, headerValue_eq_some hv] at h
      exact (Res.ok.inj h).symm

end PingoraGuide
