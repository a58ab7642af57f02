import PingoraGuide.State
/-!
# Middlewares and the hook loops

| here | there |
| --- | --- |
| `Middleware`        | the trait with its default methods (src/middleware.rs:45-157); `init_cache`, `cache_key` and `should_serve_stale` are called by nobody |
| `HookCall`          | one call of a hook: which one, its arguments, the message it may edit |
| `callHook`          | `middleware.handle_..(..).await`, its error turned into pingora's by `?` |
| `runHooks`          | the loop `for middleware in .. { if hook?? == Stop { .. } }` of eight phases of src/gateway.rs |
| `runHooksLenient`   | the same loop with `.unwrap_or(Continue)` (`logging`, `fail_to_proxy`) |
| `ipRestriction`     | src/middlewares/ip_restriction.rs:46-97 |
| `requestSize`       | src/middlewares/request_size.rs:41-81 |
| `metrics`           | src/middlewares/metrics.rs:72-119; latencies are not modelled |
| `mainMiddlewares`   | the chain `main` installs (src/main.rs:118-124) |
-/
namespace PingoraGuide
open Fallible Wire

abbrev Hook (β : Type) (K : Crates) := Act (St K β) PingoraGuideError MiddlewareDecision

/-- What `connected_to_upstream` is told. -/
structure Connection where
  reused : Bool
  peer : HttpPeer
  fd : Int
deriving DecidableEq, Repr

structure Middleware (K : Crates) where
  name : String
  handleEarlyRequest : Hook Unit K := pure .Continue
  handleRequest : Hook Unit K := pure .Continue
  handleUpstreamRequest : Hook RequestHeader K := pure .Continue
  handleUpstreamConnected : Connection → Hook Unit K := fun _ => pure .Continue
  handleUpstreamResponse : Hook ResponseHeader K := pure .Continue
  handleError : PError → Hook Unit K := fun _ => pure .Continue
  handleRequestBody : Bool → Hook (Option Bytes) K := fun _ => pure .Continue
  handleResponse : Hook ResponseHeader K := pure .Continue
  handleResponseBody : Bool → Hook (Option Bytes) K := fun _ => pure .Continue
  handleLogging : Option PError → Hook Unit K := fun _ => pure .Continue

inductive HookCall : Type → Type where
  | earlyRequest : HookCall Unit
  | request : HookCall Unit
  | upstreamRequest : HookCall RequestHeader
  | upstreamConnected (c : Connection) : HookCall Unit
  | upstreamResponse : HookCall ResponseHeader
  | error (e : PError) : HookCall Unit
  | requestBody (endOfStream : Bool) : HookCall (Option Bytes)
  | response : HookCall ResponseHeader
  | responseBody (endOfStream : Bool) : HookCall (Option Bytes)
  | logging (e : Option PError) : HookCall Unit

variable {K : Crates} {β : Type}

@[simp] def HookCall.kind : HookCall β → HookKind
  | .earlyRequest => .earlyRequest
  | .request => .request
  | .upstreamRequest => .upstreamRequest
  | .upstreamConnected _ => .upstreamConnected
  | .upstreamResponse => .upstreamResponse
  | .error _ => .error
  | .requestBody _ => .requestBody
  | .response => .response
  | .responseBody _ => .responseBody
  | .logging _ => .logging

def Middleware.hook (m : Middleware K) : {β : Type} → HookCall β → Hook β K
  | _, .earlyRequest => m.handleEarlyRequest
  | _, .request => m.handleRequest
  | _, .upstreamRequest => m.handleUpstreamRequest
  | _, .upstreamConnected c => m.handleUpstreamConnected c
  | _, .upstreamResponse => m.handleUpstreamResponse
  | _, .error e => m.handleError e
  | _, .requestBody eos => m.handleRequestBody eos
  | _, .response => m.handleResponse
  | _, .responseBody eos => m.handleResponseBody eos
  | _, .logging e => m.handleLogging e

/-- The call log is the observer's: a hook cannot write to it. -/
def callHook (c : HookCall β) (m : Middleware K × Nat) : Act (St K β) PError MiddlewareDecision :=
  fun s =>
    let (r, s') := m.1.hook c s
    (r.mapErr PingoraGuideError.toPError, { s' with calls := s.calls ++ [.hook c.kind m.2 r] })

def runHooks (c : HookCall β) (ms : List (Middleware K × Nat)) :
    Act (St K β) PError MiddlewareDecision :=
  Act.untilStop (· == .Stop) .Continue (ms.map (callHook c))

def runHooksLenient (c : HookCall β) (ms : List (Middleware K × Nat)) :
    Act (St K β) PError MiddlewareDecision :=
  Act.untilStop (· == .Stop) .Continue (ms.map fun m => (callHook c m).unwrapOr .Continue)

/-! ## `ip_restriction` -/

/-- `respond_error(403)`, its failure an `AclError`, then `Stop`. -/
def forbid : Hook Unit K := do
  (respondError 403).mapErr fun e => .Gateway (.AclError (K.errorToString e))
  pure .Stop

/-- The two scans (ip_restriction.rs:69-96). -/
def checkAcl (acl : CompiledAccessControl K) (ip : IpAddr) : Hook Unit K :=
  if acl.deny.any fun block => K.ipNetContains block ip then forbid
  else if acl.allow.any fun block => K.ipNetContains block ip then pure .Continue
  else if !acl.allow.isEmpty then forbid
  else pure .Continue

variable (K) in
def ipRestriction : Middleware K where
  name := "ip_restriction"
  handleRequest := do
    match ← ctxGet .routeEntry with
    | none => pure .Continue
    | some route =>
      match route.accessControl with
      | none => pure .Continue
      | some acl =>
        let s ← Act.get
        match s.session.clientAddr.bind SocketAddr.asInet with
        | none => pure .Continue
        | some (ip, _) => checkAcl acl.val ip

/-! ## `request_size` -/

/-- `respond_error(413)`, its failure a `SizeLimited`, then `Stop`. -/
def tooLarge : Hook β K := do
  (respondError 413).mapErr fun e => .Gateway (.SizeLimited (K.errorToString e))
  pure .Stop

/-- `headers.get(CONTENT_LENGTH)`, when it is text that parses as a `usize`. -/
def contentLength (h : RequestHeader) : Option Nat := do
  let value ← HeaderMap.header h.headers "content-length"
  let lenStr ← toStr value
  decimalBelow UInt64.size lenStr.toList

/-- `bytes_read` is an exact natural: to wrap, one request has to deliver `2 ^ 64` bytes. -/
def countBody (maxBytes : Nat) (body : Option Bytes) : Hook (Option Bytes) K := do
  let state ← ctxExpect .requestSizeState "Request size state should exist"
  match body with
  | some b =>
    let bytesRead := state.bytesRead + b.length
    ctxModify .requestSizeState fun _ => ⟨bytesRead⟩
    if bytesRead ≥ maxBytes then tooLarge else pure .Continue
  | none => pure .Continue

variable (K) in
def requestSize (maxBytes : Nat) : Middleware K where
  name := "request_size"
  handleRequest := do
    ctxInsert .requestSizeState {}
    let s ← Act.get
    match contentLength s.session.reqHeader with
    | some len => if len > maxBytes then tooLarge else pure .Continue
    | none => pure .Continue
  handleRequestBody := fun _ => do
    let s ← Act.get
    countBody maxBytes s.msg

/-- `RequestSizeMiddleware::new` (request_size.rs:26-32). -/
def maxBytesOf (conf : ServerConf) : Nat := conf.clientMaxBodySize.getD (1024 * 1024 * 10)

/-! ## `metrics` -/

variable (K) in
def metrics : Middleware K where
  name := "metrics"
  handleLogging := fun _ => do
    match ← ctxGet .requestMeta with
    | some rm =>
      let s ← Act.get
      let labels : MetricLabels :=
        { method := s.session.reqHeader.method
          path := rm.matchedRouteId.getD "unknown"
          status := (s.session.responseWritten.map toString).getD "0"
          upstream := rm.upstreamId.getD "unknown" }
      Act.modify fun s => { s with metrics := s.metrics ++ [labels] }
      pure .Continue
    | none => pure .Continue

variable (K) in
def mainMiddlewares (conf : ServerConf) : List (Middleware K) :=
  [metrics K, ipRestriction K, requestSize K (maxBytesOf conf)]

end PingoraGuide
