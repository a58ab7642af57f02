import PingoraGuide.Middleware
import PingoraGuide.Upstream
/-!
# The gateway's phases

One definition per method of `impl ProxyHttp for Gateway` (src/gateway.rs:58-386). Every phase
runs its hook loop over the chain, or over the reversed chain on the way back, and then does its
own work.

| here | there |
| --- | --- |
| `newCtx`                 | `new_ctx` (gateway.rs:60-64) |
| `upstreamPeer`           | gateway.rs:66-97 |
| `requestHost`            | the host extraction (gateway.rs:111-113) |
| `requestFilter`          | gateway.rs:99-131 |
| `earlyRequestFilter`     | gateway.rs:133-148 |
| `requestBodyFilter`      | gateway.rs:150-175 |
| `upstreamRequestFilter`  | gateway.rs:177-213 |
| `upstreamResponseFilter` | gateway.rs:215-236 |
| `responseFilter`         | gateway.rs:238-263 |
| `responseBodyFilter`     | gateway.rs:265-284 |
| `logging`                | gateway.rs:286-299 |
| `failToProxy`            | gateway.rs:301-362 |
| `connectedToUpstream`    | gateway.rs:364-385 |
-/
namespace PingoraGuide
open Fallible Wire

structure Gateway (K : Crates) where
  router : Router K
  upstreams : String → Option Upstream
  middlewares : List (Middleware K)

structure FailToProxy where
  errorCode : Nat
  canReuseDownstream : Bool
deriving DecidableEq, Repr

variable {K : Crates} {β ε : Type}

def newCtx : GatewayContext (CtxVal K) := GatewayContext.new.insert .requestMeta {}

/-! ## Pieces of the phases -/

/-- `ctx.get::<RouteConf>()`: a lookup by the type `RouteConf`. -/
def getRouteConf : Act (St K β) ε (Option RouteConf) := do
  let route ← ctxGet .routeConf
  logCall (.routeLookup route)
  pure route

def expectRouteConf : Act (St K β) ε RouteConf := do
  let route ← getRouteConf
  Act.ofRes (Res.expect "RouteConf should exist" route)

def middlewareRejected (msg : String) : PError := .explain (.Custom "MiddlewareRejected") msg

def upstreamError (msg : String) : PError := .explain (.Custom "UpstreamError") msg

def requestHost (h : RequestHeader) : Option String :=
  (headerText h "Host").or h.uriHost

/-- `message.insert_header(name, value)?`. -/
def setHeader (name value : String) : Act HeaderMap PError Unit := fun m =>
  match insertHeader m name value with
  | .ok m' => (.ok (), m')
  | .err e => (.err e, m)
  | .panic msg => (.panic msg, m)

def setHeaders : List (String × String) → Act HeaderMap PError Unit
  | [] => pure ()
  | (name, value) :: rest => do
    setHeader name value
    setHeaders rest

def removeHeaders (names : List String) (m : HeaderMap) : HeaderMap := names.foldl removeHeader m

/-- The route's own edits of the upstream request (gateway.rs:199-210). -/
def editRequest (headers : HeaderConf) (sni : Option String) : Act HeaderMap PError Unit := do
  setHeaders headers.addReqHeaders.entries
  Act.modify (removeHeaders headers.removeReqHeaders)
  if !headers.preserveHostHeader then
    match sni with
    | some sni => setHeader "Host" sni
    | none => pure ()

def onRequestHeaders {α : Type} : Act HeaderMap ε α → Act (St K RequestHeader) ε α :=
  Act.zoom (fun s => s.msg.headers) fun s m => { s with msg := { s.msg with headers := m } }

def onResponseHeaders {α : Type} : Act HeaderMap ε α → Act (St K ResponseHeader) ε α :=
  Act.zoom (fun s => s.msg.headers) fun s m => { s with msg := { s.msg with headers := m } }

/-- The status `fail_to_proxy` maps an error to (gateway.rs:320-327). -/
def errorStatus : ErrorType → Nat
  | .ConnectRefused | .ConnectNoRoute | .BindError => 502
  | .ReadTimedout | .ConnectTimedout => 504
  | _ => 500

def errorPageHeader (code : Nat) (content : Bytes) : ResponseHeader where
  status := code
  headers :=
    [("content-type", utf8 "text/html"), ("content-length", utf8 (toString content.length))]

/-- Serve the route's page for this status; `false` when there is none to serve or the header
cannot be written (gateway.rs:331-352). -/
def serveErrorPage (code : Nat) : Act (St K Unit) PError Bool := do
  match ← getRouteConf with
  | none => pure false
  | some route =>
    match route.errorPages.bind fun pages => pages.get code with
    | none => pure false
    | some path =>
      match K.fsRead path with
      | .error _ => pure false
      | .ok content => do
        match ← (writeResponseHeader (errorPageHeader code content)).attempt with
        | .ok _ => do
          let _ ← (writeResponseBody content true).attempt
          pure true
        | .error _ => pure false

/-- `if !error_page_served { let _ = session.respond_error(code).await; }`. -/
def respondUnless (served : Bool) (code : Nat) : Act (St K Unit) PError Unit :=
  if served then pure () else do
    let _ ← ((respondError code).attempt : Act (St K Unit) PError (Except PError Unit))
    pure ()

namespace Gateway
variable (g : Gateway K)

/-- `self.middlewares`, each with its index. -/
def chain : List (Middleware K × Nat) := g.middlewares.zipIdx

/-! ## The phases -/

def earlyRequestFilter : Act (St K Unit) PError Unit := do
  let _ ← runHooks .earlyRequest g.chain
  pure ()

def requestFilter : Act (St K Unit) PError Bool := do
  let id ← newUuid
  let _ ← ctxExpect .requestMeta "Context should already be created"
  ctxModify .requestMeta fun (rm : RequestMeta) => { rm with requestId := id }
  let s ← Act.get
  let host := requestHost s.session.reqHeader
  match ← Act.ofRes (g.router.matchRequest s.session.reqHeader.path host) with
  | none => do
    respondError 404
    pure true
  | some route => do
    ctxModify .requestMeta fun (rm : RequestMeta) =>
      { rm with
        matchedRouteId := some route.conf.val.path
        upstreamId := some route.conf.val.upstreamId }
    ctxInsert .routeEntry route
    ctxInsert .arcRouteConf route.conf
    let d ← runHooks .request g.chain
    pure (d == .Stop)

def upstreamPeer : Act (St K Unit) PError HttpPeer := do
  logCall .upstreamPeer
  let reqMeta ← ctxExpect .requestMeta "RequestMeta should exist"
  match RequestMeta.upstreamId reqMeta with
  | none => do
    respondError 500
    Act.throw (upstreamError "Upstream id not set")
  | some id =>
    match g.upstreams id with
    | none => do
      respondError 500
      Act.throw (upstreamError "Upstream config not found")
    | some upstream => do
      logCall (.selectPeer id)
      upstream.selectPeer.mapErr PingoraGuideError.toPError

def connectedToUpstream (c : Connection) : Act (St K Unit) PError Unit := do
  let d ← runHooks (.upstreamConnected c) g.chain
  if d == .Stop then Act.throw (middlewareRejected "Upstream Connection Aborted") else pure ()

def upstreamRequestFilter : Act (St K RequestHeader) PError Unit := do
  let d ← runHooks .upstreamRequest g.chain
  if d == .Stop then Act.throw (middlewareRejected "Upstream Request Rejected")
  else do
    let route ← expectRouteConf
    let reqMeta ← ctxExpect .requestMeta "RequestMeta should exist"
    onRequestHeaders (editRequest route.headers (RequestMeta.sni reqMeta))

def requestBodyFilter (endOfStream : Bool) : Act (St K (Option Bytes)) PError Unit := do
  let d ← runHooks (.requestBody endOfStream) g.chain
  if d == .Stop then Act.throw (middlewareRejected "Body Rejected") else pure ()

def upstreamResponseFilter : Act (St K ResponseHeader) PError Unit := do
  let d ← runHooks .upstreamResponse g.chain.reverse
  if d == .Stop then Act.throw (middlewareRejected "Upstream Response Filter Aborted")
  else do
    let route ← expectRouteConf
    onResponseHeaders (Act.modify (removeHeaders route.headers.removeRespHeaders))

def responseFilter : Act (St K ResponseHeader) PError Unit := do
  let d ← runHooks .response g.chain.reverse
  if d == .Stop then Act.throw (middlewareRejected "Response Filter Aborted")
  else do
    let route ← expectRouteConf
    onResponseHeaders (setHeaders route.headers.addRespHeaders.entries)

def responseBodyFilter (endOfStream : Bool) : Act (St K (Option Bytes)) PError Unit := do
  let d ← runHooks (.responseBody endOfStream) g.chain.reverse
  if d == .Stop then Act.throw (middlewareRejected "Response Body Rejected") else pure ()

def logging (e : Option PError) : Act (St K Unit) PError Unit := do
  let _ ← runHooksLenient (.logging e) g.chain.reverse
  pure ()

def failToProxy (e : PError) : Act (St K Unit) PError FailToProxy := do
  let d ← runHooksLenient (.error e) g.chain.reverse
  if d == .Stop then do
    logCall (.failToProxy 0)
    pure ⟨0, false⟩
  else do
    let code := errorStatus e.etype
    let errorPageServed ← serveErrorPage code
    respondUnless errorPageServed code
    logCall (.failToProxy code)
    pure ⟨code, false⟩

end Gateway

variable (K) in
/-- The gateway `main` serves (src/main.rs:99-137). -/
def mainGateway (conf : GatewayConf) : Except PingoraGuideError (Gateway K) := do
  match upstreamMap K conf.upstreams fun _ => none with
  | .error e => .error (.Pingora e)
  | .ok upstreams => do
    let router ← Router.new K conf
    .ok { router, upstreams, middlewares := mainMiddlewares K conf.server }

end PingoraGuide
