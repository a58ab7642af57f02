import PingoraGuide.Context
import PingoraGuide.Router
/-!
# The state of one request

| here | there |
| --- | --- |
| `RequestMeta`       | src/context.rs:75-85; `start_time` and the two connection counters are read by nothing modelled |
| `CtxType`, `CtxVal` | the types kept in the `GatewayContext`; `user` is any other type |
| `Session`           | `pingora::proxy::Session`: the request, the client and what was written to it |
| `write`             | `respond_error`, `write_response_header` and `write_response_body`: `Ok(())` without a write where the response is already there |
| `Env`               | what the outside decides: whether the `n`-th write succeeds, the `n`-th uuid |
| `St`                | what a phase borrows mutably: session, context and the message of the phase (`()` where it has none) |
| `Call`              | the calls made for the request so far; kept for the statements, no code reads it |
-/
namespace PingoraGuide
open Fallible Wire

structure RequestMeta where
  requestId : String := ""
  matchedRouteId : Option String := none
  upstreamId : Option String := none
  peerAddr : Option SocketAddr := none
  sni : Option String := none
deriving DecidableEq, Repr

structure RequestSizeState where
  bytesRead : Nat := 0
deriving DecidableEq, Repr

inductive CtxType (K : Crates) where
  | requestMeta | routeEntry | arcRouteConf | routeConf | requestSizeState
  | user (t : K.UserType)
deriving DecidableEq

abbrev CtxVal (K : Crates) : CtxType K → Type
  | .requestMeta => RequestMeta
  | .routeEntry => RouteEntry K
  | .arcRouteConf => Arc RouteConf
  | .routeConf => RouteConf
  | .requestSizeState => RequestSizeState
  | .user t => K.UserVal t

structure Env where
  writeOk : Nat → Bool
  uuid : Nat → String

/-- One successful write to the client. -/
inductive Sent where
  | error (code : Nat)
  | header (h : ResponseHeader)
  | body (b : Bytes) (endOfStream : Bool)
deriving DecidableEq, Repr

/-- The status of a response that this write starts. -/
def Sent.status : Sent → Option Nat
  | .error code => some code
  | .header h => some h.status
  | .body _ _ => none

/-- Nothing of the body can follow: `respond_error` finishes it. -/
def Sent.endsBody : Sent → Bool
  | .error _ => true
  | .header _ => false
  | .body _ endOfStream => endOfStream

/-- Not informational, or the `101` that ends the exchange. -/
def isFinal (status : Nat) : Bool := decide (status < 100 ∨ 200 ≤ status) || status == 101

structure Session where
  reqHeader : RequestHeader
  clientAddr : Option SocketAddr
  env : Env
  writes : Nat := 0
  uuids : Nat := 0
  selects : Nat := 0
  sent : List Sent := []
  /-- `session.response_written()`, its status -/
  responseWritten : Option Nat := none
  /-- the body of that response is complete -/
  bodyDone : Bool := false

/-- A final response was started. -/
def Session.finalWritten (se : Session) : Bool := se.responseWritten.any isFinal

/-- Answered with `Ok(())` and not put on the wire: a second final response, or more of a body that
is complete. -/
def Session.drops (se : Session) : Sent → Bool
  | .error _ | .header _ => se.finalWritten
  | .body _ _ => se.bodyDone

/-- The write is answered with `Ok(())`. -/
def Session.takes (se : Session) (ev : Sent) : Bool := se.drops ev || se.env.writeOk se.writes

/-- The write goes out to the client. -/
def Session.delivers (se : Session) (ev : Sent) : Bool := !se.drops ev && se.env.writeOk se.writes

/-- The session after a write. -/
def Session.after (se : Session) (ev : Sent) : Session :=
  if se.drops ev then se
  else if se.env.writeOk se.writes then
    { se with
      writes := se.writes + 1
      sent := se.sent ++ [ev]
      responseWritten := ev.status.or se.responseWritten
      bodyDone := ev.endsBody }
  else { se with writes := se.writes + 1 }

inductive MiddlewareDecision where
  | Continue | Stop
deriving DecidableEq, Repr

inductive HookKind where
  | earlyRequest | request | upstreamRequest | upstreamConnected | upstreamResponse
  | error | requestBody | response | responseBody | logging
deriving DecidableEq, Repr

inductive Call where
  /-- a hook of the middleware at this index of the chain, and how it ended -/
  | hook (kind : HookKind) (idx : Nat) (out : Res PingoraGuideError MiddlewareDecision)
  | upstreamPeer
  /-- `select_peer` of the upstream registered under `id` -/
  | selectPeer (id : String)
  /-- a lookup `ctx.get::<RouteConf>()` of the gateway, and what it found -/
  | routeLookup (found : Option RouteConf)
  /-- `fail_to_proxy` returned with this `error_code` -/
  | failToProxy (errorCode : Nat)
deriving DecidableEq, Repr

structure MetricLabels where
  method : String
  path : String
  status : String
  upstream : String
deriving DecidableEq, Repr

structure St (K : Crates) (β : Type) where
  session : Session
  ctx : GatewayContext (CtxVal K)
  msg : β
  metrics : List MetricLabels := []
  calls : List Call := []

variable {K : Crates} {β : Type} {ε : Type}

/-! ## Session calls -/

def write (ev : Sent) : Act (St K β) PError Unit := fun s =>
  (if s.session.takes ev then .ok () else .err ⟨.WriteError, none⟩,
    { s with session := s.session.after ev })

def respondError (code : Nat) : Act (St K β) PError Unit := write (.error code)

def writeResponseHeader (h : ResponseHeader) : Act (St K β) PError Unit := write (.header h)

def writeResponseBody (b : Bytes) (endOfStream : Bool) : Act (St K β) PError Unit :=
  write (.body b endOfStream)

/-- `Uuid::new_v4().to_string()`. -/
def newUuid : Act (St K β) ε String := fun s =>
  (.ok (s.session.env.uuid s.session.uuids),
    { s with session := { s.session with uuids := s.session.uuids + 1 } })

/-! ## Context calls -/

def ctxGet (t : CtxType K) : Act (St K β) ε (Option (CtxVal K t)) := fun s => (.ok (s.ctx.get t), s)

def ctxInsert (t : CtxType K) (v : CtxVal K t) : Act (St K β) ε Unit :=
  Act.modify fun s => { s with ctx := s.ctx.insert t v }

def ctxModify (t : CtxType K) (f : CtxVal K t → CtxVal K t) : Act (St K β) ε Unit :=
  Act.modify fun s => { s with ctx := s.ctx.modify t f }

/-- `ctx.get::<T>().expect(msg)`. -/
def ctxExpect (t : CtxType K) (msg : String) : Act (St K β) ε (CtxVal K t) := fun s =>
  (Res.expect msg (s.ctx.get t), s)

def logCall (c : Call) : Act (St K β) ε Unit := Act.modify fun s => { s with calls := s.calls ++ [c] }

@[simp] theorem ctxGet_run (t : CtxType K) (s : St K β) :
    (ctxGet t : Act _ ε _) s = (.ok (s.ctx.get t), s) := rfl

@[simp] theorem ctxGet_bind_run {α : Type} (t : CtxType K) (f : Option (CtxVal K t) → Act (St K β) ε α)
    (s : St K β) : (ctxGet t >>= f) s = f (s.ctx.get t) s := rfl

@[simp] theorem ctxInsert_run (t : CtxType K) (v : CtxVal K t) (s : St K β) :
    (ctxInsert t v : Act _ ε _) s = (.ok (), { s with ctx := s.ctx.insert t v }) := rfl

@[simp] theorem ctxModify_run (t : CtxType K) (f : CtxVal K t → CtxVal K t) (s : St K β) :
    (ctxModify t f : Act _ ε _) s = (.ok (), { s with ctx := s.ctx.modify t f }) := rfl

@[simp] theorem logCall_run (c : Call) (s : St K β) :
    (logCall c : Act _ ε _) s = (.ok (), { s with calls := s.calls ++ [c] }) := rfl

theorem ctxExpect_of_some (msg : String) {t : CtxType K} {s : St K β} {v : CtxVal K t}
    (h : s.ctx.get t = some v) : (ctxExpect t msg : Act _ ε _) s = (.ok v, s) := by
  simp [ctxExpect, Res.expect, h]

theorem ctxExpect_of_none (msg : String) {t : CtxType K} {s : St K β}
    (h : s.ctx.get t = none) : (ctxExpect t msg : Act _ ε _) s = (.panic msg, s) := by
  simp [ctxExpect, Res.expect, h]

/-- What a write leaves: it went out, or nothing but the count of writes may have changed. -/
theorem Session.after_cases (se : Session) (ev : Sent) :
    (se.delivers ev = true ∧ se.takes ev = true ∧ (se.after ev).sent = se.sent ++ [ev] ∧
      (se.after ev).responseWritten = ev.status.or se.responseWritten) ∨
    (se.delivers ev = false ∧ (se.after ev).sent = se.sent ∧
      (se.after ev).responseWritten = se.responseWritten) := by
  unfold Session.delivers Session.takes Session.after
  cases se.drops ev with
  | true => exact .inr ⟨rfl, rfl, rfl⟩
  | false =>
    cases se.env.writeOk se.writes with
    | true => exact .inl ⟨rfl, rfl, rfl, rfl⟩
    | false => exact .inr ⟨rfl, rfl, rfl⟩

theorem Session.after_client (se : Session) (ev : Sent) :
    (se.after ev).reqHeader = se.reqHeader ∧ (se.after ev).clientAddr = se.clientAddr ∧
      (se.after ev).env = se.env := by
  unfold Session.after
  split
  · exact ⟨rfl, rfl, rfl⟩
  · split <;> exact ⟨rfl, rfl, rfl⟩

/-- A write touches the session only, and is answered `Ok(())` or fails. -/
theorem write_cases (ev : Sent) (s : St K β) :
    ∃ se, (write ev s).2 = { s with session := se } ∧ se.reqHeader = s.session.reqHeader ∧
      se.clientAddr = s.session.clientAddr ∧
      (((write ev s).1 = .ok () ∧ s.session.takes ev = true) ∨
        ((write ev s).1 = .err ⟨.WriteError, none⟩ ∧ s.session.takes ev = false)) := by
  obtain ⟨hheader, haddr, -⟩ := s.session.after_client ev
  refine ⟨_, rfl, hheader, haddr, ?_⟩
  unfold write
  cases s.session.takes ev with
  | true => exact .inl ⟨rfl, rfl⟩
  | false => exact .inr ⟨rfl, rfl⟩

/-- A property that looks at nothing a write changes survives it. -/
theorem write_keeps {I : St K β → Prop}
    (hI : ∀ s se, se.reqHeader = s.session.reqHeader → I s → I { s with session := se })
    (ev : Sent) : Act.Keeps I (write ev) := by
  intro s hs
  obtain ⟨se, hse, hheader, -⟩ := write_cases ev s
  rw [hse]
  exact hI s se hheader hs

end PingoraGuide
