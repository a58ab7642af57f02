import PingoraGuide.Gateway
import PingoraGuide.Lib.Trace
/-!
# The lifecycle of a request

Pingora drives one request through the phases: `new_ctx`, `early_request_filter`,
`request_filter`; if that let the request through (`Ok(false)`), any number of attempts made of
the upstream, body and response phases; `fail_to_proxy` after a phase returned `Err` or Pingora
itself gave up; `logging` last. A panic ends the task at once.

| here | meaning |
| --- | --- |
| `Phase`          | what Pingora does next; it picks the messages and the failures of its own |
| `Stage`          | where the request stands |
| `Gateway.phase`  | the call a phase makes, `none` where Pingora never makes it |
| `Gateway.Makes`  | the same as a relation, to reason by cases on the phase |
| `Gateway.step`   | one transition |
| `Gateway.run`    | the transitions of a run, in order |
| `Event`          | a phase, or a response that Pingora starts itself: the upstream's, say |
| `Gateway.serve`  | one event |

While the request is being proxied the phases of an attempt come in any order, so a statement
about every run covers every order of attempts, retries and replays.
-/
namespace PingoraGuide
open Fallible Wire

inductive Phase where
  | earlyRequestFilter
  | requestFilter
  | upstreamPeer
  | connectedToUpstream (c : Connection)
  | upstreamRequestFilter (req : RequestHeader)
  | requestBodyFilter (body : Option Bytes) (endOfStream : Bool)
  | upstreamResponseFilter (resp : ResponseHeader)
  | responseFilter (resp : ResponseHeader)
  | responseBodyFilter (body : Option Bytes) (endOfStream : Bool)
  /-- Pingora gives up: no connection, a timeout, a broken stream -/
  | proxyError (e : PError)
  /-- the last attempt is over -/
  | proxied
  | failToProxy
  | logging
deriving DecidableEq, Repr

inductive Event where
  | phase (p : Phase)
  | respond (status : Nat)

inductive Stage where
  | early
  | request
  | proxying
  | failed (e : PError)
  | finish (e : Option PError)
  | done
  | crashed (msg : String)
deriving DecidableEq, Repr

/-- A request past `request_filter`. -/
def Stage.Later (stage : Stage) : Prop := stage ≠ .early ∧ stage ≠ .request

/-- A request that makes no more attempts. -/
def Stage.Over : Stage → Prop
  | .failed _ | .finish _ | .done | .crashed _ => True
  | _ => False

theorem Stage.proxying_later : Stage.proxying.Later := by simp [Stage.Later]

theorem Stage.Over.later {stage : Stage} (h : stage.Over) : stage.Later := by
  cases stage <;> simp_all [Stage.Over, Stage.Later]

theorem Stage.Over.ne_proxying {stage : Stage} (h : stage.Over) : stage ≠ .proxying := by
  rintro rfl
  exact h

variable {K : Crates} {β ε α : Type}

/-- Lend a message to a phase. -/
def withMsg (m : β) (x : Act (St K β) ε α) : Act (St K Unit) ε α := fun s =>
  let (r, s') := x ⟨s.session, s.ctx, m, s.metrics, s.calls⟩
  (r, ⟨s'.session, s'.ctx, (), s'.metrics, s'.calls⟩)

abbrev Cfg (K : Crates) := Stage × St K Unit

/-- `session.response_written()` is now a response of that status. -/
def St.responded (s : St K β) (status : Nat) : St K β :=
  { s with session := { s.session with responseWritten := some status } }

/-- How a call ends decides where the request stands. -/
def settle : Res PError Stage × St K Unit → Cfg K
  | (.ok stage, s) => (stage, s)
  | (.err e, s) => (.failed e, s)
  | (.panic msg, s) => (.crashed msg, s)

namespace Gateway
variable (g : Gateway K)

def phase : Stage → Phase → Option (Act (St K Unit) PError Stage)
  | .early, .earlyRequestFilter => some do
    g.earlyRequestFilter
    pure .request
  | .request, .requestFilter => some do
    let handled ← g.requestFilter
    pure (if handled then .finish none else .proxying)
  | .proxying, .upstreamPeer => some do
    let _ ← g.upstreamPeer
    pure .proxying
  | .proxying, .connectedToUpstream c => some do
    g.connectedToUpstream c
    pure .proxying
  | .proxying, .upstreamRequestFilter req => some do
    withMsg req g.upstreamRequestFilter
    pure .proxying
  | .proxying, .requestBodyFilter body eos => some do
    withMsg body (g.requestBodyFilter eos)
    pure .proxying
  | .proxying, .upstreamResponseFilter resp => some do
    withMsg resp g.upstreamResponseFilter
    pure .proxying
  | .proxying, .responseFilter resp => some do
    withMsg resp g.responseFilter
    pure .proxying
  | .proxying, .responseBodyFilter body eos => some do
    withMsg body (g.responseBodyFilter eos)
    pure .proxying
  | .proxying, .proxyError e => some (Act.throw e)
  | .proxying, .proxied => some (pure (.finish none))
  | .failed e, .failToProxy => some do
    let _ ← g.failToProxy e
    pure (.finish (some e))
  | .finish e, .logging => some do
    g.logging e
    pure .done
  | _, _ => none

/-- The phases that `phase` makes, one constructor each. -/
inductive Makes : Stage → Phase → Act (St K Unit) PError Stage → Prop
  | earlyRequestFilter : Makes .early .earlyRequestFilter do
      g.earlyRequestFilter
      pure .request
  | requestFilter : Makes .request .requestFilter do
      let handled ← g.requestFilter
      pure (if handled then .finish none else .proxying)
  | upstreamPeer : Makes .proxying .upstreamPeer do
      let _ ← g.upstreamPeer
      pure .proxying
  | connectedToUpstream (c : Connection) : Makes .proxying (.connectedToUpstream c) do
      g.connectedToUpstream c
      pure .proxying
  | upstreamRequestFilter (req : RequestHeader) : Makes .proxying (.upstreamRequestFilter req) do
      withMsg req g.upstreamRequestFilter
      pure .proxying
  | requestBodyFilter (body : Option Bytes) (eos : Bool) :
      Makes .proxying (.requestBodyFilter body eos) do
        withMsg body (g.requestBodyFilter eos)
        pure .proxying
  | upstreamResponseFilter (resp : ResponseHeader) :
      Makes .proxying (.upstreamResponseFilter resp) do
        withMsg resp g.upstreamResponseFilter
        pure .proxying
  | responseFilter (resp : ResponseHeader) : Makes .proxying (.responseFilter resp) do
      withMsg resp g.responseFilter
      pure .proxying
  | responseBodyFilter (body : Option Bytes) (eos : Bool) :
      Makes .proxying (.responseBodyFilter body eos) do
        withMsg body (g.responseBodyFilter eos)
        pure .proxying
  | proxyError (e : PError) : Makes .proxying (.proxyError e) (Act.throw e)
  | proxied : Makes .proxying .proxied (pure (.finish none))
  | failToProxy (e : PError) : Makes (.failed e) .failToProxy do
      let _ ← g.failToProxy e
      pure (.finish (some e))
  | logging (e : Option PError) : Makes (.finish e) .logging do
      g.logging e
      pure .done

theorem makes_of_phase {stage : Stage} {p : Phase} {x : Act (St K Unit) PError Stage}
    (h : g.phase stage p = some x) : g.Makes stage p x := by
  unfold phase at h
  split at h <;> simp only [Option.some.injEq, reduceCtorEq] at h <;> subst h <;> constructor

def step (c : Cfg K) (p : Phase) : Option (Cfg K) := (g.phase c.1 p).map fun x => settle (x c.2)

abbrev run (c : Cfg K) (ps : List Phase) : Option (Cfg K) := Trace.run g.step c ps

/-- Pingora starts its response while it proxies, and never after a final one. -/
def serve (c : Cfg K) : Event → Option (Cfg K)
  | .phase p => g.step c p
  | .respond status =>
    if c.1 = .proxying ∧ c.2.session.finalWritten = false then
      some (.proxying, c.2.responded status)
    else none

/-- A fresh request. -/
def start (session : Session) : Cfg K := (.early, ⟨session, newCtx, (), [], []⟩)

variable {g}

theorem step_eq_some {c c' : Cfg K} {p : Phase} :
    g.step c p = some c' ↔ ∃ x, g.phase c.1 p = some x ∧ settle (x c.2) = c' := by
  simp only [step, Option.map_eq_some_iff]

theorem serve_respond {c c' : Cfg K} {status : Nat} :
    g.serve c (.respond status) = some c' ↔
      c.1 = .proxying ∧ c.2.session.finalWritten = false ∧ c' = (.proxying, c.2.responded status) := by
  show (if c.1 = .proxying ∧ c.2.session.finalWritten = false then _ else none) = some c' ↔ _
  rw [Option.ite_none_right_eq_some, Option.some.injEq, and_assoc, eq_comm (a := c')]

/-- A run without responses of Pingora. -/
theorem serve_phases (c : Cfg K) (ps : List Phase) :
    Trace.run g.serve c (ps.map .phase) = g.run c ps := by
  induction ps generalizing c with
  | nil => rfl
  | cons p ps ih =>
    simp only [List.map_cons, Trace.run]
    exact Option.bind_congr fun c' _ => ih c'

@[simp] theorem settle_snd (r : Res PError Stage × St K Unit) : (settle r).2 = r.2 := by
  rcases r with ⟨r | r | r, s⟩ <;> rfl

theorem settle_bind_pure {α : Type} (x : Act (St K Unit) PError α) (f : α → Stage) (s : St K Unit) :
    settle ((x >>= fun a => pure (f a)) s) =
      match x s with
      | (.ok a, s') => (f a, s')
      | (.err e, s') => (.failed e, s')
      | (.panic msg, s') => (.crashed msg, s') := by
  rcases Act.bind_cases x (fun a => pure (f a)) s with
    ⟨a, s', h, h'⟩ | ⟨e, s', h, h'⟩ | ⟨msg, s', h, h'⟩ <;> rw [h, h'] <;> rfl

/-- A phase ends in a stage of its own, fails or crashes. -/
theorem settle_rule {P : Stage → Prop} (hfailed : ∀ e, P (.failed e))
    (hcrashed : ∀ msg, P (.crashed msg)) {α : Type} (x : Act (St K Unit) PError α) (f : α → Stage)
    (s : St K Unit) (hf : ∀ a, P (f a)) : P (settle ((x >>= fun a => pure (f a)) s)).1 := by
  rw [settle_bind_pure]
  rcases x s with ⟨a | e | msg, s'⟩
  · exact hf a
  · exact hfailed e
  · exact hcrashed msg

/-- A request is let through when both filters are, with `Ok(())` and `Ok(false)`. -/
theorem run_opening {session : Session} {s : St K Unit}
    (h : g.run (start session) [.earlyRequestFilter, .requestFilter] = some (.proxying, s)) :
    ∃ s1, g.earlyRequestFilter (start session).2 = (.ok (), s1) ∧
      g.requestFilter s1 = (.ok false, s) := by
  obtain ⟨c1, h1, h⟩ := Trace.run_cons.1 h
  obtain ⟨c2, h2, hc2⟩ := Trace.run_cons.1 h
  obtain rfl : c2 = (.proxying, s) := Option.some.inj hc2
  obtain rfl : settle ((g.earlyRequestFilter >>= fun _ => pure .request) (start session).2) = c1 :=
    Option.some.inj h1
  rw [settle_bind_pure] at h2
  rcases he : g.earlyRequestFilter (start session).2 with ⟨u | e | msg, s1⟩ <;> rw [he] at h2
  · refine ⟨s1, rfl, ?_⟩
    have h2 : settle ((g.requestFilter >>= fun handled =>
        pure (if handled then .finish none else .proxying)) s1) = (.proxying, s) := Option.some.inj h2
    rw [settle_bind_pure] at h2
    rcases hr : g.requestFilter s1 with ⟨handled | e | msg, s2⟩ <;> rw [hr] at h2
    · cases handled <;> cases h2
      rfl
    · cases h2
    · cases h2
  · cases h2
  · cases h2

/-- Only a panic crashes the task. -/
theorem step_crashed {c : Cfg K} {p : Phase} {msg : String} {s' : St K Unit}
    (h : g.step c p = some (.crashed msg, s')) :
    ∃ x, g.phase c.1 p = some x ∧ (x c.2).1 = .panic msg := by
  obtain ⟨x, hx, hset⟩ := step_eq_some.1 h
  obtain ⟨stage, s⟩ := c
  have hdone : ∀ {α : Type} (y : Act (St K Unit) PError α) (f : α → Stage),
      (∀ a, f a ≠ .crashed msg) → ((y >>= fun a => pure (f a)) s).1 ≠ .ok (.crashed msg) := by
    intro α y f hf hy
    obtain ⟨a, -, ha⟩ := (Act.bind_pure_fst y f s _).1 hy
    exact hf a ha
  have hok : (x s).1 ≠ .ok (.crashed msg) := by
    cases makes_of_phase g hx
    case requestFilter =>
      refine hdone _ _ fun handled => ?_
      cases handled <;> simp
    case proxyError | proxied => simp
    all_goals exact hdone _ _ fun _ => by simp
  refine ⟨x, hx, ?_⟩
  rcases hr : x s with ⟨stage' | e | m, s''⟩ <;> simp only [hr] at hset hok
  · obtain rfl : stage' = .crashed msg := congrArg Prod.fst hset
    exact absurd rfl hok
  · cases congrArg Prod.fst hset
  · obtain rfl : m = msg := Stage.crashed.inj (congrArg Prod.fst hset)
    rfl

end Gateway

/-! ## A plain gateway and a plain request -/

/-- A plain request from the loopback address, to a client that takes every write. -/
def getRequest (path : String) : Session where
  reqHeader := ⟨"GET", path, none, []⟩
  clientAddr := some (.inet loopback 4000)
  env := ⟨fun _ => true, fun _ => "id"⟩

/-- One route, without options; its upstream is not configured. -/
def plainConf : GatewayConf where
  routes := [{ path := "/", upstreamId := "a" }]

def plainGateway : Gateway refCrates := (mainGateway refCrates plainConf).toOption.get rfl

theorem plainGateway_router : Router.new refCrates plainConf = .ok plainGateway.router := rfl

theorem plainGateway_main :
    plainGateway.middlewares = mainMiddlewares refCrates plainConf.server := rfl

theorem plainGateway_opens : ∃ s, plainGateway.run (Gateway.start (getRequest "/"))
    [.earlyRequestFilter, .requestFilter] = some (.proxying, s) := by
  have h : (plainGateway.run (Gateway.start (getRequest "/"))
      [.earlyRequestFilter, .requestFilter]).map Prod.fst = some .proxying := by
    decide +kernel
  obtain ⟨⟨_, s⟩, hrun, rfl⟩ := Option.map_eq_some_iff.1 h
  exact ⟨s, hrun⟩

end PingoraGuide
