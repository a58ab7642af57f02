import PingoraGuide.Concurrency
import PingoraGuide.RoutePriority
/-!
# The policy a configuration asks for, and the gateway that enforces it

What should become of a request is settled by the route that the router decides on, the addresses
this route takes and the length the server takes. `Rules` says it without middlewares or phases.
`policy_enforced`: whatever else is going on in the process, every request of the gateway of `main`
is treated by the verdict on its own session.

| here | meaning |
| --- | --- |
| `Verdict`   | what should become of a request |
| `Routes`    | the route that the router decides on, by path and host |
| `Rules`     | the verdict on a request |
| `Refuses`   | a call that refuses: it answers, or fails because it cannot |
| `Follows`   | the request, where it stands, is treated as the verdict says |
-/
namespace PingoraGuide
open Fallible Wire
open Template (TreeSound)

variable {K : Crates} {accepts : String → String → Bool}

inductive Verdict where
  | notFound
  | refused (route : RouteConf) (code : Nat)
  | forwarded (route : RouteConf)

namespace Verdict

def route : Verdict → Option RouteConf
  | .notFound => none
  | .refused route _ => some route
  | .forwarded route => some route

/-- The status of a request that is not forwarded. -/
def answer : Verdict → Option Nat
  | .notFound => some 404
  | .refused _ code => some code
  | .forwarded _ => none

/-- The upstream that may be contacted. -/
def upstream : Verdict → Option String
  | .forwarded route => some route.upstreamId
  | _ => none

theorem upstream_of_forwarded {v : Verdict} (h : v.answer = none) :
    v.upstream = v.route.map fun route => route.upstreamId := by
  cases v with
  | notFound | refused => cases h
  | forwarded => rfl

end Verdict

/-! ## The policy -/

/-- The router decides on `found`. If it is a route, it is one of the configuration, it admits the
host, and its own pattern accepts the path. -/
structure Routes (accepts : String → String → Bool) (g : Gateway K) (conf : GatewayConf)
    (h : RequestHeader) (found : Option RouteConf) : Prop where
  decided : ∃ entry, g.router.matchRequest h.path (requestHost h) = .ok entry ∧
    entry.map (fun entry => entry.conf.val) = found
  admits : ∀ route, found = some route → route ∈ conf.routes ∧
    HostAdmits route (requestHost h) ∧ OwnPattern K accepts route h.path

variable (K) in
/-- An access control list is about internet addresses. -/
def AddressAdmitted (route : RouteConf) (addr : Option SocketAddr) : Prop :=
  ∀ ip port, addr = some (.inet ip port) → AclAdmits K route.accessControl ip

theorem addressAdmitted_inet {route : RouteConf} {ip : IpAddr} {port : Nat} :
    AddressAdmitted K route (some (.inet ip port)) ↔ AclAdmits K route.accessControl ip := by
  constructor
  · exact fun h => h ip port rfl
  · rintro h ip' port' heq
    obtain ⟨rfl, rfl⟩ := SocketAddr.inet.inj (Option.some.inj heq)
    exact h

def LengthAdmitted (conf : ServerConf) (h : RequestHeader) : Prop :=
  ∀ len, contentLength h = some len → len ≤ maxBytesOf conf

inductive Rules (accepts : String → String → Bool) (g : Gateway K) (conf : GatewayConf)
    (session : Session) : Verdict → Prop
  | notFound : Routes accepts g conf session.reqHeader none →
      Rules accepts g conf session .notFound
  | forbidden {route : RouteConf} : Routes accepts g conf session.reqHeader (some route) →
      ¬ AddressAdmitted K route session.clientAddr →
      Rules accepts g conf session (.refused route 403)
  | tooLarge {route : RouteConf} : Routes accepts g conf session.reqHeader (some route) →
      AddressAdmitted K route session.clientAddr →
      ¬ LengthAdmitted conf.server session.reqHeader →
      Rules accepts g conf session (.refused route 413)
  | forwarded {route : RouteConf} : Routes accepts g conf session.reqHeader (some route) →
      AddressAdmitted K route session.clientAddr → LengthAdmitted conf.server session.reqHeader →
      Rules accepts g conf session (.forwarded route)

/-! ## Treatment -/

/-- After `request_filter`: let through with nothing sent, or answered, or failed because the answer
cannot be written. -/
def Opened (v : Verdict) (session : Session) (c : Cfg K) : Prop :=
  match v.answer with
  | none => c.1 = .proxying ∧ c.2.session.sent = session.sent
  | some code =>
    if session.env.writeOk session.writes then
      c.1 = .finish none ∧ c.2.session.sent = session.sent ++ [.error code]
    else (∃ e, c.1 = .failed e) ∧ c.2.session.sent = session.sent

/-- From there on a request that is refused has its answer and no other, or it has failed; it is
never proxied. -/
def Closed (v : Verdict) (session : Session) (c : Cfg K) : Prop :=
  ∀ code, v.answer = some code →
    if session.env.writeOk session.writes then
      (c.1 = .finish none ∨ c.1 = .done) ∧ c.2.session.sent = session.sent ++ [.error code]
    else c.1.Over ∧ c.1 ≠ .finish none

structure Follows (g : Gateway K) (session : Session) (v : Verdict) (c : Cfg K) : Prop where
  opens : c.1 = .request → ∃ c', g.step c .requestFilter = some c' ∧ Opened v session c'
  closed : c.1.Later → Closed v session c
  contacts : ∀ id, .selectPeer id ∈ c.2.calls → v.upstream = some id
  recorded : ∀ l ∈ c.2.metrics,
    l.path = (v.route.map fun route => route.path).getD "unknown" ∧
      l.upstream = (v.route.map fun route => route.upstreamId).getD "unknown"

/-! ## The route -/

variable {g : Gateway K} {conf : GatewayConf} {session : Session} {v : Verdict}

/-- The lookup of `request_filter` finds the route of the request, with its own compiled ACL. -/
theorem matchRequest_routes (hs : TreeSound K.tree accepts)
    (hrouter : Router.new K conf = .ok g.router) (h : RequestHeader) :
    ∃ found, g.router.matchRequest h.path (requestHost h) = .ok found ∧
      Routes accepts g conf h (found.map fun entry => entry.conf.val) ∧
      ∀ entry, found = some entry →
        compileAcl K entry.conf.val.accessControl = .ok entry.accessControl := by
  obtain ⟨_, -, -, -, found, hfound, hsound⟩ :=
    match_request_sound hs hrouter h.path (requestHost h)
  refine ⟨found, hfound, ⟨⟨found, hfound, rfl⟩, fun route hroute => ?_⟩, fun entry he => ?_⟩
  · obtain ⟨entry, he, rfl⟩ := Option.map_eq_some_iff.1 hroute
    obtain ⟨i, route, hi, -, hconf, -, hhost, hown⟩ := hsound entry he
    rw [hconf]
    exact ⟨List.mem_of_getElem? hi, hhost, hown⟩
  · obtain ⟨i, -, hacl⟩ := (new_indexed hrouter).matched_entry (hfound.trans (congrArg Res.ok he))
    exact hacl

/-! ## Refusals -/

/-- `r` is a call on `s`, a request without a final response, that answers `code` and returns `stop`,
or fails to answer and returns `Err`. -/
def Refuses {ε α : Type} (code : Nat) (stop : α) (s : St K Unit) (r : Res ε α × St K Unit) : Prop :=
  if s.session.env.writeOk s.session.writes then
    r.1 = .ok stop ∧ r.2.session.sent = s.session.sent ++ [.error code]
  else (∃ e, r.1 = .err e) ∧ r.2.session.sent = s.session.sent

namespace Refuses
variable {ε ε' α β : Type} {code : Nat} {stop : α} {s : St K Unit}

theorem respond (code : Nat) (hnew : s.session.finalWritten = false) :
    Refuses code () s (respondError code s) := by
  have hdrops : s.session.drops (.error code) = false := hnew
  unfold Refuses respondError write Session.takes Session.after
  rw [hdrops]
  split
  · rename_i hw
    simp [hw]
  · rename_i hw
    simp [hw]

theorem mapErr {x : Act (St K Unit) ε α} {t : St K Unit} (f : ε → ε')
    (h : Refuses code stop s (x t)) : Refuses code stop s (x.mapErr f t) := by
  unfold Refuses at h ⊢
  rw [Act.mapErr_run]
  split at h
  · rename_i hw
    rw [if_pos hw, h.1]
    exact ⟨rfl, h.2⟩
  · rename_i hw
    obtain ⟨⟨e, he⟩, hsent⟩ := h
    rw [if_neg hw, he]
    exact ⟨⟨_, rfl⟩, hsent⟩

/-- What follows only renames the value. -/
theorem map {x : Act (St K Unit) ε α} {t : St K Unit} (f : α → β) (h : Refuses code stop s (x t)) :
    Refuses code (f stop) s ((x >>= fun a => pure (f a)) t) := by
  unfold Refuses at h ⊢
  rw [Act.bind_pure_snd]
  split at h
  · rename_i hw
    rw [if_pos hw]
    exact ⟨(Act.bind_pure_fst x f t _).2 ⟨stop, h.1, rfl⟩, h.2⟩
  · rename_i hw
    obtain ⟨⟨e, he⟩, hsent⟩ := h
    rw [if_neg hw]
    exact ⟨⟨e, congrArg Prod.fst (Act.bind_of_err (Prod.ext he rfl))⟩, hsent⟩

/-- Only the connection decides whether the answer can be written. -/
theorem congr {t : St K Unit} {r : Res ε α × St K Unit} (h : Refuses code stop s r)
    (henv : t.session.env = s.session.env) (hwrites : t.session.writes = s.session.writes)
    (hsent : t.session.sent = s.session.sent) : Refuses code stop t r := by
  unfold Refuses at h ⊢
  rwa [henv, hwrites, hsent]

/-- A hook that refuses ends the loop. -/
theorem runHooks {c : HookCall Unit} {m : Middleware K × Nat} {ms : List (Middleware K × Nat)}
    {t : St K Unit} (h : Refuses code .Stop s (m.1.hook c t)) :
    Refuses code .Stop s (runHooks c (m :: ms) t) := by
  unfold Refuses at h ⊢
  split at h
  · rename_i hw
    rw [if_pos hw, runHooks_stop h.1]
    exact ⟨rfl, h.2⟩
  · rename_i hw
    obtain ⟨⟨e, he⟩, hsent⟩ := h
    rw [if_neg hw, runHooks_err he]
    exact ⟨⟨_, rfl⟩, hsent⟩

end Refuses

/-! ## The hooks -/

theorem checkAcl_run (acl : CompiledAccessControl K) (ip : IpAddr) (s : St K Unit) :
    (acl.permits ip ∧ checkAcl acl ip s = (.ok .Continue, s)) ∨
      (¬ acl.permits ip ∧ checkAcl acl ip s = (forbid : Hook Unit K) s) := by
  unfold checkAcl CompiledAccessControl.permits
  cases acl.deny.any fun net => K.ipNetContains net ip
  · cases acl.allow.any fun net => K.ipNetContains net ip
    · cases acl.allow.isEmpty <;> simp
    · simp
  · simp

section
variable {s : St K Unit} (hnew : s.session.finalWritten = false)
include hnew

theorem forbid_refuses : Refuses 403 .Stop s ((forbid : Hook Unit K) s) :=
  ((Refuses.respond 403 hnew).mapErr _).map fun _ => MiddlewareDecision.Stop

theorem tooLarge_refuses : Refuses 413 .Stop s ((tooLarge : Hook Unit K) s) :=
  ((Refuses.respond 413 hnew).mapErr _).map fun _ => MiddlewareDecision.Stop

/-- `ip_restriction` lets a request pass untouched, or refuses it. -/
theorem ipRestriction_decides {entry : RouteEntry K}
    (hroute : s.ctx.get .routeEntry = some entry)
    (hacl : compileAcl K entry.conf.val.accessControl = .ok entry.accessControl) :
    (AddressAdmitted K entry.conf.val s.session.clientAddr ∧
      (ipRestriction K).handleRequest s = (.ok .Continue, s)) ∨
    (¬ AddressAdmitted K entry.conf.val s.session.clientAddr ∧
      Refuses 403 .Stop s ((ipRestriction K).handleRequest s)) := by
  have hmeaning := compileAcl_admits hacl
  unfold ipRestriction
  dsimp only
  rw [ctxGet_bind_run, hroute]
  dsimp only
  cases hcompiled : entry.accessControl with
  | none =>
    simp only [hcompiled, reduceCtorEq, false_implies, implies_true, iff_true] at hmeaning
    exact .inl ⟨fun ip _ _ => hmeaning ip, rfl⟩
  | some acl =>
    simp only [hcompiled, Option.some.injEq, forall_eq'] at hmeaning
    dsimp only
    rw [Act.get_bind_run]
    rcases s.session.clientAddr with _ | ⟨ip, port⟩ | path
    · exact .inl ⟨nofun, rfl⟩
    · rw [addressAdmitted_inet, hmeaning]
      rcases checkAcl_run acl.val ip s with ⟨hpermits, hrun⟩ | ⟨hpermits, hrun⟩
      · exact .inl ⟨hpermits, hrun⟩
      · refine .inr ⟨hpermits, ?_⟩
        have hforbid := forbid_refuses hnew
        rwa [← hrun] at hforbid
    · exact .inl ⟨nofun, rfl⟩

/-- `request_size` lets a request pass with its byte counter, or refuses it. -/
theorem requestSize_decides (conf : ServerConf) :
    (LengthAdmitted conf s.session.reqHeader ∧
      (requestSize K (maxBytesOf conf)).handleRequest s =
        (.ok .Continue, { s with ctx := s.ctx.insert .requestSizeState {} })) ∨
    (¬ LengthAdmitted conf s.session.reqHeader ∧
      Refuses 413 .Stop s ((requestSize K (maxBytesOf conf)).handleRequest s)) := by
  let s1 : St K Unit := { s with ctx := s.ctx.insert .requestSizeState {} }
  have hinsert : (ctxInsert .requestSizeState {} : Act (St K Unit) PingoraGuideError Unit) s =
      (.ok (), s1) := rfl
  have hheader : s1.session.reqHeader = s.session.reqHeader := rfl
  unfold requestSize LengthAdmitted
  dsimp only
  rw [Act.bind_of_ok hinsert, Act.get_bind_run, hheader]
  cases contentLength s.session.reqHeader with
  | none => exact .inl ⟨by simp, rfl⟩
  | some len =>
    dsimp only
    rw [Act.ite_run]
    split
    · rename_i hgt
      have hrefuses : Refuses 413 .Stop s ((tooLarge : Hook Unit K) s1) :=
        (tooLarge_refuses (s := s1) hnew).congr rfl rfl rfl
      exact .inr ⟨by simpa using hgt, hrefuses⟩
    · rename_i hle
      exact .inl ⟨by simpa using hle, rfl⟩

end

/-! ## `request_filter` -/

/-- The request as it came in. -/
structure Fresh (session : Session) (s : St K Unit) : Prop where
  session : s.session = session
  requestMeta : s.ctx.get .requestMeta = some {}

theorem Fresh.matched {s : St K Unit} (h : Fresh session s) :
    g.matched s = g.router.matchRequest session.reqHeader.path (requestHost session.reqHeader) := by
  rw [Gateway.matched, h.session]

theorem settle_ok {r : Res PError Stage × St K Unit} {stage : Stage} (h : r.1 = .ok stage) :
    (settle r).1 = stage := by
  obtain ⟨_, s⟩ := r
  subst h
  rfl

theorem settle_err {r : Res PError Stage × St K Unit} {e : PError} (h : r.1 = .err e) :
    (settle r).1 = .failed e := by
  obtain ⟨_, s⟩ := r
  subst h
  rfl

theorem step_request (g : Gateway K) (s : St K Unit) :
    g.step (.request, s) .requestFilter = some (settle ((g.requestFilter >>= fun handled =>
      pure (if handled then .finish none else .proxying)) s)) := rfl

/-- What `request_filter` is to do with the verdict. -/
def Opens (g : Gateway K) (v : Verdict) (session : Session) (s : St K Unit) : Prop :=
  ∃ c', g.step (.request, s) .requestFilter = some c' ∧ Opened v session c'

theorem opens_of_refuses {code : Nat} {s : St K Unit} (hv : v.answer = some code)
    (hfresh : Fresh session s) (h : Refuses code true s (g.requestFilter s)) :
    Opens g v session s := by
  have hstage := h.map fun handled => if handled then Stage.finish none else Stage.proxying
  unfold Refuses at hstage
  rw [hfresh.session] at hstage
  refine ⟨_, step_request g s, ?_⟩
  unfold Opened
  rw [hv]
  dsimp only at hstage ⊢
  rw [Gateway.settle_snd]
  split at hstage
  · rename_i hw
    rw [if_pos hw]
    exact ⟨settle_ok hstage.1, hstage.2⟩
  · rename_i hw
    obtain ⟨⟨e, he⟩, hsent⟩ := hstage
    rw [if_neg hw]
    exact ⟨⟨e, settle_err he⟩, hsent⟩

theorem opens_notFound {s : St K Unit} (hnew : session.finalWritten = false)
    (hfresh : Fresh session s) (hmatch : g.matched s = .ok none) : Opens g .notFound session s := by
  have hanswer : Verdict.notFound.answer = some 404 := rfl
  refine opens_of_refuses hanswer hfresh ?_
  rw [requestFilter_run hfresh.requestMeta, hmatch]
  have hopen : (openRequest s).session.finalWritten = false := by
    show s.session.finalWritten = false
    rw [hfresh.session, hnew]
  exact ((Refuses.respond 404 hopen).map fun _ => true).congr rfl rfl rfl

section
variable {s : St K Unit} {entry : RouteEntry K}

/-- The hooks of `main` on a matched request: they see what `enterRoute` and the hooks before left,
and the header, the address and the connection the request came in with. -/
theorem requestHooks_decide (hmain : g.middlewares = mainMiddlewares K conf.server)
    (hnew : session.finalWritten = false) (hfresh : Fresh session s)
    (hacl : compileAcl K entry.conf.val.accessControl = .ok entry.accessControl) :
    (¬ AddressAdmitted K entry.conf.val session.clientAddr ∧
      Refuses 403 .Stop s (runHooks .request g.chain (enterRoute s entry))) ∨
    (AddressAdmitted K entry.conf.val session.clientAddr ∧
      ¬ LengthAdmitted conf.server session.reqHeader ∧
      Refuses 413 .Stop s (runHooks .request g.chain (enterRoute s entry))) ∨
    (AddressAdmitted K entry.conf.val session.clientAddr ∧
      LengthAdmitted conf.server session.reqHeader ∧
      ∃ s', runHooks .request g.chain (enterRoute s entry) = (.ok .Continue, s') ∧
        s'.session.sent = s.session.sent) := by
  have hroute : (ipSees s entry).ctx.get .routeEntry = some entry := (enterRoute_get entry).1
  obtain rfl : s.session = session := hfresh.session
  rw [runHooks_request_main hmain]
  rcases ipRestriction_decides (s := ipSees s entry) hnew hroute hacl with ⟨haddr, hip⟩ | ⟨haddr, hip⟩
  · rw [runHooks_passes (c := .request) (m := (ipRestriction K, 1)) hip]
    rcases requestSize_decides (s := { ipSees s entry with
        calls := (ipSees s entry).calls ++ [.hook .request 1 (.ok .Continue)] }) hnew conf.server with
      ⟨hlen, hsize⟩ | ⟨hlen, hsize⟩
    · exact .inr (.inr ⟨haddr, hlen, _,
        runHooks_passes (c := .request) (m := (requestSize K _, 2)) hsize, rfl⟩)
    · have hrefuses := hsize.congr (t := s) rfl rfl rfl
      exact .inr (.inl ⟨haddr, hlen,
        hrefuses.runHooks (c := .request) (m := (requestSize K _, 2))⟩)
  · have hrefuses := hip.congr (t := s) rfl rfl rfl
    exact .inl ⟨haddr, hrefuses.runHooks (c := .request) (m := (ipRestriction K, 1))⟩

theorem opens_refused {code : Nat} (hfresh : Fresh session s)
    (hmatch : g.matched s = .ok (some entry))
    (h : Refuses code .Stop s (runHooks .request g.chain (enterRoute s entry))) :
    Opens g (.refused entry.conf.val code) session s := by
  have hanswer : (Verdict.refused entry.conf.val code).answer = some code := rfl
  refine opens_of_refuses hanswer hfresh ?_
  rw [requestFilter_matched hfresh.requestMeta hmatch]
  exact h.map fun d => d == .Stop

theorem opens_forwarded (hfresh : Fresh session s) (hmatch : g.matched s = .ok (some entry))
    {s' : St K Unit} (h : runHooks .request g.chain (enterRoute s entry) = (.ok .Continue, s'))
    (hsent : s'.session.sent = s.session.sent) :
    Opens g (.forwarded entry.conf.val) session s := by
  have hrun : g.requestFilter s = (.ok false, s') :=
    (requestFilter_matched hfresh.requestMeta hmatch).trans (Act.bind_of_ok h)
  refine ⟨_, step_request g s, ?_⟩
  rw [Gateway.settle_bind_pure, hrun]
  exact ⟨rfl, by rw [hsent, hfresh.session]⟩

end

/-- A verdict on the request, by the route the router finds for it. -/
structure Applies (g : Gateway K) (session : Session) (found : Option (RouteEntry K))
    (v : Verdict) : Prop where
  matched : g.router.matchRequest session.reqHeader.path (requestHost session.reqHeader) = .ok found
  route : v.route = found.map fun entry => entry.conf.val
  opens : ∀ s, Fresh session s → Opens g v session s

/-- **`request_filter` decides by the policy.** -/
theorem exists_verdict (hs : TreeSound K.tree accepts)
    (hrouter : Router.new K conf = .ok g.router)
    (hmain : g.middlewares = mainMiddlewares K conf.server) {session : Session}
    (hnew : session.finalWritten = false) :
    ∃ found v, Rules accepts g conf session v ∧ Applies g session found v := by
  obtain ⟨found, hfound, hroutes, hacl⟩ := matchRequest_routes hs hrouter session.reqHeader
  cases found with
  | none =>
    refine ⟨none, .notFound, .notFound hroutes, hfound, rfl, fun s hfresh => ?_⟩
    exact opens_notFound hnew hfresh (hfresh.matched.trans hfound)
  | some entry =>
    have hhooks := fun s (hfresh : Fresh session s) =>
      requestHooks_decide hmain hnew hfresh (hacl entry rfl)
    have hmatch : ∀ s, Fresh session s → g.matched s = .ok (some entry) := fun s hfresh =>
      hfresh.matched.trans hfound
    by_cases haddr : AddressAdmitted K entry.conf.val session.clientAddr
    · by_cases hlen : LengthAdmitted conf.server session.reqHeader
      · refine ⟨some entry, _, .forwarded hroutes haddr hlen, hfound, rfl, fun s hfresh => ?_⟩
        rcases hhooks s hfresh with ⟨hdenied, -⟩ | ⟨-, hlong, -⟩ | ⟨-, -, s', hrun, hsent⟩
        · exact absurd haddr hdenied
        · exact absurd hlen hlong
        · exact opens_forwarded hfresh (hmatch s hfresh) hrun hsent
      · refine ⟨some entry, _, .tooLarge hroutes haddr hlen, hfound, rfl, fun s hfresh => ?_⟩
        rcases hhooks s hfresh with ⟨hdenied, -⟩ | ⟨-, -, hrefuses⟩ | ⟨-, hfits, -⟩
        · exact absurd haddr hdenied
        · exact opens_refused hfresh (hmatch s hfresh) hrefuses
        · exact absurd hfits hlen
    · refine ⟨some entry, _, .forbidden hroutes haddr, hfound, rfl, fun s hfresh => ?_⟩
      rcases hhooks s hfresh with ⟨-, hrefuses⟩ | ⟨hadmitted, -⟩ | ⟨hadmitted, -⟩
      · exact opens_refused hfresh (hmatch s hfresh) hrefuses
      · exact absurd hadmitted haddr
      · exact absurd hadmitted haddr

/-! ## The rest of the run -/

/-- `upstream_peer` contacts the upstream that `RequestMeta` names. -/
theorem upstreamPeer_contacts {s : St K Unit} {rm : RequestMeta} {id : String}
    (hmeta : s.ctx.get .requestMeta = some rm)
    (h : .selectPeer id ∈ (g.upstreamPeer s).2.calls) :
    .selectPeer id ∈ s.calls ∨ rm.upstreamId = some id := by
  have hexp := ctxExpect_of_some (ε := PError) (s := s.log .upstreamPeer)
    "RequestMeta should exist" hmeta
  have hrun : ∀ f : RequestMeta → Act (St K Unit) PError HttpPeer, (logCall .upstreamPeer >>=
      fun _ => ctxExpect .requestMeta "RequestMeta should exist" >>= f) s =
        f rm (s.log .upstreamPeer) := fun f => (Act.bind_of_ok rfl).trans (Act.bind_of_ok hexp)
  have hrefused : ∀ e, ((respondError 500 >>= fun _ => Act.throw e :
      Act (St K Unit) PError HttpPeer) (s.log .upstreamPeer)).2.calls =
        s.calls ++ [.upstreamPeer] := by
    intro e
    obtain ⟨_, hse, -⟩ := write_cases (.error 500) (s.log .upstreamPeer)
    rw [Act.bind_frame_snd fun _ _ => rfl, respondError, hse]
    rfl
  unfold Gateway.upstreamPeer at h
  rw [hrun] at h
  cases hid : RequestMeta.upstreamId rm with
  | none =>
    simp only [hid, hrefused] at h
    exact .inl (by simpa using h)
  | some id' =>
    simp only [hid] at h
    cases hu : g.upstreams id' with
    | none =>
      simp only [hu, hrefused] at h
      exact .inl (by simpa using h)
    | some u =>
      simp only [hu] at h
      have hcalls := selectPeer_keeps (g := g) u
        (J := fun t => t.calls = ((s.log .upstreamPeer).log (.selectPeer id')).calls)
        (fun _ _ _ ht => ht) (fun _ _ _ ht => ht) ((s.log .upstreamPeer).log (.selectPeer id')) rfl
      have hmem : .selectPeer id ∈ s.calls ++ [.upstreamPeer] ++ [.selectPeer id'] :=
        (congrArg (.selectPeer id ∈ ·) hcalls).mp h
      rcases List.mem_append.1 hmem with hmem | hmem
      · exact .inl (by simpa using hmem)
      · obtain rfl : id = id' := by simpa using hmem
        exact .inr rfl

/-- What holds of a request at every moment, beside what `Follows` asks for. -/
structure Following (g : Gateway K) (session : Session) (v : Verdict) (c : Cfg K) : Prop where
  tracked : Tracked g c
  reqHeader : c.2.session.reqHeader = session.reqHeader
  fresh : ¬ c.1.Later → c.2.session = session
  closed : c.1.Later → Closed v session c
  contacts : ∀ id, .selectPeer id ∈ c.2.calls → v.upstream = some id

theorem following_start (g : Gateway K) (session : Session) (v : Verdict) :
    Following g session v (Gateway.start session) where
  tracked := tracked_start g session
  reqHeader := rfl
  fresh := fun _ => rfl
  closed := fun h => absurd rfl h.1
  contacts := nofun

theorem Opened.later {c : Cfg K} (h : Opened v session c) : c.1.Later := by
  unfold Opened at h
  split at h
  · rw [h.1]
    exact Stage.proxying_later
  · split at h
    · rw [h.1]
      exact Stage.Over.later trivial
    · obtain ⟨⟨e, he⟩, -⟩ := h
      rw [he]
      exact Stage.Over.later trivial

theorem Opened.closed {c : Cfg K} (h : Opened v session c) : Closed v session c := by
  intro code hv
  unfold Opened at h
  rw [hv] at h
  dsimp only at h
  split at h
  · rename_i hw
    rw [if_pos hw]
    exact ⟨.inl h.1, h.2⟩
  · rename_i hw
    obtain ⟨⟨e, he⟩, -⟩ := h
    rw [if_neg hw, he]
    exact ⟨trivial, by simp⟩

/-- A request that is refused makes no attempt. -/
theorem Closed.forwarded {c : Cfg K} (h : Closed v session c) (hc : c.1 = .proxying) :
    v.answer = none := by
  cases hv : v.answer with
  | none => rfl
  | some code =>
    have hclosed := h code hv
    rw [hc] at hclosed
    split at hclosed
    · simp at hclosed
    · exact hclosed.1.elim

/-- The phases that are left to a closed request keep it closed. -/
theorem closed_step (hmain : g.middlewares = mainMiddlewares K conf.server) {c c' : Cfg K}
    {p : Phase} (hc : Closed v session c) (h : g.step c p = some c') : Closed v session c' := by
  intro code hv
  have hclosed := hc code hv
  obtain ⟨x, hx, rfl⟩ := Gateway.step_eq_some.1 h
  obtain ⟨stage, s⟩ := c
  split at hclosed
  · rename_i hw
    rw [if_pos hw]
    obtain ⟨hstage | hstage, hsent⟩ := hclosed
    · obtain rfl : stage = .finish none := hstage
      cases Gateway.makes_of_phase g hx
      obtain ⟨calls, hrun⟩ := logging_main hmain none s
      rw [Gateway.settle_bind_pure, hrun]
      exact ⟨.inr rfl, hsent⟩
    · obtain rfl : stage = .done := hstage
      cases Gateway.makes_of_phase g hx
  · rename_i hw
    rw [if_neg hw]
    have hrule : ∀ {α : Type} (y : Act (St K Unit) PError α) (last : Stage),
        last.Over ∧ last ≠ .finish none →
          (settle ((y >>= fun _ => pure last) s)).1.Over ∧
            (settle ((y >>= fun _ => pure last) s)).1 ≠ .finish none := fun y last hlast =>
      Gateway.settle_rule (P := fun stage => stage.Over ∧ stage ≠ .finish none)
        (fun e => ⟨trivial, by simp⟩) (fun msg => ⟨trivial, by simp⟩) y _ s fun _ => hlast
    cases Gateway.makes_of_phase g hx
    case failToProxy e => exact hrule _ _ ⟨trivial, by simp⟩
    case logging e => exact hrule _ _ ⟨trivial, by simp⟩
    all_goals exact hclosed.1.elim

theorem step_reqHeader (hmain : g.middlewares = mainMiddlewares K conf.server) {c c' : Cfg K}
    {p : Phase} (hnone : c.2.metrics = []) (h : g.step c p = some c') :
    c'.2.session.reqHeader = c.2.session.reqHeader := by
  obtain ⟨x, hx, rfl⟩ := Gateway.step_eq_some.1 h
  obtain ⟨stage, s⟩ := c
  rw [Gateway.settle_snd]
  by_cases hp : p = .logging
  · subst hp
    cases Gateway.makes_of_phase g hx with
    | logging e =>
      obtain ⟨calls, hrun⟩ := logging_main hmain e s
      rw [Act.bind_pure_snd, hrun]
  · exact (phase_unrecorded hmain hx hp hnone).1

/-- Only `upstream_peer` contacts an upstream. -/
theorem step_uncontacted {c c' : Cfg K} {p : Phase} (hp : p ≠ .upstreamPeer)
    (h : g.step c p = some c') {id : String} (hid : .selectPeer id ∈ c'.2.calls) :
    .selectPeer id ∈ c.2.calls := by
  obtain ⟨x, hx, rfl⟩ := Gateway.step_eq_some.1 h
  rw [Gateway.settle_snd] at hid
  refine phase_keeps (J := fun s => .selectPeer id ∈ s.calls → .selectPeer id ∈ c.2.calls)
    (fun e he => ?_) hx c.2 (fun h => h) hid
  refine calls_stable (Q := fun l => .selectPeer id ∈ l → .selectPeer id ∈ c.2.calls)
    fun l call hlog hl hmem => ?_
  rcases List.mem_append.1 hmem with hmem | hmem
  · exact hl hmem
  · obtain rfl : .selectPeer id = call := by simpa using hmem
    obtain rfl : e = .peer := by
      cases e
      case peer => rfl
      all_goals exact False.elim hlog
    cases p
    case upstreamPeer => exact absurd rfl hp
    all_goals simp [Phase.effects] at he

section
variable {found : Option (RouteEntry K)} {c c' : Cfg K} {p : Phase}

theorem Following.routeOf (happ : Applies g session found v) (hc : Following g session v c) :
    g.routeOf c.2 = found := by
  unfold Gateway.routeOf Gateway.matched
  rw [hc.reqHeader, happ.matched]

theorem following_contacts (happ : Applies g session found v) (hc : Following g session v c)
    (h : g.step c p = some c') {id : String} (hid : .selectPeer id ∈ c'.2.calls) :
    v.upstream = some id := by
  by_cases hp : p = .upstreamPeer
  · subst hp
    obtain ⟨x, hx, rfl⟩ := Gateway.step_eq_some.1 h
    have hroute := hc.routeOf happ
    obtain ⟨stage, s⟩ := c
    cases Gateway.makes_of_phase g hx
    obtain ⟨rm, hget, -, hup⟩ := hc.tracked.routed trivial
    rw [Gateway.settle_snd, Act.bind_pure_snd] at hid
    rcases upstreamPeer_contacts hget hid with hid | hid
    · exact hc.contacts id hid
    · have hforwarded := (hc.closed Stage.proxying_later).forwarded rfl
      rw [Verdict.upstream_of_forwarded hforwarded, happ.route, Option.map_map, ← hid, hup, hroute]
      rfl
  · exact hc.contacts id (step_uncontacted hp h hid)

theorem following_phase (hmain : g.middlewares = mainMiddlewares K conf.server)
    (happ : Applies g session found v) (hc : Following g session v c) (h : g.step c p = some c') :
    Following g session v c' := by
  have hserve : g.serve c (.phase p) = some c' := h
  have htracked := tracked_step hmain hc.tracked hserve
  have hheader := (step_reqHeader hmain (hc.tracked.unrecorded hserve) h).trans hc.reqHeader
  have hcontacts : ∀ id, .selectPeer id ∈ c'.2.calls → v.upstream = some id := fun id hid =>
    following_contacts happ hc h hid
  by_cases hlater : c.1.Later
  · obtain ⟨-, hlater'⟩ := step_later hlater h
    exact ⟨htracked, hheader, fun hno => absurd hlater' hno,
      fun _ => closed_step hmain (hc.closed hlater) h, hcontacts⟩
  · have hsession := hc.fresh hlater
    obtain ⟨stage, s⟩ := c
    cases stage with
    | early =>
      obtain rfl : p = .earlyRequestFilter := by
        obtain ⟨x, hx, -⟩ := Gateway.step_eq_some.1 h
        cases Gateway.makes_of_phase g hx
        rfl
      rw [step_early hmain] at h
      obtain rfl := Option.some.inj h
      exact ⟨htracked, hheader, fun _ => hsession, fun hlater' => absurd rfl hlater'.2,
        hcontacts⟩
    | request =>
      obtain rfl : p = .requestFilter := by
        obtain ⟨x, hx, -⟩ := Gateway.step_eq_some.1 h
        cases Gateway.makes_of_phase g hx
        rfl
      have hfresh : Fresh session s := ⟨hsession, hc.tracked.unrouted (.inr rfl)⟩
      obtain ⟨c1, hstep, hopened⟩ := happ.opens s hfresh
      obtain rfl : c1 = c' := Option.some.inj (hstep.symm.trans h)
      exact ⟨htracked, hheader, fun hno => absurd hopened.later hno, fun _ => hopened.closed,
        hcontacts⟩
    | proxying | failed | finish | done | crashed => exact absurd (by simp [Stage.Later]) hlater

theorem following_step (hmain : g.middlewares = mainMiddlewares K conf.server)
    (happ : Applies g session found v) (hc : Following g session v c) {ev : Event}
    (h : g.serve c ev = some c') : Following g session v c' := by
  cases ev with
  | phase p => exact following_phase hmain happ hc h
  | respond status =>
    have htracked := tracked_step hmain hc.tracked h
    obtain ⟨stage, s⟩ := c
    obtain ⟨rfl, -, rfl⟩ := Gateway.serve_respond.1 h
    exact ⟨htracked, hc.reqHeader, fun hno => absurd Stage.proxying_later hno, hc.closed,
      hc.contacts⟩

theorem Following.follows (happ : Applies g session found v) (hc : Following g session v c) :
    Follows g session v c where
  opens := fun hrequest => by
    obtain ⟨stage, s⟩ := c
    obtain rfl : stage = .request := hrequest
    exact happ.opens s ⟨hc.fresh fun hlater => hlater.2 rfl, hc.tracked.unrouted (.inr rfl)⟩
  closed := hc.closed
  contacts := hc.contacts
  recorded := by
    intro l hl
    have hroute := hc.routeOf happ
    rw [hc.tracked.recorded] at hl
    split at hl
    · obtain rfl := List.mem_singleton.1 hl
      rw [happ.route]
      simp [Gateway.labelsFor, hroute, Function.comp_def]
    · cases hl

end

/-! ## Every request of the process -/

/-- **The gateway enforces the policy.** However the events of any number of requests are
interleaved, the request at any index is treated as the policy of the configuration says of the
session it came in with. -/
theorem policy_enforced (hs : TreeSound K.tree accepts) {conf : GatewayConf} {g : Gateway K}
    (hstart : mainGateway K conf = .ok g) {r : Counters} {ms : List (Tasks.Move Session Event)}
    (hnew : ∀ session ∈ Tasks.System.spawned ms, session.finalWritten = false)
    {s : Tasks.State Counters (Cfg K)} (hrun : g.server.run r ms = some s) {i : Nat} {c : Cfg K}
    (hc : s.tasks[i]? = some c) :
    ∃ session v, (Tasks.System.spawned ms)[i]? = some session ∧
      Rules accepts g conf session v ∧ Follows g session v c := by
  obtain ⟨-, hrouter, hmain⟩ := mainGateway_ok hstart
  have hseparate : g.server.Separate g.serve ms s :=
    Tasks.System.separate (fun r c ev r' c' hact => by
      obtain ⟨c1, hserve, heq⟩ := Option.map_eq_some_iff.1 hact
      obtain ⟨-, rfl⟩ := Prod.mk.inj heq
      exact hserve) hrun
  obtain ⟨session, hsession, halone⟩ := hseparate.alone i c hc
  obtain ⟨found, v, hrules, happ⟩ :=
    exists_verdict hs hrouter hmain (hnew session (List.mem_of_getElem? hsession))
  have hfollowing : Following g session v c :=
    Trace.run_always (fun c ev c' hc h => following_step hmain happ hc h)
      (following_start g session v) halone
  exact ⟨session, v, hsession, hrules, hfollowing.follows happ⟩

/-- A request that the list of its route denies and one without a route, interleaved. -/
def turnedAway : List (Tasks.Move Session Event) :=
  [.spawn (getRequest "/"), .spawn (getRequest "/missing"),
   .act 1 (.phase .earlyRequestFilter), .act 0 (.phase .earlyRequestFilter),
   .act 0 (.phase .requestFilter), .act 1 (.phase .requestFilter),
   .act 1 (.phase .logging), .act 0 (.phase .logging)]

theorem policy_enforced_denied :
    ∃ s c, loopbackDeniedGateway.server.run (fun _ => 0) turnedAway = some s ∧
      s.tasks[0]? = some c ∧ c.1 = .done ∧ c.2.session.sent = [.error 403] ∧
      ∃ session v, (Tasks.System.spawned turnedAway)[0]? = some session ∧
        Rules Template.accepts loopbackDeniedGateway loopbackDeniedConf session v ∧
        Follows loopbackDeniedGateway session v c := by
  have hfirst : (loopbackDeniedGateway.server.run (fun _ => 0) turnedAway).bind
      (fun s => s.tasks[0]?.map fun c => (c.1, c.2.session.sent)) = some (.done, [.error 403]) := by
    decide +kernel
  obtain ⟨s, hrun, hs⟩ := Option.bind_eq_some_iff.1 hfirst
  obtain ⟨c, hc, heq⟩ := Option.map_eq_some_iff.1 hs
  obtain ⟨hdone, hsent⟩ := Prod.mk.inj heq
  have hstart : mainGateway refCrates loopbackDeniedConf = .ok loopbackDeniedGateway := rfl
  have hnew : ∀ session ∈ Tasks.System.spawned turnedAway, session.finalWritten = false := by
    intro session hmem
    obtain rfl | rfl : session = getRequest "/" ∨ session = getRequest "/missing" := by
      simpa [Tasks.System.spawned, turnedAway] using hmem
    · rfl
    · rfl
  exact ⟨s, c, hrun, hc, hdone, hsent,
    policy_enforced Template.refTree_spec.sound hstart hnew hrun hc⟩

end PingoraGuide
