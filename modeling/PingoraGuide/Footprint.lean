import PingoraGuide.PhaseSpecs
/-!
# The footprint of a phase

`Phase.effects` lists everything a phase can do to the state of a request. A property of the state
that every effect of a phase keeps is kept by the phase (`phase_keeps`), and by a run whose phases
all have such footprints (`run_stable`). Statements about runs below only argue about effects.

| here | meaning |
| --- | --- |
| `Effect`          | one thing a phase does: call hooks, write to the client, touch the context, log a call |
| `Gateway.Stable`  | the effect keeps a property of the state |
| `Phase.Later`     | a phase that follows `request_filter` |
-/
namespace PingoraGuide
open Fallible Wire

variable {K : Crates} {β ε : Type}

inductive Effect where
  | hook (k : HookKind)
  | write
  /-- the counters of uuids and of load-balancer answers move on -/
  | counters
  /-- `request_filter` writes the request id and the matched route to the context -/
  | enter
  /-- `select_peer` writes the chosen address and its SNI to `RequestMeta` -/
  | record
  | peer
  | lookup
  | fail
deriving DecidableEq, Repr

def Phase.effects : Phase → List Effect
  | .earlyRequestFilter => [.hook .earlyRequest]
  | .requestFilter => [.counters, .enter, .write, .hook .request]
  | .upstreamPeer => [.peer, .write, .counters, .record]
  | .connectedToUpstream _ => [.hook .upstreamConnected]
  | .upstreamRequestFilter _ => [.hook .upstreamRequest, .lookup]
  | .requestBodyFilter _ _ => [.hook .requestBody]
  | .upstreamResponseFilter _ => [.hook .upstreamResponse, .lookup]
  | .responseFilter _ => [.hook .response, .lookup]
  | .responseBodyFilter _ _ => [.hook .responseBody]
  | .proxyError _ | .proxied => []
  | .failToProxy => [.hook .error, .lookup, .write, .fail]
  | .logging => [.hook .logging]

/-- The state without the message of the phase. -/
def St.bare (s : St K β) : St K Unit := ⟨s.session, s.ctx, (), s.metrics, s.calls⟩

@[simp] theorem bare_unit (s : St K Unit) : s.bare = s := rfl

/-- The state with one more call logged. -/
def St.log (s : St K β) (c : Call) : St K β := { s with calls := s.calls ++ [c] }

@[simp] theorem log_calls (s : St K β) (c : Call) : (s.log c).calls = s.calls ++ [c] := rfl
@[simp] theorem log_ctx (s : St K β) (c : Call) : (s.log c).ctx = s.ctx := rfl
@[simp] theorem log_session (s : St K β) (c : Call) : (s.log c).session = s.session := rfl

/-- `J` survives the effect. -/
def Gateway.Stable (g : Gateway K) (J : St K Unit → Prop) : Effect → Prop
  | .hook k => ∀ {β : Type} (c : HookCall β), c.kind = k → ∀ m ∈ g.chain,
      Act.Keeps (fun s : St K β => J s.bare) (callHook c m)
  | .write => ∀ ev, Act.Keeps J (PingoraGuide.write ev)
  | .counters => ∀ s u n, J s → J { s with session := { s.session with uuids := u, selects := n } }
  | .enter => ∀ s, J s → J (openRequest s) ∧ ∀ entry, J (enterRoute s entry)
  | .record => ∀ addr sni, Act.Keeps J (recordPeer addr sni)
  | .peer => ∀ s, J s → J (s.log .upstreamPeer) ∧ ∀ id, J (s.log (.selectPeer id))
  | .lookup => ∀ s, J s → J (s.log (.routeLookup (s.ctx.get .routeConf)))
  | .fail => ∀ s code, J s → J (s.log (.failToProxy code))

/-! ## Pieces of the phases -/

theorem runHooks_keeps {I : St K β → Prop} {c : HookCall β} {ms : List (Middleware K × Nat)}
    (h : ∀ m ∈ ms, Act.Keeps I (callHook c m)) : Act.Keeps I (runHooks c ms) := by
  refine Act.Keeps.untilStop fun x hx => ?_
  obtain ⟨m, hm, rfl⟩ := List.mem_map.1 hx
  exact h m hm

theorem runHooksLenient_keeps {I : St K β → Prop} {c : HookCall β}
    {ms : List (Middleware K × Nat)} (h : ∀ m ∈ ms, Act.Keeps I (callHook c m)) :
    Act.Keeps I (runHooksLenient c ms) := by
  refine Act.Keeps.untilStop fun x hx => ?_
  obtain ⟨m, hm, rfl⟩ := List.mem_map.1 hx
  exact (h m hm).unwrapOr

theorem withMsg_keeps {J : St K Unit → Prop} {m : β} {α : Type} {x : Act (St K β) ε α}
    (h : Act.Keeps (fun s : St K β => J s.bare) x) : Act.Keeps J (withMsg m x) :=
  fun s hs => h ⟨s.session, s.ctx, m, s.metrics, s.calls⟩ hs

theorem ctxExpect_keeps {I : St K β → Prop} {t : CtxType K} {msg : String} :
    Act.Keeps I (ctxExpect t msg : Act (St K β) ε _) := fun _ h => h

section
variable {g : Gateway K} {J : St K Unit → Prop}

theorem Gateway.Stable.chain {c : HookCall β} (h : g.Stable J (.hook c.kind)) :
    Act.Keeps (fun s : St K β => J s.bare) (runHooks c g.chain) :=
  runHooks_keeps (h c rfl)

theorem Gateway.Stable.reverse {c : HookCall β} (h : g.Stable J (.hook c.kind)) :
    Act.Keeps (fun s : St K β => J s.bare) (runHooks c g.chain.reverse) :=
  runHooks_keeps fun m hm => h c rfl m (by simpa using hm)

theorem Gateway.Stable.lenient {c : HookCall β} (h : g.Stable J (.hook c.kind)) :
    Act.Keeps (fun s : St K β => J s.bare) (runHooksLenient c g.chain.reverse) :=
  runHooksLenient_keeps fun m hm => h c rfl m (by simpa using hm)

theorem getRouteConf_keeps (h : g.Stable J .lookup) :
    Act.Keeps (fun s : St K β => J s.bare) (getRouteConf : Act (St K β) ε _) :=
  fun s hs => h s.bare hs

theorem expectRouteConf_keeps (h : g.Stable J .lookup) :
    Act.Keeps (fun s : St K β => J s.bare) (expectRouteConf : Act (St K β) ε _) :=
  (getRouteConf_keeps h).bind fun _ => .ofRes _

theorem respondError_keeps {code : Nat} (h : g.Stable J .write) :
    Act.Keeps J (respondError code) := h _

/-! ## The phases -/

theorem earlyRequestFilter_keeps (h : g.Stable J (.hook .earlyRequest)) :
    Act.Keeps J g.earlyRequestFilter :=
  (Gateway.Stable.chain (c := .earlyRequest) h).bind fun _ => .pure _

theorem requestFilter_keeps (hc : g.Stable J .counters) (he : g.Stable J .enter)
    (hw : g.Stable J .write) (hh : g.Stable J (.hook .request)) : Act.Keeps J g.requestFilter := by
  intro s hs
  cases hmeta : s.ctx.get .requestMeta with
  | none =>
    rw [requestFilter_panics hmeta]
    exact hc s (s.session.uuids + 1) s.session.selects hs
  | some rm =>
    obtain ⟨ho, hr⟩ := he s hs
    rw [requestFilter_run hmeta]
    rcases hm : g.matched s with (_ | entry) | e | msg
    · exact (Act.Keeps.bind (respondError_keeps hw) fun _ => .pure _) _ ho
    · exact (Act.Keeps.bind (Gateway.Stable.chain (c := .request) hh) fun _ => .pure _) _ (hr entry)
    · exact ho
    · exact ho

theorem newUuid_keeps (hc : g.Stable J .counters) :
    Act.Keeps J (newUuid : Act (St K Unit) ε _) :=
  fun s hs => hc s (s.session.uuids + 1) s.session.selects hs

theorem hashKey_keeps (c : LoadBalancerCluster) (hc : g.Stable J .counters) :
    Act.Keeps J (c.hashKey (K := K)) := by
  refine Act.Keeps.get.bind fun s => ?_
  cases c.hashSource with
  | None => exact .pure _
  | ClientIp =>
    rcases s.session.clientAddr with _ | ⟨ip, port⟩ | path
    · exact .pure _
    · exact .pure _
    · exact newUuid_keeps hc
  | Cookie name => cases headerText s.session.reqHeader "Cookie" <;> exact .pure _
  | Uri => exact .pure _
  | Header name => exact .pure _

theorem selectPeer_keeps (u : Upstream) (hc : g.Stable J .counters) (hr : g.Stable J .record) :
    Act.Keeps J (u.selectPeer (K := K)) := by
  cases u with
  | cluster c =>
    refine (hashKey_keeps c hc).bind fun key => Act.Keeps.bind ?_ fun found => ?_
    · exact fun s hs => hc s s.session.uuids (s.session.selects + 1) hs
    · cases found with
      | none => exact .throw _
      | some b => exact (hr _ _).bind fun _ => (Act.Keeps.ofRes _).bind fun _ => .pure _
  | static u => exact (Act.Keeps.ofRes _).bind fun _ => (hr _ _).bind fun _ => .pure _

theorem upstreamPeer_keeps (hp : g.Stable J .peer) (hw : g.Stable J .write)
    (hc : g.Stable J .counters) (hr : g.Stable J .record) : Act.Keeps J g.upstreamPeer := by
  refine Act.Keeps.bind (fun s hs => (hp s hs).1) fun _ => ctxExpect_keeps.bind fun rm => ?_
  cases RequestMeta.upstreamId rm with
  | none => exact (respondError_keeps hw).bind fun _ => .throw _
  | some id =>
    dsimp only
    cases g.upstreams id with
    | none => exact (respondError_keeps hw).bind fun _ => .throw _
    | some u => exact Act.Keeps.bind (fun s hs => (hp s hs).2 id) fun _ => (selectPeer_keeps u hc hr).mapErr

theorem serveErrorPage_keeps (code : Nat) (hl : g.Stable J .lookup) (hw : g.Stable J .write) :
    Act.Keeps J (serveErrorPage code : Act (St K Unit) PError Bool) := by
  refine (getRouteConf_keeps (β := Unit) hl).bind fun route => ?_
  rcases route with _ | route
  · exact .pure _
  dsimp only
  rcases route.errorPages.bind fun pages => pages.get code with _ | path
  · exact .pure _
  dsimp only
  rcases K.fsRead path with _ | content
  · exact .pure _
  refine (hw _).attempt.bind fun written => ?_
  cases written with
  | error e => exact .pure _
  | ok u => exact (hw _).attempt.bind fun _ => .pure _

theorem respondUnless_keeps (served : Bool) (code : Nat) (hw : g.Stable J .write) :
    Act.Keeps J (respondUnless served code : Act (St K Unit) PError Unit) :=
  (Act.Keeps.pure _).ite ((respondError_keeps hw).attempt.bind fun _ => .pure _)

theorem failToProxy_keeps (e : PError) (hh : g.Stable J (.hook .error)) (hl : g.Stable J .lookup)
    (hw : g.Stable J .write) (hf : g.Stable J .fail) : Act.Keeps J (g.failToProxy e) := by
  refine (Gateway.Stable.lenient (c := .error e) hh).bind fun d => Act.Keeps.ite ?_ ?_
  · exact Act.Keeps.bind (fun s hs => hf s 0 hs) fun _ => .pure _
  · refine (serveErrorPage_keeps _ hl hw).bind fun served => ?_
    refine (respondUnless_keeps served _ hw).bind fun _ => ?_
    exact Act.Keeps.bind (fun s hs => hf s _ hs) fun _ => .pure _

/-- **A phase keeps what its effects keep.** -/
theorem phase_keeps {stage : Stage} {p : Phase} {x : Act (St K Unit) PError Stage}
    (h : ∀ e ∈ p.effects, g.Stable J e) (hx : g.phase stage p = some x) : Act.Keeps J x := by
  cases Gateway.makes_of_phase g hx <;> simp only [Phase.effects, List.forall_mem_cons] at h
  case earlyRequestFilter => exact (earlyRequestFilter_keeps h.1).bind fun _ => .pure _
  case requestFilter =>
    obtain ⟨hc, he, hw, hh, -⟩ := h
    exact (requestFilter_keeps hc he hw hh).bind fun _ => .pure _
  case upstreamPeer =>
    obtain ⟨hp, hw, hc, hr, -⟩ := h
    exact (upstreamPeer_keeps hp hw hc hr).bind fun _ => .pure _
  case connectedToUpstream c =>
    refine Act.Keeps.bind ?_ fun _ => .pure _
    exact (Gateway.Stable.chain (c := .upstreamConnected c) h.1).bind fun d =>
      Act.Keeps.ite (.throw _) (.pure _)
  case upstreamRequestFilter req =>
    refine (withMsg_keeps ?_).bind fun _ => .pure _
    refine (Gateway.Stable.chain (c := .upstreamRequest) h.1).bind fun d => Act.Keeps.ite (.throw _) ?_
    refine (expectRouteConf_keeps h.2.1).bind fun route => ctxExpect_keeps.bind fun rm => ?_
    exact Act.Keeps.zoom fun s hs => hs
  case requestBodyFilter body eos =>
    refine (withMsg_keeps ?_).bind fun _ => .pure _
    exact (Gateway.Stable.chain (c := .requestBody eos) h.1).bind fun d =>
      Act.Keeps.ite (.throw _) (.pure _)
  case upstreamResponseFilter resp =>
    refine (withMsg_keeps ?_).bind fun _ => .pure _
    refine (Gateway.Stable.reverse (c := .upstreamResponse) h.1).bind fun d =>
      Act.Keeps.ite (.throw _) ?_
    exact (expectRouteConf_keeps h.2.1).bind fun route => Act.Keeps.zoom fun s hs => hs
  case responseFilter resp =>
    refine (withMsg_keeps ?_).bind fun _ => .pure _
    refine (Gateway.Stable.reverse (c := .response) h.1).bind fun d => Act.Keeps.ite (.throw _) ?_
    exact (expectRouteConf_keeps h.2.1).bind fun route => Act.Keeps.zoom fun s hs => hs
  case responseBodyFilter body eos =>
    refine (withMsg_keeps ?_).bind fun _ => .pure _
    exact (Gateway.Stable.reverse (c := .responseBody eos) h.1).bind fun d =>
      Act.Keeps.ite (.throw _) (.pure _)
  case proxyError e => exact .throw e
  case proxied => exact .pure _
  case failToProxy e =>
    obtain ⟨hh, hl, hw, hf, -⟩ := h
    exact (failToProxy_keeps e hh hl hw hf).bind fun _ => .pure _
  case logging e =>
    refine Act.Keeps.bind ?_ fun _ => .pure _
    exact (Gateway.Stable.lenient (c := .logging e) h.1).bind fun _ => .pure _

/-! ## Runs -/

/-- **A run keeps what the effects of its phases keep.** -/
theorem run_stable {ps : List Phase} {c c' : Cfg K}
    (hp : ∀ p ∈ ps, ∀ e ∈ p.effects, g.Stable J e) (hc : J c.2) (h : g.run c ps = some c') :
    J c'.2 := by
  refine Trace.run_keeps (I := fun c => J c.2) ?_ hc (.of_labels hp) h
  intro c p c' hI hstable hs
  obtain ⟨x, hx, rfl⟩ := Gateway.step_eq_some.1 hs
  rw [Gateway.settle_snd]
  exact phase_keeps hstable hx c.2 hI

/-- The same with responses of Pingora in between. -/
theorem serve_stable {evs : List Event} {c c' : Cfg K}
    (hp : ∀ p, .phase p ∈ evs → ∀ e ∈ p.effects, g.Stable J e)
    (hrespond : ∀ s status, J s → J (s.responded status)) (hc : J c.2)
    (h : Trace.run g.serve c evs = some c') : J c'.2 := by
  have hguard : Trace.Guarded g.serve
      (fun _ ev => ∀ p, ev = .phase p → ∀ e ∈ p.effects, g.Stable J e) c evs :=
    .of_labels fun ev hev p heq => hp p (heq ▸ hev)
  refine Trace.run_keeps (I := fun c => J c.2) ?_ hc hguard h
  intro c ev c' hI hstable hs
  cases ev with
  | respond status =>
    obtain ⟨-, -, rfl⟩ := Gateway.serve_respond.1 hs
    exact hrespond c.2 status hI
  | phase p =>
    obtain ⟨x, hx, rfl⟩ := Gateway.step_eq_some.1 hs
    rw [Gateway.settle_snd]
    exact phase_keeps (hstable p rfl) hx c.2 hI

/-! ## Two kinds of properties -/

/-- A property of the context is touched by hooks, by the route entered and by `select_peer`. -/
theorem ctx_stable {P : GatewayContext (CtxVal K) → Prop}
    (hhook : ∀ {β : Type} (c : HookCall β), ∀ m ∈ g.middlewares, ∀ s : St K β,
      P s.ctx → P (m.hook c s).2.ctx)
    (hrecord : ∀ (ctx : GatewayContext (CtxVal K)) addr sni, P ctx → P (ctx.modify .requestMeta
      fun (rm : RequestMeta) => { rm with peerAddr := some addr, sni := some sni }))
    (e : Effect) (he : e ≠ .enter) : g.Stable (fun s => P s.ctx) e := by
  cases e with
  | hook k => exact fun c _ m hm s hs => hhook c m.1 (List.fst_mem_of_mem_zipIdx hm) s hs
  | write => exact write_keeps fun _ _ _ hs => hs
  | enter => exact absurd rfl he
  | record => exact fun addr sni s hs => hrecord s.ctx addr sni hs
  | counters => exact fun _ _ _ hs => hs
  | peer => exact fun _ hs => ⟨hs, fun _ => hs⟩
  | lookup => exact fun _ hs => hs
  | fail => exact fun _ _ hs => hs

/-- The calls an effect logs. -/
def Effect.Logs (e : Effect) (c : Call) : Prop :=
  match e, c with
  | .hook k, .hook k' _ _ => k' = k
  | .peer, .upstreamPeer | .peer, .selectPeer _ => True
  | .lookup, .routeLookup _ => True
  | .fail, .failToProxy _ => True
  | _, _ => False

/-- A property of the log is touched by the calls the effect logs, each appended at the end. -/
theorem calls_stable {Q : List Call → Prop} {e : Effect}
    (h : ∀ l c, e.Logs c → Q l → Q (l ++ [c])) : g.Stable (fun s => Q s.calls) e := by
  cases e with
  | hook k => exact fun c hk m _ s hs => h _ _ hk hs
  | write => exact write_keeps fun _ _ _ hs => hs
  | enter => exact fun _ hs => ⟨hs, fun _ => hs⟩
  | record => exact fun _ _ _ hs => hs
  | counters => exact fun _ _ _ hs => hs
  | peer => exact fun _ hs => ⟨h _ _ trivial hs, fun _ => h _ _ trivial hs⟩
  | lookup => exact fun _ hs => h _ _ trivial hs
  | fail => exact fun _ _ hs => h _ _ trivial hs

/-- The hooks of `main` around a request keep what does not look at metrics and calls. -/
theorem quietHook_stable {conf : ServerConf} (hmain : g.middlewares = mainMiddlewares K conf)
    (hJ : ∀ s metrics calls, J s → J { s with metrics := metrics, calls := calls }) {k : HookKind}
    (hk : k ≠ .request ∧ k ≠ .requestBody) : g.Stable J (.hook k) := by
  rintro β c rfl m hm s hs
  obtain ⟨l, hl⟩ := main_hook_metrics (hmain ▸ List.fst_mem_of_mem_zipIdx hm) hk s
  have hrun : (callHook c m s).2.bare = { s.bare with
      metrics := l, calls := s.calls ++ [.hook c.kind m.2 (m.1.hook c s).1] } := by
    show (logged c m.2 s (m.1.hook c s)).bare = _
    unfold logged
    rw [hl]
    rfl
  exact hrun ▸ hJ s.bare _ _ hs

/-! ## Later phases -/

/-- A phase that follows `request_filter`. -/
def Phase.Later (p : Phase) : Prop := p ≠ .earlyRequestFilter ∧ p ≠ .requestFilter

theorem step_later {c c' : Cfg K} {p : Phase} (hc : c.1.Later) (h : g.step c p = some c') :
    p.Later ∧ c'.1.Later := by
  obtain ⟨x, hx, rfl⟩ := Gateway.step_eq_some.1 h
  have hdone : ∀ {α : Type} (y : Act (St K Unit) PError α) (f : α → Stage), (∀ a, (f a).Later) →
      (settle ((y >>= fun a => pure (f a)) c.2)).1.Later := by
    refine fun y f hf => Gateway.settle_rule ?_ ?_ y f c.2 hf
    · exact fun e => Stage.Over.later trivial
    · exact fun msg => Stage.Over.later trivial
  obtain ⟨stage, s⟩ := c
  cases Gateway.makes_of_phase g hx
  case earlyRequestFilter => exact absurd rfl hc.1
  case requestFilter => exact absurd rfl hc.2
  all_goals refine ⟨by simp [Phase.Later], ?_⟩
  case proxyError | proxied => exact Stage.Over.later trivial
  case failToProxy | logging => exact hdone _ _ fun _ => Stage.Over.later trivial
  all_goals exact hdone _ _ fun _ => Stage.proxying_later

theorem Phase.Later.effects {p : Phase} (hp : p.Later) :
    ∀ e ∈ p.effects, e ≠ .enter ∧ e ≠ .hook .earlyRequest ∧ e ≠ .hook .request := by
  cases p <;> simp_all [Phase.Later, Phase.effects]

end

end PingoraGuide
