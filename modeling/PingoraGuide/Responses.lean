import PingoraGuide.Coherence
/-!
# One response per request

The gateway answers a request itself at seven places. Two of them then return `Err`, after which
`fail_to_proxy` is to answer as well: `upstream_peer` with an upstream that is not configured, and
`request_body_filter` with a body that is too large. The session drops that second answer, so one
response goes out; but `fail_to_proxy` returns the status it would have sent, 500, and only the
first of the two sent 500. A run in which no 413 goes out for a body (`SafeRun`) has at most one
response, and `fail_to_proxy` returns its status (`one_response`).
-/
namespace PingoraGuide
open Fallible Wire

variable {K : Crates} {β : Type} {ε : Type}

/-- The statuses of the responses started so far. -/
def responses (s : St K β) : List Nat := s.session.sent.filterMap Sent.status

/-- Every `fail_to_proxy` returned an `error_code` with this property. -/
def Failures (P : Nat → Prop) (calls : List Call) : Prop :=
  ∀ code, .failToProxy code ∈ calls → P code

def NoFailure : List Call → Prop := Failures fun _ => False

/-- At most one response, and `fail_to_proxy` returned its status. -/
def OneResponse (s : St K Unit) : Prop :=
  (responses s).length ≤ 1 ∧ Failures (fun code => ∀ status ∈ responses s, status = code) s.calls

/-- No chunk takes the body to the limit, unless its 413 would not go out: a final response was
started before, or the client does not take it. -/
def SafeStep (maxBytes : Nat) (s : St K Unit) : Event → Prop
  | .phase (.requestBodyFilter (some b) _) => ∀ n, s.ctx.get .requestSizeState = some ⟨n⟩ →
      n + b.length ≥ maxBytes → s.session.delivers (.error 413) = false
  | _ => True

/-- Every event of the run is safe where it happens. -/
def SafeRun (g : Gateway K) (maxBytes : Nat) (c : Cfg K) (evs : List Event) : Prop :=
  Trace.Guarded g.serve (fun c ev => SafeStep maxBytes c.2 ev) c evs

/-! ## Answers -/

theorem unanswered_le {s : St K β} (hs : responses s = []) : (responses s).length ≤ 1 := by
  simp [hs]

/-- A write leaves one response more, if it goes out. -/
theorem write_responses (ev : Sent) (s : St K β) :
    responses (write ev s).2 =
      responses s ++ if s.session.delivers ev then ev.status.toList else [] := by
  unfold responses
  show (s.session.after ev).sent.filterMap Sent.status = _
  rcases s.session.after_cases ev with ⟨hd, -, hsent, -⟩ | ⟨hd, hsent, -⟩ <;> rw [hd, hsent]
  · rw [List.filterMap_append, if_pos rfl]
    cases h : ev.status <;> simp [h]
  · simp

/-- A write that does not go out leaves none. -/
theorem write_withheld {ev : Sent} {s : St K β} (h : s.session.delivers ev = false) :
    responses (write ev s).2 = responses s := by
  rw [write_responses, h]
  simp

/-- One that starts a response leaves at most that one, and none when it fails. -/
theorem write_answers (ev : Sent) {s : St K β} (hs : responses s = []) :
    (responses (write ev s).2).length ≤ 1 ∧
      ((write ev s).1 ≠ .ok () → responses (write ev s).2 = []) := by
  rw [write_responses, hs, List.nil_append]
  constructor
  · split
    · cases ev.status <;> simp
    · simp
  · intro hne
    have htakes : s.session.takes ev = false := by
      by_contra h
      exact hne (by simp [write, Bool.eq_true_of_not_eq_false h])
    have hwithheld : s.session.delivers ev = false := by
      unfold Session.takes at htakes
      unfold Session.delivers
      rw [(Bool.or_eq_false_iff.1 htakes).2, Bool.and_false]
    rw [hwithheld]
    rfl

/-- From no response: at most one, and none unless the call ends with `Stop`. -/
def Answers (x : Act (St K β) ε MiddlewareDecision) : Prop :=
  ∀ s, responses s = [] → (responses (x s).2).length ≤ 1 ∧
    ((x s).1 ≠ .ok .Stop → responses (x s).2 = [])

theorem Answers.of_keeps {x : Act (St K β) ε MiddlewareDecision}
    (h : Act.Keeps (fun s => responses s = []) x) : Answers x := by
  intro s hs
  have := h s hs
  exact ⟨unanswered_le this, fun _ => this⟩

theorem Answers.bind {α : Type} {x : Act (St K β) ε α} {f : α → Act (St K β) ε MiddlewareDecision}
    (hx : Act.Keeps (fun s => responses s = []) x) (hf : ∀ a, Answers (f a)) : Answers (x >>= f) := by
  intro s hs
  have hx' := hx s hs
  rcases Act.bind_cases x f s with ⟨a, s', h, h'⟩ | ⟨e, s', h, h'⟩ | ⟨m, s', h, h'⟩ <;>
    rw [h] at hx' <;> rw [h']
  · exact hf a s' hx'
  · exact ⟨unanswered_le hx', fun _ => hx'⟩
  · exact ⟨unanswered_le hx', fun _ => hx'⟩

/-- An answer, then `Stop`. -/
theorem Answers.stop {code : Nat} {f : PError → PingoraGuideError} :
    Answers ((respondError code).mapErr f >>= fun _ => pure .Stop : Hook β K) := by
  intro s hs
  obtain ⟨hlen, hfails⟩ := write_answers (.error code) hs
  rw [Act.bind_pure_snd]
  refine ⟨hlen, fun hne => hfails fun hok => hne ?_⟩
  exact (Act.bind_pure_fst _ (fun _ => MiddlewareDecision.Stop) s _).2
    ⟨(), Res.mapErr_eq_ok.2 hok, rfl⟩

/-- No hook of `main` answers a request that it then lets go on. -/
theorem main_hook_answers {conf : ServerConf} {m : Middleware K}
    (hm : m ∈ mainMiddlewares K conf) (c : HookCall β) : Answers (m.hook c) := by
  refine HookRule.main (R := fun x => Answers x) ?_ hm c
  constructor
  case toUnloggedRule =>
    constructor
    case pure => exact fun _ => .of_keeps (.pure _)
    case stop => exact fun _ _ => .stop
    case get => exact fun h => .bind .get h
    case ctxGet => exact fun _ _ h => .bind (fun _ hs => hs) h
    case expectSize => exact fun h => .bind (fun _ hs => hs) h
    case insertSize => exact fun h => .bind (fun _ hs => hs) fun _ => h
    case modifySize => exact fun _ _ h => .bind (fun _ hs => hs) fun _ => h
  case record => exact fun _ _ h => .bind (fun _ hs => hs) fun _ => h

/-- A loop over such hooks is one such call. -/
theorem runHooks_answers {c : HookCall β} {ms : List (Middleware K × Nat)}
    (h : ∀ m ∈ ms, Answers (m.1.hook c)) : Answers (runHooks c ms) := by
  induction ms with
  | nil => exact .of_keeps (.pure _)
  | cons m ms ih =>
    intro s hs
    obtain ⟨hlen, hgo⟩ := h m (by simp) s hs
    rcases hr : (m.1.hook c s).1 with (_ | _) | e | msg
    · rw [runHooks_continue hr]
      exact ih (fun x hx => h x (by simp [hx])) _ (hgo (by simp [hr]))
    · rw [runHooks_stop hr]
      exact ⟨hlen, fun hne => absurd rfl hne⟩
    · rw [runHooks_err hr]
      exact ⟨hlen, fun _ => hgo (by simp [hr])⟩
    · rw [runHooks_panic hr]
      exact ⟨hlen, fun _ => hgo (by simp [hr])⟩

/-! ## What leaves the count alone -/

variable {g : Gateway K} {conf : ServerConf}

/-- No write, and no hook of `main` that writes. -/
def Effect.Quiet (e : Effect) : Prop := e ≠ .write ∧ e ≠ .hook .request ∧ e ≠ .hook .requestBody

instance (e : Effect) : Decidable e.Quiet := instDecidableAnd

/-- A quiet effect leaves the responses alone. -/
theorem responses_stable (hmain : g.middlewares = mainMiddlewares K conf) (r : List Nat) {e : Effect}
    (hq : e.Quiet) : g.Stable (fun s => responses s = r) e := by
  obtain ⟨hw, hr, hb⟩ := hq
  cases e with
  | hook k =>
    refine quietHook_stable (J := fun s => responses s = r) hmain (fun _ _ _ hs => hs) ⟨?_, ?_⟩
    · exact fun h => hr (h ▸ rfl)
    · exact fun h => hb (h ▸ rfl)
  | write => exact absurd rfl hw
  | enter => exact fun s hs => ⟨hs, fun _ => hs⟩
  | record => exact fun _ _ _ hs => hs
  | counters => exact fun _ _ _ hs => hs
  | peer => exact fun _ hs => ⟨hs, fun _ => hs⟩
  | lookup => exact fun _ hs => hs
  | fail => exact fun _ _ hs => hs

theorem phase_responses (hmain : g.middlewares = mainMiddlewares K conf) {stage : Stage} {p : Phase}
    {x : Act (St K Unit) PError Stage} (hx : g.phase stage p = some x)
    (hq : ∀ e ∈ p.effects, e.Quiet) (s : St K Unit) : responses (x s).2 = responses s :=
  phase_keeps (J := fun s' => responses s' = responses s)
    (fun e he => responses_stable hmain _ (hq e he)) hx s rfl

theorem failures_stable (P : Nat → Prop) {e : Effect} (he : e ≠ .fail) :
    g.Stable (fun s => Failures P s.calls) e := by
  refine calls_stable (Q := Failures P) fun l c hlog hl code hmem => ?_
  rcases List.mem_append.1 hmem with hmem | hmem
  · exact hl code hmem
  · obtain rfl := List.mem_singleton.1 hmem
    cases e <;> simp only [Effect.Logs] at hlog
    exact absurd rfl he

theorem noFailure_stable {e : Effect} (he : e ≠ .fail) : g.Stable (fun s => NoFailure s.calls) e :=
  failures_stable _ he

theorem phase_failures {stage : Stage} {p : Phase} {x : Act (St K Unit) PError Stage}
    (hx : g.phase stage p = some x) (hf : .fail ∉ p.effects) {P : Nat → Prop} {s : St K Unit}
    (h : Failures P s.calls) : Failures P (x s).2.calls :=
  phase_keeps (J := fun s => Failures P s.calls)
    (fun _ he => failures_stable P fun heq => hf (heq ▸ he)) hx s h

/-! ## The phases that answer -/

theorem requestFilter_answers (hmain : g.middlewares = mainMiddlewares K conf) {s : St K Unit}
    (hs : responses s = []) :
    (responses (g.requestFilter s).2).length ≤ 1 ∧
      ((g.requestFilter s).1 ≠ .ok true → responses (g.requestFilter s).2 = []) := by
  cases hmeta : s.ctx.get .requestMeta with
  | none =>
    rw [requestFilter_panics hmeta]
    exact ⟨unanswered_le (s := s) hs, fun _ => hs⟩
  | some rm =>
    rcases hm : g.matched s with (_ | entry) | e | msg
    · obtain ⟨hlen, hfails⟩ := write_answers (.error 404) (s := openRequest s) hs
      rw [requestFilter_run hmeta, hm]
      dsimp only
      rw [Act.bind_pure_snd]
      refine ⟨hlen, fun hne => hfails fun hok => hne ?_⟩
      exact (Act.bind_pure_fst _ (fun _ => true) _ _).2 ⟨(), hok, rfl⟩
    · rw [requestFilter_matched hmeta hm, Act.bind_pure_snd, ne_eq, Act.bind_pure_fst]
      have hchain : Answers (runHooks .request g.chain) := runHooks_answers fun m hm =>
        main_hook_answers (hmain ▸ List.fst_mem_of_mem_zipIdx hm) _
      obtain ⟨hlen, hgo⟩ := hchain (enterRoute s entry) hs
      exact ⟨hlen, fun hne => hgo fun hstop => hne ⟨_, hstop, rfl⟩⟩
    · rw [requestFilter_run hmeta, hm]
      exact ⟨unanswered_le (s := s) hs, fun _ => hs⟩
    · rw [requestFilter_run hmeta, hm]
      exact ⟨unanswered_le (s := s) hs, fun _ => hs⟩

/-- Counting a safe chunk does not answer. -/
theorem countBody_unanswered (maxBytes : Nat) (body : Option Bytes) {s : St K (Option Bytes)}
    (hsafe : ∀ b n, body = some b → s.ctx.get .requestSizeState = some ⟨n⟩ →
      n + b.length ≥ maxBytes → s.session.delivers (.error 413) = false)
    (hs : responses s = []) : responses (countBody maxBytes body s).2 = [] := by
  unfold countBody
  cases hsize : s.ctx.get .requestSizeState with
  | none =>
    have hexp := ctxExpect_of_none (ε := PingoraGuideError) "Request size state should exist" hsize
    rw [Act.bind_of_panic hexp]
    exact hs
  | some state =>
    have hexp := ctxExpect_of_some (ε := PingoraGuideError) "Request size state should exist" hsize
    rw [Act.bind_of_ok hexp]
    cases body with
    | none => exact hs
    | some b =>
      let s1 : St K (Option Bytes) :=
        { s with ctx := s.ctx.modify .requestSizeState fun _ => ⟨state.bytesRead + b.length⟩ }
      change responses ((if state.bytesRead + b.length ≥ maxBytes then tooLarge
        else pure .Continue : Hook _ K) s1).2 = []
      rw [Act.ite_run]
      split
      · rename_i hge
        have hwithheld : s1.session.delivers (.error 413) = false :=
          hsafe b state.bytesRead rfl hsize hge
        unfold tooLarge
        rw [Act.bind_pure_snd]
        exact (write_withheld hwithheld).trans hs
      · exact hs

/-- A safe `request_body_filter` does not answer. -/
theorem requestBodyFilter_unanswered (hmain : g.middlewares = mainMiddlewares K conf)
    {body : Option Bytes} {eos : Bool} {s : St K Unit}
    (hsafe : SafeStep (maxBytesOf conf) s (.phase (.requestBodyFilter body eos)))
    (hs : responses s = []) : responses (withMsg body (g.requestBodyFilter eos) s).2 = [] := by
  let s1 : St K (Option Bytes) := ⟨s.session, s.ctx, body, s.metrics, s.calls⟩
  change responses (g.requestBodyFilter eos s1).2 = []
  rw [requestBodyFilter_snd, runHooks_body_main hmain, runHooks_singleton]
  refine countBody_unanswered (maxBytesOf conf) body (s := { s1 with calls := _ }) ?_ hs
  rintro b n rfl hsize hge
  exact hsafe n hsize hge

/-! ## One answer -/

/-- No response, or the one with this status, after which the session drops any other. -/
def AnsweredBy (code : Nat) (s : St K β) : Prop :=
  responses s = [] ∨ (responses s = [code] ∧ s.session.finalWritten = true)

theorem AnsweredBy.le {code : Nat} {s : St K β} (h : AnsweredBy code s) :
    (responses s).length ≤ 1 ∧ ∀ status ∈ responses s, status = code := by
  rcases h with h | ⟨h, -⟩ <;> simp [h]

/-- Another write of the answer with that status: the first goes out, the others are dropped. -/
theorem AnsweredBy.write {code : Nat} {ev : Sent} (hev : ev.status = some code)
    (hfinal : isFinal code = true) : Act.Keeps (AnsweredBy (K := K) (β := β) code) (write ev) := by
  rintro s (hs | ⟨hs, hwritten⟩)
  · have hres := write_responses ev s
    rw [hs, List.nil_append] at hres
    rcases s.session.after_cases ev with ⟨hd, -, -, hstatus⟩ | ⟨hd, -⟩ <;> rw [hd] at hres
    · refine .inr ⟨by simpa [hev] using hres, ?_⟩
      show ((s.session.after ev).responseWritten).any isFinal = true
      simp [hstatus, hev, hfinal]
    · exact .inl (by simpa using hres)
  · have hdrops : s.session.drops ev = true := by
      cases ev with
      | error | header => exact hwritten
      | body => cases hev
    have hsame : (PingoraGuide.write ev s).2 = s := by
      simp [PingoraGuide.write, Session.after, hdrops]
    rw [hsame]
    exact .inr ⟨hs, hwritten⟩

/-- A body starts no response. -/
theorem AnsweredBy.write_body (code : Nat) (b : Bytes) (eos : Bool) :
    Act.Keeps (AnsweredBy (K := K) (β := β) code) (PingoraGuide.write (.body b eos)) := by
  intro s hs
  have hres := write_responses (.body b eos) s
  simp only [Sent.status, Option.toList_none, ite_self, List.append_nil] at hres
  have hwritten : ((PingoraGuide.write (.body b eos) s).2).session.finalWritten =
      s.session.finalWritten := by
    show ((s.session.after _).responseWritten).any isFinal = _
    rcases s.session.after_cases (.body b eos) with ⟨-, -, -, h⟩ | ⟨-, -, h⟩ <;> rw [h] <;> rfl
  unfold AnsweredBy
  rw [hres, hwritten]
  exact hs

theorem errorStatus_final (t : ErrorType) : isFinal (errorStatus t) = true := by
  cases t <;> rfl

/-- How a call ends when `fail_to_proxy` is to account for its answer: without one, or with an error
that maps to the status of the answer. -/
def Accounted {α : Type} : Res PError α × St K Unit → Prop
  | (.err e, s) => AnsweredBy (errorStatus e.etype) s
  | (_, s) => responses s = []

theorem Accounted.silent {α : Type} {r : Res PError α × St K Unit} (h : responses r.2 = []) :
    Accounted r := by
  rcases r with ⟨a | e | msg, s⟩
  · exact h
  · exact .inl h
  · exact h

theorem Accounted.bind {α δ : Type} {x : Act (St K Unit) PError α} {f : α → Act (St K Unit) PError δ}
    {s : St K Unit} (hx : Accounted (x s)) (hf : ∀ a s', responses s' = [] → Accounted (f a s')) :
    Accounted ((x >>= f) s) := by
  rcases Act.bind_cases x f s with ⟨a, s', h, h'⟩ | ⟨e, s', h, h'⟩ | ⟨m, s', h, h'⟩ <;>
    rw [h] at hx <;> rw [h']
  · exact hf a s' hx
  · exact hx
  · exact hx

/-- The answer of `upstream_peer`, and the error it returns. -/
theorem respond_throw_accounted (msg : String) {s : St K Unit} (hs : responses s = []) :
    Accounted ((respondError 500 >>= fun _ => Act.throw (upstreamError msg) :
      Act (St K Unit) PError HttpPeer) s) := by
  have hanswered : AnsweredBy 500 (PingoraGuide.write (.error 500) s).2 :=
    AnsweredBy.write rfl rfl s (.inl hs)
  obtain ⟨_, -, -, -, ⟨hok, -⟩ | ⟨herr, -⟩⟩ := write_cases (.error 500) s
  · have hrun : (respondError 500 : Act (St K Unit) PError Unit) s = (.ok (), _) := Prod.ext hok rfl
    rw [Act.bind_of_ok hrun]
    exact hanswered
  · have hrun : (respondError 500 : Act (St K Unit) PError Unit) s =
        (.err ⟨.WriteError, none⟩, _) := Prod.ext herr rfl
    rw [Act.bind_of_err hrun]
    exact hanswered

/-- The answer of `upstream_peer` is the one of the error that it returns. -/
theorem upstreamPeer_accounted (hmain : g.middlewares = mainMiddlewares K conf) {s : St K Unit}
    (hs : responses s = []) : Accounted (g.upstreamPeer s) := by
  refine Accounted.bind (.silent hs) fun _ s hs => Accounted.bind (.silent hs) fun rm s hs => ?_
  cases RequestMeta.upstreamId rm with
  | none => exact respond_throw_accounted _ hs
  | some id =>
    dsimp only
    cases g.upstreams id with
    | none => exact respond_throw_accounted _ hs
    | some u =>
      refine Accounted.bind (.silent hs) fun _ s hs => .silent ?_
      exact (selectPeer_keeps (g := g) (J := fun s => responses s = []) u
        (responses_stable hmain [] (by decide)) (responses_stable hmain [] (by decide))).mapErr s hs

/-! ## `fail_to_proxy` -/

theorem attempt_ok (ev : Sent) (s : St K β) : ∃ r, (write ev).attempt s =
    ((.ok r, (write ev s).2) : Res ε (Except PError Unit) × St K β) := by
  obtain ⟨_, -, -, -, ⟨hok, -⟩ | ⟨herr, -⟩⟩ := write_cases ev s
  · exact ⟨_, Act.attempt_of_ok (Prod.ext hok rfl)⟩
  · exact ⟨_, Act.attempt_of_err (Prod.ext herr rfl)⟩

theorem serveErrorPage_answers {code : Nat} (hfinal : isFinal code = true) {s : St K Unit}
    (hs : AnsweredBy code s) :
    ∃ served s', (serveErrorPage code : Act (St K Unit) PError Bool) s = (.ok served, s') ∧
      AnsweredBy code s' := by
  have hroute : (getRouteConf : Act (St K Unit) PError _) s =
      (.ok (s.ctx.get .routeConf), s.log (.routeLookup (s.ctx.get .routeConf))) := rfl
  unfold serveErrorPage
  rw [Act.bind_of_ok hroute]
  generalize hs1 : s.log (.routeLookup (s.ctx.get .routeConf)) = s1
  have hs1 : AnsweredBy code s1 := hs1 ▸ hs
  rcases s.ctx.get .routeConf with _ | route
  · exact ⟨false, _, rfl, hs1⟩
  dsimp only
  rcases route.errorPages.bind fun pages => pages.get code with _ | path
  · exact ⟨false, _, rfl, hs1⟩
  dsimp only
  rcases K.fsRead path with _ | content
  · exact ⟨false, _, rfl, hs1⟩
  dsimp only [writeResponseHeader, writeResponseBody]
  obtain ⟨r, hheader⟩ := attempt_ok (ε := PError) (.header (errorPageHeader code content)) s1
  have hs2 : AnsweredBy code (write (.header (errorPageHeader code content)) s1).2 :=
    AnsweredBy.write rfl hfinal s1 hs1
  rw [Act.bind_of_ok hheader]
  cases r with
  | error e => exact ⟨false, _, rfl, hs2⟩
  | ok u =>
    obtain ⟨r, hbody⟩ := attempt_ok (ε := PError) (.body content true)
      (write (.header (errorPageHeader code content)) s1).2
    exact ⟨true, _, Act.bind_of_ok hbody, AnsweredBy.write_body code content true _ hs2⟩

theorem respondUnless_answers (served : Bool) {code : Nat} (hfinal : isFinal code = true)
    {s : St K Unit} (hs : AnsweredBy code s) :
    ∃ s', (respondUnless served code : Act (St K Unit) PError Unit) s = (.ok (), s') ∧
      AnsweredBy code s' := by
  cases served with
  | true => exact ⟨s, rfl, hs⟩
  | false =>
    obtain ⟨r, hrun⟩ := attempt_ok (ε := PError) (.error code) s
    exact ⟨_, Act.bind_of_ok hrun, AnsweredBy.write rfl hfinal s hs⟩

/-- `fail_to_proxy` gives the answer, unless it was given or none can be written. -/
theorem failToProxy_answers (hmain : g.middlewares = mainMiddlewares K conf) (e : PError)
    {s : St K Unit} (hs : AnsweredBy (errorStatus e.etype) s) (hcalls : NoFailure s.calls) :
    ∃ out s', g.failToProxy e s = (.ok out, s') ∧ OneResponse s' := by
  have hsilent := (chain_silent hmain (c := .error e) (by simp)).2
  have hfinal := errorStatus_final e.etype
  let s1 : St K Unit := { s with calls := s.calls ++ continues (.error e) g.chain.reverse }
  have hcalls1 : NoFailure s1.calls := by
    intro code hmem
    rcases List.mem_append.1 hmem with hmem | hmem
    · exact hcalls code hmem
    · obtain ⟨m, -, hm⟩ := List.mem_map.1 hmem
      cases hm
  obtain ⟨served, s2, hpage, hs2⟩ := serveErrorPage_answers (s := s1) hfinal hs
  obtain ⟨s3, hresp, hs3⟩ := respondUnless_answers served hfinal hs2
  have hcalls2 : NoFailure s2.calls := by
    have := serveErrorPage_keeps (g := g) (J := fun s => NoFailure s.calls) (errorStatus e.etype)
      (noFailure_stable (by decide)) (noFailure_stable (by decide)) s1 hcalls1
    rwa [hpage] at this
  have hcalls3 : NoFailure s3.calls := by
    have := respondUnless_keeps (g := g) (J := fun s => NoFailure s.calls) served
      (errorStatus e.etype) (noFailure_stable (by decide)) s2 hcalls2
    rwa [hresp] at this
  refine ⟨⟨errorStatus e.etype, false⟩, s3.log (.failToProxy (errorStatus e.etype)), ?_,
    hs3.le.1, ?_⟩
  · unfold Gateway.failToProxy
    rw [Act.bind_of_ok (runHooksLenient_silent hsilent)]
    change (serveErrorPage _ >>= _) s1 = _
    rw [Act.bind_of_ok hpage, Act.bind_of_ok hresp]
    rfl
  · intro code hmem status hstatus
    obtain rfl : code = errorStatus e.etype := by
      rcases List.mem_append.1 hmem with hmem | hmem
      · exact absurd hmem (hcalls3 code)
      · simpa using hmem
    exact hs3.le.2 status hstatus

/-! ## The invariant -/

/-- What holds between two events of a safe run: a request still to be answered has no response, and
one that failed has none or the one its error stands for. -/
def Answered : Cfg K → Prop
  | (.early, s) | (.request, s) | (.proxying, s) => responses s = [] ∧ NoFailure s.calls
  | (.failed e, s) => AnsweredBy (errorStatus e.etype) s ∧ NoFailure s.calls
  | (_, s) => OneResponse s

theorem OneResponse.of_noFailure {s : St K Unit} (hlen : (responses s).length ≤ 1)
    (hcalls : NoFailure s.calls) : OneResponse s :=
  ⟨hlen, fun code hmem => absurd hmem (hcalls code)⟩

theorem Answered.single {c : Cfg K} (h : Answered c) : OneResponse c.2 := by
  obtain ⟨stage, s⟩ := c
  cases stage with
  | early | request | proxying => exact .of_noFailure (unanswered_le h.1) h.2
  | failed e => exact .of_noFailure h.1.le.1 h.2
  | finish | done | crashed => exact h

/-- Wherever a request without response stands. -/
theorem Answered.of_unanswered {stage : Stage} {s : St K Unit} (hs : responses s = [])
    (hcalls : NoFailure s.calls) : Answered (stage, s) := by
  cases stage with
  | early | request | proxying => exact ⟨hs, hcalls⟩
  | failed e => exact ⟨.inl hs, hcalls⟩
  | finish | done | crashed => exact .of_noFailure (unanswered_le hs) hcalls

/-- A phase that `fail_to_proxy` accounts for. -/
theorem Accounted.settle {r : Res PError Stage × St K Unit} (h : Accounted r)
    (hcalls : NoFailure r.2.calls) : Answered (PingoraGuide.settle r) := by
  rcases r with ⟨stage | e | msg, s⟩
  · exact .of_unanswered h hcalls
  · exact ⟨h, hcalls⟩
  · exact .of_unanswered h hcalls

theorem logging_ne_err (e : Option PError) (s : St K Unit) (e' : PError) :
    (g.logging e s).1 ≠ .err e' := by
  have hloop : ∀ s e', (runHooksLenient (.logging e) g.chain.reverse s).1 ≠ .err e' := by
    refine Act.untilStop_ne_err fun x hx => ?_
    obtain ⟨m, -, rfl⟩ := List.mem_map.1 hx
    exact fun s e' => Act.unwrapOr_ne_err _ _ _ _
  intro h
  rcases hr : runHooksLenient (.logging e) g.chain.reverse s with ⟨d | e1 | msg, s'⟩
  · rw [Gateway.logging, Act.bind_of_ok hr] at h
    cases h
  · exact hloop s e1 (congrArg Prod.fst hr)
  · rw [Gateway.logging, Act.bind_of_panic hr] at h
    cases h

/-- `request_filter` on an unanswered request. -/
theorem answered_request (hmain : g.middlewares = mainMiddlewares K conf) {s : St K Unit}
    (hs : responses s = []) (hcalls : NoFailure s.calls) :
    Answered (settle ((g.requestFilter >>= fun handled =>
      pure (if handled then .finish none else .proxying)) s)) := by
  obtain ⟨hlen, hgo⟩ := requestFilter_answers hmain hs
  have hcalls' : NoFailure (g.requestFilter s).2.calls := by
    have hx : g.phase .request .requestFilter = some _ := rfl
    have := phase_failures hx (by simp [Phase.effects]) hcalls
    rwa [Act.bind_pure_snd] at this
  rw [Gateway.settle_bind_pure]
  rcases hr : g.requestFilter s with ⟨handled | e | msg, s'⟩ <;> rw [hr] at hlen hgo hcalls'
  · cases handled with
    | true => exact .of_noFailure hlen hcalls'
    | false => exact .of_unanswered (hgo (by simp)) hcalls'
  · exact .of_unanswered (hgo (by simp)) hcalls'
  · exact .of_unanswered (hgo (by simp)) hcalls'

/-- `logging` ends the request with the answer it had. -/
theorem answered_logging (hmain : g.middlewares = mainMiddlewares K conf) (e : Option PError)
    {s : St K Unit} (h : OneResponse s) :
    Answered (settle ((g.logging e >>= fun _ => pure .done) s)) := by
  have hx : g.phase (.finish e) .logging = some _ := rfl
  have hres := phase_responses hmain hx (by simp [Phase.effects, Effect.Quiet]) s
  have hcalls := phase_failures hx (by simp [Phase.effects]) h.2
  rw [Act.bind_pure_snd] at hres hcalls
  rw [Gateway.settle_bind_pure]
  have hne := logging_ne_err (g := g) e s
  rcases hr : g.logging e s with ⟨u | e' | msg, s'⟩ <;> rw [hr] at hres hcalls hne
  · exact ⟨hres ▸ h.1, hres ▸ hcalls⟩
  · exact absurd rfl (hne e')
  · exact ⟨hres ▸ h.1, hres ▸ hcalls⟩

/-- One safe phase. -/
theorem answered_phase (hmain : g.middlewares = mainMiddlewares K conf) {c c' : Cfg K} {p : Phase}
    (h : Answered c) (hsafe : SafeStep (maxBytesOf conf) c.2 (.phase p))
    (hstep : g.step c p = some c') : Answered c' := by
  obtain ⟨x, hx, rfl⟩ := Gateway.step_eq_some.1 hstep
  obtain ⟨stage, s⟩ := c
  have hquiet : (∀ e ∈ p.effects, e.Quiet) → responses s = [] → Accounted (x s) :=
    fun hq hs => .silent ((phase_responses hmain hx hq s).trans hs)
  have hfailures : .fail ∉ p.effects → NoFailure s.calls → NoFailure (x s).2.calls :=
    fun hf hcalls => phase_failures hx hf hcalls
  cases Gateway.makes_of_phase g hx
  case requestFilter => exact answered_request hmain h.1 h.2
  case upstreamPeer =>
    refine Accounted.settle (.bind (upstreamPeer_accounted hmain h.1) fun _ _ hs => hs) ?_
    exact hfailures (by simp [Phase.effects]) h.2
  case requestBodyFilter body eos =>
    refine Accounted.settle (.silent ?_) (hfailures (by simp [Phase.effects]) h.2)
    rw [Act.bind_pure_snd]
    exact requestBodyFilter_unanswered hmain hsafe h.1
  case failToProxy e =>
    obtain ⟨out, s', hrun, hone⟩ := failToProxy_answers hmain e h.1 h.2
    rw [Gateway.settle_bind_pure, hrun]
    exact hone
  case logging e => exact answered_logging hmain e h
  all_goals
    exact (hquiet (by simp [Phase.effects, Effect.Quiet]) h.1).settle
      (hfailures (by simp [Phase.effects]) h.2)

/-- One safe event: a response of Pingora is none of the gateway's. -/
theorem answered_step (hmain : g.middlewares = mainMiddlewares K conf) {c c' : Cfg K} {ev : Event}
    (h : Answered c) (hsafe : SafeStep (maxBytesOf conf) c.2 ev) (hstep : g.serve c ev = some c') :
    Answered c' := by
  cases ev with
  | phase p => exact answered_phase hmain h hsafe hstep
  | respond status =>
    obtain ⟨stage, s⟩ := c
    obtain ⟨rfl, -, rfl⟩ := Gateway.serve_respond.1 hstep
    exact h

/-- **One response per request.** In every safe run of a fresh request, with the middlewares of
`main`, at most one response is started, and `fail_to_proxy` returns its status. -/
theorem one_response (hmain : g.middlewares = mainMiddlewares K conf) {session : Session}
    (hfresh : session.sent = []) {evs : List Event} {c : Cfg K}
    (hsafe : SafeRun g (maxBytesOf conf) (Gateway.start session) evs)
    (hrun : Trace.run g.serve (Gateway.start session) evs = some c) : OneResponse c.2 := by
  have hstart : Answered (Gateway.start (K := K) session) :=
    ⟨by simp [responses, hfresh], by simp [NoFailure, Failures]⟩
  exact (Trace.run_keeps (fun _ _ _ h hs => answered_step hmain h hs) hstart hsafe hrun).single

/-- One route to a backend, and a limit of four bytes. -/
def uploadConf : GatewayConf where
  upstreams := [{ id := "a", source := .Uds "/run/a.sock" }]
  routes := [{ path := "/", upstreamId := "a" }]
  server := { clientMaxBodySize := some 4 }

def uploadGateway : Gateway refCrates := (mainGateway refCrates uploadConf).toOption.get rfl

theorem uploadGateway_main :
    uploadGateway.middlewares = mainMiddlewares refCrates uploadConf.server := rfl

/-- The request is let through and has a peer. -/
def uploadOpening : List Event :=
  [.phase .earlyRequestFilter, .phase .requestFilter, .phase .upstreamPeer]

/-- The fourth byte reaches the limit: 413 goes out, and `fail_to_proxy` returns 500. -/
theorem limit_reached :
    ∃ c, Trace.run uploadGateway.serve (Gateway.start (getRequest "/"))
        (uploadOpening ++ [.phase (.requestBodyFilter (some [1, 2, 3, 4]) true),
          .phase .failToProxy]) = some c ∧
      responses c.2 = [413] ∧ c.2.calls.getLast? = some (.failToProxy 500) ∧ ¬ OneResponse c.2 := by
  have h : (Trace.run uploadGateway.serve (Gateway.start (getRequest "/"))
      (uploadOpening ++ [.phase (.requestBodyFilter (some [1, 2, 3, 4]) true),
        .phase .failToProxy])).map (fun c => (responses c.2, c.2.calls.getLast?)) =
          some ([413], some (.failToProxy 500)) := by
    decide +kernel
  obtain ⟨c, hc, hlast⟩ := Option.map_eq_some_iff.1 h
  obtain ⟨hres, hcall⟩ := Prod.mk.inj hlast
  refine ⟨c, hc, hres, hcall, fun hone => ?_⟩
  have hsame := hone.2 500 (List.mem_of_getLast? hcall) 413 (by rw [hres]; exact List.mem_cons_self)
  exact absurd hsame (by decide)

/-- Three bytes are let through; then the backend does not answer in time. -/
theorem one_response_upload :
    ∃ c, Trace.run uploadGateway.serve (Gateway.start (getRequest "/"))
        (uploadOpening ++ [.phase (.requestBodyFilter (some [1, 2, 3]) true),
          .phase (.proxyError ⟨.ReadTimedout, none⟩), .phase .failToProxy]) = some c ∧
      OneResponse c.2 := by
  have hruns : (Trace.run uploadGateway.serve (Gateway.start (getRequest "/"))
      (uploadOpening ++ [.phase (.requestBodyFilter (some [1, 2, 3]) true),
        .phase (.proxyError ⟨.ReadTimedout, none⟩), .phase .failToProxy])).isSome := by
    decide +kernel
  have hcounted : (Trace.run uploadGateway.serve (Gateway.start (getRequest "/")) uploadOpening).map
      (fun c => c.2.ctx.get .requestSizeState) = some (some ⟨0⟩) := by
    decide +kernel
  obtain ⟨c, hc⟩ := Option.isSome_iff_exists.1 hruns
  refine ⟨c, hc, one_response uploadGateway_main rfl (.append ?_ fun c1 hc1 => ?_) hc⟩
  · exact ⟨trivial, fun _ _ => ⟨trivial, fun _ _ => ⟨trivial, fun _ _ => trivial⟩⟩⟩
  · refine ⟨fun n hn hge => ?_, fun _ _ => ⟨trivial, fun _ _ => ⟨trivial, fun _ _ => trivial⟩⟩⟩
    rw [hc1, Option.map_some, hn, Option.some.injEq, Option.some.injEq] at hcounted
    obtain rfl : n = 0 := congrArg RequestSizeState.bytesRead hcounted
    exact absurd hge (by decide)

end PingoraGuide
