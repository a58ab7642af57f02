import PingoraGuide.BodySize
import PingoraGuide.Footprint
/-!
# Counting a body over a whole request

`request_size` keeps one counter for a request and never sets it back, so whatever phases are made
in whatever order, the chunks that are let through stay within the limit (`forwarded_bounded`).

| here | meaning |
| --- | --- |
| `Gateway.call`  | a phase is called, wherever the request stands: every run is such a sequence (`run_calls`), and so is any order of hooks, retries and replays, also past a refused chunk |
| `bodyCalls`     | the chunks handed to `request_body_filter`, in order |
| `Gateway.passed` | the size of a chunk for which `request_body_filter` returned `Ok` |
| `SizeRejected`  | a hook of `request_size` did not continue; it is the third of the chain of `main` |
-/
namespace PingoraGuide
open Fallible Wire

variable {K : Crates} {β : Type}

def Gateway.call (g : Gateway K) (s : St K Unit) (c : Stage × Phase) : Option (St K Unit) :=
  (g.phase c.1 c.2).map fun x => (x s).2

/-- A run is a sequence of calls. -/
theorem run_calls {g : Gateway K} {ps : List Phase} {c c' : Cfg K} (h : g.run c ps = some c') :
    ∃ cs : List (Stage × Phase), cs.map Prod.snd = ps ∧ Trace.run g.call c.2 cs = some c'.2 := by
  induction ps generalizing c with
  | nil =>
    obtain rfl := Trace.run_nil.1 h
    exact ⟨[], rfl, rfl⟩
  | cons p ps ih =>
    obtain ⟨c1, h1, h⟩ := Trace.run_cons.1 h
    obtain ⟨cs, rfl, hcs⟩ := ih h
    obtain ⟨x, hx, rfl⟩ := Gateway.step_eq_some.1 h1
    refine ⟨(c.1, p) :: cs, rfl, Trace.run_cons.2 ⟨(x c.2).2, by simp [Gateway.call, hx], ?_⟩⟩
    rwa [Gateway.settle_snd] at hcs

/-- The chunk a phase hands to `request_body_filter`, with its `end_of_stream`. -/
def Phase.chunk : Phase → Option (Option Bytes × Bool)
  | .requestBodyFilter body eos => some (body, eos)
  | _ => none

def bodyCalls (cs : List (Stage × Phase)) : List (Option Bytes × Bool) :=
  cs.filterMap fun c => c.2.chunk

def chunkLength (chunk : Option Bytes) : Nat := (chunk.map List.length).getD 0

def Gateway.passed (g : Gateway K) (s : St K Unit) (c : Stage × Phase) : Nat :=
  match c.2.chunk with
  | some (body, eos) =>
    if (withMsg body (g.requestBodyFilter eos) s).1 = .ok () then chunkLength body else 0
  | none => 0

/-- `request_body_filter` refuses the chunk in this state. -/
def Gateway.Refuses (g : Gateway K) (s : St K Unit) (chunk : Option Bytes × Bool) : Prop :=
  ∃ e, (withMsg chunk.1 (g.requestBodyFilter chunk.2) s).1 = .err e

def SizeRejected (s : St K Unit) : Prop :=
  ∃ kind out, (kind = .request ∨ kind = .requestBody) ∧ .hook kind 2 out ∈ s.calls ∧
    out ≠ .ok .Continue

/-- The announced length is over the limit. -/
def HeaderTooLarge (maxBytes : Nat) (h : RequestHeader) : Prop :=
  ∃ len, contentLength h = some len ∧ maxBytes < len

variable {g : Gateway K} {conf : ServerConf}

/-! ## One call -/

theorem countBody_ne_panic {maxBytes n : Nat} {body : Option Bytes} {s : St K (Option Bytes)}
    (hs : s.ctx.get .requestSizeState = some ⟨n⟩) (msg : String) :
    (countBody maxBytes body s).1 ≠ .panic msg := by
  have hexp := ctxExpect_of_some (ε := PingoraGuideError) "Request size state should exist" hs
  rw [countBody, Act.bind_of_ok hexp]
  cases body with
  | none => simp
  | some b =>
    dsimp only
    rw [ctxModify, Act.modify_bind_run, Act.ite_run]
    split
    · intro h
      rcases stop_cases 413 (fun e => .Gateway (.SizeLimited (K.errorToString e))) _ with hs | ⟨e, he⟩
      · cases hs.symm.trans h
      · cases he.symm.trans h
    · simp

/-- What `request_body_filter` does once the counter exists: the chunk is counted, the third hook is
the one that decides, and a chunk that is not let through ends in an `Err`. -/
theorem requestBodyFilter_counts (hmain : g.middlewares = mainMiddlewares K conf)
    (body : Option Bytes) (eos : Bool) {n : Nat} {s : St K Unit}
    (hs : s.ctx.get .requestSizeState = some ⟨n⟩) :
    ∃ out,
      (withMsg body (g.requestBodyFilter eos) s).2.calls =
        s.calls ++ [.hook .requestBody 0 (.ok .Continue), .hook .requestBody 1 (.ok .Continue),
          .hook .requestBody 2 out] ∧
      (withMsg body (g.requestBodyFilter eos) s).2.ctx.get .requestSizeState =
        some ⟨n + chunkLength body⟩ ∧
      (out = .ok .Continue ↔ ∀ b, body = some b → n + b.length < maxBytesOf conf) ∧
      ((out = .ok .Continue ∧ (withMsg body (g.requestBodyFilter eos) s).1 = .ok ()) ∨
        (out ≠ .ok .Continue ∧ g.Refuses s (body, eos))) := by
  let s1 : St K (Option Bytes) := ⟨s.session, s.ctx, body, s.metrics, s.calls⟩
  let s2 : St K (Option Bytes) :=
    { s1 with calls := (s.calls ++ [.hook .requestBody 0 (.ok .Continue)]) ++
        [.hook .requestBody 1 (.ok .Continue)] }
  let m : Middleware K × Nat := (requestSize K (maxBytesOf conf), 2)
  have hloop : runHooks (.requestBody eos) g.chain s1 = runHooks (.requestBody eos) [m] s2 :=
    runHooks_body_main hmain eos s1
  obtain ⟨hverdict, hcount⟩ := handleRequestBody_size (maxBytesOf conf) body eos (s := s2.bare) hs
  have hpanic : ∀ msg, (m.1.hook (.requestBody eos) s2).1 ≠ .panic msg :=
    fun msg => countBody_ne_panic (s := s2) hs msg
  have hstate : (g.requestBodyFilter eos s1).2 =
      logged (.requestBody eos) 2 s2 (m.1.hook (.requestBody eos) s2) := by
    rw [requestBodyFilter_snd, hloop, runHooks_singleton]
  refine ⟨(m.1.hook (.requestBody eos) s2).1, ?_, ?_, hverdict, ?_⟩
  · change (g.requestBodyFilter eos s1).2.calls = _
    rw [hstate, logged_calls]
    simp [s2, m]
  · change (g.requestBodyFilter eos s1).2.ctx.get .requestSizeState = _
    rw [hstate]
    exact hcount
  · unfold Gateway.Refuses
    change (_ ∧ (g.requestBodyFilter eos s1).1 = _) ∨ (_ ∧ ∃ e, (g.requestBodyFilter eos s1).1 = _)
    unfold Gateway.requestBodyFilter
    cases hr : (m.1.hook (.requestBody eos) s2).1 with
    | ok d =>
      cases d with
      | Continue =>
        have hrun := hloop.trans ((runHooks_continue hr).trans runHooks_nil)
        exact .inl ⟨rfl, by rw [Act.bind_of_ok hrun]; rfl⟩
      | Stop =>
        have hrun := hloop.trans (runHooks_stop hr)
        exact .inr ⟨by simp, _, by rw [Act.bind_of_ok hrun]; rfl⟩
    | err e =>
      have hrun := hloop.trans (runHooks_err hr)
      exact .inr ⟨by simp, _, by rw [Act.bind_of_err hrun]⟩
    | panic msg => exact absurd hr (hpanic msg)

/-- Of the later effects, only a body hook touches the counter. -/
theorem counter_stable (hmain : g.middlewares = mainMiddlewares K conf)
    {v : Option RequestSizeState} {e : Effect}
    (he : e ≠ .enter ∧ e ≠ .hook .request ∧ e ≠ .hook .requestBody) :
    g.Stable (fun s => s.ctx.get .requestSizeState = v) e := by
  obtain ⟨henter, hr, hb⟩ := he
  cases e with
  | hook k =>
    refine quietHook_stable (J := fun s => s.ctx.get .requestSizeState = v) hmain
      (fun _ _ _ hs => hs) ⟨?_, ?_⟩
    · exact fun h => hr (h ▸ rfl)
    · exact fun h => hb (h ▸ rfl)
  | write => exact write_keeps fun _ _ _ hs => hs
  | enter => exact absurd rfl henter
  | record => exact fun _ _ s hs => (s.ctx.get_modify_ne _ (by simp)).trans hs
  | counters => exact fun _ _ _ hs => hs
  | peer => exact fun _ hs => ⟨hs, fun _ => hs⟩
  | lookup => exact fun _ hs => hs
  | fail => exact fun _ _ hs => hs

theorem sizeRejected_append {s s' : St K Unit} {l : List Call} (h : s'.calls = s.calls ++ l) :
    SizeRejected s' ↔ SizeRejected s ∨ ∃ kind out, (kind = .request ∨ kind = .requestBody) ∧
      .hook kind 2 out ∈ l ∧ out ≠ .ok .Continue := by
  unfold SizeRejected
  rw [h]
  constructor
  · rintro ⟨kind, out, hk, hm, hne⟩
    rcases List.mem_append.1 hm with hm | hm
    · exact .inl ⟨kind, out, hk, hm, hne⟩
    · exact .inr ⟨kind, out, hk, hm, hne⟩
  · rintro (⟨kind, out, hk, hm, hne⟩ | ⟨kind, out, hk, hm, hne⟩)
    · exact ⟨kind, out, hk, List.mem_append_left _ hm, hne⟩
    · exact ⟨kind, out, hk, List.mem_append_right _ hm, hne⟩

/-- Phases without request hooks add nothing to the verdict. -/
theorem sizeRejected_stable (hs : Prop) {e : Effect}
    (he : e ≠ .hook .request ∧ e ≠ .hook .requestBody) :
    g.Stable (fun s => SizeRejected s ↔ hs) e := by
  refine calls_stable (Q := fun l => (∃ kind out, (kind = .request ∨ kind = .requestBody) ∧
    .hook kind 2 out ∈ l ∧ out ≠ .ok .Continue) ↔ hs) fun l c hlog hl => ?_
  rw [← hl]
  have hc : ∀ kind idx out, (kind = .request ∨ kind = .requestBody) → c ≠ .hook kind idx out := by
    rintro kind idx out hk rfl
    cases e <;> simp only [Effect.Logs] at hlog
    subst hlog
    rcases hk with rfl | rfl
    · exact he.1 rfl
    · exact he.2 rfl
  constructor
  · rintro ⟨kind, out, hk, hm, hne⟩
    rcases List.mem_append.1 hm with hm | hm
    · exact ⟨kind, out, hk, hm, hne⟩
    · exact absurd (List.mem_singleton.1 hm).symm (hc kind 2 out hk)
  · rintro ⟨kind, out, hk, hm, hne⟩
    exact ⟨kind, out, hk, List.mem_append_left _ hm, hne⟩

/-- **What one later call does to the counter and to the verdict.** -/
theorem call_counts (hmain : g.middlewares = mainMiddlewares K conf) {n : Nat}
    {s s' : St K Unit} {c : Stage × Phase} (hs : s.ctx.get .requestSizeState = some ⟨n⟩)
    (hlater : c.2.Later) (h : g.call s c = some s') :
    (c.2.chunk = none ∧ s'.ctx.get .requestSizeState = some ⟨n⟩ ∧
      (SizeRejected s' ↔ SizeRejected s)) ∨
    ∃ body eos, c.2.chunk = some (body, eos) ∧
      s'.ctx.get .requestSizeState = some ⟨n + chunkLength body⟩ ∧
      (SizeRejected s' ↔
        SizeRejected s ∨ ∃ b, body = some b ∧ maxBytesOf conf ≤ n + b.length) := by
  obtain ⟨x, hx, rfl⟩ := Option.map_eq_some_iff.1 h
  obtain ⟨stage, p⟩ := c
  have hquiet : p.chunk = none → ∀ e ∈ p.effects,
      e ≠ .enter ∧ e ≠ .hook .request ∧ e ≠ .hook .requestBody := by
    intro hp e he
    obtain ⟨h1, -, h3⟩ := hlater.effects e he
    refine ⟨h1, h3, ?_⟩
    rintro rfl
    cases p <;> simp_all [Phase.effects, Phase.chunk]
  cases hp : p.chunk with
  | none =>
    refine .inl ⟨rfl, ?_, ?_⟩
    · exact phase_keeps (J := fun s => s.ctx.get .requestSizeState = some ⟨n⟩)
        (fun e he => counter_stable hmain (hquiet hp e he)) hx s hs
    · exact phase_keeps (J := fun s' => SizeRejected s' ↔ SizeRejected s)
        (fun e he => sizeRejected_stable _ (hquiet hp e he).2) hx s Iff.rfl
  | some chunk =>
    obtain ⟨body, eos⟩ := chunk
    obtain rfl : p = .requestBodyFilter body eos := by
      cases p <;> simp_all [Phase.chunk]
    cases Gateway.makes_of_phase g hx
    refine .inr ⟨body, eos, rfl, ?_⟩
    obtain ⟨out, hcalls, hcount, hout, -⟩ := requestBodyFilter_counts hmain body eos hs
    rw [Act.bind_pure_snd, sizeRejected_append hcalls]
    refine ⟨hcount, or_congr_right ?_⟩
    have hne : out ≠ .ok .Continue ↔ ∃ b, body = some b ∧ maxBytesOf conf ≤ n + b.length := by
      rw [ne_eq, hout]
      simp
    rw [← hne]
    constructor
    · rintro ⟨kind, out', -, hm, hrej⟩
      obtain ⟨-, rfl⟩ : kind = .requestBody ∧ out' = out := by simpa using hm
      exact hrej
    · exact fun h => ⟨.requestBody, out, .inr rfl, by simp, h⟩

/-! ## Any sequence of calls -/

theorem bodyCalls_cons_none {c : Stage × Phase} (h : c.2.chunk = none) (cs : List (Stage × Phase)) :
    bodyCalls (c :: cs) = bodyCalls cs := by
  simp [bodyCalls, h]

theorem bodyCalls_cons_some {c : Stage × Phase} {chunk : Option Bytes × Bool}
    (h : c.2.chunk = some chunk) (cs : List (Stage × Phase)) :
    bodyCalls (c :: cs) = chunk :: bodyCalls cs := by
  simp [bodyCalls, h]

theorem call_counter (hmain : g.middlewares = mainMiddlewares K conf) {s s' : St K Unit}
    {c : Stage × Phase} (hs : ∃ n, s.ctx.get .requestSizeState = some ⟨n⟩) (hlater : c.2.Later)
    (h : g.call s c = some s') : ∃ n, s'.ctx.get .requestSizeState = some ⟨n⟩ := by
  obtain ⟨n, hs⟩ := hs
  rcases call_counts hmain hs hlater h with ⟨-, hs', -⟩ | ⟨body, eos, -, hs', -⟩
  · exact ⟨_, hs'⟩
  · exact ⟨_, hs'⟩

/-- **The verdict of any sequence of later calls**, from `n` counted bytes: some chunk takes the
counter to the limit. The induction is on the calls; it carries the counter. -/
theorem calls_verdict (hmain : g.middlewares = mainMiddlewares K conf) {n : Nat}
    {s s' : St K Unit} {cs : List (Stage × Phase)}
    (hs : s.ctx.get .requestSizeState = some ⟨n⟩) (hlater : ∀ c ∈ cs, c.2.Later)
    (h : Trace.run g.call s cs = some s') :
    s'.ctx.get .requestSizeState = some ⟨n + bodyLength (bodyCalls cs)⟩ ∧
    (SizeRejected s' ↔ SizeRejected s ∨
      (∃ c ∈ bodyCalls cs, c.1 ≠ none) ∧ maxBytesOf conf ≤ n + bodyLength (bodyCalls cs)) := by
  induction cs generalizing n s with
  | nil =>
    obtain rfl := Trace.run_nil.1 h
    simpa [bodyCalls, bodyLength] using hs
  | cons c cs ih =>
    obtain ⟨s1, h1, h⟩ := Trace.run_cons.1 h
    have ih := fun n (hs1 : s1.ctx.get .requestSizeState = some ⟨n⟩) =>
      ih hs1 (fun c' hc' => hlater c' (by simp [hc'])) h
    rcases call_counts hmain hs (hlater c (by simp)) h1 with
      ⟨hc, hs1, hv⟩ | ⟨body, eos, hc, hs1, hv⟩
    · rw [bodyCalls_cons_none hc, ← hv]
      exact ih n hs1
    · obtain ⟨hcount, hverdict⟩ := ih _ hs1
      have hlen := bodyLength_cons (body, eos) (bodyCalls cs)
      have hzero := @bodyLength_none (bodyCalls cs)
      rw [bodyCalls_cons_some hc, hlen, hverdict, hv]
      refine ⟨by rw [hcount, chunkLength, Nat.add_assoc], ?_⟩
      rw [or_assoc]
      refine or_congr_right ?_
      cases body with
      | none => simp [chunkLength]
      | some b =>
        have hsome : ∃ c ∈ ((some b, eos) : Option Bytes × Bool) :: bodyCalls cs, c.1 ≠ none :=
          ⟨(some b, eos), by simp, by simp⟩
        simp only [hsome, true_and, chunkLength, Option.map_some, Option.getD_some,
          Option.some.injEq, exists_eq_left']
        constructor
        · rintro (hb | ⟨-, hrest⟩) <;> omega
        · intro hall
          by_cases hnone : ∀ c ∈ bodyCalls cs, c.1 = none
          · rw [hzero hnone] at hall
            exact .inl (by omega)
          · refine .inr ⟨?_, by omega⟩
            by_contra hno
            exact hnone fun c hc => by_contra fun hne => hno ⟨c, hc, hne⟩

/-! ## The opening -/

/-- Once `handle_request` of `request_size` ran, the counter is at zero and the third hook has the
verdict on the announced length. -/
theorem requestFilter_size (hmain : g.middlewares = mainMiddlewares K conf) {s : St K Unit}
    (hran : ∃ out, .hook .request 2 out ∈ (g.requestFilter s).2.calls)
    (hfresh : ∀ kind out, kind ≠ .earlyRequest → .hook kind 2 out ∉ s.calls) :
    (g.requestFilter s).2.ctx.get .requestSizeState = some ⟨0⟩ ∧
      (SizeRejected (g.requestFilter s).2 ↔
        HeaderTooLarge (maxBytesOf conf) s.session.reqHeader) := by
  obtain ⟨out, hran⟩ := hran
  obtain ⟨entry, hip, hstate⟩ := requestFilter_ran_size hmain hran (hfresh .request out (by simp))
  rw [hstate]
  obtain ⟨hverdict, hcount⟩ := handleRequest_size (maxBytesOf conf) (sizeSees s entry)
  generalize (requestSize K (maxBytesOf conf)).handleRequest (sizeSees s entry) = r at hverdict hcount
  have hall : (logged .request 2 (sizeSees s entry) r).calls =
      s.calls ++ [.hook .request 0 (.ok .Continue), .hook .request 1 (.ok .Continue),
        .hook .request 2 r.1] := by
    rw [logged_calls, sizeSees_calls, hip, List.append_assoc]
    rfl
  have hbefore : ¬ SizeRejected s := by
    rintro ⟨kind, out, rfl | rfl, hmem, -⟩ <;> exact hfresh _ out (by simp) hmem
  have hlarge : r.1 ≠ .ok .Continue ↔ HeaderTooLarge (maxBytesOf conf) s.session.reqHeader := by
    rw [ne_eq, hverdict, sizeSees_reqHeader]
    simp [HeaderTooLarge]
  refine ⟨hcount, ?_⟩
  rw [sizeRejected_append hall, or_iff_right hbefore, ← hlarge]
  constructor
  · rintro ⟨kind, out, -, hmem, hrej⟩
    obtain ⟨-, rfl⟩ : kind = .request ∧ out = r.1 := by simpa using hmem
    exact hrej
  · exact fun hrej => ⟨.request, _, .inl rfl, by simp, hrej⟩

/-- The counter and the verdict when `request_filter` returned. -/
theorem opening_size (hmain : g.middlewares = mainMiddlewares K conf) {session : Session}
    {c : Cfg K} (h : g.run (Gateway.start session) [.earlyRequestFilter, .requestFilter] = some c)
    (hran : ∃ out, .hook .request 2 out ∈ c.2.calls) :
    c.2.ctx.get .requestSizeState = some ⟨0⟩ ∧
      (SizeRejected c.2 ↔ HeaderTooLarge (maxBytesOf conf) session.reqHeader) := by
  let s1 : St K Unit := { (Gateway.start (K := K) session).2 with
    calls := continues .earlyRequest g.chain }
  have hearly : g.step (Gateway.start session) .earlyRequestFilter = some (.request, s1) := by
    show some (settle ((g.earlyRequestFilter >>= fun _ => pure .request) _)) = _
    rw [Gateway.settle_bind_pure, earlyRequestFilter_main hmain]
    simp [s1, Gateway.start]
  obtain ⟨c1, h1, h⟩ := Trace.run_cons.1 h
  obtain ⟨c2, h2, hc2⟩ := Trace.run_cons.1 h
  obtain rfl : c2 = c := Option.some.inj hc2
  obtain rfl : c1 = (.request, s1) := Option.some.inj (h1.symm.trans hearly)
  obtain ⟨x, hx, rfl⟩ := Gateway.step_eq_some.1 h2
  cases Gateway.makes_of_phase g hx
  rw [Gateway.settle_snd, Act.bind_pure_snd] at hran ⊢
  refine requestFilter_size hmain hran fun kind out hk hmem => ?_
  obtain ⟨m, -, hm⟩ := List.mem_map.1 hmem
  simp only [HookCall.kind, Call.hook.injEq] at hm
  exact hk hm.1.symm

/-! ## What is forwarded -/

def bytesRead (s : St K Unit) : Nat :=
  ((s.ctx.get .requestSizeState).map RequestSizeState.bytesRead).getD 0

/-- A chunk that passes is paid for by the counter, which stays below the limit. -/
theorem passed_le (hmain : g.middlewares = mainMiddlewares K conf) {s s' : St K Unit}
    {c : Stage × Phase} (hs : ∃ n, s.ctx.get .requestSizeState = some ⟨n⟩) (hlater : c.2.Later)
    (h : g.call s c = some s') :
    min (bytesRead s) (maxBytesOf conf) + g.passed s c ≤ min (bytesRead s') (maxBytesOf conf) := by
  obtain ⟨n, hs⟩ := hs
  have hn : bytesRead s = n := by simp [bytesRead, hs]
  unfold Gateway.passed
  rcases call_counts hmain hs hlater h with ⟨hc, hs', -⟩ | ⟨body, eos, hc, hs', -⟩
  · have hn' : bytesRead s' = n := by simp [bytesRead, hs']
    rw [hc, hn, hn']
    simp
  · have hn' : bytesRead s' = n + chunkLength body := by simp [bytesRead, hs']
    obtain ⟨out, -, -, hout, hend⟩ := requestBodyFilter_counts hmain body eos hs
    rw [hc, hn, hn']
    dsimp only
    split
    · rename_i hok
      rcases hend with ⟨hcont, -⟩ | ⟨-, e, herr⟩
      · have hlt := hout.1 hcont
        cases body with
        | none => simp [chunkLength]
        | some b =>
          have := hlt b rfl
          simp only [chunkLength, Option.map_some, Option.getD_some]
          omega
      · cases herr.symm.trans hok
    · omega

theorem refuses_iff (hmain : g.middlewares = mainMiddlewares K conf) {n : Nat} {s : St K Unit}
    (hs : s.ctx.get .requestSizeState = some ⟨n⟩) (b : Bytes) (eos : Bool) :
    g.Refuses s (some b, eos) ↔ maxBytesOf conf ≤ n + b.length := by
  obtain ⟨out, -, -, hout, ⟨hcont, hok⟩ | ⟨hne, hrefuse⟩⟩ :=
    requestBodyFilter_counts hmain (some b) eos hs
  · have hlt := hout.1 hcont b rfl
    constructor
    · rintro ⟨e, herr⟩
      cases herr.symm.trans hok
    · intro hge
      omega
  · refine ⟨fun _ => ?_, fun _ => hrefuse⟩
    by_contra hlt
    exact hne (hout.2 (by simpa using hlt))

/-- **What is forwarded stays within the limit.** From the moment `handle_request` of
`request_size` ran, in any sequence of later calls, the chunks that `request_body_filter` lets
through have at most `max_bytes` bytes together; and after a refused chunk it refuses every chunk. -/
theorem forwarded_bounded (hmain : g.middlewares = mainMiddlewares K conf) {session : Session}
    {c : Cfg K} (hopen : g.run (Gateway.start session) [.earlyRequestFilter, .requestFilter] = some c)
    (hran : ∃ out, .hook .request 2 out ∈ c.2.calls) {cs : List (Stage × Phase)} {s : St K Unit}
    (hlater : ∀ x ∈ cs, x.2.Later) (hrun : Trace.run g.call c.2 cs = some s) :
    Trace.total g.call g.passed c.2 cs ≤ maxBytesOf conf ∧
    ∀ before stage body eos after s1, cs = before ++ (stage, .requestBodyFilter body eos) :: after →
      Trace.run g.call c.2 before = some s1 → g.Refuses s1 (body, eos) →
        ∀ b eos', g.Refuses s (some b, eos') := by
  obtain ⟨hzero, -⟩ := opening_size hmain hopen hran
  constructor
  · let Φ : St K Unit → Nat := fun s => min (bytesRead s) (maxBytesOf conf)
    have hpaid : Φ c.2 + Trace.total g.call g.passed c.2 cs ≤ Φ s :=
      Trace.total_le (Φ := Φ)
        (fun s x s' hs hx h => ⟨call_counter hmain hs hx h, passed_le hmain hs hx h⟩)
        ⟨0, hzero⟩ hlater hrun
    have hcap : Φ s ≤ maxBytesOf conf := Nat.min_le_right ..
    omega
  · rintro before stage body eos after s1 rfl hbefore hrefused b eos'
    have hrest : Trace.run g.call s1 ((stage, .requestBodyFilter body eos) :: after) = some s := by
      rw [Trace.run_append, hbefore] at hrun
      exact hrun
    obtain ⟨hs1, -⟩ := calls_verdict hmain hzero (fun x hx => hlater x (by simp [hx])) hbefore
    obtain ⟨hs, -⟩ := calls_verdict hmain hs1 (fun x hx => hlater x (by simp_all)) hrest
    rw [refuses_iff hmain hs]
    cases body with
    | none =>
      -- a `None` chunk is never refused
      obtain ⟨out, -, -, hout, ⟨-, hok⟩ | ⟨hne, -⟩⟩ := requestBodyFilter_counts hmain none eos hs1
      · obtain ⟨e, herr⟩ := hrefused
        cases herr.symm.trans hok
      · exact absurd (hout.2 (by simp)) hne
    | some b1 =>
      have hge := (refuses_iff hmain hs1 b1 eos).1 hrefused
      have hlen := bodyLength_cons (some b1, eos) (bodyCalls after)
      rw [bodyCalls_cons_some rfl, hlen]
      simp only [Option.map_some, Option.getD_some]
      omega

/-- The plain gateway with a limit of four bytes. -/
def smallBodyConf : GatewayConf := { plainConf with server := { clientMaxBodySize := some 4 } }

def smallBodyGateway : Gateway refCrates := (mainGateway refCrates smallBodyConf).toOption.get rfl

/-- Three bytes, then a new attempt that replays them. -/
def replayedUpload : List (Stage × Phase) :=
  [(.proxying, .requestBodyFilter (some [1, 2, 3]) false), (.proxying, .upstreamPeer),
    (.proxying, .requestBodyFilter (some [1, 2, 3]) false)]

theorem smallBodyGateway_opens :
    ∃ c s, smallBodyGateway.run (Gateway.start (getRequest "/")) [.earlyRequestFilter, .requestFilter] =
        some c ∧ (∃ out, .hook .request 2 out ∈ c.2.calls) ∧
      Trace.run smallBodyGateway.call c.2 replayedUpload = some s := by
  have hcalls : ((smallBodyGateway.run (Gateway.start (getRequest "/"))
      [.earlyRequestFilter, .requestFilter]).map fun c =>
        decide (.hook .request 2 (.ok .Continue) ∈ c.2.calls)) = some true := by
    decide +kernel
  have hrun : ((smallBodyGateway.run (Gateway.start (getRequest "/"))
      [.earlyRequestFilter, .requestFilter]).bind fun c =>
        Trace.run smallBodyGateway.call c.2 replayedUpload).isSome := by
    decide +kernel
  obtain ⟨s, hs⟩ := Option.isSome_iff_exists.1 hrun
  obtain ⟨c, hc, hs⟩ := Option.bind_eq_some_iff.1 hs
  rw [hc] at hcalls
  exact ⟨c, s, hc, ⟨_, by simpa using hcalls⟩, hs⟩

theorem forwarded_bounded_small :
    ∃ c, smallBodyGateway.run (Gateway.start (getRequest "/")) [.earlyRequestFilter, .requestFilter] =
        some c ∧
      Trace.total smallBodyGateway.call smallBodyGateway.passed c.2 replayedUpload ≤ 4 := by
  obtain ⟨c, s, hopen, hran, hrun⟩ := smallBodyGateway_opens
  have hlater : ∀ x ∈ replayedUpload, x.2.Later := by
    simp [replayedUpload, Phase.Later]
  have hmain : smallBodyGateway.middlewares = mainMiddlewares refCrates smallBodyConf.server := rfl
  exact ⟨c, hopen, (forwarded_bounded hmain hopen hran hlater hrun).1⟩

end PingoraGuide
