import Mathlib.Algebra.GroupWithZero.Nat
import PingoraGuide.PhaseSpecs
/-!
# The body size limit

`request_size` compares the announced length with `>` and the received bytes with `>=`. The run of
a whole request (`requestSizeRun`) therefore rejects the body of exactly `max_bytes` bytes once it
arrives in at least one chunk (`rejects_iff`).
-/
namespace PingoraGuide
open Fallible Wire

variable {K : Crates}

def bodyLength (chunks : List (Option Bytes × Bool)) : Nat :=
  (chunks.map fun c => (c.1.map List.length).getD 0).sum

variable (K) in
/-- `handle_request`, then `handle_request_body` chunk by chunk (with its `end_of_stream`), up to
the first call that does not continue. -/
def requestSizeRun (maxBytes : Nat) (chunks : List (Option Bytes × Bool)) : Hook Unit K :=
  Act.untilStop (· == .Stop) .Continue
    ((requestSize K maxBytes).handleRequest ::
      chunks.map fun c => withMsg c.1 ((requestSize K maxBytes).handleRequestBody c.2))

/-- Some call of the run rejects the request. -/
def Rejects (maxBytes : Nat) (chunks : List (Option Bytes × Bool)) (s : St K Unit) : Prop :=
  (requestSizeRun K maxBytes chunks s).1 ≠ .ok .Continue

/-- No Content-Length, or one that is the number `n`. -/
def TrueLength (h : RequestHeader) (n : Nat) : Prop :=
  HeaderMap.header h.headers "content-length" = none ∨
  ∃ value text, HeaderMap.header h.headers "content-length" = some value ∧
    toStr value = some text ∧ decimal text.toList = some n

theorem TrueLength.contentLength {h : RequestHeader} {n len : Nat} (ht : TrueLength h n)
    (hc : contentLength h = some len) : len = n := by
  unfold PingoraGuide.contentLength at hc
  rcases ht with hnone | ⟨value, text, hv, htext, hdec⟩
  · simp [hnone, bind, Option.bind] at hc
  · simp only [hv, htext, bind, Option.bind, decimalBelow_eq_some] at hc
    exact Option.some.inj (hc.1.symm.trans hdec)

theorem bodyLength_cons (c : Option Bytes × Bool) (chunks : List (Option Bytes × Bool)) :
    bodyLength (c :: chunks) = (c.1.map List.length).getD 0 + bodyLength chunks := by
  simp [bodyLength]

theorem bodyLength_none {chunks : List (Option Bytes × Bool)} (h : ∀ c ∈ chunks, c.1 = none) :
    bodyLength chunks = 0 := by
  induction chunks with
  | nil => rfl
  | cons c chunks ih =>
    rw [bodyLength_cons, h c (by simp), ih fun c' hc' => h c' (by simp [hc'])]
    rfl

/-! ## The two checks -/

theorem tooLarge_ne {β : Type} (s : St K β) : ((tooLarge : Hook β K) s).1 ≠ .ok .Continue :=
  stop_ne_continue _ _ s

theorem tooLarge_ctx {β : Type} (s : St K β) : ((tooLarge : Hook β K) s).2.ctx = s.ctx :=
  stop_ctx _ _ s

theorem handleRequest_size (maxBytes : Nat) (s : St K Unit) :
    (((requestSize K maxBytes).handleRequest s).1 = .ok .Continue ↔
      ∀ len, contentLength s.session.reqHeader = some len → len ≤ maxBytes) ∧
    ((requestSize K maxBytes).handleRequest s).2.ctx.get .requestSizeState = some {} := by
  let s1 : St K Unit := { s with ctx := s.ctx.insert .requestSizeState {} }
  have hinsert : (ctxInsert .requestSizeState {} : Act (St K Unit) PingoraGuideError Unit) s =
      (.ok (), s1) := rfl
  unfold requestSize
  dsimp only
  rw [Act.bind_of_ok hinsert, Act.get_bind_run]
  change (_ ↔ ∀ len, contentLength s1.session.reqHeader = some len → len ≤ maxBytes) ∧ _
  cases contentLength s1.session.reqHeader with
  | none => simp [s1]
  | some len =>
    simp only [Act.ite_run]
    split
    · rename_i hgt
      simp only [tooLarge_ne, tooLarge_ctx, s1]
      simpa using hgt
    · rename_i hle
      simpa [s1] using hle

theorem handleRequestBody_size (maxBytes : Nat) (body : Option Bytes) (eos : Bool) {n : Nat}
    {s : St K Unit} (hstate : s.ctx.get .requestSizeState = some ⟨n⟩) :
    ((withMsg body ((requestSize K maxBytes).handleRequestBody eos) s).1 = .ok .Continue ↔
      ∀ b, body = some b → n + b.length < maxBytes) ∧
    (withMsg body ((requestSize K maxBytes).handleRequestBody eos) s).2.ctx.get .requestSizeState =
      some ⟨n + (body.map List.length).getD 0⟩ := by
  let s1 : St K (Option Bytes) := ⟨s.session, s.ctx, body, s.metrics, s.calls⟩
  have hexp := ctxExpect_of_some (ε := PingoraGuideError) (s := s1)
    "Request size state should exist" hstate
  have hrun : (requestSize K maxBytes).handleRequestBody eos s1 = countBody maxBytes body s1 := rfl
  change ((((requestSize K maxBytes).handleRequestBody eos) s1).1 = .ok .Continue ↔ _) ∧
    (((requestSize K maxBytes).handleRequestBody eos) s1).2.ctx.get .requestSizeState = _
  rw [hrun, countBody, Act.bind_of_ok hexp]
  cases body with
  | none => simpa [s1] using hstate
  | some b =>
    let s2 : St K (Option Bytes) :=
      { s1 with ctx := s.ctx.modify .requestSizeState fun _ => ⟨n + b.length⟩ }
    change (((if n + b.length ≥ maxBytes then tooLarge else pure .Continue : Hook _ K) s2).1 = _ ↔ _) ∧
      ((if n + b.length ≥ maxBytes then tooLarge else pure .Continue : Hook _ K) s2).2.ctx.get _ = _
    rw [Act.ite_run]
    split
    · rename_i hge
      simp only [tooLarge_ne, tooLarge_ctx, s2]
      simpa [hstate] using hge
    · rename_i hlt
      simpa [s2, hstate] using hlt

/-! ## The whole request -/

/-- The loop over the chunks: an invariant of it is that `n` bytes are already counted. -/
theorem chunks_continue {maxBytes n : Nat} {chunks : List (Option Bytes × Bool)} {s : St K Unit}
    (hstate : s.ctx.get .requestSizeState = some ⟨n⟩) :
    ((Act.untilStop (· == .Stop) .Continue
        (chunks.map fun c => withMsg c.1 ((requestSize K maxBytes).handleRequestBody c.2)) :
          Hook Unit K) s).1 = .ok .Continue ↔
      (∀ c ∈ chunks, c.1 = none) ∨ n + bodyLength chunks < maxBytes := by
  induction chunks generalizing n s with
  | nil => simp [Act.untilStop]
  | cons c chunks ih =>
    obtain ⟨hfirst, hnext⟩ := handleRequestBody_size maxBytes c.1 c.2 hstate
    rw [List.map_cons, Act.untilStop_cons_eq_ok decision_continue, hfirst, ih hnext, bodyLength_cons]
    obtain ⟨body, eos⟩ := c
    cases body with
    | none => simp
    | some b =>
      have hzero := @bodyLength_none chunks
      simp only [Option.some.injEq, forall_eq', Option.map_some, Option.getD_some,
        List.forall_mem_cons, reduceCtorEq, false_and, false_or]
      constructor
      · rintro ⟨hb, hrest | hrest⟩
        · rw [hzero hrest]
          omega
        · omega
      · intro h
        exact ⟨by omega, .inr (by omega)⟩

/-- What is rejected: more than `max_bytes`, and exactly `max_bytes` once a chunk arrives. -/
theorem rejects_iff {maxBytes : Nat} {chunks : List (Option Bytes × Bool)} {s : St K Unit}
    (hlen : TrueLength s.session.reqHeader (bodyLength chunks)) :
    Rejects maxBytes chunks s ↔
      maxBytes < bodyLength chunks ∨ (bodyLength chunks = maxBytes ∧ ∃ c ∈ chunks, c.1 ≠ none) := by
  obtain ⟨hheader, hstate⟩ := handleRequest_size maxBytes s
  have hnone := @bodyLength_none chunks
  unfold Rejects requestSizeRun
  rw [ne_eq, Act.untilStop_cons_eq_ok decision_continue, hheader, chunks_continue hstate]
  simp only [Nat.zero_add]
  by_cases hall : ∀ c ∈ chunks, c.1 = none
  · have hsome : ¬ ∃ c ∈ chunks, c.1 ≠ none := fun ⟨c, hc, hne⟩ => hne (hall c hc)
    have hheaderOk : ∀ len, contentLength s.session.reqHeader = some len → len ≤ maxBytes := by
      intro len hc
      have := hlen.contentLength hc
      rw [hnone hall] at this
      omega
    simp only [hsome, hnone hall, and_false, or_false, Nat.not_lt_zero, iff_false, not_not]
    exact ⟨hheaderOk, .inl hall⟩
  · have hsome : ∃ c ∈ chunks, c.1 ≠ none := by
      by_contra hno
      exact hall fun c hc => by_contra fun hne => hno ⟨c, hc, hne⟩
    simp only [hall, hsome, false_or, and_true]
    constructor
    · intro h
      by_contra hno
      refine h ⟨fun len hc => ?_, by omega⟩
      have := hlen.contentLength hc
      omega
    · rintro h ⟨-, hlt⟩
      omega

/-- **The verdict is the size limit, except for a body of exactly the limit.** It is right for
every chunking of every other body, and for an empty body of which nothing arrives. -/
theorem body_size_verdict_iff {maxBytes : Nat} {chunks : List (Option Bytes × Bool)}
    {s : St K Unit} (hlen : TrueLength s.session.reqHeader (bodyLength chunks)) :
    (Rejects maxBytes chunks s ↔ maxBytes < bodyLength chunks) ↔
      (bodyLength chunks ≠ maxBytes ∨ ∀ c ∈ chunks, c.1 = none) := by
  rw [rejects_iff hlen]
  constructor
  · intro h
    by_contra hno
    push Not at hno
    obtain ⟨heq, c, hc, hne⟩ := hno
    have := h.1 (.inr ⟨heq, c, hc, hne⟩)
    omega
  · rintro (hne | hall)
    · exact ⟨fun h => h.elim id fun h => absurd h.1 hne, .inl⟩
    · exact ⟨fun h => h.elim id fun ⟨_, c, hc, hs⟩ => absurd (hall c hc) hs, .inl⟩

def chunkedRequest : St refCrates Unit := (Gateway.start (getRequest "/upload")).2

/-- Four bytes against a limit of four: refused in one chunk. -/
theorem body_of_limit_rejected :
    TrueLength chunkedRequest.session.reqHeader (bodyLength [(some [1, 2, 3, 4], true)]) ∧
    Rejects 4 [(some [1, 2, 3, 4], true)] chunkedRequest ∧
    ¬ 4 < bodyLength [(some [1, 2, 3, 4], true)] := by
  have hstop : (requestSizeRun refCrates 4 [(some [1, 2, 3, 4], true)] chunkedRequest).1 =
      .ok .Stop := rfl
  refine ⟨.inl rfl, ?_, by decide⟩
  rw [Rejects, hstop]
  simp

theorem body_size_verdict_chunked :
    (Rejects 4 [(some [1, 2], false), (none, false), (some [3], true)] chunkedRequest ↔
        4 < bodyLength [(some [1, 2], false), (none, false), (some [3], true)]) ↔
      (bodyLength [(some [1, 2], false), (none, false), (some [3], true)] ≠ 4 ∨
        ∀ c ∈ [((some [1, 2] : Option Bytes), false), (none, false), (some [3], true)], c.1 = none) :=
  body_size_verdict_iff (.inl rfl)

end PingoraGuide
