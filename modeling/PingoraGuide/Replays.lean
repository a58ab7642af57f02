import PingoraGuide.BodyAccounting
/-!
# Retries replay the body

When an attempt on a reused connection fails, Pingora starts another one for the same request and
hands the body received so far to `request_body_filter` again. The counter of `request_size` lives
in the context of the request and only `handle_request` sets it to zero, so it counts the replayed
bytes as well: a body below the limit is refused once its replays take the counter there
(`replay_verdict_iff`).
-/
namespace PingoraGuide
open Fallible Wire

variable {K : Crates}

/-- The bytes of the chunks, in order. -/
def received (chunks : List (Option Bytes × Bool)) : Bytes := chunks.flatMap fun c => c.1.getD []

/-- The chunks of a client and what `request_body_filter` is handed: after any of them, everything
received so far may come again, in any chunks. -/
inductive Replayed : List (Option Bytes × Bool) → List (Option Bytes × Bool) → Prop
  | nil : Replayed [] []
  | chunk {client handed : List (Option Bytes × Bool)} (c : Option Bytes × Bool) :
      Replayed client handed → Replayed (client ++ [c]) (handed ++ [c])
  | replay {client handed again : List (Option Bytes × Bool)} : Replayed client handed →
      received again = received client → Replayed client (handed ++ again)

/-- A chunk arrives and the chunks together reach the limit. -/
def Reaches (maxBytes : Nat) (chunks : List (Option Bytes × Bool)) : Prop :=
  (∃ c ∈ chunks, c.1 ≠ none) ∧ maxBytes ≤ bodyLength chunks

theorem bodyLength_append (xs ys : List (Option Bytes × Bool)) :
    bodyLength (xs ++ ys) = bodyLength xs + bodyLength ys := by
  simp [bodyLength]

/-- Every chunk of the client is handed on. -/
theorem Replayed.mem {client handed : List (Option Bytes × Bool)} (h : Replayed client handed) :
    ∀ c ∈ client, c ∈ handed := by
  induction h with
  | nil => simp
  | chunk c _ ih =>
    intro x hx
    rcases List.mem_append.1 hx with hx | hx
    · exact List.mem_append_left _ (ih x hx)
    · exact List.mem_append_right _ hx
  | replay _ _ ih => exact fun x hx => List.mem_append_left _ (ih x hx)

/-- Replays only add bytes: each one the length of the body received so far. -/
theorem Replayed.length_le {client handed : List (Option Bytes × Bool)}
    (h : Replayed client handed) : bodyLength client ≤ bodyLength handed := by
  induction h with
  | nil => exact Nat.le_refl _
  | chunk c _ ih =>
    rw [bodyLength_append, bodyLength_append]
    omega
  | replay _ _ ih =>
    rw [bodyLength_append]
    omega

theorem Replayed.reaches {client handed : List (Option Bytes × Bool)} {maxBytes : Nat}
    (h : Replayed client handed) (hr : Reaches maxBytes client) : Reaches maxBytes handed := by
  obtain ⟨⟨c, hc, hne⟩, hlen⟩ := hr
  exact ⟨⟨c, h.mem c hc, hne⟩, hlen.trans h.length_le⟩

variable {g : Gateway K} {conf : ServerConf}

/-- The verdict on a whole request: the announced length, or the chunks handed over. -/
theorem request_verdict (hmain : g.middlewares = mainMiddlewares K conf) {session : Session}
    {c : Cfg K} (hopen : g.run (Gateway.start session) [.earlyRequestFilter, .requestFilter] = some c)
    (hran : ∃ out, .hook .request 2 out ∈ c.2.calls) {cs : List (Stage × Phase)} {s : St K Unit}
    (hlater : ∀ x ∈ cs, x.2.Later) (hrun : Trace.run g.call c.2 cs = some s) :
    SizeRejected s ↔
      HeaderTooLarge (maxBytesOf conf) session.reqHeader ∨
        Reaches (maxBytesOf conf) (bodyCalls cs) := by
  obtain ⟨hzero, hheader⟩ := opening_size hmain hopen hran
  obtain ⟨-, hverdict⟩ := calls_verdict hmain hzero hlater hrun
  rw [hverdict, hheader, Nat.zero_add]
  rfl

/-- **Replayed bytes count.** Two runs of one request, with the same client body, one without
retries and one with any replays between any other calls: `request_size` gives both the same
verdict if and only if the announced length is over the limit, or the client's body alone reaches
it, or the body does not reach it with all its replays. -/
theorem replay_verdict_iff (hmain : g.middlewares = mainMiddlewares K conf) {session : Session}
    {c : Cfg K} (hopen : g.run (Gateway.start session) [.earlyRequestFilter, .requestFilter] = some c)
    (hran : ∃ out, .hook .request 2 out ∈ c.2.calls)
    {plain retried : List (Stage × Phase)} {s s' : St K Unit}
    (hplain : ∀ x ∈ plain, x.2.Later) (hretried : ∀ x ∈ retried, x.2.Later)
    (hreplay : Replayed (bodyCalls plain) (bodyCalls retried))
    (hrun : Trace.run g.call c.2 plain = some s)
    (hrun' : Trace.run g.call c.2 retried = some s') :
    (SizeRejected s' ↔ SizeRejected s) ↔
      HeaderTooLarge (maxBytesOf conf) session.reqHeader ∨
        Reaches (maxBytesOf conf) (bodyCalls plain) ∨
        ¬ Reaches (maxBytesOf conf) (bodyCalls retried) := by
  rw [request_verdict hmain hopen hran hplain hrun, request_verdict hmain hopen hran hretried hrun']
  have hmono : Reaches (maxBytesOf conf) (bodyCalls plain) →
      Reaches (maxBytesOf conf) (bodyCalls retried) := hreplay.reaches
  by_cases hheader : HeaderTooLarge (maxBytesOf conf) session.reqHeader
  · simp [hheader]
  · simp only [hheader, false_or]
    constructor
    · intro h
      by_cases hr : Reaches (maxBytesOf conf) (bodyCalls retried)
      · exact .inl (h.1 hr)
      · exact .inr hr
    · rintro (hp | hr)
      · exact ⟨fun _ => hp, hmono⟩
      · exact ⟨fun h => absurd h hr, hmono⟩

/-- The client's three bytes, without a retry. -/
def plainUpload : List (Stage × Phase) := [(.proxying, .requestBodyFilter (some [1, 2, 3]) false)]

theorem plainUpload_replayed : Replayed (bodyCalls plainUpload) (bodyCalls replayedUpload) := by
  have hone : Replayed [(some [1, 2, 3], false)] [(some [1, 2, 3], false)] := .chunk _ .nil
  exact hone.replay rfl

theorem smallBodyGateway_main :
    smallBodyGateway.middlewares = mainMiddlewares refCrates smallBodyConf.server := rfl

/-- Both uploads from one opened request. -/
theorem plainUpload_runs :
    ∃ c s s', smallBodyGateway.run (Gateway.start (getRequest "/"))
        [.earlyRequestFilter, .requestFilter] = some c ∧
      (∃ out, .hook .request 2 out ∈ c.2.calls) ∧
      Trace.run smallBodyGateway.call c.2 plainUpload = some s ∧
      Trace.run smallBodyGateway.call c.2 replayedUpload = some s' := by
  obtain ⟨c, s', hopen, hran, hrun'⟩ := smallBodyGateway_opens
  exact ⟨c, _, s', hopen, hran, rfl, hrun'⟩

theorem uploads_later : (∀ x ∈ plainUpload, x.2.Later) ∧ ∀ x ∈ replayedUpload, x.2.Later := by
  simp [plainUpload, replayedUpload, Phase.Later]

/-- A client body of three bytes under a limit of four is refused once it is replayed. -/
theorem replay_rejected :
    ∃ c s s', smallBodyGateway.run (Gateway.start (getRequest "/"))
        [.earlyRequestFilter, .requestFilter] = some c ∧
      Replayed (bodyCalls plainUpload) (bodyCalls replayedUpload) ∧
      Trace.run smallBodyGateway.call c.2 plainUpload = some s ∧
      Trace.run smallBodyGateway.call c.2 replayedUpload = some s' ∧
      SizeRejected s' ∧ ¬ SizeRejected s := by
  obtain ⟨c, s, s', hopen, hran, hrun, hrun'⟩ := plainUpload_runs
  obtain ⟨hplain, hretried⟩ := uploads_later
  have hfits : ¬ HeaderTooLarge 4 (getRequest "/").reqHeader := by
    rintro ⟨len, hlen, -⟩
    cases hlen
  refine ⟨c, s, s', hopen, plainUpload_replayed, hrun, hrun', ?_, ?_⟩
  · rw [request_verdict smallBodyGateway_main hopen hran hretried hrun']
    have hchunk : (some [1, 2, 3], false) ∈ bodyCalls replayedUpload := .head _
    exact .inr ⟨⟨_, hchunk, by simp⟩, by decide⟩
  · rw [request_verdict smallBodyGateway_main hopen hran hplain hrun]
    rintro (hheader | ⟨-, hreach⟩)
    · exact hfits hheader
    · exact absurd hreach (by decide)

theorem replay_verdict_iff_small :
    ∃ s s' : St refCrates Unit, (SizeRejected s' ↔ SizeRejected s) ↔
      HeaderTooLarge 4 (getRequest "/").reqHeader ∨ Reaches 4 (bodyCalls plainUpload) ∨
        ¬ Reaches 4 (bodyCalls replayedUpload) := by
  obtain ⟨c, s, s', hopen, hran, hrun, hrun'⟩ := plainUpload_runs
  obtain ⟨hplain, hretried⟩ := uploads_later
  exact ⟨s, s', replay_verdict_iff smallBodyGateway_main hopen hran hplain hretried
    plainUpload_replayed hrun hrun'⟩

end PingoraGuide
