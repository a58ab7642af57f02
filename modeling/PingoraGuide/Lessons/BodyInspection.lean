import Mathlib.Data.List.Infix
import PingoraGuide.Basic
import PingoraGuide.Lib.Lossy
import PingoraGuide.Lib.Trace
/-!
# Body inspection

`BodyInspector` keeps all bytes of a request that it has seen and looks for a forbidden word in
their lossy decoding, every time a chunk arrives. Pingora passes a chunk on once the filter has
returned `Ok`, and gives the request up at its first error. The calls below are those of all
attempts: when Pingora replays the body to another connection the buffer still holds the first
reading.

| here | there |
| --- | --- |
| `BodyCtx`, `newCtx`  | examples/12_body_inspection.rs:11-21 |
| `requestBodyFilter`  | 12_body_inspection.rs:36-55 |
| `forwarded`          | the chunks that reach the upstream |
-/
namespace PingoraGuide.BodyInspection
open Wire

structure BodyCtx where
  buffer : Bytes
deriving DecidableEq, Repr

def newCtx : BodyCtx := ⟨[]⟩

def SecurityPolicyViolation : PError := ⟨.Custom "SecurityPolicyViolation", none⟩

def requestBodyFilter (ctx : BodyCtx) (body : Option Bytes) : Except PError Unit × BodyCtx :=
  match body with
  | some bytes =>
    let ctx := { ctx with buffer := ctx.buffer ++ bytes }
    let content := fromUtf8Lossy ctx.buffer
    if "rogue".toList <:+: content then (.error SecurityPolicyViolation, ctx) else (.ok (), ctx)
  | none => (.ok (), ctx)

/-- The next call, if Pingora goes on after this one. -/
def pass (ctx : BodyCtx) (body : Option Bytes) : Option BodyCtx :=
  match requestBodyFilter ctx body with
  | (.ok (), ctx) => some ctx
  | (.error _, _) => none

def forwarded (bodies : List (Option Bytes)) : List (Option Bytes) :=
  Trace.accepted pass newCtx bodies

/-- The bytes of the chunks, one after the other. -/
def joined (bodies : List (Option Bytes)) : Bytes := bodies.flatMap fun body => body.getD []

/-! ## What is forwarded -/

/-- The decoding hides no forbidden word and makes none up. -/
theorem rogue_iff (buffer : Bytes) :
    "rogue".toList <:+: fromUtf8Lossy buffer ↔ utf8 "rogue" <:+: buffer := by
  have htext : "rogue".toList = (utf8 "rogue").map chr := by decide +kernel
  rw [htext]
  exact infix_fromUtf8Lossy (by decide +kernel) (by decide +kernel) buffer

theorem pass_some (ctx : BodyCtx) (bytes : Bytes) : pass ctx (some bytes) =
    if utf8 "rogue" <:+: ctx.buffer ++ bytes then none else some ⟨ctx.buffer ++ bytes⟩ := by
  by_cases h : utf8 "rogue" <:+: ctx.buffer ++ bytes
  · simp only [pass, requestBodyFilter, rogue_iff, if_pos h]
  · simp only [pass, requestBodyFilter, rogue_iff, if_neg h]

/-- A buffer without the word takes chunks as long as it stays without. -/
theorem run_isSome {ctx : BodyCtx} (hctx : ¬ utf8 "rogue" <:+: ctx.buffer)
    (bodies : List (Option Bytes)) :
    (Trace.run pass ctx bodies).isSome ↔ ¬ utf8 "rogue" <:+: ctx.buffer ++ joined bodies := by
  induction bodies generalizing ctx with
  | nil => simpa [Trace.run, joined] using hctx
  | cons body bodies ih =>
    cases body with
    | none => exact ih hctx
    | some bytes =>
      have hjoined : ctx.buffer ++ joined (some bytes :: bodies) =
          (ctx.buffer ++ bytes) ++ joined bodies := by simp [joined]
      rw [hjoined, Trace.run, pass_some]
      by_cases h : utf8 "rogue" <:+: ctx.buffer ++ bytes
      · rw [if_pos h]
        have hmore := h.trans (List.prefix_append (ctx.buffer ++ bytes) (joined bodies)).isInfix
        simpa using hmore
      · rw [if_neg h]
        have hclean : ¬ utf8 "rogue" <:+: (⟨ctx.buffer ++ bytes⟩ : BodyCtx).buffer := h
        exact ih hclean

/-- However the body is cut: the chunks that reach the upstream are the longest start of it whose
bytes, put together, do not contain the forbidden word, whether it lies in one chunk or across
several and whatever bytes are around it. -/
theorem forwarded_exact (bodies pre : List (Option Bytes)) :
    pre <+: forwarded bodies ↔ pre <+: bodies ∧ ¬ utf8 "rogue" <:+: joined pre := by
  have hnil : ¬ utf8 "rogue" <:+: newCtx.buffer := by decide
  constructor
  · intro h
    have hpre := h.trans Trace.accepted_prefix
    refine ⟨hpre, ?_⟩
    simpa [newCtx] using (run_isSome hnil pre).1 ((Trace.prefix_accepted hpre).1 h)
  · rintro ⟨hpre, hclean⟩
    exact (Trace.prefix_accepted hpre).2 ((run_isSome hnil pre).2 (by simpa [newCtx] using hclean))

-- cut in the middle of the word, behind a broken character
example : forwarded [some (utf8 "a" ++ [0xC3] ++ utf8 "rog"), some (utf8 "ue"), none] =
    [some (utf8 "a" ++ [0xC3] ++ utf8 "rog")] := by
  decide +kernel

end PingoraGuide.BodyInspection
