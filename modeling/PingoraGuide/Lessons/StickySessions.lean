import PingoraGuide.Lib.Tasks
import PingoraGuide.Upstream
/-!
# Sticky sessions

A request without a session cookie draws the next number of a counter that all requests share, and
its response sets the cookie. Pingora may call `upstream_peer` several times for one request; each
call then draws another number, and the last one goes into the cookie.

| here | there |
| --- | --- |
| `sessionCounter`  | `SESSION_COUNTER` (examples/29_sticky_sessions.rs:15), drawn from by `fetch_add` |
| `cookieLoop`, `sessionCookie` | 29_sticky_sessions.rs:35-46 |
| `upstreamPeer`    | 29_sticky_sessions.rs:30-68 |
| `responseFilter`  | 29_sticky_sessions.rs:70-82 |
| `sessions`        | the requests of the process, in any interleaving |
-/
namespace PingoraGuide.StickySessions
open Fallible Tasks Wire

structure StickyCtx where
  newSessionId : Option String
deriving DecidableEq, Repr

def newCtx : StickyCtx := ⟨none⟩

def marker : List Char := "session-id=".toList

/-- `trim_start_matches`: the marker goes as often as it stands in front. -/
def trimStartMatches : Nat → List Char → List Char
  | 0, cs => cs
  | fuel + 1, cs =>
    if marker.isPrefixOf cs then trimStartMatches fuel (cs.drop marker.length) else cs

def cookieLoop : List (List Char) → List Char
  | [] => []
  | part :: parts =>
    let part := trim part
    if marker.isPrefixOf part then trimStartMatches part.length part else cookieLoop parts

def sessionCookie (headers : HeaderMap) : List Char :=
  match HeaderMap.header headers "Cookie" with
  | none => []
  | some cookieVal =>
    let cookieStr := (toStr cookieVal).getD ""
    cookieLoop (cookieStr.toList.splitOn ';')

def sessionCounter : Nat := 100

def userId (n : Nat) : String := "user-" ++ Nat.repr n

def noUpstream : PError := .explain (.Custom "NoUpstreamAvailable") "Empty upstream pool"

def pick (select : Bytes → Option Backend) (sessionId : String) : Except PError HttpPeer :=
  match select (utf8 sessionId) with
  | none => .error noUpstream
  | some upstream => .ok { address := upstream.addr, tls := false, sni := "sticky.cluster" }

/-- The counter, the context and the session id after the call, and what it returns. -/
def upstreamPeer (select : Bytes → Option Backend) (headers : HeaderMap) (counter : Nat)
    (ctx : StickyCtx) : Nat × StickyCtx × String × Except PError HttpPeer :=
  let cookie := sessionCookie headers
  let (counter, ctx, sessionId) :=
    if cookie = [] then
      let (newId, counter) := fetchAdd counter
      let sessionId := userId newId
      (counter, { ctx with newSessionId := some sessionId }, sessionId)
    else (counter, ctx, String.ofList cookie)
  (counter, ctx, sessionId, pick select sessionId)

def responseFilter (upstreamResponse : ResponseHeader) (ctx : StickyCtx) :
    Res PError ResponseHeader :=
  match ctx.newSessionId with
  | none => .ok upstreamResponse
  | some newId => do
    let cookieValue := "session-id=" ++ newId ++ "; Path=/"
    let headers ← insertHeader upstreamResponse.headers "Set-Cookie" cookieValue
    .ok { upstreamResponse with headers := headers }

structure Session where
  headers : HeaderMap
  ctx : StickyCtx := newCtx
  /-- the session id of the last selection -/
  key : Option String := none
  /-- how far the counter was when this request last drew -/
  drawn : Option Nat := none

def step (counter : Nat) (r : Session) (select : Bytes → Option Backend) : Option (Nat × Session) :=
  let (counter', ctx, sessionId, _) := upstreamPeer select r.headers counter r.ctx
  some (counter', { r with
    ctx := ctx, key := some sessionId, drawn := if counter' = counter then r.drawn else some counter })

/-- A move is the arrival of a request, or a call of its `upstream_peer`. -/
def sessions : Tasks.System Nat Session HeaderMap (Bytes → Option Backend) where
  init headers := { headers }
  act := step

/-! ## What a call does -/

theorem step_cases {counter counter' : Nat} {r r' : Session} (select : Bytes → Option Backend)
    (h : step counter r select = some (counter', r')) :
    (sessionCookie r.headers = [] ∧ counter' = counter + 1 ∧
      r' = ⟨r.headers, ⟨some (userId (counter % 2 ^ 64))⟩, some (userId (counter % 2 ^ 64)),
        some counter⟩) ∨
    (sessionCookie r.headers ≠ [] ∧ counter' = counter ∧
      r' = { r with key := some (String.ofList (sessionCookie r.headers)) }) := by
  by_cases hcookie : sessionCookie r.headers = []
  · simp only [step, upstreamPeer, fetchAdd, if_pos hcookie, Option.some.injEq, Prod.mk.injEq] at h
    obtain ⟨rfl, rfl⟩ := h
    exact .inl ⟨hcookie, rfl, by simp⟩
  · simp only [step, upstreamPeer, if_neg hcookie, Option.some.injEq, Prod.mk.injEq] at h
    obtain ⟨rfl, rfl⟩ := h
    exact .inr ⟨hcookie, rfl, by simp⟩

/-- What a request holds is what it last drew. -/
structure Session.Drew (counter : Nat) (r : Session) : Prop where
  name : r.ctx.newSessionId = r.drawn.map fun n => userId (n % 2 ^ 64)
  range : ∀ n, r.drawn = some n → sessionCounter ≤ n ∧ n < counter
  key : ∀ n, r.drawn = some n → sessionCookie r.headers = [] ∧ r.key = r.ctx.newSessionId

theorem sessions_invariant : sessions.Invariant (fun counter => sessionCounter ≤ counter)
    fun counter r => r.Drew counter where
  spawn := fun counter headers _ => ⟨rfl, nofun, nofun⟩
  act := by
    intro counter r select counter' r' hcounter hr h
    rcases step_cases select h with ⟨hcookie, rfl, rfl⟩ | ⟨hcookie, rfl, rfl⟩
    · refine ⟨Nat.le_succ_of_le hcounter, ⟨rfl, fun n hn => ?_, fun n _ => ⟨hcookie, rfl⟩⟩⟩
      obtain rfl := Option.some.inj hn
      exact ⟨hcounter, Nat.lt_succ_self _⟩
    · exact ⟨hcounter, hr.name, hr.range, fun n hn => absurd (hr.key n hn).1 hcookie⟩
  frame := by
    intro counter r select counter' r' u _ _ hu h
    refine ⟨hu.name, fun n hn => ?_, hu.key⟩
    obtain ⟨hlow, hhigh⟩ := hu.range n hn
    rcases step_cases select h with ⟨-, rfl, -⟩ | ⟨-, rfl, -⟩ <;> exact ⟨hlow, by omega⟩

variable {s : Tasks.State Nat Session} {ms : List (Tasks.Move HeaderMap (Bytes → Option Backend))}

/-- No two requests drew the same number. -/
theorem drawn_apart (h : sessions.run sessionCounter ms = some s) :
    s.tasks.Pairwise fun t u => ∀ n, t.drawn = some n → u.drawn ≠ some n := by
  refine sessions_invariant.apart (fun t u htu n hu ht => htu n ht hu) (fun counter a u _ _ n _ => ?_)
    (fun counter t select counter' t' u _ ht hu hstep htu n hn => ?_) (Nat.le_refl _) h
  · exact nofun
  · rcases step_cases select hstep with ⟨-, rfl, rfl⟩ | ⟨-, rfl, rfl⟩
    · obtain rfl := Option.some.inj hn
      intro hu'
      have hlt := (hu.range _ hu').2
      omega
    · exact htu n hn

theorem userId_inj {m n : Nat} (h : userId m = userId n) : m = n := by
  have hlist := congrArg String.toList h
  simp only [userId, String.toList_append, Nat.toList_repr] at hlist
  have hdigits := congrArg (fun ds => Nat.ofDigitChars 10 ds 0) (List.append_cancel_left hlist)
  simpa only [Nat.ofDigitChars_ten_toDigits] using hdigits

/-- Until the counter has been drawn from `2 ^ 64` times, no two requests hold the same new session
id, however their calls interleave and however often each is retried. -/
theorem session_ids_unique (h : sessions.run sessionCounter ms = some s)
    (hwrap : s.shared ≤ sessionCounter + 2 ^ 64) :
    s.tasks.Pairwise fun t u => ∀ id, t.ctx.newSessionId = some id → u.ctx.newSessionId ≠ some id := by
  have hdrew := (sessions_invariant.run (Nat.le_refl _) h).2
  refine (drawn_apart h).imp_of_mem fun {t u} ht hu hne id hid hid' => ?_
  rw [(hdrew t ht).name, Option.map_eq_some_iff] at hid
  rw [(hdrew u hu).name, Option.map_eq_some_iff] at hid'
  obtain ⟨m, hm, rfl⟩ := hid
  obtain ⟨n, hn, hname⟩ := hid'
  have hmod := userId_inj hname
  obtain ⟨hmlow, hmhigh⟩ := (hdrew t ht).range m hm
  obtain ⟨hnlow, hnhigh⟩ := (hdrew u hu).range n hn
  obtain rfl : m = n := by omega
  exact hne m hm hn

def twoArrivals : Tasks.State Nat Session :=
  ⟨103, [⟨[], ⟨some "user-102"⟩, some "user-102", some 102⟩,
    ⟨[], ⟨some "user-101"⟩, some "user-101", some 101⟩]⟩

/-- The first request is retried after the second has drawn. -/
def retried : List (Tasks.Move HeaderMap (Bytes → Option Backend)) :=
  [.spawn [], .spawn [], .act 0 fun _ => none, .act 1 fun _ => none, .act 0 fun _ => none]

theorem session_ids_unique_retried : sessions.run sessionCounter retried = some twoArrivals ∧
    twoArrivals.tasks.Pairwise fun t u =>
      ∀ id, t.ctx.newSessionId = some id → u.ctx.newSessionId ≠ some id := by
  have hrun : sessions.run sessionCounter retried = some twoArrivals := rfl
  exact ⟨hrun, session_ids_unique hrun (by decide)⟩

/-! ## The cookie comes back -/

def Visible (cs : List Char) : Prop := ∀ c ∈ cs, 32 ≤ c.toNat ∧ c.toNat < 127

instance (cs : List Char) : Decidable (Visible cs) :=
  List.decidableBAll (fun c : Char => 32 ≤ c.toNat ∧ c.toNat < 127) cs

theorem Visible.append {cs ds : List Char} (hcs : Visible cs) (hds : Visible ds) :
    Visible (cs ++ ds) := fun c hc => (List.mem_append.1 hc).elim (hcs c) (hds c)

theorem userId_visible (n : Nat) : Visible (userId n).toList := by
  rw [userId, String.toList_append, Nat.toList_repr]
  refine .append (by decide) fun c hc => ?_
  have hdigit := Nat.isDigit_of_mem_toDigits (by decide) (by decide) hc
  simp only [Char.isDigit, Bool.and_eq_true, decide_eq_true_eq, ge_iff_le,
    UInt32.le_iff_toNat_le] at hdigit
  obtain ⟨hlow, hhigh⟩ := hdigit
  change 48 ≤ c.toNat at hlow
  change c.toNat ≤ 57 at hhigh
  omega

theorem trimStartMatches_of_not {cs : List Char} (h : ¬ marker <+: cs) (fuel : Nat) :
    trimStartMatches fuel cs = cs := by
  cases fuel with
  | zero => rfl
  | succ fuel => rw [trimStartMatches, if_neg (mt List.isPrefixOf_iff_prefix.1 h)]

/-- The marker goes once where it stands once. -/
theorem trimStartMatches_marker {cs : List Char} (h : ¬ marker <+: cs) (fuel : Nat) :
    trimStartMatches (fuel + 1) (marker ++ cs) = cs := by
  rw [trimStartMatches, if_pos (List.isPrefixOf_iff_prefix.2 (List.prefix_append _ _)),
    List.drop_left, trimStartMatches_of_not h]

theorem marker_not_userId (n : Nat) : ¬ marker <+: (userId n).toList := by
  rw [userId, String.toList_append]
  intro h
  have hs : 's' = 'u' := (List.cons_prefix_cons.1 h).1
  exact absurd hs (by decide)

/-- The loop finds the first part that begins with the marker. -/
theorem cookieLoop_append {before : List (List Char)} (hbefore : ∀ q ∈ before, ¬ marker <+: trim q)
    (part : List Char) (after : List (List Char)) :
    cookieLoop (before ++ part :: after) = cookieLoop (part :: after) := by
  induction before with
  | nil => rfl
  | cons q before ih =>
    rw [List.cons_append, cookieLoop, if_neg (mt List.isPrefixOf_iff_prefix.1 (hbefore q (by simp))),
      ih fun q' hq' => hbefore q' (by simp [hq'])]

/-- The cookies of a client that sends back a session id: its first Cookie line is visible ASCII, and
the first part of it that begins with `session-id=` is the one that was set. -/
structure Returns (headers : HeaderMap) (id : String) : Prop where
  cookies : ∃ line before part after, HeaderMap.header headers "Cookie" = some line ∧
    line.all visibleAscii = true ∧ (line.map chr).splitOn ';' = before ++ part :: after ∧
    trim part = ("session-id=" ++ id).toList ∧ ∀ q ∈ before, ¬ marker <+: trim q

theorem sessionCookie_returns {headers : HeaderMap} {n : Nat} (h : Returns headers (userId n)) :
    sessionCookie headers = (userId n).toList := by
  obtain ⟨line, before, part, after, hheader, htext, hsplit, hpart, hbefore⟩ := h.cookies
  have hmarker : trim part = marker ++ (userId n).toList := by
    rw [hpart, String.toList_append]
    rfl
  obtain ⟨fuel, hfuel⟩ : ∃ fuel, (marker ++ (userId n).toList).length = fuel + 1 := ⟨_, rfl⟩
  rw [sessionCookie, hheader]
  dsimp only
  rw [toStr_eq htext, Option.getD_some, String.toList_ofList, hsplit, cookieLoop_append hbefore,
    cookieLoop, hmarker, if_pos (List.isPrefixOf_iff_prefix.2 (List.prefix_append _ _)), hfuel,
    trimStartMatches_marker (marker_not_userId n)]

theorem insertHeader_setCookie (headers : HeaderMap) (n : Nat) :
    insertHeader headers "Set-Cookie" ("session-id=" ++ userId n ++ "; Path=/") =
      .ok (MultiMap.insert headers "set-cookie" (utf8 ("session-id=" ++ userId n ++ "; Path=/"))) := by
  have hvisible : Visible ("session-id=" ++ userId n ++ "; Path=/").toList := by
    rw [String.toList_append, String.toList_append]
    exact .append (.append (by decide) (userId_visible n)) (by decide)
  have hvalue : headerValue ("session-id=" ++ userId n ++ "; Path=/") =
      some (utf8 ("session-id=" ++ userId n ++ "; Path=/")) := by
    refine if_pos (List.all_eq_true.2 fun b hb => ?_)
    have hb := List.all_eq_true.1 (encode_visible hvisible).1 b hb
    simp only [visibleAscii, Bool.or_eq_true, Bool.and_eq_true, decide_eq_true_eq, beq_iff_eq,
      bne_iff_ne] at hb ⊢
    refine hb.imp_left fun hrange => ⟨hrange.1, ?_⟩
    rintro rfl
    exact absurd hrange.2 (by decide)
  have hname : headerName "Set-Cookie" = some "set-cookie" := by decide
  rw [insertHeader, hvalue, hname]

/-- A request that has drawn a session id was routed by it in its last attempt, and its response
sets one cookie, which replaces any that the upstream set. A client that sends this cookie back in
its first Cookie line, among whatever other cookies, is routed by the same id, draws no number and
is sent no cookie. -/
theorem session_round_trip (h : sessions.run sessionCounter ms = some s) {t : Session}
    (ht : t ∈ s.tasks) {id : String} (hid : t.ctx.newSessionId = some id) :
    t.key = some id ∧
    (∀ response, responseFilter response t.ctx = .ok { response with
      headers := MultiMap.insert response.headers "set-cookie"
        (utf8 ("session-id=" ++ id ++ "; Path=/")) }) ∧
    ∀ headers, Returns headers id → ∀ select counter ctx,
      upstreamPeer select headers counter ctx = (counter, ctx, id, pick select id) := by
  have hdrew := (sessions_invariant.run (Nat.le_refl _) h).2 t ht
  have hname := hdrew.name
  rw [hid, eq_comm, Option.map_eq_some_iff] at hname
  obtain ⟨n, hn, rfl⟩ := hname
  refine ⟨(hdrew.key n hn).2.trans hid, fun response => ?_, fun headers hreturns select counter ctx => ?_⟩
  · rw [responseFilter, hid]
    dsimp only
    rw [insertHeader_setCookie]
    rfl
  · have hcookie := sessionCookie_returns hreturns
    have hne : (userId (n % 2 ^ 64)).toList ≠ [] := by simp [userId]
    simp only [upstreamPeer, hcookie, if_neg hne, String.ofList_toList]

theorem session_round_trip_retried : sessions.run sessionCounter retried = some twoArrivals ∧
    (responseFilter ⟨200, [("set-cookie", utf8 "theme=dark")]⟩ ⟨some "user-102"⟩ =
      .ok ⟨200, [("set-cookie", utf8 "session-id=user-102; Path=/")]⟩) ∧
    ∀ select counter, upstreamPeer select [("cookie", utf8 "theme=dark; session-id=user-102")]
      counter newCtx = (counter, newCtx, "user-102", pick select "user-102") := by
  have hrun : sessions.run sessionCounter retried = some twoArrivals := rfl
  obtain ⟨-, hresponse, hback⟩ := session_round_trip hrun
    (t := ⟨[], ⟨some "user-102"⟩, some "user-102", some 102⟩) (by simp [twoArrivals]) rfl
  have hreturns : Returns [("cookie", utf8 "theme=dark; session-id=user-102")] "user-102" := by
    refine ⟨utf8 "theme=dark; session-id=user-102", ["theme=dark".toList],
      " session-id=user-102".toList, [], ?_, ?_, ?_, ?_, ?_⟩ <;> decide +kernel
  refine ⟨hrun, ?_, fun select counter => hback _ hreturns select counter newCtx⟩
  rw [hresponse]
  decide +kernel

end PingoraGuide.StickySessions
