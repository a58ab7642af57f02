import PingoraGuide.Responses
import PingoraGuide.RouteLookup
/-!
# Error pages

`fail_to_proxy` serves the page a route configures for the status of the error, and pingora's stock
answer where there is none or it cannot be served (`failToProxy_sent`). The page it consults is
that of the `RouteConf` in the context, and no request has one there: a configured page is never
served (`error_page_iff`).
-/
namespace PingoraGuide
open Fallible Wire

variable {K : Crates} {β ε : Type}

/-- The content of the file a route configures for this status, if it can be read. -/
def readablePage (K : Crates) (route : RouteConf) (code : Nat) : Option Bytes :=
  (route.errorPages.bind fun pages => pages.get code).bind fun path => (K.fsRead path).toOption

/-- What this write puts on the wire. -/
def Session.sends (se : Session) (ev : Sent) : List Sent := if se.delivers ev then [ev] else []

/-- `write_response_header` would return `Ok(())` now: a final response was started and it does
nothing, or the client takes the header. -/
def HeaderTaken (s : St K β) : Bool := s.session.finalWritten || s.session.env.writeOk s.session.writes

/-- What the client is sent: `page` as content, or the stock answer. -/
def answer (page : Option Bytes) (code : Nat) (se : Session) : List Sent :=
  match page with
  | none => se.sends (.error code)
  | some content =>
    let header := Sent.header (errorPageHeader code content)
    se.sends header ++ (se.after header).sends
      (if se.takes header then .body content true else .error code)

/-- The answer to an error of this kind, given the route of the request and the state that the
error hooks left: the page when it can be read and its header written, else the stock answer. -/
structure CustomPage (g : Gateway K) (route : RouteConf) (e : PError) (s s1 : St K Unit) : Prop where
  page : ∀ content, readablePage K route (errorStatus e.etype) = some content →
    HeaderTaken s1 = true → (g.failToProxy e s).2.session.sent = s1.session.sent ++
      [.header (errorPageHeader (errorStatus e.etype) content), .body content true]
  stock : ∀ l, (g.failToProxy e s).2.session.sent = s1.session.sent ++ l →
    .error (errorStatus e.etype) ∈ l →
      readablePage K route (errorStatus e.etype) = none ∨ HeaderTaken s1 = false
  code : ∃ out, (g.failToProxy e s).1 = .ok out ∧ out.errorCode = errorStatus e.etype

theorem Session.after_sent (se : Session) (ev : Sent) :
    (se.after ev).sent = se.sent ++ se.sends ev := by
  unfold Session.sends
  rcases se.after_cases ev with ⟨hd, -, hsent, -⟩ | ⟨hd, hsent, -⟩ <;> simp [hd, hsent]

theorem Session.sends_ne (se : Session) (ev : Sent) {a b : Sent} : se.sends ev ≠ [a, b] := by
  unfold Session.sends
  split <;> simp

/-- A header that goes out opens the body. -/
theorem Session.after_header {se : Session} {h : ResponseHeader}
    (hd : se.delivers (.header h) = true) (b : Bytes) (eos : Bool) :
    (se.after (.header h)).delivers (.body b eos) = se.env.writeOk (se.writes + 1) := by
  simp only [Session.delivers, Bool.and_eq_true, Bool.not_eq_true'] at hd
  obtain ⟨hfinal, hok⟩ := hd
  change se.finalWritten = false at hfinal
  simp [Session.delivers, Session.after, hfinal, hok, Session.drops, Sent.endsBody]

/-- The page is answered, and nothing else, when it is the one found, no final response was started
before, and the client takes header and body. -/
theorem answer_eq_page {page : Option Bytes} {code : Nat} {content : Bytes} {se : Session}
    (htakes : se.takes (.header (errorPageHeader code content)) = true) :
    answer page code se = [.header (errorPageHeader code content), .body content true] ↔
      page = some content ∧ se.finalWritten = false ∧ se.env.writeOk (se.writes + 1) = true := by
  cases page with
  | none =>
    have hne : answer none code se ≠
        [.header (errorPageHeader code content), .body content true] := se.sends_ne (.error code)
    simp [hne]
  | some found =>
    have htakes' : se.takes (.header (errorPageHeader code found)) = true := htakes
    cases hfinal : se.finalWritten with
    | true =>
      have hnone : se.sends (.header (errorPageHeader code found)) = [] := by
        simp [Session.sends, Session.delivers, Session.drops, hfinal]
      have hne : answer (some found) code se ≠
          [.header (errorPageHeader code content), .body content true] := by
        unfold answer
        dsimp only
        rw [hnone]
        exact Session.sends_ne _ _
      simp [hne]
    | false =>
      have hd : se.delivers (.header (errorPageHeader code found)) = true := by
        simpa [Session.delivers, Session.takes, Session.drops, hfinal] using htakes'
      simp only [answer, Session.sends, htakes', hd, if_true, Session.after_header hd]
      cases se.env.writeOk (se.writes + 1) with
      | false => simp
      | true =>
        simp only [if_true, List.cons_append, List.nil_append, List.cons.injEq, Sent.body.injEq,
          and_true, Option.some.injEq]
        constructor
        · exact fun h => h.2
        · rintro rfl
          exact ⟨rfl, rfl⟩

/-! ## What `fail_to_proxy` sends -/

/-- An attempted write is looked at and forgotten. -/
theorem attempt_write (ev : Sent) (s : St K β) :
    (write ev).attempt s =
      ((.ok (if s.session.takes ev then .ok () else .error ⟨.WriteError, none⟩),
        { s with session := s.session.after ev }) : Res ε (Except PError Unit) × St K β) := by
  unfold Act.attempt write
  cases s.session.takes ev <;> rfl

section
variable {g : Gateway K} {e : PError} {s s1 : St K Unit}

theorem respondUnless_false (code : Nat) (s : St K Unit) :
    (respondUnless false code : Act (St K Unit) PError Unit) s =
      (.ok (), { s with session := s.session.after (.error code) }) :=
  Act.bind_of_ok (attempt_write (.error code) s)

/-- The page of the route in the context, then the stock answer if none was served. -/
theorem serveErrorPage_sent (code : Nat) (s : St K Unit) :
    ∃ served s' s'', (serveErrorPage code : Act (St K Unit) PError Bool) s = (.ok served, s') ∧
      (respondUnless served code : Act (St K Unit) PError Unit) s' = (.ok (), s'') ∧
      s''.session.sent = s.session.sent ++
        answer ((s.ctx.get .routeConf).bind fun route : RouteConf => readablePage K route code) code
          s.session := by
  have hroute : (getRouteConf : Act (St K Unit) PError _) s =
      (.ok (s.ctx.get .routeConf), s.log (.routeLookup (s.ctx.get .routeConf))) := rfl
  have hstock : ∀ found, ∃ s'', (respondUnless false code : Act (St K Unit) PError Unit)
      (s.log (.routeLookup found)) = (.ok (), s'') ∧
      s''.session.sent = s.session.sent ++ answer none code s.session :=
    fun found => ⟨_, respondUnless_false code _, Session.after_sent _ _⟩
  unfold serveErrorPage
  rw [Act.bind_of_ok hroute]
  rcases s.ctx.get .routeConf with _ | route
  · obtain ⟨s'', hrun, hsent⟩ := hstock _
    exact ⟨false, _, s'', rfl, hrun, hsent⟩
  rw [Option.bind_some]
  unfold readablePage
  dsimp only
  rcases route.errorPages.bind fun pages => pages.get code with _ | path
  · obtain ⟨s'', hrun, hsent⟩ := hstock _
    exact ⟨false, _, s'', rfl, hrun, hsent⟩
  dsimp only [Option.bind_some]
  rcases K.fsRead path with _ | content
  · obtain ⟨s'', hrun, hsent⟩ := hstock _
    exact ⟨false, _, s'', rfl, hrun, hsent⟩
  clear hstock
  dsimp only [writeResponseHeader, writeResponseBody, Except.toOption, answer]
  rw [Act.bind_of_ok (attempt_write (.header (errorPageHeader code content)) _), log_session]
  cases htakes : s.session.takes (.header (errorPageHeader code content)) with
  | true =>
    refine ⟨true, _, _, Act.bind_of_ok (attempt_write (.body content true) _), rfl, ?_⟩
    simp only [Session.after_sent, if_true, List.append_assoc]
  | false =>
    refine ⟨false, _, _, rfl, respondUnless_false code _, ?_⟩
    simp only [Session.after_sent, Bool.false_eq_true, if_false, List.append_assoc]

/-- **What `fail_to_proxy` does when no error hook stops.** -/
theorem failToProxy_sent (hooks : runHooksLenient (.error e) g.chain.reverse s = (.ok .Continue, s1)) :
    (g.failToProxy e s).1 = .ok ⟨errorStatus e.etype, false⟩ ∧
      (g.failToProxy e s).2.session.sent = s1.session.sent ++
        answer ((s1.ctx.get .routeConf).bind fun route : RouteConf =>
          readablePage K route (errorStatus e.etype)) (errorStatus e.etype) s1.session := by
  obtain ⟨served, s2, s3, hpage, hresp, hsent⟩ := serveErrorPage_sent (errorStatus e.etype) s1
  have hrun : g.failToProxy e s = (.ok ⟨errorStatus e.etype, false⟩,
      s3.log (.failToProxy (errorStatus e.etype))) := by
    unfold Gateway.failToProxy
    rw [Act.bind_of_ok hooks]
    change (serveErrorPage _ >>= _) s1 = _
    rw [Act.bind_of_ok hpage, Act.bind_of_ok hresp]
    rfl
  rw [hrun]
  exact ⟨rfl, hsent⟩

/-- A page is served as configured when the route in the context has the same one, the gateway
starts the response with it and the client takes it; there is nothing to serve without a readable
page or a header. -/
theorem customPage_iff {route : RouteConf}
    (hooks : runHooksLenient (.error e) g.chain.reverse s = (.ok .Continue, s1)) :
    CustomPage g route e s s1 ↔
      readablePage K route (errorStatus e.etype) = none ∨ HeaderTaken s1 = false ∨
        (((s1.ctx.get .routeConf).bind fun found : RouteConf =>
            readablePage K found (errorStatus e.etype)) =
          readablePage K route (errorStatus e.etype) ∧ s1.session.finalWritten = false ∧
          s1.session.env.writeOk (s1.session.writes + 1) = true) := by
  obtain ⟨hcode, hsent⟩ := failToProxy_sent hooks
  generalize hfound : ((s1.ctx.get .routeConf).bind fun found : RouteConf =>
    readablePage K found (errorStatus e.etype)) = found at hsent ⊢
  constructor
  · intro h
    cases hpage : readablePage K route (errorStatus e.etype) with
    | none => exact .inl rfl
    | some content =>
      cases htaken : HeaderTaken s1 with
      | false => exact .inr (.inl rfl)
      | true =>
        have hserved := h.page content hpage htaken
        rw [hsent, List.append_cancel_left_eq, answer_eq_page htaken] at hserved
        exact .inr (.inr hserved)
  · intro h
    refine ⟨fun content hpage htaken => ?_, fun l hl hstock => ?_, _, hcode, rfl⟩
    · rcases h with hnone | hfails | ⟨hsame, hserves⟩
      · cases hnone.symm.trans hpage
      · cases hfails.symm.trans htaken
      · rw [hsent, List.append_cancel_left_eq, answer_eq_page htaken]
        exact ⟨hsame.trans hpage, hserves⟩
    · rcases h with hnone | hfails | ⟨hsame, hserves⟩
      · exact .inl hnone
      · exact .inr hfails
      · by_contra hno
        push Not at hno
        obtain ⟨hreadable, htaken⟩ := hno
        obtain ⟨content, hpage⟩ := Option.ne_none_iff_exists'.1 hreadable
        have htaken : HeaderTaken s1 = true := by simpa using htaken
        have hserved : answer found (errorStatus e.etype) s1.session = _ :=
          (answer_eq_page htaken).2 ⟨hsame.trans hpage, hserves⟩
        rw [hsent, List.append_cancel_left_eq, hserved] at hl
        simp [← hl] at hstock

/-- **No configured page is ever served.** When a request fails, whatever route it matched and
whatever response was started before, the gateway of `main` answers as that route's error pages ask
if and only if there is no readable page for the status, or writing its header fails. -/
theorem error_page_iff {conf : ServerConf} (hmain : g.middlewares = mainMiddlewares K conf)
    {session : Session} {evs : List Event}
    (hrun : Trace.run g.serve (Gateway.start session) evs = some (.failed e, s))
    (route : RouteConf) :
    ∃ s1, runHooksLenient (.error e) g.chain.reverse s = (.ok .Continue, s1) ∧
      (CustomPage g route e s s1 ↔
        readablePage K route (errorStatus e.etype) = none ∨ HeaderTaken s = false) := by
  have hnone : s.ctx.get .routeConf = none := by
    refine serve_stable (J := fun s => s.ctx.get .routeConf = none)
      (fun _ _ e _ => main_routeConf_stable hmain e) (fun _ _ hs => hs) ?_ hrun
    simp [Gateway.start, newCtx, GatewayContext.get_insert]
  have hooks := runHooksLenient_silent (s := s) (chain_silent hmain (c := .error e) (by simp)).2
  refine ⟨_, hooks, ?_⟩
  rw [customPage_iff hooks]
  change _ ∨ HeaderTaken s = false ∨ ((s.ctx.get .routeConf).bind _ = _ ∧ _) ↔ _
  rw [hnone, Option.bind_none]
  constructor
  · rintro (h | h | ⟨h, -⟩)
    · exact .inl h
    · exact .inr h
    · exact .inl h.symm
  · rintro (h | h)
    · exact .inl h
    · exact .inr (.inl h)

end

/-! ## A route with a page for 502 -/

/-- The reference crates with one readable file. -/
def pageCrates : Crates :=
  { refCrates with
    fsRead := fun path => if path = "/502.html" then .ok (utf8 "down") else .error "not found" }

def pagesConf : GatewayConf where
  routes :=
    [{ path := "/", upstreamId := "a"
       errorPages := some ⟨[(502, "/502.html")], by simp⟩ }]

def pagesGateway : Gateway pageCrates := (mainGateway pageCrates pagesConf).toOption.get rfl

def refused : PError := ⟨.ConnectRefused, none⟩

def refusedEvents : List Event :=
  [.phase .earlyRequestFilter, .phase .requestFilter, .phase (.proxyError refused)]

theorem pagesGateway_fails :
    ∃ s, Trace.run pagesGateway.serve (Gateway.start (getRequest "/")) refusedEvents =
        some (.failed refused, s) ∧
      HeaderTaken s = true ∧ (pagesGateway.failToProxy refused s).2.session.sent = [.error 502] := by
  have h : (Trace.run pagesGateway.serve (Gateway.start (getRequest "/")) refusedEvents).map (fun c =>
        (c.1, HeaderTaken c.2, (pagesGateway.failToProxy refused c.2).2.session.sent)) =
          some (.failed refused, true, [.error 502]) := by
    decide +kernel
  obtain ⟨⟨stage, s⟩, hrun, hs⟩ := Option.map_eq_some_iff.1 h
  simp only [Prod.mk.injEq] at hs
  obtain ⟨rfl, htakes, hsent⟩ := hs
  exact ⟨s, hrun, htakes, hsent⟩

theorem pagesGateway_page :
    ∃ entry : RouteEntry pageCrates,
      pagesGateway.matched (Gateway.start (getRequest "/")).2 = .ok (some entry) ∧
      readablePage pageCrates entry.conf.val 502 = some (utf8 "down") := ⟨_, rfl, rfl⟩

theorem pagesGateway_main :
    pagesGateway.middlewares = mainMiddlewares pageCrates pagesConf.server := rfl

/-- The connection is refused: the route's page for 502 can be read and the client takes every
write, but it gets the stock answer. -/
theorem error_page_ignored :
    ∃ s s1, ∃ entry : RouteEntry pageCrates,
      pagesGateway.matched (Gateway.start (getRequest "/")).2 = .ok (some entry) ∧
      Trace.run pagesGateway.serve (Gateway.start (getRequest "/")) refusedEvents =
        some (.failed refused, s) ∧
      runHooksLenient (.error refused) pagesGateway.chain.reverse s = (.ok .Continue, s1) ∧
      readablePage pageCrates entry.conf.val 502 = some (utf8 "down") ∧ HeaderTaken s1 = true ∧
      (pagesGateway.failToProxy refused s).2.session.sent = [.error 502] ∧
      ¬ CustomPage pagesGateway entry.conf.val refused s s1 := by
  obtain ⟨s, hrun, htakes, hsent⟩ := pagesGateway_fails
  obtain ⟨entry, hmatch, hpage⟩ := pagesGateway_page
  have hooks := runHooksLenient_silent (s := s)
    (chain_silent pagesGateway_main (c := .error refused) (by simp)).2
  refine ⟨s, _, entry, hmatch, hrun, hooks, hpage, htakes, hsent, fun h => ?_⟩
  have hserved := congrArg List.length (h.page _ hpage htakes)
  rw [hsent] at hserved
  simp at hserved

theorem error_page_iff_pages :
    ∃ s s1, ∃ entry : RouteEntry pageCrates,
      pagesGateway.matched (Gateway.start (getRequest "/")).2 = .ok (some entry) ∧
      (CustomPage pagesGateway entry.conf.val refused s s1 ↔
        readablePage pageCrates entry.conf.val 502 = none ∨ HeaderTaken s = false) := by
  obtain ⟨s, hrun, -⟩ := pagesGateway_fails
  obtain ⟨entry, hmatch, -⟩ := pagesGateway_page
  obtain ⟨s1, -, h⟩ := error_page_iff pagesGateway_main hrun entry.conf.val
  exact ⟨s, s1, entry, hmatch, h⟩

end PingoraGuide
