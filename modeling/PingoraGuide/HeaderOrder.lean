import PingoraGuide.HeaderPolicy
import PingoraGuide.RouteLookup
/-!
# Header edits under different map orders

`add_req_headers` and `add_resp_headers` are `HashMap`s: their iteration order changes from process
to process. Their keys are compared with letter case, the names of the header map without, so two
entries can write the same line, and then the entry that comes last wins.

| here | there |
| --- | --- |
| `Insertable`    | an entry that `insert_header` takes |
| `Reordered`     | the same configuration, its two maps iterated in another order |
| `SameEdit`      | both runs return `Ok` with equal headers, both `Err`, or both panic |
| `Unambiguous`   | entries for one name carry one value, unless the name is overwritten later |
| `OrderFree`     | a phase ends the same for any two iteration orders |
-/
namespace PingoraGuide
open Fallible Wire

variable {K : Crates} {β : Type}

/-! ## The entries of one map -/

def Insertable (e : String × String) : Prop := (headerName e.1).isSome ∧ (headerValue e.2).isSome

instance (e : String × String) : Decidable (Insertable e) := instDecidableAnd

theorem setHeader_run {e : String × String} (h : Insertable e) (m : HeaderMap) :
    setHeader e.1 e.2 m = (.ok (), MultiMap.insert m (lower e.1) (utf8 e.2)) := by
  obtain ⟨n, hn⟩ := Option.isSome_iff_exists.1 h.1
  obtain ⟨v, hv⟩ := Option.isSome_iff_exists.1 h.2
  rw [← headerName_eq_some hn, ← headerValue_eq_some hv]
  simp [setHeader, insertHeader, hn, hv]

theorem setHeader_rejects {e : String × String} (h : ¬ Insertable e) (m : HeaderMap) :
    ∃ err, setHeader e.1 e.2 m = (.err err, m) := by
  unfold setHeader insertHeader
  cases hv : headerValue e.2 with
  | none => exact ⟨_, rfl⟩
  | some v =>
    cases hn : headerName e.1 with
    | none => exact ⟨_, rfl⟩
    | some n => exact absurd ⟨by simp [hn], by simp [hv]⟩ h

theorem setHeaders_run {entries : List (String × String)} (h : ∀ e ∈ entries, Insertable e)
    (m : HeaderMap) :
    setHeaders entries m = (.ok (), MultiMap.insertAll m (entries.map headerLine)) := by
  induction entries generalizing m with
  | nil => rfl
  | cons e rest ih =>
    refine (Act.bind_of_ok (setHeader_run (h e (by simp)) m)).trans ?_
    exact ih (fun x hx => h x (by simp [hx])) _

theorem setHeaders_rejects {entries : List (String × String)} (h : ∃ e ∈ entries, ¬ Insertable e)
    (m : HeaderMap) : ∃ err m', setHeaders entries m = (.err err, m') := by
  induction entries generalizing m with
  | nil => simp at h
  | cons e rest ih =>
    by_cases he : Insertable e
    · obtain ⟨x, hx, hno⟩ := h
      rcases List.mem_cons.1 hx with rfl | hx
      · exact absurd he hno
      · obtain ⟨err, m', hm'⟩ := ih ⟨x, hx, hno⟩ (MultiMap.insert m (lower e.1) (utf8 e.2))
        exact ⟨err, m', (Act.bind_of_ok (setHeader_run he m)).trans hm'⟩
    · obtain ⟨err, herr⟩ := setHeader_rejects he m
      exact ⟨err, m, Act.bind_of_err herr⟩

/-- An entry that `insert_header` refuses. -/
def Rejected (entries : MapEntries String String) : Prop := ∃ e ∈ entries.entries, ¬ Insertable e

/-- Entries for one name carry one value, but for the names in `masked`. -/
def Unambiguous (entries : MapEntries String String) (masked : String → Prop) : Prop :=
  ∀ e ∈ entries.entries, ∀ e' ∈ entries.entries, lower e.1 = lower e'.1 → ¬ masked e.1 → e.2 = e'.2

/-- The same lines, whatever the order of the names. -/
def HeaderMap.Same (m m' : HeaderMap) : Prop :=
  ∀ name, HeaderMap.values m name = HeaderMap.values m' name

/-- **When the order of one map shows.** -/
theorem unambiguous_iff (m : HeaderMap) (entries : MapEntries String String) {masked : String → Prop}
    (hmasked : ∀ n n', lower n = lower n' → (masked n ↔ masked n')) :
    (∀ p q : MapEntries String String, p.entries.Perm entries.entries →
      q.entries.Perm entries.entries → ∀ name, ¬ masked name →
      HeaderMap.values (MultiMap.insertAll m (p.entries.map headerLine)) name =
        HeaderMap.values (MultiMap.insertAll m (q.entries.map headerLine)) name) ↔
      Unambiguous entries masked := by
  have horder := fun name =>
    MultiMap.insertAll_order_iff headerLine entries.entries m (lower name)
  have hentries : ∀ {a : List (String × String)}, a.Perm entries.entries →
      (a.map Prod.fst).Nodup := fun ha => (ha.map Prod.fst).nodup_iff.2 entries.nodup
  constructor
  · intro h e he e' he' hname hno
    refine utf8_inj.1 ((horder e.1).1 ?_ e he e' he' rfl hname.symm)
    exact fun a b ha hb => h ⟨a, hentries ha⟩ ⟨b, hentries hb⟩ ha hb e.1 hno
  · intro h p q hp hq name hno
    refine (horder name).2 ?_ p.entries q.entries hp hq
    intro e he e' he' hn hn'
    refine congrArg utf8 (h e he e' he' (hn.trans hn'.symm) ?_)
    exact fun hm => hno ((hmasked _ _ hn).1 hm)

/-! ## The edits of one message -/

/-- The same configuration, its maps iterated in another order. -/
def HeaderConf.Reordered (a b : HeaderConf) : Prop :=
  ∃ req resp : MapEntries String String, req.entries.Perm a.addReqHeaders.entries ∧
    resp.entries.Perm a.addRespHeaders.entries ∧
    b = { a with addReqHeaders := req, addRespHeaders := resp }

/-- How two runs end alike. -/
inductive SameEdit : Res PError Unit × HeaderMap → Res PError Unit × HeaderMap → Prop where
  | ok {m m' : HeaderMap} (h : m.Same m') : SameEdit (.ok (), m) (.ok (), m')
  | err (e e' : PError) (m m' : HeaderMap) : SameEdit (.err e, m) (.err e', m')
  | panic (msg : String) (m m' : HeaderMap) : SameEdit (.panic msg, m) (.panic msg, m')

theorem SameEdit.same {r r' : Res PError Unit × HeaderMap} (h : SameEdit r r')
    (hok : r.1 = .ok ()) : r.2.Same r'.2 := by
  cases h with
  | ok h => exact h
  | err => cases hok
  | panic => cases hok

/-- The name is removed, or Host is written over it. -/
def Overwritten (headers : HeaderConf) (sni : Option String) (name : String) : Prop :=
  RewritesHost headers sni name ∨ NamedBy headers.removeReqHeaders name

/-- The gateway would write a Host that `insert_header` refuses. -/
def HostRejected (headers : HeaderConf) (sni : Option String) : Prop :=
  headers.preserveHostHeader = false ∧ ∃ x, sni = some x ∧ ¬ Insertable ("Host", x)

/-- The edits of a request do not depend on the order of `add_req_headers`: they fail in every
order, or no name that is left has two values. -/
def RequestSettled (headers : HeaderConf) (sni : Option String) : Prop :=
  Rejected headers.addReqHeaders ∨ HostRejected headers sni ∨
    Unambiguous headers.addReqHeaders (Overwritten headers sni)

def ResponseSettled (headers : HeaderConf) : Prop :=
  Rejected headers.addRespHeaders ∨ Unambiguous headers.addRespHeaders fun _ => False

theorem Rejected.perm {a b : MapEntries String String} (h : Rejected a)
    (hp : b.entries.Perm a.entries) : Rejected b := by
  obtain ⟨e, he, hno⟩ := h
  exact ⟨e, hp.mem_iff.2 he, hno⟩

theorem editRequest_fails {headers : HeaderConf} {sni : Option String}
    (h : Rejected headers.addReqHeaders ∨ HostRejected headers sni) (m : HeaderMap) :
    ∃ e m', editRequest headers sni m = (.err e, m') := by
  by_cases hrej : Rejected headers.addReqHeaders
  · obtain ⟨err, m', hm'⟩ := setHeaders_rejects hrej m
    exact ⟨err, m', Act.bind_of_err hm'⟩
  · obtain ⟨hpres, x, rfl, hx⟩ := h.resolve_left hrej
    have hall : ∀ e ∈ headers.addReqHeaders.entries, Insertable e := by simpa [Rejected] using hrej
    let edited := removeHeaders headers.removeReqHeaders
      (MultiMap.insertAll m (headers.addReqHeaders.entries.map headerLine))
    obtain ⟨err, herr⟩ := setHeader_rejects hx edited
    refine ⟨err, edited, ?_⟩
    unfold editRequest
    rw [Act.bind_of_ok (setHeaders_run hall m), Act.modify_bind_run]
    simp only [hpres, Bool.not_false, if_true]
    exact herr

theorem editRequest_succeeds {headers : HeaderConf} {sni : Option String}
    (hrej : ¬ Rejected headers.addReqHeaders) (hhost : ¬ HostRejected headers sni) (m : HeaderMap) :
    ∃ m', editRequest headers sni m = (.ok (), m') := by
  have hall : ∀ e ∈ headers.addReqHeaders.entries, Insertable e := by simpa [Rejected] using hrej
  unfold editRequest
  rw [Act.bind_of_ok (setHeaders_run hall m), Act.modify_bind_run]
  cases hpres : headers.preserveHostHeader with
  | true => exact ⟨_, rfl⟩
  | false =>
    cases sni with
    | none => exact ⟨_, rfl⟩
    | some x =>
      have hx : Insertable ("Host", x) := by
        by_contra hx
        exact hhost ⟨hpres, x, rfl, hx⟩
      exact ⟨_, setHeader_run hx _⟩

/-- What is left of the added headers where nothing is written over them. -/
theorem editRequest_added {headers : HeaderConf} {sni : Option String} {m m' : HeaderMap}
    (h : editRequest headers sni m = (.ok (), m')) {name : String}
    (hno : ¬ Overwritten headers sni name) : HeaderMap.values m' name = HeaderMap.values
      (MultiMap.insertAll m (headers.addReqHeaders.entries.map headerLine)) name := by
  obtain ⟨m1, hadd, hlast⟩ := editRequest_ok h
  obtain rfl := setHeaders_ok hadd
  have hout := (removeHeaders_values headers.removeReqHeaders (MultiMap.insertAll m
    (headers.addReqHeaders.entries.map headerLine)) name).2 fun hn => hno (.inr hn)
  rcases hlast with ⟨x, hp, rfl, rfl⟩ | ⟨-, rfl⟩
  · have hname : lower name ≠ lower "Host" := fun hn => hno (.inl ⟨hn, hp, by simp⟩)
    exact ((MultiMap.getAll_insert _ _ _ _).trans (if_neg hname)).trans hout
  · exact hout

/-- What is written over them does not depend on them. -/
theorem editRequest_overwritten {headers : HeaderConf} {req : MapEntries String String}
    {sni : Option String} {m m1 m2 : HeaderMap}
    (h1 : editRequest headers sni m = (.ok (), m1))
    (h2 : editRequest { headers with addReqHeaders := req } sni m = (.ok (), m2)) {name : String}
    (hover : Overwritten headers sni name) :
    HeaderMap.values m1 name = HeaderMap.values m2 name := by
  have hf1 := editRequest_forwarded name h1
  have hf2 := editRequest_forwarded name h2
  by_cases hhost : RewritesHost headers sni name
  · obtain ⟨hn, hp, hsome⟩ := hhost
    obtain ⟨x, hx⟩ := Option.ne_none_iff_exists'.1 hsome
    rw [hf1.host x hn hp hx, hf2.host x hn hp hx]
  · have hremoved := hover.resolve_left hhost
    rw [hf1.removed hhost hremoved, hf2.removed hhost hremoved]

/-- Edits that insert the entries of one map, some names being written over afterwards: the order of
the map shows unless they fail or no other name has two values. -/
theorem mapOrder_iff (edit : MapEntries String String → Res PError Unit × HeaderMap)
    (entries : MapEntries String String) (m : HeaderMap) {fails : Prop} {masked : String → Prop}
    (hmasked : ∀ n n', lower n = lower n' → (masked n ↔ masked n'))
    (hfails : fails → ∀ p : MapEntries String String, p.entries.Perm entries.entries →
      ∃ e m', edit p = (.err e, m'))
    (hok : ¬ fails → ∀ p : MapEntries String String, p.entries.Perm entries.entries →
      ∃ m', edit p = (.ok (), m') ∧ ∀ name, ¬ masked name → HeaderMap.values m' name =
        HeaderMap.values (MultiMap.insertAll m (p.entries.map headerLine)) name)
    (hover : ∀ p q m1 m2, edit p = (.ok (), m1) → edit q = (.ok (), m2) → ∀ name, masked name →
      HeaderMap.values m1 name = HeaderMap.values m2 name) :
    (∀ p q : MapEntries String String, p.entries.Perm entries.entries →
      q.entries.Perm entries.entries → SameEdit (edit p) (edit q)) ↔
      fails ∨ Unambiguous entries masked := by
  constructor
  · intro h
    by_cases hf : fails
    · exact .inl hf
    · refine .inr ((unambiguous_iff m entries hmasked).1 fun p q hp hq name hno => ?_)
      obtain ⟨m1, h1, hv1⟩ := hok hf p hp
      obtain ⟨m2, h2, hv2⟩ := hok hf q hq
      have hsame := h p q hp hq
      rw [h1, h2] at hsame
      cases hsame with
      | ok hsame => rw [← hv1 name hno, ← hv2 name hno, hsame name]
  · intro h p q hp hq
    by_cases hf : fails
    · obtain ⟨e1, m1, h1⟩ := hfails hf p hp
      obtain ⟨e2, m2, h2⟩ := hfails hf q hq
      rw [h1, h2]
      exact .err e1 e2 m1 m2
    · obtain ⟨m1, h1, hv1⟩ := hok hf p hp
      obtain ⟨m2, h2, hv2⟩ := hok hf q hq
      rw [h1, h2]
      refine .ok fun name => ?_
      by_cases hm : masked name
      · exact hover p q m1 m2 h1 h2 name hm
      · have horder := (unambiguous_iff m entries hmasked).2 (h.resolve_left hf)
        rw [hv1 name hm, hv2 name hm, horder p q hp hq name hm]

theorem overwritten_lower {headers : HeaderConf} {sni : Option String} {n n' : String}
    (h : lower n = lower n') : Overwritten headers sni n ↔ Overwritten headers sni n' := by
  unfold Overwritten RewritesHost NamedBy
  rw [h]

/-- **When the order of `add_req_headers` shows.** -/
theorem requestSettled_iff (headers : HeaderConf) (sni : Option String) (m : HeaderMap) :
    (∀ b c, headers.Reordered b → headers.Reordered c →
      SameEdit (editRequest b sni m) (editRequest c sni m)) ↔ RequestSettled headers sni := by
  rw [RequestSettled, ← or_assoc, ← mapOrder_iff
    (fun p => editRequest { headers with addReqHeaders := p } sni m) headers.addReqHeaders m
    (fun _ _ => overwritten_lower) ?_ ?_ ?_]
  · constructor
    · exact fun h p q hp hq => h _ _ ⟨p, headers.addRespHeaders, hp, .refl _, rfl⟩
        ⟨q, headers.addRespHeaders, hq, .refl _, rfl⟩
    · rintro h b c ⟨p, -, hp, -, rfl⟩ ⟨q, -, hq, -, rfl⟩
      exact h p q hp hq
  · intro hf p hp
    have hfails : Rejected p ∨ HostRejected { headers with addReqHeaders := p } sni :=
      hf.imp_left fun hrej => hrej.perm hp
    exact editRequest_fails hfails m
  · intro hf p hp
    rw [not_or] at hf
    have hrej : ¬ Rejected ({ headers with addReqHeaders := p } : HeaderConf).addReqHeaders :=
      fun hrej => hf.1 (hrej.perm hp.symm)
    obtain ⟨m', hm'⟩ := editRequest_succeeds hrej hf.2 m
    exact ⟨m', hm', fun name hno => editRequest_added hm' hno⟩
  · exact fun p q m1 m2 h1 h2 name hover => editRequest_overwritten h1 h2 hover

/-- **When the order of `add_resp_headers` shows.** -/
theorem responseSettled_iff (headers : HeaderConf) (m : HeaderMap) :
    (∀ b c, headers.Reordered b → headers.Reordered c →
      SameEdit (setHeaders b.addRespHeaders.entries m) (setHeaders c.addRespHeaders.entries m)) ↔
      ResponseSettled headers := by
  rw [ResponseSettled, ← mapOrder_iff (fun p => setHeaders p.entries m) headers.addRespHeaders m
    (fun _ _ _ => Iff.rfl) ?_ ?_ ?_]
  · constructor
    · exact fun h p q hp hq => h _ _ ⟨headers.addReqHeaders, p, .refl _, hp, rfl⟩
        ⟨headers.addReqHeaders, q, .refl _, hq, rfl⟩
    · rintro h b c ⟨-, p, -, hp, rfl⟩ ⟨-, q, -, hq, rfl⟩
      exact h p q hp hq
  · intro hrej p hp
    exact setHeaders_rejects (hrej.perm hp) m
  · intro hrej p hp
    refine ⟨_, setHeaders_run (fun e he => ?_) m, fun _ _ => rfl⟩
    by_contra hno
    exact hrej ⟨e, hp.mem_iff.1 he, hno⟩
  · exact fun _ _ _ _ _ _ _ hno => hno.elim

/-! ## The phases -/

/-- The same route, the maps of its header configuration iterated in another order. -/
def RouteConf.Reordered (a b : RouteConf) : Prop :=
  ∃ headers, a.headers.Reordered headers ∧ b = { a with headers := headers }

/-- The same phase in another process: only the maps of the route are iterated differently. -/
structure St.Reordered (s t : St K β) : Prop where
  rest : t = { s with ctx := t.ctx }
  route : Option.Rel RouteConf.Reordered (s.ctx.get .routeConf) (t.ctx.get .routeConf)
  other : ∀ ty, ty ≠ .routeConf → t.ctx.get ty = s.ctx.get ty

/-- How a phase ends, and the headers it leaves. -/
def ended (headers : β → HeaderMap) (r : Res PError Unit × St K β) : Res PError Unit × HeaderMap :=
  (r.1, headers r.2.msg)

/-- Any two iteration orders make the phase end the same. -/
def OrderFree (headers : β → HeaderMap) (phase : Act (St K β) PError Unit) (s : St K β) : Prop :=
  ∀ t u, s.Reordered t → s.Reordered u → SameEdit (ended headers (phase t)) (ended headers (phase u))

/-- The hook continues and leaves the message and the context alone. -/
def Middleware.PassesBy (m : Middleware K) (c : HookCall β) : Prop :=
  ∀ s, (m.hook c s).1 = .ok .Continue ∧ (m.hook c s).2.msg = s.msg ∧ (m.hook c s).2.ctx = s.ctx

theorem Middleware.Silent.passesBy {m : Middleware K} {c : HookCall β} (h : m.Silent c) :
    m.PassesBy c := by
  intro s
  rw [show m.hook c = pure .Continue from h]
  exact ⟨rfl, rfl, rfl⟩

theorem main_passesBy {conf : ServerConf} {c : HookCall β}
    (hk : c.kind ≠ .request ∧ c.kind ≠ .requestBody ∧ c.kind ≠ .logging) :
    ∀ m ∈ mainMiddlewares K conf, m.PassesBy c :=
  fun _ hm => (main_hook_silent hm hk).passesBy

theorem runHooks_passesBy {c : HookCall β} {ms : List (Middleware K × Nat)}
    (h : ∀ m ∈ ms, m.1.PassesBy c) (s : St K β) :
    ∃ s', runHooks c ms s = (.ok .Continue, s') ∧ s'.msg = s.msg ∧ s'.ctx = s.ctx := by
  induction ms generalizing s with
  | nil => exact ⟨s, rfl, rfl, rfl⟩
  | cons m ms ih =>
    obtain ⟨hgo, hmsg, hctx⟩ := h m (by simp) s
    obtain ⟨s', hrun, hmsg', hctx'⟩ := ih (fun x hx => h x (by simp [hx])) (logged c m.2 s (m.1.hook c s))
    exact ⟨s', (runHooks_continue hgo).trans hrun, hmsg'.trans hmsg, hctx'.trans hctx⟩

theorem St.reordered_insert {s : St K β} {route : RouteConf}
    (hroute : s.ctx.get .routeConf = some route) {headers : HeaderConf}
    (h : route.headers.Reordered headers) :
    s.Reordered { s with ctx := s.ctx.insert .routeConf { route with headers := headers } } := by
  constructor
  case rest => rfl
  case route =>
    rw [hroute, GatewayContext.get_insert_self]
    exact .some ⟨headers, h, rfl⟩
  case other => exact fun ty hty => GatewayContext.get_insert_ne _ _ hty

/-- The other process found the same route, but for the order. -/
theorem St.Reordered.found {s t : St K β} (h : s.Reordered t) {route : RouteConf}
    (hroute : s.ctx.get .routeConf = some route) :
    ∃ headers, route.headers.Reordered headers ∧
      t.ctx.get .routeConf = some { route with headers := headers } := by
  have hrel := h.route
  rw [hroute] at hrel
  cases hget : t.ctx.get .routeConf with
  | none =>
    rw [hget] at hrel
    cases hrel
  | some r =>
    rw [hget] at hrel
    cases hrel with
    | some hr =>
      obtain ⟨headers, hheaders, rfl⟩ := hr
      exact ⟨headers, hheaders, rfl⟩

theorem St.Reordered.notFound {s t : St K β} (h : s.Reordered t)
    (hroute : s.ctx.get .routeConf = none) : t.ctx.get .routeConf = none := by
  have hrel := h.route
  rw [hroute] at hrel
  cases hget : t.ctx.get .routeConf with
  | none => rfl
  | some r =>
    rw [hget] at hrel
    cases hrel

theorem St.Reordered.msg {s t : St K β} (h : s.Reordered t) : t.msg = s.msg := by
  rw [h.rest]

/-- A phase that does to every reordered state what its header configuration says. -/
theorem orderFree_iff {headers : β → HeaderMap} {phase : Act (St K β) PError Unit} {s : St K β}
    {route : RouteConf} (hroute : s.ctx.get .routeConf = some route)
    (edit : HeaderConf → Res PError Unit × HeaderMap)
    (hedit : ∀ t, s.Reordered t → ∀ r, t.ctx.get .routeConf = some r →
      ended headers (phase t) = edit r.headers) :
    OrderFree headers phase s ↔ ∀ b c, route.headers.Reordered b → route.headers.Reordered c →
      SameEdit (edit b) (edit c) := by
  constructor
  · intro h b c hb hc
    have hsame := h _ _ (St.reordered_insert hroute hb) (St.reordered_insert hroute hc)
    rwa [hedit _ (St.reordered_insert hroute hb) _ (GatewayContext.get_insert_self _ _ _),
      hedit _ (St.reordered_insert hroute hc) _ (GatewayContext.get_insert_self _ _ _)] at hsame
  · intro h t u ht hu
    obtain ⟨b, hb, hbt⟩ := ht.found hroute
    obtain ⟨c, hc, hcu⟩ := hu.found hroute
    rw [hedit t ht _ hbt, hedit u hu _ hcu]
    exact h b c hb hc

/-- A phase that ends the same in every reordered state. -/
theorem orderFree_of_panic {headers : β → HeaderMap} {phase : Act (St K β) PError Unit} {s : St K β}
    (msg : String) (h : ∀ t, s.Reordered t → ended headers (phase t) = (.panic msg, headers t.msg)) :
    OrderFree headers phase s := by
  intro t u ht hu
  rw [h t ht, h u hu]
  exact .panic msg _ _

/-- After such hooks the phase does its own work on the message and the context it was given. -/
theorem own_work {c : HookCall β} {ms : List (Middleware K × Nat)}
    (hms : ∀ m ∈ ms, m.1.PassesBy c) (err : PError) (work : Act (St K β) PError Unit) (s : St K β) :
    ∃ s', s'.msg = s.msg ∧ s'.ctx = s.ctx ∧
      (runHooks c ms >>= fun d => if d == .Stop then Act.throw err else work) s = work s' := by
  obtain ⟨s', hrun, hmsg, hctx⟩ := runHooks_passesBy hms s
  exact ⟨s', hmsg, hctx, by rw [Act.bind_of_ok hrun]; rfl⟩

/-- Without a route the phase panics. -/
theorem noRoute_ended {headers : β → HeaderMap} {c : HookCall β} {ms : List (Middleware K × Nat)}
    (hms : ∀ m ∈ ms, m.1.PassesBy c) (err : PError) (rest : RouteConf → Act (St K β) PError Unit)
    {s : St K β} (h : s.ctx.get .routeConf = none) :
    ended headers ((runHooks c ms >>= fun d =>
      if d == .Stop then Act.throw err else expectRouteConf >>= rest) s) =
        (.panic "RouteConf should exist", headers s.msg) := by
  obtain ⟨s', hmsg, hctx, hwork⟩ := own_work hms err (expectRouteConf >>= rest) s
  rw [hwork, Act.bind_of_panic (expectRouteConf_none (hctx ▸ h)), ← hmsg]
  rfl

section
variable {g : Gateway K}

theorem chain_passesBy {c : HookCall β} (h : ∀ m ∈ g.middlewares, m.PassesBy c) :
    (∀ m ∈ g.chain, m.1.PassesBy c) ∧ ∀ m ∈ g.chain.reverse, m.1.PassesBy c := by
  have hchain : ∀ m ∈ g.chain, m.1.PassesBy c :=
    fun m hm => h m.1 (List.fst_mem_of_mem_zipIdx hm)
  exact ⟨hchain, fun m hm => hchain m (List.mem_reverse.1 hm)⟩

theorem upstreamRequestFilter_ended (h : ∀ m ∈ g.middlewares, m.PassesBy .upstreamRequest)
    {s : St K RequestHeader} {route : RouteConf} (hroute : s.ctx.get .routeConf = some route) :
    ended RequestHeader.headers (g.upstreamRequestFilter s) = match s.ctx.get .requestMeta with
      | some (rm : RequestMeta) => editRequest route.headers rm.sni s.msg.headers
      | none => (.panic "RequestMeta should exist", s.msg.headers) := by
  obtain ⟨s', hmsg, hctx, hwork⟩ := own_work (chain_passesBy h).1
    (middlewareRejected "Upstream Request Rejected") (do
      let route ← expectRouteConf
      let reqMeta ← ctxExpect .requestMeta "RequestMeta should exist"
      onRequestHeaders (editRequest route.headers (RequestMeta.sni reqMeta))) s
  unfold Gateway.upstreamRequestFilter
  rw [hwork, Act.bind_of_ok (expectRouteConf_some (hctx ▸ hroute)), ← hmsg, ← hctx]
  cases hmeta : s'.ctx.get .requestMeta with
  | some rm =>
    rw [Act.bind_of_ok (ctxExpect_of_some _ (s := s'.log _) hmeta)]
    rfl
  | none =>
    rw [Act.bind_of_panic (ctxExpect_of_none _ (s := s'.log _) hmeta)]
    rfl

theorem responseFilter_ended (h : ∀ m ∈ g.middlewares, m.PassesBy .response)
    {s : St K ResponseHeader} {route : RouteConf} (hroute : s.ctx.get .routeConf = some route) :
    ended ResponseHeader.headers (g.responseFilter s) =
      setHeaders route.headers.addRespHeaders.entries s.msg.headers := by
  obtain ⟨s', hmsg, hctx, hwork⟩ := own_work (chain_passesBy h).2
    (middlewareRejected "Response Filter Aborted") (do
      let route ← expectRouteConf
      onResponseHeaders (setHeaders route.headers.addRespHeaders.entries)) s
  unfold Gateway.responseFilter
  rw [hwork, Act.bind_of_ok (expectRouteConf_some (hctx ▸ hroute)), ← hmsg]
  rfl

theorem upstreamRequestFilter_orderFree (h : ∀ m ∈ g.middlewares, m.PassesBy .upstreamRequest)
    (s : St K RequestHeader) :
    OrderFree RequestHeader.headers g.upstreamRequestFilter s ↔
      ∀ route rm, s.ctx.get .routeConf = some route → s.ctx.get .requestMeta = some rm →
        RequestSettled route.headers (RequestMeta.sni rm) := by
  have hmeta : ∀ t, s.Reordered t → t.ctx.get .requestMeta = s.ctx.get .requestMeta :=
    fun t ht => ht.other .requestMeta (by simp)
  cases hroute : s.ctx.get .routeConf with
  | none =>
    refine iff_of_true (orderFree_of_panic "RouteConf should exist" fun t ht => ?_) (by simp)
    exact noRoute_ended (chain_passesBy h).1 _ _ (ht.notFound hroute)
  | some route =>
    cases hs : s.ctx.get .requestMeta with
    | none =>
      refine iff_of_true (orderFree_of_panic "RequestMeta should exist" fun t ht => ?_) (by simp)
      obtain ⟨headers, -, hfound⟩ := ht.found hroute
      rw [upstreamRequestFilter_ended h hfound, hmeta t ht, hs]
    | some rm =>
      rw [orderFree_iff hroute fun headers =>
        editRequest headers (RequestMeta.sni rm) s.msg.headers, requestSettled_iff]
      · constructor
        · rintro hsettled _ _ ⟨⟩ ⟨⟩
          exact hsettled
        · exact fun hsettled => hsettled route rm rfl rfl
      · intro t ht r hr
        rw [upstreamRequestFilter_ended h hr, hmeta t ht, hs, ht.msg]

theorem responseFilter_orderFree (h : ∀ m ∈ g.middlewares, m.PassesBy .response)
    (s : St K ResponseHeader) :
    OrderFree ResponseHeader.headers g.responseFilter s ↔
      ∀ route : RouteConf, s.ctx.get .routeConf = some route → ResponseSettled route.headers := by
  cases hroute : s.ctx.get .routeConf with
  | none =>
    refine iff_of_true (orderFree_of_panic "RouteConf should exist" fun t ht => ?_) (by simp)
    exact noRoute_ended (chain_passesBy h).2 _ _ (ht.notFound hroute)
  | some route =>
    rw [orderFree_iff hroute fun headers => setHeaders headers.addRespHeaders.entries s.msg.headers,
      responseSettled_iff]
    · constructor
      · rintro hsettled _ ⟨⟩
        exact hsettled
      · exact fun hsettled => hsettled route rfl
    · intro t ht r hr
      rw [responseFilter_ended h hr, ht.msg]

/-- **When the map order shows.** For every route, every message and hooks that leave both alone:
any two iteration orders of its maps make `upstream_request_filter` (and `response_filter`) end the
same, if and only if the header edits fail in every order or no header that is left standing is
added twice, in different letter case, with different values. -/
theorem header_order_iff (hreq : ∀ m ∈ g.middlewares, m.PassesBy .upstreamRequest)
    (hresp : ∀ m ∈ g.middlewares, m.PassesBy .response) (s : St K RequestHeader)
    (t : St K ResponseHeader) :
    (OrderFree RequestHeader.headers g.upstreamRequestFilter s ↔
      ∀ route rm, s.ctx.get .routeConf = some route → s.ctx.get .requestMeta = some rm →
        RequestSettled route.headers (RequestMeta.sni rm)) ∧
    (OrderFree ResponseHeader.headers g.responseFilter t ↔
      ∀ route : RouteConf, t.ctx.get .routeConf = some route → ResponseSettled route.headers) :=
  ⟨upstreamRequestFilter_orderFree hreq s, responseFilter_orderFree hresp t⟩

end

/-- A phase of a request under a route with these headers. -/
def headerState (headers : HeaderConf) (msg : β) : St refCrates β where
  session := getRequest "/"
  ctx := newCtx.insert .routeConf { headers := headers }
  msg := msg

/-- Two entries for one header, which the route then removes, and one for another. -/
def droppedHeaders : HeaderConf where
  addReqHeaders := ⟨[("X-Debug", "1"), ("x-debug", "2"), ("Via", "gateway")], by simp⟩
  addRespHeaders := ⟨[("Via", "gateway"), ("Server", "pingora")], by simp⟩
  removeReqHeaders := ["X-Debug"]

theorem header_order_iff_dropped :
    OrderFree RequestHeader.headers plainGateway.upstreamRequestFilter
        (headerState droppedHeaders ⟨"GET", "/", none, []⟩) ∧
      OrderFree ResponseHeader.headers plainGateway.responseFilter
        (headerState droppedHeaders ⟨200, []⟩) := by
  have hiff := header_order_iff (g := plainGateway) (main_passesBy (by simp))
    (main_passesBy (by simp)) (headerState droppedHeaders ⟨"GET", "/", none, []⟩)
    (headerState droppedHeaders ⟨200, []⟩)
  constructor
  · refine hiff.1.2 ?_
    rintro _ _ ⟨⟩ ⟨⟩
    have hdropped : ∀ name, lower name = lower "X-Debug" → Overwritten droppedHeaders none name :=
      fun name hn => .inr ⟨"X-Debug", by simp [droppedHeaders], hn.symm⟩
    refine .inr (.inr ?_)
    intro e he e' he' hname hno
    simp only [droppedHeaders, List.mem_cons, List.not_mem_nil, or_false] at he he'
    rcases he with rfl | rfl | rfl
    · exact absurd (hdropped _ (by decide)) hno
    · exact absurd (hdropped _ (by decide)) hno
    · rcases he' with rfl | rfl | rfl
      · exact absurd hname (by decide)
      · exact absurd hname (by decide)
      · rfl
  · refine hiff.2.2 ?_
    rintro _ ⟨⟩
    refine .inr ?_
    intro e he e' he' hname _
    simp only [droppedHeaders, List.mem_cons, List.not_mem_nil, or_false] at he he'
    rcases he with rfl | rfl <;> rcases he' with rfl | rfl
    · rfl
    · exact absurd hname (by decide)
    · exact absurd hname (by decide)
    · rfl

/-- One header, added in two spellings with two values. -/
def clashHeaders : HeaderConf where
  addReqHeaders := ⟨[("X-Tag", "1"), ("x-tag", "2")], by simp⟩
  addRespHeaders := ⟨[("X-Tag", "1"), ("x-tag", "2")], by simp⟩

/-- The same map, iterated the other way round. -/
def clashSwapped : HeaderConf where
  addReqHeaders := ⟨[("x-tag", "2"), ("X-Tag", "1")], by simp⟩
  addRespHeaders := ⟨[("x-tag", "2"), ("X-Tag", "1")], by simp⟩

theorem clashing_headers_ordered :
    ¬ OrderFree RequestHeader.headers plainGateway.upstreamRequestFilter
        (headerState clashHeaders ⟨"GET", "/", none, []⟩) ∧
      ¬ OrderFree ResponseHeader.headers plainGateway.responseFilter
        (headerState clashHeaders ⟨200, []⟩) := by
  have hsame : clashHeaders.Reordered clashHeaders := ⟨_, _, .refl _, .refl _, rfl⟩
  have hswap : clashHeaders.Reordered clashSwapped := ⟨_, _, .swap _ _ _, .swap _ _ _, rfl⟩
  constructor
  · intro h
    have hends := h _ _ (St.reordered_insert rfl hsame) (St.reordered_insert rfl hswap)
    exact absurd (hends.same (by decide +kernel) "x-tag") (by decide +kernel)
  · intro h
    have hends := h _ _ (St.reordered_insert rfl hsame) (St.reordered_insert rfl hswap)
    exact absurd (hends.same (by decide +kernel) "x-tag") (by decide +kernel)

end PingoraGuide
