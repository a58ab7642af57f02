import PingoraGuide.HeaderOrder
/-!
# The header policy of a returned response

A response is edited in two phases: `upstream_response_filter` removes, `response_filter` adds, and
other phases may run between them. On the way back an added header wins over a removed one, on the
way to the upstream it is the other way round (`HeaderPolicy`).
-/
namespace PingoraGuide
open Fallible Wire

variable {K : Crates}

/-- What `name` carries in the returned headers `m'`, when `m` came from the upstream: as added,
else removed, else as it was. -/
structure Returned (headers : HeaderConf) (m m' : HeaderMap) (name : String) : Prop where
  added : NamedBy (headers.addRespHeaders.entries.map Prod.fst) name →
    ∃ e ∈ headers.addRespHeaders.entries, lower e.1 = lower name ∧
      HeaderMap.values m' name = [utf8 e.2]
  removed : ¬ NamedBy (headers.addRespHeaders.entries.map Prod.fst) name →
    NamedBy headers.removeRespHeaders name → HeaderMap.values m' name = []
  kept : ¬ NamedBy (headers.addRespHeaders.entries.map Prod.fst) name →
    ¬ NamedBy headers.removeRespHeaders name → HeaderMap.values m' name = HeaderMap.values m name

theorem returned_of_edits {headers : HeaderConf} {m m' : HeaderMap} (name : String)
    (h : setHeaders headers.addRespHeaders.entries (removeHeaders headers.removeRespHeaders m) =
      (.ok (), m')) : Returned headers m m' name := by
  obtain ⟨hin, hout⟩ := removeHeaders_values headers.removeRespHeaders m name
  rcases setHeaders_values name h with ⟨e, he, hn, hv⟩ | ⟨hnone, hv⟩
  · have hnamed : NamedBy (headers.addRespHeaders.entries.map Prod.fst) name :=
      ⟨e.1, List.mem_map_of_mem he, hn⟩
    exact ⟨fun _ => ⟨e, he, hn, hv⟩, fun hno => absurd hnamed hno, fun hno => absurd hnamed hno⟩
  · refine ⟨?_, fun _ hremoved => hv.trans (hin hremoved), fun _ hnot => hv.trans (hout hnot)⟩
    rintro ⟨n, hn, heq⟩
    obtain ⟨e, he, rfl⟩ := List.mem_map.1 hn
    exact absurd heq (hnone e he)

section
variable {g : Gateway K} {route : RouteConf}

/-- `upstream_response_filter` edits by the route's list, and cannot fail. -/
theorem upstreamResponseFilter_run (h : ∀ m ∈ g.middlewares, m.PassesBy .upstreamResponse)
    {s : St K ResponseHeader} (hroute : s.ctx.get .routeConf = some route) :
    (g.upstreamResponseFilter s).1 = .ok () ∧ (g.upstreamResponseFilter s).2.msg =
      { s.msg with headers := removeHeaders route.headers.removeRespHeaders s.msg.headers } := by
  obtain ⟨s', hmsg, hctx, hwork⟩ := own_work (chain_passesBy h).2
    (middlewareRejected "Upstream Response Filter Aborted") (do
      let route ← expectRouteConf
      onResponseHeaders (Act.modify (removeHeaders route.headers.removeRespHeaders))) s
  unfold Gateway.upstreamResponseFilter
  rw [hwork, Act.bind_of_ok (expectRouteConf_some (hctx ▸ hroute)), ← hmsg]
  exact ⟨rfl, rfl⟩

/-- `response_filter` touches the headers only. -/
theorem responseFilter_run (h : ∀ m ∈ g.middlewares, m.PassesBy .response)
    {s : St K ResponseHeader} (hroute : s.ctx.get .routeConf = some route) :
    (g.responseFilter s).1 = (setHeaders route.headers.addRespHeaders.entries s.msg.headers).1 ∧
      (g.responseFilter s).2.msg = { s.msg with
        headers := (setHeaders route.headers.addRespHeaders.entries s.msg.headers).2 } := by
  obtain ⟨s', hmsg, hctx, hwork⟩ := own_work (chain_passesBy h).2
    (middlewareRejected "Response Filter Aborted") (do
      let route ← expectRouteConf
      onResponseHeaders (setHeaders route.headers.addRespHeaders.entries)) s
  unfold Gateway.responseFilter
  rw [hwork, Act.bind_of_ok (expectRouteConf_some (hctx ▸ hroute)), ← hmsg]
  exact ⟨rfl, rfl⟩

theorem setHeaders_ok_iff {entries : List (String × String)} {m : HeaderMap} :
    (setHeaders entries m).1 = .ok () ↔ ∀ e ∈ entries, Insertable e := by
  constructor
  · intro h e he
    by_contra hno
    obtain ⟨err, m', hm'⟩ := setHeaders_rejects ⟨e, he, hno⟩ m
    rw [hm'] at h
    cases h
  · intro h
    rw [setHeaders_run h]

/-- **The header policy of a returned response.** With a route in the context and hooks that leave
message and context alone: `upstream_response_filter` returns `Ok`; `response_filter`, given what it
left, does if and only if every header to add can be inserted, and then the status is the upstream's
and every header name is returned by the policy of the route. -/
theorem response_header_policy (hup : ∀ m ∈ g.middlewares, m.PassesBy .upstreamResponse)
    (hresp : ∀ m ∈ g.middlewares, m.PassesBy .response) {s t : St K ResponseHeader}
    (hroute : s.ctx.get .routeConf = some route) (hroute' : t.ctx.get .routeConf = some route)
    (hnext : t.msg = (g.upstreamResponseFilter s).2.msg) :
    (g.upstreamResponseFilter s).1 = .ok () ∧
    ((g.responseFilter t).1 = .ok () ↔
      ∀ e ∈ route.headers.addRespHeaders.entries, Insertable e) ∧
    ((g.responseFilter t).1 = .ok () → (g.responseFilter t).2.msg.status = s.msg.status ∧
      ∀ name, Returned route.headers s.msg.headers (g.responseFilter t).2.msg.headers name) := by
  obtain ⟨hok, hremove⟩ := upstreamResponseFilter_run hup hroute
  obtain ⟨hres, hadd⟩ := responseFilter_run hresp hroute'
  rw [hnext, hremove] at hres hadd
  refine ⟨hok, ?_, fun h => ?_⟩
  · rw [hres]
    exact setHeaders_ok_iff
  · rw [hadd]
    rw [hres] at h
    exact ⟨rfl, fun name => returned_of_edits name (Prod.ext h rfl)⟩

end

/-- A route that removes a header and adds it again. -/
def returnHeaders : HeaderConf where
  addRespHeaders := ⟨[("Server", "pingora")], by simp⟩
  removeRespHeaders := ["server", "X-Powered-By"]

/-- The response to edit. -/
def returnState : St refCrates ResponseHeader :=
  headerState returnHeaders ⟨200, [("server", utf8 "nginx"), ("x-powered-by", utf8 "php")]⟩

theorem response_header_policy_replaces :
    ∃ t, plainGateway.responseFilter (plainGateway.upstreamResponseFilter returnState).2 =
        (.ok (), t) ∧ t.msg.status = 200 ∧
      Returned returnHeaders returnState.msg.headers t.msg.headers "Server" := by
  have hroute : returnState.ctx.get .routeConf = some { headers := returnHeaders } := rfl
  have hpolicy := response_header_policy (g := plainGateway) (main_passesBy (by simp))
    (main_passesBy (by simp)) hroute rfl rfl
  have hok := hpolicy.2.1.2 (by decide)
  obtain ⟨hstatus, hreturned⟩ := hpolicy.2.2 hok
  exact ⟨_, Prod.ext hok rfl, hstatus, hreturned "Server"⟩

end PingoraGuide
