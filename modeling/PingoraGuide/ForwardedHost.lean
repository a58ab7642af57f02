import PingoraGuide.Footprint
/-!
# The forwarded Host header

Unless the route preserves it, `upstream_request_filter` replaces the Host header by the SNI that
`select_peer` recorded, which is the SNI the upstream was built with. The factory turns "no SNI
configured" into the empty string, and `StaticUpstream::new_uds` does the same with any SNI, so the
header is right only for a non-empty `options.sni` on a source other than a socket path.
-/
namespace PingoraGuide
open Fallible Wire

variable {K : Crates}

/-- The values of the Host header lines. -/
def hostValues (h : RequestHeader) : List Bytes := MultiMap.getAll h.headers "host"

/-- The Host that `out` forwards for the request `req`: the configured SNI, else the client's own
lines, and never an empty one. -/
def ForwardsHost (sni : Option String) (req out : RequestHeader) : Prop :=
  (∀ name, sni = some name → hostValues out = [utf8 name]) ∧
  (sni = none → hostValues out = hostValues req) ∧
  [] ∉ hostValues out

variable {g : Gateway K}

/-! ## What `upstream_peer` records -/

/-- Picking a key or a backend leaves the context alone. -/
theorem selectPeer_records {u : Upstream} {rm : RequestMeta} {s s' : St K Unit} {peer : HttpPeer}
    (hmeta : s.ctx.get .requestMeta = some rm) (h : u.selectPeer s = (.ok peer, s')) :
    ∃ addr, s'.ctx.get .requestMeta = some { rm with peerAddr := some addr, sni := some u.sni } := by
  have hrecord : ∀ (addr : SocketAddr) (sni : String) (s1 : St K Unit), s1.ctx = s.ctx →
      (recordPeer addr sni s1).2.ctx.get .requestMeta =
        some { rm with peerAddr := some addr, sni := some sni } := by
    intro addr sni s1 hctx
    change (s1.ctx.modify .requestMeta _).get .requestMeta = _
    rw [hctx, GatewayContext.get_modify_self, hmeta]
    rfl
  cases u with
  | cluster c =>
    obtain ⟨key, s1, hkey, h⟩ := Act.bind_eq_ok.1 h
    obtain ⟨found, s2, hsel, h⟩ := Act.bind_eq_ok.1 h
    have hctx1 : s1.ctx = s.ctx := by
      have := hashKey_keeps (J := fun s' => s'.ctx = s.ctx) (g := ⟨.empty, fun _ => none, []⟩) c
        (fun _ _ _ hs => hs) s rfl
      rwa [hkey] at this
    have hctx2 : s2.ctx = s.ctx := by
      rw [← hctx1, ← congrArg (fun r => r.2.ctx) hsel]
      rfl
    cases found with
    | none => cases h
    | some b =>
      obtain ⟨_, s3, hrec, h⟩ := Act.bind_eq_ok.1 h
      obtain ⟨addr, s4, haddr, h⟩ := Act.bind_eq_ok.1 h
      obtain rfl : s3 = s4 := congrArg Prod.snd haddr
      obtain rfl : s3 = s' := congrArg Prod.snd h
      have := hrecord b.addr c.sni s2 hctx2
      rw [hrec] at this
      exact ⟨_, this⟩
  | static u =>
    obtain ⟨addr, s1, haddr, h⟩ := Act.bind_eq_ok.1 h
    obtain rfl : s = s1 := congrArg Prod.snd haddr
    obtain ⟨_, s2, hrec, h⟩ := Act.bind_eq_ok.1 h
    obtain rfl : s2 = s' := congrArg Prod.snd h
    have := hrecord addr u.sni s rfl
    rw [hrec] at this
    exact ⟨_, this⟩

/-- A successful `upstream_peer` leaves the SNI of the upstream it used in `RequestMeta`. -/
theorem upstreamPeer_records {id : String} {u : Upstream} {rm : RequestMeta} {s s' : St K Unit}
    {peer : HttpPeer} (hu : g.upstreams id = some u) (hmeta : s.ctx.get .requestMeta = some rm)
    (hid : rm.upstreamId = some id) (h : g.upstreamPeer s = (.ok peer, s')) :
    ∃ addr, s'.ctx.get .requestMeta = some { rm with peerAddr := some addr, sni := some u.sni } := by
  obtain ⟨_, s1, hlog, h⟩ := Act.bind_eq_ok.1 h
  obtain rfl : s.log .upstreamPeer = s1 := congrArg Prod.snd hlog
  have hexp := ctxExpect_of_some (ε := PError) (s := s.log .upstreamPeer)
    "RequestMeta should exist" hmeta
  rw [Act.bind_of_ok hexp] at h
  simp only [hid, hu] at h
  obtain ⟨_, s2, hlog, h⟩ := Act.bind_eq_ok.1 h
  obtain rfl : (s.log .upstreamPeer).log (.selectPeer id) = s2 := congrArg Prod.snd hlog
  rw [Act.mapErr_run, Prod.mk.injEq, Res.mapErr_eq_ok] at h
  exact selectPeer_records (s := (s.log .upstreamPeer).log (.selectPeer id)) hmeta
    (Prod.ext h.1 h.2)

/-! ## What `upstream_request_filter` writes -/

theorem setHeader_ok {name value : String} {m m' : HeaderMap}
    (h : setHeader name value m = (.ok (), m')) :
    m' = MultiMap.insert m (lower name) (utf8 value) := by
  unfold setHeader at h
  split at h
  · rename_i m1 hins
    obtain rfl : m1 = m' := congrArg Prod.snd h
    exact insertHeader_eq_ok hins
  · cases h
  · cases h

/-- The edits of a request that went through: headers added, then removed, then Host rewritten if
the route does not preserve it and an SNI was recorded. -/
theorem editRequest_ok {headers : HeaderConf} {sni : Option String} {m m' : HeaderMap}
    (h : editRequest headers sni m = (.ok (), m')) :
    ∃ m1, setHeaders headers.addReqHeaders.entries m = (.ok (), m1) ∧
      ((∃ x, headers.preserveHostHeader = false ∧ sni = some x ∧ m' =
          MultiMap.insert (removeHeaders headers.removeReqHeaders m1) (lower "Host") (utf8 x)) ∨
        (headers.preserveHostHeader = true ∨ sni = none) ∧
          m' = removeHeaders headers.removeReqHeaders m1) := by
  obtain ⟨_, m1, hadd, h⟩ := Act.bind_eq_ok.1 h
  obtain ⟨_, m2, hremove, h⟩ := Act.bind_eq_ok.1 h
  obtain rfl : removeHeaders headers.removeReqHeaders m1 = m2 := congrArg Prod.snd hremove
  refine ⟨m1, hadd, ?_⟩
  cases hp : headers.preserveHostHeader with
  | true =>
    simp only [hp, Bool.not_true, Bool.false_eq_true, if_false] at h
    exact .inr ⟨.inl rfl, (congrArg Prod.snd h).symm⟩
  | false =>
    simp only [hp, Bool.not_false, if_true] at h
    cases sni with
    | none => exact .inr ⟨.inr rfl, (congrArg Prod.snd h).symm⟩
    | some x => exact .inl ⟨x, rfl, rfl, setHeader_ok h⟩

/-- The Host line is written last, over whatever the route's own edits left. -/
theorem editRequest_host {headers : HeaderConf} {sni : String} {m m' : HeaderMap}
    (hkeep : headers.preserveHostHeader = false)
    (h : editRequest headers (some sni) m = (.ok (), m')) :
    MultiMap.getAll m' "host" = [utf8 sni] := by
  obtain ⟨m1, -, ⟨x, -, hx, rfl⟩ | ⟨hno, -⟩⟩ := editRequest_ok h
  · cases hx
    exact MultiMap.getAll_insert_self _ _ _
  · simp [hkeep] at hno

/-- The middleware's `handle_upstream_request` leaves the recorded SNI and the route alone. -/
def Middleware.KeepsPeer (m : Middleware K) : Prop :=
  ∀ s, (m.handleUpstreamRequest s).2.ctx.get .requestMeta = s.ctx.get .requestMeta ∧
    (m.handleUpstreamRequest s).2.ctx.get .routeConf = s.ctx.get .routeConf

theorem main_keepsPeer {conf : ServerConf} : ∀ m ∈ mainMiddlewares K conf, m.KeepsPeer := by
  intro m hm s
  exact ⟨main_hook_get hm .upstreamRequest (by simp) s, main_hook_get hm .upstreamRequest (by simp) s⟩

theorem expectRouteConf_some {β ε : Type} {s : St K β} {route : RouteConf}
    (h : s.ctx.get .routeConf = some route) :
    (expectRouteConf : Act (St K β) ε RouteConf) s =
      (.ok route, s.log (.routeLookup (some route))) := by
  change (Res.expect _ (s.ctx.get .routeConf), s.log (.routeLookup (s.ctx.get .routeConf))) = _
  rw [h]
  rfl

/-- After hooks that continued, the phase edits what they left by the cells they left. -/
theorem upstreamRequestFilter_run {s s1 : St K RequestHeader} {route : RouteConf} {rm : RequestMeta}
    (hhooks : runHooks .upstreamRequest g.chain s = (.ok .Continue, s1))
    (hroute : s1.ctx.get .routeConf = some route) (hmeta : s1.ctx.get .requestMeta = some rm) :
    g.upstreamRequestFilter s = onRequestHeaders (editRequest route.headers rm.sni)
      (s1.log (.routeLookup (some route))) := by
  have hexp := ctxExpect_of_some (ε := PError) (s := s1.log (.routeLookup (some route)))
    "RequestMeta should exist" hmeta
  unfold Gateway.upstreamRequestFilter
  rw [Act.bind_of_ok hhooks]
  change (expectRouteConf >>= _) s1 = _
  rw [Act.bind_of_ok (expectRouteConf_some hroute), Act.bind_of_ok hexp]

theorem upstreamRequestFilter_edits {s s1 s' : St K RequestHeader}
    {route : RouteConf} {rm : RequestMeta}
    (hhooks : runHooks .upstreamRequest g.chain s = (.ok .Continue, s1))
    (hroute : s1.ctx.get .routeConf = some route) (hmeta : s1.ctx.get .requestMeta = some rm)
    (h : g.upstreamRequestFilter s = (.ok (), s')) :
    editRequest route.headers rm.sni s1.msg.headers = (.ok (), s'.msg.headers) := by
  rw [upstreamRequestFilter_run hhooks hroute hmeta, onRequestHeaders, Act.zoom_run,
    Prod.mk.injEq] at h
  exact Prod.ext h.1 (congrArg (fun t => t.msg.headers) h.2)

theorem upstreamRequestFilter_host (hhooks : ∀ m ∈ g.middlewares, m.KeepsPeer) {route : RouteConf}
    {rm : RequestMeta} {sni : String} {s s' : St K RequestHeader}
    (hroute : s.ctx.get .routeConf = some route)
    (hkeep : route.headers.preserveHostHeader = false)
    (hmeta : s.ctx.get .requestMeta = some rm) (hsni : rm.sni = some sni)
    (h : g.upstreamRequestFilter s = (.ok (), s')) : hostValues s'.msg = [utf8 sni] := by
  have hcells : Act.Keeps (fun s : St K RequestHeader =>
      s.ctx.get .requestMeta = some rm ∧ s.ctx.get .routeConf = some route)
      (runHooks .upstreamRequest g.chain) := by
    refine runHooks_keeps fun m hm s hs => ?_
    obtain ⟨hm1, hm2⟩ := hhooks m.1 (List.fst_mem_of_mem_zipIdx hm) s
    exact ⟨hm1.trans hs.1, hm2.trans hs.2⟩
  obtain ⟨d, s1, hrun, hrest⟩ := Act.bind_eq_ok.1 h
  have hkept := hcells s ⟨hmeta, hroute⟩
  rw [hrun] at hkept
  cases d with
  | Stop => cases hrest
  | Continue =>
    have hedit := upstreamRequestFilter_edits hrun hkept.2 hkept.1 h
    rw [hsni] at hedit
    exact editRequest_host hkeep hedit

/-- **The forwarded Host is right only for a non-empty `options.sni` off a socket path.** For
every accepted upstream, and every route that uses it and does not preserve the header: after an
`upstream_peer` that returned `Ok`, on the `RequestMeta` it left, an `upstream_request_filter` that
returned `Ok` forwards the configured SNI, or the client's Host where none is configured, if and
only if the source is not a socket path and a non-empty SNI is configured. The upstream-request
hooks may edit the request, but not the two cells the filter reads (`main_keepsPeer`). -/
theorem forwarded_host_iff (hhooks : ∀ m ∈ g.middlewares, m.KeepsPeer) {up : UpstreamConf}
    {u : Upstream} (hmake : makeUpstream K up = .ok u)
    {id : String} (hu : g.upstreams id = some u) {rm : RequestMeta} {s s1 : St K Unit}
    {peer : HttpPeer} (hmeta : s.ctx.get .requestMeta = some rm) (hid : rm.upstreamId = some id)
    (hpeer : g.upstreamPeer s = (.ok peer, s1)) {route : RouteConf} {s2 s3 : St K RequestHeader}
    (hctx : s2.ctx.get .requestMeta = s1.ctx.get .requestMeta)
    (hroute : s2.ctx.get .routeConf = some route) (hkeep : route.headers.preserveHostHeader = false)
    (hfilter : g.upstreamRequestFilter s2 = (.ok (), s3)) :
    ForwardsHost up.options.sni s2.msg s3.msg ↔
      (∀ path, up.source ≠ .Uds path) ∧ ∃ sni, up.options.sni = some sni ∧ sni ≠ "" := by
  obtain ⟨addr, hrec⟩ := upstreamPeer_records hu hmeta hid hpeer
  have hout := upstreamRequestFilter_host hhooks hroute hkeep (hctx.trans hrec) rfl hfilter
  have hempty : [] ∉ hostValues s3.msg ↔ u.sni ≠ "" := by
    simp [hout, eq_comm (a := ([] : Bytes)), utf8_eq_nil]
  have hsni := makeUpstream_sni hmake
  constructor
  · rintro ⟨-, -, hne⟩
    rw [hempty, hsni] at hne
    cases hsrc : up.source with
    | Uds path => simp [hsrc] at hne
    | Static | Dns | File =>
      cases ho : up.options.sni with
      | none => simp [hsrc, ho] at hne
      | some sni => exact ⟨by simp, sni, rfl, by simpa [hsrc, ho] using hne⟩
  · rintro ⟨hsrc, sni, ho, hne⟩
    have hu : u.sni = sni := by
      cases hs : up.source with
      | Uds path => exact absurd hs (hsrc path)
      | Static | Dns | File => simpa [hs, ho] using hsni
    rw [ho]
    refine ⟨?_, by simp, hempty.2 (hu ▸ hne)⟩
    rintro name ⟨⟩
    rw [hout, hu]

/-! ## One upstream, with and without an SNI -/

def hostUpstream (sni : Option String) : UpstreamConf where
  id := "a"
  source := .Static [{ address := "127.0.0.1:80" }]
  options := { sni }

def hostGateway (sni : Option String) : Gateway refCrates :=
  { plainGateway with upstreams := fun _ => (makeUpstream refCrates (hostUpstream sni)).toOption }

/-- A request matched to the plain route, with the `RouteConf` in its context. -/
def hostState : St refCrates Unit where
  session := getRequest "/"
  ctx := (newCtx.insert .requestMeta { upstreamId := some "a" }).insert .routeConf {}
  msg := ()

def hostRequest : RequestHeader := ⟨"GET", "/", none, [("host", utf8 "example.com")]⟩

/-- The state `upstream_peer` leaves, lent the client's request. -/
def hostPeered (sni : Option String) : St refCrates RequestHeader :=
  { ((hostGateway sni).upstreamPeer hostState).2 with msg := hostRequest }

theorem hostGateway_runs (sni : Option String) (hsni : sni = none ∨ sni = some "backend") :
    ∃ peer, ((hostGateway sni).upstreamPeer hostState).1 = .ok peer ∧
      ((hostGateway sni).upstreamRequestFilter (hostPeered sni)).1 = .ok () := by
  rcases hsni with rfl | rfl
  · exact ⟨{ address := .inet loopback 80, tls := false, sni := "", connectionTimeout := some 5000
             readTimeout := some 60000, writeTimeout := some 60000, idleTimeout := some 60000 },
      by decide +kernel, by decide +kernel⟩
  · exact ⟨{ address := .inet loopback 80, tls := false, sni := "backend"
             connectionTimeout := some 5000, readTimeout := some 60000
             writeTimeout := some 60000, idleTimeout := some 60000 },
      by decide +kernel, by decide +kernel⟩

/-- Without an SNI the client's `example.com` is replaced by the empty string. -/
theorem host_emptied :
    ∃ peer s1 s3, (hostGateway none).upstreamPeer hostState = (.ok peer, s1) ∧
      (hostGateway none).upstreamRequestFilter { s1 with msg := hostRequest } = (.ok (), s3) ∧
      hostValues s3.msg = [[]] ∧ ¬ ForwardsHost none hostRequest s3.msg := by
  obtain ⟨peer, hpeer, hfilter⟩ := hostGateway_runs none (.inl rfl)
  have hout : hostValues ((hostGateway none).upstreamRequestFilter (hostPeered none)).2.msg =
      [[]] := by
    decide +kernel
  refine ⟨peer, _, _, Prod.ext hpeer rfl, Prod.ext hfilter rfl, hout, fun h => h.2.2 ?_⟩
  change [] ∈ hostValues ((hostGateway none).upstreamRequestFilter (hostPeered none)).2.msg
  rw [hout]
  simp

theorem forwarded_host_configured :
    ForwardsHost (some "backend") hostRequest
      ((hostGateway (some "backend")).upstreamRequestFilter (hostPeered (some "backend"))).2.msg := by
  obtain ⟨peer, hpeer, hfilter⟩ := hostGateway_runs (some "backend") (.inr rfl)
  obtain ⟨u, hmake⟩ : ∃ u, makeUpstream refCrates (hostUpstream (some "backend")) = .ok u :=
    ⟨_, rfl⟩
  have hu : (hostGateway (some "backend")).upstreams "a" = some u := by
    change (makeUpstream refCrates (hostUpstream (some "backend"))).toOption = some u
    rw [hmake]
    rfl
  have hhooks : ∀ m ∈ mainMiddlewares refCrates {}, m.KeepsPeer := main_keepsPeer
  have hmeta : hostState.ctx.get .requestMeta = some { upstreamId := some "a" } := rfl
  have hpeer : (hostGateway (some "backend")).upstreamPeer hostState = (.ok peer, _) :=
    Prod.ext hpeer rfl
  have hroute : ((hostPeered (some "backend")).ctx.get .routeConf : Option RouteConf) = some {} := by
    decide +kernel
  have hfilter : (hostGateway (some "backend")).upstreamRequestFilter (hostPeered (some "backend")) =
      (.ok (), _) := Prod.ext hfilter rfl
  exact (forwarded_host_iff hhooks hmake hu hmeta rfl hpeer rfl hroute rfl hfilter).2
    ⟨by simp [hostUpstream], "backend", rfl, by decide⟩

end PingoraGuide
