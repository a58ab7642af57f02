import PingoraGuide.Access
import PingoraGuide.BodyAccounting
/-!
# The address the ACL sees

`ip_restriction` judges the address `client_addr` reports, and it continues where there is none. An
allow list therefore lets clients without an IP address through (`allow_list_iff`), and a client
seen as an IPv4-mapped IPv6 address escapes every IPv4 block, on either list
(`mapped_decision_iff`).
-/
namespace PingoraGuide
open Fallible Wire

variable {K : Crates}

/-- Every exit of `ip_restriction`: it continues unless the route has an ACL, the client has an IP
address and the ACL does not permit it. -/
theorem ipRestriction_exits {s : St K Unit} {entry : RouteEntry K}
    (hroute : s.ctx.get .routeEntry = some entry) :
    ((ipRestriction K).handleRequest s).1 = .ok .Continue ↔
      ∀ acl ip port, entry.accessControl = some acl →
        s.session.clientAddr = some (.inet ip port) → acl.val.permits ip := by
  by_cases hinet : ∃ ip port, s.session.clientAddr = some (.inet ip port)
  · obtain ⟨ip, port, haddr⟩ := hinet
    rw [ipRestriction_continue hroute haddr, haddr]
    constructor
    · intro h acl ip' port' hacl hsame
      cases hsame
      exact h acl hacl
    · exact fun h acl hacl => h acl ip port hacl rfl
  · have hnone : s.session.clientAddr.bind SocketAddr.asInet = none := by
      rcases haddr : s.session.clientAddr with _ | ⟨ip, port⟩ | path
      · rfl
      · exact absurd ⟨ip, port, haddr⟩ hinet
      · rfl
    refine iff_of_true ?_ fun acl ip port _ haddr => absurd ⟨ip, port, haddr⟩ hinet
    unfold ipRestriction
    dsimp only
    rw [ctxGet_bind_run, hroute]
    dsimp only
    cases entry.accessControl with
    | none => rfl
    | some acl =>
      dsimp only
      rw [Act.get_bind_run, hnone]
      rfl

variable {g : Gateway K} {conf : GatewayConf} {s : St K Unit} {rm : RequestMeta}
  {entry : RouteEntry K}

/-- What `request_filter` lets through with the chain of `main`. -/
theorem requestFilter_admits {server : ServerConf}
    (hmain : g.middlewares = mainMiddlewares K server)
    (hmeta : s.ctx.get .requestMeta = some rm) (hmatch : g.matched s = .ok (some entry)) :
    (g.requestFilter s).1 = .ok false ↔
      (∀ acl ip port, entry.accessControl = some acl →
        s.session.clientAddr = some (.inet ip port) → acl.val.permits ip) ∧
      ¬ HeaderTooLarge (maxBytesOf server) s.session.reqHeader := by
  have hsize : ((requestSize K (maxBytesOf server)).handleRequest (sizeSees s entry)).1 =
      .ok .Continue ↔ ¬ HeaderTooLarge (maxBytesOf server) s.session.reqHeader := by
    rw [(handleRequest_size (maxBytesOf server) _).1, sizeSees_reqHeader]
    simp [HeaderTooLarge]
  rw [requestFilter_main hmain hmeta hmatch, hsize,
    ipRestriction_exits (s := ipSees s entry) (enterRoute_get entry).1]
  rfl

/-! ## Clients without an IP address -/

/-- **An allow list is open to clients without an IP address.** The request of such a client is let
through, unless its announced length stops it; every other request let through comes from an
allowed address. -/
theorem allow_list_iff {a : AccessControlConf} (hrouter : Router.new K conf = .ok g.router)
    (hmain : g.middlewares = mainMiddlewares K conf.server)
    (hmeta : s.ctx.get .requestMeta = some rm) (hmatch : g.matched s = .ok (some entry))
    (hacl : entry.conf.val.accessControl = some a) (hallow : a.allow ≠ []) :
    ((g.requestFilter s).1 = .ok false →
      ∃ ip port, s.session.clientAddr = some (.inet ip port) ∧
        InBlocks K a.allow ip ∧ ¬ InBlocks K a.deny ip) ↔
    ((∃ ip port, s.session.clientAddr = some (.inet ip port)) ∨
      HeaderTooLarge (maxBytesOf conf.server) s.session.reqHeader) := by
  obtain ⟨i, -, hcompiled⟩ := (new_indexed hrouter).matched_entry hmatch
  rw [requestFilter_admits hmain hmeta hmatch]
  constructor
  · intro h
    by_contra hno
    push Not at hno
    obtain ⟨haddr, hfits⟩ := hno
    obtain ⟨ip, port, hinet, -⟩ := h ⟨fun _ ip port _ hinet => absurd hinet (haddr ip port), hfits⟩
    exact haddr ip port hinet
  · rintro (⟨ip, port, haddr⟩ | hlarge) ⟨hpermits, hfits⟩
    · have hadmits : AclAdmits K entry.conf.val.accessControl ip :=
        (compileAcl_admits hcompiled ip).2 fun acl h => hpermits acl ip port h haddr
      obtain ⟨hdeny, hin⟩ := hadmits a hacl
      exact ⟨ip, port, haddr, hin.resolve_left hallow, hdeny⟩
    · exact absurd hlarge hfits

/-- One route that allows the loopback block alone. -/
def loopbackAllowedConf : GatewayConf where
  routes :=
    [{ path := "/", upstreamId := "a", accessControl := some { allow := ["127.0.0.0/8"] } }]

def loopbackAllowedGateway : Gateway refCrates :=
  (mainGateway refCrates loopbackAllowedConf).toOption.get rfl

/-- A client on a Unix socket. -/
def unixRequest : Session := { getRequest "/" with clientAddr := some (.unix "/run/gateway.sock") }

theorem loopbackAllowed_matches (session : Session)
    (h : session.reqHeader = (getRequest "/").reqHeader) :
    ∃ entry : RouteEntry refCrates,
      loopbackAllowedGateway.matched (Gateway.start session).2 = .ok (some entry) ∧
      entry.conf.val.accessControl = some { allow := ["127.0.0.0/8"] } := by
  unfold Gateway.matched
  change ∃ entry, loopbackAllowedGateway.router.matchRequest session.reqHeader.path
    (requestHost session.reqHeader) = _ ∧ _
  rw [h]
  exact ⟨_, rfl, rfl⟩

/-- It is let through. -/
theorem allow_list_open :
    ∃ entry : RouteEntry refCrates,
      loopbackAllowedGateway.matched (Gateway.start unixRequest).2 = .ok (some entry) ∧
      entry.conf.val.accessControl = some { allow := ["127.0.0.0/8"] } ∧
      (loopbackAllowedGateway.requestFilter (Gateway.start unixRequest).2).1 = .ok false ∧
      ¬ ∃ ip port, (Gateway.start (K := refCrates) unixRequest).2.session.clientAddr =
        some (.inet ip port) := by
  obtain ⟨entry, hmatch, hacl⟩ := loopbackAllowed_matches unixRequest rfl
  refine ⟨entry, hmatch, hacl, by decide +kernel, ?_⟩
  rintro ⟨ip, port, h⟩
  cases h

theorem allow_list_iff_loopback :
    ((loopbackAllowedGateway.requestFilter (Gateway.start (getRequest "/")).2).1 = .ok false →
      ∃ ip port, (getRequest "/").clientAddr = some (.inet ip port) ∧
        InBlocks refCrates ["127.0.0.0/8"] ip ∧ ¬ InBlocks refCrates [] ip) ↔
    ((∃ ip port, (getRequest "/").clientAddr = some (.inet ip port)) ∨
      HeaderTooLarge (maxBytesOf loopbackAllowedConf.server) (getRequest "/").reqHeader) := by
  obtain ⟨entry, hmatch, hacl⟩ := loopbackAllowed_matches (getRequest "/") rfl
  have hrouter : Router.new refCrates loopbackAllowedConf = .ok loopbackAllowedGateway.router := rfl
  exact allow_list_iff hrouter rfl rfl hmatch hacl (by simp)

/-! ## IPv4-mapped clients -/

/-- `::ffff:a`, the form in which a dual-stack listener reports the IPv4 client `a`. -/
def mapped (a : BitVec 32) : IpAddr := .v6 (0xffff#96 ++ a)

/-- The same request, its client seen under this address. -/
def St.seenAs (s : St K Unit) (ip : IpAddr) (port : Nat) : St K Unit :=
  { s with session := { s.session with clientAddr := some (.inet ip port) } }

/-- Written in IPv4 form: IPv6 notation always has a colon. -/
def WrittenV4 (block : String) : Prop := ':' ∉ block.toList

/-- The address families of `ipnet`: a block written in IPv4 form is an IPv4 block, and an IPv4
block contains no IPv6 address. -/
structure FamilySpec (K : Crates) (V4 : K.IpNet → Prop) : Prop where
  parse : ∀ block net, WrittenV4 block → K.ipNetFromStr block = .ok net → V4 net
  apart : ∀ net a, V4 net → K.ipNetContains net (.v6 a) = false

theorem FamilySpec.mapped_outside {V4 : K.IpNet → Prop} (hfamily : FamilySpec K V4)
    {blocks : List String} (hblocks : ∀ block ∈ blocks, WrittenV4 block) (a : BitVec 32) :
    ¬ InBlocks K blocks (mapped a) := by
  rintro ⟨block, hmem, net, hnet, hin⟩
  have hv4 := hfamily.parse block net (hblocks block hmem) hnet
  rw [mapped, hfamily.apart net _ hv4] at hin
  cases hin

/-- A refusal ends as its write does. -/
theorem forbid_fst (s : St K Unit) :
    ((forbid : Hook Unit K) s).1 = if s.session.takes (.error 403) then .ok .Stop
      else .err (.Gateway (.AclError (K.errorToString ⟨.WriteError, none⟩))) := by
  unfold forbid
  by_cases hw : s.session.takes (.error 403)
  · have hrun : (write (.error 403) s).1 = .ok () := by simp [write, hw]
    rw [if_pos hw, Act.bind_pure_fst]
    exact ⟨(), Res.mapErr_eq_ok.2 hrun, rfl⟩
  · have hrun : (write (.error 403) s).1 = .err ⟨.WriteError, none⟩ := by simp [write, hw]
    have herr : (respondError 403).mapErr
        (fun e => PingoraGuideError.Gateway (.AclError (K.errorToString e))) s =
          (.err (.Gateway (.AclError (K.errorToString ⟨.WriteError, none⟩))),
            (write (.error 403) s).2) := by
      rw [Act.mapErr_run, respondError, hrun]
      rfl
    rw [if_neg hw]
    exact congrArg Prod.fst (Act.bind_of_err herr)

/-- The two ways `ip_restriction` ends for a client with an IP address. -/
theorem ipRestriction_seenAs {acl : AccessControlConf} (hroute : s.ctx.get .routeEntry = some entry)
    (hcompiled : compileAcl K (some acl) = .ok entry.accessControl) (ip : IpAddr) (port : Nat) :
    (AclAdmits K (some acl) ip →
      ((ipRestriction K).handleRequest (s.seenAs ip port)).1 = .ok .Continue) ∧
    (¬ AclAdmits K (some acl) ip →
      ((ipRestriction K).handleRequest (s.seenAs ip port)).1 = ((forbid : Hook Unit K) s).1) := by
  rw [compileAcl_admits hcompiled]
  constructor
  · exact (ipRestriction_continue (s := s.seenAs ip port) hroute rfl).2
  · intro hrefused
    push Not at hrefused
    obtain ⟨c, hc, hrefused⟩ := hrefused
    have hrun : (ipRestriction K).handleRequest (s.seenAs ip port) =
        checkAcl c.val ip (s.seenAs ip port) := by
      unfold ipRestriction
      dsimp only
      rw [ctxGet_bind_run, show (s.seenAs ip port).ctx.get .routeEntry = _ from hroute]
      dsimp only
      rw [hc]
      rfl
    have hsame : ((forbid : Hook Unit K) (s.seenAs ip port)).1 = ((forbid : Hook Unit K) s).1 :=
      (forbid_fst _).trans (forbid_fst s).symm
    rw [hrun]
    unfold checkAcl
    unfold CompiledAccessControl.permits at hrefused
    cases hd : c.val.deny.any fun net => K.ipNetContains net ip
    · cases ha : c.val.allow.any fun net => K.ipNetContains net ip
      · cases he : c.val.allow.isEmpty
        · simpa using hsame
        · exact absurd ⟨hd, .inl he⟩ hrefused
      · exact absurd ⟨hd, .inr ha⟩ hrefused
    · simpa using hsame

/-- **A mapped client is judged as an address outside every IPv4 block.** Its verdict is the one on
its IPv4 address if and only if there is no allow block and it is in no deny block, or there are
allow blocks and the IPv4 address is refused as well. -/
theorem mapped_decision_iff {V4 : K.IpNet → Prop} (hfamily : FamilySpec K V4)
    {acl : AccessControlConf} (hv4 : ∀ block ∈ acl.allow ++ acl.deny, WrittenV4 block)
    (hcompiled : compileAcl K (some acl) = .ok entry.accessControl)
    (hroute : s.ctx.get .routeEntry = some entry) (a : BitVec 32) (port : Nat) :
    ((ipRestriction K).handleRequest (s.seenAs (mapped a) port)).1 =
        ((ipRestriction K).handleRequest (s.seenAs (.v4 a) port)).1 ↔
      (acl.allow = [] ∧ ¬ InBlocks K acl.deny (.v4 a)) ∨
      (acl.allow ≠ [] ∧ (InBlocks K acl.deny (.v4 a) ∨ ¬ InBlocks K acl.allow (.v4 a))) := by
  obtain ⟨hadmit6, hrefuse6⟩ := ipRestriction_seenAs hroute hcompiled (mapped a) port
  obtain ⟨hadmit4, hrefuse4⟩ := ipRestriction_seenAs hroute hcompiled (.v4 a) port
  have hdeny6 : ¬ InBlocks K acl.deny (mapped a) :=
    hfamily.mapped_outside (fun b hb => hv4 b (by simp [hb])) a
  have hallow6 : ¬ InBlocks K acl.allow (mapped a) :=
    hfamily.mapped_outside (fun b hb => hv4 b (by simp [hb])) a
  have hverdict6 : AclAdmits K (some acl) (mapped a) ↔ acl.allow = [] := by
    simp [AclAdmits, hdeny6, hallow6]
  have hverdict4 : AclAdmits K (some acl) (.v4 a) ↔
      ¬ InBlocks K acl.deny (.v4 a) ∧ (acl.allow = [] ∨ InBlocks K acl.allow (.v4 a)) := by
    simp [AclAdmits]
  have hforbid : ((forbid : Hook Unit K) s).1 ≠ .ok .Continue := forbid_ne s
  by_cases hnil : acl.allow = []
  · rw [hadmit6 (hverdict6.2 hnil)]
    simp only [hnil, true_and, ne_eq, not_true_eq_false, false_and, or_false]
    by_cases hd : InBlocks K acl.deny (.v4 a)
    · rw [hrefuse4 fun h => (hverdict4.1 h).1 hd]
      exact iff_of_false hforbid.symm (not_not_intro hd)
    · rw [hadmit4 (hverdict4.2 ⟨hd, .inl hnil⟩)]
      exact iff_of_true rfl hd
  · rw [hrefuse6 fun h => hnil (hverdict6.1 h)]
    simp only [hnil, false_and, ne_eq, not_false_eq_true, true_and, false_or]
    by_cases hadmits : AclAdmits K (some acl) (.v4 a)
    · obtain ⟨hd, hin⟩ := hverdict4.1 hadmits
      rw [hadmit4 hadmits]
      exact iff_of_false hforbid fun h => h.elim hd fun hout => hout (hin.resolve_left hnil)
    · rw [hrefuse4 hadmits]
      refine iff_of_true rfl ?_
      by_contra hno
      push Not at hno
      exact hadmits (hverdict4.2 ⟨hno.1, .inr hno.2⟩)

theorem refCrates_family : FamilySpec refCrates fun _ => True where
  parse := fun _ _ _ _ => trivial
  apart := fun _ _ _ => rfl

/-- The plain request, past the lookup of the route that refuses the loopback block. -/
theorem deniedState_entry : ∃ s : St refCrates Unit, ∃ entry : RouteEntry refCrates,
    s.session.takes (.error 403) = true ∧ s.ctx.get .routeEntry = some entry ∧
    compileAcl refCrates (some { deny := ["127.0.0.0/8"] }) = .ok entry.accessControl := by
  obtain ⟨entry, hmatch, hacl⟩ : ∃ entry : RouteEntry refCrates, loopbackDeniedGateway.matched
      (Gateway.start (getRequest "/")).2 = .ok (some entry) ∧
      entry.conf.val.accessControl = some { deny := ["127.0.0.0/8"] } := ⟨_, rfl, rfl⟩
  have hrouter : Router.new refCrates loopbackDeniedConf = .ok loopbackDeniedGateway.router := rfl
  obtain ⟨-, -, hcompiled⟩ := (new_indexed hrouter).matched_entry hmatch
  refine ⟨enterRoute (Gateway.start (getRequest "/")).2 entry, entry, rfl, ?_, hacl ▸ hcompiled⟩
  exact (enterRoute_get entry).1

/-- The loopback client is refused as `127.0.0.1` and let through as `::ffff:127.0.0.1`. -/
theorem mapped_escapes_deny :
    ∃ s : St refCrates Unit, ∃ entry, s.ctx.get .routeEntry = some entry ∧
      compileAcl refCrates (some { deny := ["127.0.0.0/8"] }) = .ok entry.accessControl ∧
      ((ipRestriction refCrates).handleRequest (s.seenAs (.v4 0x7f000001) 4000)).1 = .ok .Stop ∧
      ((ipRestriction refCrates).handleRequest (s.seenAs (mapped 0x7f000001) 4000)).1 =
        .ok .Continue := by
  obtain ⟨s, entry, hwrite, hroute, hcompiled⟩ := deniedState_entry
  have hin : InBlocks refCrates ["127.0.0.0/8"] (.v4 0x7f000001) :=
    ⟨_, .head _, (⟨0x7f000000, 8⟩ : Cidr), rfl, rfl⟩
  have hout : ¬ InBlocks refCrates ["127.0.0.0/8"] (mapped 0x7f000001) :=
    refCrates_family.mapped_outside (by simp [WrittenV4]) 0x7f000001
  refine ⟨s, entry, hroute, hcompiled, ?_, ?_⟩
  · rw [(ipRestriction_seenAs hroute hcompiled _ 4000).2 fun h => (h _ rfl).1 hin, forbid_fst, hwrite]
    rfl
  · refine (ipRestriction_seenAs hroute hcompiled _ 4000).1 ?_
    intro acl hacl
    cases hacl
    exact ⟨hout, .inl rfl⟩

theorem mapped_decision_iff_loopback :
    ∃ s : St refCrates Unit,
      ((ipRestriction refCrates).handleRequest (s.seenAs (mapped 0x7f000001) 4000)).1 =
        ((ipRestriction refCrates).handleRequest (s.seenAs (.v4 0x7f000001) 4000)).1 ↔
      (([] : List String) = [] ∧ ¬ InBlocks refCrates ["127.0.0.0/8"] (.v4 0x7f000001)) ∨
      (([] : List String) ≠ [] ∧ (InBlocks refCrates ["127.0.0.0/8"] (.v4 0x7f000001) ∨
        ¬ InBlocks refCrates [] (.v4 0x7f000001))) := by
  obtain ⟨s, entry, -, hroute, hcompiled⟩ := deniedState_entry
  exact ⟨s, mapped_decision_iff refCrates_family (by simp [WrittenV4]) hcompiled hroute 0x7f000001 4000⟩

end PingoraGuide
