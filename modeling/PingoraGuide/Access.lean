import PingoraGuide.PhaseSpecs
import PingoraGuide.Routing
/-!
# Access control

`AclAdmits` is the meaning of a route's ACL, said on the configured strings. The compiled ACL of
`Router::new` has that meaning (`compileAcl_admits`), `ip_restriction` computes it
(`ipRestriction_continue`), and `request_filter` obeys it (`access_control`).
-/
namespace PingoraGuide
open Fallible Wire

variable {K : Crates}

variable (K) in
/-- The address lies in one of the configured blocks. -/
def InBlocks (blocks : List String) (ip : IpAddr) : Prop :=
  ∃ block ∈ blocks, ∃ net, K.ipNetFromStr block = .ok net ∧ K.ipNetContains net ip = true

variable (K) in
/-- In no deny block, and in some allow block unless there is none. -/
def AclAdmits (acl : Option AccessControlConf) (ip : IpAddr) : Prop :=
  ∀ a, acl = some a → ¬ InBlocks K a.deny ip ∧ (a.allow = [] ∨ InBlocks K a.allow ip)

/-- The same blocks, in any order and any number of times. -/
def SameBlocks : Option AccessControlConf → Option AccessControlConf → Prop
  | none, none => True
  | some a, some b => (∀ x, x ∈ a.deny ↔ x ∈ b.deny) ∧ ∀ x, x ∈ a.allow ↔ x ∈ b.allow
  | _, _ => False

theorem SameBlocks.inBlocks {a b : List String} {ip : IpAddr} (h : ∀ x, x ∈ a ↔ x ∈ b) :
    InBlocks K a ip ↔ InBlocks K b ip := by
  simp only [InBlocks, h]

theorem SameBlocks.admits {a b : Option AccessControlConf} {ip : IpAddr} (h : SameBlocks a b) :
    AclAdmits K a ip ↔ AclAdmits K b ip := by
  rcases a with _ | a <;> rcases b with _ | b <;> simp only [SameBlocks] at h
  · exact Iff.rfl
  · obtain ⟨hd, ha⟩ := h
    have hnil : a.allow = [] ↔ b.allow = [] := by
      simp only [List.eq_nil_iff_forall_not_mem, ha]
    simp [AclAdmits, SameBlocks.inBlocks hd, SameBlocks.inBlocks ha, hnil]

/-! ## Compilation -/

/-- Block by block, in order: each net is its string parsed. -/
theorem compileBlocks_ok {blocks : List String} {nets : List K.IpNet}
    (h : compileBlocks K blocks = .ok nets) :
    List.Forall₂ (fun block net => K.ipNetFromStr block = .ok net) blocks nets := by
  induction blocks generalizing nets with
  | nil =>
    obtain rfl : [] = nets := Except.ok.inj h
    exact .nil
  | cons block blocks ih =>
    unfold compileBlocks at h
    cases hb : K.ipNetFromStr block with
    | error e => simp [hb] at h
    | ok range =>
      cases hbs : compileBlocks K blocks with
      | error e => simp [hb, hbs, bind, Except.bind] at h
      | ok ranges =>
        simp only [hb, hbs, bind, Except.bind, Except.ok.injEq] at h
        subst h
        exact .cons hb (ih hbs)

theorem compileBlocks_inBlocks {blocks : List String} {nets : List K.IpNet}
    (h : compileBlocks K blocks = .ok nets) (ip : IpAddr) :
    (nets.any fun net => K.ipNetContains net ip) = true ↔ InBlocks K blocks ip := by
  have hall := compileBlocks_ok h
  clear h
  induction hall with
  | nil => simp [InBlocks]
  | cons hb _ ih =>
    simp only [List.any_cons, Bool.or_eq_true, ih]
    unfold InBlocks
    constructor
    · rintro (hc | ⟨block, hm, net, hn, hc⟩)
      · exact ⟨_, by simp, _, hb, hc⟩
      · exact ⟨block, by simp [hm], net, hn, hc⟩
    · rintro ⟨block, hm, net, hn, hc⟩
      rcases List.mem_cons.1 hm with rfl | hm
      · rw [hb] at hn
        obtain rfl := Except.ok.inj hn
        exact .inl hc
      · exact .inr ⟨block, hm, net, hn, hc⟩

theorem compileBlocks_isEmpty {blocks : List String} {nets : List K.IpNet}
    (h : compileBlocks K blocks = .ok nets) : nets.isEmpty = blocks.isEmpty := by
  cases compileBlocks_ok h <;> rfl

/-- The compiled verdict: no deny hit, and an allow hit unless there is no allow block. -/
def CompiledAccessControl.permits (acl : CompiledAccessControl K) (ip : IpAddr) : Prop :=
  (acl.deny.any fun net => K.ipNetContains net ip) = false ∧
    (acl.allow.isEmpty = true ∨ (acl.allow.any fun net => K.ipNetContains net ip) = true)

/-- Compilation keeps the meaning; collapsing two empty lists to no ACL does too. -/
theorem compileAcl_admits {conf : Option AccessControlConf}
    {acl : Option (Arc (CompiledAccessControl K))} (h : compileAcl K conf = .ok acl) (ip : IpAddr) :
    AclAdmits K conf ip ↔ ∀ c, acl = some c → c.val.permits ip := by
  cases conf with
  | none =>
    obtain rfl : none = acl := Except.ok.inj h
    simp [AclAdmits]
  | some a =>
    unfold compileAcl at h
    cases hd : compileBlocks K a.deny with
    | error e => simp [hd, bind, Except.bind] at h
    | ok deny =>
      cases ha : compileBlocks K a.allow with
      | error e => simp [hd, ha, bind, Except.bind] at h
      | ok allow =>
        have hverdict : AclAdmits K (some a) ip ↔
            (⟨allow, deny⟩ : CompiledAccessControl K).permits ip := by
          have hdeny := compileBlocks_inBlocks hd ip
          have hallow := compileBlocks_inBlocks ha ip
          have hnil := compileBlocks_isEmpty ha
          simp only [AclAdmits, Option.some.injEq, forall_eq', CompiledAccessControl.permits,
            ← hdeny, ← hallow, hnil, List.isEmpty_iff, Bool.not_eq_true]
        simp only [hd, ha, bind, Except.bind] at h
        split at h
        · obtain rfl := Except.ok.inj h
          simpa using hverdict
        · rename_i hempty
          obtain rfl := Except.ok.inj h
          obtain ⟨rfl, rfl⟩ : allow = [] ∧ deny = [] := by simpa using hempty
          simp [hverdict, CompiledAccessControl.permits]

/-! ## The middleware -/

theorem forbid_ne (s : St K Unit) : ((forbid : Hook Unit K) s).1 ≠ .ok .Continue :=
  stop_ne_continue _ _ s

theorem checkAcl_continue {acl : CompiledAccessControl K} {ip : IpAddr} {s : St K Unit} :
    (checkAcl acl ip s).1 = .ok .Continue ↔ acl.permits ip := by
  unfold checkAcl CompiledAccessControl.permits
  cases hd : acl.deny.any fun net => K.ipNetContains net ip
  · cases ha : acl.allow.any fun net => K.ipNetContains net ip
    · cases he : acl.allow.isEmpty <;> simp [forbid_ne]
    · simp
  · simp [forbid_ne]

theorem ipRestriction_continue {s : St K Unit} {entry : RouteEntry K} {ip : IpAddr} {port : Nat}
    (hroute : s.ctx.get .routeEntry = some entry)
    (haddr : s.session.clientAddr = some (.inet ip port)) :
    ((ipRestriction K).handleRequest s).1 = .ok .Continue ↔
      ∀ acl, entry.accessControl = some acl → acl.val.permits ip := by
  unfold ipRestriction
  dsimp only
  rw [ctxGet_bind_run, hroute]
  dsimp only
  cases entry.accessControl with
  | none => simp
  | some acl =>
    dsimp only
    rw [Act.get_bind_run, haddr]
    simpa [SocketAddr.asInet] using checkAcl_continue

/-- **The ACL of the matched route, and nothing else, decides the `ip_restriction` step.** The log
of `request_filter` shows the step's outcome; it continues exactly for admitted addresses, for any
ACL with the same blocks the verdict is the same, and a refused request is never let through. -/
theorem access_control {conf : GatewayConf} {g : Gateway K} {s : St K Unit} {rm : RequestMeta}
    {entry : RouteEntry K} {ip : IpAddr} {port : Nat}
    (hrouter : Router.new K conf = .ok g.router)
    (hmain : g.middlewares = mainMiddlewares K conf.server)
    (hmeta : s.ctx.get .requestMeta = some rm)
    (haddr : s.session.clientAddr = some (.inet ip port))
    (hmatch : g.matched s = .ok (some entry)) :
    entry.conf.val ∈ conf.routes ∧
    ∃ out rest,
      (g.requestFilter s).2.calls =
        s.calls ++ .hook .request 0 (.ok .Continue) :: .hook .request 1 out :: rest ∧
      (out = .ok .Continue ↔ AclAdmits K entry.conf.val.accessControl ip) ∧
      (∀ acl, SameBlocks entry.conf.val.accessControl acl →
        (out = .ok .Continue ↔ AclAdmits K acl ip)) ∧
      (¬ AclAdmits K entry.conf.val.accessControl ip → (g.requestFilter s).1 ≠ .ok false) := by
  obtain ⟨i, hmem, hacl⟩ := (new_indexed hrouter).matched_entry hmatch
  have hverdict : ((ipRestriction K).handleRequest (ipSees s entry)).1 = .ok .Continue ↔
      AclAdmits K entry.conf.val.accessControl ip :=
    (ipRestriction_continue (s := ipSees s entry) (enterRoute_get entry).1 haddr).trans
      (compileAcl_admits hacl ip).symm
  have hcalls : ∃ rest, (g.requestFilter s).2.calls = s.calls ++ .hook .request 0 (.ok .Continue) ::
      .hook .request 1 ((ipRestriction K).handleRequest (ipSees s entry)).1 :: rest := by
    rcases requestFilter_main_snd hmain hmeta hmatch with ⟨-, hstate⟩ | ⟨-, hstate⟩
    · rw [hstate, logged_calls, sizeSees_calls, List.append_assoc]
      exact ⟨_, rfl⟩
    · rw [hstate, sizeSees_calls]
      exact ⟨[], rfl⟩
  obtain ⟨rest, hcalls⟩ := hcalls
  refine ⟨?_, _, rest, hcalls, hverdict, ?_, ?_⟩
  · exact List.fst_mem_of_mem_zipIdx hmem
  · exact fun acl hsame => hverdict.trans hsame.admits
  · intro hno hfalse
    exact hno (hverdict.1 ((requestFilter_main hmain hmeta hmatch).1 hfalse).1)

/-- One route that refuses the loopback block. -/
def loopbackDeniedConf : GatewayConf where
  routes :=
    [{ path := "/", upstreamId := "a", accessControl := some { deny := ["127.0.0.0/8"] } }]

def loopbackDeniedGateway : Gateway refCrates :=
  (mainGateway refCrates loopbackDeniedConf).toOption.get rfl

theorem access_control_loopback :
    ∃ s, ∃ entry : RouteEntry refCrates, loopbackDeniedGateway.matched s = .ok (some entry) ∧
      (¬ AclAdmits refCrates entry.conf.val.accessControl loopback →
        (loopbackDeniedGateway.requestFilter s).1 ≠ .ok false) := by
  have hrouter : Router.new refCrates loopbackDeniedConf = .ok loopbackDeniedGateway.router := rfl
  have hmain : loopbackDeniedGateway.middlewares =
      mainMiddlewares refCrates loopbackDeniedConf.server := rfl
  have haddr : (Gateway.start (K := refCrates) (getRequest "/")).2.session.clientAddr =
      some (.inet loopback 4000) := rfl
  obtain ⟨entry, hmatch⟩ : ∃ entry, loopbackDeniedGateway.matched
      (Gateway.start (getRequest "/")).2 = .ok (some entry) := ⟨_, rfl⟩
  obtain ⟨-, -, -, -, -, -, h⟩ := access_control hrouter hmain rfl haddr hmatch
  exact ⟨_, entry, hmatch, h⟩

end PingoraGuide
