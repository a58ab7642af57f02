import PingoraGuide.Lib.Search
import PingoraGuide.Lifecycle
/-!
# Selecting a backend

`select_peer` lets Pingora examine 256 candidates. In a pool that is larger, or on a hash ring where
one backend has many points, every ready backend may come later: the request then fails although
the pool is healthy (`selectPeer_ready_iff`).
-/
namespace PingoraGuide
open Fallible Wire Search

variable {K : Crates}

/-- A load balancer of Pingora when it is asked for the `n`-th time: the pool it has discovered,
which of its backends are ready, and the candidates of the selection iterator for each key. Round
robin and random selection go round the pool after a first weighted pick. Every discovery of the
factory makes internet addresses. -/
structure Selecting (K : Crates) (lb : LoadBalancer) (n : Nat) where
  pool : List Backend
  ready : Backend → Bool
  candidates : Bytes → Candidates Backend
  inet : ∀ b ∈ pool, ∃ ip port, b.addr = .inet ip port
  mem : ∀ key i b, candidates key i = some b → b ∈ pool
  walks : lb.selection ≠ .Consistent → ∀ key, Walks (candidates key) pool
  select : ∀ key max, K.lbSelect lb n key max = firstReady ready (candidates key) max

variable {lb : LoadBalancer} {n : Nat}

def Selecting.SomeReady (sel : Selecting K lb n) : Prop := ∃ b ∈ sel.pool, sel.ready b = true

/-- A ready backend is among the candidates that `select_peer` lets Pingora examine. -/
def Selecting.Within (sel : Selecting K lb n) (key : Bytes) : Prop :=
  ∃ i < 256, ∃ b, sel.candidates key i = some b ∧ sel.ready b = true

/-- Round robin and random selection reach all of a pool of at most 255 backends. -/
theorem Selecting.within_small (sel : Selecting K lb n) (hsel : lb.selection ≠ .Consistent)
    (hsmall : sel.pool.length ≤ 255) (hready : sel.SomeReady) (key : Bytes) : sel.Within key := by
  obtain ⟨b, hb, hr⟩ := hready
  obtain ⟨i, hi, hc⟩ := (sel.walks hsel key).covers hb
  exact ⟨i, by omega, b, hc, hr⟩

/-! ## `select_peer` -/

/-- The key is always extracted, and no backend is selected meanwhile. -/
theorem hashKey_ok (c : LoadBalancerCluster) (s : St K Unit) :
    ∃ key s1, c.hashKey s = (.ok key, s1) ∧ s1.session.selects = s.session.selects := by
  unfold LoadBalancerCluster.hashKey
  rw [Act.get_bind_run]
  cases c.hashSource with
  | None => exact ⟨_, s, rfl, rfl⟩
  | ClientIp =>
    rcases s.session.clientAddr with _ | ⟨ip, port⟩ | path
    · exact ⟨_, s, rfl, rfl⟩
    · exact ⟨_, s, rfl, rfl⟩
    · exact ⟨_, _, rfl, rfl⟩
  | Cookie name => cases headerText s.session.reqHeader "Cookie" <;> exact ⟨_, s, rfl, rfl⟩
  | Uri => exact ⟨_, s, rfl, rfl⟩
  | Header name => exact ⟨_, s, rfl, rfl⟩

variable {c : LoadBalancerCluster} {s s1 : St K Unit} {key : String}

theorem selectPeer_none (hkey : c.hashKey s = (.ok key, s1))
    (hnone : K.lbSelect c.lb s1.session.selects (utf8 key) 256 = none) :
    (c.selectPeer s).1 = .err (.Gateway .UpstreamUnavailable) := by
  have hselect : lbSelect c.lb (utf8 key) 256 s1 = (.ok none, _) := Prod.ext (congrArg Res.ok hnone) rfl
  unfold LoadBalancerCluster.selectPeer
  rw [Act.bind_of_ok hkey, Act.bind_of_ok hselect]
  rfl

theorem selectPeer_some (hkey : c.hashKey s = (.ok key, s1)) {b : Backend} {ip : IpAddr} {port : Nat}
    (hsome : K.lbSelect c.lb s1.session.selects (utf8 key) 256 = some b)
    (hinet : b.addr = .inet ip port) :
    ∃ peer, (c.selectPeer s).1 = .ok peer ∧ peer.address = b.addr := by
  let s2 : St K Unit :=
    { s1 with session := { s1.session with selects := s1.session.selects + 1 } }
  have hselect : lbSelect c.lb (utf8 key) 256 s1 = (.ok (some b), s2) :=
    Prod.ext (congrArg Res.ok hsome) rfl
  have hrecord : (recordPeer b.addr c.sni : Act (St K Unit) PingoraGuideError Unit) s2 = (.ok (), _) :=
    rfl
  have haddr : firstAddr b.socketAddrs = .ok b.addr := by
    simp [Backend.socketAddrs, hinet, firstAddr]
  unfold LoadBalancerCluster.selectPeer
  rw [Act.bind_of_ok hkey, Act.bind_of_ok hselect]
  dsimp only
  rw [Act.bind_of_ok hrecord, haddr]
  exact ⟨_, rfl, rfl⟩

/-- A ready backend is selected if there is one, and the pool is called unavailable only if there is
none. -/
def SelectsReady (c : LoadBalancerCluster) (s : St K Unit)
    (sel : Selecting K c.lb s.session.selects) : Prop :=
  (sel.SomeReady → ∃ peer b, (c.selectPeer s).1 = .ok peer ∧ b ∈ sel.pool ∧ sel.ready b = true ∧
    peer.address = b.addr) ∧
  ((c.selectPeer s).1 = .err (.Gateway .UpstreamUnavailable) → ¬ sel.SomeReady)

/-- **256 candidates.** A healthy pool is served if and only if one of the first 256 candidates for
the key is ready; round robin and random selection always serve a pool of at most 255 backends. -/
theorem selectPeer_ready_iff (c : LoadBalancerCluster) (s : St K Unit)
    (sel : Selecting K c.lb s.session.selects) :
    (∃ key s1, c.hashKey s = (.ok key, s1) ∧
      (SelectsReady c s sel ↔ (sel.SomeReady → sel.Within (utf8 key)))) ∧
    (c.lb.selection ≠ .Consistent → sel.pool.length ≤ 255 → SelectsReady c s sel) := by
  obtain ⟨key, s1, hkey, hselects⟩ := hashKey_ok c s
  have hspec : K.lbSelect c.lb s1.session.selects (utf8 key) 256 =
      firstReady sel.ready (sel.candidates (utf8 key)) 256 := by
    rw [hselects]
    exact sel.select _ _
  have hiff : SelectsReady c s sel ↔ (sel.SomeReady → sel.Within (utf8 key)) := by
    cases hfound : firstReady sel.ready (sel.candidates (utf8 key)) 256 with
    | none =>
      have hrun := selectPeer_none hkey (hspec.trans hfound)
      constructor
      · exact fun h hready => absurd hready (h.2 hrun)
      · intro h
        have hnone : ¬ sel.SomeReady := by
          intro hready
          obtain ⟨i, hi, b, hc, hr⟩ := h hready
          cases hr.symm.trans (firstReady_eq_none.1 hfound i hi b hc)
        exact ⟨fun hready => absurd hready hnone, fun _ => hnone⟩
    | some b =>
      obtain ⟨hr, i, hi, hc⟩ := firstReady_eq_some hfound
      have hmem := sel.mem _ _ _ hc
      obtain ⟨ip, port, hinet⟩ := sel.inet b hmem
      obtain ⟨peer, hrun, haddr⟩ := selectPeer_some hkey (hspec.trans hfound) hinet
      refine iff_of_true ⟨fun _ => ⟨peer, b, hrun, hmem, hr, haddr⟩, fun herr => ?_⟩
        fun _ => ⟨i, hi, b, hc, hr⟩
      cases hrun.symm.trans herr
  exact ⟨⟨key, s1, hkey, hiff⟩, fun hsel hsmall => hiff.2 fun hready =>
    sel.within_small hsel hsmall hready _⟩

/-! ## A pool of 300 backends -/

def bigBackend (i : Nat) : Backend := ⟨.inet (.v4 (BitVec.ofNat 32 i)) 80, 1⟩

def bigPool : List Backend := (List.range 300).map bigBackend

/-- Only the last backend is ready. -/
def bigReady (b : Backend) : Bool := b == bigBackend 299

/-- Round robin from the first backend on. -/
def bigCandidates : Candidates Backend := fun i => bigPool[i % bigPool.length]?

/-- The reference crates with a load balancer over that pool. -/
def bigCrates : Crates :=
  { refCrates with lbSelect := fun _ _ _ max => firstReady bigReady bigCandidates max }

def bigLb : LoadBalancer := { selection := .RoundRobin, discovery := .Static bigPool.toFinset }

def bigSelecting (n : Nat) : Selecting bigCrates bigLb n where
  pool := bigPool
  ready := bigReady
  candidates := fun _ => bigCandidates
  inet := by
    intro b hb
    obtain ⟨i, -, rfl⟩ := List.mem_map.1 hb
    exact ⟨_, _, rfl⟩
  mem := fun _ i b h => List.mem_of_getElem? h
  walks := fun _ _ => ⟨1, fun i => by rw [bigCandidates, Nat.add_comm]⟩
  select := fun _ _ => rfl

def bigCluster : LoadBalancerCluster := .new bigLb false "" none none

theorem bigSelecting_ready (n : Nat) : (bigSelecting n).SomeReady :=
  ⟨bigBackend 299, List.mem_map.2 ⟨299, by simp, rfl⟩, by simp [bigSelecting, bigReady]⟩

theorem bigSelecting_late (n : Nat) (key : Bytes) : ¬ (bigSelecting n).Within key := by
  rintro ⟨i, hi, b, hc, hr⟩
  have hplace : bigPool[i % bigPool.length]? = some (bigBackend i) := by
    have hlen : bigPool.length = 300 := by simp [bigPool]
    rw [hlen, Nat.mod_eq_of_lt (by omega)]
    simp only [bigPool, List.getElem?_map]
    rw [List.getElem?_range (by omega)]
    rfl
  obtain rfl : bigBackend i = b := Option.some.inj (hplace.symm.trans hc)
  have hlast : bigBackend i = bigBackend 299 := by simpa [bigSelecting, bigReady] using hr
  have haddr : BitVec.ofNat 32 i = BitVec.ofNat 32 299 := by simpa [bigBackend] using hlast
  have hnat := congrArg BitVec.toNat haddr
  simp only [BitVec.toNat_ofNat] at hnat
  omega

def bigState : St bigCrates Unit := (Gateway.start (getRequest "/")).2

/-- The last of 300 backends is ready, and round robin answers that there is none. -/
theorem big_pool_unavailable :
    (bigSelecting bigState.session.selects).SomeReady ∧
      (bigCluster.selectPeer bigState).1 = .err (.Gateway .UpstreamUnavailable) ∧
      ¬ SelectsReady bigCluster bigState (bigSelecting bigState.session.selects) := by
  have hready := bigSelecting_ready bigState.session.selects
  have hnone : bigCrates.lbSelect bigLb bigState.session.selects (utf8 "") 256 = none := by
    rw [(bigSelecting bigState.session.selects).select, firstReady_eq_none]
    intro i hi b hc
    by_contra hr
    exact bigSelecting_late bigState.session.selects (utf8 "") ⟨i, hi, b, hc, by simpa using hr⟩
  have hkey : bigCluster.hashKey bigState = (.ok "", bigState) := rfl
  have hrun := selectPeer_none hkey hnone
  exact ⟨hready, hrun, fun h => h.2 hrun hready⟩

theorem selectPeer_ready_iff_big :
    ∃ key s1, bigCluster.hashKey bigState = (.ok key, s1) ∧
      (SelectsReady bigCluster bigState (bigSelecting bigState.session.selects) ↔
        ((bigSelecting bigState.session.selects).SomeReady →
          (bigSelecting bigState.session.selects).Within (utf8 key))) :=
  (selectPeer_ready_iff bigCluster bigState (bigSelecting bigState.session.selects)).1

end PingoraGuide
