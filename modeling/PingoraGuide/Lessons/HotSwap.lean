import PingoraGuide.Crates
import PingoraGuide.Lib.Lossy
import PingoraGuide.Lib.RwLock
/-!
# Hot-swapping the upstream

An admin connection replaces the pool of backends by the one address it posts: under the write lock
it empties the set, inserts the address and answers, and only then lets go. A discovery clones the
set under the read lock. So no discovery ever sees the emptied set.

| here | there |
| --- | --- |
| `requestBody`, `admin` | examples/35_dynamic_reconfiguration.rs:64-96, one connection |
| `reply`                | what is written to the socket (88, 90, 94) |
| `hotSwap`              | the section under `state.upstreams.write()` (80-88) |
| `Task`, `pools`        | `discover` (35-38) and the spawned connections, in any interleaving |
| `initialSet`           | 35_dynamic_reconfiguration.rs:151-157 |
-/
namespace PingoraGuide.HotSwap
open Wire RwLock

/-- `char::is_whitespace`. -/
def isWhitespace (c : Char) : Bool :=
  let n := c.toNat
  (9 ≤ n && n ≤ 13) || n == 0x20 || n == 0x85 || n == 0xA0 || n == 0x1680 ||
    (0x2000 ≤ n && n ≤ 0x200A) || n == 0x2028 || n == 0x2029 || n == 0x202F || n == 0x205F ||
    n == 0x3000

def trimText (cs : List Char) : List Char :=
  ((cs.dropWhile isWhitespace).reverse.dropWhile isWhitespace).reverse

/-- What follows the first empty line. -/
def afterHead : List Char → Option (List Char)
  | '\r' :: '\n' :: '\r' :: '\n' :: rest => some rest
  | _ :: cs => afterHead cs
  | [] => none

def requestBody (req : List Char) : List Char :=
  match afterHead req with
  | some rest => trimText rest
  | none => trimText req

structure Conn where
  /-- what the one `read` yields -/
  received : Option Bytes
  /-- `to_socket_addrs` at that time -/
  toSocketAddrs : String → Except String (List (IpAddr × Nat))

inductive Answer where
  | silent
  | parseError
  | invalidIp
  | swapped (newAddr : IpAddr × Nat)

def admin (conn : Conn) : Answer :=
  match conn.received.map (List.take 1024) with
  | none | some [] => .silent
  | some buf =>
    let body := requestBody (fromUtf8Lossy buf)
    if body = [] then .silent
    else match conn.toSocketAddrs (String.ofList body) with
      | .ok (newAddr :: _) => .swapped newAddr
      | .ok [] => .invalidIp
      | .error _ => .parseError

def reply : Answer → Option String
  | .silent => none
  | .parseError => some "HTTP/1.1 400 Bad Request\r\n\r\nParse Error"
  | .invalidIp => some "HTTP/1.1 400 Bad Request\r\n\r\nInvalid IP"
  | .swapped _ => some "HTTP/1.1 200 OK\r\nContent-Length: 2\r\n\r\nOK"

def backend (addr : IpAddr × Nat) : Backend := ⟨.inet addr.1 addr.2, 1⟩

/-- `clear`, `insert`, and the write to the socket with the guard still held. -/
def hotSwap (newAddr : IpAddr × Nat) : List (Finset Backend → Finset Backend) :=
  [fun _ => ∅, fun guard => insert (backend newAddr) guard, id]

inductive Task where
  | discover
  | connect (conn : Conn)

def Task.role : Task → Role (IpAddr × Nat)
  | .discover => .read
  | .connect conn =>
    match admin conn with
    | .swapped newAddr => .write newAddr
    | _ => .pass

def pools : Tasks.System (Shared (Finset Backend)) (Client (Finset Backend) (IpAddr × Nat)) Task Op :=
  lock (Finset Backend) Task.role hotSwap

def initialAddr : IpAddr × Nat := (.v4 0xAC1C0014, 8080)

def initialSet : Finset Backend := {backend initialAddr}

/-! ## What a discovery finds -/

theorem apply_hotSwap (newAddr : IpAddr × Nat) (pool : Finset Backend) :
    apply (hotSwap newAddr) pool = {backend newAddr} := by
  simp [apply, hotSwap]

theorem role_write {task : Task} {newAddr : IpAddr × Nat} (h : task.role = .write newAddr) :
    ∃ conn, task = .connect conn ∧ admin conn = .swapped newAddr := by
  cases task with
  | discover => cases h
  | connect conn =>
    refine ⟨conn, rfl, ?_⟩
    unfold Task.role at h
    dsimp only at h
    split at h
    · rename_i addr hadmin
      rw [hadmin, Role.write.inj h]
    · cases h

/-- The pool after the first `k` swaps: the initial address, then the one that the `k`-th swap
posted. -/
def PoolAfter (ms : List (Tasks.Move Task Op)) (tasks : List (Client (Finset Backend) (IpAddr × Nat)))
    (k : Nat) (pool : Finset Backend) : Prop :=
  k = 0 ∧ pool = initialSet ∨
    ∃ conn newAddr, .spawn (.connect conn) ∈ ms ∧ admin conn = .swapped newAddr ∧
      .left newAddr k ∈ tasks ∧ pool = {backend newAddr}

variable {ms ms' : List (Tasks.Move Task Op)}
  {s s' : Tasks.State (Shared (Finset Backend)) (Client (Finset Backend) (IpAddr × Nat))}
  {pool : Finset Backend} {j n : Nat}

/-- In any interleaving of admin connections and discoveries, a discovery finds a single backend,
the initial one or one that a connection posted: never the emptied set, and nothing older than the
last swap that had begun before the discovery, in particular none that was answered by then. -/
theorem discovered_pool (h : pools.run { value := initialSet } ms = some s)
    (hj : s.tasks[j]? = some .reader) (h' : Trace.run pools.step s ms' = some s')
    (hgot : s'.tasks[j]? = some (.got n pool)) :
    ∃ k, s.shared.begun ≤ k ∧ PoolAfter (ms ++ ms') s'.tasks k pool := by
  have hrun : pools.run { value := initialSet } (ms ++ ms') = some s' := by
    rw [Tasks.System.run, Trace.run_append, Option.bind_eq_some_iff]
    exact ⟨s, h, h'⟩
  obtain ⟨k, hk, hpast⟩ := got_fresh h hj h' hgot
  refine ⟨k, hk, past_keeps (J := PoolAfter (ms ++ ms') s'.tasks) (locked hrun) (.inl ⟨rfl, rfl⟩)
    (fun newAddr k pool hleft _ => ?_) hpast⟩
  obtain ⟨task, hspawn, hrole⟩ := left_spawned hrun hleft
  obtain ⟨conn, rfl, hadmin⟩ := role_write hrole
  exact .inr ⟨conn, newAddr, hspawn, hadmin, hleft, apply_hotSwap newAddr pool⟩

/-- A connection that posts the address of the reference backend. -/
def swapConn : Conn where
  received := some (utf8 "POST / HTTP/1.1\r\n\r\n 127.0.0.1:80\n")
  toSocketAddrs text := if text = "127.0.0.1:80" then .ok [(loopback, 80)] else .error "invalid"

/-- The connection has emptied the set when the discovery asks for it. -/
def swapBegins : List (Tasks.Move Task Op) :=
  [.spawn (.connect swapConn), .spawn .discover, .act 0 .enter, .act 0 .work]

def swapEnds : List (Tasks.Move Task Op) :=
  [.act 1 .ask, .act 0 .work, .act 0 .work, .act 0 .leave, .act 1 .enter, .act 1 .work, .act 1 .leave]

theorem discovered_pool_swapped : ∃ s s', pools.run { value := initialSet } swapBegins = some s ∧
    s.shared.value = ∅ ∧ Trace.run pools.step s swapEnds = some s' ∧
    s'.tasks[1]? = some (.got 1 {refBackend}) ∧
    ∃ k, 1 ≤ k ∧ PoolAfter (swapBegins ++ swapEnds) s'.tasks k {refBackend} := by
  have hrole : (Task.connect swapConn).role = .write (loopback, 80) := by decide +kernel
  have hbegins : pools.run { value := initialSet } swapBegins = some ⟨{ value := ∅, writers := 1 },
      [.writing (loopback, 80) (hotSwap (loopback, 80)).tail, .reader]⟩ := by
    simp [swapBegins, pools, lock, hrole, Tasks.System.run, Trace.run, Tasks.System.step]
    rfl
  have hends : Trace.run pools.step ⟨{ value := ∅, writers := 1 },
      [.writing (loopback, 80) (hotSwap (loopback, 80)).tail, .reader]⟩ swapEnds =
      some ⟨{ value := {refBackend}, committed := [{refBackend}] }, [.left (loopback, 80) 1,
        .got 1 {refBackend}]⟩ := rfl
  exact ⟨_, _, hbegins, rfl, hends, rfl, discovered_pool (j := 1) hbegins rfl hends rfl⟩

end PingoraGuide.HotSwap
