import Mathlib.Logic.Function.Basic
import PingoraGuide.Crates
/-!
# The request router

| here | there |
| --- | --- |
| `RouteEntry`, `Router`      | src/upstreams/router.rs:31-47; the registry map is a partial function |
| `compileBlocks`             | the two loops over CIDR strings (router.rs:100-114) |
| `compileAcl`                | router.rs:92-119 |
| `Router.register`           | the `match route.path_type` of the loop body (router.rs:56-90), its second arm `insertTemplate` |
| `Router.addRoutes`          | the loop of `Router::new` (router.rs:55-127) |
| `Router.entry`              | `&self.route_registry[id]`, which panics on a missing key |
| `Router.scanRegex`          | the loop over `regex_routes` (router.rs:151-158) |
| `Router.matchRequest`       | `Router::match_request` (router.rs:136-161) |
| `Router.Indexed`            | what the loop builds: the three structures agree on every id |
-/
namespace PingoraGuide
open Fallible Wire

structure Arc (α : Type) where
  val : α
deriving DecidableEq, Repr

structure CompiledAccessControl (K : Crates) where
  allow : List K.IpNet
  deny : List K.IpNet

structure RouteEntry (K : Crates) where
  conf : Arc RouteConf
  accessControl : Option (Arc (CompiledAccessControl K))

structure Router (K : Crates) where
  regexRoutes : List ((String → Bool) × Nat)
  matchitRouter : K.tree.Tree
  routeRegistry : Nat → Option (RouteEntry K)

variable {K : Crates}

def routeError (msg : String) : PingoraGuideError := .Gateway (.RouteError msg)

variable (K) in
def compileBlocks : List String → Except PingoraGuideError (List K.IpNet)
  | [] => .ok []
  | block :: blocks =>
    match K.ipNetFromStr block with
    | .ok range => do
      let ranges ← compileBlocks blocks
      .ok (range :: ranges)
    | .error e => .error (.Gateway (.AclError e))

variable (K) in
def compileAcl : Option AccessControlConf →
    Except PingoraGuideError (Option (Arc (CompiledAccessControl K)))
  | none => .ok none
  | some acl => do
    let deny ← compileBlocks K acl.deny
    let allow ← compileBlocks K acl.allow
    if !allow.isEmpty || !deny.isEmpty then .ok (some ⟨⟨allow, deny⟩⟩) else .ok none

namespace Router

def empty : Router K := ⟨[], K.tree.empty, fun _ => none⟩

/-- The `Prefix | Exact` arm (router.rs:70-89). -/
def insertTemplate (r : Router K) (route : RouteConf) (idx : Nat) :
    Except PingoraGuideError (Router K) :=
  if route.path.toList.head? ≠ some '/' then
    .error (routeError ("Warning: Prefix route '" ++ route.path ++ "' does not start with '/'"))
  else
    match K.tree.insert r.matchitRouter route.path idx with
    | .ok t => .ok { r with matchitRouter := t }
    | .error e => .error (routeError ("Failed to insert route '" ++ route.path ++ "': " ++ e))

def register (r : Router K) (route : RouteConf) (idx : Nat) :
    Except PingoraGuideError (Router K) :=
  match route.pathType with
  | .Regex =>
    match K.regexNew route.path with
    | .ok re => .ok { r with regexRoutes := r.regexRoutes ++ [(re, idx)] }
    | .error e =>
      .error (routeError ("Invalid Regex in configuration '" ++ route.path ++ "': " ++ e))
  | .Prefix | .Exact => r.insertTemplate route idx

def addRoute (r : Router K) (route : RouteConf) (idx : Nat) :
    Except PingoraGuideError (Router K) := do
  let r ← r.register route idx
  let acl ← compileAcl K route.accessControl
  .ok { r with routeRegistry := Function.update r.routeRegistry idx (some ⟨⟨route⟩, acl⟩) }

def addRoutes (r : Router K) : List (RouteConf × Nat) → Except PingoraGuideError (Router K)
  | [] => .ok r
  | (route, idx) :: rest => do
    let r ← r.addRoute route idx
    r.addRoutes rest

variable (K) in
def new (conf : GatewayConf) : Except PingoraGuideError (Router K) :=
  (empty : Router K).addRoutes conf.routes.zipIdx

def validateHost (route : RouteConf) (host : Option String) : Bool :=
  match route.hostnames with
  | some allowedHosts =>
    match host with
    | some h => allowedHosts.any fun allowed => allowed == h
    | none => false
  | none => true

def entry (r : Router K) (id : Nat) : Res PError (RouteEntry K) :=
  Res.expect "no entry found for key" (r.routeRegistry id)

def scanRegex (r : Router K) (path : String) (host : Option String) :
    List ((String → Bool) × Nat) → Res PError (Option (RouteEntry K))
  | [] => .ok none
  | (re, id) :: rest =>
    if re path then do
      let route ← r.entry id
      if validateHost route.conf.val host then .ok (some route) else r.scanRegex path host rest
    else r.scanRegex path host rest

def matchRequest (r : Router K) (path : String) (host : Option String) :
    Res PError (Option (RouteEntry K)) :=
  match K.tree.lookup r.matchitRouter path with
  | some id => do
    let route ← r.entry id
    if route.conf.val.pathType = .Exact ∧ path ≠ route.conf.val.path then .ok none
    else if validateHost route.conf.val host then .ok (some route)
    else r.scanRegex path host r.regexRoutes
  | none => r.scanRegex path host r.regexRoutes

end Router

/-! ## What the loop builds -/

variable (K) in
/-- The Regex routes of a table with their ids, in order. -/
def regexesOf (l : List (RouteConf × Nat)) : List ((String → Bool) × Nat) :=
  l.filterMap fun p =>
    match p.1.pathType, K.regexNew p.1.path with
    | .Regex, .ok re => some (re, p.2)
    | _, _ => none

/-- The templates of a table with their ids, in order. -/
def templatesOf (l : List (RouteConf × Nat)) : List (String × Nat) :=
  l.filterMap fun p => if p.1.pathType = .Regex then none else some (p.1.path, p.2)

theorem mem_regexesOf {l : List (RouteConf × Nat)} {re : String → Bool} {i : Nat} :
    (re, i) ∈ regexesOf K l ↔
      ∃ route, (route, i) ∈ l ∧ route.pathType = .Regex ∧ K.regexNew route.path = .ok re := by
  simp only [regexesOf, List.mem_filterMap]
  constructor
  · rintro ⟨⟨route, j⟩, hp, h⟩
    split at h
    · rename_i re' hty hre
      simp only [Option.some.injEq, Prod.mk.injEq] at h
      obtain ⟨rfl, rfl⟩ := h
      exact ⟨route, hp, hty, hre⟩
    · simp at h
  · rintro ⟨route, hp, hty, hre⟩
    exact ⟨(route, i), hp, by simp [hty, hre]⟩

theorem mem_templatesOf {l : List (RouteConf × Nat)} {p : String} {i : Nat} :
    (p, i) ∈ templatesOf l ↔
      ∃ route, (route, i) ∈ l ∧ route.pathType ≠ .Regex ∧ route.path = p := by
  simp only [templatesOf, List.mem_filterMap]
  constructor
  · rintro ⟨⟨route, j⟩, hp, h⟩
    split at h
    · simp at h
    · rename_i hty
      simp only [Option.some.injEq, Prod.mk.injEq] at h
      obtain ⟨rfl, rfl⟩ := h
      exact ⟨route, hp, hty, rfl⟩
  · rintro ⟨route, hp, hty, rfl⟩
    exact ⟨(route, i), hp, by simp [hty]⟩

/-- The router holds the routes of `l` under their ids, and nothing else. -/
structure Router.Indexed (r : Router K) (l : List (RouteConf × Nat)) : Prop where
  entry : ∀ {route i}, (route, i) ∈ l →
    ∃ acl, compileAcl K route.accessControl = .ok acl ∧ r.routeRegistry i = some ⟨⟨route⟩, acl⟩
  key : ∀ {i e}, r.routeRegistry i = some e → ∃ route, (route, i) ∈ l
  regex : r.regexRoutes = regexesOf K l
  tree : K.tree.Built r.matchitRouter (templatesOf l)
  slash : ∀ {route i}, (route, i) ∈ l → route.pathType ≠ .Regex → route.path.toList.head? = some '/'
  compiled : ∀ {route i}, (route, i) ∈ l → route.pathType = .Regex →
    ∃ re, K.regexNew route.path = .ok re

theorem Router.indexed_empty : (Router.empty : Router K).Indexed [] where
  entry := by simp
  key := by simp [Router.empty]
  regex := rfl
  tree := .empty
  slash := by simp
  compiled := by simp

end PingoraGuide
