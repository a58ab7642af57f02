import PingoraGuide.RouteMatch
/-!
# Exact routes and the template language

An Exact path is inserted into the template tree as it is (router.rs:70-79) and compared as a raw
string once the tree has picked it (router.rs:142-144). Both accept the path only if the template
accepts its own text (`exact_route_iff`): so it does if no brace is doubled and no parameter has a
name that starts with a slash (`exact_route_undoubled`), never for literal text with a doubled brace
(`exact_route_escaped`).
-/
namespace PingoraGuide
open Fallible Wire
open Template (ServesAlone Tok parse doubled slashNamed)

variable {K : Crates}

/-- The lookup returns the route. -/
def Returns (r : Router K) (route : RouteConf) (path : String) (host : Option String) : Prop :=
  ∃ entry, r.matchRequest path host = .ok (some entry) ∧ entry.conf = ⟨route⟩

section
variable {conf : GatewayConf} {route : RouteConf}
  (hs : ServesAlone K.tree Template.accepts route.path) (hc : conf.routes = [route])
  (hty : route.pathType = .Exact) {r : Router K} (hnew : Router.new K conf = .ok r)
  {host : Option String} (hhost : HostAdmits route host)
include hs hc hty hnew hhost

/-- The string comparison and the tree both have to let the path through. -/
theorem returns_exact (path : String) :
    Returns r route path host ↔
      path = route.path ∧ Template.accepts route.path route.path = true := by
  have halone : MatchesAlone K Template.accepts route path host ↔
      path = route.path ∧ Template.accepts route.path route.path = true := by
    simp only [MatchesAlone, OwnPattern, hty, hhost, true_and]
    constructor
    · rintro ⟨rfl, haccepts⟩
      exact ⟨rfl, haccepts (by simp)⟩
    · rintro ⟨rfl, haccepts⟩
      exact ⟨rfl, fun _ => haccepts⟩
  have hlook := lookup_alone hc hnew hs (by simp [hty]) path
  rw [← halone]
  rcases matchRequest_singleton hc hnew path host hlook with ⟨hm, hret⟩ | ⟨hno, hnone⟩
  · exact iff_of_true hret hm
  · refine iff_of_false ?_ hno
    rintro ⟨entry, hret, -⟩
    rw [hnone] at hret
    cases hret

/-- Without doubled braces and names that start with a slash an Exact route matches exactly its
path. -/
theorem exact_route_undoubled (hp : (parse route.path).isSome)
    (hd : doubled route.path.toList = false) (hn : slashNamed route.path.toList = false)
    (path : String) : Returns r route path host ↔ path = route.path := by
  rw [returns_exact hs hc hty hnew hhost, Template.accepts_self hp hd hn]
  simp

/-- Literal text with a doubled brace matches nothing. -/
theorem exact_route_escaped {ts : List Tok} (hp : parse route.path = some ts)
    (hlit : ∀ tok ∈ ts, ∃ c, tok = .lit c) (hd : doubled route.path.toList = true)
    (path : String) : ¬ Returns r route path host := by
  rw [returns_exact hs hc hty hnew hhost, Template.not_accepts_self hp hlit hd]
  simp

end

/-- **Exact routes match exactly their path** when, and only when, the configured path, read as a
template, accepts its own text. -/
theorem exact_route_iff {conf : GatewayConf} {route : RouteConf}
    (hs : ServesAlone K.tree Template.accepts route.path) (hc : conf.routes = [route])
    (hty : route.pathType = .Exact) {r : Router K} (hnew : Router.new K conf = .ok r)
    {host : Option String} (hhost : HostAdmits route host) :
    (∀ path, Returns r route path host ↔ path = route.path) ↔
      Template.accepts route.path route.path = true := by
  constructor
  · intro hexact
    exact ((returns_exact hs hc hty hnew hhost route.path).1 ((hexact route.path).2 rfl)).2
  · intro haccepts path
    rw [returns_exact hs hc hty hnew hhost, haccepts]
    simp

def exactRoute (path : String) : RouteConf where
  path := path
  pathType := .Exact
  upstreamId := "auth-cluster"

/-- `/a{{b}}` is the template of the path `/a{b}`: the tree finds it there and the comparison
refuses it, and on `/a{{b}}` itself the tree finds nothing. -/
theorem escaped_exact_missed :
    ServesAlone refCrates.tree Template.accepts "/a{{b}}" ∧
    (exactRoute "/a{{b}}").pathType = .Exact ∧ HostAdmits (exactRoute "/a{{b}}") none ∧
    ∃ r, Router.new refCrates { routes := [exactRoute "/a{{b}}"] } = .ok r ∧
      r.matchRequest "/a{b}" none = .ok none ∧ r.matchRequest "/a{{b}}" none = .ok none ∧
      ¬ ∀ path, Returns r (exactRoute "/a{{b}}") path none ↔ path = "/a{{b}}" := by
  refine ⟨Template.refTree_spec.servesAlone _, rfl, by simp [HostAdmits, exactRoute],
    _, rfl, rfl, rfl, ?_⟩
  intro hexact
  obtain ⟨entry, hret, -⟩ := (hexact "/a{{b}}").2 rfl
  cases hret

/-- A parameter accepts the text that names it. -/
theorem exact_route_iff_param :
    ∃ r, Router.new refCrates { routes := [exactRoute "/users/{id}"] } = .ok r ∧
      r.matchRequest "/users/7" none = .ok none ∧
      ∀ path, Returns r (exactRoute "/users/{id}") path none ↔ path = "/users/{id}" := by
  have hnew : Router.new refCrates { routes := [exactRoute "/users/{id}"] } = .ok _ := rfl
  have hhost : HostAdmits (exactRoute "/users/{id}") none := by simp [HostAdmits, exactRoute]
  exact ⟨_, hnew, rfl,
    (exact_route_iff (Template.refTree_spec.servesAlone _) rfl rfl hnew hhost).2 (by decide)⟩

end PingoraGuide
