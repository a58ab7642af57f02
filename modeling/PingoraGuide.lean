import PingoraGuide.Lib.Act
import PingoraGuide.Lib.Trace
import PingoraGuide.Lib.MultiMap
import PingoraGuide.Lib.Text
import PingoraGuide.Lib.Template
import PingoraGuide.Lib.Search
import PingoraGuide.Lib.Collect
import PingoraGuide.Basic
import PingoraGuide.Config
import PingoraGuide.Context
import PingoraGuide.Crates
import PingoraGuide.Router
import PingoraGuide.State
import PingoraGuide.Middleware
import PingoraGuide.Upstream
import PingoraGuide.Gateway
import PingoraGuide.Lifecycle
import PingoraGuide.Routing
import PingoraGuide.RouteMatch
import PingoraGuide.PhaseSpecs
import PingoraGuide.Footprint
import PingoraGuide.Access
import PingoraGuide.BodySize
import PingoraGuide.Coherence
import PingoraGuide.RouteLookup
import PingoraGuide.Halting
import PingoraGuide.ForwardedHost
import PingoraGuide.Responses
import PingoraGuide.BodyAccounting
import PingoraGuide.Replays
import PingoraGuide.ClientAddress
import PingoraGuide.ErrorPages
import PingoraGuide.Startup
import PingoraGuide.Discovery
import PingoraGuide.Selection
import PingoraGuide.StickyKey
import PingoraGuide.HostForms
import PingoraGuide.Construction
import PingoraGuide.RoutePriority
import PingoraGuide.Lib.Pipeline
import PingoraGuide.HookOrder
import PingoraGuide.Presence
import PingoraGuide.HeaderPolicy
import PingoraGuide.CookieKey
import PingoraGuide.BackendSets
import PingoraGuide.HealthChecks
import PingoraGuide.ExactRoutes
import PingoraGuide.Cardinality
import PingoraGuide.Lib.Cells
import PingoraGuide.TypedCells
import PingoraGuide.HeaderOrder
import PingoraGuide.Lib.Tasks
import PingoraGuide.Lib.RwLock
import PingoraGuide.Lib.Lossy
import PingoraGuide.Lib.Serde
import PingoraGuide.Concurrency
import PingoraGuide.Verdict
import PingoraGuide.ResponsePolicy
import PingoraGuide.Peers
import PingoraGuide.Schema
import PingoraGuide.Setup
import PingoraGuide.Lessons.InflightLimit
import PingoraGuide.Lessons.RateLimit
import PingoraGuide.Lessons.BodyInspection
import PingoraGuide.Lessons.HotSwap
import PingoraGuide.Lessons.StickySessions
import PingoraGuide.Lessons.Observability
