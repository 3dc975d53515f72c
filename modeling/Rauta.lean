import Rauta.Lib.Transition
import Rauta.Lib.Interleaving
import Rauta.Lib.Interaction
import Rauta.Lib.LockOrder
import Rauta.Lib.LockedCell
import Rauta.Lib.WorkQueue
import Rauta.Lib.CopyOnWrite
import Rauta.Lib.Simulation
import Rauta.Lib.Search
import Rauta.Lib.Distinct
import Rauta.Lib.Bits
import Rauta.Lib.Residues
import Rauta.Lib.DoubleHashing
import Rauta.Lib.FirstCome
import Rauta.Lib.Async
import Rauta.Lib.Erasure
import Rauta.Lib.History
import Rauta.Lib.Recency
import Rauta.Lib.Runs
import Rauta.Lib.SlidingWindow
import Rauta.Lib.Workers
import Rauta.Lib.Rounding
import Rauta.Lib.RoundRobin
import Rauta.Lib.CyclicScan
import Rauta.Lib.StableSort
import Rauta.Common
import Rauta.Maglev
import Rauta.Maglev.Removal
import Rauta.Maglev.ClosedForm
import Rauta.Maglev.Balance
import Rauta.Health
import Rauta.Health.Window
import Rauta.Health.Hysteresis
import Rauta.Filters
import Rauta.Http
import Rauta.HeaderFilters
import Rauta.Redirect
import Rauta.Router.Cache
import Rauta.Router.LruCache
import Rauta.Router.Matchit
import Rauta.Router.Rebuild
import Rauta.Router.Coherence
import Rauta.HttpRoute
import Rauta.Router.LongestPrefix
import Rauta.Router.Atomicity
import Rauta.Router.Concurrent
import Rauta.Router.HealthUpdates
import Rauta.Router.FlowHash
import Rauta.Router.Selection
import Rauta.Router.Recovery
import Rauta.Router.Soundness
import Rauta.Router.Agreement
import Rauta.Router.Coverage
import Rauta.Router.Flows
import Rauta.Router.PathIdentity
import Rauta.Router.Variants
import Rauta.Router.ProbeLoops
import Rauta.Router.Installation
import Rauta.RateLimiter
import Rauta.RateLimiter.PerRoute
import Rauta.RateLimiter.Ideal
import Rauta.RateLimiter.WellFormed
import Rauta.RateLimiter.Accepted
import Rauta.RateLimiter.Reapplied
import Rauta.RateLimiter.Format
import Rauta.Http2Pool
import Rauta.Http2Pool.Fairness
import Rauta.BackendPools
import Rauta.Worker
import Rauta.Forwarder
import Rauta.Forwarder.Messages
import Rauta.Retry
import Rauta.Retry.Messages
import Rauta.Retry.Backoff
import Rauta.FrontEnds
import Rauta.Diagnostics
import Rauta.CircuitBreaker.Timestamp
import Rauta.CircuitBreaker.Sequential
import Rauta.CircuitBreaker.Refinement
import Rauta.CircuitBreaker.Threshold
import Rauta.CircuitBreaker.Reports
import Rauta.CircuitBreaker.Probes
import Rauta.CircuitBreaker.Handlers
import Rauta.CircuitBreaker.Disconnects
import Rauta.CircuitBreaker.Registry
import Rauta.IpText
import Rauta.IpText.RoundTrip
import Rauta.ListenerManager
import Rauta.Gateway
import Rauta.Gateway.Status
import Rauta.HttpRoute.Weights
import Rauta.HttpRoute.Quota
import Rauta.HttpRoute.Split
import Rauta.HttpRoute.Reconciler
import Rauta.HttpRoute.Effects
import Rauta.HttpRoute.Status
import Rauta.EndpointSlices
import Rauta.EndpointSlices.Convergence
import Rauta.EndpointSlices.Order
import Rauta.EndpointSlices.Aggregation
import Rauta.ControlPlane
import Rauta.ControlPlane.Outcomes
import Rauta.Tls
import Rauta.BackendText
import Rauta.AdminApi
import Rauta.AdminApi.Agreement
import Rauta.Shutdown
import Rauta.DataPlane
import Rauta.DataPlane.Protocol
import Rauta.DataPlane.Records
import Rauta.DataPlane.Messages
import Rauta.DataPlane.Responses
import Rauta.Locks
