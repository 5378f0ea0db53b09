import VmProxyAuth.Lib.Machine
import VmProxyAuth.Lib.Board
import VmProxyAuth.Lib.Notices
import VmProxyAuth.Lib.GoString
import VmProxyAuth.Lib.Firsts
import VmProxyAuth.Lib.GoMap
import VmProxyAuth.Lib.Url
import VmProxyAuth.Lib.Http
import VmProxyAuth.Lib.UrlPath
import VmProxyAuth.Lib.Base64
import VmProxyAuth.Lib.Utf8
import VmProxyAuth.Lib.Clock
import VmProxyAuth.Domain
import VmProxyAuth.Tenant.PromQL
import VmProxyAuth.Lib.KeyedUnion
import VmProxyAuth.Tenant.Evaluation
import VmProxyAuth.Tenant.Typing
import VmProxyAuth.Lib.Json
import VmProxyAuth.Lib.JsonText
import VmProxyAuth.Lib.GoQuote
import VmProxyAuth.Lib.Scan
import VmProxyAuth.Tenant.QueryText
import VmProxyAuth.Tenant.Groups
import VmProxyAuth.Tenant.Rewrite
import VmProxyAuth.Tenant.Isolation
import VmProxyAuth.Tenant.Service
import VmProxyAuth.Tenant.Agreement
import VmProxyAuth.Tenant.Dropping
import VmProxyAuth.Tenant.Canonical
import VmProxyAuth.Tenant.Reading
import VmProxyAuth.Tenant.Accepted
import VmProxyAuth.Tenant.Regrouping
import VmProxyAuth.Tenant.Hiding
import VmProxyAuth.Access
import VmProxyAuth.Proxy.Target
import VmProxyAuth.Proxy.TargetPath
import VmProxyAuth.Gateway.Handler
import VmProxyAuth.Gateway.Filtering
import VmProxyAuth.Gateway.TenantHeaders
import VmProxyAuth.Gateway.WritePaths
import VmProxyAuth.Proxy.Attempts
import VmProxyAuth.Proxy.Forwarding
import VmProxyAuth.Gateway.Bodies
import VmProxyAuth.Lib.Channel
import VmProxyAuth.Proxy.Queue
import VmProxyAuth.Proxy.Service
import VmProxyAuth.Proxy.Delivery
import VmProxyAuth.Proxy.Retries
import VmProxyAuth.Proxy.Shutdown
import VmProxyAuth.Proxy.Balancer
import VmProxyAuth.Proxy.Health
import VmProxyAuth.Lib.Rotation
import VmProxyAuth.Proxy.RoundRobin
import VmProxyAuth.Proxy.Connections
import VmProxyAuth.Lib.SmoothRobin
import VmProxyAuth.Proxy.Weighted
import VmProxyAuth.Proxy.Fairness
import VmProxyAuth.Lib.Streaks
import VmProxyAuth.Proxy.Hysteresis
import VmProxyAuth.Proxy.Monitoring
import VmProxyAuth.Proxy.Routing
import VmProxyAuth.Proxy.Maintenance
import VmProxyAuth.Gateway.Readiness
import VmProxyAuth.Proxy.Abandoned
import VmProxyAuth.Auth.Verifier
import VmProxyAuth.Auth.Service
import VmProxyAuth.Auth.Permissions
import VmProxyAuth.Auth.Expiry
import VmProxyAuth.Auth.Policy
import VmProxyAuth.Auth.Lockout
import VmProxyAuth.Auth.Jwks
import VmProxyAuth.Lib.Expiring
import VmProxyAuth.Storage.Fsm
import VmProxyAuth.Storage.Local
import VmProxyAuth.Storage.Redis
import VmProxyAuth.Storage.Races
import VmProxyAuth.Storage.Refinement
import VmProxyAuth.Storage.Watching
import VmProxyAuth.Storage.Snapshot
import VmProxyAuth.Storage.Codec
import VmProxyAuth.Storage.Bulk
import VmProxyAuth.Storage.Replica
import VmProxyAuth.Lib.Channels
import VmProxyAuth.Storage.Cleanup
import VmProxyAuth.Storage.Closing
import VmProxyAuth.Storage.RaftClosing
import VmProxyAuth.Lib.Feed
import VmProxyAuth.Storage.PubSub
import VmProxyAuth.Storage.Subscribers
import VmProxyAuth.Lib.Configuration
import VmProxyAuth.Cluster.Delegate
import VmProxyAuth.Cluster.TwoNodes
import VmProxyAuth.Cluster.SplitBrain
import VmProxyAuth.Cluster.Bootstrap
import VmProxyAuth.Cluster.Formation
import VmProxyAuth.Cluster.Convergence
import VmProxyAuth.Lib.Filling
import VmProxyAuth.Cluster.Broadcasts
import VmProxyAuth.Cluster.Recovery
import VmProxyAuth.Cluster.Threshold
import VmProxyAuth.Cluster.Discovered
import VmProxyAuth.Cluster.Draining
import VmProxyAuth.Cluster.Metadata
import VmProxyAuth.Lib.SplitOn
import VmProxyAuth.Cluster.StaticPeers
import VmProxyAuth.Cluster.Retrying
import VmProxyAuth.Cluster.DiscoveryLoop
import VmProxyAuth.Lib.ExchangeSort
import VmProxyAuth.Logging.LogFmt
import VmProxyAuth.Lib.Regexp
import VmProxyAuth.Lib.Runes
import VmProxyAuth.Logging.Sanitize
import VmProxyAuth.Logging.Secrets
import VmProxyAuth.Logging.Headers
import VmProxyAuth.Lib.Checks
import VmProxyAuth.Lib.HostPort
import VmProxyAuth.Config.Validation
import VmProxyAuth.Config.Startup
import VmProxyAuth.Config.Startable
import VmProxyAuth.Config.Waiting
