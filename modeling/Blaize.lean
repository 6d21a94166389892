import Blaize.Lib.Machine
import Blaize.Lib.OrdMap
import Blaize.Lib.Redis
import Blaize.Lib.RedisStrings
import Blaize.Lib.Search
import Blaize.Lib.Sorting
import Blaize.Lib.StableInsertion
import Blaize.Lib.Js
import Blaize.Queue.Storage
import Blaize.Queue.PriorityOrder
import Blaize.Queue.Instance
import Blaize.Queue.Registry
import Blaize.Queue.Moves
import Blaize.Queue.Revalidation
import Blaize.Queue.Cancel
import Blaize.Queue.Stranded
import Blaize.Queue.Terminal
import Blaize.Redis.CircuitBreaker
import Blaize.Redis.QueueAdapter
import Blaize.Redis.Board
import Blaize.Redis.Delivery
import Blaize.Redis.Agreement
import Blaize.Router.Matcher
import Blaize.Router.Router
import Blaize.Router.Sync
import Blaize.Sse.Stream
import Blaize.Sse.Ordering
import Blaize.Sse.Registry
import Blaize.Upload.Bodies
import Blaize.Queue.Attempts
import Blaize.Queue.Changes
import Blaize.Queue.Concurrency
import Blaize.Queue.LiveLoop
import Blaize.Queue.Supply
import Blaize.Queue.Slots
import Blaize.Queue.Shutdown
import Blaize.Queue.Stats
import Blaize.Cors.Middleware
import Blaize.Cors.OriginValidator
import Blaize.Cors.Safety
import Blaize.Cors.Transparency
import Blaize.Cors.OriginCache
import Blaize.Lib.Program
import Blaize.Server.Context
import Blaize.Server.Correlation
import Blaize.Server.OneResponse
import Blaize.Lib.Glob
import Blaize.Lib.LastIndex
import Blaize.Events.RedisAdapter
import Blaize.Events.Isolation
import Blaize.Events.MemoryEventBus
import Blaize.Events.Delivery
import Blaize.Events.TypedBus
import Blaize.Lib.EventStream
import Blaize.Sse.Wire
import Blaize.Sse.Accounting
import Blaize.Sse.TypedStream
import Blaize.Sse.TypedEquivalence
import Blaize.Sse.FirstEvent
import Blaize.Sse.Closing
import Blaize.Client.OneConnection
import Blaize.Client.Subscriptions
import Blaize.Client.Resume
import Blaize.Upload.RoundTrip
import Blaize.Redis.HalfOpen
import Blaize.Redis.ResetTimer
import Blaize.Redis.Callbacks
import Blaize.Redis.CacheAdapter
import Blaize.Redis.Interchange
import Blaize.Router.Discovery
import Blaize.Router.Mirror
import Blaize.Server.Onion
import Blaize.Server.Stop
import Blaize.Upload.Truncated
import Blaize.Lib.Recency
import Blaize.Cache.MemoryAdapter
import Blaize.Cache.Lifetime
import Blaize.Cache.Lru
import Blaize.Queue.Service
import Blaize.Events.SubscriptionTable
import Blaize.Lib.Number
import Blaize.Lib.Json
import Blaize.Redis.JobHash
import Blaize.Redis.Listing
import Blaize.Redis.RetryPolicy
import Blaize.Lib.UrlEncoded
import Blaize.Lib.Url
import Blaize.Client.Url
import Blaize.Server.RequestUrl
import Blaize.Server.Grouping
import Blaize.Server.BodyParsing
import Blaize.Server.ResponderCalls
import Blaize.Client.QueryRoundTrip
import Blaize.Lib.RegExp
import Blaize.Router.Params
import Blaize.Client.PathRoundTrip
import Blaize.Metrics.HttpTracker
import Blaize.Metrics.Collector
import Blaize.Metrics.Cardinality
import Blaize.Metrics.PrometheusFormatter
import Blaize.Metrics.Totals
import Blaize.Lib.OrderStatistics
import Blaize.Metrics.Percentiles
import Blaize.Metrics.WellFormed
import Blaize.Metrics.Windows
import Blaize.Metrics.Histograms
import Blaize.Metrics.Monotone
import Blaize.Metrics.Exact
import Blaize.Metrics.Exposition
import Blaize.Metrics.Labels
import Blaize.Router.Directories
import Blaize.Router.FileRoutes
import Blaize.Router.Programmatic
import Blaize.Router.Specificity
import Blaize.Router.QueryBlind
import Blaize.Router.Segments
import Blaize.Router.Tree
import Blaize.Events.RegExpSubscriptions
import Blaize.Client.DetectedFiles
import Blaize.Compression.Negotiate
import Blaize.Compression.Vary
import Blaize.Server.Start
import Blaize.Server.MethodNotAllowed
import Blaize.Sse.Cleanup
import Blaize.Client.Reentrant
import Blaize.Client.Sound
import Blaize.Client.Creation
import Blaize.Client.CloseTold
import Blaize.Client.GivesUp
import Blaize.Upload.Inputs
import Blaize.Upload.Limits
import Blaize.Upload.ParseSize
import Blaize.Upload.FormatBytes
import Blaize.Logger.Faithful
import Blaize.Logger.Scopes
import Blaize.Context.State
import Blaize.Queue.JobStream
import Blaize.Redis.CacheSharing
import Blaize.Server.Lifecycle
