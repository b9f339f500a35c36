import HttpServerDemo.Cache.Convergence
import HttpServerDemo.Cache.Degraded
import HttpServerDemo.Cache.Directory
import HttpServerDemo.Cache.Paging
import HttpServerDemo.Cache.Races
import HttpServerDemo.Cache.RequestCount
import HttpServerDemo.Cache.Transparency
import HttpServerDemo.Cache.WellTyped
import HttpServerDemo.Gateway.BadRequests
import HttpServerDemo.GrpcServer.StartupSafety
import HttpServerDemo.GrpcServer.Waiting
import HttpServerDemo.Native.EndToEnd
import HttpServerDemo.Store.BinarySafety
import HttpServerDemo.Store.CachedDocuments
import HttpServerDemo.Store.DamagedEntries
import HttpServerDemo.Store.FailedCalls
import HttpServerDemo.Store.Invalidation
import HttpServerDemo.Store.PoolRetries
import HttpServerDemo.Store.PoolShutdown
import HttpServerDemo.Store.SharedConnection
import HttpServerDemo.Store.Statements
