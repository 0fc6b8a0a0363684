import NestTemplate.Common.Action
import NestTemplate.Common.Heap
import NestTemplate.Common.Run
import NestTemplate.Common.ReadCommitted
import NestTemplate.Common.Table
import NestTemplate.Common.Channel
import NestTemplate.Databases.StoredRows
import NestTemplate.Common.Bytes
import NestTemplate.Common.Base64
import NestTemplate.Common.FormUrlencoded
import NestTemplate.Common.Url
import NestTemplate.Common.UrlResolution
import NestTemplate.Common.Json
import NestTemplate.Common.JsObject
import NestTemplate.Common.Template
import NestTemplate.Common.Parts
import NestTemplate.Common.ContentSecurityPolicy
import NestTemplate.Http.Validation
import NestTemplate.Http.UrlBuilder
import NestTemplate.Http.PathParameters
import NestTemplate.Http.BuiltUrls
import NestTemplate.Http.ErrorFormat
import NestTemplate.Http.ValidationPipe
import NestTemplate.Http.Pages
import NestTemplate.Auth.Models
import NestTemplate.Auth.Store
import NestTemplate.Auth.App
import NestTemplate.Auth.Dtos
import NestTemplate.Auth.Repos
import NestTemplate.Auth.Oauth
import NestTemplate.Auth.Authorization
import NestTemplate.Auth.Runs
import NestTemplate.Auth.ClientAuthentication
import NestTemplate.Auth.Revocation
import NestTemplate.Auth.Lifetimes
import NestTemplate.Auth.PkceBinding
import NestTemplate.Auth.PkceComparison
import NestTemplate.Auth.Session
import NestTemplate.Auth.WebRequests
import NestTemplate.Auth.ConcurrentCodes
import NestTemplate.Auth.ConcurrentRefresh
import NestTemplate.Auth.BrowserFlow
import NestTemplate.Auth.FormActionHeader
import NestTemplate.Auth.ClientAnswer
import NestTemplate.Auth.ClientErrors
import NestTemplate.Auth.RestartLogin
import NestTemplate.Auth.TokenReaders
import NestTemplate.Auth.JwtKeys
import NestTemplate.Auth.BearerAuthentication
import NestTemplate.Auth.BearerHeader
import NestTemplate.Auth.RegisteredGrants
import NestTemplate.Auth.TokenFrames
import NestTemplate.Auth.TokenPairs
import NestTemplate.Auth.TokenLives
import NestTemplate.Auth.HonestClient
import NestTemplate.Auth.ConcurrentPairs
import NestTemplate.Auth.Provenance
import NestTemplate.Cluster.Messaging
import NestTemplate.Cluster.ProcessMessages
import NestTemplate.Cluster.HealthCheck
import NestTemplate.Cluster.Audit
import NestTemplate.Cluster.SetupCluster
import NestTemplate.Cluster.Slots
import NestTemplate.Cluster.Effects
import NestTemplate.Cluster.Bookkeeping
import NestTemplate.Cluster.Shutdown
import NestTemplate.Cluster.Broadcasts
import NestTemplate.Cluster.WorkerNetwork
import NestTemplate.Cluster.Monitors
import NestTemplate.Http.RequestPreparation
import NestTemplate.Http.PageTraversal
import NestTemplate.Http.PageOptions
import NestTemplate.Session.IntendManager
import NestTemplate.Session.PageSession
import NestTemplate.Session.ApiRoutes
import NestTemplate.Session.ValidationRedirects
import NestTemplate.Session.FlashedErrors
import NestTemplate.Environment.Databases
import NestTemplate.Cli.MigrationNames
