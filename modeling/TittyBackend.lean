import TittyBackend.Lib.Interleaving
import TittyBackend.Lib.Alone
import TittyBackend.Lib.Digits
import TittyBackend.Lib.Base64
import TittyBackend.Lib.Calendar
import TittyBackend.Lib.Table
import TittyBackend.Lib.Keyed
import TittyBackend.Lib.Tally
import TittyBackend.Lib.FixedWindow
import TittyBackend.Lib.Switch
import TittyBackend.Lib.Lapse
import TittyBackend.Lib.Json
import TittyBackend.Lib.Matching
import TittyBackend.Data.DateTime
import TittyBackend.Data.TextOrder
import TittyBackend.Data.Uuid
import TittyBackend.Data.Identity
import TittyBackend.Data.Models
import TittyBackend.RateLimit
import TittyBackend.Auth
import TittyBackend.Settings
import TittyBackend.Database.Schema
import TittyBackend.Database.Statements
import TittyBackend.Resolver
import TittyBackend.Graphql.Error
import TittyBackend.Graphql.Mutation
import TittyBackend.Graphql.Query
import TittyBackend.Service
import TittyBackend.Lifetime
import TittyBackend.Listings
import TittyBackend.Http
import TittyBackend.Script
import TittyBackend.Effect
import TittyBackend.Sequential
import TittyBackend.Endings
import TittyBackend.Provenance
import TittyBackend.Login
import TittyBackend.Authority
import TittyBackend.Registry
import TittyBackend.Requests
import TittyBackend.ActiveLimit
import TittyBackend.Renewal
import TittyBackend.Failures
import TittyBackend.BlockList
import TittyBackend.Cleanup
import TittyBackend.Blocking
import TittyBackend.Retry
import TittyBackend.Redemption
import TittyBackend.Isolation
import TittyBackend.Quota
import TittyBackend.ErrorCodes
import TittyBackend.Gate
import TittyBackend.Metrics.Bucket
import TittyBackend.Metrics.Table
import TittyBackend.Metrics.Migration
import TittyBackend.AccessLog
import TittyBackend.RequestIds
import TittyBackend.Registrations
import TittyBackend.Delivery
import TittyBackend.Outcome
import TittyBackend.Veil
import TittyBackend.Twins
import TittyBackend.Data.IpAddr
import TittyBackend.ClientKey
import TittyBackend.Lib.Draining
import TittyBackend.Progress
import TittyBackend.Cancellation
import TittyBackend.Circle
import TittyBackend.Lib.StandIn
import TittyBackend.Strangers
import TittyBackend.Lib.Linear
import TittyBackend.Directory
import TittyBackend.Arrival
import TittyBackend.Admission
import TittyBackend.Causes
