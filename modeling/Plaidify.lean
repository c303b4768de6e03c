import Plaidify.Lib.Runs
import Plaidify.Lib.Json
import Plaidify.Lib.Separated
import Plaidify.Lib.HashChain
import Plaidify.Audit.Log
import Plaidify.Audit.Retention
import Plaidify.Audit.Tamper
import Plaidify.Audit.Writers
import Plaidify.BrowserPool.Pool
import Plaidify.BrowserPool.Slots
import Plaidify.Lib.Table
import Plaidify.Lib.Text
import Plaidify.Principals.Scopes
import Plaidify.Principals.Auth
import Plaidify.Principals.Configuration
import Plaidify.Principals.Confinement
import Plaidify.Envelope.Credentials
import Plaidify.Envelope.Rotation
import Plaidify.Links.Endpoints
import Plaidify.Links.Minting
import Plaidify.AccessJobs.Jobs
import Plaidify.Lib.Raising
import Plaidify.AccessJobs.Dispatch
import Plaidify.AccessJobs.Settlement
import Plaidify.AccessJobs.Workers
import Plaidify.AccessJobs.Redelivery
import Plaidify.AccessJobs.ScopeLock
import Plaidify.Resilience.CircuitBreaker
import Plaidify.Lib.JsonSorted
import Plaidify.AccessJobs.Modes
import Plaidify.Mfa.Codes
import Plaidify.Extraction.SelectorCache
import Plaidify.HostedLink.Sessions
import Plaidify.HostedLink.Reconciling
import Plaidify.HostedLink.Connections
import Plaidify.HostedLink.Completion
import Plaidify.HostedLink.Challenges
import Plaidify.HostedLink.Page
import Plaidify.HostedLink.Protocol
import Plaidify.HostedLink.LinkRows
import Plaidify.HostedLink.PublicTokens
import Plaidify.HostedLink.Exchange
import Plaidify.Consent.Decisions
import Plaidify.Accounts.RefreshTokens
import Plaidify.Accounts.OAuth
import Plaidify.Webhooks.Delivery
import Plaidify.Links.Ownership
import Plaidify.Webhooks.Isolation
import Plaidify.Lib.Keyspace
import Plaidify.SessionKeys.Keys
import Plaidify.SessionKeys.Lifetime
import Plaidify.SessionStore.Documents
import Plaidify.SessionStore.Backends
import Plaidify.SessionStore.Launches
import Plaidify.SessionStore.Redemption
import Plaidify.SessionStore.Updates
import Plaidify.SessionStore.Calls
import Plaidify.SessionStore.Equivalence
import Plaidify.Lib.Closing
import Plaidify.EventStream.Stream
import Plaidify.EventStream.Delivery
import Plaidify.Refresh.Scheduler
import Plaidify.Refresh.Restarts
import Plaidify.Refresh.Unscheduling
import Plaidify.Refresh.Quota
import Plaidify.Lib.JsonPaths
import Plaidify.EventStream.Sanitising
import Plaidify.HostedLink.Observations
import Plaidify.Tenancy.Database
import Plaidify.Tenancy.Ownership
import Plaidify.Tenancy.Erasure
import Plaidify.Tenancy.Listings
import Plaidify.HostedLink.Noninterference
import Plaidify.Engine.Policy
import Plaidify.Lib.Traces
import Plaidify.Engine.Page
import Plaidify.Engine.Steps
import Plaidify.Engine.Extraction
import Plaidify.Engine.Execution
import Plaidify.Engine.ReadOnly
import Plaidify.HostedLink.Flow
import Plaidify.HostedLink.NativeFlows
import Plaidify.Accounts.Lockout
import Plaidify.Refresh.Updates
import Plaidify.Lib.Rounding
import Plaidify.Resilience.FallbackChain
import Plaidify.HostedLink.EventDelivery
import Plaidify.Principals.FetchedData
import Plaidify.Extraction.Cascade
import Plaidify.Envelope.MasterKey
import Plaidify.Envelope.ReEncryption
import Plaidify.HostedLink.AllowedOrigins
import Plaidify.Engine.StructuredSteps
import Plaidify.Refresh.Backoff
import Plaidify.Blueprints.Generator
import Plaidify.BrowserPool.Downloads
import Plaidify.Blueprints.Loading
import Plaidify.Dom.Cleaner
import Plaidify.Dom.Stripping
import Plaidify.Dom.ElementMap
import Plaidify.Engine.Pagination
import Plaidify.Engine.PagedRuns
import Plaidify.Lib.DateFormats
import Plaidify.Extraction.Coercion
import Plaidify.AccessJobs.LockScope
import Plaidify.Lib.Capacity
import Plaidify.SessionStore.Capacity
import Plaidify.Blueprints.Registry
import Plaidify.Lib.JsonIndent
import Plaidify.Lib.Histories
import Plaidify.SelectorCache.Store
import Plaidify.SelectorCache.File
import Plaidify.SelectorCache.History
import Plaidify.Dom.Parser
import Plaidify.Dom.Reading
import Plaidify.Dom.RoundTrip
import Plaidify.Dom.Consuming
import Plaidify.Dom.Spelling
import Plaidify.Dom.Exactness
import Plaidify.AccessJobs.Payloads
import Plaidify.Engine.Credentials
import Plaidify.Mfa.Returned
import Plaidify.Refresh.Failures
import Plaidify.HostedLink.Widget
import Plaidify.HostedLink.Relay
import Plaidify.HostedLink.Embedding
import Plaidify.Lib.UrlEncoding
