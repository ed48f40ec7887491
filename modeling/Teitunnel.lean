import Teitunnel.Lib.Fallible
import Teitunnel.Lib.Text
import Teitunnel.Lib.Json
import Teitunnel.Domain
import Teitunnel.CfApi
import Teitunnel.Access
import Teitunnel.Ownership
import Teitunnel.Lib.SortedSet
import Teitunnel.Edge
import Teitunnel.Workers
import Teitunnel.Routing
import Teitunnel.Types
import Teitunnel.Serialize
import Teitunnel.Planner.Builder
import Teitunnel.Planner.Reservations
import Teitunnel.Planner.Edge
import Teitunnel.Planner.Front
import Teitunnel.Planner.Sites
import Teitunnel.Planner
import Teitunnel.Lib.Lists
import Teitunnel.Simulate
import Teitunnel.Engine
import Teitunnel.Lib.Runs
import Teitunnel.Lib.Ledger
import Teitunnel.Lib.Sha256
import Teitunnel.Reference
import Teitunnel.Properties.Areas
import Teitunnel.Properties.Branches
import Teitunnel.Properties.Ingress
import Teitunnel.Properties.Quotas
import Teitunnel.Properties.EdgeText
import Teitunnel.Properties.Owners
import Teitunnel.Lens.Http
import Teitunnel.Lens.Capture
import Teitunnel.Lens.Store
import Teitunnel.Properties.Captures
import Teitunnel.Lens.Recorder
import Teitunnel.Properties.Recording
import Teitunnel.Sharing.Schedule
import Teitunnel.Sharing.Pause
import Teitunnel.Properties.Pauses
import Teitunnel.Inspect.Routes
import Teitunnel.Properties.Inspections
import Teitunnel.Lib.Table
import Teitunnel.Lens.Login
import Teitunnel.Properties.Guesses
import Teitunnel.Sharing.Lease
import Teitunnel.Properties.Leases
import Teitunnel.Tunnels
import Teitunnel.Sharing.DomainShares
import Teitunnel.Properties.Places
import Teitunnel.Properties.DomainShares
import Teitunnel.Project.Apply
import Teitunnel.Properties.Projects
import Teitunnel.Inbox.Drain
import Teitunnel.Properties.Webhooks
import Teitunnel.Runtime.Registry
import Teitunnel.Runtime.Supervisor
import Teitunnel.Properties.Connectors
import Teitunnel.Control.Protocol
import Teitunnel.Control.Framing
import Teitunnel.Control.Server
import Teitunnel.Properties.Consents
import Teitunnel.Mcp.Auth
import Teitunnel.Mcp.Moves
import Teitunnel.Uptime.Tracker
import Teitunnel.Uptime.Monitor
import Teitunnel.Properties.Outages
import Teitunnel.Lib.Calendar
import Teitunnel.Lib.Digits
import Teitunnel.Properties.Dates
import Teitunnel.Lib.Base64
import Teitunnel.Lens.Gate
import Teitunnel.Properties.Sessions
import Teitunnel.Lib.Search
import Teitunnel.Lens.Inject
import Teitunnel.Properties.Injections
import Teitunnel.Lib.Bytes
import Teitunnel.Lens.Stream
import Teitunnel.Properties.Observers
import Teitunnel.Properties.Frames
import Teitunnel.Lib.EventStream
import Teitunnel.Lens.KeepAlive
import Teitunnel.Properties.Heartbeats
import Teitunnel.Lib.Glob
import Teitunnel.Lens.Pattern
import Teitunnel.Properties.Globs
import Teitunnel.Lib.Ranks
import Teitunnel.Lens.Metrics
import Teitunnel.Properties.Percentiles
import Teitunnel.Lib.Lines
import Teitunnel.Lens.Events
import Teitunnel.Properties.Events
import Teitunnel.Lib.Pieces
import Teitunnel.Lens.Cookies
import Teitunnel.Properties.Cookies
import Teitunnel.Uptime.Alerts
import Teitunnel.Properties.Alerts
import Teitunnel.Lib.Paging
import Teitunnel.Lens.Query
import Teitunnel.Properties.Pages
import Teitunnel.Lib.Tally
import Teitunnel.Uptime.Strip
import Teitunnel.Properties.Strips
import Teitunnel.Lib.IpText
import Teitunnel.Mcp.Redirects
import Teitunnel.Properties.Redirects
import Teitunnel.Lib.Trim
import Teitunnel.Allow
import Teitunnel.Properties.Tidy
import Teitunnel.Properties.Logins
import Teitunnel.Lib.Spans
import Teitunnel.Sharing.Changes
import Teitunnel.Properties.Changes
import Teitunnel.Lib.IpWriter
import Teitunnel.Ranges
import Teitunnel.Properties.Ranges
import Teitunnel.Inbox.Account
import Teitunnel.Properties.Deliveries
import Teitunnel.LocalDomains.Name
import Teitunnel.LocalDomains.Registry
import Teitunnel.Properties.LocalNames
import Teitunnel.Lib.Files
import Teitunnel.Snapshots.Content
import Teitunnel.Properties.Contents
import Teitunnel.Snapshots.Crawl
import Teitunnel.Properties.Crawls
import Teitunnel.Lib.Sliding
import Teitunnel.Requests
import Teitunnel.Properties.Budgets
import Teitunnel.Lib.TokenBucket
import Teitunnel.Lens.Throttle
import Teitunnel.Properties.Throttling
import Teitunnel.Lib.Uris
import Teitunnel.Lens.Folder
import Teitunnel.Properties.Folders
import Teitunnel.Lib.SortedMap
import Teitunnel.OpenApi.Schema
import Teitunnel.Properties.Schemas
import Teitunnel.Lib.Shell
import Teitunnel.Lib.Clients
import Teitunnel.Lens.Export
import Teitunnel.Properties.Exports
import Teitunnel.Lib.Tickets
import Teitunnel.Properties.Connections
import Teitunnel.Properties.JsonTexts
import Teitunnel.Mcp.Approvals
import Teitunnel.Properties.Approvals
import Teitunnel.Lens.Webhook
import Teitunnel.Lens.Replay
import Teitunnel.Properties.Signatures
import Teitunnel.Lib.Groups
import Teitunnel.OpenApi.Paths
import Teitunnel.OpenApi.Infer
import Teitunnel.Properties.Templates
import Teitunnel.Properties.Samples
import Teitunnel.Properties.Descriptions
