import WebhookInbox.Config
import WebhookInbox.Library.Run
import WebhookInbox.Library.Fallible
import WebhookInbox.Library.Collection
import WebhookInbox.Library.IndexedCollection
import WebhookInbox.Library.Dict
import WebhookInbox.Library.Text
import WebhookInbox.Library.Scanner
import WebhookInbox.Library.Markup
import WebhookInbox.Library.IpAddress
import WebhookInbox.Library.Calendar
import WebhookInbox.Library.IsoFormat
import WebhookInbox.Library.ObjectId
import WebhookInbox.Library.Encoding
import WebhookInbox.Library.WideEncoding
import WebhookInbox.Library.Utf8
import WebhookInbox.Library.Json
import WebhookInbox.Library.Bson
import WebhookInbox.Library.Documents
import WebhookInbox.Library.Aggregation
import WebhookInbox.Library.KeysetPaging
import WebhookInbox.Library.MovingPages
import WebhookInbox.Library.TokenBucket
import WebhookInbox.RateLimit
import WebhookInbox.Library.JsonGrammar
import WebhookInbox.Library.JsonComplete
import WebhookInbox.Library.Windows
import WebhookInbox.Library.Base64
import WebhookInbox.Library.Forms
import WebhookInbox.Library.QueryString
import WebhookInbox.Library.Decimal
import WebhookInbox.Library.JsonText
import WebhookInbox.Library.JsonSyntax
import WebhookInbox.Library.JsonWriter
import WebhookInbox.Library.JsonRoundTrip
import WebhookInbox.Models.Endpoint
import WebhookInbox.Db
import WebhookInbox.Replay.Ssrf
import WebhookInbox.Replay.Reach
import WebhookInbox.Replay.Runner
import WebhookInbox.Replay.Truncation
import WebhookInbox.Replay.Store
import WebhookInbox.Replay.Queue
import WebhookInbox.Replay.Lease
import WebhookInbox.Replay.Budget
import WebhookInbox.Ingest.Parser
import WebhookInbox.Search.Tokenize
import WebhookInbox.Ingest.Signature
import WebhookInbox.Ingest.Receiver
import WebhookInbox.Ingest.Forwarded
import WebhookInbox.Ingest.Depth
import WebhookInbox.Ingest.Rendering
import WebhookInbox.Ingest.Totality
import WebhookInbox.Ingest.Authenticity
import WebhookInbox.Replay.Worker
import WebhookInbox.Ingest.Dispatch
import WebhookInbox.Api.Endpoints
import WebhookInbox.Ingest.Storable
import WebhookInbox.Ingest.Escaping
import WebhookInbox.Replay.Body
import WebhookInbox.Replay.Policy
import WebhookInbox.Replay.Disclosure
import WebhookInbox.Replay.Credentials
import WebhookInbox.Replay.Outcomes
import WebhookInbox.Replay.Fairness
import WebhookInbox.Replay.Drain
import WebhookInbox.Search.Redaction
import WebhookInbox.Search.SharedSecret
import WebhookInbox.Library.Spelling
import WebhookInbox.Log
import WebhookInbox.Search.Spelling
import WebhookInbox.Search.Backfill
import WebhookInbox.Export
import WebhookInbox.Library.Csv
import WebhookInbox.CsvExport
import WebhookInbox.Search.Query
import WebhookInbox.Search.Scoring
import WebhookInbox.Search.Ranking
import WebhookInbox.Search.Recall
import WebhookInbox.Search.Identifiers
import WebhookInbox.Search.Edits
import WebhookInbox.Search.Inert
import WebhookInbox.Search.Pages
import WebhookInbox.Search.Bounds
import WebhookInbox.Search.Dates
import WebhookInbox.Retention
import WebhookInbox.Api.Expiry
import WebhookInbox.Api.Secrets
import WebhookInbox.Web.EditForm
import WebhookInbox.Auth
import WebhookInbox.Web.Sessions
import WebhookInbox.Web.Revocation
import WebhookInbox.Web.LastUser
import WebhookInbox.Web.JsonView
import WebhookInbox.EventStore
import WebhookInbox.Search.Settling
import WebhookInbox.Api.StoredExpiry
import WebhookInbox.Web.Provenance
import WebhookInbox.Web.Lockout
import WebhookInbox.Web.EventsPage
import WebhookInbox.Throttle
import WebhookInbox.Ingest.Throttle
import WebhookInbox.Api.Concealment
import WebhookInbox.Replay.Requests
import WebhookInbox.Web.Guesses
import WebhookInbox.Ingest.Origin
import WebhookInbox.Web.MovingEvents
