import SecretSync.Cluster.State
import SecretSync.Operator
import SecretSync.Proofs.Effect.Calls
import SecretSync.Proofs.Text.Split
import SecretSync.Proofs.Number.Decimal
import SecretSync.Proofs.Sorting.Map
import SecretSync.Proofs.Table
import SecretSync.Sorting.Stable
import SecretSync.Startup
import SecretSync.Text.Hex
import SecretSync.Proofs.Content.Fingerprint
import SecretSync.Proofs.Target.Stored
import SecretSync.Proofs.Cluster.Api
import SecretSync.Proofs.Cluster.Honest
import SecretSync.Proofs.Target.Faithful
import SecretSync.Proofs.Content.Assembly
import SecretSync.Proofs.Effect.Leaves
import SecretSync.Proofs.Operator.Handling
import SecretSync.Proofs.Operator.Tasks
import SecretSync.Proofs.Operator.Faithful
import SecretSync.Proofs.Cluster.Body
import SecretSync.Proofs.Cluster.Guarded
import SecretSync.Proofs.Operator.Guarded
import SecretSync.Proofs.Effect.Possible
import SecretSync.Proofs.Operator.Gone
import SecretSync.Proofs.Cluster.Lifetime
import SecretSync.Proofs.Guard.Edits
import SecretSync.Proofs.Effect.Keeping
import SecretSync.Proofs.Target.Keeping
import SecretSync.Proofs.Effect.Record
import SecretSync.Proofs.Cluster.Writes
import SecretSync.Proofs.Target.Exact
import SecretSync.Proofs.Operator.Course
import SecretSync.Proofs.Operator.Atomic
import SecretSync.Proofs.Cluster.Renewal
import SecretSync.Proofs.Operator.Settled
import SecretSync.Proofs.Effect.Responder
import SecretSync.Proofs.Remote.Steady
import SecretSync.Proofs.Content.Precedence
import SecretSync.Proofs.Content.Provenance
import SecretSync.Proofs.Content.Acceptance
import SecretSync.Proofs.Operator.Contained
import SecretSync.Proofs.Cache.Uses
import SecretSync.Proofs.Cache.Instant
import SecretSync.Proofs.Content.Instant
import SecretSync.Proofs.Effect.Separate
import SecretSync.Proofs.Cluster.Separate
import SecretSync.Proofs.Guard.Release
import SecretSync.Proofs.Operator.Journal
import SecretSync.Proofs.Operator.Remembered
import SecretSync.Proofs.Operator.Counting
import SecretSync.Proofs.Operator.Counters
import SecretSync.Proofs.Operator.Teardown
import SecretSync.Proofs.Operator.Own
import SecretSync.Proofs.Operator.Independent
import SecretSync.Proofs.Json.Literal
import SecretSync.Proofs.Json.Scalar
import SecretSync.Proofs.Json.RoundTrip
import SecretSync.Proofs.Path
import SecretSync.Proofs.Json.Faults
import SecretSync.Proofs.Json.Parsed
import SecretSync.Proofs.Json.Documents
import SecretSync.Proofs.Json.Float
import SecretSync.Proofs.Json.Ascii
import SecretSync.Proofs.Content.Written
import SecretSync.Proofs.Content.Expansion
import SecretSync.Proofs.Content.Extraction
import SecretSync.Proofs.Content.Vault
import SecretSync.Proofs.Cache.Sections
import SecretSync.Proofs.Cache.Shared
import SecretSync.Proofs.Content.Accepted
import SecretSync.Proofs.Target.Replaced
import SecretSync.Proofs.Number.Rounding
import SecretSync.Proofs.Number.Shortest
import SecretSync.Proofs.Number.Float
import SecretSync.Proofs.Sorting.Latest
import SecretSync.Proofs.Remote.GoogleName
import SecretSync.Proofs.Remote.Selection
import SecretSync.Proofs.Remote.Versions
import SecretSync.Proofs.Remote.Requests
import SecretSync.Proofs.Remote.Routing
import SecretSync.Proofs.Number.Truncation
import SecretSync.Proofs.Remote.Prerequisites
import SecretSync.Proofs.Time.Exact
import SecretSync.Proofs.Operator.Watch
import SecretSync.Proofs.Cache.Alone
