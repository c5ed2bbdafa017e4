import CodeArena.Lib.Machine
import CodeArena.Lib.Async
import CodeArena.Lib.Text
import CodeArena.Lib.Utf
import CodeArena.Lib.Pieces
import CodeArena.Engine.CleanRun
import CodeArena.Engine.Chunks
import CodeArena.Engine.Diagnostics
import CodeArena.Engine.Modes
import CodeArena.Engine.Availability
import CodeArena.Engine.Cleanup
import CodeArena.Engine.Comparison
import CodeArena.Engine.Sanitizer
import CodeArena.Engine.Removal
import CodeArena.Api.Noninterference
import CodeArena.Api.Deactivation
import CodeArena.Api.Readiness
import CodeArena.Api.Schemas
import CodeArena.Api.Tags
import CodeArena.Api.Search
import CodeArena.Api.Solved
import CodeArena.Submissions.Record
import CodeArena.Submissions.Delivery
import CodeArena.Submissions.Freshness
import CodeArena.Submissions.Refusal
import CodeArena.Submissions.Result
import CodeArena.Submissions.Serial
import CodeArena.Submissions.Acceptance
import CodeArena.Submissions.Determinism
import CodeArena.Workers.Status
import CodeArena.Workers.Accounting
import CodeArena.Observability.Faithful
import CodeArena.Observability.Histograms
import CodeArena.Observability.Redaction
import CodeArena.Observability.Routes
import CodeArena.Observability.Tracing
import CodeArena.Service.Access
import CodeArena.Service.Audit
import CodeArena.Submissions.Explained
import CodeArena.Submissions.Finishes
import CodeArena.Seeds.Again
import CodeArena.Seeds.Progress
import CodeArena.Seeds.Usable
import CodeArena.Client.Rest
import CodeArena.Client.Told
