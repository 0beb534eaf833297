import MetricWatch.Main
import MetricWatch.Proofs.Watch.Lines
import MetricWatch.Number.NumericScan
import MetricWatch.Proofs.Number.DecimalValue
import MetricWatch.Proofs.Number.NumericPrefix
import MetricWatch.Proofs.Number.NumericScan
import MetricWatch.Proofs.Number.ReadBack
import MetricWatch.Proofs.Number.ScriptText
import MetricWatch.Proofs.Number.Shortest
import MetricWatch.Proofs.Number.Written
import MetricWatch.Proofs.Polling.Moves
import MetricWatch.Proofs.Polling.Course
import MetricWatch.Proofs.Polling.Rest
import MetricWatch.Proofs.Polling.Invocations
import MetricWatch.Proofs.Polling.Cancellation
import MetricWatch.Proofs.Polling.Timetable
import MetricWatch.Proofs.Number.Scaled
import MetricWatch.Proofs.Json.NumberReading
import MetricWatch.Proofs.Json.Grammar
import MetricWatch.Proofs.Json.Lexemes
import MetricWatch.Proofs.Text.Utf8
import MetricWatch.Proofs.Text.Utf16
import MetricWatch.Proofs.Text.Parts
import MetricWatch.Proofs.Json.Reading
import MetricWatch.Proofs.Json.Faultless
import MetricWatch.Proofs.Lookup
import MetricWatch.Proofs.Response.InstantVector
import MetricWatch.Proofs.Response.Acceptance
import MetricWatch.Proofs.Url.Form
import MetricWatch.Proofs.Query.DirectRoute
import MetricWatch.Proofs.Url.Resolve
import MetricWatch.Proofs.Query.ProxiedRoute
import MetricWatch.Proofs.Query.Forwarding
import MetricWatch.Proofs.Polling.HandleTable
import MetricWatch.Proofs.Polling.Flag
import MetricWatch.Proofs.Polling.Disturbance
import MetricWatch.Proofs.Polling.Account
import MetricWatch.Proofs.Polling.Independence
import MetricWatch.Proofs.Json.Writing
import MetricWatch.Proofs.Response.Encoding
import MetricWatch.Proofs.Response.AllOrNothing
import MetricWatch.Proofs.Response.Refusal
import MetricWatch.Proofs.Response.NumberLabel
import MetricWatch.Proofs.Response.Rewriting
import MetricWatch.Proofs.Polling.Incidents
import MetricWatch.Proofs.Polling.Truthfulness
import MetricWatch.Proofs.Polling.Lockstep
import MetricWatch.Proofs.Polling.Closing
import MetricWatch.Proofs.Polling.Failures
import MetricWatch.Proofs.Polling.SinglePoll
import MetricWatch.Proofs.Polling.FailurePolicy
import MetricWatch.Proofs.Url.Port
import MetricWatch.Proofs.Url.Special
import MetricWatch.Proofs.CommandLine.Endpoint
import MetricWatch.Proofs.Response.LabelText
import MetricWatch.Proofs.Labels.Arrangement
import MetricWatch.Proofs.Labels.Splitting
import MetricWatch.Proofs.Url.Component
import MetricWatch.Proofs.Number.Signed
import MetricWatch.Proofs.Number.Spacing
import MetricWatch.Proofs.Number.Sums
import MetricWatch.Proofs.Response.SampleTime
import MetricWatch.Proofs.Response.Milliseconds
import MetricWatch.Proofs.Clock.TimeOfDay
import MetricWatch.Proofs.Clock.Stopwatch
import MetricWatch.Proofs.Watch.LineReading
import MetricWatch.Proofs.CommandLine.LastPort
import MetricWatch.Proofs.Number.BoundedInteger
import MetricWatch.Proofs.CommandLine.Values
import MetricWatch.Proofs.CommandLine.Precedence
import MetricWatch.Proofs.Response.StructuredRefusal
