import Vetting.Api.Admin
import Vetting.Api.Handler
import Vetting.Api.Reply
import Vetting.Api.Request
import Vetting.Api.Route
import Vetting.Bulk.Dispatch
import Vetting.Bulk.Gate
import Vetting.Bulk.Plan
import Vetting.Bulk.Run
import Vetting.Calendar.Date
import Vetting.Calendar.Day
import Vetting.Calendar.Instant
import Vetting.Calendar.Scan
import Vetting.CommandLine.Arguments
import Vetting.CommandLine.LogFilter
import Vetting.CommandLine.Startup
import Vetting.Configuration.Gateway
import Vetting.Configuration.Program
import Vetting.Configuration.Setting
import Vetting.Core.Account
import Vetting.Core.Job
import Vetting.Core.JobDetail
import Vetting.Core.LogEntry
import Vetting.Csv.Reader
import Vetting.Csv.Sink
import Vetting.Csv.Writer
import Vetting.Desk.Admission
import Vetting.Desk.Call
import Vetting.Desk.Finalizer
import Vetting.Desk.Logbook
import Vetting.Desk.Metric
import Vetting.Desk.Row
import Vetting.Desk.Single
import Vetting.Desk.Strand
import Vetting.Desk.Task
import Vetting.Desk.Tracking
import Vetting.Digest.Hmac
import Vetting.Digest.Sha256
import Vetting.Double.Basic
import Vetting.Double.Shortest
import Vetting.Export.Layout
import Vetting.Export.Sheet
import Vetting.Http.MediaType
import Vetting.Http.Message
import Vetting.Http.Multipart
import Vetting.Http.Query
import Vetting.Http.Status
import Vetting.Json.Cursor
import Vetting.Json.Fault
import Vetting.Json.Numeral
import Vetting.Json.Printer
import Vetting.Json.Quoted
import Vetting.Json.Reader
import Vetting.Json.Value
import Vetting.Main
import Vetting.Product.Catalog
import Vetting.Product.Field
import Vetting.Product.Submission
import Vetting.Proofs.Course
import Vetting.Proofs.DispatchAccount
import Vetting.Proofs.History
import Vetting.Proofs.JobCourse
import Vetting.Proofs.RowCourse
import Vetting.Proofs.RowsLogged
import Vetting.Proofs.RunAccount
import Vetting.Proofs.RunProgress
import Vetting.Proofs.RunStep
import Vetting.Proofs.RunTotals
import Vetting.Proofs.StatusHistory
import Vetting.Proofs.SuccessCount
import Vetting.Proofs.TaskCalls
import Vetting.Refusal
import Vetting.Rehearsal.Journal
import Vetting.Rehearsal.Play
import Vetting.Rehearsal.Schedule
import Vetting.Rehearsal.Script
import Vetting.Server.Listen
import Vetting.Server.Office
import Vetting.Service.Answer
import Vetting.Service.Client
import Vetting.Service.Error
import Vetting.Service.Frame
import Vetting.Service.Outgoing
import Vetting.Session.Identity
import Vetting.Session.Token
import Vetting.Session.Verifier
import Vetting.Text.Base64
import Vetting.Text.Blank
import Vetting.Text.Digits
import Vetting.Text.Printable
import Vetting.Text.Utf8
import Vetting.Upload
import Vetting.Url.Extend
import Vetting.Url.Host
import Vetting.Url.Parser
import Vetting.Url.Percent
import Vetting.Url.Punycode
import Vetting.Wire.Decode
import Vetting.Wire.Form
import Vetting.Wire.Mismatch
import Vetting.Wire.Reader
import Vetting.Wire.Shape
import Vetting.Yaml.Cursor
import Vetting.Yaml.Node
import Vetting.Yaml.Scalar
import Vetting.Yaml.Tag
import Vetting.Yaml.Token
import Vetting.Proofs.ClientAnswer
import Vetting.Proofs.Waves
import Vetting.Proofs.MaskedExport
import Vetting.Proofs.JobAdmission
import Vetting.Proofs.PassedLeaves
import Vetting.Proofs.PassedOver
import Vetting.Proofs.MemberOrder
import Vetting.Proofs.TextDecode
import Vetting.Proofs.Classified
import Vetting.Proofs.UploadForms
import Vetting.Proofs.ExportReadBack
import Vetting.Proofs.FinalizedOnce
import Vetting.Proofs.InFlight
import Vetting.Desk.Errand
import Vetting.Proofs.ErrandCourse
import Vetting.Proofs.TransactionIds
import Vetting.Shift
import Vetting.Proofs.DrawnNumbers
import Vetting.Proofs.UploadLedger
import Vetting.Proofs.ShiftHistory
import Vetting.Proofs.IdsApart
import Vetting.Proofs.Confined
import Vetting.Proofs.SessionBound
import Vetting.Proofs.OutlivesClient
import Vetting.Proofs.SteadyServices
import Vetting.Proofs.RunOfOne
import Vetting.Proofs.ServedEnds
import Vetting.Proofs.BulkOfOne
import Vetting.Proofs.Pacing
import Vetting.Proofs.RangeExport
import Vetting.Proofs.FailureEvidence
import Vetting.Proofs.SubmissionSeenThrough
import Vetting.Proofs.FullSink
import Vetting.Proofs.SessionToken
import Vetting.Proofs.AddedSegments
import Vetting.Proofs.LogAddress
import Vetting.Proofs.CalendarDays
import Vetting.Proofs.WrittenInstants
import Vetting.Proofs.ReadBack
import Vetting.Proofs.NormalForm
import Vetting.Proofs.SubmissionForm
import Vetting.Proofs.FieldLanguages
import Vetting.Proofs.RunCounters
import Vetting.Proofs.CounterBalance
