import Runbook.Condition
import Runbook.Database
import Runbook.Database.Audit
import Runbook.Database.Column
import Runbook.Database.Records
import Runbook.Database.Relation
import Runbook.Email
import Runbook.Email.Delivery
import Runbook.Engine
import Runbook.Engine.Action
import Runbook.Engine.Call
import Runbook.Engine.Webhook
import Runbook.Failure
import Runbook.Field
import Runbook.Json.Form
import Runbook.Json.Reader
import Runbook.Log
import Runbook.Net.Address
import Runbook.Net.Http
import Runbook.Net.Url
import Runbook.Notification
import Runbook.Notification.Dispatch
import Runbook.Notification.Html
import Runbook.Number.Binary64
import Runbook.Number.Decimal
import Runbook.Number.Digits
import Runbook.Number.Extended
import Runbook.Number.Rounded
import Runbook.Program
import Runbook.Proofs.Account
import Runbook.Proofs.Alike
import Runbook.Proofs.Alone
import Runbook.Proofs.Amend
import Runbook.Proofs.Apart
import Runbook.Proofs.Audit
import Runbook.Proofs.Blind
import Runbook.Proofs.Bound
import Runbook.Proofs.Bracket
import Runbook.Proofs.Cancel
import Runbook.Proofs.Cells
import Runbook.Proofs.Close
import Runbook.Proofs.Comparable
import Runbook.Proofs.Conclusive
import Runbook.Proofs.Containment
import Runbook.Proofs.Course
import Runbook.Proofs.Delivery
import Runbook.Proofs.Descent
import Runbook.Proofs.Dispatch
import Runbook.Proofs.Doing
import Runbook.Proofs.Envelope
import Runbook.Proofs.Faults
import Runbook.Proofs.Fields
import Runbook.Proofs.Footprint
import Runbook.Proofs.Form
import Runbook.Proofs.Frame
import Runbook.Proofs.Headers
import Runbook.Proofs.Heed
import Runbook.Proofs.Hosting
import Runbook.Proofs.Instant
import Runbook.Proofs.Journey
import Runbook.Proofs.Known
import Runbook.Proofs.Ledger
import Runbook.Proofs.Listing
import Runbook.Proofs.Literal
import Runbook.Proofs.Load
import Runbook.Proofs.Lone
import Runbook.Proofs.Markup
import Runbook.Proofs.Merge
import Runbook.Proofs.Moment
import Runbook.Proofs.Named
import Runbook.Proofs.NumericHosts
import Runbook.Proofs.Order
import Runbook.Proofs.Origin
import Runbook.Proofs.Others
import Runbook.Proofs.Parts
import Runbook.Proofs.Phase
import Runbook.Proofs.Places
import Runbook.Proofs.Projection
import Runbook.Proofs.Reading
import Runbook.Proofs.Recall
import Runbook.Proofs.Record
import Runbook.Proofs.Recordable
import Runbook.Proofs.Replay
import Runbook.Proofs.Report
import Runbook.Proofs.Result
import Runbook.Proofs.Row
import Runbook.Proofs.Rule
import Runbook.Proofs.Run
import Runbook.Proofs.Sight
import Runbook.Proofs.Sleep
import Runbook.Proofs.Spared
import Runbook.Proofs.Spelling
import Runbook.Proofs.Strict
import Runbook.Proofs.Taped
import Runbook.Proofs.Task
import Runbook.Proofs.Tenant
import Runbook.Proofs.Timed
import Runbook.Proofs.Tour
import Runbook.Proofs.Trial
import Runbook.Proofs.Unwind
import Runbook.Proofs.Usable
import Runbook.Proofs.Walk
import Runbook.Proofs.WallClock
import Runbook.Proofs.Watch
import Runbook.Proofs.Within
import Runbook.Registry
import Runbook.Rehearsal
import Runbook.Rehearsal.Script
import Runbook.Rehearsal.TokenTrial
import Runbook.Rehearsal.Wiring
import Runbook.Rehearsal.World
import Runbook.Schedule
import Runbook.Schedule.Turn
import Runbook.Settings
import Runbook.Step
import Runbook.Step.Path
import Runbook.Step.Reader
import Runbook.Text.Class
import Runbook.Text.Printable
import Runbook.Text.Quoted
import Runbook.Text.Upper
import Runbook.Time.Calendar
import Runbook.Time.Clock
import Runbook.Time.IsoReader
import Runbook.Token
import Runbook.Value
import Runbook.Value.Compare
import Runbook.Value.Kind
import Runbook.Value.Members
import Runbook.Value.Path
import Runbook.Value.Snapshot
import Runbook.Value.Text
import Runbook.Variables
import Runbook.Work
import Runbook.Worker.Queue
import Runbook.Worker.Task
import Runbook.Workflow
