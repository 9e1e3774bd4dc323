import Statechart.Active
import Statechart.Argument
import Statechart.Binary
import Statechart.Callable
import Statechart.Checkpoint
import Statechart.Checkpoint.Binary
import Statechart.Checkpoint.Text
import Statechart.Codec
import Statechart.Config
import Statechart.Config.Text
import Statechart.Context
import Statechart.Definition
import Statechart.Error
import Statechart.Extension
import Statechart.Forest
import Statechart.History
import Statechart.Host
import Statechart.Identifier
import Statechart.Json.Reader
import Statechart.Json.Value
import Statechart.Json.Writer
import Statechart.Log
import Statechart.Machine.Basic
import Statechart.Machine.Fire
import Statechart.Machine.Progress
import Statechart.Notice
import Statechart.Passive
import Statechart.Proofs.Forest.Lineage
import Statechart.Proofs.Walk
import Statechart.Report
import Statechart.Report.Text
import Statechart.Route
import Statechart.Scenario.Script
import Statechart.Scenario.Session
import Statechart.Scenario.Step
import Statechart.Table
import Statechart.Text.Blank
import Statechart.Text.Decimal
import Statechart.Text.Glyph
import Statechart.Text.Quoted
import Statechart.Timestamp
import Statechart.Timestamp.Text
import Statechart.Transition
import Statechart.UnitTest
import Statechart.Walk
import Statechart.Proofs.Forest.Path
import Statechart.Proofs.Forest.Route
import Statechart.Proofs.Forest.WellFormed
import Statechart.Proofs.Machine.Trace
import Statechart.Proofs.Forest.Relevel
import Statechart.Proofs.Forest.Attach
import Statechart.Proofs.Forest.Definition
import Statechart.Proofs.Machine.Move
import Statechart.Proofs.Machine.Run
import Statechart.Proofs.Machine.External
import Statechart.Proofs.Machine.Travel
import Statechart.Proofs.Machine.Configuration
import Statechart.Proofs.Forest.Recall
import Statechart.Proofs.Machine.Remember
import Statechart.Proofs.Machine.Phase
import Statechart.Proofs.Machine.Alike
import Statechart.Proofs.Active.Step
import Statechart.Proofs.Active.Handover
import Statechart.Proofs.Active.Ledger
import Statechart.Proofs.Active.Delivery
import Statechart.Proofs.Passive.Order
import Statechart.Proofs.Passive.Request
import Statechart.Proofs.Passive.Safety
import Statechart.Proofs.Passive.Sequence
import Statechart.Proofs.Passive.Work
import Statechart.Proofs.Active.Service
import Statechart.Proofs.Agreement
import Statechart.Proofs.Host.Journal
import Statechart.Proofs.Forest.Mirror
import Statechart.Proofs.Machine.Stage
import Statechart.Proofs.Machine.Simulation
import Statechart.Proofs.Host.Parallel
import Statechart.Proofs.Machine.Checkpoint
import Statechart.Proofs.Machine.Resume
import Statechart.Proofs.Machine.Tolerance
import Statechart.Proofs.Host.Audience
import Statechart.Proofs.Machine.Publication
import Statechart.Proofs.Forest.Outline
import Statechart.Proofs.Machine.Rearrange
import Statechart.Proofs.Active.Owner
import Statechart.Proofs.Text.Decimal
import Statechart.Proofs.Timestamp.Text
import Statechart.Proofs.Json.RoundTrip
import Statechart.Proofs.Binary
import Statechart.Proofs.Checkpoint.Text
import Statechart.Proofs.Checkpoint.Binary
import Statechart.Proofs.Refusal
import Statechart.Proofs.Machine.Loading
import Statechart.Proofs.Forest.Registration
import Statechart.Proofs.Machine.Hierarchy
import Statechart.Proofs.Machine.Selection
import Statechart.Proofs.Machine.Shadow
import Statechart.Proofs.Machine.Foothold
import Statechart.Proofs.Machine.Level
import Statechart.Proofs.Active.Faithful
import Statechart.Proofs.Active.Schedule
import Statechart.Proofs.Machine.Sending
import Statechart.Proofs.Passive.Course
import Statechart.Proofs.Passive.Law
import Statechart.Proofs.Machine.Episode
import Statechart.Proofs.Machine.Unfolding
import Statechart.Proofs.Machine.Whereabouts
import Statechart.Proofs.Passive.Watch
import Statechart.Proofs.Active.Watch
import Statechart.Proofs.Host.Tale
import Statechart.Proofs.Machine.Override
import Statechart.Proofs.Machine.Retelling
import Statechart.Proofs.Passive.Retelling
import Statechart.Proofs.UnitTest.Verdict
import Statechart.Proofs.Forest.Grouping
import Statechart.Proofs.Machine.Amendment
import Statechart.Proofs.Forest.Dictionary
import Statechart.Proofs.Machine.Dispatch
import Statechart.Proofs.Report.View
import Statechart.Proofs.Report.Text
import Statechart.Proofs.Forest.Loops
import Statechart.Proofs.Machine.Loops
import Statechart.Proofs.Machine.Lifecycle
import Statechart.Proofs.Host.Budget
import Statechart.Proofs.Machine.Expense
import Statechart.Proofs.Passive.Exhaustion
