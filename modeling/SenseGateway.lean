import SenseGateway.Alarms.Catchup
import SenseGateway.Alarms.EdgeDetection
import SenseGateway.Alarms.Evaluator
import SenseGateway.Alarms.Faults
import SenseGateway.Alarms.Interleaving
import SenseGateway.Alarms.Reappearing
import SenseGateway.Alarms.Silence
import SenseGateway.Alarms.Storage
import SenseGateway.Buffer.Accounting
import SenseGateway.Buffer.Backlog
import SenseGateway.Buffer.Flush
import SenseGateway.Buffer.Outcome
import SenseGateway.Buffer.Queue
import SenseGateway.Buffer.Redelivery
import SenseGateway.Buffer.SourceTime
import SenseGateway.Buffer.StoreForward
import SenseGateway.Buffer.Wire
import SenseGateway.Calendar.Gregorian
import SenseGateway.Calendar.IsoText
import SenseGateway.Commands.Acknowledgement
import SenseGateway.Commands.Authorization
import SenseGateway.Commands.Batch
import SenseGateway.Commands.Coercion
import SenseGateway.Commands.DeclaredType
import SenseGateway.Commands.Delivery
import SenseGateway.Commands.Execute
import SenseGateway.Commands.Outline
import SenseGateway.Configuration.Overrides
import SenseGateway.Configuration.Refresh
import SenseGateway.Diagnose.Agreement
import SenseGateway.Diagnose.Decode
import SenseGateway.Diagnose.Parity
import SenseGateway.Diagnose.Scan
import SenseGateway.Effects.Cadence
import SenseGateway.Effects.Counting
import SenseGateway.Effects.Following
import SenseGateway.Effects.Handles
import SenseGateway.Effects.Lapses
import SenseGateway.Effects.LockOrder
import SenseGateway.Effects.Logs
import SenseGateway.Effects.Passes
import SenseGateway.Effects.Prog
import SenseGateway.Effects.Reduction
import SenseGateway.Effects.Refinement
import SenseGateway.Effects.Runs
import SenseGateway.Effects.Schedule
import SenseGateway.Effects.Threads
import SenseGateway.Effects.Transcript
import SenseGateway.Files.Damage
import SenseGateway.Files.Restart
import SenseGateway.Health.DeviceStatus
import SenseGateway.History.Historian
import SenseGateway.Loops.Timers
import SenseGateway.Numerals.Binade
import SenseGateway.Numerals.Lexicographic
import SenseGateway.Numerals.Positional
import SenseGateway.Poller.BusSharing
import SenseGateway.Poller.Calls
import SenseGateway.Poller.Cleanup
import SenseGateway.Poller.Decode
import SenseGateway.Poller.Device
import SenseGateway.Poller.Exclusion
import SenseGateway.Poller.Footprint
import SenseGateway.Poller.Isolation
import SenseGateway.Poller.Layouts
import SenseGateway.Poller.Locking
import SenseGateway.Poller.PendingCloses
import SenseGateway.Poller.Punctuality
import SenseGateway.Poller.Scaling
import SenseGateway.Poller.Schedule
import SenseGateway.Poller.Spacing
import SenseGateway.Poller.Spelling
import SenseGateway.Poller.Surplus
import SenseGateway.Poller.Timetable
import SenseGateway.Poller.Visits
import SenseGateway.Poller.World
import SenseGateway.Python.Dict
import SenseGateway.Python.Float
import SenseGateway.Python.JsonExtent
import SenseGateway.Python.JsonRoundTrip
import SenseGateway.Python.JsonScalars
import SenseGateway.Python.JsonStored
import SenseGateway.Python.JsonText
import SenseGateway.Python.JsonWriting
import SenseGateway.Python.Rounding
import SenseGateway.Python.RoundingOrder
import SenseGateway.Python.ShortestText
import SenseGateway.Python.Text
import SenseGateway.Python.Value
import SenseGateway.Queues.Lanes
import SenseGateway.Queues.Succession
import SenseGateway.Queues.Window
import SenseGateway.Signals.Channel
import SenseGateway.Signals.Edges
import SenseGateway.Signals.Prefixes
import SenseGateway.Storage.Replacing
import SenseGateway.Supervisor.Orphans
import SenseGateway.Supervisor.Retrying
import SenseGateway.Supervisor.Shutdown
import SenseGateway.Supervisor.SingleInstance
import SenseGateway.Supervisor.Start
import SenseGateway.Telemetry.Measurement
import SenseGateway.Telemetry.Plant
import SenseGateway.Telemetry.Provenance
import SenseGateway.Telemetry.Setpoints
import SenseGateway.Telemetry.Sourced
import SenseGateway.Texts.Words
import SenseGateway.Tools.Console
import SenseGateway.Tools.Gui
import SenseGateway.Tools.Ports
