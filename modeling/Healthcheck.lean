import Healthcheck.Callback.Discard
import Healthcheck.Callback.Effect
import Healthcheck.Callback.Ended
import Healthcheck.Callback.Evidence
import Healthcheck.Callback.Finish
import Healthcheck.Callback.Footprint
import Healthcheck.Callback.Guarantee
import Healthcheck.Callback.Handle
import Healthcheck.Callback.History
import Healthcheck.Callback.Life
import Healthcheck.Callback.LockOrder
import Healthcheck.Callback.Locks
import Healthcheck.Callback.Onward
import Healthcheck.Callback.Orphan
import Healthcheck.Callback.Patrol
import Healthcheck.Callback.ProbeSteps
import Healthcheck.Callback.Punctual
import Healthcheck.Callback.Reconnect
import Healthcheck.Callback.Regular
import Healthcheck.Callback.Retained
import Healthcheck.Callback.RoundSteps
import Healthcheck.Callback.RunSteps
import Healthcheck.Callback.Seat
import Healthcheck.Callback.SeatSteps
import Healthcheck.Callback.Sockets
import Healthcheck.Callback.StartSteps
import Healthcheck.Callback.Steady
import Healthcheck.Callback.Steps
import Healthcheck.Callback.Survival
import Healthcheck.Callback.Takeover
import Healthcheck.Common.Delay
import Healthcheck.Common.DelayLaws
import Healthcheck.Config.Check
import Healthcheck.Config.CheckLaws
import Healthcheck.Config.Keepalive
import Healthcheck.Config.KeepaliveLaws
import Healthcheck.Config.Permutation
import Healthcheck.Config.Registration
import Healthcheck.Library.Argmax
import Healthcheck.Library.Ascii
import Healthcheck.Library.Blocks
import Healthcheck.Library.BucketIndex
import Healthcheck.Library.Delimited
import Healthcheck.Library.DoubleSlot
import Healthcheck.Library.Hysteresis
import Healthcheck.Library.Json
import Healthcheck.Library.JsonGrammar
import Healthcheck.Library.JsonLexing
import Healthcheck.Library.Lease
import Healthcheck.Library.Matching
import Healthcheck.Library.Memory
import Healthcheck.Library.Program
import Healthcheck.Library.Saturating
import Healthcheck.Library.Scan
import Healthcheck.Library.Throttle
import Healthcheck.Library.TornWrite
import Healthcheck.Library.Trace
import Healthcheck.Protocol.Probe
import Healthcheck.Protocol.Start
import Healthcheck.Protocol.Tcp
import Healthcheck.Protocol.Udp
import Healthcheck.Reload.Continuity
import Healthcheck.Reload.Cycle
import Healthcheck.Reload.Identity
import Healthcheck.Reload.Order
import Healthcheck.Reload.Routing
import Healthcheck.Reload.Zone
import Healthcheck.Runtime.Lifecycle
import Healthcheck.Runtime.Ownership
import Healthcheck.Runtime.OwnershipLaws
import Healthcheck.Runtime.PrimitiveLaws
import Healthcheck.Runtime.Process
import Healthcheck.Runtime.Schedule
import Healthcheck.State.Lock
import Healthcheck.State.Publication
import Healthcheck.State.Record
import Healthcheck.Status.Agreement
import Healthcheck.Status.Csv
import Healthcheck.Status.Document
import Healthcheck.Status.Format
import Healthcheck.Status.FormatLaws
import Healthcheck.Status.Lifetime
import Healthcheck.Status.Page
import Healthcheck.Status.PageLaws
import Healthcheck.Status.Reading
import Healthcheck.Status.Render
import Healthcheck.Status.Snapshot
import Healthcheck.Status.SnapshotLaws
import Healthcheck.Status.Wait
import Healthcheck.Status.WaitLaws
import Healthcheck.Status.Writer
import Healthcheck.Status.WriterLaws
import Healthcheck.System.Acknowledge
import Healthcheck.System.Advance
import Healthcheck.System.Commit
import Healthcheck.System.Fencing
import Healthcheck.System.History
import Healthcheck.System.Invariant
import Healthcheck.System.Move
import Healthcheck.System.Peer
import Healthcheck.System.Preferred
import Healthcheck.System.Run
import Healthcheck.System.Spacing
import Healthcheck.System.Standing
import Healthcheck.System.Step
import Healthcheck.System.Thresholds
