import PowerMonitor.Foundations.Runs
import PowerMonitor.Foundations.AbStore
import PowerMonitor.Foundations.SelectorStore
import PowerMonitor.Foundations.CMemory
import PowerMonitor.Foundations.Base64Text
import PowerMonitor.Foundations.Fields
import PowerMonitor.Foundations.Least
import PowerMonitor.Foundations.Resync
import PowerMonitor.Foundations.CText
import PowerMonitor.Foundations.Scan
import PowerMonitor.Foundations.Decimal
import PowerMonitor.Foundations.Hex
import PowerMonitor.Foundations.Calendar
import PowerMonitor.Foundations.CJson
import PowerMonitor.Foundations.Ring
import PowerMonitor.Foundations.Streak
import PowerMonitor.Foundations.Transducer
import PowerMonitor.Foundations.Crc
import PowerMonitor.Foundations.Sha2
import PowerMonitor.Foundations.Hmac
import PowerMonitor.Esp
import PowerMonitor.Config.Crc32
import PowerMonitor.Commands.Ledger
import PowerMonitor.Commands.Store
import PowerMonitor.Commands.Ops
import PowerMonitor.Commands.Incoming
import PowerMonitor.Commands.Calls
import PowerMonitor.Commands.History
import PowerMonitor.Commands.CrashSafety
import PowerMonitor.Commands.Frame
import PowerMonitor.Commands.Integrity
import PowerMonitor.Commands.Identity
import PowerMonitor.Commands.Progress
import PowerMonitor.Config.Record
import PowerMonitor.Config.Store
import PowerMonitor.Config.CommitPoint
import PowerMonitor.Config.Exclusion
import PowerMonitor.Config.Identity
import PowerMonitor.Config.OperatingState
import PowerMonitor.Provisioning.Framer
import PowerMonitor.Provisioning.Session
import PowerMonitor.Provisioning.Commit
import PowerMonitor.Provisioning.Coherence
import PowerMonitor.Ota.Checkpoint
import PowerMonitor.Ota.Manifest
import PowerMonitor.Ota.Payload
import PowerMonitor.Ota.Version
import PowerMonitor.Ota.Canonical
import PowerMonitor.Ota.Install
import PowerMonitor.Ota.Moves
import PowerMonitor.Ota.LatestWrite
import PowerMonitor.Ota.Content
import PowerMonitor.Ota.Calls
import PowerMonitor.Ota.CallLog
import PowerMonitor.Ota.Earned
import PowerMonitor.Ota.Refinement
import PowerMonitor.Runtime.Startup
import PowerMonitor.Runtime.World
import PowerMonitor.Runtime.Steps
import PowerMonitor.Runtime.SingleFlight
import PowerMonitor.Runtime.Dispatch.Invariant
import PowerMonitor.Runtime.Dispatch.Tasks
import PowerMonitor.Runtime.Dispatch.Network
import PowerMonitor.Runtime.Dispatch.Boot
import PowerMonitor.Runtime.Dispatch
import PowerMonitor.Runtime.Results
import PowerMonitor.Runtime.Outcome.Statement
import PowerMonitor.Runtime.Outcome.Invariant
import PowerMonitor.Runtime.Outcome.Tasks
import PowerMonitor.Runtime.Outcome.Boot
import PowerMonitor.Runtime.Outcome.Image
import PowerMonitor.Runtime.OtaOutcome
import PowerMonitor.Protocol.Canonical
import PowerMonitor.Protocol.QueryParts
import PowerMonitor.Protocol.NormalForm
import PowerMonitor.Protocol.Unambiguous
import PowerMonitor.Protocol.Verify
import PowerMonitor.Protocol.Keys
import PowerMonitor.Protocol.Headers
import PowerMonitor.Protocol.Capture
import PowerMonitor.Protocol.Replay
import PowerMonitor.Protocol.TrustedTime
import PowerMonitor.Telemetry.DeviceId
import PowerMonitor.Telemetry.Slot
import PowerMonitor.Telemetry.Timestamp
import PowerMonitor.Telemetry.Rfc3339
import PowerMonitor.Telemetry.Instant
import PowerMonitor.Telemetry.Response
import PowerMonitor.Telemetry.Scheduler
import PowerMonitor.Telemetry.Deadline
import PowerMonitor.Telemetry.Cadence
import PowerMonitor.Telemetry.NetworkTask
import PowerMonitor.Telemetry.Exchange
import PowerMonitor.Telemetry.Backoff
import PowerMonitor.Meter.Pzem
import PowerMonitor.Meter.Burst
import PowerMonitor.Storage.Journal
import PowerMonitor.Storage.Damage
import PowerMonitor.Storage.Codec
import PowerMonitor.Storage.Batch
import PowerMonitor.Storage.Segment
import PowerMonitor.Storage.Card
import PowerMonitor.Storage.Written
import PowerMonitor.Storage.Kept
import PowerMonitor.Storage.Durable
import PowerMonitor.Meter.Interval
import PowerMonitor.Meter.Energy
import PowerMonitor.Storage.Sequence
import PowerMonitor.Storage.Sequencer
import PowerMonitor.Storage.SequenceRefusal
import PowerMonitor.Diagnostics.Redact
import PowerMonitor.Diagnostics.Scanner
import PowerMonitor.Diagnostics.NonInterference
import PowerMonitor.Diagnostics.Secrets
import PowerMonitor.Telemetry.Body
