import Mathlib.Data.Int.Notation
import PowerMonitor.Esp

/-!
# Deadlines and backoff

The arithmetic of `pm_telemetry.c` and `pm_network_v2.c` on times: the exponential backoff with
jitter that a failed attempt starts, the fixed cadence a successful one keeps, and the scheduler of
the network task that combines them. Times are microseconds of the monotonic clock.
-/

namespace PowerMonitor.Telemetry

/-- `INT64_MAX`. -/
def int64Max : ℤ := 2 ^ 63 - 1

/-- `pm_telemetry_backoff_t`. -/
structure TelemetryBackoff where
  failures : ℕ
  nextAttemptUs : ℤ
  deriving DecidableEq

namespace TelemetryBackoff

/-- `pm_telemetry_backoff_reset`. -/
def reset (nowUs : ℤ) : TelemetryBackoff := ⟨0, nowUs⟩

/-- The delay `pm_telemetry_backoff_fail` returns after so many failures, in milliseconds. -/
def delayMs (failures randomValue : ℕ) : ℕ :=
  let exponent := if 6 < failures then 6 else failures
  let base := 1000 * 2 ^ exponent
  let capped := if 60000 < base then 60000 else base
  let jitterWidth := capped / 4 + 1
  let delay := capped - capped / 8 + randomValue % jitterWidth
  if 60000 < delay then 60000 else delay

/-- `pm_telemetry_backoff_fail`; `delayMs` is what it returns. -/
def fail (b : TelemetryBackoff) (nowUs : ℤ) (randomValue : ℕ) : TelemetryBackoff where
  failures := if b.failures ≠ uint32Max then b.failures + 1 else b.failures
  nextAttemptUs := nowUs + delayMs b.failures randomValue * 1000

/-- `pm_telemetry_backoff_due`. -/
def due (b : TelemetryBackoff) (nowUs : ℤ) : Bool := b.nextAttemptUs ≤ nowUs

@[simp] theorem reset_failures (nowUs : ℤ) : (reset nowUs).failures = 0 := rfl

theorem le_fail_failures (b : TelemetryBackoff) (nowUs : ℤ) (randomValue : ℕ) :
    b.failures ≤ (b.fail nowUs randomValue).failures := by
  unfold fail
  dsimp only
  split <;> omega

end TelemetryBackoff

/-- `pm_telemetry_next_fixed_deadline`. -/
def nextFixedDeadline (previousDeadlineUs nowUs periodUs : ℤ) : ℤ :=
  if previousDeadlineUs < 0 ∨ nowUs < 0 ∨ periodUs ≤ 0 then nowUs
  else if nowUs < previousDeadlineUs then previousDeadlineUs
  else
    let elapsedUs := nowUs - previousDeadlineUs
    let periods := elapsedUs.tdiv periodUs + 1
    if (int64Max - previousDeadlineUs).tdiv periodUs < periods then int64Max
    else previousDeadlineUs + periods * periodUs

/-- `pm_network_scheduler_t`. -/
structure NetworkScheduler where
  nextTelemetryUs : ℤ
  telemetryPeriodUs : ℤ
  serverBackoff : TelemetryBackoff
  requestInProgress : Bool
  deriving DecidableEq

namespace NetworkScheduler

/-- `pm_network_scheduler_init`. -/
def init (nowUs : ℤ) (telemetrySeconds : ℕ) : NetworkScheduler where
  nextTelemetryUs := nowUs
  telemetryPeriodUs :=
    ((if telemetrySeconds < 2 then 2 else if 60 < telemetrySeconds then 60 else telemetrySeconds :
      ℕ) : ℤ) * 1000000
  serverBackoff := .reset nowUs
  requestInProgress := false

/-- `pm_network_telemetry_due`. -/
def telemetryDue (s : NetworkScheduler) (nowUs : ℤ) : Bool :=
  !s.requestInProgress && s.nextTelemetryUs ≤ nowUs && s.serverBackoff.due nowUs

/-- `pm_network_telemetry_complete`. -/
def telemetryComplete (s : NetworkScheduler) (nowUs : ℤ) (success : Bool) (randomValue : ℕ) :
    NetworkScheduler :=
  if success then
    { s with
      requestInProgress := false
      serverBackoff := .reset nowUs
      nextTelemetryUs := nextFixedDeadline s.nextTelemetryUs nowUs s.telemetryPeriodUs }
  else
    { s with
      requestInProgress := false
      serverBackoff := s.serverBackoff.fail nowUs randomValue
      nextTelemetryUs :=
        nowUs + TelemetryBackoff.delayMs s.serverBackoff.failures randomValue * 1000 }

end NetworkScheduler

end PowerMonitor.Telemetry
