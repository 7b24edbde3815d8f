import PowerMonitor.Foundations.Runs
import PowerMonitor.Telemetry.Deadline

/-!
# The cadence of the requests

Runs of the scheduler of the network task: it starts a request only when one is due, the request
ends with any outcome, and the period may be changed at any time within its bounds.

* `TelemetryBackoff.delayMs_bounds` and `delayMs_lt` are the windows of the backoff delays.
* `Cadence.Invariant` is what every run keeps: while a request is in progress, both deadlines are
  past.
* `cadence_bounded`: after a request the next one is due within a minute, and not before its time.
-/

namespace PowerMonitor.Telemetry

open Runs

/-! ## The delays of a backoff -/

namespace TelemetryBackoff

/-- The middle of the window of the delays after so many failures, in milliseconds. -/
def cappedMs (failures : ℕ) : ℕ := min (1000 * 2 ^ min failures 6) 60000

theorem delayMs_window (failures randomValue : ℕ) :
    cappedMs failures - cappedMs failures / 8 ≤ delayMs failures randomValue ∧
      delayMs failures randomValue ≤
        min (cappedMs failures - cappedMs failures / 8 + cappedMs failures / 4) 60000 := by
  have hcapped : (if 60000 < 1000 * 2 ^ (if 6 < failures then 6 else failures) then 60000
      else 1000 * 2 ^ (if 6 < failures then 6 else failures)) = cappedMs failures := by
    have hexponent : (if 6 < failures then 6 else failures) = min failures 6 := by
      split <;> omega
    rw [hexponent, cappedMs]
    split <;> omega
  simp only [delayMs, hcapped]
  have hle : cappedMs failures ≤ 60000 := Nat.min_le_right _ _
  have hjitter := Nat.mod_lt randomValue (show 0 < cappedMs failures / 4 + 1 by omega)
  split <;> omega

theorem cappedMs_mono {m n : ℕ} (h : m ≤ n) : cappedMs m ≤ cappedMs n := by
  have hpow := Nat.pow_le_pow_right (show 0 < 2 by decide) (show min m 6 ≤ min n 6 by omega)
  unfold cappedMs
  omega

/-- Every delay lies between 875 and 60000 ms. -/
theorem delayMs_bounds (failures randomValue : ℕ) :
    875 ≤ delayMs failures randomValue ∧ delayMs failures randomValue ≤ 60000 := by
  have hwindow := delayMs_window failures randomValue
  have hcapped : 1000 ≤ cappedMs failures := cappedMs_mono (Nat.zero_le failures)
  omega

/-- Up to the seventh failure the windows of the delays do not meet. -/
theorem delayMs_lt {m n : ℕ} (hmn : m < n) (hn : n < 7) (r r' : ℕ) : delayMs m r < delayMs n r' := by
  have hm := (delayMs_window m r).2
  have hn' := (delayMs_window n r').1
  have hstep : cappedMs m - cappedMs m / 8 + cappedMs m / 4 <
      cappedMs (m + 1) - cappedMs (m + 1) / 8 := by
    have hcases : ∀ k < 6, cappedMs k - cappedMs k / 8 + cappedMs k / 4 <
        cappedMs (k + 1) - cappedMs (k + 1) / 8 := by decide
    exact hcases m (by omega)
  have hmono := cappedMs_mono (show m + 1 ≤ n from hmn)
  omega

/-- From the seventh failure on the window stays the same. -/
theorem delayMs_of_le {failures : ℕ} (h : 6 ≤ failures) (randomValue : ℕ) :
    delayMs failures randomValue = delayMs 6 randomValue := by
  have hexponent : (if 6 < failures then 6 else failures) = 6 := by split <;> omega
  unfold delayMs
  rw [hexponent]
  rfl

end TelemetryBackoff

/-! ## Runs -/

/-- The scheduler, the clock at the last event, and the delays of the failures since the last
success, in milliseconds. -/
structure Cadence where
  scheduler : NetworkScheduler
  clockUs : ℤ
  delaysMs : List ℕ

/-- What happens to the scheduler. -/
inductive CadenceEvent
  | setPeriod (seconds : ℕ)
  | start (nowUs : ℤ)
  | complete (nowUs : ℤ) (success : Bool) (randomValue : ℕ)

namespace Cadence

/-- The scheduler as `pm_network_scheduler_init` leaves it. -/
def init (nowUs : ℤ) (telemetrySeconds : ℕ) : Cadence where
  scheduler := .init nowUs telemetrySeconds
  clockUs := nowUs
  delaysMs := []

/-- One event. -/
def step (s : Cadence) : CadenceEvent → Cadence
  | .setPeriod seconds =>
    { s with scheduler := { s.scheduler with telemetryPeriodUs := seconds * 1000000 } }
  | .start nowUs =>
    { s with scheduler := { s.scheduler with requestInProgress := true }, clockUs := nowUs }
  | .complete nowUs success randomValue =>
    { scheduler := s.scheduler.telemetryComplete nowUs success randomValue
      clockUs := nowUs
      delaysMs :=
        if success then []
        else s.delaysMs ++
          [TelemetryBackoff.delayMs s.scheduler.serverBackoff.failures randomValue] }

/-- The clock goes on to `nowUs`, and is not within a minute of its last value. -/
def Ticks (s : Cadence) (nowUs : ℤ) : Prop := s.clockUs ≤ nowUs ∧ nowUs ≤ int64Max - 60000000

instance (s : Cadence) (nowUs : ℤ) : Decidable (s.Ticks nowUs) := inferInstanceAs (Decidable (_ ∧ _))

/-- A request starts when it is due, one that is in progress completes, and periods are from two to
sixty seconds. -/
def Allowed (s : Cadence) : CadenceEvent → Prop
  | .setPeriod seconds => 2 ≤ seconds ∧ seconds ≤ 60
  | .start nowUs => s.Ticks nowUs ∧ s.scheduler.telemetryDue nowUs = true
  | .complete nowUs _ _ => s.Ticks nowUs ∧ s.scheduler.requestInProgress = true

instance (s : Cadence) : ∀ e, Decidable (s.Allowed e)
  | .setPeriod seconds => inferInstanceAs (Decidable (2 ≤ seconds ∧ seconds ≤ 60))
  | .start nowUs =>
    inferInstanceAs (Decidable (s.Ticks nowUs ∧ s.scheduler.telemetryDue nowUs = true))
  | .complete nowUs _ _ =>
    inferInstanceAs (Decidable (s.Ticks nowUs ∧ s.scheduler.requestInProgress = true))

/-- When requests are due after one that ended at `nowUs`: none up to then, none for 875 ms after a
failure, and one from a minute later on. -/
structure DueWithin (s : Cadence) (nowUs : ℤ) (success : Bool) : Prop where
  not_due : ∀ t ≤ nowUs, s.scheduler.telemetryDue t = false
  not_due_failure : success = false → ∀ t < nowUs + 875000, s.scheduler.telemetryDue t = false
  due : ∀ t, nowUs + 60000000 ≤ t → s.scheduler.telemetryDue t = true

/-- The bounds that a completed request keeps: those of the next one, the grid of the period after a
success, and the delays of the failures since the last success. The deadlines fit in `int64_t`. -/
def Bounded (s : Cadence) : CadenceEvent → Prop
  | .complete nowUs success randomValue =>
    let s' := s.step (.complete nowUs success randomValue)
    s'.DueWithin nowUs success ∧
      (success = true → ∃ k : ℤ, 0 < k ∧ s'.scheduler.nextTelemetryUs =
        s.scheduler.nextTelemetryUs + k * s.scheduler.telemetryPeriodUs) ∧
      (∀ d ∈ s'.delaysMs, 875 ≤ d ∧ d ≤ 60000) ∧ (s'.delaysMs.take 7).Pairwise (· < ·) ∧
      s'.scheduler.nextTelemetryUs ≤ int64Max ∧
      s'.scheduler.serverBackoff.nextAttemptUs ≤ int64Max
  | _ => True

/-! ## The invariant -/

/-- Each delay is the one after as many failures as there are delays before it. -/
def IsBackoff (delaysMs : List ℕ) : Prop :=
  ∀ i d, delaysMs[i]? = some d → ∃ r, d = TelemetryBackoff.delayMs i r

theorem isBackoff_nil : IsBackoff [] := by
  intro i d h
  rw [List.getElem?_nil] at h
  cases h

theorem IsBackoff.append {delaysMs : List ℕ} (h : IsBackoff delaysMs) (randomValue : ℕ) :
    IsBackoff (delaysMs ++ [TelemetryBackoff.delayMs delaysMs.length randomValue]) := by
  intro i d hi
  rw [List.getElem?_append] at hi
  split at hi
  next hlt => exact h i d hi
  next hge =>
    obtain ⟨hzero, rfl⟩ := List.getElem?_eq_some_iff.1 hi
    have hlength : i = delaysMs.length := by
      rw [List.length_singleton] at hzero
      omega
    subst hlength
    exact ⟨randomValue, by simp⟩

theorem IsBackoff.bounds {delaysMs : List ℕ} (h : IsBackoff delaysMs) :
    ∀ d ∈ delaysMs, 875 ≤ d ∧ d ≤ 60000 := by
  intro d hd
  obtain ⟨i, hi⟩ := List.mem_iff_getElem?.1 hd
  obtain ⟨r, rfl⟩ := h i d hi
  exact TelemetryBackoff.delayMs_bounds i r

theorem IsBackoff.pairwise {delaysMs : List ℕ} (h : IsBackoff delaysMs) :
    (delaysMs.take 7).Pairwise (· < ·) := by
  rw [List.pairwise_iff_getElem]
  intro i j hi hj hij
  have hseven : j < 7 := lt_of_lt_of_le hj (List.length_take_le 7 delaysMs)
  rw [List.getElem_take, List.getElem_take]
  obtain ⟨r, hr⟩ := h i _ (List.getElem?_eq_getElem _)
  obtain ⟨r', hr'⟩ := h j _ (List.getElem?_eq_getElem _)
  rw [hr, hr']
  exact TelemetryBackoff.delayMs_lt hij hseven r r'

/-- What every run keeps. -/
structure Invariant (s : Cadence) : Prop where
  clock : 0 ≤ s.clockUs
  next : 0 ≤ s.scheduler.nextTelemetryUs
  period : 2000000 ≤ s.scheduler.telemetryPeriodUs ∧ s.scheduler.telemetryPeriodUs ≤ 60000000
  past : s.scheduler.requestInProgress = true → s.scheduler.nextTelemetryUs ≤ s.clockUs
  failures : s.scheduler.serverBackoff.failures = min s.delaysMs.length uint32Max
  backoff : IsBackoff s.delaysMs

theorem invariant_init {nowUs : ℤ} (h : 0 ≤ nowUs) (telemetrySeconds : ℕ) :
    (init nowUs telemetrySeconds).Invariant where
  clock := h
  next := h
  period := by
    simp only [init, NetworkScheduler.init]
    split
    · omega
    · split <;> omega
  past := by intro hf; cases hf
  failures := rfl
  backoff := isBackoff_nil

variable {s : Cadence}

/-- The number of failures is stored in 32 bits, which the delay does not notice. -/
theorem Invariant.delayMs (hs : s.Invariant) (randomValue : ℕ) :
    TelemetryBackoff.delayMs s.scheduler.serverBackoff.failures randomValue =
      TelemetryBackoff.delayMs s.delaysMs.length randomValue := by
  rw [hs.failures]
  by_cases hle : s.delaysMs.length ≤ uint32Max
  · rw [Nat.min_eq_left hle]
  · have hsix : 6 ≤ uint32Max := by decide
    rw [Nat.min_eq_right (by omega), TelemetryBackoff.delayMs_of_le hsix,
      TelemetryBackoff.delayMs_of_le (show 6 ≤ s.delaysMs.length by omega)]

/-- After a success the next deadline is on the grid of the period, the first one later than now. -/
theorem Invariant.nextFixedDeadline (hs : s.Invariant) {nowUs : ℤ} (hnow : s.Ticks nowUs)
    (hpast : s.scheduler.requestInProgress = true) : ∃ k : ℤ, 0 < k ∧
      Telemetry.nextFixedDeadline s.scheduler.nextTelemetryUs nowUs s.scheduler.telemetryPeriodUs =
        s.scheduler.nextTelemetryUs + k * s.scheduler.telemetryPeriodUs ∧
      nowUs < s.scheduler.nextTelemetryUs + k * s.scheduler.telemetryPeriodUs ∧
      s.scheduler.nextTelemetryUs + k * s.scheduler.telemetryPeriodUs ≤ nowUs + 60000000 := by
  obtain ⟨hclock, hmax⟩ := hnow
  have hle := le_trans (hs.past hpast) hclock
  have hnext := hs.next
  obtain ⟨hperiod, hperiod'⟩ := hs.period
  have hdeadline := isNextDeadline_nextFixedDeadline hnext (le_trans hnext hle)
    (show 0 < s.scheduler.telemetryPeriodUs by omega) (by omega)
  unfold IsNextDeadline at hdeadline
  rw [if_neg (not_lt.2 hle)] at hdeadline
  obtain ⟨next, ⟨⟨hlater, k, hk, rfl⟩, hleast⟩, heq⟩ := hdeadline
  -- one period earlier the grid is not later than now, or it is the previous deadline itself
  have hbound : s.scheduler.nextTelemetryUs + k * s.scheduler.telemetryPeriodUs ≤
      nowUs + s.scheduler.telemetryPeriodUs := by
    by_contra! hfar
    have hbefore : s.scheduler.nextTelemetryUs + (k - 1) * s.scheduler.telemetryPeriodUs =
        s.scheduler.nextTelemetryUs + k * s.scheduler.telemetryPeriodUs -
          s.scheduler.telemetryPeriodUs := by
      rw [Int.sub_mul]
      omega
    have hone : k ≠ 1 := by
      rintro rfl
      omega
    have hmin := hleast ⟨show nowUs < s.scheduler.nextTelemetryUs +
      (k - 1) * s.scheduler.telemetryPeriodUs by omega, k - 1, by omega, rfl⟩
    omega
  refine ⟨k, hk, ?_, hlater, by omega⟩
  rw [heq, min_eq_left (by omega)]

theorem Invariant.step (hs : s.Invariant) {e : CadenceEvent} (he : s.Allowed e) :
    (s.step e).Invariant := by
  cases e with
  | setPeriod seconds =>
    obtain ⟨hmin, hmax⟩ := he
    exact { hs with period := by simp only [Cadence.step]; omega }
  | start nowUs =>
    obtain ⟨hnow, hdue⟩ := he
    simp only [NetworkScheduler.telemetryDue, Bool.and_eq_true, decide_eq_true_eq] at hdue
    exact { hs with clock := le_trans hs.clock hnow.1, past := fun _ => hdue.1.2 }
  | complete nowUs success randomValue =>
    obtain ⟨hnow, hprogress⟩ := he
    have hclock := le_trans hs.clock hnow.1
    cases success with
    | true =>
      obtain ⟨k, -, heq, hlater, -⟩ := hs.nextFixedDeadline hnow hprogress
      refine ⟨hclock, ?_, hs.period, fun hf => (by cases hf), rfl, isBackoff_nil⟩
      change 0 ≤ Telemetry.nextFixedDeadline _ _ _
      omega
    | false =>
      have hdelay := (TelemetryBackoff.delayMs_bounds s.scheduler.serverBackoff.failures
        randomValue).1
      refine ⟨hclock, ?_, hs.period, fun hf => (by cases hf), ?_, ?_⟩
      · change 0 ≤ nowUs + _ * 1000
        omega
      · have hfailures := hs.failures
        simp only [Cadence.step, NetworkScheduler.telemetryComplete, TelemetryBackoff.fail,
          Bool.false_eq_true, if_false, List.length_append, List.length_singleton]
        split <;> omega
      · simp only [Cadence.step, Bool.false_eq_true, if_false, hs.delayMs]
        exact hs.backoff.append randomValue

/-- When a request that is not in progress is due. -/
theorem telemetryDue_eq {n : NetworkScheduler} (h : n.requestInProgress = false) (t : ℤ) :
    n.telemetryDue t = decide (n.nextTelemetryUs ≤ t ∧ n.serverBackoff.nextAttemptUs ≤ t) := by
  simp [NetworkScheduler.telemetryDue, TelemetryBackoff.due, h]

theorem Invariant.bounded (hs : s.Invariant) {e : CadenceEvent} (he : s.Allowed e) :
    s.Bounded e := by
  cases e with
  | setPeriod seconds => trivial
  | start nowUs => trivial
  | complete nowUs success randomValue =>
    have hbackoff := (hs.step he).backoff
    obtain ⟨hnow, hprogress⟩ := he
    have hmax := hnow.2
    cases success with
    | true =>
      obtain ⟨k, hk, heq, hlater, hbound⟩ := hs.nextFixedDeadline hnow hprogress
      have hdue : ∀ t, (s.step (.complete nowUs true randomValue)).scheduler.telemetryDue t =
          decide (s.scheduler.nextTelemetryUs + k * s.scheduler.telemetryPeriodUs ≤ t ∧
            nowUs ≤ t) := by
        intro t
        rw [telemetryDue_eq rfl, ← heq]
        rfl
      refine ⟨⟨?_, fun hf => (by cases hf), ?_⟩, fun _ => ⟨k, hk, heq⟩, hbackoff.bounds,
        hbackoff.pairwise, heq.trans_le (by omega), show nowUs ≤ int64Max by omega⟩
      · intro t ht
        rw [hdue, decide_eq_false_iff_not]
        omega
      · intro t ht
        rw [hdue, decide_eq_true_eq]
        omega
    | false =>
      obtain ⟨hdelay, hdelay'⟩ := TelemetryBackoff.delayMs_bounds
        s.scheduler.serverBackoff.failures randomValue
      have hdue : ∀ t, (s.step (.complete nowUs false randomValue)).scheduler.telemetryDue t =
          decide (nowUs + TelemetryBackoff.delayMs s.scheduler.serverBackoff.failures randomValue *
            1000 ≤ t) := by
        intro t
        rw [telemetryDue_eq rfl]
        simp [Cadence.step, NetworkScheduler.telemetryComplete, TelemetryBackoff.fail]
      refine ⟨⟨?_, fun _ => ?_, ?_⟩, fun hf => (by cases hf), hbackoff.bounds, hbackoff.pairwise,
        ?_, ?_⟩
      · intro t ht
        rw [hdue, decide_eq_false_iff_not]
        omega
      · intro t ht
        rw [hdue, decide_eq_false_iff_not]
        omega
      · intro t ht
        rw [hdue, decide_eq_true_eq]
        omega
      · change nowUs + _ * 1000 ≤ int64Max
        omega
      · change nowUs + _ * 1000 ≤ int64Max
        omega

end Cadence

/-- **The cadence of the requests is bounded** along every run of the scheduler. -/
theorem cadence_bounded {nowUs : ℤ} (h : 0 ≤ nowUs) (telemetrySeconds : ℕ)
    (events : List CadenceEvent)
    (hallowed : Along Cadence.step Cadence.Allowed (.init nowUs telemetrySeconds) events) :
    Along Cadence.step Cadence.Bounded (.init nowUs telemetrySeconds) events :=
  Along.imp_of_invariant (I := Cadence.Invariant) (fun _ _ hs he => hs.step he)
    (fun _ _ hs he => hs.bounded he) (Cadence.invariant_init h telemetrySeconds) hallowed

/-- A request that fails, one that succeeds late, and another one with a new period. -/
def cadenceRun : List CadenceEvent :=
  [.start 0, .complete 100000 false 7, .start 2000000, .complete 17000000 true 0, .setPeriod 2,
    .start 20982000, .complete 20983000 true 3]

theorem cadenceRun_bounded : Along Cadence.step Cadence.Bounded (.init 0 5) cadenceRun :=
  cadence_bounded (by decide) 5 cadenceRun (by decide)

end PowerMonitor.Telemetry
