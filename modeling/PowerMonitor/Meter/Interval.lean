import Mathlib.Algebra.GroupWithZero.Nat
import Mathlib.Algebra.Order.BigOperators.Group.List
import Mathlib.Data.List.Induction
import PowerMonitor.Meter.Pzem
import PowerMonitor.Storage.Journal

/-!
# Intervals of measurements

`pm_measurement.c`: the samples of an interval are added to an accumulator, and the interval is
finalized into the averages, energies and flags of a journal record, in the machine integers of the
source.

* `Accumulates` says what an accumulator holds after any samples and silences; `accumulates_feed`
  that it does.
* `finalize_summarises`: an interval is the summary of the samples that were accepted, with their
  averages rounded down, and its flags are exactly the events that they stand for.
-/

namespace PowerMonitor.Meter

open Storage

/-! ## The accumulator -/

/-- `pm_meter_sample_t`, with what the measurement adds to the members of a frame. -/
structure TimedSample extends MeterSample where
  sampleTimestampUtcMs : Int64
  sampleMonotonicUs : Int64
  timeTrusted : Bool
  simulated : Bool
  deriving DecidableEq

/-- `PM_INTERVAL_FLAG_TIME_UNTRUSTED`. -/
def flagTimeUntrusted : UInt32 := (1 : UInt32) <<< 0
/-- `PM_INTERVAL_FLAG_MISSING_SAMPLE`. -/
def flagMissingSample : UInt32 := (1 : UInt32) <<< 1
/-- `PM_INTERVAL_FLAG_PZEM_RESET`. -/
def flagPzemReset : UInt32 := (1 : UInt32) <<< 2
/-- `PM_INTERVAL_FLAG_PZEM_ROLLOVER`. -/
def flagPzemRollover : UInt32 := (1 : UInt32) <<< 3
/-- `PM_INTERVAL_FLAG_IMPLAUSIBLE_JUMP`. -/
def flagImplausibleJump : UInt32 := (1 : UInt32) <<< 4
/-- `PM_INTERVAL_FLAG_CT_WARNING_80`. -/
def flagCtWarning80 : UInt32 := (1 : UInt32) <<< 5
/-- `PM_INTERVAL_FLAG_CT_CRITICAL_90`. -/
def flagCtCritical90 : UInt32 := (1 : UInt32) <<< 6
/-- `PM_INTERVAL_FLAG_SIMULATED`. -/
def flagSimulated : UInt32 := (1 : UInt32) <<< 7

/-- `PM_ENERGY_NONE`. -/
def energyNone : ℕ := 0
/-- `PM_ENERGY_PZEM_DELTA`. -/
def energyPzemDelta : ℕ := 1

/-- `pm_interval_accumulator_t`. -/
structure IntervalAccumulator where
  expectedSamples : UInt32
  validSamples : UInt32 := 0
  sumVoltageMv : UInt64 := 0
  sumCurrentMa : UInt64 := 0
  sumPowerMw : UInt64 := 0
  sumFrequencyMhz : UInt64 := 0
  sumPfMilli : UInt64 := 0
  firstEnergyWh : UInt64 := 0
  lastEnergyWh : UInt64 := 0
  trapezoidPowerMwMs : UInt64 := 0
  intervalStartUtcMs : Int64 := 0
  intervalEndUtcMs : Int64 := 0
  intervalStartMonotonicUs : Int64 := 0
  lastSampleMonotonicUs : Int64 := 0
  lastPowerMw : Int32 := 0
  flags : UInt32 := 0
  haveEnergy : Bool := false

/-- `pm_interval_init`. -/
def pmIntervalInit (expectedSamples : UInt32) : IntervalAccumulator where
  expectedSamples := expectedSamples

/-- What the power of one step adds to the integral: the mean of two samples, for a time of at most
a minute. -/
def trapezoidStep (lastUs nowUs : Int64) (lastMw nowMw : Int32) : UInt64 :=
  let elapsedUs := nowUs - lastUs
  if 0 < elapsedUs ∧ elapsedUs ≤ 60000000 then
    let meanPowerMw := (lastMw + nowMw).toInt64.toUInt64 / 2
    meanPowerMw * elapsedUs.toUInt64 / 1000
  else 0

/-- The branch of `pm_interval_add` that tells the first sample from the others. -/
def IntervalAccumulator.follow (a : IntervalAccumulator) (s : TimedSample) : IntervalAccumulator :=
  if a.validSamples = 0 then
    { a with
      firstEnergyWh := s.energyWh
      intervalStartUtcMs := s.sampleTimestampUtcMs
      intervalStartMonotonicUs := s.sampleMonotonicUs
      lastSampleMonotonicUs := s.sampleMonotonicUs
      lastPowerMw := s.activePowerMw
      haveEnergy := true }
  else
    { a with
      trapezoidPowerMwMs := a.trapezoidPowerMwMs +
        trapezoidStep a.lastSampleMonotonicUs s.sampleMonotonicUs a.lastPowerMw s.activePowerMw
      lastSampleMonotonicUs := s.sampleMonotonicUs
      lastPowerMw := s.activePowerMw }

/-- The flag of a current near the rating of the current transformer. -/
def ctFlag (currentMa : UInt32) (ctRatingA : UInt16) : UInt32 :=
  let ratedMa := ctRatingA.toUInt32 * 1000
  if ratedMa * 9 / 10 ≤ currentMa then flagCtCritical90
  else if ratedMa * 8 / 10 ≤ currentMa then flagCtWarning80
  else 0

/-- The flags that `pm_interval_add` sets for a sample that it accepts. -/
def sampleFlags (s : TimedSample) (ctRatingA : UInt16) : UInt32 :=
  (if s.timeTrusted then 0 else flagTimeUntrusted) ||| (if s.simulated then flagSimulated else 0) |||
    ctFlag s.currentMa.toUInt32 ctRatingA

/-- The first check of `pm_interval_add`. -/
def Accepted (s : TimedSample) (ctRatingA : UInt16) : Prop :=
  s.status = .ok ∧ pmMeterSampleValid s.toMeterSample ctRatingA = true

instance (s : TimedSample) (ctRatingA : UInt16) : Decidable (Accepted s ctRatingA) := by
  unfold Accepted
  infer_instance

/-- The rest of `pm_interval_add` for a sample that is accepted. -/
def IntervalAccumulator.count (a : IntervalAccumulator) (s : TimedSample) (flags : UInt32) :
    IntervalAccumulator :=
  { a with
    lastEnergyWh := s.energyWh
    intervalEndUtcMs := s.sampleTimestampUtcMs
    sumVoltageMv := a.sumVoltageMv + s.voltageMv.toUInt32.toUInt64
    sumCurrentMa := a.sumCurrentMa + s.currentMa.toUInt32.toUInt64
    sumPowerMw := a.sumPowerMw + s.activePowerMw.toUInt32.toUInt64
    sumFrequencyMhz := a.sumFrequencyMhz + s.frequencyMhz.toUInt32.toUInt64
    sumPfMilli := a.sumPfMilli + s.powerFactorMilli.toUInt32.toUInt64
    validSamples := a.validSamples + 1
    flags := a.flags ||| flags }

/-- `pm_interval_add`. -/
def pmIntervalAdd (a : IntervalAccumulator) (s : TimedSample) (ctRatingA : UInt16) :
    Bool × IntervalAccumulator :=
  if Accepted s ctRatingA then (true, (a.follow s).count s (sampleFlags s ctRatingA))
  else (false, { a with flags := a.flags ||| flagMissingSample })

/-- The energy that `pm_interval_finalize` selects, its source, and the flags that say why not. -/
def selectEnergy (a : IntervalAccumulator) (maximumPlausibleMwh : UInt64) : ℕ × ℕ × UInt32 :=
  if ¬(2 ≤ a.validSamples ∧ a.intervalStartMonotonicUs < a.lastSampleMonotonicUs) then
    (0, energyNone, flagMissingSample)
  else if a.firstEnergyWh ≤ a.lastEnergyWh then
    let deltaMwh := (a.lastEnergyWh - a.firstEnergyWh) * 1000
    if deltaMwh ≤ maximumPlausibleMwh then (deltaMwh.toNat, energyPzemDelta, 0)
    else (0, energyNone, flagImplausibleJump)
  else if 0xF0000000 < a.firstEnergyWh ∧ a.lastEnergyWh < 0x0FFFFFFF then
    let deltaWh := ((1 : UInt64) <<< 32) - a.firstEnergyWh + a.lastEnergyWh
    if deltaWh * 1000 ≤ maximumPlausibleMwh then
      ((deltaWh * 1000).toNat, energyPzemDelta, flagPzemRollover)
    else (0, energyNone, flagPzemRollover)
  else (0, energyNone, flagPzemReset)

/-- The average of a sum, narrowed to 32 bits. -/
def meanOf (sum : UInt64) (count : UInt32) : ℤ := (sum / count.toUInt64).toUInt32.toInt32.toInt

/-- The completeness of `pm_interval_finalize`. -/
def completeness (count expected : UInt32) : ℕ :=
  let permille := count.toUInt64 * 1000 / (if expected = 0 then count else expected).toUInt64
  (if 1000 < permille then 1000 else permille).toUInt16.toNat

/-- `pm_interval_finalize`: the interval, if there is one, and the accumulator it leaves. -/
def pmIntervalFinalize (a : IntervalAccumulator) (maximumPlausibleMwh : UInt64) :
    Option DurableInterval × IntervalAccumulator :=
  if a.validSamples = 0 then (none, a)
  else
    let energy := selectEnergy a maximumPlausibleMwh
    (some {
      voltageMv := meanOf a.sumVoltageMv a.validSamples
      currentMa := meanOf a.sumCurrentMa a.validSamples
      activePowerMw := meanOf a.sumPowerMw a.validSamples
      frequencyMhz := meanOf a.sumFrequencyMhz a.validSamples
      powerFactorMilli := meanOf a.sumPfMilli a.validSamples
      pzemEnergyStartWh := a.firstEnergyWh.toNat
      pzemEnergyEndWh := a.lastEnergyWh.toNat
      selectedEnergyMwh := energy.1
      diagnosticEnergyMwh := (a.trapezoidPowerMwMs / 3600000).toNat
      sampleCount := a.validSamples.toNat
      expectedSamples := a.expectedSamples.toNat
      completenessPermille := completeness a.validSamples a.expectedSamples
      selectedEnergySource := energy.2.1
      flags := (a.flags ||| energy.2.2).toNat
      startUtcMs := a.intervalStartUtcMs.toInt
      endUtcMs := a.intervalEndUtcMs.toInt
      startMonotonicUs := a.intervalStartMonotonicUs.toInt
      endMonotonicUs := a.lastSampleMonotonicUs.toInt },
    pmIntervalInit a.expectedSamples)

/-! ## Samples and silences -/

/-- What `interval_task` has for the accumulator in one round: a sample of the queue and the rating
that is configured, or nothing for a second. -/
inductive IntervalEvent
  | sample (s : TimedSample) (ctRatingA : UInt16)
  | silence

/-- The first lines of a round of `interval_task`. -/
def receive (a : IntervalAccumulator) : IntervalEvent → IntervalAccumulator
  | .sample s ctRatingA => (pmIntervalAdd a s ctRatingA).2
  | .silence => { a with flags := a.flags ||| flagMissingSample }

/-- The sample that an event adds to the interval. -/
def IntervalEvent.accepted : IntervalEvent → Option TimedSample
  | .sample s ctRatingA => if Accepted s ctRatingA then some s else none
  | .silence => none

/-- The flags that an event sets. -/
def IntervalEvent.flags : IntervalEvent → UInt32
  | .sample s ctRatingA => if Accepted s ctRatingA then sampleFlags s ctRatingA else flagMissingSample
  | .silence => flagMissingSample

/-- The samples that were accepted. -/
def samples (events : List IntervalEvent) : List TimedSample := events.filterMap IntervalEvent.accepted

/-- The sum of a value over samples. -/
def total (value : TimedSample → Int32) (l : List TimedSample) : ℕ :=
  (l.map fun s => (value s).toNatClampNeg).sum

/-- The integral of the power over samples, as the accumulator adds it up. -/
def integral : List TimedSample → UInt64
  | s :: s' :: l =>
    trapezoidStep s.sampleMonotonicUs s'.sampleMonotonicUs s.activePowerMw s'.activePowerMw +
      integral (s' :: l)
  | _ => 0

section

variable {a : IntervalAccumulator} {e : IntervalEvent} {s : TimedSample} {expected : UInt32}
  {events : List IntervalEvent} {l : List TimedSample}

theorem receive_accepted (h : e.accepted = some s) : receive a e = (a.follow s).count s e.flags := by
  cases e with
  | silence => cases h
  | sample s' ctRatingA =>
    rw [IntervalEvent.accepted] at h
    obtain ⟨hs, heq⟩ := Option.ite_none_right_eq_some.1 h
    cases heq
    simp only [receive, pmIntervalAdd, IntervalEvent.flags, if_pos hs]

theorem receive_refused (h : e.accepted = none) :
    receive a e = { a with flags := a.flags ||| e.flags } := by
  cases e with
  | silence => rfl
  | sample s' ctRatingA =>
    have hs : ¬Accepted s' ctRatingA := by
      intro hs
      rw [IntervalEvent.accepted, if_pos hs] at h
      cases h
    simp only [receive, pmIntervalAdd, IntervalEvent.flags, if_neg hs]

@[simp] theorem samples_append (events events' : List IntervalEvent) :
    samples (events ++ events') = samples events ++ samples events' :=
  List.filterMap_append

theorem samples_accepted (h : e.accepted = some s) : samples [e] = [s] := by simp [samples, h]

theorem samples_refused (h : e.accepted = none) : samples [e] = [] := by simp [samples, h]

theorem length_samples_le (events : List IntervalEvent) : (samples events).length ≤ events.length :=
  List.length_filterMap_le _ _

theorem total_le (value : TimedSample → Int32) (l : List TimedSample) :
    total value l ≤ l.length * (2 ^ 31 - 1) := by
  induction l with
  | nil => simp [total]
  | cons s l ih =>
    have hs := (value s).toNatClampNeg_lt
    have hcons : total value (s :: l) = (value s).toNatClampNeg + total value l := by simp [total]
    rw [hcons, List.length_cons]
    omega

theorem integral_append (l : List TimedSample) (s s' : TimedSample) :
    integral (l ++ [s] ++ [s']) = integral (l ++ [s]) +
      trapezoidStep s.sampleMonotonicUs s'.sampleMonotonicUs s.activePowerMw s'.activePowerMw := by
  induction l with
  | nil => simp [integral]
  | cons x l ih =>
    cases l with
    | nil => simp [integral]
    | cons y l =>
      rw [List.cons_append, List.cons_append, List.cons_append, List.cons_append, integral, integral,
        UInt64.add_assoc]
      exact congrArg _ ih

/-- What a sample that is accepted is known to be. -/
structure TimedSample.Sound (s : TimedSample) : Prop where
  voltage : 0 ≤ s.voltageMv
  current : 0 ≤ s.currentMa
  power : 0 ≤ s.activePowerMw
  powerMax : s.activePowerMw ≤ 30000000
  frequency : 0 ≤ s.frequencyMhz
  powerFactor : 0 ≤ s.powerFactorMilli

theorem Accepted.sound {ctRatingA : UInt16} (h : Accepted s ctRatingA) : s.Sound := by
  have hvalid := h.2
  simp only [pmMeterSampleValid, Bool.and_eq_true, decide_eq_true_eq] at hvalid
  obtain ⟨⟨⟨⟨⟨⟨⟨⟨⟨⟨-, hv⟩, -⟩, hc⟩, -⟩, hp⟩, hpmax⟩, hf⟩, -⟩, hpf⟩, -⟩ := hvalid
  exact ⟨hv, hc, hp, hpmax, Int32.le_trans (by decide) hf, hpf⟩

theorem sound_of_accepted (h : e.accepted = some s) : s.Sound := by
  cases e with
  | silence => cases h
  | sample s' ctRatingA =>
    rw [IntervalEvent.accepted] at h
    obtain ⟨hs, heq⟩ := Option.ite_none_right_eq_some.1 h
    cases heq
    exact hs.sound

/-! ## What an accumulator holds -/

/-- What an accumulator holds after some events. -/
structure Accumulates (expected : UInt32) (events : List IntervalEvent) (a : IntervalAccumulator) :
    Prop where
  expected : a.expectedSamples = expected
  count : a.validSamples.toNat = (samples events).length
  voltage : a.sumVoltageMv.toNat = total (·.voltageMv) (samples events)
  current : a.sumCurrentMa.toNat = total (·.currentMa) (samples events)
  power : a.sumPowerMw.toNat = total (·.activePowerMw) (samples events)
  frequency : a.sumFrequencyMhz.toNat = total (·.frequencyMhz) (samples events)
  powerFactor : a.sumPfMilli.toNat = total (·.powerFactorMilli) (samples events)
  powerIntegral : a.trapezoidPowerMwMs = integral (samples events)
  first : ∀ s ∈ (samples events).head?, a.firstEnergyWh = s.energyWh ∧
    a.intervalStartUtcMs = s.sampleTimestampUtcMs ∧ a.intervalStartMonotonicUs = s.sampleMonotonicUs
  last : ∀ s ∈ (samples events).getLast?, a.lastEnergyWh = s.energyWh ∧
    a.intervalEndUtcMs = s.sampleTimestampUtcMs ∧ a.lastSampleMonotonicUs = s.sampleMonotonicUs ∧
    a.lastPowerMw = s.activePowerMw
  flags : a.flags = (events.map IntervalEvent.flags).foldl (· ||| ·) 0

/-- A sum does not wrap around while there are fewer than `2 ^ 32` samples. -/
theorem toNat_sum_add {sum : UInt64} {x : Int32} {n m : ℕ} (hsum : sum.toNat = m)
    (hm : m ≤ n * (2 ^ 31 - 1)) (hn : n < 2 ^ 32) (hx : 0 ≤ x) :
    (sum + x.toUInt32.toUInt64).toNat = m + x.toNatClampNeg := by
  have hlt := x.toNatClampNeg_lt
  rw [UInt64.toNat_add, UInt32.toNat_toUInt64, Int32.toNat_toUInt32_of_le hx, hsum]
  omega

theorem accumulates_init (expected : UInt32) : Accumulates expected [] (pmIntervalInit expected) where
  expected := rfl
  count := rfl
  voltage := rfl
  current := rfl
  power := rfl
  frequency := rfl
  powerFactor := rfl
  powerIntegral := rfl
  first := by simp [samples]
  last := by simp [samples]
  flags := rfl

theorem Accumulates.validSamples_eq_zero (h : Accumulates expected events a) :
    a.validSamples = 0 ↔ samples events = [] := by
  rw [← UInt32.toNat_inj, h.count, UInt32.toNat_zero, List.length_eq_zero_iff]

/-- What `follow` does for the first sample and for any other. -/
theorem Accumulates.follow (h : Accumulates expected events a) (s : TimedSample) :
    (a.follow s).trapezoidPowerMwMs = integral (samples events ++ [s]) ∧
      ∀ s' ∈ (samples events ++ [s]).head?, (a.follow s).firstEnergyWh = s'.energyWh ∧
        (a.follow s).intervalStartUtcMs = s'.sampleTimestampUtcMs ∧
        (a.follow s).intervalStartMonotonicUs = s'.sampleMonotonicUs := by
  unfold IntervalAccumulator.follow
  rcases (samples events).eq_nil_or_concat with hnil | ⟨l, x, hl⟩
  · have hzero : a.trapezoidPowerMwMs = 0 := by
      rw [h.powerIntegral, hnil]
      rfl
    rw [if_pos (h.validSamples_eq_zero.2 hnil), hnil]
    refine ⟨hzero, fun s' hs' => ?_⟩
    obtain rfl : s = s' := by simpa using hs'
    exact ⟨rfl, rfl, rfl⟩
  · rw [List.concat_eq_append] at hl
    have hne : ¬a.validSamples = 0 := by
      rw [h.validSamples_eq_zero, hl]
      simp
    obtain ⟨-, -, hlast, hpower⟩ := h.last x (by rw [hl, List.getLast?_concat]; rfl)
    rw [if_neg hne]
    refine ⟨?_, fun s' hs' => h.first s' ?_⟩
    · dsimp only
      rw [hl, integral_append, ← hl, ← h.powerIntegral, ← hlast, ← hpower]
    · rw [hl, List.head?_append_of_ne_nil _ (by simp)] at hs'
      rwa [hl]

/-- **One round of the accumulator.** -/
theorem Accumulates.receive (h : Accumulates expected events a) (hlength : events.length < 2 ^ 32 - 1)
    (e : IntervalEvent) : Accumulates expected (events ++ [e]) (receive a e) := by
  have hn : (samples events).length < 2 ^ 32 - 1 :=
    Nat.lt_of_le_of_lt (length_samples_le events) hlength
  have hflags : a.flags ||| e.flags = ((events ++ [e]).map IntervalEvent.flags).foldl (· ||| ·) 0 := by
    rw [List.map_append, List.foldl_append, ← h.flags]
    rfl
  cases hs : e.accepted with
  | none =>
    rw [receive_refused hs]
    have hsame : samples (events ++ [e]) = samples events := by
      rw [samples_append, samples_refused hs, List.append_nil]
    constructor <;> simp only [hsame]
    · exact h.expected
    · exact h.count
    · exact h.voltage
    · exact h.current
    · exact h.power
    · exact h.frequency
    · exact h.powerFactor
    · exact h.powerIntegral
    · exact h.first
    · exact h.last
    · exact hflags
  | some s =>
    rw [receive_accepted hs]
    have hmore : samples (events ++ [e]) = samples events ++ [s] := by
      rw [samples_append, samples_accepted hs]
    have hsound := sound_of_accepted hs
    have hn' : (samples events).length < 2 ^ 32 := by omega
    have hfollow : (a.follow s).validSamples = a.validSamples ∧ (a.follow s).flags = a.flags ∧
        (a.follow s).expectedSamples = a.expectedSamples ∧
        (a.follow s).sumVoltageMv = a.sumVoltageMv ∧ (a.follow s).sumCurrentMa = a.sumCurrentMa ∧
        (a.follow s).sumPowerMw = a.sumPowerMw ∧
        (a.follow s).sumFrequencyMhz = a.sumFrequencyMhz ∧
        (a.follow s).sumPfMilli = a.sumPfMilli ∧
        (a.follow s).lastSampleMonotonicUs = s.sampleMonotonicUs ∧
        (a.follow s).lastPowerMw = s.activePowerMw := by
      unfold IntervalAccumulator.follow
      split <;> exact ⟨rfl, rfl, rfl, rfl, rfl, rfl, rfl, rfl, rfl, rfl⟩
    obtain ⟨fcount, fflags, fexpected, fvoltage, fcurrent, fpower, ffrequency, fpf, flast, flastPower⟩ :=
      hfollow
    have hsum (value : TimedSample → Int32) : total value (samples events ++ [s]) =
        total value (samples events) + (value s).toNatClampNeg := by
      simp [total]
    constructor <;> simp only [hmore, IntervalAccumulator.count, hsum, List.length_append,
      List.length_singleton]
    · rw [fexpected, h.expected]
    · rw [fcount, UInt32.toNat_add, h.count]
      exact Nat.mod_eq_of_lt (by rw [UInt32.toNat_one]; omega)
    · rw [fvoltage]
      exact toNat_sum_add h.voltage (total_le _ _) hn' hsound.voltage
    · rw [fcurrent]
      exact toNat_sum_add h.current (total_le _ _) hn' hsound.current
    · rw [fpower]
      exact toNat_sum_add h.power (total_le _ _) hn' hsound.power
    · rw [ffrequency]
      exact toNat_sum_add h.frequency (total_le _ _) hn' hsound.frequency
    · rw [fpf]
      exact toNat_sum_add h.powerFactor (total_le _ _) hn' hsound.powerFactor
    · exact (h.follow s).1
    · exact (h.follow s).2
    · intro s' hs'
      rw [List.getLast?_concat, Option.mem_some_iff] at hs'
      subst hs'
      exact ⟨rfl, rfl, flast, flastPower⟩
    · rw [fflags, hflags]

/-- The accumulator of an interval after some events. -/
def feed (expected : UInt32) (events : List IntervalEvent) : IntervalAccumulator :=
  events.foldl Meter.receive (pmIntervalInit expected)

theorem accumulates_feed (expected : UInt32) (events : List IntervalEvent)
    (hlength : events.length < 2 ^ 32) : Accumulates expected events (feed expected events) := by
  induction events using List.reverseRecOn with
  | nil => exact accumulates_init expected
  | append_singleton events e ih =>
    rw [List.length_append, List.length_singleton] at hlength
    rw [feed, List.foldl_append]
    exact (ih (by omega)).receive (by omega) e

end

/-! ## Flags -/

/-- A set of flags has one of them. -/
def Has (flags flag : UInt32) : Prop := flags &&& flag ≠ 0

instance (flags flag : UInt32) : Decidable (Has flags flag) := by
  unfold Has
  infer_instance

/-- A record of the journal has a flag. -/
def Flagged (i : DurableInterval) (flag : UInt32) : Prop :=
  Has (UInt32.ofNat i.flags) flag

section

variable {x y flag : UInt32} {s : TimedSample} {ctRatingA : UInt16}

theorem not_has_zero : ¬Has 0 flag := by simp [Has]

theorem has_or : Has (x ||| y) flag ↔ Has x flag ∨ Has y flag := by
  have hdistrib : (x ||| y) &&& flag = (x &&& flag) ||| (y &&& flag) := by
    apply UInt32.toBitVec_inj.1
    ext i hi
    simp [Bool.and_or_distrib_right]
  rw [Has, Has, Has, hdistrib, Ne, UInt32.or_eq_zero_iff, not_and_or]

theorem has_ite {p : Prop} [Decidable p] :
    Has (if p then x else y) flag ↔ (p ∧ Has x flag) ∨ (¬p ∧ Has y flag) := by
  split_ifs with hp <;> simp [hp]

theorem has_foldl (l : List UInt32) (x : UInt32) :
    Has (l.foldl (· ||| ·) x) flag ↔ Has x flag ∨ ∃ y ∈ l, Has y flag := by
  induction l generalizing x with
  | nil => simp
  | cons z l ih => simp [ih, has_or, or_assoc]

theorem toNat_ratedMa (ctRatingA : UInt16) :
    (ctRatingA.toUInt32 * 1000).toNat = ctRatingA.toNat * 1000 := by
  have hlt := ctRatingA.toNat_lt
  rw [UInt32.toNat_mul, UInt16.toNat_toUInt32]
  exact Nat.mod_eq_of_lt (by simp; omega)

/-- The flag of a current, with the fractions of the rating in exact arithmetic. -/
theorem ctFlag_eq (ctRatingA : UInt16) {current : Int32} (hcurrent : 0 ≤ current) :
    ctFlag current.toUInt32 ctRatingA =
    if 900 * ctRatingA.toNat ≤ current.toNatClampNeg then flagCtCritical90
    else if 800 * ctRatingA.toNat ≤ current.toNatClampNeg then flagCtWarning80
    else 0 := by
  have hlt := ctRatingA.toNat_lt
  have hfraction (n : UInt32) (hn : n.toNat ≤ 10) :
      (ctRatingA.toUInt32 * 1000 * n / 10).toNat = 100 * n.toNat * ctRatingA.toNat := by
    have hmul : ctRatingA.toNat * 1000 * n.toNat ≤ 65536 * 1000 * 10 := by gcongr
    rw [UInt32.toNat_div, UInt32.toNat_mul, toNat_ratedMa, Nat.mod_eq_of_lt (by omega),
      show UInt32.toNat 10 = 10 from rfl]
    have hten : ctRatingA.toNat * 1000 * n.toNat = 10 * (100 * n.toNat * ctRatingA.toNat) := by ring
    rw [hten]
    omega
  unfold ctFlag
  simp only [UInt32.le_iff_toNat_le, Int32.toNat_toUInt32_of_le hcurrent]
  rw [hfraction 9 (by decide), hfraction 8 (by decide)]
  simp

theorem has_sampleFlags (ctRatingA : UInt16) (hcurrent : 0 ≤ s.currentMa) :
    (Has (sampleFlags s ctRatingA) flagTimeUntrusted ↔ s.timeTrusted = false) ∧
    (Has (sampleFlags s ctRatingA) flagSimulated ↔ s.simulated = true) ∧
    (Has (sampleFlags s ctRatingA) flagCtCritical90 ↔
      900 * ctRatingA.toNat ≤ s.currentMa.toNatClampNeg) ∧
    (Has (sampleFlags s ctRatingA) flagCtWarning80 ↔
      800 * ctRatingA.toNat ≤ s.currentMa.toNatClampNeg ∧
        s.currentMa.toNatClampNeg < 900 * ctRatingA.toNat) ∧
    ¬Has (sampleFlags s ctRatingA) flagMissingSample := by
  have hct := ctFlag_eq ctRatingA hcurrent
  refine ⟨?_, ?_, ?_, ?_, ?_⟩ <;> simp +decide [sampleFlags, hct, has_or, has_ite]
  omega

end

/-! ## The interval -/

/-- A sample was accepted with a property of it and of the rating. -/
def Seen (events : List IntervalEvent) (P : TimedSample → UInt16 → Prop) : Prop :=
  ∃ s ctRatingA, IntervalEvent.sample s ctRatingA ∈ events ∧ Accepted s ctRatingA ∧ P s ctRatingA

/-- The first and the last sample are two, at two times. -/
def Bounded (l : List TimedSample) : Prop :=
  ∃ first ∈ l.head?, ∃ last ∈ l.getLast?, first.sampleMonotonicUs < last.sampleMonotonicUs

/-- An interval is the summary of the samples that were accepted, and of what was missing. -/
structure Summarises (expected : UInt32) (events : List IntervalEvent) (i : DurableInterval) : Prop where
  voltage : i.voltageMv = (total (·.voltageMv) (samples events) / (samples events).length : ℕ)
  current : i.currentMa = (total (·.currentMa) (samples events) / (samples events).length : ℕ)
  power : i.activePowerMw = (total (·.activePowerMw) (samples events) / (samples events).length : ℕ)
  frequency : i.frequencyMhz = (total (·.frequencyMhz) (samples events) / (samples events).length : ℕ)
  powerFactor : i.powerFactorMilli =
    (total (·.powerFactorMilli) (samples events) / (samples events).length : ℕ)
  sampleCount : i.sampleCount = (samples events).length
  expectedSamples : i.expectedSamples = expected.toNat
  completeness : i.completenessPermille = min 1000 ((samples events).length * 1000 /
    if expected = 0 then (samples events).length else expected.toNat)
  first : ∀ s ∈ (samples events).head?, i.pzemEnergyStartWh = s.energyWh.toNat ∧
    i.startUtcMs = s.sampleTimestampUtcMs.toInt ∧ i.startMonotonicUs = s.sampleMonotonicUs.toInt
  last : ∀ s ∈ (samples events).getLast?, i.pzemEnergyEndWh = s.energyWh.toNat ∧
    i.endUtcMs = s.sampleTimestampUtcMs.toInt ∧ i.endMonotonicUs = s.sampleMonotonicUs.toInt
  untrusted : Flagged i flagTimeUntrusted ↔ Seen events fun s _ => s.timeTrusted = false
  simulated : Flagged i flagSimulated ↔ Seen events fun s _ => s.simulated = true
  critical : Flagged i flagCtCritical90 ↔ Seen events fun s ctRatingA =>
    900 * ctRatingA.toNat ≤ s.currentMa.toNatClampNeg
  warning : Flagged i flagCtWarning80 ↔ Seen events fun s ctRatingA =>
    800 * ctRatingA.toNat ≤ s.currentMa.toNatClampNeg ∧ s.currentMa.toNatClampNeg < 900 * ctRatingA.toNat
  missing : Flagged i flagMissingSample ↔
    (∃ e ∈ events, e.accepted = none) ∨ ¬Bounded (samples events)

section

variable {a : IntervalAccumulator} {expected : UInt32} {events : List IntervalEvent} {flag : UInt32}
  {maximum : UInt64} {i : DurableInterval}

/-- What is flagged by the samples of some events, apart from the missing ones. -/
theorem exists_event_has (hflag : ¬Has flagMissingSample flag) :
    (∃ e ∈ events, Has e.flags flag) ↔
      Seen events fun s ctRatingA => Has (sampleFlags s ctRatingA) flag := by
  constructor
  · rintro ⟨e, he, hhas⟩
    cases e with
    | silence => exact absurd hhas hflag
    | sample s ctRatingA =>
      rw [IntervalEvent.flags, has_ite] at hhas
      obtain ⟨hs, hhas⟩ | ⟨-, hhas⟩ := hhas
      · exact ⟨s, ctRatingA, he, hs, hhas⟩
      · exact absurd hhas hflag
  · rintro ⟨s, ctRatingA, he, hs, hhas⟩
    refine ⟨_, he, ?_⟩
    rwa [IntervalEvent.flags, if_pos hs]

/-- What is missing is what was refused. -/
theorem exists_event_missing :
    (∃ e ∈ events, Has e.flags flagMissingSample) ↔ ∃ e ∈ events, e.accepted = none := by
  refine exists_congr fun e => and_congr_right fun he => ?_
  cases e with
  | silence => exact iff_of_true (by decide) rfl
  | sample s ctRatingA =>
    by_cases hs : Accepted s ctRatingA
    · have hclear := (has_sampleFlags ctRatingA hs.sound.current).2.2.2.2
      simp [IntervalEvent.flags, IntervalEvent.accepted, hs, hclear]
    · simp +decide [IntervalEvent.flags, IntervalEvent.accepted, hs]

theorem seen_congr {P Q : TimedSample → UInt16 → Prop}
    (h : ∀ s ctRatingA, Accepted s ctRatingA → (P s ctRatingA ↔ Q s ctRatingA)) :
    Seen events P ↔ Seen events Q :=
  exists_congr fun s => exists_congr fun ctRatingA =>
    and_congr_right fun _ => and_congr_right fun hs => h s ctRatingA hs

/-- The flags of an interval are those of its events and those of its energy. -/
theorem Accumulates.flagged (h : Accumulates expected events a) (flags : UInt32)
    (hi : i.flags = (a.flags ||| flags).toNat) :
    Flagged i flag ↔ (∃ e ∈ events, Has e.flags flag) ∨ Has flags flag := by
  rw [Flagged, hi, UInt32.ofNat_toNat, has_or, h.flags, has_foldl]
  simp [not_has_zero]

/-- An average fits its 32 bits. -/
theorem meanOf_eq {sum : UInt64} {count : UInt32} {value : TimedSample → Int32} {l : List TimedSample}
    (hsum : sum.toNat = total value l) (hcount : count.toNat = l.length) :
    meanOf sum count = (total value l / l.length : ℕ) := by
  have hbound : total value l / l.length ≤ 2 ^ 31 - 1 :=
    Nat.div_le_of_le_mul (total_le value l)
  have hmean : (sum / count.toUInt64).toUInt32.toNat = total value l / l.length := by
    rw [UInt64.toNat_toUInt32, UInt64.toNat_div, UInt32.toNat_toUInt64, hsum, hcount]
    exact Nat.mod_eq_of_lt (by omega)
  rw [meanOf, toInt_toInt32, hmean]
  exact Int.bmod_eq_of_le (by omega) (by omega)

theorem completeness_eq (count expected : UInt32) : completeness count expected =
    min 1000 (count.toNat * 1000 / if expected = 0 then count.toNat else expected.toNat) := by
  have hlt := count.toNat_lt
  have hpermille : (count.toUInt64 * 1000 / (if expected = 0 then count else expected).toUInt64).toNat =
      count.toNat * 1000 / if expected = 0 then count.toNat else expected.toNat := by
    rw [UInt64.toNat_div, UInt64.toNat_mul, UInt32.toNat_toUInt64, UInt32.toNat_toUInt64,
      show UInt64.toNat 1000 = 1000 from rfl, Nat.mod_eq_of_lt (by omega)]
    split <;> rfl
  have hmin (x : UInt64) : (if 1000 < x then 1000 else x).toUInt16.toNat = min 1000 x.toNat := by
    have hthousand : UInt64.toNat 1000 = 1000 := rfl
    split_ifs with hx <;> rw [UInt64.lt_iff_toNat_lt, hthousand] at hx <;>
      rw [UInt64.toNat_toUInt16]
    · rw [hthousand]
      omega
    · omega
  exact (hmin _).trans (congrArg _ hpermille)

/-- The flags of the selected energy are among those of `pm_interval_finalize`. -/
theorem selectEnergy_flags (a : IntervalAccumulator) (maximum : UInt64) :
    (selectEnergy a maximum).2.2 = flagMissingSample ∧
        ¬(2 ≤ a.validSamples ∧ a.intervalStartMonotonicUs < a.lastSampleMonotonicUs) ∨
      (2 ≤ a.validSamples ∧ a.intervalStartMonotonicUs < a.lastSampleMonotonicUs) ∧
        ((selectEnergy a maximum).2.2 = 0 ∨ (selectEnergy a maximum).2.2 = flagImplausibleJump ∨
          (selectEnergy a maximum).2.2 = flagPzemRollover ∨
          (selectEnergy a maximum).2.2 = flagPzemReset) := by
  unfold selectEnergy
  dsimp only
  by_cases hbounded : 2 ≤ a.validSamples ∧ a.intervalStartMonotonicUs < a.lastSampleMonotonicUs
  · rw [if_neg (not_not.2 hbounded)]
    refine .inr ⟨hbounded, ?_⟩
    split_ifs <;> simp
  · rw [if_pos hbounded]
    exact .inl ⟨rfl, hbounded⟩

/-- The boundary that the accumulator checks is one between two samples. -/
theorem Accumulates.bounded_iff (h : Accumulates expected events a) :
    2 ≤ a.validSamples ∧ a.intervalStartMonotonicUs < a.lastSampleMonotonicUs ↔
      Bounded (samples events) := by
  rw [UInt32.le_iff_toNat_le, h.count, show UInt32.toNat 2 = 2 from rfl]
  constructor
  · rintro ⟨hcount, htime⟩
    have hne : samples events ≠ [] := by
      rintro hnil
      simp [hnil] at hcount
    have hfirst : (samples events).head hne ∈ (samples events).head? := List.head?_eq_some_head hne
    have hlast : (samples events).getLast hne ∈ (samples events).getLast? :=
      List.getLast?_eq_some_getLast hne
    refine ⟨_, hfirst, _, hlast, ?_⟩
    rwa [← (h.first _ hfirst).2.2, ← (h.last _ hlast).2.2.1]
  · rintro ⟨first, hfirst, last, hlast, htime⟩
    refine ⟨?_, by rwa [(h.first _ hfirst).2.2, (h.last _ hlast).2.2.1]⟩
    -- one sample alone would be the first and the last one
    by_contra hfew
    obtain hnil | ⟨s, hs⟩ : samples events = [] ∨ ∃ s, samples events = [s] := by
      rw [← List.length_eq_zero_iff, ← List.length_eq_one_iff]
      omega
    · simp [hnil] at hfirst
    · rw [hs] at hfirst hlast
      obtain rfl : s = first := by simpa using hfirst
      obtain rfl : s = last := by simpa using hlast
      exact Int64.lt_irrefl htime

/-- **An interval summarises its samples.** There is none if no sample was accepted; the accumulator
that is left is that of the next interval. -/
theorem finalize_summarises (expected : UInt32) (events : List IntervalEvent)
    (hlength : events.length < 2 ^ 32) (maximum : UInt64) :
    ((pmIntervalFinalize (feed expected events) maximum).1 = none ↔ samples events = []) ∧
      ∀ i a, pmIntervalFinalize (feed expected events) maximum = (some i, a) →
        Summarises expected events i ∧ a = pmIntervalInit expected := by
  have h := accumulates_feed expected events hlength
  set a := feed expected events
  rw [← h.validSamples_eq_zero]
  unfold pmIntervalFinalize
  by_cases hzero : a.validSamples = 0
  · simp [hzero]
  · rw [if_neg hzero]
    refine ⟨by simp [hzero], fun i a' heq => ?_⟩
    obtain ⟨hi, rfl⟩ := Prod.mk.inj heq
    obtain rfl := Option.some.inj hi
    refine ⟨?_, by rw [h.expected]⟩
    have henergy := selectEnergy_flags a maximum
    have hother {flag : UInt32} (hmissing : ¬Has flagMissingSample flag)
        (hflags : ¬Has flagImplausibleJump flag ∧ ¬Has flagPzemRollover flag ∧
          ¬Has flagPzemReset flag) : ¬Has (selectEnergy a maximum).2.2 flag := by
      obtain ⟨hjump, hrollover, hreset⟩ := hflags
      obtain ⟨heq, -⟩ | ⟨-, heq | heq | heq | heq⟩ := henergy <;> rw [heq]
      · exact hmissing
      · exact not_has_zero
      · exact hjump
      · exact hrollover
      · exact hreset
    have hseen {flag : UInt32} (hmissing : ¬Has flagMissingSample flag)
        (hflags : ¬Has flagImplausibleJump flag ∧ ¬Has flagPzemRollover flag ∧ ¬Has flagPzemReset flag)
        (i : DurableInterval) (hi : i.flags = (a.flags ||| (selectEnergy a maximum).2.2).toNat) :
        Flagged i flag ↔ Seen events fun s ctRatingA => Has (sampleFlags s ctRatingA) flag := by
      rw [h.flagged _ hi, exists_event_has hmissing, or_iff_left (hother hmissing hflags)]
    constructor
    · exact meanOf_eq h.voltage h.count
    · exact meanOf_eq h.current h.count
    · exact meanOf_eq h.power h.count
    · exact meanOf_eq h.frequency h.count
    · exact meanOf_eq h.powerFactor h.count
    · exact h.count
    · exact congrArg UInt32.toNat h.expected
    · rw [← h.count]
      exact (completeness_eq a.validSamples a.expectedSamples).trans (by rw [h.expected])
    · intro s hs
      obtain ⟨henergy, hutc, htime⟩ := h.first s hs
      exact ⟨congrArg UInt64.toNat henergy, congrArg Int64.toInt hutc, congrArg Int64.toInt htime⟩
    · intro s hs
      obtain ⟨henergy, hutc, htime, -⟩ := h.last s hs
      exact ⟨congrArg UInt64.toNat henergy, congrArg Int64.toInt hutc, congrArg Int64.toInt htime⟩
    · exact (hseen (by decide) (by decide) _ rfl).trans
        (seen_congr fun s _ hs => (has_sampleFlags _ hs.sound.current).1)
    · exact (hseen (by decide) (by decide) _ rfl).trans
        (seen_congr fun s _ hs => (has_sampleFlags _ hs.sound.current).2.1)
    · exact (hseen (by decide) (by decide) _ rfl).trans
        (seen_congr fun s _ hs => (has_sampleFlags _ hs.sound.current).2.2.1)
    · exact (hseen (by decide) (by decide) _ rfl).trans
        (seen_congr fun s _ hs => (has_sampleFlags _ hs.sound.current).2.2.2.1)
    · rw [h.flagged _ rfl, exists_event_missing, ← h.bounded_iff]
      refine or_congr_right ?_
      obtain ⟨heq, hunbounded⟩ | ⟨hbounded, hclear⟩ := henergy
      · exact iff_of_true (by rw [heq]; decide) hunbounded
      · refine iff_of_false ?_ (not_not.2 hbounded)
        obtain heq | heq | heq | heq := hclear <;> rw [heq] <;> decide

end

/-- A sample shortly before the counter wraps around. -/
def firstReading : TimedSample where
  voltageMv := 120000
  currentMa := 81000
  activePowerMw := 1200000
  frequencyMhz := 60000
  powerFactorMilli := 990
  energyWh := 0xFFFFFFFE
  status := .ok
  sampleTimestampUtcMs := 1760000001000
  sampleMonotonicUs := 1000000
  timeTrusted := true
  simulated := false

/-- The sample after it. -/
def wrappedReading : TimedSample :=
  { firstReading with energyWh := 1, sampleTimestampUtcMs := 1760000002000, sampleMonotonicUs := 2000000 }

theorem finalize_summarises_rollover :
    ((pmIntervalFinalize (feed 2 [.sample firstReading 100, .sample wrappedReading 100]) 10000).1 = none ↔
      samples [.sample firstReading 100, .sample wrappedReading 100] = []) ∧
    ∀ i a, pmIntervalFinalize (feed 2 [.sample firstReading 100, .sample wrappedReading 100]) 10000 =
        (some i, a) →
      Summarises 2 [.sample firstReading 100, .sample wrappedReading 100] i ∧ a = pmIntervalInit 2 :=
  finalize_summarises 2 [.sample firstReading 100, .sample wrappedReading 100] (by decide) 10000

end PowerMonitor.Meter
