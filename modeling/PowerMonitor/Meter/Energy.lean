import Mathlib.Data.List.Forall2
import Mathlib.Order.Monotone.Basic
import PowerMonitor.Meter.Interval
import PowerMonitor.Storage.Codec

/-!
# The energy of intervals

The counter of the meter has 32 bits. `pm_interval_finalize` takes the energy of an interval from
two readings of it. `interval_task` closes one interval after the other, and appends each to the
journal under the next sequence.

* `selected_energy_exact`: if the energy that the meter really counted is plausible, it is the
  energy of the interval, also when the counter wrapped around; else the interval has no energy.
* `intervals_partition`: the intervals of a run are those of consecutive stretches of its events.
* `samples_counted_once`: no sample is used twice, and the ones that no record holds are those of
  intervals that got no sequence or were not appended.
* `energy_never_overcounted`: the energies of all intervals add up to no more than what the meter
  counted.
* `interval_survives_journal`: the journal gives back any interval that was finalized, the
  diagnostic energy apart.
-/

namespace PowerMonitor.Meter

open Storage

/-! ## One interval -/

/-- The difference of two readings of the counter. -/
def counterDelta (first last : ℕ) : ℕ := (last + 2 ^ 32 - first) % 2 ^ 32

theorem counterDelta_le {e₁ e₂ : ℕ} (hle : e₁ ≤ e₂) :
    counterDelta (e₁ % 2 ^ 32) (e₂ % 2 ^ 32) ≤ e₂ - e₁ := by
  unfold counterDelta
  omega

theorem counterDelta_eq {e₁ e₂ : ℕ} (hle : e₁ ≤ e₂) (hlt : e₂ < e₁ + 2 ^ 32) :
    counterDelta (e₁ % 2 ^ 32) (e₂ % 2 ^ 32) = e₂ - e₁ := by
  unfold counterDelta
  omega

section

variable {a : IntervalAccumulator}

/-- What `pm_interval_finalize` does with two readings, in exact arithmetic. -/
theorem selectEnergy_eq (maximum : UInt64) (hfirst : a.firstEnergyWh.toNat < 2 ^ 32)
    (hlast : a.lastEnergyWh.toNat < 2 ^ 32) (hbounded : 2 ≤ a.validSamples ∧
      a.intervalStartMonotonicUs < a.lastSampleMonotonicUs) :
    selectEnergy a maximum =
      if a.firstEnergyWh.toNat ≤ a.lastEnergyWh.toNat then
        if counterDelta a.firstEnergyWh.toNat a.lastEnergyWh.toNat * 1000 ≤ maximum.toNat then
          (counterDelta a.firstEnergyWh.toNat a.lastEnergyWh.toNat * 1000, energyPzemDelta, 0)
        else (0, energyNone, flagImplausibleJump)
      else if 0xF0000000 < a.firstEnergyWh.toNat ∧ a.lastEnergyWh.toNat < 0x0FFFFFFF then
        if counterDelta a.firstEnergyWh.toNat a.lastEnergyWh.toNat * 1000 ≤ maximum.toNat then
          (counterDelta a.firstEnergyWh.toNat a.lastEnergyWh.toNat * 1000, energyPzemDelta,
            flagPzemRollover)
        else (0, energyNone, flagPzemRollover)
      else (0, energyNone, flagPzemReset) := by
  have hthousand : UInt64.toNat 1000 = 1000 := rfl
  unfold selectEnergy
  rw [if_neg (not_not.2 hbounded)]
  simp only [UInt64.le_iff_toNat_le, UInt64.lt_iff_toNat_lt]
  by_cases hle : a.firstEnergyWh.toNat ≤ a.lastEnergyWh.toNat
  · have hdelta : ((a.lastEnergyWh - a.firstEnergyWh) * 1000).toNat =
        counterDelta a.firstEnergyWh.toNat a.lastEnergyWh.toNat * 1000 := by
      have hmod : counterDelta a.firstEnergyWh.toNat a.lastEnergyWh.toNat =
          a.lastEnergyWh.toNat - a.firstEnergyWh.toNat := by
        unfold counterDelta
        omega
      rw [UInt64.toNat_mul, UInt64.toNat_sub_of_le _ _ (UInt64.le_iff_toNat_le.2 hle), hthousand, hmod]
      exact Nat.mod_eq_of_lt (by omega)
    rw [if_pos hle, if_pos hle, hdelta]
  · have hdelta : (((1 : UInt64) <<< 32 - a.firstEnergyWh + a.lastEnergyWh) * 1000).toNat =
        counterDelta a.firstEnergyWh.toNat a.lastEnergyWh.toNat * 1000 := by
      have hsize : ((1 : UInt64) <<< 32).toNat = 2 ^ 32 := rfl
      have hmod : counterDelta a.firstEnergyWh.toNat a.lastEnergyWh.toNat =
          2 ^ 32 - a.firstEnergyWh.toNat + a.lastEnergyWh.toNat := by
        unfold counterDelta
        omega
      rw [UInt64.toNat_mul, UInt64.toNat_add, UInt64.toNat_sub_of_le _ _
        (UInt64.le_iff_toNat_le.2 (by rw [hsize]; omega)), hsize, hthousand, hmod,
        Nat.mod_eq_of_lt (by omega : 2 ^ 32 - a.firstEnergyWh.toNat + a.lastEnergyWh.toNat < 2 ^ 64)]
      exact Nat.mod_eq_of_lt (by omega)
    rw [if_neg hle, if_neg hle, hdelta]
    rfl

/-- No more energy is selected than the meter counted. -/
theorem selectEnergy_le (maximum : UInt64) {e₁ e₂ : ℕ} (hle : e₁ ≤ e₂)
    (hfirst : a.firstEnergyWh.toNat = e₁ % 2 ^ 32)
    (hlast : a.lastEnergyWh.toNat = e₂ % 2 ^ 32) : (selectEnergy a maximum).1 ≤ 1000 * (e₂ - e₁) := by
  have hdelta := counterDelta_le hle
  by_cases hbounded : 2 ≤ a.validSamples ∧ a.intervalStartMonotonicUs < a.lastSampleMonotonicUs
  · rw [selectEnergy_eq maximum (by omega) (by omega) hbounded, hfirst, hlast]
    split_ifs <;> dsimp only <;> omega
  · unfold selectEnergy
    rw [if_pos hbounded]
    exact Nat.zero_le _

end

/-! ## The task -/

/-- What a round of `interval_task` meets: an event of the queue, the clock after it, the rating,
the identity and the reset generation then, the sequence that `pm_sequence_next` gives, if it
succeeds, and whether `pm_storage_append` does. -/
structure Round where
  event : IntervalEvent
  nowUs : Int64
  ctRatingA : UInt16
  deviceId : CMemory.Bytes 16
  resetGeneration : ℕ
  sequence : Option ℕ
  appends : Bool

/-- The state of `interval_task`, and what became of the intervals that it closed: `unnumbered` are
those without a sequence, and `unavailable` the records whose sequence `record_unavailable`
noted. -/
structure IntervalTask where
  accumulator : IntervalAccumulator
  intervalStartedUs : Int64
  closed : List (Option DurableInterval) := []
  unnumbered : List DurableInterval := []
  unavailable : List JournalRecord := []
  appended : List JournalRecord := []

/-- `maximum_plausible_mwh`. -/
def maximumPlausibleMwh (ctRatingA : UInt16) : UInt64 := ctRatingA.toUInt64 * 300000

/-- `interval_task` with an interval that was finalized: it needs a sequence to be appended. -/
def IntervalTask.append (t : IntervalTask) (r : Round) (interval : DurableInterval) : IntervalTask :=
  match r.sequence with
  | none => { t with unnumbered := t.unnumbered ++ [interval] }
  | some sequence =>
    let record : JournalRecord := ⟨r.deviceId, sequence, r.resetGeneration, interval⟩
    if r.appends then { t with appended := t.appended ++ [record] }
    else { t with unavailable := t.unavailable ++ [record] }

/-- A round of `interval_task`, with the duration of its intervals. -/
def intervalRound (expected : UInt32) (durationUs : Int64) (t : IntervalTask) (r : Round) :
    IntervalTask :=
  let a := receive t.accumulator r.event
  if durationUs ≤ r.nowUs - t.intervalStartedUs then
    let finalized := pmIntervalFinalize a (maximumPlausibleMwh r.ctRatingA)
    let t := { t with
      accumulator := if finalized.1.isSome then finalized.2 else pmIntervalInit expected
      intervalStartedUs := r.nowUs
      closed := t.closed ++ [finalized.1] }
    match finalized.1 with
    | some interval => t.append r interval
    | none => t
  else { t with accumulator := a }

/-- `interval_task`, after some rounds. -/
def intervalRun (expected : UInt32) (durationUs startUs : Int64) (rounds : List Round) : IntervalTask :=
  rounds.foldl (intervalRound expected durationUs)
    { accumulator := pmIntervalInit expected, intervalStartedUs := startUs }

/-- Two rounds of a meter of 100 A, and the end of their interval. -/
def rolloverRounds : List Round :=
  [⟨.sample firstReading 100, 1000000, 100, .zero 16, 1, some 1, true⟩,
    ⟨.sample wrappedReading 100, 60000000, 100, .zero 16, 1, some 1, true⟩]

/-- What an interval has for the journal is what the events of one stretch give. -/
def Closes (expected : UInt32) (stretch : List IntervalEvent) (interval : Option DurableInterval) :
    Prop :=
  ∃ ctRatingA, interval = (pmIntervalFinalize (feed expected stretch) (maximumPlausibleMwh ctRatingA)).1

/-- The accumulator is that of the last events, and the ones before them were closed in
stretches. -/
structure Partition (expected : UInt32) (events : List IntervalEvent) (t : IntervalTask)
    (stretches : List (List IntervalEvent)) (current : List IntervalEvent) : Prop where
  whole : stretches.flatten ++ current = events
  closed : List.Forall₂ (Closes expected) stretches t.closed
  accumulator : t.accumulator = feed expected current

section

variable {expected : UInt32} {durationUs startUs : Int64} {events : List IntervalEvent}
  {t : IntervalTask} {stretches : List (List IntervalEvent)} {current : List IntervalEvent}

/-- What is done with an interval leaves the accumulator and the list of intervals alone. -/
theorem append_fields (t : IntervalTask) (r : Round) (interval : DurableInterval) :
    (t.append r interval).accumulator = t.accumulator ∧
      (t.append r interval).closed = t.closed := by
  unfold IntervalTask.append
  split
  · exact ⟨rfl, rfl⟩
  · dsimp only
    split <;> exact ⟨rfl, rfl⟩

/-- A round that ends an interval. -/
theorem round_due (expected : UInt32) {r : Round}
    (hdue : durationUs ≤ r.nowUs - t.intervalStartedUs) :
    let finalized := pmIntervalFinalize (receive t.accumulator r.event)
      (maximumPlausibleMwh r.ctRatingA)
    (intervalRound expected durationUs t r).closed = t.closed ++ [finalized.1] ∧
      (intervalRound expected durationUs t r).accumulator =
        if finalized.1.isSome then finalized.2 else pmIntervalInit expected := by
  unfold intervalRound
  dsimp only
  rw [if_pos hdue]
  split
  · rw [(append_fields ..).1, (append_fields ..).2]
    exact ⟨rfl, rfl⟩
  · exact ⟨rfl, rfl⟩

theorem feed_append_singleton (expected : UInt32) (events : List IntervalEvent) (e : IntervalEvent) :
    feed expected (events ++ [e]) = receive (feed expected events) e := by
  rw [feed, List.foldl_append]
  rfl

/-- **One round of the task** goes on with the stretch or closes it. -/
theorem Partition.round (h : Partition expected events t stretches current)
    (hlength : current.length < 2 ^ 32 - 1) (r : Round) :
    ∃ stretches' current', Partition expected (events ++ [r.event])
      (intervalRound expected durationUs t r) stretches' current' := by
  have hreceive : receive t.accumulator r.event = feed expected (current ++ [r.event]) := by
    rw [feed_append_singleton, h.accumulator]
  have hwhole : stretches.flatten ++ (current ++ [r.event]) = events ++ [r.event] := by
    rw [← List.append_assoc, h.whole]
  by_cases hdue : durationUs ≤ r.nowUs - t.intervalStartedUs
  · obtain ⟨hclosed, haccumulator⟩ := round_due expected hdue
    rw [hreceive] at hclosed haccumulator
    refine ⟨stretches ++ [current ++ [r.event]], [], ?_, ?_, ?_⟩
    · rw [List.flatten_append, List.flatten_singleton, List.append_nil, hwhole]
    · rw [hclosed]
      exact List.rel_append h.closed (.cons ⟨r.ctRatingA, rfl⟩ .nil)
    · have hsummary := (finalize_summarises expected (current ++ [r.event])
        (by rw [List.length_append, List.length_singleton]; omega) (maximumPlausibleMwh r.ctRatingA)).2
      rw [haccumulator]
      cases hi : (pmIntervalFinalize (feed expected (current ++ [r.event]))
        (maximumPlausibleMwh r.ctRatingA)).1 with
      | none => rfl
      | some i => exact (hsummary i _ (Prod.ext hi rfl)).2
  · rw [intervalRound, if_neg hdue]
    exact ⟨stretches, current ++ [r.event], hwhole, h.closed, hreceive⟩

/-- **The intervals of a run are those of consecutive stretches of its events.** -/
theorem intervals_partition (expected : UInt32) (durationUs startUs : Int64) (rounds : List Round)
    (hlength : rounds.length < 2 ^ 32) : ∃ stretches current,
      Partition expected (rounds.map Round.event) (intervalRun expected durationUs startUs rounds)
        stretches current := by
  induction rounds using List.reverseRecOn with
  | nil => exact ⟨[], [], rfl, .nil, rfl⟩
  | append_singleton rounds r ih =>
    rw [List.length_append, List.length_singleton] at hlength
    obtain ⟨stretches, current, h⟩ := ih (by omega)
    have hcurrent : current.length ≤ rounds.length := by
      have hwhole := congrArg List.length h.whole
      rw [List.length_append, List.length_map] at hwhole
      omega
    rw [List.map_append, List.map_singleton, intervalRun, List.foldl_append]
    exact h.round (by omega) r

/-- The sum of a value over the intervals that were finalized. -/
def closedTotal (value : DurableInterval → ℕ) (closed : List (Option DurableInterval)) : ℕ :=
  (closed.map fun interval => (interval.map value).getD 0).sum

theorem closedTotal_cons (value : DurableInterval → ℕ) (interval : Option DurableInterval)
    (closed : List (Option DurableInterval)) :
    closedTotal value (interval :: closed) = (interval.map value).getD 0 + closedTotal value closed := by
  simp [closedTotal]

theorem closedTotal_append (value : DurableInterval → ℕ)
    (closed closed' : List (Option DurableInterval)) :
    closedTotal value (closed ++ closed') = closedTotal value closed + closedTotal value closed' := by
  simp [closedTotal]

/-- The sum of a value over what became of the intervals: records that were appended, records that
were not, and intervals without a sequence. -/
def IntervalTask.filed (t : IntervalTask) (value : DurableInterval → ℕ) : ℕ :=
  (t.appended.map fun record => value record.interval).sum +
    (t.unavailable.map fun record => value record.interval).sum + (t.unnumbered.map value).sum

theorem filed_append (t : IntervalTask) (r : Round) (interval : DurableInterval)
    (value : DurableInterval → ℕ) :
    (t.append r interval).filed value = t.filed value + value interval := by
  unfold IntervalTask.append
  split
  · simp only [IntervalTask.filed, List.map_append, List.map_singleton, List.sum_append,
      List.sum_singleton]
    omega
  · dsimp only
    split <;> simp only [IntervalTask.filed, List.map_append, List.map_singleton, List.sum_append,
      List.sum_singleton] <;> omega

/-- **One round** files the interval that it finalizes, once. -/
theorem filed_round (value : DurableInterval → ℕ) (h : t.filed value = closedTotal value t.closed)
    (r : Round) : (intervalRound expected durationUs t r).filed value =
      closedTotal value (intervalRound expected durationUs t r).closed := by
  by_cases hdue : durationUs ≤ r.nowUs - t.intervalStartedUs
  · rw [(round_due expected hdue).1, closedTotal_append, ← h]
    unfold intervalRound
    dsimp only
    rw [if_pos hdue]
    split
    next interval hi => rw [filed_append, hi, closedTotal_cons]; rfl
    next hi => rw [hi]; rfl
  · rw [intervalRound, if_neg hdue]
    exact h

/-- **Every interval that is finalized is filed once.** -/
theorem filed_intervalRun (expected : UInt32) (durationUs startUs : Int64) (rounds : List Round)
    (value : DurableInterval → ℕ) : (intervalRun expected durationUs startUs rounds).filed value =
      closedTotal value (intervalRun expected durationUs startUs rounds).closed := by
  induction rounds using List.reverseRecOn with
  | nil => rfl
  | append_singleton rounds r ih =>
    rw [intervalRun, List.foldl_append]
    exact filed_round value ih r

theorem Closes.sampleCount {stretch : List IntervalEvent} {interval : Option DurableInterval}
    (h : Closes expected stretch interval) (hlength : stretch.length < 2 ^ 32) :
    (interval.map DurableInterval.sampleCount).getD 0 = (samples stretch).length := by
  obtain ⟨ctRatingA, rfl⟩ := h
  obtain ⟨hnone, hsome⟩ :=
    finalize_summarises expected stretch hlength (maximumPlausibleMwh ctRatingA)
  cases hi : (pmIntervalFinalize (feed expected stretch) (maximumPlausibleMwh ctRatingA)).1 with
  | none =>
    rw [hnone.1 hi]
    rfl
  | some i => exact (hsome i _ (Prod.ext hi rfl)).1.sampleCount

theorem closedTotal_sampleCount {closed : List (Option DurableInterval)}
    (h : List.Forall₂ (Closes expected) stretches closed) (hlength : stretches.flatten.length < 2 ^ 32) :
    closedTotal DurableInterval.sampleCount closed = (samples stretches.flatten).length := by
  induction h with
  | nil => rfl
  | cons hclose _ ih =>
    rw [List.flatten_cons, List.length_append] at hlength
    rw [closedTotal_cons, hclose.sampleCount (by omega), ih (by omega), List.flatten_cons, samples_append,
      List.length_append]

/-- **Every sample that is accepted is counted once**: in a record that was appended, in one that
was not and whose sequence is noted as unavailable, in an interval that got no sequence, or in the
accumulator of the next one. -/
theorem samples_counted_once (expected : UInt32) (durationUs startUs : Int64) (rounds : List Round)
    (hlength : rounds.length < 2 ^ 32) :
    (intervalRun expected durationUs startUs rounds).filed DurableInterval.sampleCount +
        (intervalRun expected durationUs startUs rounds).accumulator.validSamples.toNat =
      (samples (rounds.map Round.event)).length := by
  obtain ⟨stretches, current, h⟩ := intervals_partition expected durationUs startUs rounds hlength
  have hwhole := congrArg List.length h.whole
  rw [List.length_append, List.length_map] at hwhole
  rw [filed_intervalRun, closedTotal_sampleCount h.closed (by omega), h.accumulator,
    (accumulates_feed expected current (by omega)).count, ← List.length_append, ← samples_append,
    h.whole]

end

theorem samples_counted_rollover :
    (intervalRun 2 60000000 0 rolloverRounds).filed DurableInterval.sampleCount +
        (intervalRun 2 60000000 0 rolloverRounds).accumulator.validSamples.toNat =
      (samples (rolloverRounds.map Round.event)).length :=
  samples_counted_once 2 60000000 0 rolloverRounds (by decide)

/-! ## What the meter counted -/

section

variable {expected : UInt32} {durationUs startUs : Int64} {events : List IntervalEvent}
  {t : IntervalTask} {stretches : List (List IntervalEvent)} {current : List IntervalEvent}

/-- The samples carry the counter of a meter that has counted `meter k` in all at event `k`. -/
def Truthful (meter : ℕ → ℕ) (events : List IntervalEvent) : Prop :=
  ∀ k e, events[k]? = some e → ∀ s ∈ e.accepted, s.energyWh.toNat = meter k % 2 ^ 32

/-- The first and the last sample of some events, as the meter counted. -/
theorem Truthful.readings {meter : ℕ → ℕ} (h : Truthful meter events) (hmeter : Monotone meter)
    (hne : samples events ≠ []) : ∃ e₁ e₂, meter 0 ≤ e₁ ∧ e₁ ≤ e₂ ∧ e₂ ≤ meter events.length ∧
      (∀ s ∈ (samples events).head?, s.energyWh.toNat = e₁ % 2 ^ 32) ∧
      ∀ s ∈ (samples events).getLast?, s.energyWh.toNat = e₂ % 2 ^ 32 := by
  induction events using List.reverseRecOn with
  | nil => exact absurd rfl hne
  | append_singleton events e ih =>
    have hprefix : Truthful meter events := by
      intro k e' he'
      exact h k e' ((List.getElem?_append_left (List.getElem?_eq_some_iff.1 he').1).trans he')
    have hnext : meter events.length ≤ meter (events ++ [e]).length :=
      hmeter (by rw [List.length_append]; omega)
    cases hs : e.accepted with
    | none =>
      have hsame : samples (events ++ [e]) = samples events := by
        rw [samples_append, samples_refused hs, List.append_nil]
      rw [hsame] at hne ⊢
      obtain ⟨e₁, e₂, hstart, hle, hend, hfirst, hlast⟩ := ih hprefix hne
      exact ⟨e₁, e₂, hstart, hle, hend.trans hnext, hfirst, hlast⟩
    | some s =>
      have hread : s.energyWh.toNat = meter events.length % 2 ^ 32 :=
        h events.length e List.getElem?_concat_length s hs
      have hmore : samples (events ++ [e]) = samples events ++ [s] := by
        rw [samples_append, samples_accepted hs]
      have hlast : ∀ s' ∈ (samples events ++ [s]).getLast?,
          s'.energyWh.toNat = meter events.length % 2 ^ 32 := by
        intro s' hs'
        rw [List.getLast?_concat, Option.mem_some_iff] at hs'
        rwa [← hs']
      rw [hmore]
      by_cases hnil : samples events = []
      · refine ⟨meter events.length, meter events.length, hmeter (Nat.zero_le _), le_rfl, hnext, ?_,
          hlast⟩
        rw [hnil] at hlast ⊢
        exact hlast
      · obtain ⟨e₁, e₂, hstart, hle, hend, hfirst, -⟩ := ih hprefix hnil
        refine ⟨e₁, meter events.length, hstart, hle.trans hend, hnext, ?_, hlast⟩
        rwa [List.head?_append_of_ne_nil _ hnil]

/-- **An interval claims no more than the meter counted.** -/
theorem Closes.selectedEnergy_le {stretch : List IntervalEvent} {interval : Option DurableInterval}
    {meter : ℕ → ℕ} (h : Closes expected stretch interval) (hlength : stretch.length < 2 ^ 32)
    (hmeter : Monotone meter) (htruthful : Truthful meter stretch) :
    (interval.map DurableInterval.selectedEnergyMwh).getD 0 ≤
      1000 * (meter stretch.length - meter 0) := by
  obtain ⟨ctRatingA, rfl⟩ := h
  have hacc := accumulates_feed expected stretch hlength
  unfold pmIntervalFinalize
  by_cases hzero : (feed expected stretch).validSamples = 0
  · rw [if_pos hzero]
    exact Nat.zero_le _
  · have hne : samples stretch ≠ [] := fun hnil => hzero (hacc.validSamples_eq_zero.2 hnil)
    obtain ⟨e₁, e₂, hstart, hle, hend, hfirst, hlast⟩ := htruthful.readings hmeter hne
    have hhead : (samples stretch).head hne ∈ (samples stretch).head? := List.head?_eq_some_head hne
    have hfinal : (samples stretch).getLast hne ∈ (samples stretch).getLast? :=
      List.getLast?_eq_some_getLast hne
    have hreadFirst : (feed expected stretch).firstEnergyWh.toNat = e₁ % 2 ^ 32 := by
      rw [(hacc.first _ hhead).1, hfirst _ hhead]
    have hreadLast : (feed expected stretch).lastEnergyWh.toNat = e₂ % 2 ^ 32 := by
      rw [(hacc.last _ hfinal).1, hlast _ hfinal]
    have hselected := selectEnergy_le (maximumPlausibleMwh ctRatingA) hle hreadFirst hreadLast
    rw [if_neg hzero]
    exact hselected.trans (by omega)

theorem closedTotal_selectedEnergy {closed : List (Option DurableInterval)} {meter : ℕ → ℕ}
    (h : List.Forall₂ (Closes expected) stretches closed) (hlength : stretches.flatten.length < 2 ^ 32)
    (hmeter : Monotone meter) (htruthful : Truthful meter stretches.flatten) :
    closedTotal DurableInterval.selectedEnergyMwh closed ≤
      1000 * (meter stretches.flatten.length - meter 0) := by
  induction h generalizing meter with
  | nil => exact Nat.zero_le _
  | @cons stretch interval stretches closed hclose _ ih =>
    rw [List.flatten_cons] at hlength htruthful ⊢
    rw [List.length_append] at hlength ⊢
    -- the rest of the run starts with what the meter has counted by then
    have hrest : Truthful (fun k => meter (stretch.length + k)) stretches.flatten := by
      intro k e he
      refine htruthful (stretch.length + k) e ?_
      rw [List.getElem?_append_right (by omega), Nat.add_sub_cancel_left]
      exact he
    have hhere : Truthful meter stretch := by
      intro k e he
      exact htruthful k e ((List.getElem?_append_left (List.getElem?_eq_some_iff.1 he).1).trans he)
    have hfirst := hclose.selectedEnergy_le (by omega) hmeter hhere
    have hothers := ih (by omega) (fun i j hij => hmeter (by omega)) hrest
    have hle₁ : meter 0 ≤ meter stretch.length := hmeter (Nat.zero_le _)
    have hle₂ : meter stretch.length ≤ meter (stretch.length + stretches.flatten.length) :=
      hmeter (by omega)
    rw [closedTotal_cons]
    simp only [Nat.add_zero] at hothers
    omega

/-- **The energies of all intervals add up to no more than what the meter counted**, whatever
samples are missing and wherever the counter wraps around. -/
theorem energy_never_overcounted (expected : UInt32) (durationUs startUs : Int64) (rounds : List Round)
    (hlength : rounds.length < 2 ^ 32) {meter : ℕ → ℕ} (hmeter : Monotone meter)
    (htruthful : Truthful meter (rounds.map Round.event)) :
    closedTotal DurableInterval.selectedEnergyMwh
        (intervalRun expected durationUs startUs rounds).closed ≤
      1000 * (meter rounds.length - meter 0) := by
  obtain ⟨stretches, current, h⟩ := intervals_partition expected durationUs startUs rounds hlength
  have hwhole := congrArg List.length h.whole
  rw [List.length_append, List.length_map] at hwhole
  have hclosed : Truthful meter stretches.flatten := by
    intro k e he
    refine htruthful k e ?_
    rw [← h.whole]
    exact (List.getElem?_append_left (List.getElem?_eq_some_iff.1 he).1).trans he
  have hsum := closedTotal_selectedEnergy h.closed (by omega) hmeter hclosed
  have hend : meter stretches.flatten.length ≤ meter rounds.length := hmeter (by omega)
  omega

theorem rollover_never_overcounted :
    closedTotal DurableInterval.selectedEnergyMwh (intervalRun 2 60000000 0 rolloverRounds).closed ≤
      1000 * ((0xFFFFFFFE + 3 * 2) - (0xFFFFFFFE + 3 * 0)) := by
  have hmeter : Monotone fun k : ℕ => 0xFFFFFFFE + 3 * k := by
    intro i j hij
    dsimp only
    omega
  have htruthful : Truthful (fun k => 0xFFFFFFFE + 3 * k) (rolloverRounds.map Round.event) := by
    intro k e he s hs
    rcases k with _ | _ | k
    · obtain rfl := Option.some.inj he
      obtain rfl := Option.some.inj hs
      decide
    · obtain rfl := Option.some.inj he
      obtain rfl := Option.some.inj hs
      decide
    · simp [rolloverRounds] at he
  exact energy_never_overcounted 2 60000000 0 rolloverRounds (by decide) hmeter htruthful

/-- No sample sets the flag of a counter that wrapped around. -/
theorem not_event_rollover : ¬∃ e ∈ events, Has e.flags flagPzemRollover := by
  rw [exists_event_has (by decide)]
  rintro ⟨s, ctRatingA, -, hs, hhas⟩
  rw [sampleFlags, ctFlag_eq _ hs.sound.current] at hhas
  simp +decide [has_or, has_ite] at hhas

/-- **The energy of an interval is exact.** If the meter counted from `e₁` to `e₂` between the first
and the last sample, that is the energy of the interval as long as it is plausible, also when the
counter wrapped around. Else the interval has no energy, and a flag says why. -/
theorem selected_energy_exact (expected : UInt32) {events : List IntervalEvent}
    (hlength : events.length < 2 ^ 32) {first last : TimedSample}
    (hfirst : (samples events).head? = some first) (hlast : (samples events).getLast? = some last)
    (htime : first.sampleMonotonicUs < last.sampleMonotonicUs) {e₁ e₂ : ℕ} (hle : e₁ ≤ e₂)
    (hlt : e₂ < e₁ + 2 ^ 32) (hstart : first.energyWh.toNat = e₁ % 2 ^ 32)
    (hend : last.energyWh.toNat = e₂ % 2 ^ 32) (ctRatingA : UInt16) :
    ∃ i, (pmIntervalFinalize (feed expected events) (maximumPlausibleMwh ctRatingA)).1 = some i ∧
      if (e₂ - e₁) * 1000 ≤ ctRatingA.toNat * 300000 then
        i.selectedEnergyMwh = (e₂ - e₁) * 1000 ∧ i.selectedEnergySource = energyPzemDelta ∧
          (Flagged i flagPzemRollover ↔ last.energyWh < first.energyWh)
      else
        i.selectedEnergyMwh = 0 ∧ i.selectedEnergySource = energyNone ∧
          (Flagged i flagImplausibleJump ∨ Flagged i flagPzemRollover ∨ Flagged i flagPzemReset) := by
  have hacc := accumulates_feed expected events hlength
  set a := feed expected events
  have hbounded := hacc.bounded_iff.2 ⟨first, hfirst, last, hlast, htime⟩
  have hzero : a.validSamples ≠ 0 := by
    rw [Ne, hacc.validSamples_eq_zero]
    rintro hnil
    simp [hnil] at hfirst
  obtain ⟨hreadFirst, -⟩ := hacc.first first hfirst
  obtain ⟨hreadLast, -⟩ := hacc.last last hlast
  have hrating := ctRatingA.toNat_lt
  have hmaximum : (maximumPlausibleMwh ctRatingA).toNat = ctRatingA.toNat * 300000 := by
    rw [maximumPlausibleMwh, UInt64.toNat_mul, UInt16.toNat_toUInt64]
    exact Nat.mod_eq_of_lt (by rw [show UInt64.toNat 300000 = 300000 from rfl]; omega)
  have hrange₁ : a.firstEnergyWh.toNat < 2 ^ 32 := by
    rw [hreadFirst, hstart]
    omega
  have hrange₂ : a.lastEnergyWh.toNat < 2 ^ 32 := by
    rw [hreadLast, hend]
    omega
  have henergy := selectEnergy_eq (maximumPlausibleMwh ctRatingA) hrange₁ hrange₂ hbounded
  rw [hreadFirst, hreadLast, hstart, hend, counterDelta_eq hle hlt, hmaximum] at henergy
  unfold pmIntervalFinalize
  rw [if_neg hzero]
  refine ⟨_, rfl, ?_⟩
  dsimp only
  have hflagged {flags flag : UInt32}
      (hflags : (selectEnergy a (maximumPlausibleMwh ctRatingA)).2.2 = flags)
      (i : DurableInterval) (hi : i.flags =
        (a.flags ||| (selectEnergy a (maximumPlausibleMwh ctRatingA)).2.2).toNat) :
      Flagged i flag ↔ (∃ e ∈ events, Has e.flags flag) ∨ Has flags flag := by
    rw [hacc.flagged _ hi, hflags]
  have hwrapped : last.energyWh < first.energyWh ↔ ¬e₁ % 2 ^ 32 ≤ e₂ % 2 ^ 32 := by
    rw [UInt64.lt_iff_toNat_lt, hstart, hend, not_le]
  by_cases hplausible : (e₂ - e₁) * 1000 ≤ ctRatingA.toNat * 300000
  · rw [if_pos hplausible]
    rw [if_pos hplausible, if_pos hplausible] at henergy
    by_cases hstraight : e₁ % 2 ^ 32 ≤ e₂ % 2 ^ 32
    · rw [if_pos hstraight] at henergy
      refine ⟨by rw [henergy], by rw [henergy], ?_⟩
      rw [hflagged (by rw [henergy]) _ rfl, or_iff_left not_has_zero, hwrapped]
      exact iff_of_false not_event_rollover (not_not.2 hstraight)
    · -- so little energy wraps around only near the ends of the counter
      have hends : 0xF0000000 < e₁ % 2 ^ 32 ∧ e₂ % 2 ^ 32 < 0x0FFFFFFF := by omega
      rw [if_neg hstraight, if_pos hends] at henergy
      refine ⟨by rw [henergy], by rw [henergy], ?_⟩
      rw [hflagged (by rw [henergy]) _ rfl, hwrapped]
      have hhas : Has flagPzemRollover flagPzemRollover := by decide
      exact iff_of_true (.inr hhas) hstraight
  · rw [if_neg hplausible]
    rw [if_neg hplausible, if_neg hplausible] at henergy
    split_ifs at henergy
    · exact ⟨by rw [henergy], by rw [henergy],
        .inl ((hflagged (by rw [henergy]) _ rfl).2 (.inr (by decide)))⟩
    · exact ⟨by rw [henergy], by rw [henergy],
        .inr (.inl ((hflagged (by rw [henergy]) _ rfl).2 (.inr (by decide))))⟩
    · exact ⟨by rw [henergy], by rw [henergy],
        .inr (.inr ((hflagged (by rw [henergy]) _ rfl).2 (.inr (by decide))))⟩

end

theorem rollover_energy_exact : ∃ i, (pmIntervalFinalize (feed 2
      [.sample firstReading 100, .sample wrappedReading 100]) (maximumPlausibleMwh 100)).1 = some i ∧
    if (0x100000001 - 0xFFFFFFFE) * 1000 ≤ 100 * 300000 then
      i.selectedEnergyMwh = (0x100000001 - 0xFFFFFFFE) * 1000 ∧
        i.selectedEnergySource = energyPzemDelta ∧
        (Flagged i flagPzemRollover ↔ wrappedReading.energyWh < firstReading.energyWh)
    else
      i.selectedEnergyMwh = 0 ∧ i.selectedEnergySource = energyNone ∧
        (Flagged i flagImplausibleJump ∨ Flagged i flagPzemRollover ∨ Flagged i flagPzemReset) :=
  selected_energy_exact 2 (by decide) (by decide) (by decide) (by decide) (by decide) (by decide)
    (by decide) (by decide) 100

/-! ## The journal -/

section

variable {a : IntervalAccumulator} {maximum : UInt64} {i : DurableInterval}

theorem selectEnergy_le_maximum (a : IntervalAccumulator) (maximum : UInt64) :
    (selectEnergy a maximum).1 ≤ maximum.toNat ∧ (selectEnergy a maximum).2.1 ≤ energyPzemDelta := by
  unfold selectEnergy
  dsimp only
  split_ifs with hbounded hle hplausible hwrapped hplausible
  all_goals first
    | exact ⟨Nat.zero_le _, Nat.zero_le _⟩
    | exact ⟨UInt64.le_iff_toNat_le.1 hplausible, le_rfl⟩

/-- An interval has the members of machine integers, whatever the accumulator holds. -/
theorem fits_of_finalized (hi : (pmIntervalFinalize a maximum).1 = some i) (deviceId : CMemory.Bytes 16)
    {sequence resetGeneration : ℕ} (hsequence : sequence < 2 ^ 64) (hreset : resetGeneration < 2 ^ 32) :
    JournalRecord.Fits ⟨deviceId, sequence, resetGeneration, i⟩ ∧ i.completenessPermille ≤ 1000 ∧
      i.selectedEnergyMwh ≤ maximum.toNat := by
  unfold pmIntervalFinalize at hi
  by_cases hzero : a.validSamples = 0
  · rw [if_pos hzero] at hi
    cases hi
  rw [if_neg hzero] at hi
  obtain rfl := Option.some.inj hi
  have hmean (sum : UInt64) : -2 ^ 31 ≤ meanOf sum a.validSamples ∧ meanOf sum a.validSamples < 2 ^ 31 :=
    ⟨Int32.le_toInt _, Int32.toInt_lt _⟩
  have htime (x : Int64) : -2 ^ 63 ≤ x.toInt ∧ x.toInt < 2 ^ 63 := ⟨Int64.le_toInt _, Int64.toInt_lt _⟩
  have hcomplete : completeness a.validSamples a.expectedSamples ≤ 1000 := by
    rw [completeness_eq]
    exact Nat.min_le_left _ _
  obtain ⟨henergy, hsource⟩ := selectEnergy_le_maximum a maximum
  refine ⟨?_, hcomplete, henergy⟩
  constructor
  · exact hsequence
  · exact hreset
  · exact UInt32.toNat_lt _
  · exact htime _
  · exact htime _
  · exact htime _
  · exact htime _
  · exact UInt32.toNat_lt _
  · exact UInt32.toNat_lt _
  · exact Nat.lt_of_le_of_lt hcomplete (by decide)
  · exact Nat.lt_of_le_of_lt hsource (by decide)
  · exact hmean _
  · exact hmean _
  · exact hmean _
  · exact hmean _
  · exact hmean _
  · exact UInt64.toNat_lt _
  · exact UInt64.toNat_lt _

/-- **The journal gives back the intervals of the task**, with a rating that a configuration may
have: a record that is written decodes to itself, the diagnostic energy apart. -/
theorem interval_survives_journal {ctRatingA : UInt16} (hrating : ctRatingA ≤ 100)
    (hi : (pmIntervalFinalize a (maximumPlausibleMwh ctRatingA)).1 = some i) (deviceId : CMemory.Bytes 16)
    {sequence resetGeneration : ℕ} (hzero : sequence ≠ 0) (hsequence : sequence < 2 ^ 64)
    (hreset : resetGeneration < 2 ^ 32) (record : JournalRecord) :
    pmJournalDecodeRecord (encodedRecord ⟨deviceId, sequence, resetGeneration, i⟩).bytes record =
      (true, ⟨deviceId, sequence, resetGeneration, { i with diagnosticEnergyMwh := 0 }⟩) := by
  obtain ⟨hfits, hcomplete, henergy⟩ := fits_of_finalized hi deviceId hsequence hreset
  have hmaximum : (maximumPlausibleMwh ctRatingA).toNat ≤ 30000000 := by
    have hle : ctRatingA.toNat ≤ 100 := UInt16.le_iff_toNat_le.1 hrating
    rw [maximumPlausibleMwh, UInt64.toNat_mul, UInt16.toNat_toUInt64,
      show UInt64.toNat 300000 = 300000 from rfl, Nat.mod_eq_of_lt (by omega)]
    omega
  have hstored : storedEnergy i.selectedEnergyMwh = i.selectedEnergyMwh := by
    have hmax : uint32Max = 2 ^ 32 - 1 := rfl
    unfold storedEnergy
    rw [if_neg (by omega)]
  rw [decode_encode_record _ hfits]
  refine Prod.ext ?_ ?_
  · simp [hzero, hcomplete]
  · simp only [JournalRecord.stored, hstored]

end

/-- The interval of two samples between which the counter wraps around. -/
def rolloverInterval : DurableInterval :=
  (pmIntervalFinalize (feed 2 [.sample firstReading 100, .sample wrappedReading 100])
    (maximumPlausibleMwh 100)).1.get (by decide)

theorem rollover_survives_journal :
    pmJournalDecodeRecord (encodedRecord ⟨CMemory.Bytes.zero 16, 42, 1, rolloverInterval⟩).bytes
        edgeRecord =
      (true, ⟨CMemory.Bytes.zero 16, 42, 1, { rolloverInterval with diagnosticEnergyMwh := 0 }⟩) :=
  interval_survives_journal (by decide) (Option.some_get _).symm (CMemory.Bytes.zero 16) (by decide)
    (by decide) (by decide) edgeRecord

end PowerMonitor.Meter
