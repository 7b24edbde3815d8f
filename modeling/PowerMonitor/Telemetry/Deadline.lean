import Mathlib.Order.Bounds.Basic
import PowerMonitor.Telemetry.Scheduler

/-!
# The arithmetic of the fixed deadline

`pm_telemetry_next_fixed_deadline` in `int64_t`, with every operation checked for overflow. It
saturates where the next deadline does not fit, but the number of periods that it tests for this is
computed first, and that may overflow by itself.

* `IsNextDeadline` is what the function is for.
* `next_deadline_iff`: the one input on which the function fails is a period of one microsecond, a
  previous deadline of 0 and the last value of the clock.
-/

namespace PowerMonitor.Telemetry

/-- A result of `int64_t` arithmetic; `none` is an overflow. -/
def int64 (value : ℤ) : Option ℤ := if -2 ^ 63 ≤ value ∧ value ≤ int64Max then some value else none

/-- `pm_telemetry_next_fixed_deadline`, `none` when an operation overflows. -/
def nextFixedDeadlineInt64 (previousDeadlineUs nowUs periodUs : ℤ) : Option ℤ :=
  if previousDeadlineUs < 0 ∨ nowUs < 0 ∨ periodUs ≤ 0 then some nowUs
  else if nowUs < previousDeadlineUs then some previousDeadlineUs
  else do
    let elapsedUs ← int64 (nowUs - previousDeadlineUs)
    let quotient ← int64 (elapsedUs.tdiv periodUs)
    let periods ← int64 (quotient + 1)
    let room ← int64 (int64Max - previousDeadlineUs)
    let limit ← int64 (room.tdiv periodUs)
    if limit < periods then some int64Max
    else do
      let sum ← int64 (periods * periodUs)
      int64 (previousDeadlineUs + sum)

/-- The next deadline: the previous one while it lies ahead, and otherwise the first one after now
on the grid of the period, or the last value of `int64_t` if that comes before it. -/
def IsNextDeadline (previousDeadlineUs nowUs periodUs deadlineUs : ℤ) : Prop :=
  if nowUs < previousDeadlineUs then deadlineUs = previousDeadlineUs
  else ∃ next, IsLeast {d | nowUs < d ∧ ∃ k : ℤ, 0 < k ∧ d = previousDeadlineUs + k * periodUs} next ∧
    deadlineUs = min next int64Max

section

variable {previous now period : ℤ}

@[simp] theorem int64_of_range {value : ℤ} (h : -2 ^ 63 ≤ value ∧ value ≤ int64Max) :
    int64 value = some value :=
  if_pos h

/-- The first deadline of the grid that is later than now. -/
theorem isLeast_grid (hperiod : 0 < period) (h : previous ≤ now) :
    IsLeast {d | now < d ∧ ∃ k : ℤ, 0 < k ∧ d = previous + k * period}
      (previous + ((now - previous) / period + 1) * period) := by
  have hquotient := Int.ediv_nonneg (show 0 ≤ now - previous by omega) hperiod.le
  have hlast := Int.ediv_mul_le (now - previous) hperiod.ne'
  have hfirst := Int.lt_ediv_add_one_mul_self (now - previous) hperiod
  refine ⟨⟨by omega, _, by omega, rfl⟩, ?_⟩
  rintro d ⟨hd, k, hk, rfl⟩
  have hle : (now - previous) / period + 1 ≤ k := by
    by_contra! hlt
    have hmul := Int.mul_le_mul_of_nonneg_right (show k ≤ (now - previous) / period by omega) hperiod.le
    omega
  have hmul := Int.mul_le_mul_of_nonneg_right hle hperiod.le
  omega

/-- The deadline of the exact arithmetic is the next one. -/
theorem isNextDeadline_nextFixedDeadline (hprevious : 0 ≤ previous) (hnow : 0 ≤ now)
    (hperiod : 0 < period) (hmax : previous ≤ int64Max) :
    IsNextDeadline previous now period (nextFixedDeadline previous now period) := by
  unfold IsNextDeadline nextFixedDeadline
  rw [if_neg (show ¬(previous < 0 ∨ now < 0 ∨ period ≤ 0) by omega)]
  by_cases hahead : now < previous
  · rw [if_pos hahead, if_pos hahead]
  rw [if_neg hahead, if_neg hahead]
  refine ⟨_, isLeast_grid hperiod (not_lt.1 hahead), ?_⟩
  dsimp only
  rw [Int.tdiv_eq_ediv_of_nonneg (by omega), Int.tdiv_eq_ediv_of_nonneg (by omega)]
  -- it fits exactly when the number of periods is within the quotient
  have hfits := Int.le_ediv_iff_mul_le (a := (now - previous) / period + 1)
    (b := int64Max - previous) hperiod
  split
  next hover =>
    have hlarge : ¬((now - previous) / period + 1) * period ≤ int64Max - previous := fun h =>
      absurd (hfits.2 h) (not_le.2 hover)
    omega
  next hroom =>
    have hsmall := hfits.1 (not_lt.1 hroom)
    omega

/-- The number of periods overflows on one input only. -/
theorem periods_le_iff (hprevious : 0 ≤ previous) (hnow : now ≤ int64Max) (hperiod : 1 ≤ period)
    (h : previous ≤ now) : (now - previous) / period + 1 ≤ int64Max ↔
      ¬(previous = 0 ∧ now = int64Max ∧ period = 1) := by
  constructor
  · rintro hle ⟨rfl, rfl, rfl⟩
    simp only [Int.sub_zero, Int.ediv_one] at hle
    omega
  · intro hne
    by_cases hone : period = 1
    · subst hone
      rw [Int.ediv_one]
      omega
    · have hdiv := Int.ediv_mul_le (now - previous) (show period ≠ 0 by omega)
      have hquotient := Int.ediv_nonneg (show 0 ≤ now - previous by omega) (show 0 ≤ period by omega)
      have hmul := Int.mul_le_mul_of_nonneg_left (show 2 ≤ period by omega) hquotient
      simp only [int64Max] at hnow ⊢
      omega

/-- **The checked arithmetic** is the exact one, except for that overflow. -/
theorem nextFixedDeadlineInt64_eq (hprevious : 0 ≤ previous ∧ previous ≤ int64Max)
    (hnow : 0 ≤ now ∧ now ≤ int64Max) (hperiod : 1 ≤ period) :
    nextFixedDeadlineInt64 previous now period =
      if previous = 0 ∧ now = int64Max ∧ period = 1 then none
      else some (nextFixedDeadline previous now period) := by
  unfold nextFixedDeadlineInt64 nextFixedDeadline
  have hvalid : ¬(previous < 0 ∨ now < 0 ∨ period ≤ 0) := by omega
  rw [if_neg hvalid, if_neg hvalid]
  by_cases hahead : now < previous
  · rw [if_pos hahead, if_pos hahead, if_neg (by omega)]
  have hle := not_lt.1 hahead
  have hquotient := Int.ediv_nonneg (show 0 ≤ now - previous by omega) (show 0 ≤ period by omega)
  have hquotient' := Int.ediv_le_self (b := period) (show 0 ≤ now - previous by omega)
  have hlimit := Int.ediv_nonneg (show 0 ≤ int64Max - previous by omega) (show 0 ≤ period by omega)
  have hlimit' := Int.ediv_le_self (b := period) (show 0 ≤ int64Max - previous by omega)
  have hperiods := periods_le_iff hprevious.1 hnow.2 hperiod hle
  have hmin : (-2 ^ 63 : ℤ) ≤ 0 := by decide
  rw [if_neg hahead, if_neg hahead]
  simp only [Int.tdiv_eq_ediv_of_nonneg (show 0 ≤ now - previous by omega),
    Int.tdiv_eq_ediv_of_nonneg (show 0 ≤ int64Max - previous by omega), Option.bind_eq_bind,
    int64_of_range (show -2 ^ 63 ≤ now - previous ∧ now - previous ≤ int64Max by omega),
    Option.bind_some]
  rw [int64_of_range (by omega), Option.bind_some]
  by_cases hcorner : previous = 0 ∧ now = int64Max ∧ period = 1
  · rw [if_pos hcorner, int64, if_neg (by omega)]
    rfl
  · rw [if_neg hcorner, int64_of_range (by omega), Option.bind_some, int64_of_range (by omega),
      Option.bind_some, Int.tdiv_eq_ediv_of_nonneg (show 0 ≤ int64Max - previous by omega),
      int64_of_range (by omega), Option.bind_some]
    split
    · rfl
    next hroom =>
      have hsum := (Int.le_ediv_iff_mul_le (show 0 < period by omega)).1 (not_lt.1 hroom)
      have hpos := Int.mul_nonneg (show 0 ≤ (now - previous) / period + 1 by omega)
        (show 0 ≤ period by omega)
      rw [int64_of_range (by omega), Option.bind_some, int64_of_range (by omega)]

/-- **When the next deadline is computed without overflow**, and is then the right one: unless the
period is a microsecond, the previous deadline 0 and the clock at its last value. -/
theorem next_deadline_iff (hprevious : 0 ≤ previous ∧ previous ≤ int64Max)
    (hnow : 0 ≤ now ∧ now ≤ int64Max) (hperiod : 1 ≤ period ∧ period ≤ int64Max) :
    (∃ deadline, nextFixedDeadlineInt64 previous now period = some deadline ∧
      IsNextDeadline previous now period deadline) ↔
      ¬(previous = 0 ∧ now = int64Max ∧ period = 1) := by
  rw [nextFixedDeadlineInt64_eq hprevious hnow hperiod.1]
  by_cases hcorner : previous = 0 ∧ now = int64Max ∧ period = 1
  · rw [if_pos hcorner]
    simp [hcorner]
  · rw [if_neg hcorner]
    refine iff_of_true ⟨_, rfl, ?_⟩ hcorner
    exact isNextDeadline_nextFixedDeadline hprevious.1 hnow.1 hperiod.1 hprevious.2

/-- A period of 5 s, with the latest clock. -/
theorem next_deadline_late : ∃ deadline, nextFixedDeadlineInt64 0 int64Max 5000000 = some deadline ∧
    IsNextDeadline 0 int64Max 5000000 deadline :=
  (next_deadline_iff (by decide) (by decide) (by decide)).2 (by decide)

/-- The number of periods does not fit. -/
theorem next_deadline_overflows : ¬∃ deadline, nextFixedDeadlineInt64 0 int64Max 1 = some deadline ∧
    IsNextDeadline 0 int64Max 1 deadline := by
  rintro ⟨deadline, h, -⟩
  rw [show nextFixedDeadlineInt64 0 int64Max 1 = none by decide +kernel] at h
  cases h

end

end PowerMonitor.Telemetry
