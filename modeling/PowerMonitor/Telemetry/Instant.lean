import Mathlib.Data.List.Basic
import Mathlib.Tactic.IntervalCases
import PowerMonitor.Foundations.Calendar
import PowerMonitor.Telemetry.Rfc3339

/-!
# The instant a timestamp stands for

What `pm_network_parse_rfc3339_ms` returns, in terms of the calendar, and the timestamps that
`format_rfc3339_ms` prints.

* `daysFromCivil_eq`: the formula of `days_from_civil`, whose years begin in March, counts the days
  of the calendar.
* `Pieces.instantMs` is the number of milliseconds from the epoch to the instant of a timestamp.
* `timestamps_are_right`: the parser returns that number, and reads back what is printed.
-/

namespace PowerMonitor.Telemetry

open CText Calendar

/-! ## Days -/

/-- The first of January 1970. -/
def epoch : Date := ⟨1970, 1, 1, Date.january_range, by decide⟩

theorem isLeap_cast (year : ℕ) : ((year : ℤ) % 4 = 0 ∧ ((year : ℤ) % 100 ≠ 0 ∨ (year : ℤ) % 400 = 0)) ↔
    IsLeap year := by
  unfold IsLeap
  omega

theorem lastDay_eq (year : ℕ) {month : ℕ} (h : 1 ≤ month ∧ month ≤ 12) :
    lastDay year month = monthDays year month := by
  obtain ⟨h₁, h₂⟩ := h
  unfold lastDay
  simp only [isLeap_cast]
  interval_cases month
  case «2» =>
    simp only [monthDays, if_true]
    split <;> rfl
  all_goals rfl

/-- Years that begin in March, with the leap day as their last. -/
theorem marchYear (year doy : ℕ) :
    let era : ℤ := (if (0 : ℤ) ≤ year then (year : ℤ) else year - 399).tdiv 400
    let yoe := (year - era * 400).toNat
    era * 146097 + (yoe * 365 + yoe / 4 - yoe / 100 + doy : ℕ) =
      365 * year + year / 4 - year / 100 + year / 400 + doy := by
  have hera : (if (0 : ℤ) ≤ year then (year : ℤ) else year - 399).tdiv 400 = year / 400 := by
    rw [if_pos (Int.natCast_nonneg year), Int.tdiv_eq_ediv_of_nonneg (Int.natCast_nonneg year)]
  intro era yoe
  have hyoe : yoe = year % 400 := by
    simp only [yoe, era, hera]
    omega
  rw [hyoe, show era = (year : ℤ) / 400 from hera]
  omega

/-- January and February are the last months of such a year. -/
theorem marchMonth_of_le {year month : ℕ} (h : 1 ≤ month ∧ month ≤ 2) :
    (153 * (month + 9) + 2) / 5 = daysBeforeMonth year month + 306 := by
  obtain ⟨h₁, h₂⟩ := h
  interval_cases month <;> rfl

theorem marchMonth_of_lt {year month : ℕ} (h : 2 < month ∧ month ≤ 12) :
    (153 * (month - 3) + 2) / 5 + (if IsLeap year then 60 else 59) = daysBeforeMonth year month := by
  obtain ⟨h₁, h₂⟩ := h
  interval_cases month <;> simp only [daysBeforeMonth, monthDays] <;> split <;> rfl

/-- **The days of the formula** are those of the calendar. -/
theorem daysFromCivil_eq (d : Date) (h : 1 ≤ d.year) :
    daysFromCivil d.year d.month d.day = d.dayNumber - epoch.dayNumber := by
  obtain ⟨year, month, day, hmonth, hday⟩ := d
  have hepoch : epoch.dayNumber = 719528 := by decide +kernel
  rw [hepoch]
  simp only [daysFromCivil, Date.dayNumber] at h ⊢
  by_cases hwinter : month ≤ 2
  · obtain ⟨before, rfl⟩ : ∃ y, year = y + 1 := ⟨year - 1, by omega⟩
    have hdays := @marchMonth_of_le (before + 1) month ⟨hmonth.1, hwinter⟩
    have hyears := daysBeforeYear_succ before
    rw [if_pos hwinter, if_neg (show ¬2 < month by omega),
      show ((before + 1 : ℕ) : ℤ) - 1 = before by omega, marchYear]
    omega
  · have hdays := @marchMonth_of_lt year month ⟨by omega, hmonth.2⟩
    have hyears := daysBeforeYear_succ year
    rw [daysBeforeYear, yearDays] at hyears
    rw [if_neg hwinter, if_pos (show 2 < month by omega), marchYear]
    split at hyears
    next hleap =>
      rw [if_pos hleap] at hdays
      omega
    next hcommon =>
      rw [if_neg hcommon] at hdays
      omega

/-! ## The instant of a timestamp -/

/-- The offset of a zone, in seconds. -/
def zoneSeconds : Option (UInt8 × List UInt8 × List UInt8) → ℤ
  | none => 0
  | some (sign, hours, minutes) =>
    (if sign = 0x2b then 1 else -1) * (decimal hours * 3600 + decimal minutes * 60)

/-- The date of a timestamp. -/
def Pieces.IsRfc3339.date {p : Pieces} (h : p.IsRfc3339) : Date where
  year := decimal p.year
  month := decimal p.month
  day := decimal p.day
  month_range := h.month_range
  day_range := by
    have hday := h.day_range
    rwa [lastDay_eq _ h.month_range] at hday

/-- The milliseconds from the epoch to the instant of a timestamp. A leap second is the second
before it. -/
def Pieces.IsRfc3339.instantMs {p : Pieces} (h : p.IsRfc3339) : ℤ :=
  ((h.date.dayNumber - epoch.dayNumber) * 86400 + decimal p.hour * 3600 + decimal p.minute * 60 +
    min (decimal p.second) 59 - zoneSeconds p.zone) * 1000 + fractionMs p.fraction

theorem scanOffset_zone {zone : Option (UInt8 × List UInt8 × List UInt8)} (h : IsZone zone) :
    scanOffset (zoneText zone) = some (zoneSeconds zone) := by
  match zone, h with
  | none, _ => rfl
  | some (sign, hours, minutes), h =>
    obtain ⟨hsign, hhours, hminutes, hh, hm⟩ := h
    obtain ⟨a, b, rfl⟩ := List.length_eq_two.1 hhours.1
    obtain ⟨d, e, rfl⟩ := List.length_eq_two.1 hminutes.1
    have hscan : scanInt 2 ([a, b] ++ [0x3a, d, e]) = some ((decimal [a, b] : ℤ), [0x3a, d, e]) :=
      scanInt_field hhours.takenField (stopsDigits_cons (by decide))
    have hscan' : scanInt 2 ([d, e] ++ []) = some ((decimal [d, e] : ℤ), []) :=
      scanInt_field hminutes.takenField stopsDigits_nil
    have hz : sign ≠ 0x5a := by rcases hsign with rfl | rfl <;> decide
    simp only [List.cons_append, List.nil_append] at hscan hscan'
    simp only [zoneText, List.cons_append, List.nil_append, scanOffset, hscan, hscan', scanChar_cons,
      Option.bind_eq_bind, Option.bind_some]
    rw [if_pos ⟨hsign, rfl, rfl⟩, if_neg (by omega), zoneSeconds]
    rcases hsign with rfl | rfl
    · simp
    · simp

/-- **What the parser returns** for a timestamp of the grammar. -/
theorem parse_instant {p : Pieces} (h : p.IsRfc3339) :
    parseRfc3339Ms p.text = some h.instantMs := by
  have hread := h.readAs
  obtain ⟨hstops, -, hdot⟩ := stopsDigits_tail p.fraction hread.zone
  have hlen : p.text.length = 19 + (fractionText p.fraction ++ zoneText p.zone).length := by
    rw [Pieces.text, List.length_append, hread.length]
  have hzone : 0 < (zoneText p.zone).length := by
    cases p.zone <;> simp [zoneText]
  have hdays := daysFromCivil_eq h.date (le_trans (by decide) h.year_range.1)
  have hsecond : (if (decimal p.second : ℤ) = 60 then (59 : ℤ) else decimal p.second) =
      min (decimal p.second) 59 := by
    have hle := h.second_le
    split <;> omega
  obtain ⟨⟨hy₁, hy₂⟩, ⟨hm₁, hm₂⟩, ⟨hd₁, hd₂⟩, ⟨hh₁, hh₂⟩, ⟨hmi₁, hmi₂⟩, ⟨hs₁, hs₂⟩⟩ := hread.range
  dsimp only at hy₁ hy₂ hm₁ hm₂ hd₁ hd₂ hh₁ hh₂ hmi₁ hmi₂ hs₁ hs₂
  unfold parseRfc3339Ms
  rw [if_neg (by rw [List.length_append] at hlen; omega), scanCivil_text hread]
  dsimp only
  rw [if_neg (by omega), if_neg (by omega), scanMilliseconds_fraction h.fraction hstops hdot]
  simp only [Option.bind_eq_bind, Option.bind_some, scanOffset_zone h.zone, Option.pure_def,
    Int.toNat_natCast, hsecond]
  rw [show daysFromCivil (decimal p.year) (decimal p.month) (decimal p.day) =
    h.date.dayNumber - epoch.dayNumber from hdays]
  rfl

/-! ## Printing -/

/-- The fields of `struct tm` that are printed. -/
structure Tm where
  tmYear : ℕ
  tmMon : ℕ
  tmMday : ℕ
  tmHour : ℕ
  tmMin : ℕ
  tmSec : ℕ

/-- `gmtime_r`, for the seconds from the epoch on. -/
def gmtimeR (seconds : ℕ) : Tm :=
  let date := epoch.after (seconds / 86400)
  { tmYear := date.year - 1900
    tmMon := date.month - 1
    tmMday := date.day
    tmHour := seconds % 86400 / 3600
    tmMin := seconds % 3600 / 60
    tmSec := seconds % 60 }

/-- The format `"%04d-%02d-%02dT%02d:%02d:%02d.%03lldZ"`. -/
def printTm (utc : Tm) (milliseconds : ℕ) : List UInt8 :=
  printPadded 4 (utc.tmYear + 1900) ++ 0x2d :: (printPadded 2 (utc.tmMon + 1) ++ 0x2d ::
    (printPadded 2 utc.tmMday ++ 0x54 :: (printPadded 2 utc.tmHour ++ 0x3a ::
    (printPadded 2 utc.tmMin ++ 0x3a :: (printPadded 2 utc.tmSec ++ 0x2e ::
    (printPadded 3 milliseconds ++ [0x5a]))))))

/-- `format_rfc3339_ms`, with what it prints. The conversion to a `struct tm` does not fail on the
milliseconds of an `int64_t`. -/
def formatRfc3339Ms (utcMs : ℤ) : Option (List UInt8) :=
  if utcMs < 1704067200000 then none
  else
    let text := printTm (gmtimeR (utcMs.tdiv 1000).toNat) (utcMs.tmod 1000).toNat
    if text.length = 24 then some text else none

/-- The pieces that are printed. -/
def Tm.pieces (utc : Tm) (milliseconds : ℕ) : Pieces where
  year := printPadded 4 (utc.tmYear + 1900)
  month := printPadded 2 (utc.tmMon + 1)
  day := printPadded 2 utc.tmMday
  hour := printPadded 2 utc.tmHour
  minute := printPadded 2 utc.tmMin
  second := printPadded 2 utc.tmSec
  fraction := some (printPadded 3 milliseconds)
  zone := none

theorem printTm_eq (utc : Tm) (milliseconds : ℕ) :
    printTm utc milliseconds = (utc.pieces milliseconds).text := by
  simp [printTm, Pieces.text, Pieces.civil, fractionText, zoneText, Tm.pieces]

theorem digits_printPadded {width n : ℕ} (hwidth : 0 < width) (h : n < 10 ^ width) :
    Digits width (printPadded width n) :=
  ⟨length_printPadded hwidth h, fun _ hc => isdigit_of_mem_printPadded hc⟩

theorem year_after_epoch (days : ℕ) (h : days ≤ 2932896) :
    1970 ≤ (epoch.after days).year ∧ (epoch.after days).year ≤ 9999 := by
  have hnumber := Date.dayNumber_after epoch days
  have hepoch : epoch.dayNumber = 719528 := by decide +kernel
  rw [hepoch] at hnumber
  constructor
  · by_contra! hyear
    have hlt := (epoch.after days).dayNumber_lt
    have hle := daysBeforeYear_mono (show (epoch.after days).year + 1 ≤ 1970 by omega)
    have h1970 : daysBeforeYear 1970 + 19 = 365 * 1970 + 492 + 4 + 1 := daysBeforeYear_succ 1969
    omega
  · by_contra! hyear
    have hle := daysBeforeYear_mono (show 10000 ≤ (epoch.after days).year by omega)
    have hyears : daysBeforeYear (epoch.after days).year ≤ (epoch.after days).dayNumber := by
      unfold Date.dayNumber
      omega
    have h10000 : daysBeforeYear 10000 + 99 = 365 * 10000 + 2499 + 24 + 1 := daysBeforeYear_succ 9999
    omega

/-- What is printed follows the grammar, with the date of the day and the time of the seconds. -/
theorem printed_isRfc3339 {seconds milliseconds : ℕ} (h : seconds ≤ 253402300799)
    (hms : milliseconds < 1000) : ∃ hp : ((gmtimeR seconds).pieces milliseconds).IsRfc3339,
      hp.instantMs = seconds * 1000 + milliseconds := by
  have hyear := year_after_epoch (seconds / 86400) (by omega)
  have hnumber := Date.dayNumber_after epoch (seconds / 86400)
  have htm : gmtimeR seconds = ⟨(epoch.after (seconds / 86400)).year - 1900,
    (epoch.after (seconds / 86400)).month - 1, (epoch.after (seconds / 86400)).day,
    seconds % 86400 / 3600, seconds % 3600 / 60, seconds % 60⟩ := rfl
  rw [htm]
  generalize epoch.after (seconds / 86400) = date at hyear hnumber
  obtain ⟨year, month, day, hmonth, hday⟩ := date
  have hlast := monthDays_le year month
  replace hyear : 1970 ≤ year ∧ year ≤ 9999 := hyear
  have hyear' : year - 1900 + 1900 = year := by omega
  have hmonth' : month - 1 + 1 = month := by omega
  have hpieces : Tm.pieces ⟨year - 1900, month - 1, day, seconds % 86400 / 3600,
      seconds % 3600 / 60, seconds % 60⟩ milliseconds = ⟨printPadded 4 year, printPadded 2 month,
      printPadded 2 day, printPadded 2 (seconds % 86400 / 3600), printPadded 2 (seconds % 3600 / 60),
      printPadded 2 (seconds % 60), some (printPadded 3 milliseconds), none⟩ := by
    simp only [Tm.pieces, hyear', hmonth']
  rw [hpieces]
  have hp : Pieces.IsRfc3339 ⟨printPadded 4 year, printPadded 2 month, printPadded 2 day,
      printPadded 2 (seconds % 86400 / 3600), printPadded 2 (seconds % 3600 / 60),
      printPadded 2 (seconds % 60), some (printPadded 3 milliseconds), none⟩ := by
    refine ⟨digits_printPadded (by decide) (by omega), digits_printPadded (by decide) (by omega),
      digits_printPadded (by decide) (by omega), digits_printPadded (by decide) (by omega),
      digits_printPadded (by decide) (by omega), digits_printPadded (by decide) (by omega),
      ?_, ?_, ?_, ?_, ?_, ?_, ⟨?_, (digits_printPadded (by decide) hms).2⟩, trivial⟩
    any_goals simp only [decimal_printPadded]
    · exact hyear
    · exact hmonth
    · rw [lastDay_eq year hmonth]
      exact hday
    · omega
    · omega
    · omega
    · rw [← List.length_pos_iff, length_printPadded (by decide) hms]
      decide
  refine ⟨hp, ?_⟩
  have hdate : hp.date = ⟨year, month, day, hmonth, hday⟩ := by
    simp only [Pieces.IsRfc3339.date, decimal_printPadded]
  have hfraction : fractionMs (some (printPadded 3 milliseconds)) = milliseconds := by
    rw [fractionMs, decimal_printPadded, length_printPadded (by decide) hms]
    omega
  rw [Pieces.IsRfc3339.instantMs, hdate, hnumber]
  simp only [decimal_printPadded, zoneSeconds, hfraction]
  omega

/-- **Timestamps are right**: the parser takes every timestamp of the grammar and returns the
milliseconds from the epoch to its instant, and it reads back what is printed for any instant up to
the end of the year 9999. -/
theorem timestamps_are_right :
    (∀ (p : Pieces) (h : p.IsRfc3339), parseRfc3339Ms p.text = some h.instantMs) ∧
      ∀ utcMs : ℤ, 1704067200000 ≤ utcMs → utcMs ≤ 253402300799999 →
        ∃ text, formatRfc3339Ms utcMs = some text ∧ parseRfc3339Ms text = some utcMs := by
  refine ⟨fun p h => parse_instant h, fun utcMs hmin hmax => ?_⟩
  obtain ⟨n, rfl⟩ := Int.eq_ofNat_of_zero_le (show 0 ≤ utcMs by omega)
  have hn : ((n / 1000 : ℕ) : ℤ) * 1000 + (n % 1000 : ℕ) = n := by omega
  obtain ⟨hp, hinstant⟩ := @printed_isRfc3339 (n / 1000) (n % 1000) (by omega) (by omega)
  refine ⟨((gmtimeR (n / 1000)).pieces (n % 1000)).text, ?_, ?_⟩
  · have hseconds : ((n : ℤ).tdiv 1000).toNat = n / 1000 := by
      rw [Int.tdiv_eq_ediv_of_nonneg (Int.natCast_nonneg n)]
      omega
    have hrest : ((n : ℤ).tmod 1000).toNat = n % 1000 := by
      rw [Int.tmod_eq_emod_of_nonneg (Int.natCast_nonneg n)]
      omega
    have hthree : (printPadded 3 (n % 1000)).length = 3 :=
      length_printPadded (by decide) (show n % 1000 < 10 ^ 3 by omega)
    have hlen : ((gmtimeR (n / 1000)).pieces (n % 1000)).text.length = 24 := by
      rw [Pieces.text, List.length_append, hp.readAs.length]
      simp [Tm.pieces, fractionText, zoneText, hthree]
    rw [formatRfc3339Ms, if_neg (by omega), hseconds, hrest, printTm_eq]
    exact if_pos hlen
  · rw [parse_instant hp, hinstant, hn]

/-- `2024-02-29T23:59:60.5-05:30`. -/
def leapDay : Pieces where
  year := [0x32, 0x30, 0x32, 0x34]
  month := [0x30, 0x32]
  day := [0x32, 0x39]
  hour := [0x32, 0x33]
  minute := [0x35, 0x39]
  second := [0x36, 0x30]
  fraction := some [0x35]
  zone := some (0x2d, [0x30, 0x35], [0x33, 0x30])

theorem leapDay_isRfc3339 : leapDay.IsRfc3339 where
  year := ⟨rfl, by decide +kernel⟩
  month := ⟨rfl, by decide +kernel⟩
  day := ⟨rfl, by decide +kernel⟩
  hour := ⟨rfl, by decide +kernel⟩
  minute := ⟨rfl, by decide +kernel⟩
  second := ⟨rfl, by decide +kernel⟩
  year_range := by decide +kernel
  month_range := by decide +kernel
  day_range := by decide +kernel
  hour_le := by decide +kernel
  minute_le := by decide +kernel
  second_le := by decide +kernel
  fraction := ⟨by decide, by decide +kernel⟩
  zone := ⟨.inr rfl, ⟨rfl, by decide +kernel⟩, ⟨rfl, by decide +kernel⟩, by decide +kernel,
    by decide +kernel⟩

theorem timestamps_are_right_leapDay :
    parseRfc3339Ms leapDay.text = some leapDay_isRfc3339.instantMs ∧
      ∃ text, formatRfc3339Ms 1709271000500 = some text ∧
        parseRfc3339Ms text = some 1709271000500 :=
  ⟨timestamps_are_right.1 leapDay leapDay_isRfc3339,
    timestamps_are_right.2 1709271000500 (by decide) (by decide)⟩

end PowerMonitor.Telemetry
