import PowerMonitor.Foundations.CText

/-!
# Timestamps

`pm_network_parse_rfc3339_ms` reads the timestamps of a response. It takes the date and the time
with `sscanf`, whose conversions also take blanks and signs, so the text it accepts is what
`scanInt` accepts at a total of 19 characters.
-/

namespace PowerMonitor.Telemetry

open CText

/-- `days_from_civil`. -/
def daysFromCivil (year : ℤ) (month day : ℕ) : ℤ :=
  let year := if month ≤ 2 then year - 1 else year
  let era := (if 0 ≤ year then year else year - 399).tdiv 400
  let yoe := (year - era * 400).toNat
  let doy := (153 * (if 2 < month then month - 3 else month + 9) + 2) / 5 + day - 1
  let doe := yoe * 365 + yoe / 4 - yoe / 100 + doy
  era * 146097 + doe - 719468

/-- The days of the months, outside leap years. -/
def mdays : List ℕ := [31, 28, 31, 30, 31, 30, 31, 31, 30, 31, 30, 31]

/-- The last day of a month. -/
def lastDay (year : ℤ) (month : ℕ) : ℕ :=
  let leap := year % 4 = 0 ∧ (year % 100 ≠ 0 ∨ year % 400 = 0)
  if month = 2 then 28 + (if leap then 1 else 0) else mdays.getD (month - 1) 0

/-- The digits of a fraction: the first three as milliseconds, how many there are, and the text
after them. -/
def scanFraction : List UInt8 → ℕ → ℕ → ℕ × ℕ × List UInt8
  | [], milliseconds, digits => (milliseconds, digits, [])
  | c :: rest, milliseconds, digits =>
    if isdigit c then
      scanFraction rest (if digits < 3 then milliseconds * 10 + digitValue c else milliseconds)
        (digits + 1)
    else (milliseconds, digits, c :: rest)

/-- The milliseconds after the seconds, and the text after them. -/
def scanMilliseconds : List UInt8 → Option (ℕ × List UInt8)
  | 0x2e :: rest =>
    let (milliseconds, digits, rest) := scanFraction rest 0 0
    if digits = 0 then none else some (milliseconds * 10 ^ (3 - digits), rest)
  | text => some (0, text)

/-- The offset at the end of a timestamp, in seconds. -/
def scanOffset : List UInt8 → Option ℤ
  | [0x5a] => some 0
  | c :: rest =>
    if (c = 0x2b ∨ c = 0x2d) ∧ rest.length = 5 ∧ rest.getD 2 0 = 0x3a then do
      let (hours, rest) ← scanInt 2 rest
      let rest ← scanChar 0x3a rest
      let (minutes, _) ← scanInt 2 rest
      if 23 < hours ∨ 59 < minutes then none
      else
        let seconds := hours * 3600 + minutes * 60
        return if c = 0x2b then seconds else -seconds
    else none
  | [] => none

/-- The date and the time of `"%4d-%2d-%2dT%2d:%2d:%2d"`, and the text after them. -/
def scanCivil (value : List UInt8) : Option ((ℤ × ℤ × ℤ) × (ℤ × ℤ × ℤ) × List UInt8) := do
  let (year, rest) ← scanInt 4 value
  let rest ← scanChar 0x2d rest
  let (month, rest) ← scanInt 2 rest
  let rest ← scanChar 0x2d rest
  let (day, rest) ← scanInt 2 rest
  let rest ← scanChar 0x54 rest
  let (hour, rest) ← scanInt 2 rest
  let rest ← scanChar 0x3a rest
  let (minute, rest) ← scanInt 2 rest
  let rest ← scanChar 0x3a rest
  let (second, rest) ← scanInt 2 rest
  return ((year, month, day), (hour, minute, second), rest)

/-- `pm_network_parse_rfc3339_ms`. -/
def parseRfc3339Ms (value : List UInt8) : Option ℤ :=
  if value.length < 20 then none
  else
    match scanCivil value with
    | none => none
    | some ((year, month, day), (hour, minute, second), rest) =>
      if value.length - rest.length ≠ 19 ∨ year < 1970 ∨ 9999 < year ∨ month < 1 ∨ 12 < month ∨
          hour < 0 ∨ 23 < hour ∨ minute < 0 ∨ 59 < minute ∨ second < 0 ∨ 60 < second then none
      else if day < 1 ∨ (lastDay year month.toNat : ℤ) < day then none
      else do
        let (milliseconds, rest) ← scanMilliseconds rest
        let offsetSeconds ← scanOffset rest
        let seconds := daysFromCivil year month.toNat day.toNat * 86400 + hour * 3600 +
          minute * 60 + (if second = 60 then 59 else second) - offsetSeconds
        return seconds * 1000 + milliseconds

end PowerMonitor.Telemetry
