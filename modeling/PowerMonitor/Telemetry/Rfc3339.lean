import PowerMonitor.Foundations.Decimal
import PowerMonitor.Foundations.Scan
import PowerMonitor.Telemetry.Timestamp

/-!
# What the timestamp parser accepts

`pm_network_parse_rfc3339_ms` is meant to accept the timestamps of RFC 3339. Its fields are read by
`sscanf`, which skips white space and takes signs. The lengths it tests do not make up for that, and
the hours and minutes of an offset have no lower bound.

* `Pieces` is a timestamp cut into its fields, and `Pieces.IsRfc3339` the grammar.
* `Pieces.Read` is what the conversions take: a text is accepted exactly when it is made of such
  pieces (`parseRfc3339Ms_isSome_iff`), which are then unique (`Pieces.Read.unique`).
* The grammar and the conversions differ in the texts with a character that is no digit in one of
  the fields.
-/

namespace PowerMonitor.Telemetry

open CText

/-! ## Timestamps in pieces -/

/-- A timestamp cut into its fields. -/
structure Pieces where
  year : List UInt8
  month : List UInt8
  day : List UInt8
  hour : List UInt8
  minute : List UInt8
  second : List UInt8
  /-- The characters after the `.`, if there is one. -/
  fraction : Option (List UInt8)
  /-- The sign, the hours and the minutes of an offset; `none` is `Z`. -/
  zone : Option (UInt8 × List UInt8 × List UInt8)

/-- The text of a fraction. -/
def fractionText : Option (List UInt8) → List UInt8
  | none => []
  | some digits => 0x2e :: digits

/-- The milliseconds of a fraction, without what is less than one. -/
def fractionMs : Option (List UInt8) → ℕ
  | none => 0
  | some digits => decimal digits * 1000 / 10 ^ digits.length

/-- The text of a zone. -/
def zoneText : Option (UInt8 × List UInt8 × List UInt8) → List UInt8
  | none => [0x5a]
  | some (sign, hours, minutes) => sign :: (hours ++ 0x3a :: minutes)

/-- The date and the time. -/
def Pieces.civil (p : Pieces) : List UInt8 :=
  p.year ++ 0x2d :: (p.month ++ 0x2d :: (p.day ++ 0x54 :: (p.hour ++ 0x3a :: (p.minute ++
    0x3a :: p.second))))

/-- The whole text. -/
def Pieces.text (p : Pieces) : List UInt8 :=
  p.civil ++ (fractionText p.fraction ++ zoneText p.zone)

/-- The fields that hold a number. -/
def Pieces.fields (p : Pieces) : List (List UInt8) :=
  [p.year, p.month, p.day, p.hour, p.minute, p.second] ++
    match p.zone with
    | none => []
    | some (_, hours, minutes) => [hours, minutes]

/-- One or more digits after the `.`. -/
def IsFraction : Option (List UInt8) → Prop
  | none => True
  | some digits => digits ≠ [] ∧ ∀ c ∈ digits, isdigit c = true

/-- `Z`, or a sign, two digits, `:` and two digits, in range. -/
def IsZone : Option (UInt8 × List UInt8 × List UInt8) → Prop
  | none => True
  | some (sign, hours, minutes) => (sign = 0x2b ∨ sign = 0x2d) ∧ Digits 2 hours ∧
      Digits 2 minutes ∧ decimal hours ≤ 23 ∧ decimal minutes ≤ 59

/-- The timestamps of RFC 3339, from 1970 on. -/
structure Pieces.IsRfc3339 (p : Pieces) : Prop where
  year : Digits 4 p.year
  month : Digits 2 p.month
  day : Digits 2 p.day
  hour : Digits 2 p.hour
  minute : Digits 2 p.minute
  second : Digits 2 p.second
  year_range : 1970 ≤ decimal p.year ∧ decimal p.year ≤ 9999
  month_range : 1 ≤ decimal p.month ∧ decimal p.month ≤ 12
  day_range : 1 ≤ decimal p.day ∧ decimal p.day ≤ lastDay (decimal p.year) (decimal p.month)
  hour_le : decimal p.hour ≤ 23
  minute_le : decimal p.minute ≤ 59
  second_le : decimal p.second ≤ 60
  fraction : IsFraction p.fraction
  zone : IsZone p.zone

/-! ## The pieces that are read -/

/-- The numbers of a date and a time. -/
structure Moment where
  year : ℤ
  month : ℤ
  day : ℤ
  hour : ℤ
  minute : ℤ
  second : ℤ

/-- The limits of the parser. -/
structure Moment.InRange (m : Moment) : Prop where
  year : 1970 ≤ m.year ∧ m.year ≤ 9999
  month : 1 ≤ m.month ∧ m.month ≤ 12
  day : 1 ≤ m.day ∧ m.day ≤ lastDay m.year m.month.toNat
  hour : 0 ≤ m.hour ∧ m.hour ≤ 23
  minute : 0 ≤ m.minute ∧ m.minute ≤ 59
  second : 0 ≤ m.second ∧ m.second ≤ 60

/-- The minutes of an offset, whose second character nothing looks at when it is no digit. -/
def TakenMinutes (text : List UInt8) (value : ℤ) : Prop :=
  TakenField 2 text value ∨
    ∃ c d, text = [c, d] ∧ isdigit c = true ∧ isdigit d = false ∧ value = decimal [c]

/-- `Z`, or an offset with five characters after its sign, of which the third is a `:`. Its numbers
have no lower bound. -/
def ZoneRead : Option (UInt8 × List UInt8 × List UInt8) → Prop
  | none => True
  | some (sign, hours, minutes) => (sign = 0x2b ∨ sign = 0x2d) ∧ hours.length = 2 ∧
      minutes.length = 2 ∧ ∃ h m : ℤ, TakenField 2 hours h ∧ TakenMinutes minutes m ∧ h ≤ 23 ∧
        m ≤ 59

/-- The pieces are read as the date and the time of `m`. -/
structure Pieces.ReadAs (p : Pieces) (m : Moment) : Prop where
  length : p.civil.length = 19
  year : TakenField 4 p.year m.year
  month : TakenField 2 p.month m.month
  day : TakenField 2 p.day m.day
  hour : TakenField 2 p.hour m.hour
  minute : TakenField 2 p.minute m.minute
  second : TakenField 2 p.second m.second
  range : m.InRange
  fraction : IsFraction p.fraction
  zone : ZoneRead p.zone

section Tail

theorem colon_not_mem {width : ℕ} {text : List UInt8} {value : ℤ}
    (h : TakenField width text value) : 0x3a ∉ text := by
  intro hmem
  rcases h.mem.2 _ hmem with h | h | h | h <;> exact absurd h (by decide)

/-- The hours of an offset take two characters. -/
theorem offset_pieces {a b d e : UInt8} {hours minutes : ℤ} {rest rest' rest'' : List UInt8}
    (hhours : scanInt 2 [a, b, 0x3a, d, e] = some (hours, rest))
    (hcolon : scanChar 0x3a rest = some rest') (hminutes : scanInt 2 rest' = some (minutes, rest'')) :
    TakenField 2 [a, b] hours ∧ TakenMinutes [d, e] minutes := by
  obtain ⟨f, hf, htaken, -⟩ := scanInt_eq_some hhours
  obtain ⟨g, hg, htaken', hstops⟩ := scanInt_eq_some hminutes
  rw [scanChar_eq_some hcolon] at hf
  have hcolonf := colon_not_mem htaken
  have hcolong := colon_not_mem htaken'
  match f, hf with
  | [], _ => exact absurd rfl htaken.mem.1
  | [_], hf =>
    -- the minutes would start with a colon
    simp only [List.cons_append, List.nil_append, List.cons.injEq] at hf
    obtain ⟨-, -, rfl⟩ := hf
    obtain ⟨x, xs, rfl⟩ := List.exists_cons_of_ne_nil htaken'.mem.1
    exact absurd (by rw [(List.cons.inj hg).1]; exact List.mem_cons_self ..) hcolong
  | [_, _], hf =>
    simp only [List.cons_append, List.nil_append, List.cons.injEq] at hf
    obtain ⟨rfl, rfl, -, rfl⟩ := hf
    refine ⟨htaken, ?_⟩
    match g, hg with
    | [], _ => exact absurd rfl htaken'.mem.1
    | [_], hg =>
      simp only [List.cons_append, List.nil_append, List.cons.injEq] at hg
      obtain ⟨rfl, rfl⟩ := hg
      obtain ⟨hd, hvalue⟩ := takenField_singleton htaken'
      exact .inr ⟨d, e, rfl, hd, hstops (by simp) e rfl, hvalue⟩
    | [_, _], hg =>
      simp only [List.cons_append, List.nil_append, List.cons.injEq] at hg
      obtain ⟨rfl, rfl, -⟩ := hg
      exact .inl htaken'
    | _ :: _ :: _ :: _, hg => simp at hg
  | x :: y :: z :: f, hf =>
    simp only [List.cons_append, List.cons.injEq] at hf
    obtain ⟨-, -, rfl, -⟩ := hf
    exact absurd (by simp) hcolonf

theorem scanOffset_isSome_iff (text : List UInt8) :
    (scanOffset text).isSome ↔ ∃ zone, zoneText zone = text ∧ ZoneRead zone := by
  constructor
  · intro h
    obtain ⟨seconds, h⟩ := Option.isSome_iff_exists.1 h
    unfold scanOffset at h
    split at h
    · exact ⟨none, rfl, trivial⟩
    · split at h
      next sign rest _ _ hsign =>
        obtain ⟨hsign, hlen, hcolon⟩ := hsign
        match rest, hlen with
        | [a, b, c, d, e], _ =>
          obtain rfl : c = 0x3a := hcolon
          simp only [Option.bind_eq_bind, Option.bind_eq_some_iff, Prod.exists] at h
          obtain ⟨hours, rest, hhours, rest', hcolon, minutes, rest'', hminutes, h⟩ := h
          split at h
          · cases h
          rename_i hrange
          rw [not_or, Int.not_lt, Int.not_lt] at hrange
          obtain ⟨htaken, htaken'⟩ := offset_pieces hhours hcolon hminutes
          exact ⟨some (sign, [a, b], [d, e]), rfl, hsign, rfl, rfl, hours, minutes, htaken, htaken',
            hrange⟩
      · cases h
    · cases h
  · rintro ⟨zone, rfl, hread⟩
    match zone, hread with
    | none, _ => rfl
    | some (sign, [a, b], [d, e]), hread =>
      obtain ⟨hsign, -, -, hours, minutes, hhours, hminutes, hh, hm⟩ := hread
      have hscan : scanInt 2 ([a, b] ++ [0x3a, d, e]) = some (hours, [0x3a, d, e]) :=
        scanInt_field hhours (stopsDigits_cons (by decide))
      have hscan' : ∃ rest, scanInt 2 [d, e] = some (minutes, rest) := by
        rcases hminutes with htaken | ⟨c, x, heq, hc, hx, rfl⟩
        · have hall : scanInt 2 ([d, e] ++ []) = some (minutes, []) :=
            scanInt_field htaken stopsDigits_nil
          exact ⟨[], hall⟩
        · obtain ⟨rfl, rfl⟩ : d = c ∧ e = x := by simpa using heq
          have hone : scanInt 2 ([d] ++ [e]) = some ((decimal [d] : ℤ), [e]) :=
            scanInt_field (takenField_digit hc) (stopsDigits_cons hx)
          exact ⟨[e], hone⟩
      obtain ⟨rest, hscan'⟩ := hscan'
      have hz : sign ≠ 0x5a := by rcases hsign with rfl | rfl <;> decide
      simp only [List.cons_append, List.nil_append] at hscan
      simp only [zoneText, List.cons_append, List.nil_append, scanOffset, hscan, hscan',
        scanChar_cons, Option.bind_eq_bind, Option.bind_some]
      rw [if_pos ⟨hsign, rfl, rfl⟩, if_neg (by omega)]
      rfl

theorem scanFraction_snd (text : List UInt8) (milliseconds digits : ℕ) :
    (scanFraction text milliseconds digits).2 =
      (digits + (text.takeWhile isdigit).length, text.dropWhile isdigit) := by
  induction text generalizing milliseconds digits with
  | nil => rfl
  | cons c rest ih =>
    unfold scanFraction
    by_cases hc : isdigit c = true
    · rw [if_pos hc, ih, List.takeWhile_cons_of_pos hc, List.dropWhile_cons_of_pos hc,
        List.length_cons]
      congr 1
      omega
    · rw [if_neg hc, List.takeWhile_cons_of_neg hc, List.dropWhile_cons_of_neg hc]
      rfl

theorem scanMilliseconds_eq_some {text rest : List UInt8} {milliseconds : ℕ}
    (h : scanMilliseconds text = some (milliseconds, rest)) :
    ∃ fraction, text = fractionText fraction ++ rest ∧ IsFraction fraction := by
  unfold scanMilliseconds at h
  split at h
  next after =>
    have hsnd := scanFraction_snd after 0 0
    generalize scanFraction after 0 0 = scanned at h hsnd
    obtain ⟨value, digits, after'⟩ := scanned
    obtain ⟨rfl, rfl⟩ := Prod.mk.inj hsnd
    dsimp only at h
    split at h
    · cases h
    next hne =>
      obtain ⟨-, rfl⟩ := Prod.mk.inj (Option.some.inj h)
      refine ⟨some (after.takeWhile isdigit), ?_, ?_, fun c hc => List.mem_takeWhile_imp hc⟩
      · rw [fractionText, List.cons_append, List.takeWhile_append_dropWhile]
      · rintro hnil
        simp [hnil] at hne
  · obtain ⟨-, rfl⟩ := Prod.mk.inj (Option.some.inj h)
    exact ⟨none, rfl, trivial⟩

theorem scanFraction_fst (text : List UInt8) (milliseconds digits : ℕ) :
    (scanFraction text milliseconds digits).1 = ((text.takeWhile isdigit).take (3 - digits)).foldl
      (fun v c => 10 * v + digitValue c) milliseconds := by
  induction text generalizing milliseconds digits with
  | nil => simp [scanFraction]
  | cons c rest ih =>
    unfold scanFraction
    by_cases hc : isdigit c = true
    · rw [if_pos hc, ih, List.takeWhile_cons_of_pos hc]
      by_cases hdigits : digits < 3
      · rw [if_pos hdigits, show 3 - digits = 3 - (digits + 1) + 1 by omega, List.take_succ_cons,
          List.foldl_cons, Nat.mul_comm]
      · rw [if_neg hdigits, show 3 - digits = 0 by omega, show 3 - (digits + 1) = 0 by omega]
        rfl
    · rw [if_neg hc, List.takeWhile_cons_of_neg hc, List.take_nil]
      rfl

/-- Three digits, or fewer followed by zeros, are the milliseconds. -/
theorem fraction_cut {digits : List UInt8} (h : ∀ c ∈ digits, isdigit c = true) :
    decimal (digits.take 3) * 10 ^ (3 - digits.length) =
      decimal digits * 1000 / 10 ^ digits.length := by
  have hsplit := decimal_append (digits.take 3) (digits.drop 3)
  rw [List.take_append_drop, List.length_drop] at hsplit
  by_cases hlen : digits.length ≤ 3
  · have hall : digits.take 3 = digits := List.take_of_length_le hlen
    have hthousand : 1000 = 10 ^ (3 - digits.length) * 10 ^ digits.length := by
      rw [← Nat.pow_add, Nat.sub_add_cancel hlen]
    rw [hall, hthousand, ← Nat.mul_assoc, Nat.mul_div_cancel _ (Nat.pow_pos (by decide))]
  · have hrest := decimal_lt (l := digits.drop 3) fun c hc => h c (List.mem_of_mem_drop hc)
    rw [List.length_drop] at hrest
    have hpow : 10 ^ digits.length = 10 ^ (digits.length - 3) * 1000 := by
      rw [show (1000 : ℕ) = 10 ^ 3 from rfl, ← Nat.pow_add, Nat.sub_add_cancel (by omega)]
    rw [hpow, Nat.mul_div_mul_right _ _ (by decide), hsplit, Nat.mul_comm,
      show 3 - digits.length = 0 by omega, Nat.mul_comm (decimal _) (10 ^ (digits.length - 3)),
      Nat.mul_add_div (Nat.pow_pos (by decide)), Nat.div_eq_of_lt hrest]
    simp

theorem scanMilliseconds_fraction {fraction : Option (List UInt8)} {rest : List UInt8}
    (h : IsFraction fraction) (hrest : StopsDigits rest) (hdot : rest.head? ≠ some 0x2e) :
    scanMilliseconds (fractionText fraction ++ rest) = some (fractionMs fraction, rest) := by
  cases fraction with
  | none =>
    match rest with
    | [] => rfl
    | c :: rest =>
      have hc : c ≠ 0x2e := fun heq => hdot (by rw [heq]; rfl)
      simp only [fractionText, List.nil_append]
      unfold scanMilliseconds
      split
      · rename_i heq
        exact absurd (List.cons.inj heq).1 hc
      · rfl
  | some digits =>
    have hsnd := scanFraction_snd (digits ++ rest) 0 0
    have hfst := scanFraction_fst (digits ++ rest) 0 0
    have hlen := List.length_pos_iff.2 h.1
    have hdrop : (digits ++ rest).dropWhile isdigit = rest := by
      rw [List.dropWhile_append_of_pos h.2]
      cases rest with
      | nil => rfl
      | cons c rest => simp [hrest c rfl]
    rw [takeWhile_of_stops h.2 hrest, hdrop, Nat.zero_add] at hsnd
    rw [takeWhile_of_stops h.2 hrest] at hfst
    simp only [fractionText, List.cons_append, scanMilliseconds, hsnd]
    rw [if_neg (by omega), hfst]
    change some (decimal (digits.take 3) * _, rest) = _
    rw [fraction_cut h.2]
    rfl

end Tail

/-! ## What is accepted -/

section Accepted

variable {value : List UInt8} {p : Pieces} {m : Moment}

theorem scanCivil_eq_some {year month day hour minute second : ℤ} {rest : List UInt8}
    (h : scanCivil value = some ((year, month, day), (hour, minute, second), rest)) :
    ∃ p : Pieces, value = p.civil ++ rest ∧ TakenField 4 p.year year ∧
      TakenField 2 p.month month ∧ TakenField 2 p.day day ∧ TakenField 2 p.hour hour ∧
      TakenField 2 p.minute minute ∧ TakenField 2 p.second second := by
  simp only [scanCivil, Option.bind_eq_bind, Option.bind_eq_some_iff, Prod.exists, Option.pure_def,
    Option.some.injEq, Prod.mk.injEq] at h
  obtain ⟨_, r₁, h₁, r₂, h₂, _, r₃, h₃, r₄, h₄, _, r₅, h₅, r₆, h₆, _, r₇, h₇, r₈, h₈, _, r₉, h₉,
    r₁₀, h₁₀, _, r₁₁, h₁₁, ⟨rfl, rfl, rfl⟩, ⟨rfl, rfl, rfl⟩, rfl⟩ := h
  obtain ⟨year, hyear, hyear', -⟩ := scanInt_eq_some h₁
  obtain ⟨month, hmonth, hmonth', -⟩ := scanInt_eq_some h₃
  obtain ⟨day, hday, hday', -⟩ := scanInt_eq_some h₅
  obtain ⟨hour, hhour, hhour', -⟩ := scanInt_eq_some h₇
  obtain ⟨minute, hminute, hminute', -⟩ := scanInt_eq_some h₉
  obtain ⟨second, hsecond, hsecond', -⟩ := scanInt_eq_some h₁₁
  refine ⟨⟨year, month, day, hour, minute, second, none, none⟩, ?_, hyear', hmonth', hday', hhour',
    hminute', hsecond'⟩
  rw [hyear, scanChar_eq_some h₂, hmonth, scanChar_eq_some h₄, hday, scanChar_eq_some h₆, hhour,
    scanChar_eq_some h₈, hminute, scanChar_eq_some h₁₀, hsecond]
  simp [Pieces.civil]

/-- The end of a timestamp does not go on with a digit. -/
theorem stopsDigits_tail (fraction : Option (List UInt8))
    {zone : Option (UInt8 × List UInt8 × List UInt8)} (h : ZoneRead zone) :
    StopsDigits (zoneText zone) ∧ StopsDigits (fractionText fraction ++ zoneText zone) ∧
      (zoneText zone).head? ≠ some 0x2e := by
  have hzone : StopsDigits (zoneText zone) ∧ (zoneText zone).head? ≠ some 0x2e := by
    match zone, h with
    | none, _ => exact ⟨stopsDigits_cons (by decide), by decide⟩
    | some (sign, hours, minutes), h =>
      obtain ⟨hsign, -⟩ := h
      rcases hsign with rfl | rfl
      · exact ⟨stopsDigits_cons (by decide), by simp [zoneText]⟩
      · exact ⟨stopsDigits_cons (by decide), by simp [zoneText]⟩
  cases fraction with
  | none => exact ⟨hzone.1, hzone.1, hzone.2⟩
  | some digits => exact ⟨hzone.1, stopsDigits_cons (by decide), hzone.2⟩

theorem scanCivil_text (h : p.ReadAs m) : scanCivil p.text =
    some ((m.year, m.month, m.day), (m.hour, m.minute, m.second),
      fractionText p.fraction ++ zoneText p.zone) := by
  have hdash : ∀ rest, StopsDigits (0x2d :: rest) := fun _ => stopsDigits_cons (by decide)
  have ht : ∀ rest, StopsDigits (0x54 :: rest) := fun _ => stopsDigits_cons (by decide)
  have hcolon : ∀ rest, StopsDigits (0x3a :: rest) := fun _ => stopsDigits_cons (by decide)
  simp only [Pieces.text, Pieces.civil, scanCivil, List.append_assoc, List.cons_append,
    scanInt_field h.year (hdash _), scanInt_field h.month (hdash _), scanInt_field h.day (ht _),
    scanInt_field h.hour (hcolon _), scanInt_field h.minute (hcolon _),
    scanInt_field h.second (stopsDigits_tail p.fraction h.zone).2.1, scanChar_cons,
    Option.bind_eq_bind, Option.bind_some, Option.pure_def]

/-- **What is accepted:** the texts made of pieces that are read, in range. -/
theorem parseRfc3339Ms_isSome_iff (value : List UInt8) :
    (parseRfc3339Ms value).isSome ↔ ∃ p : Pieces, p.text = value ∧ ∃ m, p.ReadAs m := by
  constructor
  · intro h
    unfold parseRfc3339Ms at h
    split at h
    · cases h
    split at h
    · cases h
    next year month day hour minute second rest hscan =>
      split at h
      · cases h
      next hrange =>
        split at h
        · cases h
        next hday =>
          simp only [not_or, ne_eq, not_not, Int.not_lt] at hrange hday
          obtain ⟨ms, h⟩ := Option.isSome_iff_exists.1 h
          simp only [Option.bind_eq_bind, Option.bind_eq_some_iff, Prod.exists] at h
          obtain ⟨milliseconds, zone, hmilliseconds, offset, hoffset, -⟩ := h
          obtain ⟨p, hvalue, hyear', hmonth', hday', hhour', hminute', hsecond'⟩ :=
            scanCivil_eq_some hscan
          obtain ⟨fraction, hrest, hfraction⟩ := scanMilliseconds_eq_some hmilliseconds
          obtain ⟨zone, rfl, hzone⟩ := (scanOffset_isSome_iff zone).1 (by rw [hoffset]; rfl)
          have hlen : p.civil.length = 19 := by
            have := congrArg List.length hvalue
            rw [List.length_append] at this
            omega
          refine ⟨{ p with fraction := fraction, zone := zone }, ?_,
            ⟨year, month, day, hour, minute, second⟩, ?_⟩
          · rw [hvalue, hrest]
            rfl
          · obtain ⟨-, hy₁, hy₂, hm₁, hm₂, hh₁, hh₂, hmi₁, hmi₂, hs₁, hs₂⟩ := hrange
            exact ⟨hlen, hyear', hmonth', hday', hhour', hminute', hsecond',
              ⟨⟨hy₁, hy₂⟩, ⟨hm₁, hm₂⟩, hday, ⟨hh₁, hh₂⟩, ⟨hmi₁, hmi₂⟩, ⟨hs₁, hs₂⟩⟩, hfraction, hzone⟩
  · rintro ⟨p, rfl, m, h⟩
    obtain ⟨hstops, -, hdot⟩ := stopsDigits_tail p.fraction h.zone
    have hmilliseconds := scanMilliseconds_fraction h.fraction hstops hdot
    obtain ⟨offset, hoffset⟩ := Option.isSome_iff_exists.1
      ((scanOffset_isSome_iff (zoneText p.zone)).2 ⟨p.zone, rfl, h.zone⟩)
    have hlen : p.text.length = 19 + (fractionText p.fraction ++ zoneText p.zone).length := by
      rw [Pieces.text, List.length_append, h.length]
    have hzone : 0 < (zoneText p.zone).length := by
      cases p.zone <;> simp [zoneText]
    obtain ⟨⟨hy₁, hy₂⟩, ⟨hm₁, hm₂⟩, ⟨hd₁, hd₂⟩, ⟨hh₁, hh₂⟩, ⟨hmi₁, hmi₂⟩, ⟨hs₁, hs₂⟩⟩ := h.range
    unfold parseRfc3339Ms
    rw [if_neg (by rw [List.length_append] at hlen; omega), scanCivil_text h]
    dsimp only
    rw [if_neg (by omega), if_neg (by omega), hmilliseconds]
    simp [hoffset]

/-! ## The pieces of a text -/

theorem fractionText_injective {fraction fraction' : Option (List UInt8)}
    (h : fractionText fraction = fractionText fraction') : fraction = fraction' := by
  cases fraction <;> cases fraction' <;> simp_all [fractionText]

theorem zoneText_injective {zone zone' : Option (UInt8 × List UInt8 × List UInt8)}
    (hzone : ZoneRead zone) (hzone' : ZoneRead zone') (h : zoneText zone = zoneText zone') :
    zone = zone' := by
  match zone, zone', hzone, hzone' with
  | none, none, _, _ => rfl
  | none, some (sign, hours, minutes), _, _ => simp [zoneText] at h
  | some (sign, hours, minutes), none, _, _ => simp [zoneText] at h
  | some (sign, hours, minutes), some (sign', hours', minutes'), hzone, hzone' =>
    obtain ⟨rfl, hrest⟩ := List.cons.inj h
    obtain ⟨rfl, htail⟩ := List.append_inj hrest (hzone.2.1.trans hzone'.2.1.symm)
    rw [(List.cons.inj htail).2]

/-- A text is read in one way only. -/
theorem Pieces.ReadAs.unique {q : Pieces} {m' : Moment} (hp : p.ReadAs m) (hq : q.ReadAs m')
    (h : p.text = q.text) : p = q := by
  have hdash : ∀ rest, StopsDigits (0x2d :: rest) := fun _ => stopsDigits_cons (by decide)
  have ht : ∀ rest, StopsDigits (0x54 :: rest) := fun _ => stopsDigits_cons (by decide)
  have hcolon : ∀ rest, StopsDigits (0x3a :: rest) := fun _ => stopsDigits_cons (by decide)
  obtain ⟨hcivil, htail⟩ := List.append_inj h (hp.length.trans hq.length.symm)
  obtain ⟨hyear, hcivil⟩ := field_unique hp.year hq.year (hdash _) (hdash _) hcivil
  obtain ⟨hmonth, hcivil⟩ :=
    field_unique hp.month hq.month (hdash _) (hdash _) (List.cons.inj hcivil).2
  obtain ⟨hday, hcivil⟩ := field_unique hp.day hq.day (ht _) (ht _) (List.cons.inj hcivil).2
  obtain ⟨hhour, hcivil⟩ :=
    field_unique hp.hour hq.hour (hcolon _) (hcolon _) (List.cons.inj hcivil).2
  obtain ⟨hminute, hcivil⟩ :=
    field_unique hp.minute hq.minute (hcolon _) (hcolon _) (List.cons.inj hcivil).2
  have hsecond := (List.cons.inj hcivil).2
  -- the fraction is what `scanMilliseconds` takes off the rest
  obtain ⟨hstops, -, hdot⟩ := stopsDigits_tail p.fraction hp.zone
  obtain ⟨hstops', -, hdot'⟩ := stopsDigits_tail q.fraction hq.zone
  have hms := scanMilliseconds_fraction hp.fraction hstops hdot
  have hms' := scanMilliseconds_fraction hq.fraction hstops' hdot'
  rw [htail, hms'] at hms
  have hzone := (Prod.mk.inj (Option.some.inj hms)).2
  rw [hzone] at htail
  have hfraction := fractionText_injective (List.append_cancel_right htail)
  have hzone := zoneText_injective hq.zone hp.zone hzone
  obtain ⟨⟩ := p
  obtain ⟨⟩ := q
  simp only at hyear hmonth hday hhour hminute hsecond hfraction hzone
  rw [hyear, hmonth, hday, hhour, hminute, hsecond, hfraction, hzone]

/-- A character that is no digit stands in one of the fields. -/
def Pieces.Irregular (p : Pieces) : Prop := ∃ field ∈ p.fields, ∃ c ∈ field, isdigit c = false

theorem ZoneRead.isZone {zone : Option (UInt8 × List UInt8 × List UInt8)} (h : ZoneRead zone)
    (hdigits : ∀ sign hours minutes, zone = some (sign, hours, minutes) →
      (∀ c ∈ hours, isdigit c = true) ∧ ∀ c ∈ minutes, isdigit c = true) : IsZone zone := by
  match zone, h with
  | none, _ => exact trivial
  | some (sign, hours, minutes), h =>
    obtain ⟨hsign, hhours, hminutes, v, w, hv, hw, hv₁, hw₁⟩ := h
    obtain ⟨hdigits₁, hdigits₂⟩ := hdigits sign hours minutes rfl
    have hv₂ := (hv.of_digits hdigits₁).2
    have hw₂ : w = decimal minutes := by
      rcases hw with hw | ⟨c, d, rfl, -, hd, -⟩
      · exact (hw.of_digits hdigits₂).2
      · rw [hdigits₂ d (by simp)] at hd
        cases hd
    exact ⟨hsign, ⟨hhours, hdigits₁⟩, ⟨hminutes, hdigits₂⟩, by omega, by omega⟩

/-- Pieces that are read without a character that is no digit follow the grammar. -/
theorem Pieces.ReadAs.isRfc3339 (h : p.ReadAs m) (hregular : ¬p.Irregular) : p.IsRfc3339 := by
  have hdigits : ∀ field ∈ p.fields, ∀ c ∈ field, isdigit c = true := by
    simpa [Pieces.Irregular] using hregular
  have hd₁ := hdigits p.year (by simp [Pieces.fields])
  have hd₂ := hdigits p.month (by simp [Pieces.fields])
  have hd₃ := hdigits p.day (by simp [Pieces.fields])
  have hd₄ := hdigits p.hour (by simp [Pieces.fields])
  have hd₅ := hdigits p.minute (by simp [Pieces.fields])
  have hd₆ := hdigits p.second (by simp [Pieces.fields])
  obtain ⟨hyear, hyear'⟩ := h.year.of_digits hd₁
  obtain ⟨hmonth, hmonth'⟩ := h.month.of_digits hd₂
  obtain ⟨hday, hday'⟩ := h.day.of_digits hd₃
  obtain ⟨hhour, hhour'⟩ := h.hour.of_digits hd₄
  obtain ⟨hminute, hminute'⟩ := h.minute.of_digits hd₅
  obtain ⟨hsecond, hsecond'⟩ := h.second.of_digits hd₆
  -- no field is longer than it should be, and together they are 14 characters
  have hlen := h.length
  simp only [Pieces.civil, List.length_append, List.length_cons] at hlen
  obtain ⟨⟨hy₁, hy₂⟩, ⟨hm₁, hm₂⟩, ⟨hdy₁, hdy₂⟩, ⟨-, hh₂⟩, ⟨-, hmi₂⟩, ⟨-, hs₂⟩⟩ := h.range
  rw [hyear', hmonth', Int.toNat_natCast] at hdy₂
  refine ⟨⟨by omega, hd₁⟩, ⟨by omega, hd₂⟩, ⟨by omega, hd₃⟩, ⟨by omega, hd₄⟩, ⟨by omega, hd₅⟩,
    ⟨by omega, hd₆⟩, ⟨by omega, by omega⟩, ⟨by omega, by omega⟩, ⟨by omega, by omega⟩, by omega,
    by omega, by omega, h.fraction, h.zone.isZone fun sign hours minutes hzone => ?_⟩
  exact ⟨hdigits hours (by simp [Pieces.fields, hzone]),
    hdigits minutes (by simp [Pieces.fields, hzone])⟩

theorem IsZone.zoneRead {zone : Option (UInt8 × List UInt8 × List UInt8)} (h : IsZone zone) :
    ZoneRead zone := by
  match zone, h with
  | none, _ => exact trivial
  | some (sign, hours, minutes), h =>
    obtain ⟨hsign, hhours, hminutes, hv, hw⟩ := h
    exact ⟨hsign, hhours.1, hminutes.1, decimal hours, decimal minutes, hhours.takenField,
      .inl hminutes.takenField, by omega, by omega⟩

theorem Pieces.IsRfc3339.regular (h : p.IsRfc3339) : ¬p.Irregular := by
  rintro ⟨field, hfield, c, hc, hno⟩
  have hdigits : isdigit c = true := by
    rw [Pieces.fields, List.mem_append] at hfield
    rcases hfield with hfield | hfield
    · simp only [List.mem_cons, List.not_mem_nil, or_false] at hfield
      rcases hfield with rfl | rfl | rfl | rfl | rfl | rfl
      · exact h.year.2 c hc
      · exact h.month.2 c hc
      · exact h.day.2 c hc
      · exact h.hour.2 c hc
      · exact h.minute.2 c hc
      · exact h.second.2 c hc
    · have hzone := h.zone
      match hz : p.zone with
      | none => simp [hz] at hfield
      | some (sign, hours, minutes) =>
        rw [hz] at hfield hzone
        obtain ⟨-, hhours, hminutes, -⟩ := hzone
        simp only [List.mem_cons, List.not_mem_nil, or_false] at hfield
        rcases hfield with rfl | rfl
        · exact hhours.2 c hc
        · exact hminutes.2 c hc
  rw [hdigits] at hno
  cases hno

theorem Pieces.IsRfc3339.readAs (h : p.IsRfc3339) :
    p.ReadAs ⟨decimal p.year, decimal p.month, decimal p.day, decimal p.hour, decimal p.minute,
      decimal p.second⟩ := by
  have hlen : p.civil.length = 19 := by
    simp only [Pieces.civil, List.length_append, List.length_cons, h.year.1, h.month.1, h.day.1,
      h.hour.1, h.minute.1, h.second.1]
  have hyear := h.year_range
  have hmonth := h.month_range
  have hday := h.day_range
  have hhour := h.hour_le
  have hminute := h.minute_le
  have hsecond := h.second_le
  refine ⟨hlen, h.year.takenField, h.month.takenField, h.day.takenField, h.hour.takenField,
    h.minute.takenField, h.second.takenField, ?_, h.fraction, h.zone.zoneRead⟩
  refine ⟨?_, ?_, ?_, ?_, ?_, ?_⟩ <;> dsimp only
  · omega
  · omega
  · rw [Int.toNat_natCast]
    omega
  · omega
  · omega
  · omega

/-- **When the timestamps it accepts are those of RFC 3339.** Exactly on the texts that are not made
of a date and a time of 19 characters, a fraction and a zone, in range, with white space, a sign or
another character that is no digit in one of the fields. -/
theorem accepts_rfc3339_iff (value : List UInt8) :
    ((parseRfc3339Ms value).isSome → ∃ p : Pieces, p.text = value ∧ p.IsRfc3339) ↔
      ¬∃ p : Pieces, p.text = value ∧ (∃ m, p.ReadAs m) ∧ p.Irregular := by
  rw [parseRfc3339Ms_isSome_iff]
  constructor
  · rintro h ⟨p, hp, hread, hirregular⟩
    obtain ⟨q, hq, hrfc⟩ := h ⟨p, hp, hread⟩
    obtain ⟨m, hread⟩ := hread
    exact hrfc.regular (hread.unique hrfc.readAs (hp.trans hq.symm) ▸ hirregular)
  · rintro h ⟨p, hp, m, hread⟩
    exact ⟨p, hp, hread.isRfc3339 fun hirregular => h ⟨p, hp, ⟨m, hread⟩, hirregular⟩⟩

/-- Noon with an offset of minus five hours after a plus sign. -/
def signedOffset : Pieces where
  year := [0x32, 0x30, 0x32, 0x36]
  month := [0x30, 0x38]
  day := [0x30, 0x31]
  hour := [0x31, 0x32]
  minute := [0x30, 0x30]
  second := [0x30, 0x30]
  fraction := none
  zone := some (0x2b, [0x2d, 0x35], [0x30, 0x30])

theorem signedOffset_readAs : signedOffset.ReadAs ⟨2026, 8, 1, 12, 0, 0⟩ := by
  have hoffset : TakenField 2 [0x2d, 0x35] (-5) :=
    ⟨[], [0x2d], [0x35], rfl, by simp, .inr (.inr rfl), by simp, by decide +kernel, by decide, rfl⟩
  have hyear : Digits 4 [0x32, 0x30, 0x32, 0x36] := ⟨rfl, by decide +kernel⟩
  have hmonth : Digits 2 [0x30, 0x38] := ⟨rfl, by decide +kernel⟩
  have hday : Digits 2 [0x30, 0x31] := ⟨rfl, by decide +kernel⟩
  have hhour : Digits 2 [0x31, 0x32] := ⟨rfl, by decide +kernel⟩
  have hzero : Digits 2 [0x30, 0x30] := ⟨rfl, by decide +kernel⟩
  exact ⟨rfl, hyear.takenField, hmonth.takenField, hday.takenField, hhour.takenField,
    hzero.takenField, hzero.takenField,
    ⟨by decide, by decide, by decide, by decide, by decide, by decide⟩, trivial,
    .inl rfl, rfl, rfl, -5, 0, hoffset, .inl hzero.takenField, by decide, by decide⟩

/-- `2026-08-01T12:00:00+-5:00` is accepted. -/
theorem signed_offset_accepted :
    signedOffset.text = "2026-08-01T12:00:00+-5:00".toUTF8.toList ∧
    (parseRfc3339Ms signedOffset.text).isSome ∧
      ¬∃ p : Pieces, p.text = signedOffset.text ∧ p.IsRfc3339 := by
  refine ⟨by decide +kernel, by decide +kernel, ?_⟩
  rintro ⟨p, htext, hrfc⟩
  obtain rfl := hrfc.readAs.unique signedOffset_readAs htext
  exact hrfc.regular ⟨[0x2d, 0x35], by simp [Pieces.fields, signedOffset], 0x2d, by simp, by decide⟩

end Accepted

end PowerMonitor.Telemetry
