import Mathlib.Data.List.TakeWhile
import PowerMonitor.Foundations.CText

/-!
# What the conversions of `sscanf` take

`TakenField` is the text that `%Nd` takes. A scan takes such a text and stops at the first character
that cannot belong to it (`scanInt_eq_some`); a field before a character that is no digit is taken
whole (`scanInt_field`), and so a text is taken apart in one way only (`field_unique`).
-/

namespace PowerMonitor.CText

/-- A text that `%Nd` takes whole, and the number it reads there: white space, a sign and digits. -/
def TakenField (width : ℕ) (text : List UInt8) (value : ℤ) : Prop :=
  ∃ blanks sign digits : List UInt8, text = blanks ++ (sign ++ digits) ∧
    (∀ c ∈ blanks, isspace c = true) ∧ (sign = [] ∨ sign = [0x2b] ∨ sign = [0x2d]) ∧
    digits ≠ [] ∧ (∀ c ∈ digits, isdigit c = true) ∧ sign.length + digits.length ≤ width ∧
    value = signed (decide (sign = [0x2d])) digits

/-- So many characters, all of them digits. -/
def Digits (width : ℕ) (text : List UInt8) : Prop :=
  text.length = width ∧ ∀ c ∈ text, isdigit c = true

/-- A text that does not go on with a digit. -/
def StopsDigits (rest : List UInt8) : Prop := ∀ c ∈ rest.head?, isdigit c = false

section Conversion

variable {width : ℕ} {text rest : List UInt8} {value : ℤ}

theorem stopsDigits_nil : StopsDigits [] := by simp [StopsDigits]

theorem stopsDigits_cons {c : UInt8} (h : isdigit c = false) : StopsDigits (c :: rest) := by
  simpa [StopsDigits] using h

theorem not_isspace_of_isdigit (c : UInt8) (h : isdigit c = true) : isspace c = false := by
  revert c
  exact forall_byte (by decide)

theorem takeWhile_of_stops {digits : List UInt8} (hdigits : ∀ c ∈ digits, isdigit c = true)
    (hrest : StopsDigits rest) : (digits ++ rest).takeWhile isdigit = digits := by
  rw [List.takeWhile_append_of_pos hdigits]
  cases rest with
  | nil => simp
  | cons c rest => simp [hrest c rfl]

theorem scanSign_sign {sign digits : List UInt8} (hsign : sign = [] ∨ sign = [0x2b] ∨ sign = [0x2d])
    (hdigits : ∀ c ∈ digits.head?, isdigit c = true) :
    scanSign (sign ++ digits) = (decide (sign = [0x2d]), sign.length, digits) := by
  rcases hsign with rfl | rfl | rfl
  · match digits, hdigits with
    | [], _ => rfl
    | c :: digits, hdigits =>
      have hc := hdigits c rfl
      have hplus : c ≠ 0x2b := fun h => by simp [h, isdigit] at hc
      have hminus : c ≠ 0x2d := fun h => by simp [h, isdigit] at hc
      unfold scanSign
      split
      · rename_i heq
        exact absurd (List.cons.inj heq).1 hplus
      · rename_i heq
        exact absurd (List.cons.inj heq).1 hminus
      · rfl
  · rfl
  · rfl

/-- A field is taken up to the character after it, which is no digit. -/
theorem scanInt_field (h : TakenField width text value) (hrest : StopsDigits rest) :
    scanInt width (text ++ rest) = some (value, rest) := by
  obtain ⟨blanks, sign, digits, rfl, hblanks, hsign, hne, hdigits, hwidth, rfl⟩ := h
  obtain ⟨d, ds, rfl⟩ := List.exists_cons_of_ne_nil hne
  have hd := hdigits d (List.mem_cons_self ..)
  have hskip : (blanks ++ (sign ++ d :: ds) ++ rest).dropWhile isspace = sign ++ (d :: ds ++ rest) := by
    rw [List.append_assoc, List.dropWhile_append_of_pos hblanks, List.append_assoc]
    rcases hsign with rfl | rfl | rfl
    · simp [not_isspace_of_isdigit d hd]
    · rfl
    · rfl
  have htaken : ((d :: ds ++ rest).take (width - sign.length)).takeWhile isdigit = d :: ds := by
    rw [List.take_append, List.take_of_length_le (by omega)]
    refine takeWhile_of_stops hdigits ?_
    intro c hc
    cases rest with
    | nil => simp at hc
    | cons r rest =>
      cases hk : width - sign.length - (d :: ds).length with
      | zero =>
        rw [hk] at hc
        cases hc
      | succ k =>
        rw [hk] at hc
        exact hrest c hc
  have hsign' : scanSign (sign ++ (d :: ds ++ rest)) = _ :=
    scanSign_sign hsign (by simpa using hd)
  simp only [scanInt, hskip, hsign', htaken, reduceCtorEq, if_false]
  simp

/-- The digits among the first characters, and what comes after them. -/
theorem digits_append_drop (limit : ℕ) (text : List UInt8) :
    text = (text.take limit).takeWhile isdigit ++
      text.drop ((text.take limit).takeWhile isdigit).length := by
  have hpre : (text.take limit).takeWhile isdigit <+: text :=
    (List.takeWhile_prefix _).trans (List.take_prefix ..)
  exact (List.prefix_iff_eq_append.1 hpre).symm

/-- Digits end before the limit only at a character that is none. -/
theorem stops_of_lt_limit {limit : ℕ} (text : List UInt8)
    (h : ((text.take limit).takeWhile isdigit).length < limit) :
    StopsDigits (text.drop ((text.take limit).takeWhile isdigit).length) := by
  induction text generalizing limit with
  | nil => simp [StopsDigits]
  | cons c text ih =>
    cases limit with
    | zero => cases h
    | succ limit =>
      rw [List.take_succ_cons, List.takeWhile_cons] at h ⊢
      by_cases hc : isdigit c = true
      · rw [if_pos hc] at h ⊢
        exact ih (Nat.lt_of_succ_lt_succ h)
      · rw [if_neg hc]
        intro d hd
        obtain rfl : c = d := by simpa using hd
        simpa using hc

theorem scanSign_eq (text : List UInt8) : ∃ sign : List UInt8,
    (sign = [] ∨ sign = [0x2b] ∨ sign = [0x2d]) ∧ text = sign ++ (scanSign text).2.2 ∧
      (scanSign text).1 = decide (sign = [0x2d]) ∧ (scanSign text).2.1 = sign.length := by
  unfold scanSign
  split
  · exact ⟨[0x2b], .inr (.inl rfl), rfl, rfl, rfl⟩
  · exact ⟨[0x2d], .inr (.inr rfl), rfl, rfl, rfl⟩
  · exact ⟨[], .inl rfl, rfl, rfl, rfl⟩

/-- What was taken, and why no more was. -/
theorem scanInt_eq_some (h : scanInt width text = some (value, rest)) :
    ∃ field, text = field ++ rest ∧ TakenField width field value ∧
      (field.length < width → StopsDigits rest) := by
  obtain ⟨sign, hsign, htext, hnegative, htaken⟩ := scanSign_eq (text.dropWhile isspace)
  simp only [scanInt] at h
  rw [hnegative, htaken] at h
  generalize (scanSign (text.dropWhile isspace)).2.2 = after at h htext
  split at h
  · cases h
  rename_i hne
  obtain ⟨rfl, rfl⟩ := Prod.mk.inj (Option.some.inj h)
  have hsplit := digits_append_drop (width - sign.length) after
  have hstops := @stops_of_lt_limit (width - sign.length) after
  have hcount : ((after.take (width - sign.length)).takeWhile isdigit).length ≤
      width - sign.length :=
    le_trans (List.takeWhile_prefix _).length_le (List.length_take_le ..)
  have hall : ∀ c ∈ (after.take (width - sign.length)).takeWhile isdigit, isdigit c = true :=
    fun c hc => List.mem_takeWhile_imp hc
  generalize (after.take (width - sign.length)).takeWhile isdigit = digits at *
  have hpos := List.length_pos_iff.2 hne
  refine ⟨text.takeWhile isspace ++ (sign ++ digits), ?_, ⟨text.takeWhile isspace, sign, digits, rfl,
    fun c hc => List.mem_takeWhile_imp hc, hsign, hne, hall, by omega, rfl⟩, fun hlt => hstops ?_⟩
  · rw [List.append_assoc, List.append_assoc, ← hsplit, ← htext, List.takeWhile_append_dropWhile]
  · simp only [List.length_append] at hlt
    omega

theorem field_unique {width : ℕ} {f g r r' : List UInt8} {v v' : ℤ} (hf : TakenField width f v)
    (hg : TakenField width g v') (hr : StopsDigits r) (hr' : StopsDigits r')
    (h : f ++ r = g ++ r') : f = g ∧ r = r' := by
  have hscan := scanInt_field hf hr
  rw [h, scanInt_field hg hr'] at hscan
  obtain ⟨-, rfl⟩ := Prod.mk.inj (Option.some.inj hscan)
  exact ⟨List.append_cancel_right h, rfl⟩

end Conversion

section Fields

/-- A field is not empty, and is made of white space, signs and digits. -/
theorem TakenField.mem {width : ℕ} {text : List UInt8} {value : ℤ}
    (h : TakenField width text value) :
    text ≠ [] ∧ ∀ c ∈ text, isspace c = true ∨ c = 0x2b ∨ c = 0x2d ∨ isdigit c = true := by
  obtain ⟨blanks, sign, digits, rfl, hblanks, hsign, hne, hdigits, -⟩ := h
  refine ⟨by simp [hne], fun c hc => ?_⟩
  rw [List.mem_append, List.mem_append] at hc
  rcases hc with hc | hc | hc
  · exact .inl (hblanks c hc)
  · rcases hsign with rfl | rfl | rfl
    · cases hc
    · exact .inr (.inl (List.mem_singleton.1 hc))
    · exact .inr (.inr (.inl (List.mem_singleton.1 hc)))
  · exact .inr (.inr (.inr (hdigits c hc)))

/-- A field of one character is a digit. -/
theorem takenField_singleton {width : ℕ} {c : UInt8} {value : ℤ} (h : TakenField width [c] value) :
    isdigit c = true ∧ value = decimal [c] := by
  obtain ⟨blanks, sign, digits, htext, -, -, hne, hdigits, -, rfl⟩ := h
  obtain ⟨d, ds, rfl⟩ := List.exists_cons_of_ne_nil hne
  have hlen := congrArg List.length htext
  simp only [List.length_append, List.length_cons, List.length_nil] at hlen
  obtain rfl := List.length_eq_zero_iff.1 (show blanks.length = 0 by omega)
  obtain rfl := List.length_eq_zero_iff.1 (show sign.length = 0 by omega)
  obtain rfl := List.length_eq_zero_iff.1 (show ds.length = 0 by omega)
  obtain rfl : c = d := by simpa using htext
  exact ⟨hdigits c (List.mem_cons_self ..), rfl⟩

theorem takenField_digit {c : UInt8} (h : isdigit c = true) : TakenField 2 [c] (decimal [c]) :=
  ⟨[], [], [c], rfl, by simp, .inl rfl, by simp, by simpa using h, by simp, rfl⟩

theorem scanChar_eq_some {c : UInt8} {text rest : List UInt8} (h : scanChar c text = some rest) :
    text = c :: rest := by
  unfold scanChar at h
  split at h
  · split at h
    next heq =>
      rw [heq, Option.some.inj h]
    · cases h
  · cases h

theorem scanChar_cons (c : UInt8) (rest : List UInt8) : scanChar c (c :: rest) = some rest :=
  if_pos rfl

theorem TakenField.of_digits {width : ℕ} {text : List UInt8} {v : ℤ}
    (h : TakenField width text v) (hdigits : ∀ c ∈ text, isdigit c = true) :
    text.length ≤ width ∧ v = decimal text := by
  obtain ⟨blanks, sign, digits, rfl, hblanks, hsign, -, -, hwidth, rfl⟩ := h
  have hnil : blanks = [] := by
    refine List.eq_nil_iff_forall_not_mem.2 fun c hc => ?_
    have hspace := not_isspace_of_isdigit c (hdigits c (by simp [hc]))
    rw [hblanks c hc] at hspace
    cases hspace
  have hsignnil : sign = [] := by
    rcases hsign with rfl | rfl | rfl
    · rfl
    · exact absurd (hdigits 0x2b (by simp)) (by decide)
    · exact absurd (hdigits 0x2d (by simp)) (by decide)
  subst hnil hsignnil
  simpa [signed] using hwidth

theorem Digits.takenField {width : ℕ} {text : List UInt8} (h : Digits (width + 1) text) :
    TakenField (width + 1) text (decimal text) := by
  refine ⟨[], [], text, rfl, by simp, .inl rfl, ?_, h.2, by simp [h.1], by simp [signed]⟩
  rintro rfl
  simpa using h.1

end Fields

end PowerMonitor.CText
