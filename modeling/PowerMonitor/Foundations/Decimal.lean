import Mathlib.Data.List.Induction
import PowerMonitor.Foundations.CText

/-!
# Decimal numbers as texts

`printUnsigned` is the `%u` conversion of `printf`, and `IsNumeral` says that a text is a number
without leading zeros. The two agree: `decimal` reads back what was printed, and a numeral is what
its value prints.
-/

namespace PowerMonitor.CText

/-- The `%u` and `%lu` conversions of `printf`. -/
def printUnsigned (n : ℕ) : List UInt8 := (Nat.toDigits 10 n).map fun c => UInt8.ofNat c.toNat

/-- The character of a digit. -/
def digitByte (d : ℕ) : UInt8 := UInt8.ofNat (0x30 + d)

theorem toNat_digitByte {d : ℕ} (h : d < 10) : (digitByte d).toNat = 0x30 + d := by
  unfold digitByte
  rw [UInt8.toNat_ofNat']
  omega

theorem isdigit_iff {c : UInt8} : isdigit c = true ↔ 0x30 ≤ c.toNat ∧ c.toNat ≤ 0x39 := by
  simp only [isdigit, Bool.and_eq_true, decide_eq_true_eq, UInt8.le_iff_toNat_le]
  rfl

theorem isdigit_digitByte {d : ℕ} (h : d < 10) : isdigit (digitByte d) = true := by
  rw [isdigit_iff, toNat_digitByte h]
  omega

theorem digitValue_digitByte {d : ℕ} (h : d < 10) : digitValue (digitByte d) = d := by
  unfold digitValue
  rw [toNat_digitByte h]
  omega

theorem digitValue_lt {c : UInt8} (h : isdigit c = true) : digitValue c < 10 := by
  rw [isdigit_iff] at h
  unfold digitValue
  omega

theorem digitByte_digitValue {c : UInt8} (h : isdigit c = true) : digitByte (digitValue c) = c := by
  have hc := isdigit_iff.1 h
  apply UInt8.toNat_inj.1
  rw [toNat_digitByte (digitValue_lt h)]
  unfold digitValue
  omega

@[simp] theorem decimal_nil : decimal [] = 0 := rfl

theorem decimal_append_singleton (l : List UInt8) (c : UInt8) :
    decimal (l ++ [c]) = 10 * decimal l + digitValue c := by
  simp [decimal, List.foldl_append]

theorem decimal_append (l l' : List UInt8) :
    decimal (l ++ l') = decimal l * 10 ^ l'.length + decimal l' := by
  induction l' using List.reverseRecOn with
  | nil => simp
  | append_singleton l' c ih =>
    rw [← List.append_assoc, decimal_append_singleton, decimal_append_singleton, ih,
      List.length_append, List.length_singleton, Nat.pow_succ, ← Nat.mul_assoc]
    omega

theorem decimal_lt {l : List UInt8} (h : ∀ c ∈ l, isdigit c = true) :
    decimal l < 10 ^ l.length := by
  induction l using List.reverseRecOn with
  | nil => decide
  | append_singleton l c ih =>
    have hl := ih fun x hx => h x (List.mem_append_left _ hx)
    have hc := digitValue_lt (h c (by simp))
    rw [decimal_append_singleton, List.length_append, List.length_singleton, Nat.pow_succ]
    omega

theorem decimal_replicate_zero (n : ℕ) : decimal (List.replicate n 0x30) = 0 := by
  induction n with
  | zero => rfl
  | succ n ih =>
    rw [List.replicate_succ', decimal_append_singleton, ih]
    rfl

/-! ## Printing -/

theorem digitChar_byte {d : ℕ} (h : d < 10) : UInt8.ofNat (Nat.digitChar d).toNat = digitByte d := by
  rw [Nat.toNat_digitChar_of_lt_ten h]
  rfl

theorem printUnsigned_of_lt {n : ℕ} (h : n < 10) : printUnsigned n = [digitByte n] := by
  unfold printUnsigned
  rw [Nat.toDigits_of_lt_base h, List.map_singleton, digitChar_byte h]

/-- The last digit comes off the end. -/
theorem printUnsigned_of_le {n : ℕ} (h : 10 ≤ n) :
    printUnsigned n = printUnsigned (n / 10) ++ [digitByte (n % 10)] := by
  unfold printUnsigned
  rw [Nat.toDigits_of_base_le (by omega) h, List.map_append, List.map_singleton,
    digitChar_byte (Nat.mod_lt _ (by omega))]

theorem isdigit_of_mem_printUnsigned {n : ℕ} {c : UInt8} (h : c ∈ printUnsigned n) :
    isdigit c = true := by
  induction n using Nat.strongRecOn with
  | ind n ih =>
    by_cases hn : n < 10
    · rw [printUnsigned_of_lt hn, List.mem_singleton] at h
      exact h ▸ isdigit_digitByte hn
    · rw [printUnsigned_of_le (by omega), List.mem_append, List.mem_singleton] at h
      rcases h with h | rfl
      · exact ih (n / 10) (by omega) h
      · exact isdigit_digitByte (Nat.mod_lt _ (by omega))

/-- **Reading back**: the value of a printed number. -/
@[simp] theorem decimal_printUnsigned (n : ℕ) : decimal (printUnsigned n) = n := by
  induction n using Nat.strongRecOn with
  | ind n ih =>
    by_cases hn : n < 10
    · rw [printUnsigned_of_lt hn]
      simp [decimal, digitValue_digitByte hn]
    · rw [printUnsigned_of_le (by omega), decimal_append_singleton, ih (n / 10) (by omega),
        digitValue_digitByte (Nat.mod_lt _ (by omega))]
      omega

theorem printUnsigned_injective : Function.Injective printUnsigned := fun m n h => by
  rw [← decimal_printUnsigned m, h, decimal_printUnsigned]

theorem length_printUnsigned_le {n k : ℕ} (hk : 0 < k) (h : n < 10 ^ k) :
    (printUnsigned n).length ≤ k := by
  rw [printUnsigned, List.length_map]
  exact (Nat.length_toDigits_le_iff (by omega) hk).2 h

/-- The `%0Nu` conversion of `printf`. -/
def printPadded (width n : ℕ) : List UInt8 := (printUnsigned n).leftpad width 0x30

theorem isdigit_of_mem_printPadded {width n : ℕ} {c : UInt8} (h : c ∈ printPadded width n) :
    isdigit c = true := by
  rw [printPadded, List.leftpad, List.mem_append] at h
  rcases h with h | h
  · rw [List.eq_of_mem_replicate h]
    decide
  · exact isdigit_of_mem_printUnsigned h

@[simp] theorem decimal_printPadded (width n : ℕ) : decimal (printPadded width n) = n := by
  rw [printPadded, List.leftpad, decimal_append, decimal_replicate_zero, decimal_printUnsigned,
    Nat.zero_mul, Nat.zero_add]

theorem length_printPadded {width n : ℕ} (hwidth : 0 < width) (h : n < 10 ^ width) :
    (printPadded width n).length = width := by
  rw [printPadded, List.length_leftpad]
  exact Nat.max_eq_left (length_printUnsigned_le hwidth h)

/-! ## Numerals -/

/-- A text of digits that is `0` or does not start with one. -/
def IsNumeral (text : List UInt8) : Prop :=
  text ≠ [] ∧ (∀ c ∈ text, isdigit c = true) ∧ (text.head? = some 0x30 → text = [0x30])

instance (text : List UInt8) : Decidable (IsNumeral text) :=
  inferInstanceAs (Decidable (_ ∧ _ ∧ _))

theorem digitValue_pos {c : UInt8} (h : isdigit c = true) (hc : c ≠ 0x30) : 0 < digitValue c := by
  have hd := isdigit_iff.1 h
  have hne : c.toNat ≠ 0x30 := fun he => hc (UInt8.toNat_inj.1 he)
  unfold digitValue
  omega

theorem decimal_pos {c : UInt8} (h : 0 < digitValue c) (cs : List UInt8) :
    0 < decimal (c :: cs) := by
  induction cs using List.reverseRecOn with
  | nil => simpa [decimal] using h
  | append_singleton cs d ih =>
    rw [← List.cons_append, decimal_append_singleton]
    omega

/-- A numeral of two digits or more, without its last one. -/
theorem isNumeral_append_singleton {l : List UInt8} {c : UInt8} (hl : l ≠ [])
    (h : IsNumeral (l ++ [c])) : IsNumeral l ∧ 0 < decimal l := by
  obtain ⟨-, hdigits, hzero⟩ := h
  obtain ⟨d, ds, rfl⟩ := List.exists_cons_of_ne_nil hl
  have hd : d ≠ 0x30 := by
    rintro rfl
    simpa using hzero rfl
  have hdigit : isdigit d = true := hdigits d (by simp)
  refine ⟨⟨hl, fun x hx => hdigits x (List.mem_append_left _ hx), fun hx => ?_⟩,
    decimal_pos (digitValue_pos hdigit hd) ds⟩
  exact absurd (Option.some.inj hx) hd

/-- **A numeral is what its value prints.** -/
theorem printUnsigned_decimal {text : List UInt8} (h : IsNumeral text) :
    printUnsigned (decimal text) = text := by
  induction text using List.reverseRecOn with
  | nil => exact absurd rfl h.1
  | append_singleton l c ih =>
    have hc : isdigit c = true := h.2.1 c (by simp)
    have hlt := digitValue_lt hc
    by_cases hl : l = []
    · subst hl
      rw [decimal_append_singleton, decimal_nil, printUnsigned_of_lt (by omega)]
      simp [digitByte_digitValue hc]
    · obtain ⟨hnum, hpos⟩ := isNumeral_append_singleton hl h
      rw [decimal_append_singleton, printUnsigned_of_le (by omega),
        show (10 * decimal l + digitValue c) / 10 = decimal l by omega,
        show (10 * decimal l + digitValue c) % 10 = digitValue c by omega, ih hnum,
        digitByte_digitValue hc]

end PowerMonitor.CText
