import Mathlib.Tactic.Common

/-!
# Base64

The encoding of RFC 4648 with padding, and a decoder for it. As with SHA-256, the developments that
use Base64 take the decoder as a parameter and run their concrete traces with this one, for which
`decode_encode` says that it undoes the encoding.
-/

namespace PowerMonitor.Base64Text

/-- The character of a value below 64. -/
def char (v : ℕ) : UInt8 :=
  if v < 26 then UInt8.ofNat (65 + v)
  else if v < 52 then UInt8.ofNat (71 + v)
  else if v < 62 then UInt8.ofNat (v - 4)
  else if v = 62 then 43 else 47

/-- The value of a character of the alphabet. -/
def value (c : UInt8) : Option ℕ :=
  if 65 ≤ c ∧ c ≤ 90 then some (c.toNat - 65)
  else if 97 ≤ c ∧ c ≤ 122 then some (c.toNat - 71)
  else if 48 ≤ c ∧ c ≤ 57 then some (c.toNat + 4)
  else if c = 43 then some 62
  else if c = 47 then some 63
  else none

/-- The encoding, three bytes to four characters. -/
def encode : List UInt8 → List UInt8
  | a :: b :: c :: rest =>
    char (a.toNat / 4) :: char (a.toNat % 4 * 16 + b.toNat / 16) ::
      char (b.toNat % 16 * 4 + c.toNat / 64) :: char (c.toNat % 64) :: encode rest
  | [a, b] =>
    [char (a.toNat / 4), char (a.toNat % 4 * 16 + b.toNat / 16), char (b.toNat % 16 * 4), 61]
  | [a] => [char (a.toNat / 4), char (a.toNat % 4 * 16), 61, 61]
  | [] => []

/-- The bytes of an encoding; `none` when the text is not one. -/
def decode : List UInt8 → Option (List UInt8)
  | w :: x :: y :: z :: rest => do
    let w ← value w
    let x ← value x
    if y = 61 then
      if z = 61 ∧ rest = [] ∧ x % 16 = 0 then return [UInt8.ofNat (w * 4 + x / 16)] else none
    else
      let y ← value y
      if z = 61 then
        if rest = [] ∧ y % 4 = 0 then
          return [UInt8.ofNat (w * 4 + x / 16), UInt8.ofNat (x % 16 * 16 + y / 4)]
        else none
      else
        let z ← value z
        let rest ← decode rest
        return UInt8.ofNat (w * 4 + x / 16) :: UInt8.ofNat (x % 16 * 16 + y / 4) ::
          UInt8.ofNat (y % 4 * 64 + z) :: rest
  | [] => some []
  | _ => none

theorem char_spec : ∀ v < 64, value (char v) = some v ∧ char v ≠ 61 ∧ char v ≠ 0 := by
  decide

@[simp] theorem zero_ne_char (v : ℕ) : 0 ≠ char v := by
  by_cases hv : v < 64
  · exact (char_spec v hv).2.2.symm
  · rw [char, if_neg (by omega), if_neg (by omega), if_neg (by omega), if_neg (by omega)]
    decide

theorem ofNat_eq {a : UInt8} {n : ℕ} (h : n = a.toNat) : UInt8.ofNat n = a := by
  rw [h, UInt8.ofNat_toNat]

theorem decode_encode (l : List UInt8) : decode (encode l) = some l := by
  induction l using encode.induct with
  | case1 a b c rest ih =>
    have ha := a.toNat_lt
    have hb := b.toNat_lt
    have hc := c.toNat_lt
    have h1 := char_spec (a.toNat / 4) (by omega)
    have h2 := char_spec (a.toNat % 4 * 16 + b.toNat / 16) (by omega)
    have h3 := char_spec (b.toNat % 16 * 4 + c.toNat / 64) (by omega)
    have h4 := char_spec (c.toNat % 64) (by omega)
    simp only [encode, decode, h1.1, h2.1, h3.1, h4.1, ih, if_neg h3.2.1, if_neg h4.2.1,
      Option.bind_eq_bind, Option.bind_some, Option.pure_def]
    rw [ofNat_eq (a := a) (by omega), ofNat_eq (a := b) (by omega), ofNat_eq (a := c) (by omega)]
  | case2 a b =>
    have ha := a.toNat_lt
    have hb := b.toNat_lt
    have h1 := char_spec (a.toNat / 4) (by omega)
    have h2 := char_spec (a.toNat % 4 * 16 + b.toNat / 16) (by omega)
    have h3 := char_spec (b.toNat % 16 * 4) (by omega)
    simp only [encode, decode, h1.1, h2.1, h3.1, if_neg h3.2.1, Option.bind_eq_bind,
      Option.bind_some, Option.pure_def, if_true]
    rw [if_pos ⟨trivial, by omega⟩, ofNat_eq (a := a) (by omega), ofNat_eq (a := b) (by omega)]
  | case3 a =>
    have ha := a.toNat_lt
    have h1 := char_spec (a.toNat / 4) (by omega)
    have h2 := char_spec (a.toNat % 4 * 16) (by omega)
    simp only [encode, decode, h1.1, h2.1, Option.bind_eq_bind, Option.bind_some, Option.pure_def,
      if_true]
    rw [if_pos ⟨trivial, trivial, by omega⟩, ofNat_eq (a := a) (by omega)]
  | case4 => rfl

theorem length_encode (l : List UInt8) : (encode l).length = 4 * ((l.length + 2) / 3) := by
  induction l using encode.induct with
  | case1 a b c rest ih =>
    simp only [encode, List.length_cons, ih]
    omega
  | case2 a b => simp [encode]
  | case3 a => simp [encode]
  | case4 => rfl

/-- An encoding is a C string. -/
theorem zero_notMem_encode (l : List UInt8) : 0 ∉ encode l := by
  induction l using encode.induct with
  | case1 a b c rest ih => simp [encode, ih]
  | case2 a b => simp [encode]
  | case3 a => simp [encode]
  | case4 => simp [encode]

end PowerMonitor.Base64Text
