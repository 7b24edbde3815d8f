import Mathlib.Data.List.Basic
import PowerMonitor.Protocol.Canonical

/-!
# The parts of a query

`pm_canonical_query` with its output buffer: the query is split at its `&`, every part is checked,
the digits of its escapes are put in upper case, and the parts are sorted and joined again.

* `pmCanonicalQuery` is the function with its output; it agrees with `canonicalQuery`.
* The case of escapes does not matter to the checks (`valid_escape`), and parts fit their buffer
  when the joined text does (`joinInto_eq`).
-/

namespace PowerMonitor.Protocol

open CMemory CJson CText

/-! ## The function with its output -/

/-- The loop that writes the parts: whether all of them fitted, and what was written. -/
def joinInto (outputSize : ℕ) : Bool → ℕ → List (List UInt8) → Bool × List UInt8
  | _, _, [] => (true, [])
  | first, used, part :: parts =>
    let separator : List UInt8 := if first then [] else [0x26]
    if used + part.length + separator.length + 1 > outputSize then (false, [])
    else
      let rest := joinInto outputSize false (used + separator.length + part.length) parts
      (rest.1, separator ++ part ++ rest.2)

/-- `pm_canonical_query`: its result, and the text in a buffer of `outputSize` bytes, of which there
is at least one. -/
def pmCanonicalQuery (query : Option (List UInt8)) (outputSize : ℕ) : EspErr × List UInt8 :=
  match query with
  | none | some [] => (.ok, [])
  | some query =>
    if canonicalQueryMax ≤ query.length ∨ outputSize < query.length + 1 then (.invalidSize, [])
    else
      let parts := query.splitOn 0x26
      if 32 < parts.length then (.invalidSize, [])
      else if parts.any fun part => part = [] || !validEncodedComponent part then (.invalidArg, [])
      else
        let written := joinInto outputSize true 0 ((parts.map upperEscapes).mergeSort compareStrings)
        (if written.1 then .ok else .invalidSize, written.2)

theorem joinParts_eq (outputSize : ℕ) (first : Bool) (used : ℕ) (parts : List (List UInt8)) :
    joinParts outputSize first used parts =
      if (joinInto outputSize first used parts).1 then
        some (joinInto outputSize first used parts).2 else none := by
  induction parts generalizing first used with
  | nil => rfl
  | cons part parts ih =>
    simp only [joinParts, joinInto]
    generalize (if first = true then [] else [0x26] : List UInt8) = separator
    by_cases hfits : used + part.length + separator.length + 1 > outputSize
    · simp [hfits]
    · rw [if_neg hfits, if_neg hfits, ih]
      by_cases hrest : (joinInto outputSize false (used + separator.length + part.length) parts).1
      · simp [hrest]
      · simp [hrest]

/-- The function with its output returns what `canonicalQuery` does. -/
theorem canonicalQuery_eq {query : Option (List UInt8)} {outputSize : ℕ} (h : 0 < outputSize) :
    canonicalQuery query outputSize =
      if (pmCanonicalQuery query outputSize).1 = .ok then
        .ok (pmCanonicalQuery query outputSize).2
      else .error (pmCanonicalQuery query outputSize).1 := by
  have hsize : EspErr.invalidSize ≠ .ok := by decide
  have harg : EspErr.invalidArg ≠ .ok := by decide
  rcases query with _ | _ | ⟨c, cs⟩
  · simp [canonicalQuery, pmCanonicalQuery, show outputSize ≠ 0 by omega]
  · simp [canonicalQuery, pmCanonicalQuery, show outputSize ≠ 0 by omega]
  · simp only [canonicalQuery, pmCanonicalQuery, joinParts_eq, if_neg (show outputSize ≠ 0 by omega)]
    by_cases h₁ : canonicalQueryMax ≤ (c :: cs).length ∨ outputSize < (c :: cs).length + 1
    · simp only [if_pos h₁, if_neg hsize]
    simp only [if_neg h₁]
    by_cases h₂ : 32 < ((c :: cs).splitOn 0x26).length
    · simp only [if_pos h₂, if_neg hsize]
    simp only [if_neg h₂]
    by_cases h₃ : (((c :: cs).splitOn 0x26).any fun part =>
        part = [] || !validEncodedComponent part) = true
    · simp only [if_pos h₃, if_neg harg]
    simp only [if_neg h₃]
    cases (joinInto outputSize true 0
      ((((c :: cs).splitOn 0x26).map upperEscapes).mergeSort compareStrings)).1 with
    | false => simp [hsize]
    | true => simp

/-! ## Parts and escapes -/

/-- The parts of a query. -/
abbrev queryParts (query : List UInt8) : List (List UInt8) := query.splitOn 0x26

section Parts

theorem toupper_eq_ampersand_iff (c : UInt8) : toupper c = 0x26 ↔ c = 0x26 := by
  revert c
  exact forall_byte (by decide)

@[simp] theorem toupper_toupper (c : UInt8) : toupper (toupper c) = toupper c := by
  revert c
  exact forall_byte (by decide)

@[simp] theorem isxdigit_toupper (c : UInt8) : isxdigit (toupper c) = isxdigit c := by
  revert c
  exact forall_byte (by decide)

/-- A hexadecimal digit is neither the start of an escape nor a character that is refused. -/
theorem plain_of_isxdigit (c : UInt8) (h : isxdigit c = true) :
    c ≠ 0x25 ∧ (c ≤ 0x20 || c == 0x7f || c == 0x23 || c == 0x2b) = false := by
  revert c
  exact forall_byte (by decide)

theorem upperEscapes_cons {c : UInt8} (h : c ≠ 0x25) (rest : List UInt8) :
    upperEscapes (c :: rest) = c :: upperEscapes rest := by
  rw [upperEscapes.eq_3]
  rintro a b rest' rfl
  exact absurd rfl h

theorem upperEscapes_escape (a b : UInt8) (rest : List UInt8) :
    upperEscapes (0x25 :: a :: b :: rest) = 0x25 :: toupper a :: toupper b :: upperEscapes rest :=
  rfl

@[simp] theorem length_upperEscapes (part : List UInt8) :
    (upperEscapes part).length = part.length := by
  induction part using upperEscapes.induct with
  | case1 => rfl
  | case2 a b rest ih => simp [upperEscapes_escape, ih]
  | case3 c rest h ih =>
    rw [upperEscapes.eq_3 _ _ h, List.length_cons, ih, List.length_cons]

theorem ampersand_mem_upperEscapes (part : List UInt8) :
    0x26 ∈ upperEscapes part ↔ 0x26 ∈ part := by
  induction part using upperEscapes.induct with
  | case1 => rfl
  | case2 a b rest ih =>
    simp only [upperEscapes_escape, List.mem_cons, ih, eq_comm (a := (0x26 : UInt8)),
      toupper_eq_ampersand_iff]
  | case3 c rest h ih => rw [upperEscapes.eq_3 _ _ h, List.mem_cons, List.mem_cons, ih]

theorem valid_cons {c : UInt8} (h : c ≠ 0x25) (rest : List UInt8) :
    validEncodedComponent (c :: rest) =
      (!(c ≤ 0x20 || c == 0x7f || c == 0x23 || c == 0x2b) && validEncodedComponent rest) := by
  have hc : (c == 0x25) = false := by simpa using h
  simp [validEncodedComponent, hc]

theorem valid_escape (a b : UInt8) (rest : List UInt8) :
    validEncodedComponent (0x25 :: a :: b :: rest) =
      (isxdigit a && isxdigit b && validEncodedComponent rest) := by
  have hstart : validEncodedComponent (0x25 :: a :: b :: rest) =
      (isxdigit a && isxdigit b && validEncodedComponent (a :: b :: rest)) := by
    simp [validEncodedComponent]
  rw [hstart]
  cases ha : isxdigit a with
  | false => rfl
  | true =>
    cases hb : isxdigit b with
    | false => rfl
    | true =>
      obtain ⟨ha₁, ha₂⟩ := plain_of_isxdigit a ha
      obtain ⟨hb₁, hb₂⟩ := plain_of_isxdigit b hb
      rw [valid_cons ha₁, valid_cons hb₁, ha₂, hb₂]
      simp

/-- An escape that is cut off is not valid. -/
theorem valid_cut {rest : List UInt8} (h : rest.length < 2) :
    validEncodedComponent (0x25 :: rest) = false := by
  have hget : rest.getD 1 0 = 0 := by
    rw [List.getD_eq_getElem?_getD, List.getElem?_eq_none (by omega), Option.getD_none]
  have hzero : isxdigit 0 = false := by decide
  unfold validEncodedComponent
  rw [hget, hzero]
  simp

end Parts

/-! ## Joining -/

section Joining

theorem not_mem_of_mem_splitOn {x : UInt8} {query part : List UInt8}
    (h : part ∈ query.splitOn x) : x ∉ part := by
  induction query generalizing part with
  | nil =>
    rw [List.splitOn_nil, List.mem_singleton] at h
    simp [h]
  | cons c rest ih =>
    obtain ⟨first, others, hrest⟩ := List.exists_cons_of_ne_nil (List.splitOn_ne_nil x rest)
    rw [List.splitOn_cons_eq_if_modifyHead, hrest] at h
    rw [hrest] at ih
    by_cases hc : (c == x) = true
    · rw [if_pos hc, List.mem_cons] at h
      rcases h with rfl | h
      · simp
      · exact ih h
    · rw [if_neg hc, List.modifyHead_cons, List.mem_cons] at h
      rcases h with rfl | h
      · have hfirst := ih (List.mem_cons_self ..)
        simp only [beq_iff_eq] at hc
        simp [hfirst, Ne.symm hc]
      · exact ih (List.mem_cons_of_mem _ h)

theorem intercalate_cons_eq (x : UInt8) (part : List UInt8) (parts : List (List UInt8)) :
    [x].intercalate (part :: parts) = part ++ parts.flatMap (x :: ·) := by
  induction parts generalizing part with
  | nil => simp
  | cons next parts ih => rw [List.intercalate_cons_cons, ih, List.flatMap_cons]; simp

theorem length_intercalate (x : UInt8) {parts : List (List UInt8)} (h : parts ≠ []) :
    ([x].intercalate parts).length + 1 = (parts.map List.length).sum + parts.length := by
  obtain ⟨part, parts, rfl⟩ := List.exists_cons_of_ne_nil h
  rw [intercalate_cons_eq]
  induction parts generalizing part with
  | nil => simp
  | cons next parts ih =>
    have := ih next (by simp)
    simp only [List.flatMap_cons, List.length_append, List.length_cons, List.map_cons,
      List.sum_cons] at this ⊢
    omega

/-- The parts fit when their joined text does. -/
theorem joinInto_rest {outputSize used : ℕ} {parts : List (List UInt8)}
    (h : used + (parts.flatMap (0x26 :: ·)).length + 1 ≤ outputSize) :
    joinInto outputSize false used parts = (true, parts.flatMap (0x26 :: ·)) := by
  induction parts generalizing used with
  | nil => rfl
  | cons part parts ih =>
    simp only [List.flatMap_cons, List.length_append, List.length_cons] at h
    simp only [joinInto, Bool.false_eq_true, if_false, List.length_singleton]
    rw [if_neg (by omega), ih (by omega)]
    simp

theorem joinInto_eq {outputSize : ℕ} {parts : List (List UInt8)} (hne : parts ≠ [])
    (h : ([0x26].intercalate parts : List UInt8).length + 1 ≤ outputSize) :
    joinInto outputSize true 0 parts = (true, [0x26].intercalate parts) := by
  obtain ⟨part, parts, rfl⟩ := List.exists_cons_of_ne_nil hne
  rw [intercalate_cons_eq] at h ⊢
  rw [List.length_append] at h
  simp only [joinInto, if_true, List.length_nil]
  rw [if_neg (by omega), joinInto_rest (by omega)]
  simp

end Joining

end PowerMonitor.Protocol
