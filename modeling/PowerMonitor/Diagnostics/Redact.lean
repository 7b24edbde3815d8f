import Mathlib.Data.List.Find
import PowerMonitor.Foundations.CJson
import PowerMonitor.Foundations.CText

/-!
# Redaction of diagnostics

`pm_diagnostics_redact` copies a text and replaces the values after certain keys. Its input and
output advance on their own, and it stops when the output is full.

* `redactLoop` is the loop of the source.
* `matchedKey_eq_some` and `matchedKey_word`: a key is found where a whole word is one.
* `matchedKey_append`: the search for a key does not go beyond the end of a word.
-/

namespace PowerMonitor.Diagnostics

open CMemory CJson CText

/-! ## The loop -/

/-- `keys`. -/
def redactKeys : List (List UInt8) :=
  [ascii "password", ascii "secret", ascii "token", ascii "authorization", ascii "cookie",
   ascii "private_key", ascii "hmac_key"]

/-- The characters of a word: `isalnum (c) || c == '_'`. -/
def isWord (c : UInt8) : Bool := isalnum c || c = 0x5f

/-- The characters after a key: blank, tab, `:` and `=`. -/
def isSeparator (c : UInt8) : Bool := c = 0x20 || c = 0x09 || c = 0x3a || c = 0x3d

/-- The quotes `"` and `'`. -/
def isQuote (c : UInt8) : Bool := c = 0x22 || c = 0x27

/-- The characters that end a value without quotes: `,`, `}` and white space. -/
def isTerminator (c : UInt8) : Bool := c = 0x2c || c = 0x7d || c = 0x0d || c = 0x0a || isspace c

/-- `case_prefix`. -/
def casePrefix : List UInt8 → List UInt8 → Bool
  | _, [] => true
  | [], _ :: _ => false
  | c :: text, k :: key => tolower c = k && casePrefix text key

/-- The key at a place of the text, by the character before it and the text from it on. -/
def matchedKey (prev : Option UInt8) (rest : List UInt8) : Option (List UInt8) :=
  redactKeys.find? fun key => !prev.any isWord && casePrefix rest key &&
    !(rest.drop key.length).head?.any isWord

/-- The place of the input: `input[in - 1]`, unless `in` is 0, and the text from `input[in]` on. -/
structure Cursor where
  prev : Option UInt8
  rest : List UInt8
  deriving DecidableEq

/-- `in += n`. -/
def Cursor.advance (cursor : Cursor) (n : ℕ) : Cursor where
  prev := (cursor.rest.take n).getLast?.or cursor.prev
  rest := cursor.rest.drop n

/-- The bytes are written one by one while there is room for a NUL after them. -/
def put (size : ℕ) (out bytes : List UInt8) : List UInt8 := out ++ bytes.take (size - 1 - out.length)

/-- `redacted`. -/
def redacted : List UInt8 := ascii "[REDACTED]"

/-- What follows a key: the separators, the quote if there is one, and the value, of which the
closing quote is left. -/
def redactValue (size : ℕ) (cursor : Cursor) (out : List UInt8) : Cursor × List UInt8 :=
  let separators := cursor.rest.takeWhile isSeparator
  let out := put size out separators
  let cursor := cursor.advance separators.length
  let quote := cursor.rest.head?.filter isQuote
  let out := put size out quote.toList
  let cursor := cursor.advance quote.toList.length
  let out := put size out redacted
  let value := cursor.rest.takeWhile fun c => match quote with
    | some q => c ≠ q
    | none => !isTerminator c
  let cursor := cursor.advance value.length
  let closing := if quote ≠ none ∧ cursor.rest.head? = quote then quote.toList else []
  (cursor.advance closing.length, put size out closing)

/-- The loop of `pm_diagnostics_redact`, which every iteration brings closer to the end of the
input. -/
def redactLoop (size : ℕ) : ℕ → Cursor → List UInt8 → List UInt8
  | 0, _, out => out
  | fuel + 1, cursor, out =>
    if cursor.rest = [] ∨ size ≤ out.length + 1 then out
    else
      match matchedKey cursor.prev cursor.rest with
      | some key =>
        let copied := min key.length (size - 1 - out.length)
        let (cursor', out') := redactValue size (cursor.advance copied)
          (put size out (cursor.rest.take key.length))
        redactLoop size fuel cursor' out'
      | none => redactLoop size fuel (cursor.advance 1) (out ++ cursor.rest.take 1)

/-- `pm_diagnostics_redact`: the length it returns, and the output. -/
def diagnosticsRedact {n : ℕ} (input : List UInt8) (output : Bytes n) : ℕ × Bytes n :=
  if n = 0 then (0, output)
  else
    let out := redactLoop n input.length ⟨none, input⟩ []
    (out.length, output.memcpy 0 (out ++ [0]))

/-- The text of the host test. -/
example : redactLoop 64 40 ⟨none, ascii "password=\"hunter2\",token=abc,voltage=120"⟩ [] =
    ascii "password=\"[REDACTED]\",token=[REDACTED],voltage=120" := by
  decide +kernel

/-! ## Keys -/

theorem redactKeys_spec : ∀ key ∈ redactKeys, 4 < key.length ∧ ∀ c ∈ key, isWord c = true := by
  decide +kernel

theorem isWord_of_tolower (c : UInt8) (h : isWord (tolower c) = true) : isWord c = true :=
  forall_byte (P := fun c => isWord (tolower c) = true → isWord c = true) (by decide) c h

/-- A text that starts with the key in any case. -/
theorem casePrefix_iff {text key : List UInt8} : casePrefix text key = true ↔
    ∃ word rest, text = word ++ rest ∧ word.length = key.length ∧ word.map tolower = key := by
  induction key generalizing text with
  | nil => exact iff_of_true (by cases text <;> rfl) ⟨[], text, rfl, rfl, rfl⟩
  | cons k key ih =>
    cases text with
    | nil =>
      refine iff_of_false (by simp [casePrefix]) ?_
      rintro ⟨word, rest, htext, hlength, -⟩
      rw [(List.append_eq_nil_iff.1 htext.symm).1] at hlength
      cases hlength
    | cons c text =>
      simp only [casePrefix, Bool.and_eq_true, decide_eq_true_eq, ih]
      constructor
      · rintro ⟨hc, word, rest, rfl, hlength, hword⟩
        exact ⟨c :: word, rest, rfl, by simp [hlength], by simp [hc, hword]⟩
      · rintro ⟨word, rest, htext, hlength, hword⟩
        cases word with
        | nil => cases hlength
        | cons d word =>
          rw [List.cons_append, List.cons.injEq] at htext
          rw [List.map_cons, List.cons.injEq] at hword
          exact ⟨htext.1 ▸ hword.1, word, rest, htext.2, by simpa using hlength, hword.2⟩

/-- A key at a place is a whole word there. -/
theorem matchedKey_eq_some {prev : Option UInt8} {rest key : List UInt8}
    (h : matchedKey prev rest = some key) : key ∈ redactKeys ∧ prev.any isWord = false ∧
      ∃ word after, rest = word ++ after ∧ word.length = key.length ∧ word.map tolower = key ∧
        after.head?.any isWord = false := by
  have hmem := List.mem_of_find?_eq_some h
  have hfound := List.find?_some h
  simp only [Bool.and_eq_true, Bool.not_eq_true'] at hfound
  obtain ⟨⟨hprev, hprefix⟩, hafter⟩ := hfound
  obtain ⟨word, after, rfl, hlength, hword⟩ := casePrefix_iff.1 hprefix
  rw [← hlength, List.drop_left'] at hafter
  · exact ⟨hmem, hprev, word, after, rfl, hlength, hword, hafter⟩
  · rfl

/-- The characters of the word are those of a word. -/
theorem isWord_of_key {word key : List UInt8} (hkey : key ∈ redactKeys)
    (hword : word.map tolower = key) : ∀ c ∈ word, isWord c = true := by
  intro c hc
  refine isWord_of_tolower c ((redactKeys_spec key hkey).2 _ ?_)
  rw [← hword]
  exact List.mem_map_of_mem hc

/-- Where a whole word is a key, a key of its length is found. -/
theorem matchedKey_word {prev : Option UInt8} {word after : List UInt8}
    (hkey : word.map tolower ∈ redactKeys) (hprev : prev.any isWord = false)
    (hafter : after.head?.any isWord = false) :
    ∃ key, matchedKey prev (word ++ after) = some key ∧ key.length = word.length := by
  have hfound : (!prev.any isWord && casePrefix (word ++ after) (word.map tolower) &&
      !((word ++ after).drop (word.map tolower).length).head?.any isWord) = true := by
    have hprefix : casePrefix (word ++ after) (word.map tolower) = true :=
      casePrefix_iff.2 ⟨word, after, rfl, (List.length_map _).symm, rfl⟩
    rw [List.length_map, List.drop_left, hprev, hprefix, hafter]
    rfl
  have hsome : (matchedKey prev (word ++ after)).isSome = true := by
    rw [matchedKey, List.find?_isSome]
    exact ⟨_, hkey, hfound⟩
  obtain ⟨key, hmatched⟩ := Option.isSome_iff_exists.1 hsome
  refine ⟨key, hmatched, ?_⟩
  obtain ⟨hmem, -, word', after', heq, hlength, hword', hafter'⟩ := matchedKey_eq_some hmatched
  rw [← hlength]
  -- neither of the two words at this place can go on where the other one ends
  rcases List.append_eq_append_iff.1 heq with ⟨more, rfl, rfl⟩ | ⟨more, rfl, rfl⟩
  · cases more with
    | nil => simp
    | cons c more =>
      have hc := isWord_of_key hmem hword' c (by simp)
      simp [hc] at hafter
  · cases more with
    | nil => simp
    | cons c more =>
      have hc := isWord_of_key hkey rfl c (by simp)
      simp [hc] at hafter'

/-- **Keys do not reach** beyond a character that is not of a word. -/
theorem matchedKey_append {prev : Option UInt8} {text tail : List UInt8}
    (htail : tail.head?.any isWord = false) : matchedKey prev (text ++ tail) = matchedKey prev text := by
  have hone : ∀ key ∈ redactKeys, (casePrefix (text ++ tail) key &&
      !((text ++ tail).drop key.length).head?.any isWord) =
        (casePrefix text key && !(text.drop key.length).head?.any isWord) := by
    intro key hkey
    rw [Bool.eq_iff_iff]
    simp only [Bool.and_eq_true, Bool.not_eq_true', casePrefix_iff]
    constructor
    · rintro ⟨⟨word, rest, heq, hlength, hword⟩, hafter⟩
      rcases List.append_eq_append_iff.1 heq with ⟨more, rfl, htail'⟩ | ⟨more, rfl, rfl⟩
      · cases more with
        | nil =>
          rw [List.append_nil] at hlength hword
          exact ⟨⟨text, [], by simp, hlength, hword⟩, by simp [← hlength]⟩
        | cons c more =>
          have hc := isWord_of_key hkey hword c (by simp)
          rw [htail'] at htail
          simp [hc] at htail
      · refine ⟨⟨word, more, rfl, hlength, hword⟩, ?_⟩
        rw [← hlength, List.append_assoc, List.drop_left] at hafter
        rw [← hlength, List.drop_left]
        cases more with
        | nil => rfl
        | cons c more => simpa using hafter
    · rintro ⟨⟨word, rest, rfl, hlength, hword⟩, hafter⟩
      refine ⟨⟨word, rest ++ tail, by simp, hlength, hword⟩, ?_⟩
      rw [← hlength, List.drop_left] at hafter
      rw [← hlength, List.append_assoc, List.drop_left]
      cases rest with
      | nil => simpa using htail
      | cons c rest => simpa using hafter
  unfold matchedKey
  refine List.find?_congr fun key hkey => ?_
  rw [Bool.and_assoc, Bool.and_assoc, hone key hkey]

/-- A key starts with a character of a word. -/
theorem matchedKey_eq_none {prev : Option UInt8} {c : UInt8} {rest : List UInt8}
    (h : isWord c = false) : matchedKey prev (c :: rest) = none := by
  by_contra hsome
  obtain ⟨key, hkey⟩ := Option.ne_none_iff_exists'.1 hsome
  obtain ⟨hmem, -, word, after, heq, hlength, hword, -⟩ := matchedKey_eq_some hkey
  cases word with
  | nil =>
    have hpos := (redactKeys_spec key hmem).1
    rw [← hlength] at hpos
    exact absurd hpos (by decide)
  | cons d word =>
    have hd := isWord_of_key hmem hword d (by simp)
    rw [List.cons_append, List.cons.injEq] at heq
    rw [← heq.1, h] at hd
    cases hd

end PowerMonitor.Diagnostics
