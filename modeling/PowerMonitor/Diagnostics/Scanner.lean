import PowerMonitor.Diagnostics.Redact
import PowerMonitor.Foundations.Transducer

/-!
# The redaction as a scanner

`scanner` reads a text character by character and knows no limit of the output.

* `scanStep` is what it does with a character: it is in plain text, in a key, after one, or in a
  value.
* `redactLoop_eq`: the loop of the source writes what the scanner writes, as far as it fits.
-/

namespace PowerMonitor.Diagnostics

open CMemory CText

/-! ## The scanner -/

/-- Where the scanner stands: in plain text, with the character before; in a key, with the number of
characters left of it; after a key; or in a value, with or without quotes. -/
inductive ScanMode
  | text (prev : Option UInt8)
  | key (left : ℕ)
  | separators
  | bare
  | quoted (quote : UInt8)
  deriving DecidableEq

/-- A character of a value without quotes. -/
def bareStep (c : UInt8) : List UInt8 × ScanMode :=
  if isTerminator c then ([c], .text (some c)) else ([], .bare)

/-- One character, with the text after it. -/
def scanStep : ScanMode → UInt8 → List UInt8 → List UInt8 × ScanMode
  | .text prev, c, rest =>
    match matchedKey prev (c :: rest) with
    | some key => ([c], .key (key.length - 1))
    | none => ([c], .text (some c))
  | .key left, c, _ => ([c], if left = 1 then .separators else .key (left - 1))
  | .separators, c, _ =>
    if isSeparator c then ([c], .separators)
    else if isQuote c then (c :: redacted, .quoted c)
    else (redacted ++ (bareStep c).1, (bareStep c).2)
  | .bare, c, _ => bareStep c
  | .quoted quote, c, _ => if c = quote then ([c], .text (some c)) else ([], .quoted quote)

/-- At the end of the text, a key has a redacted value even if there is none. -/
def scanFinish : ScanMode → List UInt8
  | .separators => redacted
  | _ => []

/-- The scanner. -/
def scanner : Transducer ScanMode UInt8 UInt8 := ⟨scanStep, scanFinish⟩

/-- What the scanner writes for a text from a place on. -/
def scan (mode : ScanMode) (text : List UInt8) : List UInt8 := scanner.run mode text

theorem scan_nil (mode : ScanMode) : scan mode [] = scanFinish mode := rfl

theorem scan_text_nil (prev : Option UInt8) : scan (.text prev) [] = [] := rfl

theorem scan_cons (mode : ScanMode) (c : UInt8) (text : List UInt8) :
    scan mode (c :: text) = (scanStep mode c text).1 ++ scan (scanStep mode c text).2 text := rfl

/-! ## What the scanner writes -/

theorem head_dropWhile {p : UInt8 → Bool} {text : List UInt8} :
    ∀ c ∈ (text.dropWhile p).head?, p c = false := by
  intro c hc
  have hhead := List.head?_dropWhile_not p text
  rw [hc] at hhead
  exact hhead

section

variable {prev : Option UInt8} {word value rest : List UInt8}

/-- A terminator is no quote, no separator but the blanks, and no character of a word. -/
theorem isWord_of_isTerminator (c : UInt8) (h : isTerminator c = true) : isWord c = false :=
  forall_byte (P := fun c => isTerminator c = true → isWord c = false) (by decide) c h

theorem isSeparator_of_isQuote (c : UInt8) (h : isQuote c = true) : isSeparator c = false :=
  forall_byte (P := fun c => isQuote c = true → isSeparator c = false) (by decide) c h

theorem scan_key (h : word ≠ []) :
    scan (.key word.length) (word ++ rest) = word ++ scan .separators rest := by
  induction word with
  | nil => exact absurd rfl h
  | cons c word ih =>
    cases word with
    | nil => rfl
    | cons d word => rw [List.cons_append, scan_cons, scanStep, if_neg (by simp), List.length_cons,
        Nat.add_sub_cancel, ih (by simp), List.singleton_append, List.cons_append, List.cons_append,
        List.cons_append]

/-- A key is copied. -/
theorem scan_matched {key : List UInt8} (h : matchedKey prev (word ++ rest) = some key)
    (hlength : key.length = word.length) :
    scan (.text prev) (word ++ rest) = word ++ scan .separators rest := by
  have hone := (redactKeys_spec key (matchedKey_eq_some h).1).1
  rw [hlength] at hone
  cases word with
  | nil => exact absurd hone (by simp)
  | cons c word =>
    have hword : word ≠ [] := by
      rintro rfl
      exact absurd hone (by simp)
    rw [List.cons_append] at h
    rw [List.cons_append, scan_cons, scanStep, h]
    dsimp only
    rw [hlength, List.length_cons, Nat.add_sub_cancel, scan_key hword, List.singleton_append,
      List.cons_append]

theorem scan_separators_append (h : ∀ c ∈ value, isSeparator c = true) :
    scan .separators (value ++ rest) = value ++ scan .separators rest := by
  induction value with
  | nil => rfl
  | cons c value ih =>
    rw [List.cons_append, scan_cons, scanStep, if_pos (h c List.mem_cons_self),
      ih fun d hd => h d (List.mem_cons_of_mem c hd), List.singleton_append, List.cons_append]

theorem scan_separators_quote {q : UInt8} (h : isQuote q = true) :
    scan .separators (q :: rest) = q :: redacted ++ scan (.quoted q) rest := by
  rw [scan_cons, scanStep, isSeparator_of_isQuote q h, h]
  rfl

theorem scan_separators_bare (h : ∀ c ∈ rest.head?, isSeparator c = false ∧ isQuote c = false) :
    scan .separators rest = redacted ++ scan .bare rest := by
  cases rest with
  | nil => exact (List.append_nil redacted).symm
  | cons c rest =>
    obtain ⟨hseparator, hquote⟩ := h c rfl
    rw [scan_cons, scanStep, hseparator, hquote, scan_cons, ← List.append_assoc]
    rfl

theorem scan_bare_append (h : ∀ c ∈ value, isTerminator c = false) :
    scan .bare (value ++ rest) = scan .bare rest := by
  induction value with
  | nil => rfl
  | cons c value ih =>
    have hc := h c List.mem_cons_self
    rw [List.cons_append, scan_cons, scanStep, bareStep, hc, if_neg (by decide), List.nil_append,
      ih fun d hd => h d (List.mem_cons_of_mem c hd)]

/-- After a value without quotes, it does not matter what the value was. -/
theorem scan_bare_eq_text (h : ∀ c ∈ rest.head?, isTerminator c = true) (prev : Option UInt8) :
    scan .bare rest = scan (.text prev) rest := by
  cases rest with
  | nil => rfl
  | cons c rest =>
    have hc := h c rfl
    rw [scan_cons, scan_cons, scanStep, scanStep, matchedKey_eq_none (isWord_of_isTerminator c hc),
      bareStep, if_pos hc]

/-- A value without quotes is left out. -/
theorem scan_bare_eq (rest : List UInt8) (prev : Option UInt8) :
    scan .bare rest = scan (.text prev) (rest.dropWhile fun c => !isTerminator c) := by
  have hvalue : ∀ c ∈ rest.takeWhile fun c => !isTerminator c, isTerminator c = false :=
    fun c hc => by simpa using List.mem_takeWhile_imp hc
  have hend := @head_dropWhile (fun c => !isTerminator c) rest
  have hscan := @scan_bare_append _ (rest.dropWhile fun c => !isTerminator c) hvalue
  rw [List.takeWhile_append_dropWhile] at hscan
  rw [hscan, scan_bare_eq_text (by simpa using hend) prev]

theorem scan_quoted_append {q : UInt8} (h : q ∉ value) :
    scan (.quoted q) (value ++ rest) = scan (.quoted q) rest := by
  induction value with
  | nil => rfl
  | cons c value ih =>
    rw [List.mem_cons, not_or] at h
    rw [List.cons_append, scan_cons, scanStep, if_neg (Ne.symm h.1), ih h.2]
    rfl

/-- A value is left out up to its closing quote. -/
theorem scan_quoted_eq (q : UInt8) (rest : List UInt8) :
    scan (.quoted q) rest = scan (.quoted q) (rest.dropWhile fun c => decide (c ≠ q)) := by
  have hvalue : q ∉ rest.takeWhile fun c => decide (c ≠ q) := fun hc => by
    simpa using List.mem_takeWhile_imp hc
  have hscan := @scan_quoted_append _ (rest.dropWhile fun c => decide (c ≠ q)) q hvalue
  rwa [List.takeWhile_append_dropWhile] at hscan

theorem scan_quoted_quote {q : UInt8} :
    scan (.quoted q) (q :: rest) = q :: scan (.text (some q)) rest := by
  rw [scan_cons, scanStep, if_pos rfl]
  rfl

end

/-! ## The loop and the scanner -/

section

variable {size : ℕ} {out bytes : List UInt8} {cursor : Cursor}

/-- What is written does not depend on where the output was cut before. -/
theorem take_put_append (h : out.length ≤ size - 1) (rest : List UInt8) :
    (put size out bytes ++ rest).take (size - 1) = (out ++ (bytes ++ rest)).take (size - 1) := by
  by_cases hroom : bytes.length ≤ size - 1 - out.length
  · rw [put, List.take_of_length_le hroom, List.append_assoc]
  · have hfull : (put size out bytes).length = size - 1 := by
      rw [put, List.length_append, List.length_take]
      omega
    rw [List.take_append_of_le_length (Nat.le_of_eq hfull.symm),
      List.take_of_length_le (Nat.le_of_eq hfull), put, List.take_append, List.take_of_length_le h,
      List.take_append_of_le_length (by omega)]

theorem length_put (h : out.length ≤ size - 1) (bytes : List UInt8) :
    (put size out bytes).length ≤ size - 1 := by
  rw [put, List.length_append, List.length_take]
  omega

theorem Cursor.rest_advance_takeWhile (p : UInt8 → Bool) :
    (cursor.advance (cursor.rest.takeWhile p).length).rest = cursor.rest.dropWhile p := by
  have hsplit := List.takeWhile_append_dropWhile (p := p) (l := cursor.rest)
  have hdrop : (cursor.rest.takeWhile p ++ cursor.rest.dropWhile p).drop
      (cursor.rest.takeWhile p).length = cursor.rest.dropWhile p := List.drop_left
  rwa [hsplit] at hdrop

@[simp] theorem Cursor.advance_zero (cursor : Cursor) : cursor.advance 0 = cursor := rfl

@[simp] theorem Cursor.advance_one (prev : Option UInt8) (c : UInt8) (rest : List UInt8) :
    (⟨prev, c :: rest⟩ : Cursor).advance 1 = ⟨some c, rest⟩ :=
  rfl

/-- A value in quotes ends at its closing quote, or with the text. -/
theorem scan_quoted_ending (q : UInt8) (cursor : Cursor) :
    let ending := cursor.advance (cursor.rest.takeWhile fun c => decide (c ≠ q)).length
    let closing := if ending.rest.head? = some q then [q] else []
    scan (.quoted q) cursor.rest = closing ++
      scan (.text (ending.advance closing.length).prev) (ending.advance closing.length).rest := by
  have hhead := @head_dropWhile (fun c => decide (c ≠ q)) cursor.rest
  have hrest := @Cursor.rest_advance_takeWhile cursor fun c => decide (c ≠ q)
  dsimp only
  rw [scan_quoted_eq]
  generalize cursor.advance (cursor.rest.takeWhile fun c => decide (c ≠ q)).length = ending at *
  rw [← hrest] at hhead ⊢
  obtain ⟨prev, rest⟩ := ending
  cases rest with
  | nil => simp [scan_nil, scanFinish]
  | cons c rest =>
    obtain rfl : c = q := by simpa using hhead c rfl
    simp [scan_quoted_quote]

/-- A value without quotes ends at a terminator, or with the text. -/
theorem scan_bare_ending (cursor : Cursor) :
    let ending := cursor.advance (cursor.rest.takeWhile fun c => !isTerminator c).length
    scan .bare cursor.rest = scan (.text ending.prev) ending.rest := by
  dsimp only
  rw [scan_bare_eq cursor.rest
    (cursor.advance (cursor.rest.takeWhile fun c => !isTerminator c).length).prev,
    Cursor.rest_advance_takeWhile]

/-- What is written after a key, and where it leaves the scanner. -/
theorem redactValue_eq (size : ℕ) (cursor : Cursor) (out : List UInt8) :
    let after := (redactValue size cursor out).1
    ∃ separators quote closing, (redactValue size cursor out).2 =
        put size (put size (put size (put size out separators) quote) redacted) closing ∧
      scan .separators cursor.rest = separators ++ (quote ++ (redacted ++ (closing ++
        scan (.text after.prev) after.rest))) ∧
      after.rest.length ≤ cursor.rest.length := by
  refine ⟨_, _, _, rfl, ?_, ?_⟩
  · have hsplit := List.takeWhile_append_dropWhile (p := isSeparator) (l := cursor.rest)
    have hhead := @head_dropWhile isSeparator cursor.rest
    have hrest := @Cursor.rest_advance_takeWhile cursor isSeparator
    conv_lhs => rw [← hsplit]
    rw [scan_separators_append fun c hc => List.mem_takeWhile_imp hc]
    congr 1
    simp only [redactValue]
    -- the place after the separators, where the next character decides on the kind of the value
    generalize cursor.advance (cursor.rest.takeWhile isSeparator).length = next at hrest
    rw [← hrest] at hhead ⊢
    obtain ⟨prev, rest⟩ := next
    match rest with
    | [] => simp [scan_nil, scanFinish]
    | c :: rest =>
      cases hquote : isQuote c with
      | true =>
        have hfilter : (some c).filter isQuote = some c := by simp [hquote]
        have hending := scan_quoted_ending c ⟨some c, rest⟩
        rw [scan_separators_quote hquote]
        simp only [List.head?_cons, hfilter, Option.toList_some, List.length_singleton,
          Cursor.advance_one]
        simpa using hending
      | false =>
        have hfilter : (some c).filter isQuote = none := by simp [hquote]
        have hending := scan_bare_ending ⟨prev, c :: rest⟩
        rw [scan_separators_bare (by simpa [hquote] using hhead)]
        simp only [List.head?_cons, hfilter, Option.toList_none, List.length_nil,
          Cursor.advance_zero]
        simpa using hending
  · simp only [redactValue, Cursor.advance, List.length_drop]
    omega

/-- A full output stays as it is. -/
theorem put_full (h : size - 1 ≤ out.length) (bytes : List UInt8) : put size out bytes = out := by
  rw [put, Nat.sub_eq_zero_of_le h, List.take_zero, List.append_nil]

theorem redactLoop_full (fuel : ℕ) (cursor : Cursor) (h : size ≤ out.length + 1) :
    redactLoop size fuel cursor out = out := by
  cases fuel with
  | zero => rfl
  | succ fuel => rw [redactLoop, if_pos (.inr h)]

/-- What follows a key is written as the scanner writes it. -/
theorem take_redactValue (h : out.length ≤ size - 1) :
    let after := (redactValue size cursor out).1
    ((redactValue size cursor out).2 ++ scan (.text after.prev) after.rest).take (size - 1) =
        (out ++ scan .separators cursor.rest).take (size - 1) ∧
      (redactValue size cursor out).2.length ≤ size - 1 ∧
      after.rest.length ≤ cursor.rest.length := by
  obtain ⟨separators, quote, closing, hout, hscan, hlength⟩ := redactValue_eq size cursor out
  have h₁ := length_put h separators
  have h₂ := length_put h₁ quote
  have h₃ := length_put h₂ redacted
  refine ⟨?_, ?_, hlength⟩
  · rw [hout, hscan, take_put_append h₃, take_put_append h₂, take_put_append h₁, take_put_append h]
  · rw [hout]
    exact length_put h₃ closing

/-- **The loop writes** what the scanner writes, as far as there is room for a NUL after it. -/
theorem redactLoop_eq {fuel : ℕ} (hfuel : cursor.rest.length ≤ fuel) (h : out.length ≤ size - 1) :
    redactLoop size fuel cursor out = (out ++ scan (.text cursor.prev) cursor.rest).take (size - 1) := by
  induction fuel generalizing cursor out with
  | zero =>
    have hnil : cursor.rest = [] := List.eq_nil_of_length_eq_zero (Nat.le_zero.1 hfuel)
    rw [redactLoop, hnil, scan_text_nil, List.append_nil, List.take_of_length_le h]
  | succ fuel ih =>
    by_cases hnil : cursor.rest = []
    · rw [redactLoop, if_pos (.inl hnil), hnil, scan_text_nil, List.append_nil,
        List.take_of_length_le h]
    by_cases hfull : size ≤ out.length + 1
    · rw [redactLoop_full _ _ hfull, List.take_append_of_le_length (by omega),
        List.take_of_length_le h]
    rw [redactLoop, if_neg (not_or.2 ⟨hnil, hfull⟩)]
    obtain ⟨prev, rest⟩ := cursor
    dsimp only at hfuel hnil ⊢
    cases hkey : matchedKey prev rest with
    | none =>
      cases rest with
      | nil => exact absurd rfl hnil
      | cons c rest =>
        have hscan : scan (.text prev) (c :: rest) = c :: scan (.text (some c)) rest := by
          rw [scan_cons, scanStep, hkey]
          rfl
        dsimp only
        rw [Cursor.advance_one, hscan, ih (Nat.le_of_succ_le_succ hfuel) (by simp; omega)]
        simp
    | some key =>
      obtain ⟨hmem, -, word, after, rfl, hlength, hword, -⟩ := matchedKey_eq_some hkey
      have hone := (redactKeys_spec key hmem).1
      rw [scan_matched hkey hlength.symm]
      dsimp only
      rw [← hlength, List.take_left]
      by_cases hroom : word.length ≤ size - 1 - out.length
      · have hadvance : ((⟨prev, word ++ after⟩ : Cursor).advance word.length).rest = after :=
          List.drop_left
        have hput := length_put h word
        obtain ⟨htake, hout, hrest⟩ := @take_redactValue size (put size out word)
          ((⟨prev, word ++ after⟩ : Cursor).advance word.length) hput
        rw [Nat.min_eq_left hroom]
        rw [hadvance] at htake hrest
        rw [ih (by rw [List.length_append] at hfuel; omega) hout, htake, take_put_append h]
      · -- the output is full before the key is
        have hcut : (put size out word).length = size - 1 := by
          rw [put, List.length_append, List.length_take]
          omega
        obtain ⟨_, _, _, hout, -, -⟩ := redactValue_eq size
          ((⟨prev, word ++ after⟩ : Cursor).advance (min word.length (size - 1 - out.length)))
          (put size out word)
        have hle := Nat.le_of_eq hcut.symm
        rw [put_full hle, put_full hle, put_full hle, put_full hle] at hout
        rw [hout, redactLoop_full _ _ (by omega), ← take_put_append h,
          List.take_append_of_le_length hle, List.take_of_length_le (Nat.le_of_eq hcut)]

end

/-- **The output** is what the scanner writes for the input, cut to the buffer, with a NUL. -/
theorem diagnosticsRedact_eq {n : ℕ} (input : List UInt8) (output : Bytes (n + 1)) :
    diagnosticsRedact input output =
      (((scan (.text none) input).take n).length,
        output.memcpy 0 ((scan (.text none) input).take n ++ [0])) := by
  have hloop := @redactLoop_eq (n + 1) [] ⟨none, input⟩ input.length le_rfl (Nat.zero_le _)
  rw [Nat.add_sub_cancel, List.nil_append] at hloop
  rw [diagnosticsRedact, if_neg (Nat.succ_ne_zero n), hloop]

/-- Two inputs have the same output at every size if the scanner writes the same for them. -/
theorem diagnosticsRedact_eq_iff {input input' : List UInt8} :
    (∀ (n : ℕ) (output : Bytes n), diagnosticsRedact input output = diagnosticsRedact input' output) ↔
      scan (.text none) input = scan (.text none) input' := by
  constructor
  · intro h
    have hfull := h (((scan (.text none) input).length ⊔ (scan (.text none) input').length) + 1)
      (Bytes.zero _)
    rw [diagnosticsRedact_eq, diagnosticsRedact_eq, List.take_of_length_le le_sup_left,
      List.take_of_length_le le_sup_right] at hfull
    obtain ⟨hlength, hcopied⟩ := Prod.mk.inj hfull
    have hsources := Bytes.memcpy_injective (by simp [hlength]) (by simp) hcopied
    exact List.append_cancel_right hsources
  · intro h n output
    cases n with
    | zero => rfl
    | succ n => rw [diagnosticsRedact_eq, diagnosticsRedact_eq, h]

end PowerMonitor.Diagnostics
