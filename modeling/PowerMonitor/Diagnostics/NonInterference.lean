import PowerMonitor.Diagnostics.Scanner

/-!
# Redaction of assignments

After a key and its separators, what is written does not depend on the value, at any size of the
output: `redact_noninterfering`. This rests on the scanner's reading of the text before the key
(`drive_plain`) and of the two kinds of values (`scan_bare_value`, `scan_quoted_value`).
-/

namespace PowerMonitor.Diagnostics

open CJson CMemory CText

/-- A key stands in the text as a whole word, in any case. -/
def ContainsKey (text : List UInt8) : Prop :=
  ∃ before word after, text = before ++ (word ++ after) ∧ word.map tolower ∈ redactKeys ∧
    before.getLast?.any isWord = false ∧ after.head?.any isWord = false

/-- The text around the value of an assignment. -/
structure Assignment where
  before : List UInt8
  key : List UInt8
  separators : List UInt8
  after : List UInt8
  before_boundary : before.getLast?.any isWord = false
  before_plain : ¬ContainsKey before
  key_mem : key.map tolower ∈ redactKeys
  separators_ne : separators ≠ []
  separators_all : ∀ c ∈ separators, isSeparator c = true

/-- The text with a value. -/
def Assignment.text (a : Assignment) (value : List UInt8) : List UInt8 :=
  a.before ++ (a.key ++ (a.separators ++ (value ++ a.after)))

/-- A value without quotes. -/
structure IsBare (value : List UInt8) : Prop where
  ne : value ≠ []
  head : ∀ c ∈ value.head?, isSeparator c = false ∧ isQuote c = false
  all : ∀ c ∈ value, isTerminator c = false

/-- Two values without quotes, or with the same ones. -/
inductive SameKind : List UInt8 → List UInt8 → Prop
  | bare {value value' : List UInt8} (h : IsBare value) (h' : IsBare value') : SameKind value value'
  | quoted {q : UInt8} {value value' : List UInt8} (hq : isQuote q = true) (h : q ∉ value)
    (h' : q ∉ value') : SameKind (q :: (value ++ [q])) (q :: (value' ++ [q]))

/-! ## Before the key -/

section

variable {prev : Option UInt8} {text tail : List UInt8}

/-- The search for a key stays within a text that ends between words. -/
theorem matchedKey_of_boundary (hne : text ≠ [])
    (h : text.getLast?.any isWord = false ∨ tail.head?.any isWord = false) :
    matchedKey prev (text ++ tail) = matchedKey prev text := by
  rcases h with hlast | hhead
  · obtain ⟨init, c, rfl⟩ := List.eq_nil_or_concat' text |>.resolve_left hne
    have hc : ∀ rest : List UInt8, (c :: rest).head?.any isWord = false := by
      simpa using hlast
    rw [List.append_assoc, List.singleton_append, matchedKey_append (hc tail),
      matchedKey_append (hc [])]
  · exact matchedKey_append hhead

/-- The scanner reads such a text without looking further. -/
theorem closed_of_boundary
    (h : text.getLast?.any isWord = false ∨ tail.head?.any isWord = false) :
    scanner.Closed tail text := by
  induction text with
  | nil => trivial
  | cons c text ih =>
    refine ⟨fun mode => ?_, ?_⟩
    · cases mode with
      | text prev =>
        have hkey := @matchedKey_of_boundary prev _ tail (List.cons_ne_nil c text) h
        rw [List.cons_append] at hkey
        simp only [scanner, scanStep, hkey]
      | _ => rfl
    · cases text with
      | nil => trivial
      | cons d text => exact ih (by simpa using h)

/-- A text without keys is copied. -/
theorem drive_plain (before : List UInt8) (h : ¬ContainsKey (before ++ text)) :
    scanner.drive (.text before.getLast?) text = (text, .text (before ++ text).getLast?) := by
  induction text generalizing before with
  | nil => rw [List.append_nil]; rfl
  | cons c text ih =>
    have hnone : matchedKey before.getLast? (c :: text) = none := by
      by_contra hsome
      obtain ⟨key, hkey⟩ := Option.ne_none_iff_exists'.1 hsome
      obtain ⟨hmem, hprev, word, after, heq, -, hword, hafter⟩ := matchedKey_eq_some hkey
      exact h ⟨before, word, after, by rw [heq], hword ▸ hmem, hprev, hafter⟩
    have hstep : scanner.step (.text before.getLast?) c text = ([c], .text (some c)) := by
      simp only [scanner, scanStep, hnone]
    have hlast : (before ++ [c]).getLast? = some c := by simp
    have hnext := ih (before ++ [c]) (by rwa [List.append_assoc, List.singleton_append])
    rw [hlast, List.append_assoc, List.singleton_append] at hnext
    rw [Transducer.drive, hstep, hnext]
    rfl

theorem scan_plain (hboundary : text.getLast?.any isWord = false) (h : ¬ContainsKey text) :
    scan (.text none) (text ++ tail) = text ++ scan (.text text.getLast?) tail := by
  have hdrive := @drive_plain text [] h
  rw [List.getLast?_nil, List.nil_append] at hdrive
  rw [scan, scanner.run_append (closed_of_boundary (.inl hboundary)), hdrive]
  rfl

end

/-! ## The value -/

section

variable (a : Assignment) {value : List UInt8}

/-- The separators are not of a word. -/
theorem isWord_of_isSeparator (c : UInt8) (h : isSeparator c = true) : isWord c = false :=
  forall_byte (P := fun c => isSeparator c = true → isWord c = false) (by decide) c h

/-- Everything up to the value is copied. -/
theorem scan_assignment (value : List UInt8) : scan (.text none) (a.text value) =
    a.before ++ (a.key ++ (a.separators ++ scan .separators (value ++ a.after))) := by
  have hhead : (a.separators ++ (value ++ a.after)).head?.any isWord = false := by
    cases hseparators : a.separators with
    | nil => exact absurd hseparators a.separators_ne
    | cons c separators =>
      simpa using isWord_of_isSeparator c (a.separators_all c (by simp [hseparators]))
  obtain ⟨key, hkey, hlength⟩ := matchedKey_word a.key_mem a.before_boundary hhead
  rw [Assignment.text, scan_plain a.before_boundary a.before_plain, scan_matched hkey hlength,
    scan_separators_append a.separators_all]

/-- A value without quotes is left out. -/
theorem scan_bare_value (h : IsBare value) : scan (.text none) (a.text value) =
    a.before ++ (a.key ++ (a.separators ++ (redacted ++ scan .bare a.after))) := by
  have hhead : ∀ c ∈ (value ++ a.after).head?, isSeparator c = false ∧ isQuote c = false := by
    cases value with
    | nil => exact absurd rfl h.ne
    | cons c value => exact h.head
  rw [scan_assignment, scan_separators_bare hhead, scan_bare_append h.all]

/-- A value in quotes is left out. -/
theorem scan_quoted_value {q : UInt8} (hq : isQuote q = true) (h : q ∉ value) :
    scan (.text none) (a.text (q :: (value ++ [q]))) =
      a.before ++ (a.key ++ (a.separators ++ (q :: (redacted ++ (q ::
        scan (.text (some q)) a.after))))) := by
  rw [scan_assignment, List.cons_append, scan_separators_quote hq, List.append_assoc,
    List.singleton_append, scan_quoted_append h, scan_quoted_quote, List.cons_append]

end

/-- **Redaction of assignments is non-interfering** at every size of the output: it is the same for
two values of one kind. The output ends within the buffer. -/
theorem redact_noninterfering {n : ℕ} (output : Bytes (n + 1)) :
    (∀ (a : Assignment) (value value' : List UInt8), SameKind value value' →
      diagnosticsRedact (a.text value) output = diagnosticsRedact (a.text value') output) ∧
    ∀ input, (diagnosticsRedact input output).1 < n + 1 ∧
      (diagnosticsRedact input output).2.bytes[(diagnosticsRedact input output).1]? = some 0 := by
  refine ⟨fun a value value' hkind => ?_, fun input => ?_⟩
  · have hscan : scan (.text none) (a.text value) = scan (.text none) (a.text value') := by
      cases hkind with
      | bare h h' => rw [scan_bare_value a h, scan_bare_value a h']
      | quoted hq h h' => rw [scan_quoted_value a hq h, scan_quoted_value a hq h']
    rw [diagnosticsRedact_eq, diagnosticsRedact_eq, hscan]
  · have hlength := List.length_take_le n (scan (.text none) input)
    have hcopy := @Bytes.take_memcpy _ output 0 ((scan (.text none) input).take n ++ [0]) (by
        rw [List.length_append, List.length_singleton]
        omega)
    rw [diagnosticsRedact_eq]
    generalize (scan (.text none) input).take n = written at hlength hcopy ⊢
    refine ⟨by dsimp only; omega, ?_⟩
    have hat := congrArg (·[written.length]?) hcopy
    simpa using hat

/-- No key is as short as this. -/
theorem not_containsKey_of_short {text : List UInt8} (h : text.length < 5) : ¬ContainsKey text := by
  rintro ⟨before, word, after, rfl, hkey, -, -⟩
  have hword := (redactKeys_spec _ hkey).1
  rw [List.length_map] at hword
  rw [List.length_append, List.length_append] at h
  omega

/-- A log line with a token. -/
def tokenLine : Assignment where
  before := ascii "pm: "
  key := ascii "Token"
  separators := ascii " = "
  after := ascii ", voltage=120"
  before_boundary := by decide +kernel
  before_plain := not_containsKey_of_short (by decide +kernel)
  key_mem := by decide +kernel
  separators_ne := by decide +kernel
  separators_all := by decide +kernel

theorem tokenLine_noninterfering :
    diagnosticsRedact (tokenLine.text (ascii "abc")) (Bytes.zero 33) =
        diagnosticsRedact (tokenLine.text (ascii "hunter2")) (Bytes.zero 33) ∧
      diagnosticsRedact (tokenLine.text (0x22 :: (ascii "a b" ++ [0x22]))) (Bytes.zero 33) =
        diagnosticsRedact (tokenLine.text (0x22 :: (ascii "hunter 2" ++ [0x22]))) (Bytes.zero 33) := by
  have hbare : SameKind (ascii "abc") (ascii "hunter2") :=
    .bare ⟨by decide +kernel, by decide +kernel, by decide +kernel⟩
      ⟨by decide +kernel, by decide +kernel, by decide +kernel⟩
  have hquoted : SameKind (0x22 :: (ascii "a b" ++ [0x22])) (0x22 :: (ascii "hunter 2" ++ [0x22])) :=
    .quoted rfl (by decide +kernel) (by decide +kernel)
  exact ⟨(redact_noninterfering (n := 32) (Bytes.zero 33)).1 tokenLine _ _ hbare,
    (redact_noninterfering (n := 32) (Bytes.zero 33)).1 tokenLine _ _ hquoted⟩

end PowerMonitor.Diagnostics
