import PowerMonitor.Diagnostics.NonInterference

/-!
# Secrets in JSON text and under the names of the configuration

The redactor does not know the syntax of JSON. After a key it takes the closing quote of the name
for the opening quote of the value, leaves out the colon, and copies the value. The names that the
configuration keeps secret are not its keys either, unless they are on its own list.

* `SecretText` is the text around the value of a secret, a member or an assignment.
* `SecretText.Hides` says when two values are not told apart, by the place where the redactor stands
  at the value and the part of it that is copied.
* `secret_redacted_iff`: the output is the same for two values exactly then.
-/

namespace PowerMonitor.Diagnostics

open CMemory CJson CText

/-! ## Secrets -/

/-- `secrets` of `pm_config_secret_field_name`. -/
def configSecrets : List (List UInt8) :=
  [ascii "wifi_password", ascii "enrollment_token", ascii "device_secret", ascii "hmac_key",
   ascii "private_key", ascii "session_cookie", ascii "administrator_credential"]

/-- `pm_config_secret_field_name`. -/
def configSecretFieldName (name : List UInt8) : Bool := configSecrets.any (name == ·)

/-- The characters of a value: no quotes, backslashes, white space, commas or braces. -/
def isValueChar (c : UInt8) : Bool :=
  !(isQuote c || c = 0x5c || isspace c || c = 0x2c || c = 0x7b || c = 0x7d)

/-- The value of a secret. -/
structure SecretValue where
  value : List UInt8
  ne : value ≠ []
  all : ∀ c ∈ value, isValueChar c = true

/-- The name of a secret: the configuration says so, or it is a key of the redactor. -/
def IsSecretName (name : List UInt8) : Prop := configSecretFieldName name = true ∨ name ∈ redactKeys

/-- The text around the value of a secret: a member of a JSON object, or an assignment. -/
inductive SecretText
  | member (before name after : List UInt8) (hname : IsSecretName name)
  | assignment (before name after : List UInt8) (hname : IsSecretName name)
    (hafter : ∀ c ∈ after.head?, isValueChar c = false)

namespace SecretText

/-- The text up to the value. -/
def lead : SecretText → List UInt8
  | member before name _ _ => before ++ (0x22 :: (name ++ [0x22, 0x3a, 0x22]))
  | assignment before name _ _ _ => before ++ (name ++ [0x3d])

/-- The text after the value. -/
def tail : SecretText → List UInt8
  | member _ _ after _ => 0x22 :: after
  | assignment _ _ after _ _ => after

/-- The text with a value. -/
def text (t : SecretText) (v : SecretValue) : List UInt8 := t.lead ++ (v.value ++ t.tail)

/-- The output does not tell the two values apart, at any size. -/
def Redacts (t : SecretText) (v v' : SecretValue) : Prop :=
  ∀ (n : ℕ) (output : Bytes n),
    diagnosticsRedact (t.text v) output = diagnosticsRedact (t.text v') output

end SecretText

/-! ## What hides a value -/

/-- A text cut after the first key that is a whole word in it and the separators after the key. -/
def splitAtKey (prev : Option UInt8) : List UInt8 → Option (List UInt8 × List UInt8)
  | [] => none
  | c :: rest =>
    match matchedKey prev (c :: rest) with
    | some key =>
      let after := (c :: rest).drop key.length
      some ((c :: rest).take key.length ++ after.takeWhile isSeparator, after.dropWhile isSeparator)
    | none => (splitAtKey (some c) rest).map fun cut => (c :: cut.1, cut.2)

/-- A value cut where it begins to be left out, by the place at which the redactor stands before
it. -/
def cutValue : ScanMode → List UInt8 → Option (List UInt8 × List UInt8)
  | .text prev, value => splitAtKey prev value
  | .separators, value => some (value.takeWhile isSeparator, value.dropWhile isSeparator)
  | _, _ => none

/-- The redactor is within a value that it leaves out. -/
def ScanMode.skips : ScanMode → Bool
  | .bare | .quoted _ => true
  | _ => false

/-- A text that goes on without a separator or a quote. -/
def StartsBare (text : List UInt8) : Prop :=
  ∀ c ∈ text.head?, isSeparator c = false ∧ isQuote c = false

/-- The same part of two values is copied, and then each of them is left out. -/
def SameCut (mode : ScanMode) (tail value value' : List UInt8) : Prop :=
  ∃ shown hidden hidden', cutValue mode value = some (shown, hidden) ∧
    cutValue mode value' = some (shown, hidden') ∧
    (hidden ≠ [] ∧ hidden' ≠ [] ∨ StartsBare tail)

namespace SecretText

/-- Where the redactor stands at the value. -/
def mode (t : SecretText) : ScanMode := (scanner.drive (.text none) t.lead).2

/-- Two values are hidden: the redactor is leaving out an earlier value, or the values are the same,
or the same part of them is copied. -/
def Hides (t : SecretText) (v v' : SecretValue) : Prop :=
  t.mode.skips = true ∨ v.value = v'.value ∨ SameCut t.mode t.tail v.value v'.value

end SecretText

/-! ## The cut -/

section

variable {prev : Option UInt8} {mode : ScanMode} {c : UInt8}
  {value value' shown hidden other tail : List UInt8}

/-- No character outside of the values is of a word. -/
theorem isWord_of_not_isValueChar (c : UInt8) (h : isValueChar c = false) : isWord c = false :=
  forall_byte (P := fun c => isValueChar c = false → isWord c = false) (by decide) c h

theorem isTerminator_of_isValueChar (c : UInt8) (h : isValueChar c = true) :
    isTerminator c = false :=
  forall_byte (P := fun c => isValueChar c = true → isTerminator c = false) (by decide) c h

theorem isValueChar_of_isTerminator (c : UInt8) (h : isTerminator c = true) :
    isValueChar c = false := by
  by_contra hvalue
  rw [isTerminator_of_isValueChar c (by simpa using hvalue)] at h
  cases h

theorem isQuote_of_isValueChar (c : UInt8) (h : isValueChar c = true) : isQuote c = false :=
  forall_byte (P := fun c => isValueChar c = true → isQuote c = false) (by decide) c h

/-- A text starts between words if it does not start with a character of a value. -/
theorem not_isWord_head (h : ∀ c ∈ tail.head?, isValueChar c = false) :
    tail.head?.any isWord = false := by
  cases tail with
  | nil => rfl
  | cons c tail => exact isWord_of_not_isValueChar c (h c rfl)

/-- The cut is right after a key, or it is later in the text. -/
theorem splitAtKey_cases (h : splitAtKey prev value = some (shown, hidden)) :
    (∃ word separators key, value = word ++ (separators ++ hidden) ∧ shown = word ++ separators ∧
        matchedKey prev value = some key ∧ key.length = word.length ∧
        (∀ c ∈ separators, isSeparator c = true) ∧ ∀ c ∈ hidden.head?, isSeparator c = false) ∨
      ∃ c rest shown', value = c :: rest ∧ shown = c :: shown' ∧ matchedKey prev value = none ∧
        splitAtKey (some c) rest = some (shown', hidden) := by
  cases value with
  | nil => cases h
  | cons c rest =>
    rw [splitAtKey] at h
    cases hkey : matchedKey prev (c :: rest) with
    | some key =>
      rw [hkey, Option.some.injEq, Prod.mk.injEq] at h
      obtain ⟨-, -, word, after, heq, hlength, -, -⟩ := matchedKey_eq_some hkey
      rw [heq, ← hlength, List.take_left, List.drop_left] at h
      obtain ⟨rfl, rfl⟩ := h
      refine .inl ⟨word, _, key, ?_, rfl, rfl, hlength.symm, fun c hc => List.mem_takeWhile_imp hc,
        head_dropWhile⟩
      rw [heq, List.takeWhile_append_dropWhile]
    | none =>
      rw [hkey, Option.map_eq_some_iff] at h
      obtain ⟨⟨shown', hidden'⟩, hrest, hcut⟩ := h
      obtain ⟨rfl, rfl⟩ := Prod.mk.inj hcut
      exact .inr ⟨c, rest, shown', rfl, rfl, rfl, hrest⟩

theorem split_separators (h : ∀ c ∈ shown, isSeparator c = true)
    (hother : ∀ c ∈ other.head?, isSeparator c = false) :
    (shown ++ other).takeWhile isSeparator = shown ∧ (shown ++ other).dropWhile isSeparator = other := by
  rw [List.takeWhile_append_of_pos h, List.dropWhile_append_of_pos h]
  cases other with
  | nil => exact ⟨List.append_nil shown, rfl⟩
  | cons c other => simp [hother c rfl]

/-- The word of a key is not empty. -/
theorem word_ne_nil {key word : List UInt8} (h : matchedKey prev value = some key)
    (hlength : key.length = word.length) : word ≠ [] := by
  rintro rfl
  have hone := (redactKeys_spec key (matchedKey_eq_some h).1).1
  rw [hlength] at hone
  exact absurd hone (by decide)

/-- A key stays one when something else follows it. -/
theorem matchedKey_swap {word after after' key : List UInt8}
    (h : matchedKey prev (word ++ after) = some key) (hlength : key.length = word.length)
    (hafter' : after'.head?.any isWord = false) :
    ∃ key', matchedKey prev (word ++ after') = some key' ∧ key'.length = word.length := by
  obtain ⟨hmem, hprev, word', after'', heq, hlength', hword, -⟩ := matchedKey_eq_some h
  obtain ⟨rfl, -⟩ := List.append_inj heq (hlength.symm.trans hlength'.symm)
  exact matchedKey_word (hword ▸ hmem) hprev hafter'

theorem splitAtKey_here {word separators rest key : List UInt8}
    (h : matchedKey prev (word ++ (separators ++ rest)) = some key)
    (hlength : key.length = word.length) (hseparators : ∀ c ∈ separators, isSeparator c = true)
    (hrest : ∀ c ∈ rest.head?, isSeparator c = false) :
    splitAtKey prev (word ++ (separators ++ rest)) = some (word ++ separators, rest) := by
  have hword := word_ne_nil h hlength
  obtain ⟨c, word, rfl⟩ := List.exists_cons_of_ne_nil hword
  obtain ⟨htake, hdrop⟩ := split_separators hseparators hrest
  rw [List.cons_append] at h ⊢
  rw [splitAtKey, h]
  dsimp only
  rw [hlength, ← List.cons_append, List.take_left, List.drop_left, htake, hdrop]

/-- What a cut consists of: it is between words. -/
theorem splitAtKey_spec (h : splitAtKey prev value = some (shown, hidden)) :
    value = shown ++ hidden ∧ shown ≠ [] ∧
      (shown.getLast?.any isWord = false ∨ hidden.head?.any isWord = false) ∧
      ∀ c ∈ hidden.head?, isSeparator c = false := by
  induction value generalizing prev shown with
  | nil => cases h
  | cons c rest ih =>
    rcases splitAtKey_cases h with ⟨word, separators, key, heq, rfl, hkey, hlength, hall, hhead⟩ |
      ⟨d, rest', shown', heq, rfl, -, hrest⟩
    · refine ⟨by rw [heq, List.append_assoc], ?_, ?_, hhead⟩
      · rw [ne_eq, List.append_eq_nil_iff, not_and_or]
        exact .inl (word_ne_nil hkey hlength)
      · rcases List.eq_nil_or_concat' separators with rfl | ⟨init, d, rfl⟩
        · obtain ⟨-, -, word', after, heq', hlength', -, hafter⟩ := matchedKey_eq_some hkey
          rw [heq, List.nil_append] at heq'
          obtain ⟨rfl, rfl⟩ := List.append_inj heq' (hlength.symm.trans hlength'.symm)
          exact .inr hafter
        · have hd := isWord_of_isSeparator d (hall d (by simp))
          rw [← List.append_assoc, List.getLast?_concat]
          exact .inl hd
    · obtain ⟨rfl, rfl⟩ := List.cons.inj heq
      obtain ⟨hrest', hne, hboundary, hhead⟩ := ih hrest
      refine ⟨by rw [hrest', List.cons_append], List.cons_ne_nil _ _, ?_, hhead⟩
      rwa [List.getLast?_cons_of_ne_nil hne]

/-- The cut does not depend on what is left out. -/
theorem splitAtKey_other (h : splitAtKey prev value = some (shown, hidden))
    (hother : ∀ c ∈ other.head?, isWord c = false ∧ isSeparator c = false) :
    splitAtKey prev (shown ++ other) = some (shown, other) := by
  have hhead : other.head?.any isWord = false := by
    cases other with
    | nil => rfl
    | cons c other => exact (hother c rfl).1
  induction value generalizing prev shown with
  | nil => cases h
  | cons c rest ih =>
    have hspec := splitAtKey_spec h
    rcases splitAtKey_cases h with ⟨word, separators, key, heq, rfl, hkey, hlength, hall, -⟩ |
      ⟨d, rest', shown', heq, rfl, hnone, hrest⟩
    · have hafter : (separators ++ other).head?.any isWord = false := by
        cases separators with
        | nil => exact hhead
        | cons d separators => exact isWord_of_isSeparator d (hall d (by simp))
      rw [heq] at hkey
      obtain ⟨key', hkey', hlength'⟩ := matchedKey_swap hkey hlength hafter
      rw [List.append_assoc]
      exact splitAtKey_here hkey' hlength' hall fun c hc => (hother c hc).2
    · obtain ⟨rfl, rfl⟩ := List.cons.inj heq
      have hwithin : matchedKey prev (c :: shown' ++ other) = none := by
        rw [matchedKey_append hhead, ← matchedKey_of_boundary hspec.2.1 hspec.2.2.1, ← hspec.1]
        exact hnone
      rw [List.cons_append] at hwithin ⊢
      rw [splitAtKey, hwithin]
      dsimp only
      rw [ih hrest]
      rfl

/-! ## The output -/

theorem scan_text_prev (h : tail.head?.any isWord = false) (prev prev' : Option UInt8) :
    scan (.text prev) tail = scan (.text prev') tail := by
  cases tail with
  | nil => rfl
  | cons c tail =>
    rw [scan_cons, scan_cons, scanStep, scanStep, matchedKey_eq_none h, matchedKey_eq_none h]

/-- A value without a key is copied. -/
theorem scan_of_no_key (htail : tail.head?.any isWord = false) (h : splitAtKey prev value = none) :
    scan (.text prev) (value ++ tail) = value ++ scan (.text none) tail := by
  induction value generalizing prev with
  | nil => exact scan_text_prev htail prev none
  | cons c rest ih =>
    have hkey := @matchedKey_append prev (c :: rest) tail htail
    rw [splitAtKey] at h
    cases hnone : matchedKey prev (c :: rest) with
    | some key => rw [hnone] at h; cases h
    | none =>
      rw [hnone, Option.map_eq_none_iff] at h
      rw [hnone, List.cons_append] at hkey
      rw [List.cons_append, scan_cons, scanStep, hkey]
      dsimp only
      rw [ih h]
      rfl

/-- A value is copied up to the cut. -/
theorem scan_of_key (htail : tail.head?.any isWord = false)
    (h : splitAtKey prev value = some (shown, hidden)) :
    scan (.text prev) (value ++ tail) = shown ++ scan .separators (hidden ++ tail) := by
  induction value generalizing prev shown with
  | nil => cases h
  | cons c rest ih =>
    have hwithin := @matchedKey_append prev (c :: rest) tail htail
    rcases splitAtKey_cases h with ⟨word, separators, key, heq, rfl, hkey, hlength, hall, -⟩ |
      ⟨d, rest', shown', heq, rfl, hnone, hrest⟩
    · rw [hkey, heq, List.append_assoc] at hwithin
      rw [heq, List.append_assoc, scan_matched hwithin hlength, List.append_assoc,
        scan_separators_append hall, List.append_assoc]
    · obtain ⟨rfl, rfl⟩ := List.cons.inj heq
      rw [hnone, List.cons_append] at hwithin
      rw [List.cons_append, scan_cons, scanStep, hwithin]
      dsimp only
      rw [ih hrest]
      rfl

/-- What a cut consists of, and what is written for the value. -/
theorem cutValue_spec (htail : tail.head?.any isWord = false)
    (h : cutValue mode value = some (shown, hidden)) :
    value = shown ++ hidden ∧ (∀ c ∈ hidden.head?, isSeparator c = false) ∧
      scan mode (value ++ tail) = shown ++ scan .separators (hidden ++ tail) := by
  cases mode with
  | text prev =>
    obtain ⟨happend, -, -, hhead⟩ := splitAtKey_spec h
    exact ⟨happend, hhead, scan_of_key htail h⟩
  | separators =>
    obtain ⟨rfl, rfl⟩ := Prod.mk.inj (Option.some.inj h)
    refine ⟨List.takeWhile_append_dropWhile.symm, head_dropWhile, ?_⟩
    conv_lhs => rw [← List.takeWhile_append_dropWhile (p := isSeparator) (l := value)]
    rw [List.append_assoc, scan_separators_append fun c hc => List.mem_takeWhile_imp hc]
  | key left => cases h
  | bare => cases h
  | quoted quote => cases h

theorem cutValue_other (h : cutValue mode value = some (shown, hidden))
    (hother : ∀ c ∈ other.head?, isWord c = false ∧ isSeparator c = false) :
    cutValue mode (shown ++ other) = some (shown, other) := by
  cases mode with
  | text prev => exact splitAtKey_other h hother
  | separators =>
    obtain ⟨rfl, rfl⟩ := Prod.mk.inj (Option.some.inj h)
    have hall : ∀ c ∈ value.takeWhile isSeparator, isSeparator c = true :=
      fun c hc => List.mem_takeWhile_imp hc
    obtain ⟨htake, hdrop⟩ := split_separators hall fun c hc => (hother c hc).2
    exact congrArg some (Prod.ext htake hdrop)
  | key left => cases h
  | bare => cases h
  | quoted quote => cases h

/-- What is left out is replaced by the marker. -/
theorem scan_hidden (hvalue : ∀ c ∈ value, isValueChar c = true)
    (htail : ∀ c ∈ tail.head?, isValueChar c = false)
    (h : cutValue mode value = some (shown, hidden)) (hhidden : hidden ≠ [] ∨ StartsBare tail) :
    scan mode (value ++ tail) = shown ++ (redacted ++ scan .bare tail) := by
  obtain ⟨rfl, hhead, hscan⟩ := cutValue_spec (not_isWord_head htail) h
  have hall : ∀ c ∈ hidden, isValueChar c = true := fun c hc => hvalue c (by simp [hc])
  have hbare : StartsBare (hidden ++ tail) := by
    cases hidden with
    | nil => exact hhidden.resolve_left fun hne => hne rfl
    | cons c hidden =>
      rintro d ⟨⟩
      exact ⟨hhead c rfl, isQuote_of_isValueChar c (hall c List.mem_cons_self)⟩
  rw [hscan, scan_separators_bare hbare,
    scan_bare_append fun c hc => isTerminator_of_isValueChar c (hall c hc)]

/-! ## The front of the output -/

/-- The front of what is written from the place of the value on. -/
def front (text : List UInt8) : List UInt8 := text.takeWhile isValueChar

theorem front_append (h : ∀ c ∈ value, isValueChar c = true) (text : List UInt8) :
    front (value ++ text) = value ++ front text :=
  List.takeWhile_append_of_pos h

theorem front_text (h : ∀ c ∈ tail.head?, isValueChar c = false) (prev : Option UInt8) :
    front (scan (.text prev) tail) = [] := by
  cases tail with
  | nil => rfl
  | cons c tail =>
    have hc := h c rfl
    rw [scan_cons, scanStep, matchedKey_eq_none (isWord_of_not_isValueChar c hc)]
    exact List.takeWhile_cons_of_neg (by simp [hc])

theorem front_bare (tail : List UInt8) : front (scan .bare tail) = [] := by
  rw [scan_bare_eq tail none]
  refine front_text (fun c hc => isValueChar_of_isTerminator c ?_) none
  simpa using head_dropWhile c hc

theorem front_separators (h : ∀ c ∈ tail.head?, isValueChar c = false) (htail : ¬StartsBare tail) :
    front (scan .separators tail) = [] := by
  cases tail with
  | nil => exact absurd (fun c hc => by cases hc) htail
  | cons c tail =>
    have hc : ¬isValueChar c = true := by simp [h c rfl]
    cases hseparator : isSeparator c with
    | true =>
      rw [scan_cons, scanStep, if_pos hseparator]
      exact List.takeWhile_cons_of_neg hc
    | false =>
      cases hquote : isQuote c with
      | true =>
        rw [scan_separators_quote hquote]
        exact List.takeWhile_cons_of_neg hc
      | false =>
        refine absurd ?_ htail
        rintro d ⟨⟩
        exact ⟨hseparator, hquote⟩

/-- The marker is of the characters of a value, and no key and no separator is found in it. -/
theorem redacted_spec : (∀ c ∈ redacted, isValueChar c = true) ∧ redacted ≠ [] ∧
    ∀ c ∈ redacted.head?, isWord c = false ∧ isSeparator c = false := by
  decide +kernel

/-- The front of the output is the whole value, or what is copied of it and the marker. -/
theorem front_scan (hskips : mode.skips = false) (hkey : ∀ left, mode ≠ .key left)
    (hvalue : ∀ c ∈ value, isValueChar c = true) (htail : ∀ c ∈ tail.head?, isValueChar c = false) :
    (front (scan mode (value ++ tail)) = value ∧
        ∀ shown hidden, cutValue mode value = some (shown, hidden) → hidden = []) ∨
      ∃ shown hidden, cutValue mode value = some (shown, hidden) ∧
        (hidden ≠ [] ∨ StartsBare tail) ∧
        front (scan mode (value ++ tail)) = shown ++ redacted := by
  cases hcut : cutValue mode value with
  | none =>
    refine .inl ⟨?_, fun _ _ h => by cases h⟩
    cases mode with
    | text prev =>
      rw [scan_of_no_key (not_isWord_head htail) hcut, front_append hvalue, front_text htail,
        List.append_nil]
    | separators => cases hcut
    | key left => exact absurd rfl (hkey left)
    | bare => cases hskips
    | quoted quote => cases hskips
  | some cut =>
    obtain ⟨shown, hidden⟩ := cut
    obtain ⟨happend, -, hscan⟩ := cutValue_spec (not_isWord_head htail) hcut
    have hshown : ∀ c ∈ shown, isValueChar c = true := fun c hc => hvalue c (by simp [happend, hc])
    by_cases hhidden : hidden ≠ [] ∨ StartsBare tail
    · refine .inr ⟨shown, hidden, rfl, hhidden, ?_⟩
      rw [scan_hidden hvalue htail hcut hhidden, front_append hshown,
        front_append redacted_spec.1, front_bare, List.append_nil]
    · obtain ⟨hnil, hbare⟩ := not_or.1 hhidden
      obtain rfl := not_not.1 hnil
      refine .inl ⟨?_, fun _ _ h => ?_⟩
      · rw [hscan, List.nil_append, front_append hshown, front_separators htail hbare, happend]
      · exact (Prod.mk.inj (Option.some.inj h)).2.symm

/-- Where the output is the same, the values are, or the same part of them is copied. -/
theorem sameCut_of_scan_eq (hskips : mode.skips = false) (hkey : ∀ left, mode ≠ .key left)
    (hvalue : ∀ c ∈ value, isValueChar c = true) (hvalue' : ∀ c ∈ value', isValueChar c = true)
    (htail : ∀ c ∈ tail.head?, isValueChar c = false)
    (h : scan mode (value ++ tail) = scan mode (value' ++ tail)) :
    value = value' ∨ SameCut mode tail value value' := by
  -- a value that ends in the marker, after a key, is one of which something is left out
  have hmarker : ∀ {value shown hidden : List UInt8}, cutValue mode value = some (shown, hidden) →
      ¬∀ shown' hidden', cutValue mode (shown ++ redacted) = some (shown', hidden') → hidden' = [] :=
    fun hcut hnil => absurd (hnil _ _ (cutValue_other hcut redacted_spec.2.2)) redacted_spec.2.1
  rcases front_scan hskips hkey hvalue htail with ⟨hfront, hnil⟩ | ⟨shown, hidden, hcut, hend, hfront⟩
  · rcases front_scan hskips hkey hvalue' htail with
      ⟨hfront', -⟩ | ⟨shown', hidden', hcut', -, hfront'⟩
    · left
      rw [← hfront, ← hfront', h]
    · have hshown : value = shown' ++ redacted := by rw [← hfront, ← hfront', h]
      rw [hshown] at hnil
      exact absurd hnil (hmarker hcut')
  · rcases front_scan hskips hkey hvalue' htail with
      ⟨hfront', hnil'⟩ | ⟨shown', hidden', hcut', hend', hfront'⟩
    · have hshown : value' = shown ++ redacted := by rw [← hfront, ← hfront', h]
      rw [hshown] at hnil'
      exact absurd hnil' (hmarker hcut)
    · have hshown : shown ++ redacted = shown' ++ redacted := by rw [← hfront, ← hfront', h]
      obtain rfl := List.append_cancel_right hshown
      refine .inr ⟨shown, hidden, hidden', hcut, hcut', ?_⟩
      by_cases hbare : StartsBare tail
      · exact .inr hbare
      · exact .inl ⟨hend.resolve_right hbare, hend'.resolve_right hbare⟩

/-- Where the same part of two values is copied, the output is the same. -/
theorem scan_eq_of_sameCut (hvalue : ∀ c ∈ value, isValueChar c = true)
    (hvalue' : ∀ c ∈ value', isValueChar c = true) (htail : ∀ c ∈ tail.head?, isValueChar c = false)
    (h : SameCut mode tail value value') :
    scan mode (value ++ tail) = scan mode (value' ++ tail) := by
  obtain ⟨shown, hidden, hidden', hcut, hcut', hend⟩ := h
  rw [scan_hidden hvalue htail hcut (hend.imp_left And.left),
    scan_hidden hvalue' htail hcut' (hend.imp_left And.right)]

end

/-! ## Up to the value -/

/-- What a place of the scanner says of the text that is left. -/
def ScanMode.Fits : ScanMode → List UInt8 → Prop
  | .key left, rest => 0 < left ∧ left ≤ rest.length
  | .quoted quote, _ => isQuote quote = true
  | _, _ => True

theorem fits_scanStep (mode : ScanMode) (c : UInt8) (rest : List UInt8)
    (h : mode.Fits (c :: rest)) : (scanStep mode c rest).2.Fits rest := by
  have hbare : (bareStep c).2.Fits rest := by
    unfold bareStep
    split <;> trivial
  cases mode with
  | text prev =>
    rw [scanStep]
    cases hkey : matchedKey prev (c :: rest) with
    | none => trivial
    | some key =>
      obtain ⟨hmem, -, word, after, heq, hlength, -, -⟩ := matchedKey_eq_some hkey
      have hone := (redactKeys_spec key hmem).1
      have htotal := congrArg List.length heq
      rw [List.length_append, List.length_cons] at htotal
      exact ⟨by omega, by omega⟩
  | key left =>
    obtain ⟨hpos, hle⟩ := h
    rw [List.length_cons] at hle
    rw [scanStep]
    dsimp only
    split
    · trivial
    · exact ⟨by omega, by omega⟩
  | separators =>
    rw [scanStep]
    split
    · trivial
    · split
      next hquote => exact hquote
      · exact hbare
  | bare => exact hbare
  | quoted quote =>
    rw [scanStep]
    split
    · trivial
    · exact h

namespace SecretText

variable (t : SecretText) (v v' : SecretValue)

theorem lead_boundary : t.lead.getLast?.any isWord = false := by
  cases t with
  | member before name after hname =>
    have hlead : (member before name after hname).lead =
        before ++ (0x22 :: (name ++ [0x22, 0x3a])) ++ [0x22] := by
      simp [lead]
    rw [hlead, List.getLast?_concat]
    decide
  | assignment before name after hname hafter =>
    rw [lead, ← List.append_assoc, List.getLast?_concat]
    decide

theorem tail_head : ∀ c ∈ t.tail.head?, isValueChar c = false := by
  cases t with
  | member before name after hname =>
    rintro c ⟨⟩
    decide
  | assignment before name after hname hafter => exact hafter

theorem fits_mode : t.mode.Fits [] :=
  scanner.drive_invariant fits_scanStep (show (ScanMode.text none).Fits t.lead from trivial)

/-- The redactor goes on at the value from where it stands. -/
theorem scan_text : scan (.text none) (t.text v) =
    (scanner.drive (.text none) t.lead).1 ++ scan t.mode (v.value ++ t.tail) :=
  scanner.run_append (closed_of_boundary (.inl t.lead_boundary)) (.text none)

/-- A value within another one is left out. -/
theorem scan_skips (h : t.mode.skips = true) :
    scan t.mode (v.value ++ t.tail) = scan t.mode t.tail := by
  have hfits := t.fits_mode
  cases hmode : t.mode with
  | bare => exact scan_bare_append fun c hc => isTerminator_of_isValueChar c (v.all c hc)
  | quoted quote =>
    rw [hmode] at hfits
    refine scan_quoted_append fun hquote => ?_
    have hquoted : isQuote quote = true := hfits
    rw [isQuote_of_isValueChar quote (v.all quote hquote)] at hquoted
    cases hquoted
  | text prev => rw [hmode] at h; cases h
  | key left => rw [hmode] at h; cases h
  | separators => rw [hmode] at h; cases h

/-- The values are told apart by what is written from their place on. -/
theorem redacts_iff : t.Redacts v v' ↔
    scan t.mode (v.value ++ t.tail) = scan t.mode (v'.value ++ t.tail) := by
  rw [Redacts, diagnosticsRedact_eq_iff, scan_text, scan_text]
  exact List.append_right_inj _

end SecretText

/-- **When a secret is redacted**: the redactor is leaving out an earlier value at its place, the
two values are the same, or the same part of both is copied before they are left out. -/
theorem secret_redacted_iff (t : SecretText) (v v' : SecretValue) :
    t.Redacts v v' ↔ t.Hides v v' := by
  rw [t.redacts_iff, SecretText.Hides]
  constructor
  · intro h
    cases hskips : t.mode.skips with
    | true => exact .inl rfl
    | false =>
      have hkey : ∀ left, t.mode ≠ .key left := by
        intro left hmode
        have hfits := t.fits_mode
        rw [hmode] at hfits
        exact absurd hfits.2 (Nat.not_le.2 hfits.1)
      exact .inr (sameCut_of_scan_eq hskips hkey v.all v'.all t.tail_head h)
  · rintro (hskips | hsame | hcut)
    · rw [t.scan_skips v hskips, t.scan_skips v' hskips]
    · rw [hsame]
    · exact scan_eq_of_sameCut v.all v'.all t.tail_head hcut

/-- The password of a JSON object is copied: its name is followed by a quote. -/
theorem json_password_exposed :
    ¬(SecretText.member (ascii "\x7b") (ascii "password") (ascii "\x7d")
        (.inr (by decide +kernel))).Redacts
      ⟨ascii "hunter2", by decide +kernel, by decide +kernel⟩
      ⟨ascii "hunter3", by decide +kernel, by decide +kernel⟩ := by
  intro h
  have hwritten := congrArg Prod.snd (h 40 (Bytes.zero 40))
  exact absurd hwritten (by decide +kernel)

end PowerMonitor.Diagnostics
