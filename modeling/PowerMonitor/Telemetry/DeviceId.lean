import Mathlib.Tactic.IntervalCases
import PowerMonitor.Foundations.Hex
import PowerMonitor.Ota.Payload
import PowerMonitor.Protocol.Keys

/-!
# The text of a device identifier

`format_device_id` prints the 16 bytes of an identifier with one format string, `parse_uuid` reads
them back and skips the hyphens on its way, and `uuid_valid` of `pm_ota.c` checks the characters by
their places.

* `parseUuidLoop_spec`: the loop reads each byte at its `position`, or stops.
* `parseUuid_iff`: the texts that are accepted, with digits of either case.
* `device_id_codec`: what is printed is read back and valid, and what is read is printed in lower
  case. So the text stands for its identifier, as the salt of the keys
  (`hkdfSalt_deviceIdText_injective`) and in a manifest (`parseUuid_manifest`).
-/

namespace PowerMonitor.Telemetry

open CMemory CText CJson Ota

/-! ## The functions of the source -/

/-- The text that the format of `format_device_id` prints. -/
def deviceIdText (id : Bytes 16) : List UInt8 :=
  let x (i : ℕ) := Hex.printByte (id.bytes.getD i 0)
  x 0 ++ x 1 ++ x 2 ++ x 3 ++ [0x2d] ++ x 4 ++ x 5 ++ [0x2d] ++ x 6 ++ x 7 ++ [0x2d] ++
    x 8 ++ x 9 ++ [0x2d] ++ x 10 ++ x 11 ++ x 12 ++ x 13 ++ x 14 ++ x 15

/-- `format_device_id`. -/
def formatDeviceId (id : Bytes 16) (output : Bytes 37) : Bytes 37 := output.print (deviceIdText id)

/-- `hex_nibble`. -/
def hexNibble (value : UInt8) : ℤ :=
  if 0x30 ≤ value ∧ value ≤ 0x39 then value.toNat - 0x30
  else if 0x61 ≤ value ∧ value ≤ 0x66 then value.toNat - 0x61 + 10
  else if 0x41 ≤ value ∧ value ≤ 0x46 then value.toNat - 0x41 + 10
  else -1

/-- The character of a string at an index; after the last one there is a NUL. -/
def charAt (value : List UInt8) (i : ℕ) : UInt8 := value.getD i 0

/-- `source++` at a hyphen. -/
def skipHyphen (source : ℕ) : ℕ :=
  if source = 8 ∨ source = 13 ∨ source = 18 ∨ source = 23 then source + 1 else source

/-- The loop of `parse_uuid`, with the number of bytes that are left. -/
def parseUuidLoop (value : List UInt8) : ℕ → ℕ → Bytes 16 → Bool × Bytes 16
  | 0, _, output => (true, output)
  | left + 1, source, output =>
    let source := skipHyphen source
    let high := hexNibble (charAt value source)
    let low := hexNibble (charAt value (source + 1))
    if high < 0 ∨ low < 0 then (false, output)
    else parseUuidLoop value left (source + 2)
      (output.set (15 - left) (UInt8.ofNat (high.toNat <<< 4 ||| low.toNat)))

/-- `parse_uuid`, whose string may be null. -/
def parseUuid (value : Option (List UInt8)) (output : Bytes 16) : Bool × Bytes 16 :=
  match value with
  | none => (false, output)
  | some value =>
    if value.length ≠ 36 ∨ charAt value 8 ≠ 0x2d ∨ charAt value 13 ≠ 0x2d ∨
        charAt value 18 ≠ 0x2d ∨ charAt value 23 ≠ 0x2d then (false, output)
    else parseUuidLoop value 16 0 output

/-! ## Places -/

/-- The places of the hyphens. -/
def hyphens : List ℕ := [8, 13, 18, 23]

/-- The place of the first digit of a byte. -/
def position (i : ℕ) : ℕ :=
  2 * i + if i < 4 then 0 else if i < 6 then 1 else if i < 8 then 2 else if i < 10 then 3 else 4

/-- The text of an identifier: 36 characters, hyphens in their places, and digits of either case
everywhere else. -/
structure IsUuidText (text : List UInt8) : Prop where
  length : text.length = 36
  hyphen : ∀ i ∈ hyphens, charAt text i = 0x2d
  digit : ∀ i < 36, i ∉ hyphens → isxdigit (charAt text i) = true

theorem position_spec : ∀ i < 16, position i + 1 < 36 ∧ position i ∉ hyphens ∧
    position i + 1 ∉ hyphens := by
  decide

/-- Every other place is that of a digit. -/
theorem place_cases : ∀ i < 36, i ∈ hyphens ∨ ∃ j < 16, i = position j ∨ i = position j + 1 := by
  decide

/-- After a byte, the loop is at the next one. -/
theorem skipHyphen_position : ∀ i < 15, skipHyphen (position i + 2) = position (i + 1) := by decide

theorem charAt_eq {text : List UInt8} {i : ℕ} (h : i < text.length) : charAt text i = text[i] := by
  simp [charAt, h]

/-! ## Digits -/

theorem hexNibble_digit : ∀ n < 16, hexNibble (Hex.digit n) = n := by decide

/-- The digits of either case have a value. -/
theorem hexNibble_nonneg_iff (c : UInt8) : 0 ≤ hexNibble c ↔ isxdigit c = true :=
  forall_byte (P := fun c => 0 ≤ hexNibble c ↔ isxdigit c = true) (by decide) c

/-- A digit is printed in lower case. -/
theorem digit_hexNibble (c : UInt8) (h : isxdigit c = true) :
    (hexNibble c).toNat < 16 ∧ Hex.digit (hexNibble c).toNat = tolower c :=
  forall_byte (P := fun c => isxdigit c = true →
    (hexNibble c).toNat < 16 ∧ Hex.digit (hexNibble c).toNat = tolower c) (by decide) c h

/-! ## The loop -/

/-- The byte of the two characters at a place, if both of them are digits. -/
def byteAtPlace (text : List UInt8) (place : ℕ) : Option UInt8 :=
  let high := hexNibble (charAt text place)
  let low := hexNibble (charAt text (place + 1))
  if high < 0 ∨ low < 0 then none else some (Hex.join high.toNat low.toNat)

section

variable {text : List UInt8} {output : Bytes 16}

theorem parseUuidLoop_succ (left source : ℕ) : parseUuidLoop text (left + 1) source output =
    match byteAtPlace text (skipHyphen source) with
    | none => (false, output)
    | some b => parseUuidLoop text left (skipHyphen source + 2) (output.set (15 - left) b) := by
  rw [parseUuidLoop, byteAtPlace]
  split <;> rfl

/-- **What the loop does** from a byte on: it accepts if all of them can be read, and has written
them then. -/
theorem parseUuidLoop_spec {left source : ℕ} (hleft : left ≤ 16)
    (hsource : 0 < left → skipHyphen source = position (16 - left)) :
    ((parseUuidLoop text left source output).1 = true ↔
      ∀ i, 16 - left ≤ i → i < 16 → (byteAtPlace text (position i)).isSome = true) ∧
    ((parseUuidLoop text left source output).1 = true → ∀ i < 16,
      (parseUuidLoop text left source output).2.bytes[i]? =
        if i < 16 - left then output.bytes[i]? else byteAtPlace text (position i)) := by
  induction left generalizing source output with
  | zero => exact ⟨iff_of_true rfl fun i hi hlt => by omega, fun _ i hi => (if_pos hi).symm⟩
  | succ left ih =>
    have hplace := hsource (Nat.succ_pos left)
    have hfirst : 16 - (left + 1) = 15 - left := by omega
    have hnext : 16 - left = 15 - left + 1 := by omega
    rw [hfirst] at hplace ⊢
    rw [parseUuidLoop_succ, hplace]
    cases hbyte : byteAtPlace text (position (15 - left)) with
    | none =>
      dsimp only
      refine ⟨iff_of_false (by simp) fun h => ?_, fun h => by cases h⟩
      have hsome := h (15 - left) le_rfl (by omega)
      rw [hbyte] at hsome
      cases hsome
    | some b =>
      dsimp only
      have hstep : 0 < left → skipHyphen (position (15 - left) + 2) = position (16 - left) := by
        intro hpos
        rw [skipHyphen_position _ (by omega), hnext]
      obtain ⟨haccepts, hwritten⟩ := @ih (output.set (15 - left) b) _ (by omega) hstep
      rw [hnext] at haccepts hwritten
      refine ⟨haccepts.trans ⟨fun h i hi hlt => ?_, fun h i hi => h i (by omega)⟩,
        fun h i hlt => (hwritten h i hlt).trans ?_⟩
      · by_cases heq : i = 15 - left
        · rw [heq, hbyte]
          rfl
        · exact h i (by omega) hlt
      · rw [output.getElem?_set (by omega)]
        by_cases heq : i = 15 - left
        · rw [if_pos (by omega), if_pos heq, if_neg (by omega), heq, hbyte]
        · by_cases hbefore : i < 15 - left
          · rw [if_pos (by omega), if_neg heq, if_pos hbefore]
          · rw [if_neg (by omega), if_neg hbefore]

/-- Two digits of either case are a byte. -/
theorem byteAtPlace_isSome_iff (text : List UInt8) (place : ℕ) :
    (byteAtPlace text place).isSome = true ↔
      isxdigit (charAt text place) = true ∧ isxdigit (charAt text (place + 1)) = true := by
  rw [← hexNibble_nonneg_iff, ← hexNibble_nonneg_iff, byteAtPlace]
  split
  next hbad => exact iff_of_false (by decide) (by omega)
  next hgood => exact iff_of_true rfl (by omega)

/-- **The texts that are accepted**, whatever the output was. -/
theorem parseUuid_iff (output : Bytes 16) :
    (parseUuid (some text) output).1 = true ↔ IsUuidText text := by
  have hloop := (@parseUuidLoop_spec text output 16 0 le_rfl fun _ => rfl).1
  rw [parseUuid]
  constructor
  · intro h
    split at h
    next => cases h
    next hform =>
      simp only [not_or, not_not] at hform
      obtain ⟨hlength, h8, h13, h18, h23⟩ := hform
      refine ⟨hlength, by simp [hyphens, h8, h13, h18, h23], fun i hi hdigit => ?_⟩
      obtain ⟨j, hj, hplace⟩ := (place_cases i hi).resolve_left hdigit
      have hboth := (byteAtPlace_isSome_iff text (position j)).1 (hloop.1 h j (by omega) hj)
      rcases hplace with rfl | rfl
      · exact hboth.1
      · exact hboth.2
  · rintro ⟨hlength, hhyphen, hdigit⟩
    rw [if_neg (by simp [hlength, hhyphen 8 (by decide), hhyphen 13 (by decide),
      hhyphen 18 (by decide), hhyphen 23 (by decide)])]
    refine hloop.2 fun i _ hi => (byteAtPlace_isSome_iff text (position i)).2 ?_
    obtain ⟨hlt, hfirst, hsecond⟩ := position_spec i hi
    exact ⟨hdigit _ (by omega) hfirst, hdigit _ hlt hsecond⟩

/-- What an accepted text leaves in the output. -/
theorem parseUuid_bytes (h : IsUuidText text) (output : Bytes 16) {i : ℕ} (hi : i < 16) :
    (parseUuid (some text) output).2.bytes[i]? = byteAtPlace text (position i) := by
  have haccepted := (parseUuid_iff output).2 h
  have hloop := (@parseUuidLoop_spec text output 16 0 le_rfl fun _ => rfl).2
  rw [parseUuid] at haccepted ⊢
  split at haccepted
  next => cases haccepted
  next hform =>
    rw [if_neg hform, hloop haccepted i hi, if_neg (by omega)]

end

/-! ## The printed text -/

/-- A text with hyphens in their places and digits in lower case everywhere else. -/
theorem lowercaseUuid_of_charAt {text : List UInt8} (hlength : text.length = 36)
    (hhyphen : ∀ i ∈ hyphens, charAt text i = 0x2d)
    (hdigit : ∀ i < 36, i ∉ hyphens → ∃ n < 16, charAt text i = Hex.digit n) :
    LowercaseUuid text := by
  refine ⟨hlength, fun i b hb => ?_⟩
  obtain ⟨hlt, hget⟩ := List.getElem?_eq_some_iff.1 hb
  have hchar : charAt text i = b := (charAt_eq hlt).trans hget
  by_cases hi : i ∈ hyphens
  · rw [if_pos (by simpa [hyphens] using hi), ← hchar]
    exact hhyphen i hi
  · rw [if_neg (by simpa [hyphens] using hi), ← hchar]
    obtain ⟨n, hn, hprinted⟩ := hdigit i (hlength ▸ hlt) hi
    rw [hprinted]
    exact Hex.lower_digit n hn

section

variable (id : Bytes 16)

/-- The characters one by one, by the two digits of each byte. -/
theorem deviceIdText_eq {high low : ℕ → UInt8}
    (h : ∀ i, Hex.printByte (id.bytes.getD i 0) = [high i, low i]) : deviceIdText id =
      [high 0, low 0, high 1, low 1, high 2, low 2, high 3, low 3, 0x2d,
       high 4, low 4, high 5, low 5, 0x2d, high 6, low 6, high 7, low 7, 0x2d,
       high 8, low 8, high 9, low 9, 0x2d, high 10, low 10, high 11, low 11,
       high 12, low 12, high 13, low 13, high 14, low 14, high 15, low 15] := by
  unfold deviceIdText
  simp only [h, List.cons_append, List.nil_append]

theorem length_deviceIdText : (deviceIdText id).length = 36 := by
  rw [deviceIdText_eq id fun _ => rfl]
  rfl

theorem charAt_hyphen : ∀ i ∈ hyphens, charAt (deviceIdText id) i = 0x2d := by
  intro i hi
  simp only [hyphens, List.mem_cons, List.not_mem_nil, or_false] at hi
  rw [deviceIdText_eq id fun _ => rfl]
  rcases hi with rfl | rfl | rfl | rfl <;> rfl

/-- Each byte is printed at its place. -/
theorem charAt_position {i : ℕ} (hi : i < 16) : Hex.printByte (id.bytes.getD i 0) =
    [charAt (deviceIdText id) (position i), charAt (deviceIdText id) (position i + 1)] := by
  obtain ⟨high, low, hpair⟩ : ∃ high low : ℕ → UInt8,
      ∀ i, Hex.printByte (id.bytes.getD i 0) = [high i, low i] := ⟨_, _, fun _ => rfl⟩
  rw [deviceIdText_eq id hpair, hpair]
  interval_cases i <;> rfl

/-- The two digits of a byte that was joined. -/
theorem charAt_of_join {i high low : ℕ} (hi : i < 16) (hhigh : high < 16) (hlow : low < 16)
    (h : id.bytes.getD i 0 = Hex.join high low) :
    charAt (deviceIdText id) (position i) = Hex.digit high ∧
      charAt (deviceIdText id) (position i + 1) = Hex.digit low := by
  have hprinted := charAt_position id hi
  rw [h, Hex.printByte_join hhigh hlow] at hprinted
  obtain ⟨hfirst, hsecond⟩ := List.cons.inj hprinted
  exact ⟨hfirst.symm, (List.cons.inj hsecond).1.symm⟩

/-- The digits of a byte. -/
theorem charAt_digits {i : ℕ} (hi : i < 16) :
    charAt (deviceIdText id) (position i) = Hex.digit ((id.bytes.getD i 0).toNat / 16) ∧
      charAt (deviceIdText id) (position i + 1) = Hex.digit ((id.bytes.getD i 0).toNat % 16) :=
  charAt_of_join id hi (Hex.div_lt _) (Hex.mod_lt _) (Hex.join_div_mod _).symm

/-- The characters that are printed: hyphens in their places, and digits in lower case. -/
theorem charAt_deviceIdText {i : ℕ} (hi : i < 36) (h : i ∉ hyphens) :
    ∃ n < 16, charAt (deviceIdText id) i = Hex.digit n := by
  obtain ⟨j, hj, hplace⟩ := (place_cases i hi).resolve_left h
  obtain ⟨hfirst, hsecond⟩ := charAt_digits id hj
  rcases hplace with rfl | rfl
  · exact ⟨_, Hex.div_lt _, hfirst⟩
  · exact ⟨_, Hex.mod_lt _, hsecond⟩

theorem isUuidText_deviceIdText : IsUuidText (deviceIdText id) where
  length := length_deviceIdText id
  hyphen := charAt_hyphen id
  digit i hi hdigit := by
    obtain ⟨n, hn, hchar⟩ := charAt_deviceIdText id hi hdigit
    rw [hchar]
    exact Hex.isxdigit_digit n hn

theorem byteAtPlace_deviceIdText {i : ℕ} (hi : i < 16) :
    byteAtPlace (deviceIdText id) (position i) = some (id.bytes.getD i 0) := by
  obtain ⟨hfirst, hsecond⟩ := charAt_digits id hi
  rw [byteAtPlace, hfirst, hsecond, hexNibble_digit _ (Hex.div_lt _),
    hexNibble_digit _ (Hex.mod_lt _), if_neg (by omega), Int.toNat_natCast, Int.toNat_natCast,
    Hex.join_div_mod]

/-- **What is printed** is read back. -/
theorem parseUuid_deviceIdText (output : Bytes 16) :
    parseUuid (some (deviceIdText id)) output = (true, id) := by
  have htext := isUuidText_deviceIdText id
  refine Prod.ext ((parseUuid_iff output).2 htext) (Bytes.ext (List.ext_getElem? fun i => ?_))
  by_cases hi : i < 16
  · rw [parseUuid_bytes htext output hi, byteAtPlace_deviceIdText id hi]
    simp [List.getD_eq_getElem?_getD, id.size, hi]
  · rw [List.getElem?_eq_none (by rw [Bytes.size]; omega),
      List.getElem?_eq_none (by rw [Bytes.size]; omega)]

/-- What is printed is valid for the OTA component. -/
theorem uuidValid_deviceIdText : uuidValid (deviceIdText id) = true :=
  uuidValid_iff.2 <| lowercaseUuid_of_charAt (length_deviceIdText id) (charAt_hyphen id)
    fun _ => charAt_deviceIdText id

theorem str_formatDeviceId (output : Bytes 37) : (formatDeviceId id output).str = deviceIdText id := by
  have hnul : 0 ∉ deviceIdText id := by
    intro hmem
    obtain ⟨i, hi⟩ := List.mem_iff_getElem?.1 hmem
    have hvalid := (uuidValid_iff.1 (uuidValid_deviceIdText id)).2 i 0 hi
    revert hvalid
    split <;> decide
  have hlength := Nat.le_of_eq (length_deviceIdText id)
  unfold formatDeviceId
  generalize deviceIdText id = text at hnul hlength
  exact Bytes.str_print hnul hlength

end

/-! ## Reading and printing -/

/-- Two texts of an identifier with the same characters. -/
theorem eq_of_charAt {text text' : List UInt8} (hlength : text.length = 36)
    (hlength' : text'.length = 36) (h : ∀ i < 36, charAt text i = charAt text' i) :
    text = text' := by
  refine List.ext_getElem (hlength.trans hlength'.symm) fun i hi hi' => ?_
  rw [← charAt_eq hi, ← charAt_eq hi', h i (by omega)]

/-- **What is read** is printed in lower case. -/
theorem deviceIdText_parseUuid {text : List UInt8} (h : IsUuidText text) (output : Bytes 16) :
    deviceIdText (parseUuid (some text) output).2 = text.map tolower := by
  have hlower : ∀ i < 36, charAt (text.map tolower) i = tolower (charAt text i) := by
    intro i hi
    have hlt : i < text.length := by
      rw [h.length]
      exact hi
    rw [charAt_eq hlt, charAt_eq (by rwa [List.length_map]), List.getElem_map]
  refine eq_of_charAt (length_deviceIdText _) ((List.length_map _).trans h.length) fun i hi => ?_
  rw [hlower i hi]
  rcases place_cases i hi with hhyphen | ⟨j, hj, hplace⟩
  · rw [charAt_hyphen _ i hhyphen, h.hyphen i hhyphen]
    decide
  · obtain ⟨hlt, hfirst, hsecond⟩ := position_spec j hj
    obtain ⟨hhigh, hhigh'⟩ := digit_hexNibble _ (h.digit (position j) (by omega) hfirst)
    obtain ⟨hlow, hlow'⟩ := digit_hexNibble _ (h.digit (position j + 1) hlt hsecond)
    have hbyte : (parseUuid (some text) output).2.bytes.getD j 0 =
        Hex.join (hexNibble (charAt text (position j))).toNat
          (hexNibble (charAt text (position j + 1))).toNat := by
      have hnonneg := (hexNibble_nonneg_iff _).2 (h.digit (position j) (by omega) hfirst)
      have hnonneg' := (hexNibble_nonneg_iff _).2 (h.digit (position j + 1) hlt hsecond)
      rw [List.getD_eq_getElem?_getD, parseUuid_bytes h output hj, byteAtPlace, if_neg (by omega)]
      rfl
    obtain ⟨hprinted, hprinted'⟩ := charAt_of_join _ hj hhigh hlow hbyte
    rcases hplace with rfl | rfl
    · rw [hprinted, hhigh']
    · rw [hprinted', hlow']

/-- **The codec of device identifiers.** What is printed for an identifier is read back and is valid
for the OTA component; the reader takes exactly the texts of the form, with digits of either case;
and what it reads from one is printed as that text in lower case. -/
theorem device_id_codec :
    (∀ (id output : Bytes 16) (buffer : Bytes 37),
      parseUuid (some (formatDeviceId id buffer).str) output = (true, id) ∧
        uuidValid (formatDeviceId id buffer).str = true) ∧
    (∀ (value : Option (List UInt8)) (output : Bytes 16), (parseUuid value output).1 = true ↔
      ∃ text, value = some text ∧ IsUuidText text) ∧
    ∀ (text : List UInt8) (output id : Bytes 16) (buffer : Bytes 37),
      parseUuid (some text) output = (true, id) →
        (formatDeviceId id buffer).str = text.map tolower := by
  refine ⟨fun id output buffer => ?_, fun value output => ?_, fun text output id buffer h => ?_⟩
  · rw [str_formatDeviceId]
    exact ⟨parseUuid_deviceIdText id output, uuidValid_deviceIdText id⟩
  · cases value with
    | none => exact iff_of_false (by simp [parseUuid]) (by simp)
    | some text =>
      rw [parseUuid_iff]
      constructor
      · exact fun h => ⟨text, rfl, h⟩
      · rintro ⟨_, ⟨⟩, h⟩
        exact h
  · have htext := (parseUuid_iff output).1 (congrArg Prod.fst h)
    have hlower := deviceIdText_parseUuid htext output
    rw [h] at hlower
    rw [str_formatDeviceId, hlower]

/-! ## The text as a name -/

/-- Identifiers with the same text are the same. -/
theorem deviceIdText_injective : Function.Injective deviceIdText := by
  intro id id' heq
  have h := parseUuid_deviceIdText id' id
  rw [← heq, parseUuid_deviceIdText id id] at h
  exact (Prod.mk.inj h).2

/-- No two identifiers derive their keys with one salt. -/
theorem hkdfSalt_deviceIdText_injective :
    Function.Injective fun id => Protocol.hkdfSalt (deviceIdText id) := by
  intro id id' heq
  exact deviceIdText_injective (List.cons.inj (List.append_cancel_left heq)).2

/-- A manifest that a device accepts names the identifier that the device has stored. -/
theorem parseUuid_manifest [Parser] {payload origin : List UInt8} {m : Manifest} {id : Bytes 16}
    (h : AcceptedPayload payload origin (deviceIdText id) m) (output : Bytes 16) :
    parseUuid (some m.deviceId) output = (true, id) := by
  rw [h.deviceId.2]
  exact parseUuid_deviceIdText id output

end PowerMonitor.Telemetry
