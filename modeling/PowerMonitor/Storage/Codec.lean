import PowerMonitor.Esp
import PowerMonitor.Storage.Journal

/-!
# The codec of the journal

`pm_journal.c`: a segment of the journal starts with a header of 96 bytes, and every record after it
has 128. Both are written field by field at fixed offsets into a cleared buffer, and end in a CRC32.

* `decode_encode_record`: a record that was written is read back with every field, except that the
  selected energy is cut off at 32 bits and the diagnostic energy is not stored. It is accepted if
  its sequence is not zero and its completeness at most one thousand.
* `encode_decode_record`: a well-formed block is what the encoder writes for the record that is read
  from it. Between the well-formed blocks and the records that fit, each codec undoes the other.
* `decode_encode_header` and `encode_decode_header`: the same for a header, whose padding the
  decoder does not look at.
-/

namespace PowerMonitor.Storage

open CMemory Config Fields

/-! ## Records -/

/-- `PM_JOURNAL_FORMAT_VERSION`. -/
def journalFormatVersion : ℕ := 1

/-- `PM_JOURNAL_RECORD_SIZE`. -/
def journalRecordSize : ℕ := 128

/-- What `pm_journal_encode_record` stores of the selected energy. -/
def storedEnergy (mwh : ℕ) : ℕ := if mwh > uint32Max then uint32Max else mwh

/-- The writes of `pm_journal_encode_record` before the checksum. -/
def recordWrites (r : JournalRecord) : List (ℕ × List UInt8) :=
  [(0, le 4 journalRecordMagic), (4, le 2 journalFormatVersion), (6, le 2 journalRecordSize),
    (8, r.deviceId.bytes), (24, le 8 r.sequence), (32, le 4 r.resetGeneration),
    (36, le 4 r.interval.flags), (40, leInt 8 r.interval.startUtcMs),
    (48, leInt 8 r.interval.endUtcMs), (56, leInt 8 r.interval.startMonotonicUs),
    (64, leInt 8 r.interval.endMonotonicUs), (72, le 4 r.interval.sampleCount),
    (76, le 4 r.interval.expectedSamples), (80, le 2 r.interval.completenessPermille),
    (82, le 2 r.interval.selectedEnergySource), (84, leInt 4 r.interval.voltageMv),
    (88, leInt 4 r.interval.currentMa), (92, leInt 4 r.interval.activePowerMw),
    (96, leInt 4 r.interval.frequencyMhz), (100, leInt 4 r.interval.powerFactorMilli),
    (104, le 8 r.interval.pzemEnergyStartWh), (112, le 8 r.interval.pzemEnergyEndWh),
    (120, le 4 (storedEnergy r.interval.selectedEnergyMwh))]

/-- The buffer of `pm_journal_encode_record` once it is filled. -/
def encodedRecord (r : JournalRecord) : Bytes 128 :=
  let output := store (Bytes.zero 128) (recordWrites r)
  output.memcpy 124 (le 4 (pmCrc32Ieee (output.bytes.take 124)).toNat)

/-- `pm_journal_encode_record`: what it writes, if the buffer has the space. -/
def pmJournalEncodeRecord (r : JournalRecord) (capacity : ℕ) : Option (Bytes 128) :=
  if capacity < journalRecordSize then none else some (encodedRecord r)

/-- The fields of a record before its checksum. -/
def recordFields (r : JournalRecord) : List Field :=
  [(4, journalRecordMagic), (2, journalFormatVersion), (2, journalRecordSize),
    (16, littleEndian r.deviceId.bytes), (8, r.sequence), (4, r.resetGeneration),
    (4, r.interval.flags), (8, leIntValue 8 r.interval.startUtcMs),
    (8, leIntValue 8 r.interval.endUtcMs), (8, leIntValue 8 r.interval.startMonotonicUs),
    (8, leIntValue 8 r.interval.endMonotonicUs), (4, r.interval.sampleCount),
    (4, r.interval.expectedSamples), (2, r.interval.completenessPermille),
    (2, r.interval.selectedEnergySource), (4, leIntValue 4 r.interval.voltageMv),
    (4, leIntValue 4 r.interval.currentMa), (4, leIntValue 4 r.interval.activePowerMw),
    (4, leIntValue 4 r.interval.frequencyMhz), (4, leIntValue 4 r.interval.powerFactorMilli),
    (8, r.interval.pzemEnergyStartWh), (8, r.interval.pzemEnergyEndWh),
    (4, storedEnergy r.interval.selectedEnergyMwh)]

/-- The widths of the fields of a block. -/
def blockWidths : List ℕ :=
  [4, 2, 2, 16, 8, 4, 4, 8, 8, 8, 8, 4, 4, 2, 2, 4, 4, 4, 4, 4, 8, 8, 4, 4]

/-- The members of a record are in the range of their types. -/
structure JournalRecord.Fits (r : JournalRecord) : Prop where
  sequence : r.sequence < 2 ^ 64
  resetGeneration : r.resetGeneration < 2 ^ 32
  flags : r.interval.flags < 2 ^ 32
  startUtcMs : -2 ^ 63 ≤ r.interval.startUtcMs ∧ r.interval.startUtcMs < 2 ^ 63
  endUtcMs : -2 ^ 63 ≤ r.interval.endUtcMs ∧ r.interval.endUtcMs < 2 ^ 63
  startMonotonicUs : -2 ^ 63 ≤ r.interval.startMonotonicUs ∧ r.interval.startMonotonicUs < 2 ^ 63
  endMonotonicUs : -2 ^ 63 ≤ r.interval.endMonotonicUs ∧ r.interval.endMonotonicUs < 2 ^ 63
  sampleCount : r.interval.sampleCount < 2 ^ 32
  expectedSamples : r.interval.expectedSamples < 2 ^ 32
  completenessPermille : r.interval.completenessPermille < 2 ^ 16
  selectedEnergySource : r.interval.selectedEnergySource < 2 ^ 16
  voltageMv : -2 ^ 31 ≤ r.interval.voltageMv ∧ r.interval.voltageMv < 2 ^ 31
  currentMa : -2 ^ 31 ≤ r.interval.currentMa ∧ r.interval.currentMa < 2 ^ 31
  activePowerMw : -2 ^ 31 ≤ r.interval.activePowerMw ∧ r.interval.activePowerMw < 2 ^ 31
  frequencyMhz : -2 ^ 31 ≤ r.interval.frequencyMhz ∧ r.interval.frequencyMhz < 2 ^ 31
  powerFactorMilli : -2 ^ 31 ≤ r.interval.powerFactorMilli ∧ r.interval.powerFactorMilli < 2 ^ 31
  pzemEnergyStartWh : r.interval.pzemEnergyStartWh < 2 ^ 64
  pzemEnergyEndWh : r.interval.pzemEnergyEndWh < 2 ^ 64

/-- What the format keeps of a record. -/
def JournalRecord.stored (r : JournalRecord) : JournalRecord :=
  { r with interval := { r.interval with
      selectedEnergyMwh := storedEnergy r.interval.selectedEnergyMwh
      diagnosticEnergyMwh := 0 } }

theorem length_pack_recordFields (r : JournalRecord) : (pack (recordFields r)).length = 124 := by
  rw [length_pack]
  simp [recordFields]

/-- **The bytes of an encoded record** are its fields and their checksum. -/
theorem bytes_encodedRecord (r : JournalRecord) :
    (encodedRecord r).bytes =
      pack (recordFields r) ++ le 4 (pmCrc32Ieee (pack (recordFields r))).toNat := by
  have hid := r.deviceId.size
  have hfields : (recordWrites r).flatMap Prod.snd = pack (recordFields r) := by
    have hbytes := le_littleEndian r.deviceId.bytes
    rw [hid] at hbytes
    simp [recordWrites, recordFields, pack, leInt_eq, hbytes]
  have hlength := length_pack_recordFields r
  have hconsecutive : Consecutive 0 (recordWrites r) := by
    simp [recordWrites, Consecutive, hid]
  have hbody : (store (Bytes.zero 128) (recordWrites r)).bytes =
      pack (recordFields r) ++ (Bytes.zero 128).bytes.drop 124 := by
    have hstore := bytes_store (Bytes.zero 128) hconsecutive (by rw [hfields, hlength]; decide)
    rwa [hfields, hlength, List.take_zero, List.nil_append] at hstore
  have htaken : (store (Bytes.zero 128) (recordWrites r)).bytes.take 124 = pack (recordFields r) := by
    rw [hbody, List.take_left' hlength]
  unfold encodedRecord
  dsimp only
  rw [bytes_memcpy _ (by rw [length_le]), htaken, length_le, List.drop_of_length_le
    (by rw [Bytes.size]), List.append_nil]

/-- The fields of a block: those before the checksum, and the checksum over them. -/
def checked (fields : List Field) : List Field := fields ++ [(4, (pmCrc32Ieee (pack fields)).toNat)]

theorem pack_checked (fields : List Field) :
    pack (checked fields) = pack fields ++ le 4 (pmCrc32Ieee (pack fields)).toNat := by
  rw [checked, pack_append]
  simp [pack]

section

variable {fields : List Field} {widths : List ℕ} {width : ℕ}

/-- A member of a block, at the offset of its field. -/
theorem number_checked (hwidths : (checked fields).map Prod.fst = widths) (i : ℕ) {value : ℕ} (o : ℕ)
    (hfield : (checked fields)[i]? = some (width, value)) (ho : (widths.take i).sum = o)
    (h : value < 256 ^ width) : number width (pack (checked fields)) o = value := by
  have hread := number_pack (checked fields) [] i hfield
  rw [offset, hwidths, ho, List.append_nil, Nat.mod_eq_of_lt h] at hread
  exact hread

theorem unpackSigned_checked (hwidths : (checked fields).map Prod.fst = widths) (i : ℕ) {value : ℤ}
    (o : ℕ) (hfield : (checked fields)[i]? = some (width, leIntValue width value))
    (ho : (widths.take i).sum = o) (hlow : -(256 ^ width : ℕ) ≤ 2 * value)
    (hhigh : 2 * value < (256 ^ width : ℕ)) :
    unpackSigned width (pack (checked fields)) o = value := by
  rw [unpackSigned, number_checked hwidths i o hfield ho (leIntValue_lt width value)]
  exact ofTwos_leIntValue hlow hhigh

/-- A member of bytes. -/
theorem take_drop_checked (hwidths : (checked fields).map Prod.fst = widths) (i : ℕ) {n : ℕ}
    (bytes : Bytes n) (o : ℕ) (hfield : (checked fields)[i]? = some (n, littleEndian bytes.bytes))
    (ho : (widths.take i).sum = o) (hfits : o + n ≤ (pack (checked fields)).length) :
    ((pack (checked fields)).drop o).take n = bytes.bytes := by
  have hbound := littleEndian_lt bytes.bytes
  have hback := le_littleEndian bytes.bytes
  rw [bytes.size] at hbound hback
  rw [← le_number n _ hfits, ← hback]
  exact congrArg (le n) (number_checked hwidths i o hfield ho hbound)

end

section

variable {r : JournalRecord}

theorem bytes_encodedRecord_eq_pack (r : JournalRecord) :
    (encodedRecord r).bytes = pack (checked (recordFields r)) := by
  rw [bytes_encodedRecord, pack_checked]

theorem widths_record (r : JournalRecord) :
    (checked (recordFields r)).map Prod.fst = blockWidths := rfl

theorem number_encodedRecord (i : ℕ) {width value : ℕ} (o : ℕ)
    (hfield : (checked (recordFields r))[i]? = some (width, value)) (ho : (blockWidths.take i).sum = o)
    (h : value < 256 ^ width) : number width (encodedRecord r).bytes o = value := by
  rw [bytes_encodedRecord_eq_pack]
  exact number_checked (widths_record r) i o hfield ho h

theorem unpackSigned_encodedRecord (i : ℕ) {width : ℕ} {value : ℤ} (o : ℕ)
    (hfield : (checked (recordFields r))[i]? = some (width, leIntValue width value))
    (ho : (blockWidths.take i).sum = o) (hlow : -(256 ^ width : ℕ) ≤ 2 * value)
    (hhigh : 2 * value < (256 ^ width : ℕ)) : unpackSigned width (encodedRecord r).bytes o = value := by
  rw [bytes_encodedRecord_eq_pack]
  exact unpackSigned_checked (widths_record r) i o hfield ho hlow hhigh

theorem wellFormed_encodedRecord (r : JournalRecord) : WellFormed (encodedRecord r).bytes := by
  have hcrc := (pmCrc32Ieee (pack (recordFields r))).toNat_lt
  have hlength := length_pack_recordFields r
  refine ⟨(encodedRecord r).size, ?_, ?_, ?_, ?_⟩
  · have hsum := number_encodedRecord (r := r) 23 124 rfl rfl hcrc
    rw [hsum, bytes_encodedRecord, List.take_left' hlength, ← toBitVec_pmCrc32Ieee]
    rfl
  · exact number_encodedRecord 0 0 rfl rfl (by decide)
  · exact number_encodedRecord 1 4 rfl rfl (by decide)
  · exact number_encodedRecord 2 6 rfl rfl (by decide)

theorem journalRecord_ext {a b : JournalRecord} (hid : a.deviceId = b.deviceId)
    (hsequence : a.sequence = b.sequence) (hreset : a.resetGeneration = b.resetGeneration)
    (hinterval : a.interval = b.interval) : a = b := by
  cases a
  cases b
  cases hid
  cases hsequence
  cases hreset
  cases hinterval
  rfl

/-- The fields of a block that was encoded. -/
theorem readRecord_encodedRecord (h : r.Fits) : readRecord (encodedRecord r).bytes = r.stored := by
  have hsize := (encodedRecord r).size
  have hid : (readRecord (encodedRecord r).bytes).deviceId = r.deviceId := by
    apply Bytes.ext
    rw [bytes_readRecord_deviceId hsize]
    rw [bytes_encodedRecord_eq_pack] at hsize ⊢
    exact take_drop_checked (widths_record r) 3 r.deviceId 8 rfl rfl (by omega)
  have henergy : storedEnergy r.interval.selectedEnergyMwh < 2 ^ 32 := by
    unfold storedEnergy uint32Max
    split <;> omega
  have hinterval : (readRecord (encodedRecord r).bytes).interval = r.stored.interval := by
    simp (disch := omega) only [readRecord, JournalRecord.stored, toNat_getU16, toNat_getU32,
      toNat_getU64, toInt_getU32, toInt_getU64]
    rw [number_encodedRecord 6 36 rfl rfl h.flags,
      unpackSigned_encodedRecord 7 40 rfl rfl (by have := h.startUtcMs; omega)
        (by have := h.startUtcMs; omega),
      unpackSigned_encodedRecord 8 48 rfl rfl (by have := h.endUtcMs; omega)
        (by have := h.endUtcMs; omega),
      unpackSigned_encodedRecord 9 56 rfl rfl (by have := h.startMonotonicUs; omega)
        (by have := h.startMonotonicUs; omega),
      unpackSigned_encodedRecord 10 64 rfl rfl (by have := h.endMonotonicUs; omega)
        (by have := h.endMonotonicUs; omega),
      number_encodedRecord 11 72 rfl rfl h.sampleCount,
      number_encodedRecord 12 76 rfl rfl h.expectedSamples,
      number_encodedRecord 13 80 rfl rfl h.completenessPermille,
      number_encodedRecord 14 82 rfl rfl h.selectedEnergySource,
      unpackSigned_encodedRecord 15 84 rfl rfl (by have := h.voltageMv; omega)
        (by have := h.voltageMv; omega),
      unpackSigned_encodedRecord 16 88 rfl rfl (by have := h.currentMa; omega)
        (by have := h.currentMa; omega),
      unpackSigned_encodedRecord 17 92 rfl rfl (by have := h.activePowerMw; omega)
        (by have := h.activePowerMw; omega),
      unpackSigned_encodedRecord 18 96 rfl rfl (by have := h.frequencyMhz; omega)
        (by have := h.frequencyMhz; omega),
      unpackSigned_encodedRecord 19 100 rfl rfl (by have := h.powerFactorMilli; omega)
        (by have := h.powerFactorMilli; omega),
      number_encodedRecord 20 104 rfl rfl h.pzemEnergyStartWh,
      number_encodedRecord 21 112 rfl rfl h.pzemEnergyEndWh,
      number_encodedRecord 22 120 rfl rfl henergy]
  have hsequence : (readRecord (encodedRecord r).bytes).sequence = r.sequence := by
    rw [readRecord, toNat_getU64 (by omega), number_encodedRecord 4 24 rfl rfl h.sequence]
  have hreset : (readRecord (encodedRecord r).bytes).resetGeneration = r.resetGeneration := by
    rw [readRecord, toNat_getU32 (by omega), number_encodedRecord 5 32 rfl rfl h.resetGeneration]
  exact journalRecord_ext hid hsequence hreset hinterval

/-- **A record that was written is read back**, with all that the format keeps of it. -/
theorem decode_encode_record (r : JournalRecord) (h : r.Fits) (record : JournalRecord) :
    pmJournalDecodeRecord (encodedRecord r).bytes record =
      (r.sequence ≠ 0 && r.interval.completenessPermille ≤ 1000, r.stored) := by
  have hstored := readRecord_encodedRecord h
  have hformed := wellFormed_encodedRecord r
  rw [pmJournalDecodeRecord_of_wellFormed hformed, hstored,
    number_encodedRecord 4 24 rfl rfl h.sequence,
    number_encodedRecord 13 80 rfl rfl h.completenessPermille]

end

/-- An interval in which most members are negative or at the end of their range. -/
def edgeRecord : JournalRecord where
  deviceId := Bytes.zero 16
  sequence := 2 ^ 64 - 1
  resetGeneration := 7
  interval := {
    voltageMv := 120000, currentMa := -1, activePowerMw := -2 ^ 31, frequencyMhz := 60000
    powerFactorMilli := -1000, pzemEnergyStartWh := 5, pzemEnergyEndWh := 2 ^ 64 - 1
    selectedEnergyMwh := 2 ^ 32, diagnosticEnergyMwh := 9, sampleCount := 60, expectedSamples := 60
    completenessPermille := 1000, selectedEnergySource := 1, flags := 2 ^ 32 - 1
    startUtcMs := -1, endUtcMs := 2 ^ 63 - 1, startMonotonicUs := 0, endMonotonicUs := 60000000 }

/-- Its selected energy is cut off, and its diagnostic energy is lost. -/
theorem decode_encode_edgeRecord : pmJournalDecodeRecord (encodedRecord edgeRecord).bytes edgeRecord =
    (edgeRecord.sequence ≠ 0 && edgeRecord.interval.completenessPermille ≤ 1000,
      edgeRecord.stored) :=
  decode_encode_record edgeRecord (by constructor <;> decide) edgeRecord

/-- The fields of a well-formed block are those of the record that is read from it. -/
theorem recordFields_readRecord {block : List UInt8} (h : WellFormed block) :
    recordFields (readRecord block) = readFields block 0 (blockWidths.take 23) := by
  have hsize := h.size
  have hsigned : ∀ (n : ℕ) {o : ℕ}, o + n ≤ block.length →
      leIntValue n (unpackSigned n block o) = number n block o := fun n o ho =>
    leIntValue_ofTwos (number_lt ho)
  have hid : littleEndian (readRecord block).deviceId.bytes = number 16 block 8 := by
    rw [bytes_readRecord_deviceId hsize]
    rfl
  have henergy : storedEnergy (number 4 block 120) = number 4 block 120 := by
    have hlt : number 4 block 120 < 256 ^ 4 := number_lt (by omega)
    unfold storedEnergy uint32Max
    rw [if_neg (by omega)]
  rw [recordFields, hid, ← h.magic, journalFormatVersion, journalRecordSize, ← h.version]
  simp (disch := omega) only [readRecord, toNat_getU16, toNat_getU32, toNat_getU64, toInt_getU32,
    toInt_getU64, hsigned, henergy]
  rw [← h.length]
  rfl

/-- **A well-formed block is what is written** for the record that is read from it. -/
theorem encode_decode_record (block : List UInt8) (h : WellFormed block) :
    (encodedRecord (readRecord block)).bytes = block := by
  have hsize := h.size
  have hbody : pack (recordFields (readRecord block)) = block.take 124 := by
    rw [recordFields_readRecord h]
    exact pack_readFields block 0 (blockWidths.take 23) (by rw [hsize]; decide)
  have hcrc : le 4 (pmCrc32Ieee (block.take 124)).toNat = block.drop 124 := by
    have hword := le_number 4 block (by omega : 124 + 4 ≤ block.length)
    have hsum : (pmCrc32Ieee (block.take 124)).toNat = number 4 block 124 := by
      rw [← UInt32.toNat_toBitVec, toBitVec_pmCrc32Ieee]
      exact h.checksum.symm
    rw [hsum, hword]
    apply List.take_of_length_le
    rw [List.length_drop, hsize]
  rw [bytes_encodedRecord, hbody, hcrc, List.take_append_drop]

theorem encode_decode_trustedBlock :
    (encodedRecord (readRecord trustedBlock.bytes)).bytes = trustedBlock.bytes :=
  encode_decode_record trustedBlock.bytes
    ⟨trustedBlock.size, by decide +kernel, by decide, by decide, by decide⟩

/-! ## Segment headers -/

/-- `PM_JOURNAL_SEGMENT_MAGIC`. -/
def journalSegmentMagic : ℕ := 0x504D5347

/-- `PM_JOURNAL_SEGMENT_HEADER_SIZE`. -/
def journalSegmentHeaderSize : ℕ := 96

/-- `pm_segment_header_t`. -/
structure SegmentHeader where
  deviceId : Bytes 16
  cardId : Bytes 16
  segmentId : Bytes 16
  firstSequence : ℕ
  createdUtcMs : ℤ
  createdMonotonicUs : ℤ
  timeTrusted : Bool
  deriving DecidableEq

/-- The writes of `pm_journal_encode_segment_header` before the checksum. -/
def headerWrites (h : SegmentHeader) : List (ℕ × List UInt8) :=
  [(0, le 4 journalSegmentMagic), (4, le 2 journalFormatVersion), (6, le 2 journalSegmentHeaderSize),
    (8, h.deviceId.bytes), (24, h.cardId.bytes), (40, h.segmentId.bytes), (56, le 8 h.firstSequence),
    (64, leInt 8 h.createdUtcMs), (72, leInt 8 h.createdMonotonicUs), (80, leBool h.timeTrusted)]

/-- The buffer of `pm_journal_encode_segment_header` once it is filled. -/
def encodedHeader (h : SegmentHeader) : Bytes 96 :=
  let output := store (Bytes.zero 96) (headerWrites h)
  output.memcpy 92 (le 4 (pmCrc32Ieee (output.bytes.take 92)).toNat)

/-- `pm_journal_encode_segment_header`: what it writes, if the buffer has the space. -/
def pmJournalEncodeSegmentHeader (h : SegmentHeader) (capacity : ℕ) : Option (Bytes 96) :=
  if capacity < journalSegmentHeaderSize then none else some (encodedHeader h)

/-- The fields that `pm_journal_decode_segment_header` reads. -/
def readHeader (data : List UInt8) : SegmentHeader where
  deviceId := (Bytes.zero 16).memcpy 0 ((data.drop 8).take 16)
  cardId := (Bytes.zero 16).memcpy 0 ((data.drop 24).take 16)
  segmentId := (Bytes.zero 16).memcpy 0 ((data.drop 40).take 16)
  firstSequence := (getU64 data 56).toNat
  createdUtcMs := (getU64 data 64).toInt
  createdMonotonicUs := (getU64 data 72).toInt
  timeTrusted := data.getD 80 0 ≠ 0

/-- `pm_journal_decode_segment_header`: whether the header is accepted, and what is left in
`header`. -/
def pmJournalDecodeSegmentHeader (data : List UInt8) (header : SegmentHeader) : Bool × SegmentHeader :=
  if data.length ≠ 96 ∨ (getU32 data 0).toNat ≠ journalSegmentMagic ∨
      (getU16 data 4).toNat ≠ journalFormatVersion ∨
      (getU16 data 6).toNat ≠ journalSegmentHeaderSize ∨
      getU32 data 92 ≠ (pmCrc32Ieee (data.take 92)).toBitVec then
    (false, header)
  else (true, readHeader data)

/-- The fields of a header before its checksum, with the padding. -/
def headerFields (h : SegmentHeader) : List Field :=
  [(4, journalSegmentMagic), (2, journalFormatVersion), (2, journalSegmentHeaderSize),
    (16, littleEndian h.deviceId.bytes), (16, littleEndian h.cardId.bytes),
    (16, littleEndian h.segmentId.bytes), (8, h.firstSequence), (8, leIntValue 8 h.createdUtcMs),
    (8, leIntValue 8 h.createdMonotonicUs), (1, h.timeTrusted.toNat), (11, 0)]

/-- The widths of the fields of a header. -/
def headerWidths : List ℕ := [4, 2, 2, 16, 16, 16, 8, 8, 8, 1, 11, 4]

/-- The members of a header are in the range of their types. -/
structure SegmentHeader.Fits (h : SegmentHeader) : Prop where
  firstSequence : h.firstSequence < 2 ^ 64
  createdUtcMs : -2 ^ 63 ≤ h.createdUtcMs ∧ h.createdUtcMs < 2 ^ 63
  createdMonotonicUs : -2 ^ 63 ≤ h.createdMonotonicUs ∧ h.createdMonotonicUs < 2 ^ 63

section

variable {h : SegmentHeader}

theorem length_pack_headerFields (h : SegmentHeader) : (pack (headerFields h)).length = 92 := by
  rw [length_pack]
  simp [headerFields]

/-- **The bytes of an encoded header** are its fields, with cleared padding, and their checksum. -/
theorem bytes_encodedHeader (h : SegmentHeader) :
    (encodedHeader h).bytes = pack (checked (headerFields h)) := by
  have hfields : (headerWrites h).flatMap Prod.snd ++ List.replicate 11 0 = pack (headerFields h) := by
    have hdevice := le_littleEndian h.deviceId.bytes
    have hcard := le_littleEndian h.cardId.bytes
    have hsegment := le_littleEndian h.segmentId.bytes
    rw [Bytes.size] at hdevice hcard hsegment
    have htrusted : le 1 h.timeTrusted.toNat = leBool h.timeTrusted := by cases h.timeTrusted <;> rfl
    have hpadding : le 11 0 = List.replicate 11 0 := by decide
    simp [headerWrites, headerFields, pack, leInt_eq, hdevice, hcard, hsegment, htrusted, hpadding]
  have hlength : ((headerWrites h).flatMap Prod.snd).length = 81 := by
    have hpacked := length_pack_headerFields h
    rw [← hfields, List.length_append, List.length_replicate] at hpacked
    omega
  have hconsecutive : Consecutive 0 (headerWrites h) := by
    simp [headerWrites, Consecutive, Bytes.size]
  have hbody : (store (Bytes.zero 96) (headerWrites h)).bytes =
      pack (headerFields h) ++ List.replicate 4 0 := by
    have hstore := bytes_store (Bytes.zero 96) hconsecutive (by rw [hlength]; decide)
    rw [hlength, List.take_zero, List.nil_append] at hstore
    rw [hstore, ← hfields, List.append_assoc]
    rfl
  have htaken : (store (Bytes.zero 96) (headerWrites h)).bytes.take 92 = pack (headerFields h) := by
    rw [hbody, List.take_left' (length_pack_headerFields h)]
  unfold encodedHeader
  dsimp only
  rw [bytes_memcpy _ (by rw [length_le]), htaken, length_le, List.drop_of_length_le
    (by rw [Bytes.size]), List.append_nil, pack_checked]

theorem widths_header (h : SegmentHeader) :
    (checked (headerFields h)).map Prod.fst = headerWidths := rfl

theorem segmentHeader_ext {a b : SegmentHeader} (hdevice : a.deviceId = b.deviceId)
    (hcard : a.cardId = b.cardId) (hsegment : a.segmentId = b.segmentId)
    (hfirst : a.firstSequence = b.firstSequence) (hutc : a.createdUtcMs = b.createdUtcMs)
    (hmonotonic : a.createdMonotonicUs = b.createdMonotonicUs)
    (htrusted : a.timeTrusted = b.timeTrusted) : a = b := by
  cases a
  cases b
  cases hdevice
  cases hcard
  cases hsegment
  cases hfirst
  cases hutc
  cases hmonotonic
  cases htrusted
  rfl

/-- An identity that is copied out of a header. -/
theorem bytes_copied {data : List UInt8} {o : ℕ} (h : o + 16 ≤ data.length) :
    ((Bytes.zero 16).memcpy 0 ((data.drop o).take 16)).bytes = (data.drop o).take 16 := by
  have hlength : ((data.drop o).take 16).length = 16 := by
    rw [List.length_take, List.length_drop]
    omega
  have hnothing : (Bytes.zero 16).bytes.drop (0 + 16) = [] := rfl
  rw [bytes_memcpy _ (by rw [hlength]), hlength, List.take_zero, List.nil_append, hnothing,
    List.append_nil]

theorem number_one {data : List UInt8} {o : ℕ} (h : o < data.length) :
    number 1 data o = (data.getD o 0).toNat := by
  rw [number, List.take_one, List.head?_drop, List.getElem?_eq_getElem h, List.getD_eq_getElem?_getD,
    List.getElem?_eq_getElem h]
  simp [littleEndian]

/-- **A header that was written is read back.** -/
theorem decode_encode_header (h : SegmentHeader) (hfits : h.Fits) (header : SegmentHeader) :
    pmJournalDecodeSegmentHeader (encodedHeader h).bytes header = (true, h) := by
  have hsize := (encodedHeader h).size
  have hbytes := bytes_encodedHeader h
  have hw := widths_header h
  have hcrc := (pmCrc32Ieee (pack (headerFields h))).toNat_lt
  have hmagic : number 4 (encodedHeader h).bytes 0 = journalSegmentMagic := by
    rw [hbytes]
    exact number_checked hw 0 0 rfl rfl (by decide)
  have hversion : number 2 (encodedHeader h).bytes 4 = journalFormatVersion := by
    rw [hbytes]
    exact number_checked hw 1 4 rfl rfl (by decide)
  have hlength : number 2 (encodedHeader h).bytes 6 = journalSegmentHeaderSize := by
    rw [hbytes]
    exact number_checked hw 2 6 rfl rfl (by decide)
  have hsum : getU32 (encodedHeader h).bytes 92 =
      (pmCrc32Ieee ((encodedHeader h).bytes.take 92)).toBitVec := by
    apply BitVec.eq_of_toNat_eq
    rw [toNat_getU32 (by omega), hbytes, number_checked hw 11 92 rfl rfl hcrc, pack_checked,
      List.take_left' (length_pack_headerFields h), UInt32.toNat_toBitVec]
  have hread : readHeader (encodedHeader h).bytes = h := by
    have hidentity : ∀ (i : ℕ) (id : Bytes 16) (o : ℕ),
        (checked (headerFields h))[i]? = some (16, littleEndian id.bytes) →
        (headerWidths.take i).sum = o → o + 16 ≤ 96 →
        (Bytes.zero 16).memcpy 0 (((encodedHeader h).bytes.drop o).take 16) = id := by
      intro i id o hfield ho hle
      apply Bytes.ext
      rw [bytes_copied (by omega)]
      rw [hbytes] at hsize ⊢
      exact take_drop_checked hw i id o hfield ho (by omega)
    apply segmentHeader_ext
    · exact hidentity 3 h.deviceId 8 rfl rfl (by omega)
    · exact hidentity 4 h.cardId 24 rfl rfl (by omega)
    · exact hidentity 5 h.segmentId 40 rfl rfl (by omega)
    · rw [readHeader, toNat_getU64 (by omega), hbytes]
      exact number_checked hw 6 56 rfl rfl hfits.firstSequence
    · have := hfits.createdUtcMs
      simp only [readHeader]
      rw [toInt_getU64 (by omega), hbytes]
      exact unpackSigned_checked hw 7 64 rfl rfl (by omega) (by omega)
    · have := hfits.createdMonotonicUs
      simp only [readHeader]
      rw [toInt_getU64 (by omega), hbytes]
      exact unpackSigned_checked hw 8 72 rfl rfl (by omega) (by omega)
    · have htrusted : number 1 (encodedHeader h).bytes 80 = h.timeTrusted.toNat := by
        rw [hbytes]
        exact number_checked hw 9 80 rfl rfl (by cases h.timeTrusted <;> decide)
      have hbyte := (number_one (o := 80) (by omega : 80 < (encodedHeader h).bytes.length)).symm.trans
        htrusted
      rw [readHeader]
      cases hb : h.timeTrusted <;> rw [hb] at hbyte
      · have : (encodedHeader h).bytes.getD 80 0 = 0 := UInt8.toNat_inj.1 hbyte
        rw [this]
        rfl
      · have : (encodedHeader h).bytes.getD 80 0 = 1 := UInt8.toNat_inj.1 hbyte
        rw [this]
        rfl
  unfold pmJournalDecodeSegmentHeader
  rw [toNat_getU32 (by omega), toNat_getU16 (by omega), toNat_getU16 (by omega), hmagic, hversion,
    hlength, hsum, hread]
  simp [hsize]

/-- The header of the first segment of a card. -/
def firstHeader : SegmentHeader where
  deviceId := Bytes.zero 16
  cardId := Bytes.zero 16
  segmentId := Bytes.zero 16
  firstSequence := 1
  createdUtcMs := 0
  createdMonotonicUs := 5000000
  timeTrusted := false

/-- The fields of a header before its flag, as they are read. -/
theorem headerFields_readHeader {data : List UInt8} (hsize : data.length = 96)
    (hmagic : number 4 data 0 = journalSegmentMagic) (hversion : number 2 data 4 = journalFormatVersion)
    (hlength : number 2 data 6 = journalSegmentHeaderSize) :
    headerFields (readHeader data) = readFields data 0 (headerWidths.take 9) ++
      [(1, (decide (data.getD 80 0 ≠ 0)).toNat), (11, 0)] := by
  have hsigned : ∀ {o : ℕ}, o + 8 ≤ data.length →
      leIntValue 8 (unpackSigned 8 data o) = number 8 data o := fun ho =>
    leIntValue_ofTwos (number_lt ho)
  have hidentity : ∀ o, o + 16 ≤ data.length →
      littleEndian ((Bytes.zero 16).memcpy 0 ((data.drop o).take 16)).bytes = number 16 data o := by
    intro o ho
    rw [bytes_copied ho]
    rfl
  simp only [headerFields, readHeader]
  rw [← hmagic, ← hversion, hidentity 8 (by omega), hidentity 24 (by omega), hidentity 40 (by omega),
    toNat_getU64 (by omega), toInt_getU64 (by omega), toInt_getU64 (by omega), hsigned (by omega),
    hsigned (by omega), ← hlength]
  rfl

/-- **An accepted header is what is written** for the header that is read from it, exactly if its
flag is a truth value and its padding is clear. -/
theorem encode_decode_header (data : List UInt8) (header header' : SegmentHeader)
    (haccepted : pmJournalDecodeSegmentHeader data header = (true, header')) :
    (encodedHeader header').bytes = data ↔
      (data.getD 80 0).toNat ≤ 1 ∧ (data.drop 81).take 11 = List.replicate 11 0 := by
  unfold pmJournalDecodeSegmentHeader at haccepted
  split at haccepted
  next => cases (Prod.mk.inj haccepted).1
  next hformed =>
    obtain rfl := (Prod.mk.inj haccepted).2
    simp only [not_or, not_not] at hformed
    obtain ⟨hsize, hmagic, hversion, hlength, hcrc⟩ := hformed
    rw [toNat_getU32 (by omega)] at hmagic
    rw [toNat_getU16 (by omega)] at hversion hlength
    have hbody : pack (headerFields (readHeader data)) = data.take 80 ++
        (leBool (data.getD 80 0 ≠ 0) ++ List.replicate 11 0) := by
      have hread := pack_readFields data 0 (headerWidths.take 9) (by rw [hsize]; decide)
      have htail : ∀ b : Bool, pack [(1, b.toNat), (11, 0)] = leBool b ++ List.replicate 11 0 := by
        decide
      rw [headerFields_readHeader hsize hmagic hversion hlength, pack_append, hread, htail]
      rfl
    have hdata : data.take 92 = data.take 80 ++ ([data.getD 80 0] ++ (data.drop 81).take 11) := by
      have hhead : (data.drop 80).take 1 = [data.getD 80 0] := by
        rw [List.take_one, List.head?_drop, List.getElem?_eq_getElem (by omega),
          List.getD_eq_getElem?_getD, List.getElem?_eq_getElem (by omega)]
        rfl
      rw [← hhead, ← List.append_assoc, ← List.take_add]
      exact List.take_add (i := 81) (j := 11)
    -- the checksum agrees as soon as the fields do
    have hiff : (encodedHeader (readHeader data)).bytes = data ↔
        pack (headerFields (readHeader data)) = data.take 92 := by
      rw [bytes_encodedHeader, pack_checked]
      constructor
      · intro heq
        have htaken := congrArg (List.take 92) heq
        rwa [List.take_left' (length_pack_headerFields _)] at htaken
      · intro heq
        have hword := le_number 4 data (by omega : 92 + 4 ≤ data.length)
        have hsum : (pmCrc32Ieee (data.take 92)).toNat = number 4 data 92 := by
          rw [← UInt32.toNat_toBitVec, ← hcrc]
          exact toNat_getU32 (by omega)
        have hlast : ((data.drop 92).take 4) = data.drop 92 := by
          apply List.take_of_length_le
          rw [List.length_drop, hsize]
        rw [heq, hsum, hword, hlast, List.take_append_drop]
    have hflag : leBool (data.getD 80 0 ≠ 0) = [data.getD 80 0] ↔ (data.getD 80 0).toNat ≤ 1 := by
      have hall : ∀ b : UInt8, leBool (b ≠ 0) = [b] ↔ b.toNat ≤ 1 := by
        intro b
        have hcases : b.toNat ≤ 1 ↔ b = 0 ∨ b = 1 := by
          rw [← UInt8.toNat_inj, ← UInt8.toNat_inj (b := 1)]
          change b.toNat ≤ 1 ↔ b.toNat = 0 ∨ b.toNat = 1
          omega
        rw [hcases]
        by_cases h0 : b = 0
        · simp [leBool, h0]
        · simp [leBool, h0, eq_comm]
      exact hall _
    rw [hiff, hbody, hdata, List.append_cancel_left_eq, ← hflag]
    constructor
    · intro heq
      exact List.append_inj heq rfl |>.imp_right Eq.symm
    · rintro ⟨heq, hpadding⟩
      rw [heq, hpadding]

/-- The header of the first segment, with a byte of its padding set. -/
def paddedHeader : List UInt8 :=
  let body := ((encodedHeader firstHeader).bytes.take 92).set 85 7
  body ++ le 4 (pmCrc32Ieee body).toNat

theorem encode_decode_paddedHeader : (encodedHeader firstHeader).bytes = paddedHeader ↔
    (paddedHeader.getD 80 0).toNat ≤ 1 ∧ (paddedHeader.drop 81).take 11 = List.replicate 11 0 :=
  encode_decode_header paddedHeader firstHeader firstHeader (by decide +kernel)

end

end PowerMonitor.Storage
