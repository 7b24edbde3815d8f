import PowerMonitor.Config.Crc32
import PowerMonitor.Foundations.CJson
import PowerMonitor.Foundations.Fields
import PowerMonitor.Foundations.Hex

/-!
# Records of the journal

The journal of the retired storage format has two decoders: `pm_journal_decode_record` in the
firmware's `pm_journal.c`, and `decode_record` in `tools/decode_journal.py` for the forensic review
of a card.

* `toNat_getUint`: the integers that the firmware assembles from bytes are those that Python
  unpacks.
* `decode_iff`: the firmware accepts a record that Python decodes if its sequence and completeness
  are in range, and the fields are the same.
* Python takes the flag for untrusted time as one for trusted time, so the decoders agree on no
  record: `decoders_agree_iff`.
-/

namespace PowerMonitor.Storage

open CMemory Config Fields

/-! ## The firmware's decoder -/

/-- An integer of `n` bytes, or-ed together from the first one up. -/
def getUint (n : ℕ) (data : List UInt8) (offset : ℕ) : BitVec (8 * n) :=
  (List.range n).foldl (fun value i =>
    value ||| (data.getD (offset + i) 0).toBitVec.setWidth (8 * n) <<< (8 * i)) 0#(8 * n)

/-- `get_u16`. -/
def getU16 (data : List UInt8) (offset : ℕ) : BitVec 16 := getUint 2 data offset

/-- `get_u32`. -/
def getU32 (data : List UInt8) (offset : ℕ) : BitVec 32 := getUint 4 data offset

/-- `get_u64`. -/
def getU64 (data : List UInt8) (offset : ℕ) : BitVec 64 := getUint 8 data offset

/-- `PM_JOURNAL_RECORD_MAGIC`. -/
def journalRecordMagic : ℕ := 0x504D5244

/-- `PM_INTERVAL_FLAG_TIME_UNTRUSTED`. -/
def intervalFlagTimeUntrusted : ℕ := 1

/-- `pm_durable_interval_t`. -/
structure DurableInterval where
  voltageMv : ℤ
  currentMa : ℤ
  activePowerMw : ℤ
  frequencyMhz : ℤ
  powerFactorMilli : ℤ
  pzemEnergyStartWh : ℕ
  pzemEnergyEndWh : ℕ
  selectedEnergyMwh : ℕ
  diagnosticEnergyMwh : ℕ
  sampleCount : ℕ
  expectedSamples : ℕ
  completenessPermille : ℕ
  selectedEnergySource : ℕ
  flags : ℕ
  startUtcMs : ℤ
  endUtcMs : ℤ
  startMonotonicUs : ℤ
  endMonotonicUs : ℤ
  deriving DecidableEq

/-- `pm_journal_record_t`. -/
structure JournalRecord where
  deviceId : Bytes 16
  sequence : ℕ
  resetGeneration : ℕ
  interval : DurableInterval
  deriving DecidableEq

/-- The fields that `pm_journal_decode_record` reads. -/
def readRecord (data : List UInt8) : JournalRecord where
  deviceId := (Bytes.zero 16).memcpy 0 ((data.drop 8).take 16)
  sequence := (getU64 data 24).toNat
  resetGeneration := (getU32 data 32).toNat
  interval := {
    flags := (getU32 data 36).toNat
    startUtcMs := (getU64 data 40).toInt
    endUtcMs := (getU64 data 48).toInt
    startMonotonicUs := (getU64 data 56).toInt
    endMonotonicUs := (getU64 data 64).toInt
    sampleCount := (getU32 data 72).toNat
    expectedSamples := (getU32 data 76).toNat
    completenessPermille := (getU16 data 80).toNat
    selectedEnergySource := (getU16 data 82).toNat
    voltageMv := (getU32 data 84).toInt
    currentMa := (getU32 data 88).toInt
    activePowerMw := (getU32 data 92).toInt
    frequencyMhz := (getU32 data 96).toInt
    powerFactorMilli := (getU32 data 100).toInt
    pzemEnergyStartWh := (getU64 data 104).toNat
    pzemEnergyEndWh := (getU64 data 112).toNat
    selectedEnergyMwh := (getU32 data 120).toNat
    diagnosticEnergyMwh := 0 }

/-- `pm_journal_decode_record`: whether the record is accepted, and what is left in `record`. -/
def pmJournalDecodeRecord (data : List UInt8) (record : JournalRecord) : Bool × JournalRecord :=
  if data.length ≠ 128 ∨ (getU32 data 0).toNat ≠ journalRecordMagic ∨ (getU16 data 4).toNat ≠ 1 ∨
      (getU16 data 6).toNat ≠ 128 ∨ getU32 data 124 ≠ (pmCrc32Ieee (data.take 124)).toBitVec then
    (false, record)
  else
    let record := readRecord data
    (record.sequence ≠ 0 && record.interval.completenessPermille ≤ 1000, record)

/-! ## The decoder of the tools -/

/-- `struct.unpack_from` of a signed integer of `n` bytes; of an unsigned one it is `number`. -/
def unpackSigned (n : ℕ) (data : List UInt8) (offset : ℕ) : ℤ :=
  if 2 * number n data offset < 256 ^ n then number n data offset
  else number n data offset - (256 ^ n : ℕ)

/-- `str(uuid.UUID(bytes=...))`. -/
def uuidText (bytes : List UInt8) : List UInt8 :=
  let hex := bytes.flatMap Hex.printByte
  hex.take 8 ++ 0x2d :: ((hex.drop 8).take 4 ++ 0x2d :: ((hex.drop 12).take 4 ++ 0x2d ::
    ((hex.drop 16).take 4 ++ 0x2d :: hex.drop 20)))

/-- The dictionary of `decode_record`. -/
structure DecodedRecord where
  sequence : ℕ
  resetGeneration : ℕ
  flags : ℕ
  startUtcMs : ℤ
  endUtcMs : ℤ
  startMonotonicUs : ℤ
  endMonotonicUs : ℤ
  sampleCount : ℕ
  expectedSamples : ℕ
  completenessPermille : ℕ
  selectedEnergySource : ℕ
  voltageMv : ℤ
  currentMa : ℤ
  activePowerMw : ℤ
  frequencyMhz : ℤ
  powerFactorMilli : ℤ
  pzemEnergyStartWh : ℕ
  pzemEnergyEndWh : ℕ
  selectedEnergyMwh : ℕ
  deviceId : List UInt8
  timeTrusted : Bool
  deriving DecidableEq

/-- `crc_valid`. -/
def crcValid (block : List UInt8) : Bool :=
  4 ≤ block.length && (Crc.ieee (block.take (block.length - 4))).toNat &&& 0xFFFFFFFF =
    number 4 block (block.length - 4)

/-- `decode_record`, with the message of its `ValueError`. -/
def decodeRecord (data : List UInt8) : Except String DecodedRecord :=
  if data.length ≠ 128 ∨ !crcValid data then .error "invalid record length or CRC"
  else if (number 4 data 0, number 2 data 4, number 2 data 6) ≠ (journalRecordMagic, 1, 128) then
    .error "unsupported record"
  else
    let flags := number 4 data 36
    .ok {
      sequence := number 8 data 24
      resetGeneration := number 4 data 32
      flags := flags
      startUtcMs := unpackSigned 8 data 40
      endUtcMs := unpackSigned 8 data 48
      startMonotonicUs := unpackSigned 8 data 56
      endMonotonicUs := unpackSigned 8 data 64
      sampleCount := number 4 data 72
      expectedSamples := number 4 data 76
      completenessPermille := number 2 data 80
      selectedEnergySource := number 2 data 82
      voltageMv := unpackSigned 4 data 84
      currentMa := unpackSigned 4 data 88
      activePowerMw := unpackSigned 4 data 92
      frequencyMhz := unpackSigned 4 data 96
      powerFactorMilli := unpackSigned 4 data 100
      pzemEnergyStartWh := number 8 data 104
      pzemEnergyEndWh := number 8 data 112
      selectedEnergyMwh := number 4 data 120
      deviceId := uuidText ((data.drop 8).take 16)
      timeTrusted := flags &&& 1 ≠ 0 }

/-! ## What they have in common -/

/-- The fields of the firmware's record, as a dictionary. -/
def JournalRecord.dictionary (r : JournalRecord) (timeTrusted : Bool) : DecodedRecord where
  sequence := r.sequence
  resetGeneration := r.resetGeneration
  flags := r.interval.flags
  startUtcMs := r.interval.startUtcMs
  endUtcMs := r.interval.endUtcMs
  startMonotonicUs := r.interval.startMonotonicUs
  endMonotonicUs := r.interval.endMonotonicUs
  sampleCount := r.interval.sampleCount
  expectedSamples := r.interval.expectedSamples
  completenessPermille := r.interval.completenessPermille
  selectedEnergySource := r.interval.selectedEnergySource
  voltageMv := r.interval.voltageMv
  currentMa := r.interval.currentMa
  activePowerMw := r.interval.activePowerMw
  frequencyMhz := r.interval.frequencyMhz
  powerFactorMilli := r.interval.powerFactorMilli
  pzemEnergyStartWh := r.interval.pzemEnergyStartWh
  pzemEnergyEndWh := r.interval.pzemEnergyEndWh
  selectedEnergyMwh := r.interval.selectedEnergyMwh
  deviceId := uuidText r.deviceId.bytes
  timeTrusted := timeTrusted

/-- The decoders agree on a block: they accept the same, give the same fields, and the time is
trusted exactly if the flag for untrusted time is clear. -/
def DecodersAgree (block : List UInt8) (record : JournalRecord) : Prop :=
  ((∃ d, decodeRecord block = .ok d) ↔ (pmJournalDecodeRecord block record).1 = true) ∧
    ∀ d, decodeRecord block = .ok d →
      d = (pmJournalDecodeRecord block record).2.dictionary d.timeTrusted ∧
      (d.timeTrusted = true ↔ d.flags &&& intervalFlagTimeUntrusted = 0)

/-- A block of the length, checksum, magic number and version of a record. -/
structure WellFormed (block : List UInt8) : Prop where
  size : block.length = 128
  checksum : number 4 block 124 = (Crc.ieee (block.take 124)).toNat
  magic : number 4 block 0 = journalRecordMagic
  version : number 2 block 4 = 1
  length : number 2 block 6 = 128

section

variable {data : List UInt8}

/-- **The integers of the firmware** are those that are unpacked. -/
theorem toNat_getUint (n : ℕ) {offset : ℕ} (h : offset + n ≤ data.length) :
    (getUint n data offset).toNat = number n data offset := by
  have hstep : ∀ k ≤ n, ((List.range k).foldl (fun value i => value |||
      (data.getD (offset + i) 0).toBitVec.setWidth (8 * n) <<< (8 * i)) 0#(8 * n)).toNat =
        littleEndian ((data.drop offset).take k) := by
    intro k hk
    induction k with
    | zero => simp [littleEndian]
    | succ k ih =>
      have hlength : ((data.drop offset).take k).length = k := by
        rw [List.length_take, List.length_drop]
        omega
      have hbound := littleEndian_lt ((data.drop offset).take k)
      have hbyte := (data.getD (offset + k) 0).toNat_lt
      have hpow : (256 : ℕ) ^ k = 2 ^ (8 * k) := by rw [Nat.pow_mul]
      have hfits : (data.getD (offset + k) 0).toNat * 2 ^ (8 * k) < 2 ^ (8 * n) := by
        calc (data.getD (offset + k) 0).toNat * 2 ^ (8 * k)
            < 2 ^ 8 * 2 ^ (8 * k) := Nat.mul_lt_mul_of_pos_right hbyte (Nat.two_pow_pos _)
          _ = 2 ^ (8 * (k + 1)) := by rw [← Nat.pow_add, Nat.mul_succ, Nat.add_comm]
          _ ≤ 2 ^ (8 * n) := Nat.pow_le_pow_right (by decide) (by omega)
      have hnext : (data.drop offset).take (k + 1) =
          (data.drop offset).take k ++ [data.getD (offset + k) 0] := by
        rw [List.take_add_one, List.getElem?_drop, List.getD_eq_getElem?_getD,
          List.getElem?_eq_getElem (by omega)]
        rfl
      rw [hlength, hpow] at hbound
      rw [List.range_succ, List.foldl_append, List.foldl_cons, List.foldl_nil, BitVec.toNat_or,
        ih (by omega), BitVec.toNat_shiftLeft, BitVec.toNat_setWidth, UInt8.toNat_toBitVec,
        Nat.mod_eq_of_lt (lt_of_lt_of_le hbyte (Nat.pow_le_pow_right (by decide) (by omega))),
        Nat.shiftLeft_eq, Nat.mod_eq_of_lt hfits, hnext, littleEndian_append, hlength, hpow,
        Nat.or_comm, ← Nat.shiftLeft_eq, ← Nat.shiftLeft_add_eq_or_of_lt hbound, Nat.add_comm]
  exact hstep n le_rfl

theorem toInt_getUint (n : ℕ) {offset : ℕ} (h : offset + n ≤ data.length) :
    (getUint n data offset).toInt = unpackSigned n data offset := by
  have hpow : (2 : ℕ) ^ (8 * n) = 256 ^ n := by rw [Nat.pow_mul]
  rw [BitVec.toInt_eq_toNat_cond, toNat_getUint n h, unpackSigned, hpow]

theorem toNat_getU16 {offset : ℕ} (h : offset + 2 ≤ data.length) :
    (getU16 data offset).toNat = number 2 data offset := toNat_getUint 2 h

theorem toNat_getU32 {offset : ℕ} (h : offset + 4 ≤ data.length) :
    (getU32 data offset).toNat = number 4 data offset := toNat_getUint 4 h

theorem toNat_getU64 {offset : ℕ} (h : offset + 8 ≤ data.length) :
    (getU64 data offset).toNat = number 8 data offset := toNat_getUint 8 h

theorem toInt_getU32 {offset : ℕ} (h : offset + 4 ≤ data.length) :
    (getU32 data offset).toInt = unpackSigned 4 data offset := toInt_getUint 4 h

theorem toInt_getU64 {offset : ℕ} (h : offset + 8 ≤ data.length) :
    (getU64 data offset).toInt = unpackSigned 8 data offset := toInt_getUint 8 h

theorem bytes_readRecord_deviceId (h : data.length = 128) :
    (readRecord data).deviceId.bytes = (data.drop 8).take 16 := by
  have hlength : ((data.drop 8).take 16).length = 16 := by
    rw [List.length_take, List.length_drop]
    omega
  have hcopy := @Bytes.take_memcpy 16 (.zero 16) 0 ((data.drop 8).take 16) (by omega)
  rw [hlength, List.take_of_length_le (by rw [Bytes.size])] at hcopy
  exact hcopy

/-- Python decodes the blocks that are well formed. The fields are those that the firmware reads. -/
theorem decodeRecord_of_wellFormed (h : WellFormed data) :
    decodeRecord data = .ok ((readRecord data).dictionary (number 4 data 36 &&& 1 ≠ 0)) := by
  have hsize := h.size
  have hcrc : crcValid data = true := by
    have hlt := (Crc.ieee (data.take 124)).isLt
    have hmask : (0xFFFFFFFF : ℕ) = 2 ^ 32 - 1 := by decide
    rw [crcValid, hsize, h.checksum, hmask, Nat.and_two_pow_sub_one_eq_mod,
      Nat.mod_eq_of_lt hlt]
    simp
  have hid := bytes_readRecord_deviceId hsize
  rw [decodeRecord, if_neg (by simp [hsize, hcrc]),
    if_neg (by simp [h.magic, h.version, h.length])]
  simp only [JournalRecord.dictionary, hid]
  simp (disch := omega) only [readRecord, toNat_getU16, toNat_getU32, toNat_getU64, toInt_getU32,
    toInt_getU64]

theorem wellFormed_of_decodeRecord {record : DecodedRecord} (h : decodeRecord data = .ok record) :
    WellFormed data := by
  unfold decodeRecord at h
  split at h
  next => cases h
  next hcrc =>
    split at h
    next => cases h
    next hheader =>
      rw [not_or, not_not] at hcrc
      obtain ⟨hsize, hcrc⟩ := hcrc
      obtain ⟨hmagic, hversion, hlength⟩ := Prod.mk.inj (not_not.1 hheader) |>.imp_right Prod.mk.inj
      have hlt := (Crc.ieee (data.take 124)).isLt
      have hmask : (0xFFFFFFFF : ℕ) = 2 ^ 32 - 1 := by decide
      simp only [crcValid, hsize, hmask, Nat.and_two_pow_sub_one_eq_mod, Nat.mod_eq_of_lt hlt,
        Bool.not_eq_true', Bool.not_eq_false, Bool.and_eq_true, decide_eq_true_eq] at hcrc
      exact ⟨hsize, hcrc.2.symm, hmagic, hversion, hlength⟩

/-- The firmware accepts the well-formed blocks whose sequence and completeness are in range. -/
theorem pmJournalDecodeRecord_of_wellFormed (h : WellFormed data) (record : JournalRecord) :
    pmJournalDecodeRecord data record =
      (number 8 data 24 ≠ 0 && number 2 data 80 ≤ 1000, readRecord data) := by
  have hsize := h.size
  have hcrc : getU32 data 124 = (pmCrc32Ieee (data.take 124)).toBitVec := by
    apply BitVec.eq_of_toNat_eq
    rw [toNat_getU32 (by omega), h.checksum, toBitVec_pmCrc32Ieee]
  have hmagic : (getU32 data 0).toNat = journalRecordMagic := by
    rw [toNat_getU32 (by omega), h.magic]
  have hversion : (getU16 data 4).toNat = 1 := by rw [toNat_getU16 (by omega), h.version]
  have hlength : (getU16 data 6).toNat = 128 := by rw [toNat_getU16 (by omega), h.length]
  rw [pmJournalDecodeRecord, if_neg (by simp [hsize, hcrc, hmagic, hversion, hlength])]
  simp (disch := omega) only [readRecord, toNat_getU16, toNat_getU64]

theorem pmJournalDecodeRecord_of_not_wellFormed (h : ¬WellFormed data) (record : JournalRecord) :
    pmJournalDecodeRecord data record = (false, record) := by
  unfold pmJournalDecodeRecord
  split
  next => rfl
  next hformed =>
    refine absurd ?_ h
    simp only [not_or, not_not] at hformed
    obtain ⟨hsize, hmagic, hversion, hlength, hcrc⟩ := hformed
    rw [toNat_getU32 (by omega)] at hmagic
    rw [toNat_getU16 (by omega)] at hversion hlength
    have hchecksum := congrArg BitVec.toNat hcrc
    rw [toNat_getU32 (by omega), toBitVec_pmCrc32Ieee] at hchecksum
    exact ⟨hsize, hchecksum, hmagic, hversion, hlength⟩

/-- **The firmware accepts** what Python decodes with a sequence and completeness in range, and the
fields are then the same. -/
theorem decode_iff (record : JournalRecord) :
    (pmJournalDecodeRecord data record).1 = true ↔ ∃ d, decodeRecord data = .ok d ∧
      d = (pmJournalDecodeRecord data record).2.dictionary d.timeTrusted ∧ d.sequence ≠ 0 ∧
      d.completenessPermille ≤ 1000 := by
  by_cases h : WellFormed data
  · have hsize := h.size
    rw [pmJournalDecodeRecord_of_wellFormed h, decodeRecord_of_wellFormed h]
    have hsequence : (readRecord data).sequence = number 8 data 24 := toNat_getU64 (by omega)
    have hcompleteness : (readRecord data).interval.completenessPermille = number 2 data 80 :=
      toNat_getU16 (by omega)
    simp [JournalRecord.dictionary, hsequence, hcompleteness]
  · rw [pmJournalDecodeRecord_of_not_wellFormed h]
    refine iff_of_false (by simp) ?_
    rintro ⟨d, hd, -⟩
    exact h (wellFormed_of_decodeRecord hd)

end

/-- **When the decoders agree** on a block: only when it is not a record. Of every record, Python
says that its time is trusted exactly when the flag says it is not. -/
theorem decoders_agree_iff (block : Bytes 128) (record : JournalRecord) :
    DecodersAgree block.bytes record ↔ ¬WellFormed block.bytes := by
  constructor
  · rintro ⟨-, hfields⟩ h
    obtain ⟨-, htrusted⟩ := hfields _ (decodeRecord_of_wellFormed h)
    have hflags : ((readRecord block.bytes).dictionary
        (number 4 block.bytes 36 &&& 1 ≠ 0)).flags = number 4 block.bytes 36 :=
      toNat_getU32 (by rw [block.size]; decide)
    rw [hflags] at htrusted
    simp only [JournalRecord.dictionary, decide_eq_true_eq, intervalFlagTimeUntrusted] at htrusted
    by_cases hclear : number 4 block.bytes 36 &&& 1 = 0
    · exact absurd hclear (htrusted.2 hclear)
    · exact hclear (htrusted.1 hclear)
  · intro h
    have hrejected : ∀ d, decodeRecord block.bytes ≠ .ok d := fun d hd =>
      h (wellFormed_of_decodeRecord hd)
    rw [DecodersAgree, pmJournalDecodeRecord_of_not_wellFormed h]
    exact ⟨iff_of_false (fun ⟨d, hd⟩ => hrejected d hd) (by simp),
      fun d hd => absurd hd (hrejected d)⟩

/-- A record of an interval whose time is trusted: no flag is set. -/
def trustedBlock : Bytes 128 where
  bytes :=
    [68, 82, 77, 80, 1, 0, 128, 0, 0, 1, 2, 3, 4, 5, 6, 7, 8, 9, 10, 11, 12, 13, 14, 15, 42, 0, 0,
    0, 0, 0, 0, 0, 3, 0, 0, 0, 0, 0, 0, 0, 0, 192, 44, 200, 153, 1, 0, 0, 96, 170, 45, 200, 153,
    1, 0, 0, 0, 0, 0, 0, 0, 0, 0, 0, 0, 0, 0, 0, 0, 0, 0, 0, 60, 0, 0, 0, 60, 0, 0, 0, 232, 3, 1,
    0, 192, 212, 1, 0, 232, 3, 0, 0, 216, 208, 1, 0, 96, 234, 0, 0, 224, 3, 0, 0, 8, 0, 0, 0, 0,
    0, 0, 0, 9, 0, 0, 0, 0, 0, 0, 0, 232, 3, 0, 0, 184, 51, 85, 240]
  size := rfl

/-- Python says that its time is not trusted. -/
theorem trusted_block_disagrees :
    ¬DecodersAgree trustedBlock.bytes (readRecord trustedBlock.bytes) := by
  rintro ⟨-, hfields⟩
  have hdecoded : decodeRecord trustedBlock.bytes =
      .ok ((readRecord trustedBlock.bytes).dictionary false) := by
    decide +kernel
  have htrusted := (hfields _ hdecoded).2.2 (by decide)
  exact absurd htrusted (by simp [JournalRecord.dictionary])

end PowerMonitor.Storage
