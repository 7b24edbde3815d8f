import PowerMonitor.Foundations.Resync
import PowerMonitor.Storage.Batch
import PowerMonitor.Storage.Codec

/-!
# Scanning a segment of the journal

`scan_segment` reads a file of the journal: the header, and then one record after the other. Where a
record does not pass its checks, `next_valid_record` looks for the next one that does, byte by byte.
A part of the file may not be readable.

* `scanLoop_eq` says that the records that are taken are those of `Resync.found`.
* `scan_finds_all`: of the blocks of a segment that hold a record of this device, in whatever
  damage, none is left out that is newer than the records taken before it and does not overlap one.
* `missing_is_reported`: every sequence of a segment that was not found lies in the range that is
  reported as unavailable.
* `scan_written_segment`: a segment that was written is read back.
-/

namespace PowerMonitor.Storage

open CMemory Config Resync

/-! ## Files and what is known of the card -/

/-- A file: its bytes, and those that can be read. -/
structure CardFile where
  bytes : List UInt8
  readable : ℕ → Bool

/-- `fseek` and `fread` of `n` bytes; `none` if there are not as many. -/
def CardFile.read (file : CardFile) (offset n : ℕ) : Option (List UInt8) :=
  if offset + n ≤ file.bytes.length ∧ (List.range n).all (fun i => file.readable (offset + i)) then
    some ((file.bytes.drop offset).take n)
  else none

/-- Whether reading `n` bytes sets the error indicator of the file. -/
def CardFile.fails (file : CardFile) (offset n : ℕ) : Bool :=
  (List.range n).any fun i => offset + i < file.bytes.length && !file.readable (offset + i)

/-- The members of `pm_storage_health_t` that a scan updates. -/
structure StorageHealth where
  oldestSequence : ℕ
  newestSequence : ℕ
  unavailableFirst : ℕ
  unavailableLast : ℕ
  corruptRecords : ℕ
  deriving DecidableEq

/-- `report_unavailable_range`. -/
def reportUnavailableRange (health : StorageHealth) (first last : ℕ) : StorageHealth :=
  if first = 0 ∨ last < first then health
  else { health with
    unavailableFirst := if health.unavailableFirst = 0 ∨ first < health.unavailableFirst then first
      else health.unavailableFirst
    unavailableLast := if last > health.unavailableLast then last else health.unavailableLast }

/-- What `scan_segment` notes of the sequence of a record that it takes. -/
def StorageHealth.see (health : StorageHealth) (sequence : ℕ) : StorageHealth :=
  { health with
    oldestSequence := if health.oldestSequence = 0 ∨ sequence < health.oldestSequence then sequence
      else health.oldestSequence
    newestSequence := if sequence > health.newestSequence then sequence else health.newestSequence }

/-! ## The functions of the source -/

/-- `(pm_journal_record_t){0}`. -/
def JournalRecord.zero : JournalRecord where
  deviceId := Bytes.zero 16
  sequence := 0
  resetGeneration := 0
  interval := ⟨0, 0, 0, 0, 0, 0, 0, 0, 0, 0, 0, 0, 0, 0, 0, 0, 0, 0⟩

/-- A block that decodes to a record of this device. -/
def decodeOwn (deviceId : Bytes 16) (bytes : List UInt8) : Option JournalRecord :=
  let decoded := pmJournalDecodeRecord bytes JournalRecord.zero
  if decoded.1 && decoded.2.deviceId = deviceId then some decoded.2 else none

/-- `magic` of `next_valid_record`. -/
def recordMagicBytes : List UInt8 := [0x44, 0x52, 0x4D, 0x50]

/-- `next_valid_record`, with the error indicator of the file. -/
def nextValidRecord (file : CardFile) (deviceId : Bytes 16) (stop : ℕ) :
    ℕ → ℕ → Bool → Option (ℕ × JournalRecord) × Bool
  | 0, _, failed => (none, failed)
  | fuel + 1, offset, failed =>
    if offset + journalRecordSize ≤ stop then
      let failed := failed || file.fails offset 4
      if file.read offset 4 = some recordMagicBytes then
        let failed := failed || file.fails offset journalRecordSize
        match (file.read offset journalRecordSize).bind (decodeOwn deviceId) with
        | some record => (some (offset, record), failed)
        | none => nextValidRecord file deviceId stop fuel (offset + 1) failed
      else nextValidRecord file deviceId stop fuel (offset + 1) failed
    else (none, failed)

/-- The variables of `scan_segment`; `batch` and `health` may be `NULL`. -/
structure ScanState where
  batch : Option StorageBatch
  health : Option StorageHealth
  corrupt : Bool
  failed : Bool

/-- The number after a sequence, up to `UINT64_MAX`. -/
def sequenceAfter (r : JournalRecord) : ℕ :=
  if r.sequence = 2 ^ 64 - 1 then r.sequence else r.sequence + 1

theorem sequence_le_of_lt_after {r : JournalRecord} {n : ℕ} (h : n < sequenceAfter r) :
    n ≤ r.sequence := by
  unfold sequenceAfter at h
  split at h <;> omega

/-- A record of this device at an offset that is not older than expected. -/
def expectedRecord (file : CardFile) (deviceId : Bytes 16) (offset expected : ℕ) :
    Option JournalRecord :=
  ((file.read offset journalRecordSize).bind (decodeOwn deviceId)).filter
    (fun r => decide (expected ≤ r.sequence))

/-- The loop of `scan_segment` over the records, and the checks at the end of the file. -/
def scanLoop (file : CardFile) (deviceId : Bytes 16) (stop : ℕ) :
    ℕ → ℕ → ℕ → ScanState → EspErr × ScanState
  | 0, _, _, s => (.ok, s)
  | fuel + 1, offset, expected, s =>
    if offset + journalRecordSize ≤ stop then
      let failed := s.failed || file.fails offset journalRecordSize
      match expectedRecord file deviceId offset expected with
      | none =>
        let health := s.health.map fun h => { h with corruptRecords := h.corruptRecords + 1 }
        match nextValidRecord file deviceId stop (stop - offset) (offset + 1) failed with
        | (none, failed) => (.invalidCrc, ⟨s.batch, health, true, failed⟩)
        | (some (recovered, record), failed) =>
          let last := if record.sequence > expected then record.sequence - 1 else expected
          scanLoop file deviceId stop fuel recovered expected
            ⟨s.batch, health.map (reportUnavailableRange · expected last), true, failed⟩
      | some record =>
        let health := s.health.map fun h =>
          (if record.sequence > expected then reportUnavailableRange h expected (record.sequence - 1)
            else h).see record.sequence
        scanLoop file deviceId stop fuel (offset + journalRecordSize) (sequenceAfter record)
          ⟨s.batch.map (insertSorted · record), health, s.corrupt, failed⟩
    else if s.failed then (.fail, s)
    else if offset ≠ stop then (.invalidSize, { s with corrupt := true })
    else (.ok, s)

/-- The header of a segment of this device and card. -/
def ownHeader (file : CardFile) (deviceId cardId : Bytes 16) : Option SegmentHeader :=
  match file.read 0 journalSegmentHeaderSize with
  | none => none
  | some bytes =>
    let decoded := pmJournalDecodeSegmentHeader bytes ⟨.zero 16, .zero 16, .zero 16, 0, 0, 0, false⟩
    if decoded.1 && decoded.2.deviceId = deviceId && decoded.2.cardId = cardId then some decoded.2
    else none

/-- `scan_segment`. -/
def scanSegment (file : CardFile) (deviceId cardId : Bytes 16) (batch : Option StorageBatch)
    (health : Option StorageHealth) : EspErr × ScanState :=
  let s : ScanState := ⟨batch, health, false, file.fails 0 journalSegmentHeaderSize⟩
  match ownHeader file deviceId cardId with
  | none => (.invalidCrc, { s with corrupt := true })
  | some header =>
    scanLoop file deviceId file.bytes.length (file.bytes.length + 1) journalSegmentHeaderSize
      header.firstSequence s

/-! ## The records that are taken -/

section

variable {file : CardFile} {deviceId cardId : Bytes 16} {offset n fuel expected : ℕ}
  {bytes : List UInt8} {r : JournalRecord}

theorem read_eq_some (h : file.read offset n = some bytes) :
    offset + n ≤ file.bytes.length ∧ bytes = (file.bytes.drop offset).take n := by
  unfold CardFile.read at h
  split at h
  next hcond => exact ⟨hcond.1, (Option.some.inj h).symm⟩
  next => cases h

/-- Where a block can be read, so can its first bytes. -/
theorem read_take (h : file.read offset n = some bytes) {k : ℕ} (hk : k ≤ n) :
    file.read offset k = some (bytes.take k) := by
  unfold CardFile.read at h ⊢
  split at h
  next hcond =>
    obtain rfl := Option.some.inj h
    have hall : (List.range k).all (fun i => file.readable (offset + i)) = true := by
      rw [List.all_eq_true] at hcond ⊢
      exact fun i hi => hcond.2 i (List.mem_range.2 ((List.mem_range.1 hi).trans_le hk))
    rw [if_pos ⟨by omega, hall⟩, List.take_take, Nat.min_eq_left hk]
  next => cases h

theorem decodeOwn_eq_some (h : decodeOwn deviceId bytes = some r) :
    WellFormed bytes ∧ r = readRecord bytes ∧ r.deviceId = deviceId ∧ r.sequence ≠ 0 := by
  unfold decodeOwn at h
  by_cases hformed : WellFormed bytes
  · rw [pmJournalDecodeRecord_of_wellFormed hformed] at h
    dsimp only at h
    split at h
    next haccepted =>
      obtain rfl := Option.some.inj h
      simp only [Bool.and_eq_true, decide_eq_true_eq] at haccepted
      have hsequence : (readRecord bytes).sequence = Fields.number 8 bytes 24 :=
        toNat_getU64 (by rw [hformed.size]; decide)
      exact ⟨hformed, rfl, haccepted.2, by rw [hsequence]; exact haccepted.1.1⟩
    next => cases h
  · rw [pmJournalDecodeRecord_of_not_wellFormed hformed] at h
    cases h

/-- A record starts with the bytes that the search looks for. -/
theorem magic_of_decodeOwn (h : decodeOwn deviceId bytes = some r) :
    bytes.take 4 = recordMagicBytes := by
  have hformed := (decodeOwn_eq_some h).1
  have hword := Fields.le_number 4 bytes (by rw [hformed.size]; decide : 0 + 4 ≤ bytes.length)
  have hmagic : Fields.number 4 bytes 0 = journalRecordMagic := hformed.magic
  rw [List.drop_zero, hmagic] at hword
  rw [← hword]
  decide

/-- The blocks of a segment. -/
def segmentLog (file : CardFile) (deviceId : Bytes 16) : Log JournalRecord where
  valid o := (file.read o journalRecordSize).bind (decodeOwn deviceId)
  key := JournalRecord.sequence
  after := sequenceAfter
  size := journalRecordSize
  stop := file.bytes.length
  size_pos := by decide
  key_le_after r := by
    unfold sequenceAfter
    split <;> omega
  inside o r h := by
    obtain ⟨bytes, hread, -⟩ := Option.bind_eq_some_iff.1 h
    exact (read_eq_some hread).1

theorem expectedRecord_eq : expectedRecord file deviceId offset expected =
    (segmentLog file deviceId).fresh offset expected := rfl

/-- **The search of the source** is the one for the next valid block. -/
theorem fst_nextValidRecord (file : CardFile) (deviceId : Bytes 16) (fuel offset : ℕ)
    (failed : Bool) :
    (nextValidRecord file deviceId file.bytes.length fuel offset failed).1 =
      next (segmentLog file deviceId).valid fuel offset := by
  induction fuel generalizing offset failed with
  | zero => rfl
  | succ fuel ih =>
    unfold nextValidRecord next
    by_cases hfits : offset + journalRecordSize ≤ file.bytes.length
    · rw [if_pos hfits]
      dsimp only [segmentLog]
      rcases hvalid : (file.read offset journalRecordSize).bind (decodeOwn deviceId) with _ | r
      · split
        · exact ih _ _
        · exact ih _ _
      · obtain ⟨bytes, hread, hdecode⟩ := Option.bind_eq_some_iff.1 hvalid
        have hfirst := read_take hread (by decide : 4 ≤ journalRecordSize)
        rw [magic_of_decodeOwn hdecode] at hfirst
        rw [if_pos hfirst]
    · have hnone : ∀ x r, offset ≤ x → (segmentLog file deviceId).valid x ≠ some r := by
        intro x r hx hr
        have hinside : x + journalRecordSize ≤ file.bytes.length :=
          (segmentLog file deviceId).inside x r hr
        omega
      rw [if_neg hfits]
      rcases hrest : next (segmentLog file deviceId).valid fuel (offset + 1) with _ | ⟨x, r⟩
      · rcases hhere : (segmentLog file deviceId).valid offset with _ | r
        · rfl
        · exact absurd hhere (hnone offset r le_rfl)
      · obtain ⟨hr, hle, -⟩ := next_eq_some hrest
        exact absurd hr (hnone x r (by omega))

/-- The records of a segment, as a scan takes them from an offset on. -/
def taken (file : CardFile) (deviceId : Bytes 16) (fuel offset expected : ℕ) : List JournalRecord :=
  (found (segmentLog file deviceId) fuel offset expected).map Prod.snd

/-- The state of a scan after it took a record. -/
def ScanState.take (s : ScanState) (expected : ℕ) (record : JournalRecord) (failed : Bool) :
    ScanState where
  batch := s.batch.map (insertSorted · record)
  health := s.health.map fun h =>
    (if record.sequence > expected then reportUnavailableRange h expected (record.sequence - 1)
      else h).see record.sequence
  corrupt := s.corrupt
  failed := failed

/-- The state of a scan after it skipped to a record. -/
def ScanState.skip (s : ScanState) (expected : ℕ) (record : JournalRecord) (failed : Bool) :
    ScanState where
  batch := s.batch
  health := (s.health.map fun h => { h with corruptRecords := h.corruptRecords + 1 }).map
    (reportUnavailableRange · expected
      (if record.sequence > expected then record.sequence - 1 else expected))
  corrupt := true
  failed := failed

/-- A step that takes a record. -/
theorem scanLoop_take {offset expected : ℕ} {r : JournalRecord}
    (hfresh : (segmentLog file deviceId).fresh offset expected = some r) (fuel : ℕ) (s : ScanState) :
    found (segmentLog file deviceId) (fuel + 1) offset expected =
        (offset, r) :: found (segmentLog file deviceId) fuel (offset + journalRecordSize)
          (sequenceAfter r) ∧
      scanLoop file deviceId file.bytes.length (fuel + 1) offset expected s =
        scanLoop file deviceId file.bytes.length fuel (offset + journalRecordSize) (sequenceAfter r)
          (s.take expected r (s.failed || file.fails offset journalRecordSize)) := by
  have hfits : offset + journalRecordSize ≤ file.bytes.length :=
    (segmentLog file deviceId).inside offset r (fresh_eq_some hfresh).1
  constructor
  · exact found_of_fresh hfresh fuel
  · rw [scanLoop, if_pos hfits, expectedRecord_eq, hfresh]
    rfl

/-- **One step of the loop**: it takes the record at the offset, or skips to the next valid block,
or ends. -/
theorem scanLoop_cases (file : CardFile) (deviceId : Bytes 16) (fuel offset expected : ℕ)
    (s : ScanState) :
    (∃ r failed, (segmentLog file deviceId).fresh offset expected = some r ∧
      found (segmentLog file deviceId) (fuel + 1) offset expected =
        (offset, r) :: found (segmentLog file deviceId) fuel (offset + journalRecordSize)
          (sequenceAfter r) ∧
      scanLoop file deviceId file.bytes.length (fuel + 1) offset expected s =
        scanLoop file deviceId file.bytes.length fuel (offset + journalRecordSize) (sequenceAfter r)
          (s.take expected r failed)) ∨
    (∃ x r failed, found (segmentLog file deviceId) (fuel + 1) offset expected =
        found (segmentLog file deviceId) fuel x expected ∧
      scanLoop file deviceId file.bytes.length (fuel + 1) offset expected s =
        scanLoop file deviceId file.bytes.length fuel x expected (s.skip expected r failed)) ∨
    (found (segmentLog file deviceId) (fuel + 1) offset expected = [] ∧
      ∃ e s', scanLoop file deviceId file.bytes.length (fuel + 1) offset expected s = (e, s') ∧
        s'.batch = s.batch ∧ (s'.health = s.health ∨
          s'.health = s.health.map fun h => { h with corruptRecords := h.corruptRecords + 1 })) := by
  have hsize : (segmentLog file deviceId).size = journalRecordSize := rfl
  have hstop : (segmentLog file deviceId).stop = file.bytes.length := rfl
  simp only [scanLoop, found, hsize, hstop]
  by_cases hfits : offset + journalRecordSize ≤ file.bytes.length
  · simp only [if_pos hfits, expectedRecord_eq]
    rcases hfresh : (segmentLog file deviceId).fresh offset expected with _ | r
    · right
      have hsearch := fst_nextValidRecord file deviceId (file.bytes.length - offset) (offset + 1)
        (s.failed || file.fails offset journalRecordSize)
      rcases hnext : nextValidRecord file deviceId file.bytes.length (file.bytes.length - offset)
        (offset + 1) (s.failed || file.fails offset journalRecordSize) with ⟨_ | ⟨x, r⟩, failed⟩
      · rw [hnext] at hsearch
        rw [← hsearch]
        exact .inr ⟨by simp only, _, _, rfl, rfl, .inr rfl⟩
      · rw [hnext] at hsearch
        rw [← hsearch]
        exact .inl ⟨x, r, failed, rfl, rfl⟩
    · exact .inl ⟨r, _, rfl, rfl, rfl⟩
  · simp only [if_neg hfits]
    refine .inr (.inr ⟨trivial, ?_⟩)
    split
    · exact ⟨_, _, rfl, rfl, .inl rfl⟩
    split
    · exact ⟨_, _, rfl, rfl, .inl rfl⟩
    · exact ⟨_, _, rfl, rfl, .inl rfl⟩

/-- **The loop of the source** takes the records that a scan finds. -/
theorem scanLoop_eq (s : ScanState) :
    (scanLoop file deviceId file.bytes.length fuel offset expected s).2.batch =
      s.batch.map fun b => (taken file deviceId fuel offset expected).foldl insertSorted b := by
  unfold taken
  induction fuel generalizing offset expected s with
  | zero => simp [scanLoop, found]
  | succ fuel ih =>
    rcases scanLoop_cases file deviceId fuel offset expected s with
      ⟨r, failed, -, hfound, hscan⟩ | ⟨x, r, failed, hfound, hscan⟩ | ⟨hfound, e, s', hscan, hbatch, -⟩
    · rw [hfound, hscan, ih]
      simp [ScanState.take, Option.map_map, Function.comp_def]
    · rw [hfound, hscan, ih]
      rfl
    · rw [hfound, hscan, hbatch]
      simp

/-- The records that a scan takes of a segment, each with its offset. -/
def segmentTaken (file : CardFile) (deviceId cardId : Bytes 16) : List (ℕ × JournalRecord) :=
  match ownHeader file deviceId cardId with
  | none => []
  | some header =>
    found (segmentLog file deviceId) (file.bytes.length + 1) journalSegmentHeaderSize
      header.firstSequence

/-- The records that a scan takes of a segment. -/
def segmentRecords (file : CardFile) (deviceId cardId : Bytes 16) : List JournalRecord :=
  (segmentTaken file deviceId cardId).map Prod.snd

theorem scanSegment_batch (batch : StorageBatch) (health : Option StorageHealth) :
    (scanSegment file deviceId cardId (some batch) health).2.batch =
      some ((segmentRecords file deviceId cardId).foldl insertSorted batch) := by
  unfold scanSegment segmentRecords segmentTaken
  split
  · rfl
  · exact scanLoop_eq _

/-- What `open_current` and `append_record` write to a file. -/
def writtenSegment (header : SegmentHeader) (records : List JournalRecord) : List UInt8 :=
  (encodedHeader header).bytes ++ records.flatMap fun r => (encodedRecord r).bytes

/-- Three bytes of a record that was cut short. -/
def cutTail : List UInt8 := [0x44, 0x52, 0x4D]

/-- A segment of one record, and those bytes. -/
def edgeFile : CardFile := ⟨writtenSegment firstHeader [edgeRecord] ++ cutTail, fun _ => true⟩

/-- The block of a record of this device. -/
theorem decodeOwn_encodedRecord (hfits : r.Fits)
    (haccepted : r.sequence ≠ 0 ∧ r.interval.completenessPermille ≤ 1000) (hown : r.deviceId = deviceId) :
    decodeOwn deviceId (encodedRecord r).bytes = some r.stored := by
  have hstored := readRecord_encodedRecord hfits
  have hid : r.stored.deviceId = deviceId := hown
  unfold decodeOwn
  rw [pmJournalDecodeRecord_of_wellFormed (wellFormed_encodedRecord r), hstored,
    number_encodedRecord 4 24 rfl rfl hfits.sequence,
    number_encodedRecord 13 80 rfl rfl hfits.completenessPermille]
  simp [haccepted.1, haccepted.2, hid]

/-- A part of a file that can be read. -/
theorem read_of_append {pre block post : List UInt8} (hbytes : file.bytes = pre ++ block ++ post)
    (hreadable : ∀ i, file.readable i = true) : file.read pre.length block.length = some block := by
  unfold CardFile.read
  have hlength := congrArg List.length hbytes
  rw [List.length_append, List.length_append] at hlength
  rw [if_pos ⟨by omega, by simp [hreadable]⟩, hbytes, List.append_assoc, List.drop_left,
    List.take_left]

/-- The header of a segment that was written. -/
theorem own_writtenSegment {header : SegmentHeader} {records : List JournalRecord} {tail : List UInt8}
    (hheader : header.Fits) (hreadable : ∀ i, file.readable i = true)
    (hbytes : file.bytes = writtenSegment header records ++ tail) :
    ownHeader file header.deviceId header.cardId = some header := by
  have hsize : (encodedHeader header).bytes.length = journalSegmentHeaderSize :=
    (encodedHeader header).size
  have hread : file.read 0 journalSegmentHeaderSize = some (encodedHeader header).bytes := by
    have hwhole : file.bytes = [] ++ (encodedHeader header).bytes ++
        ((records.flatMap fun r => (encodedRecord r).bytes) ++ tail) := by
      rw [hbytes, writtenSegment, List.nil_append, List.append_assoc]
    have hpart := read_of_append hwhole hreadable
    rwa [hsize, List.length_nil] at hpart
  unfold ownHeader
  rw [hread]
  dsimp only
  rw [decode_encode_header header hheader]
  simp

theorem own_edgeFile : ownHeader edgeFile (Bytes.zero 16) (Bytes.zero 16) = some firstHeader := by
  have hfits : firstHeader.Fits := by constructor <;> decide
  have hreadable : ∀ i, edgeFile.readable i = true := fun _ => rfl
  have hbytes : edgeFile.bytes = writtenSegment firstHeader [edgeRecord] ++ cutTail := rfl
  have hown := own_writtenSegment hfits hreadable hbytes
  exact hown

/-- The block after the header. -/
theorem read_edgeFile : edgeFile.read 96 journalRecordSize = some (encodedRecord edgeRecord).bytes := by
  have hheader : (encodedHeader firstHeader).bytes.length = 96 := (encodedHeader firstHeader).size
  have hsize : (encodedRecord edgeRecord).bytes.length = journalRecordSize :=
    (encodedRecord edgeRecord).size
  have hbytes : edgeFile.bytes =
      (encodedHeader firstHeader).bytes ++ (encodedRecord edgeRecord).bytes ++ cutTail := by
    rw [edgeFile, writtenSegment, List.flatMap_singleton]
  have hread := read_of_append hbytes fun _ => rfl
  rwa [hheader, hsize] at hread

/-- **Nothing that is valid is left out**: whatever damage a segment has, a block that holds a
record of this device is taken, or overlaps one that is, or is older than the header says, or not
newer than a record that was taken before it. -/
theorem scan_finds_all {header : SegmentHeader} (hheader : ownHeader file deviceId cardId = some header)
    {x : ℕ} (hx : journalSegmentHeaderSize ≤ x) (hread : file.read x journalRecordSize = some bytes)
    (hr : decodeOwn deviceId bytes = some r) :
    (x, r) ∈ segmentTaken file deviceId cardId ∨
      (∃ p ∈ segmentTaken file deviceId cardId, p.1 < x ∧ x < p.1 + journalRecordSize) ∨
      r.sequence < header.firstSequence ∨
      ∃ p ∈ segmentTaken file deviceId cardId, p.1 < x ∧ r.sequence ≤ p.2.sequence := by
  have hvalid : (segmentLog file deviceId).valid x = some r := Option.bind_eq_some_iff.2 ⟨_, hread, hr⟩
  have hfuel : (segmentLog file deviceId).stop <
      journalSegmentHeaderSize + (file.bytes.length + 1) := by
    change file.bytes.length < _
    omega
  rw [segmentTaken, hheader]
  rcases found_complete (file.bytes.length + 1) hfuel hx hvalid with
    hp | hp | hold | ⟨p, hp, hlt, hold⟩
  · exact .inl hp
  · exact .inr (.inl hp)
  · exact .inr (.inr (.inl hold))
  · exact .inr (.inr (.inr ⟨p, hp, hlt, sequence_le_of_lt_after hold⟩))

theorem edgeFile_finds_all :
    (96, edgeRecord.stored) ∈ segmentTaken edgeFile (Bytes.zero 16) (Bytes.zero 16) ∨
      (∃ p ∈ segmentTaken edgeFile (Bytes.zero 16) (Bytes.zero 16), p.1 < 96 ∧
        96 < p.1 + journalRecordSize) ∨
      edgeRecord.stored.sequence < firstHeader.firstSequence ∨
      ∃ p ∈ segmentTaken edgeFile (Bytes.zero 16) (Bytes.zero 16), p.1 < 96 ∧
        edgeRecord.stored.sequence ≤ p.2.sequence :=
  scan_finds_all own_edgeFile (by decide) read_edgeFile
    (decodeOwn_encodedRecord (by constructor <;> decide) (by decide) rfl)

/-! ## What is reported -/

/-- A sequence lies in the range that is reported as unavailable. -/
def StorageHealth.Reported (health : StorageHealth) (k : ℕ) : Prop :=
  health.unavailableFirst ≠ 0 ∧ health.unavailableFirst ≤ k ∧ k ≤ health.unavailableLast

theorem reported_of_range {health : StorageHealth} {first last k : ℕ} (hfirst : first ≠ 0)
    (hlow : first ≤ k) (hhigh : k ≤ last) : (reportUnavailableRange health first last).Reported k := by
  unfold reportUnavailableRange StorageHealth.Reported
  rw [if_neg (by omega)]
  dsimp only
  refine ⟨?_, ?_, ?_⟩ <;> split <;> omega

theorem StorageHealth.Reported.range {health : StorageHealth} {k : ℕ} (h : health.Reported k)
    (first last : ℕ) : (reportUnavailableRange health first last).Reported k := by
  obtain ⟨hne, hlow, hhigh⟩ := h
  unfold reportUnavailableRange StorageHealth.Reported
  split
  · exact ⟨hne, hlow, hhigh⟩
  · dsimp only
    refine ⟨?_, ?_, ?_⟩ <;> split <;> omega

/-- A sequence lies between the oldest and the newest of an inventory. -/
def StorageHealth.Spans (health : StorageHealth) (k : ℕ) : Prop :=
  health.oldestSequence ≠ 0 ∧ health.oldestSequence ≤ k ∧ k ≤ health.newestSequence

theorem spans_see {health : StorageHealth} {k : ℕ} (hk : k ≠ 0) : (health.see k).Spans k := by
  unfold StorageHealth.see StorageHealth.Spans
  dsimp only
  refine ⟨?_, ?_, ?_⟩ <;> split <;> omega

theorem StorageHealth.Spans.see {health : StorageHealth} {k : ℕ} (h : health.Spans k) {j : ℕ}
    (hj : j ≠ 0) : (health.see j).Spans k := by
  obtain ⟨hne, hlow, hhigh⟩ := h
  unfold StorageHealth.see StorageHealth.Spans
  dsimp only
  refine ⟨?_, ?_, ?_⟩ <;> split <;> omega

/-- What a later state of the inventory keeps of an earlier one. -/
structure StorageHealth.Extends (health' health : StorageHealth) : Prop where
  reported : ∀ k, health.Reported k → health'.Reported k
  spans : ∀ k, health.Spans k → health'.Spans k

theorem StorageHealth.Extends.trans {h₁ h₂ h₃ : StorageHealth} (h : h₃.Extends h₂)
    (h' : h₂.Extends h₁) : h₃.Extends h₁ :=
  ⟨fun k hk => h.reported k (h'.reported k hk), fun k hk => h.spans k (h'.spans k hk)⟩

theorem extends_range (health : StorageHealth) (first last : ℕ) :
    (reportUnavailableRange health first last).Extends health := by
  refine ⟨fun k hk => hk.range first last, fun k hk => ?_⟩
  unfold reportUnavailableRange
  split <;> exact hk

theorem extends_see (health : StorageHealth) {j : ℕ} (hj : j ≠ 0) :
    (health.see j).Extends health := ⟨fun _ hk => hk, fun _ hk => hk.see hj⟩

theorem sequence_ne_zero_of_fresh (h : (segmentLog file deviceId).fresh offset expected = some r) :
    r.sequence ≠ 0 := by
  obtain ⟨bytes, -, hdecode⟩ := Option.bind_eq_some_iff.1 (fresh_eq_some h).1
  exact (decodeOwn_eq_some hdecode).2.2.2

/-- **What the inventory knows after a scan**: it spans the records that were taken, and every
sequence between what was expected and one of them was taken or is reported. -/
theorem scanLoop_health (file : CardFile) (deviceId : Bytes 16) (fuel offset expected : ℕ)
    {s : ScanState} {health : StorageHealth} (hhealth : s.health = some health) :
    ∃ health', (scanLoop file deviceId file.bytes.length fuel offset expected s).2.health = some health' ∧
      health'.Extends health ∧
      (∀ r ∈ taken file deviceId fuel offset expected, health'.Spans r.sequence) ∧
      (expected ≠ 0 → ∀ k, expected ≤ k →
        (∃ r ∈ taken file deviceId fuel offset expected, k < r.sequence) →
        (∃ r ∈ taken file deviceId fuel offset expected, r.sequence = k) ∨ health'.Reported k) := by
  unfold taken
  induction fuel generalizing offset expected s health with
  | zero => exact ⟨health, by simpa [scanLoop] using hhealth, ⟨fun _ h => h, fun _ h => h⟩,
      by simp [found], by simp [found]⟩
  | succ fuel ih =>
    rcases scanLoop_cases file deviceId fuel offset expected s with
      ⟨r, failed, hfresh, hfound, hscan⟩ | ⟨x, r, failed, hfound, hscan⟩ | ⟨hfound, e, s', hscan, -, hend⟩
    · obtain ⟨health₁, hhealth₁⟩ : ∃ h, h = (if r.sequence > expected then
        reportUnavailableRange health expected (r.sequence - 1) else health) := ⟨_, rfl⟩
      have htaken : (s.take expected r failed).health = some (health₁.see r.sequence) := by
        simp [ScanState.take, hhealth, hhealth₁]
      have hne := sequence_ne_zero_of_fresh hfresh
      have hkey := (fresh_eq_some hfresh).2
      have hext₁ : health₁.Extends health := by
        rw [hhealth₁]
        split
        · exact extends_range health expected (r.sequence - 1)
        · exact ⟨fun _ h => h, fun _ h => h⟩
      obtain ⟨health', hhealth', hext, hspans, hcovered⟩ := ih _ _ htaken
      have hext' := hext.trans ((extends_see health₁ hne).trans hext₁)
      rw [hfound, hscan]
      refine ⟨health', hhealth', hext', ?_, ?_⟩
      · rw [List.map_cons]
        rintro r' (_ | ⟨_, hr'⟩)
        · exact hext.spans _ (spans_see hne)
        · exact hspans r' hr'
      · intro hexpected k hk hlater
        rw [List.map_cons] at hlater ⊢
        rcases lt_trichotomy k r.sequence with hlt | rfl | hgt
        · right
          refine (hext.trans (extends_see health₁ hne)).reported k ?_
          rw [hhealth₁, if_pos (by omega)]
          exact reported_of_range hexpected hk (by omega)
        · exact .inl ⟨r, List.mem_cons_self, rfl⟩
        · have hafter : sequenceAfter r ≠ 0 ∧ sequenceAfter r ≤ k := by
            unfold sequenceAfter
            split <;> omega
          have hrest : ∃ r' ∈ (found (segmentLog file deviceId) fuel (offset + journalRecordSize)
              (sequenceAfter r)).map Prod.snd, k < r'.sequence := by
            obtain ⟨r', _ | ⟨_, hr'⟩, hlt⟩ := hlater
            · exact absurd hgt (Nat.lt_asymm hlt)
            · exact ⟨r', hr', hlt⟩
          rcases hcovered hafter.1 k hafter.2 hrest with ⟨r', hr', heq⟩ | hreported
          · exact .inl ⟨r', List.mem_cons_of_mem _ hr', heq⟩
          · exact .inr hreported
    · obtain ⟨health₁, hskipped, hext₁⟩ : ∃ h, (s.skip expected r failed).health = some h ∧
          h.Extends health := by
        refine ⟨_, by simp only [ScanState.skip, hhealth, Option.map_some]; rfl, ?_⟩
        exact (extends_range _ _ _).trans ⟨fun _ h => h, fun _ h => h⟩
      obtain ⟨health', hhealth', hext, hspans, hcovered⟩ := ih _ _ hskipped
      rw [hfound, hscan]
      exact ⟨health', hhealth', hext.trans hext₁, hspans, hcovered⟩
    · rw [hfound, hscan]
      rcases hend with hend | hend
      · exact ⟨health, hend.trans hhealth, ⟨fun _ h => h, fun _ h => h⟩, by simp, by simp⟩
      · rw [hhealth, Option.map_some] at hend
        exact ⟨_, hend, ⟨fun _ h => h, fun _ h => h⟩, by simp, by simp⟩

/-- **What is missing is reported**: the inventory spans the records of a segment, and a sequence
from the first of the header on, before one of them, was taken or lies in the reported range. -/
theorem missing_is_reported (health : StorageHealth) (batch : Option StorageBatch)
    {header : SegmentHeader} (hheader : ownHeader file deviceId cardId = some header)
    (hfirst : header.firstSequence ≠ 0) :
    ∃ health', (scanSegment file deviceId cardId batch (some health)).2.health = some health' ∧
      (∀ r ∈ segmentRecords file deviceId cardId, health'.Spans r.sequence) ∧
      ∀ k, header.firstSequence ≤ k → (∃ r ∈ segmentRecords file deviceId cardId, k < r.sequence) →
        (∃ r ∈ segmentRecords file deviceId cardId, r.sequence = k) ∨ health'.Reported k := by
  let s : ScanState := ⟨batch, some health, false, file.fails 0 journalSegmentHeaderSize⟩
  have hstart : s.health = some health := rfl
  obtain ⟨health', hhealth', -, hspans, hcovered⟩ := scanLoop_health file deviceId
    (file.bytes.length + 1) journalSegmentHeaderSize header.firstSequence hstart
  unfold scanSegment segmentRecords segmentTaken
  rw [hheader]
  exact ⟨health', hhealth', hspans, hcovered hfirst⟩

theorem edgeFile_missing_is_reported : ∃ health',
    (scanSegment edgeFile (Bytes.zero 16) (Bytes.zero 16) none
      (some ⟨0, 0, 0, 0, 0⟩)).2.health = some health' ∧
    (∀ r ∈ segmentRecords edgeFile (Bytes.zero 16) (Bytes.zero 16), health'.Spans r.sequence) ∧
    ∀ k, firstHeader.firstSequence ≤ k →
      (∃ r ∈ segmentRecords edgeFile (Bytes.zero 16) (Bytes.zero 16), k < r.sequence) →
      (∃ r ∈ segmentRecords edgeFile (Bytes.zero 16) (Bytes.zero 16), r.sequence = k) ∨
        health'.Reported k :=
  missing_is_reported ⟨0, 0, 0, 0, 0⟩ none own_edgeFile (by decide)

/-! ## Segments that were written -/

theorem length_blocks (records : List JournalRecord) :
    (records.flatMap fun r => (encodedRecord r).bytes).length = 128 * records.length := by
  rw [List.length_flatMap]
  have hsizes : records.map (fun r => (encodedRecord r).bytes.length) = records.map fun _ => 128 :=
    List.map_congr_left fun r _ => (encodedRecord r).size
  rw [hsizes, List.map_const', List.sum_replicate_nat, Nat.mul_comm]

/-- The records of a device, in the order in which they are appended. -/
structure Appended (deviceId : Bytes 16) (first : ℕ) (records : List JournalRecord) : Prop where
  fits : ∀ r ∈ records, r.Fits
  accepted : ∀ r ∈ records, r.sequence ≠ 0 ∧ r.interval.completenessPermille ≤ 1000
  own : ∀ r ∈ records, r.deviceId = deviceId
  after : ∀ r ∈ records, first ≤ r.sequence
  ascending : records.Pairwise (fun x y => x.sequence < y.sequence)

theorem Appended.tail {first : ℕ} {records : List JournalRecord}
    (h : Appended deviceId first (r :: records)) : Appended deviceId (sequenceAfter r) records := by
  obtain ⟨hlater, hrest⟩ := List.pairwise_cons.1 h.ascending
  refine ⟨fun x hx => h.fits x (List.mem_cons_of_mem _ hx), fun x hx =>
    h.accepted x (List.mem_cons_of_mem _ hx), fun x hx => h.own x (List.mem_cons_of_mem _ hx),
    fun x hx => ?_, hrest⟩
  have := hlater x hx
  unfold sequenceAfter
  split <;> omega

theorem not_fails_of_readable (hreadable : ∀ i, file.readable i = true) (offset n : ℕ) :
    file.fails offset n = false := by
  simp [CardFile.fails, hreadable]

/-- The loop over records that were appended, and a rest of less than a record. -/
theorem scanLoop_written {pre tail : List UInt8} {records : List JournalRecord}
    (hrecords : Appended deviceId expected records) (htail : tail.length < journalRecordSize)
    (hreadable : ∀ i, file.readable i = true) (hfuel : records.length < fuel)
    (hbytes : file.bytes = pre ++ (records.flatMap fun r => (encodedRecord r).bytes) ++ tail)
    (s : ScanState) (hfailed : s.failed = false) :
    taken file deviceId fuel pre.length expected = records.map JournalRecord.stored ∧
      ∃ s', scanLoop file deviceId file.bytes.length fuel pre.length expected s =
        (if tail = [] then .ok else .invalidSize, s') ∧
        s'.corrupt = (s.corrupt || decide (tail ≠ [])) := by
  induction records generalizing pre fuel expected s with
  | nil =>
    obtain ⟨fuel, rfl⟩ : ∃ n, fuel = n + 1 := ⟨fuel - 1, by omega⟩
    have hlength := congrArg List.length hbytes
    rw [List.flatMap_nil, List.append_nil, List.length_append] at hlength
    have hend : ¬pre.length + journalRecordSize ≤ file.bytes.length := by omega
    have hnothing : found (segmentLog file deviceId) (fuel + 1) pre.length expected = [] :=
      found_of_end hend _
    refine ⟨by rw [taken, hnothing]; rfl, ?_⟩
    rw [scanLoop, if_neg hend, hfailed, if_neg Bool.false_ne_true]
    by_cases hempty : tail = []
    · rw [hempty, List.length_nil] at hlength
      rw [if_neg (by omega), if_pos hempty]
      exact ⟨s, rfl, by simp [hempty]⟩
    · have hpos := List.length_pos_of_ne_nil hempty
      rw [if_pos (by omega), if_neg hempty]
      exact ⟨_, rfl, by simp [hempty]⟩
  | cons r records ih =>
    obtain ⟨fuel, rfl⟩ : ∃ n, fuel = n + 1 := ⟨fuel - 1, by omega⟩
    have hr : r ∈ r :: records := List.mem_cons_self
    have hsize : (encodedRecord r).bytes.length = journalRecordSize := (encodedRecord r).size
    have hblock : file.bytes = pre ++ (encodedRecord r).bytes ++
        ((records.flatMap fun r => (encodedRecord r).bytes) ++ tail) := by
      rw [hbytes, List.flatMap_cons]
      simp only [List.append_assoc]
    have hread := read_of_append hblock hreadable
    rw [hsize] at hread
    have hvalid : (segmentLog file deviceId).valid pre.length = some r.stored :=
      Option.bind_eq_some_iff.2 ⟨_, hread, decodeOwn_encodedRecord (hrecords.fits r hr)
        (hrecords.accepted r hr) (hrecords.own r hr)⟩
    have hfresh : (segmentLog file deviceId).fresh pre.length expected = some r.stored := by
      have hafter : expected ≤ (segmentLog file deviceId).key r.stored := hrecords.after r hr
      unfold Log.fresh
      rw [hvalid, Option.filter_some, if_pos (decide_eq_true hafter)]
    obtain ⟨hfound, hscan⟩ := scanLoop_take hfresh fuel s
    have hlength : (pre ++ (encodedRecord r).bytes).length = pre.length + journalRecordSize := by
      rw [List.length_append, hsize]
    have hfuel' : records.length < fuel := by
      rw [List.length_cons] at hfuel
      omega
    obtain ⟨htaken, s', hend, hcorrupt⟩ := ih hrecords.tail hfuel'
      (by rw [hblock, List.append_assoc _ _ tail])
      (s.take expected r.stored (s.failed || file.fails pre.length journalRecordSize))
      (by simp [ScanState.take, hfailed, not_fails_of_readable hreadable])
    rw [hlength] at htaken hend
    refine ⟨?_, s', ?_, hcorrupt⟩
    · rw [taken, hfound, List.map_cons, List.map_cons]
      exact congrArg _ htaken
    · rw [hscan]
      exact hend

/-- **A segment that was written is read back**: a scan takes its records in order, with all that
the format keeps of them, also when the writing of one more record was cut short. Only then it
reports that the segment is damaged. -/
theorem scan_written_segment {header : SegmentHeader} {records : List JournalRecord} {tail : List UInt8}
    (hheader : header.Fits) (hrecords : Appended header.deviceId header.firstSequence records)
    (htail : tail.length < journalRecordSize) (hreadable : ∀ i, file.readable i = true)
    (hbytes : file.bytes = writtenSegment header records ++ tail) (batch : Option StorageBatch)
    (health : Option StorageHealth) :
    segmentRecords file header.deviceId header.cardId = records.map JournalRecord.stored ∧
      ∃ s, scanSegment file header.deviceId header.cardId batch health =
        (if tail = [] then .ok else .invalidSize, s) ∧ s.corrupt = decide (tail ≠ []) := by
  have hsize : (encodedHeader header).bytes.length = journalSegmentHeaderSize :=
    (encodedHeader header).size
  have hown := own_writtenSegment hheader hreadable hbytes
  have hfuel : records.length < file.bytes.length + 1 := by
    have hlength := congrArg List.length hbytes
    rw [writtenSegment, List.length_append, List.length_append, length_blocks] at hlength
    omega
  obtain ⟨htaken, s, hscan, hcorrupt⟩ := scanLoop_written hrecords htail hreadable hfuel
    (by rw [hbytes, writtenSegment])
    ⟨batch, health, false, file.fails 0 journalSegmentHeaderSize⟩ (not_fails_of_readable hreadable 0 _)
  rw [hsize] at htaken hscan
  unfold segmentRecords segmentTaken scanSegment
  rw [hown]
  exact ⟨htaken, s, hscan, by simpa using hcorrupt⟩

theorem appended_edgeRecord :
    Appended firstHeader.deviceId firstHeader.firstSequence [edgeRecord] := by
  have hfits : edgeRecord.Fits := by constructor <;> decide
  refine ⟨?_, ?_, ?_, ?_, List.pairwise_singleton _ _⟩ <;> intro r hr <;>
    obtain rfl := List.mem_singleton.1 hr
  · exact hfits
  · decide
  · rfl
  · decide

theorem scan_edgeFile :
    segmentRecords edgeFile firstHeader.deviceId firstHeader.cardId =
        [edgeRecord].map JournalRecord.stored ∧
      ∃ s, scanSegment edgeFile firstHeader.deviceId firstHeader.cardId none none =
        (if cutTail = [] then .ok else .invalidSize, s) ∧ s.corrupt = decide (cutTail ≠ []) :=
  scan_written_segment (by constructor <;> decide) appended_edgeRecord (by decide) (fun _ => rfl)
    rfl none none

end

end PowerMonitor.Storage
