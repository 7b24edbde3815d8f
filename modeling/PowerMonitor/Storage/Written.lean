import PowerMonitor.Storage.Card

/-!
# Files as the storage task leaves them

* `Written` is a file with a header, whole records in ascending order, and less than a record at the
  end.
* `Card.Sound` is the invariant of the files of the journal directory, when some records were to be
  appended; `Consistent` is what the status of the storage task says of them.
-/

namespace PowerMonitor.Storage

open CMemory

/-! ## Files as they are written -/

/-- A file with a header of this device and card, whole records, and less than a record at its
end. -/
structure Written (deviceId cardId : Bytes 16) (bytes : List UInt8) (header : SegmentHeader)
    (records : List JournalRecord) (tail : List UInt8) : Prop where
  fits : header.Fits
  device : header.deviceId = deviceId
  card : header.cardId = cardId
  appended : Appended deviceId header.firstSequence records
  content : bytes = writtenSegment header records ++ tail
  short : tail.length < journalRecordSize

section

variable {deviceId cardId : Bytes 16} {bytes tail : List UInt8} {header : SegmentHeader}
  {records : List JournalRecord} {r : JournalRecord}

/-- What a scan finds in a file. -/
abbrev recordsIn (deviceId cardId : Bytes 16) (bytes : List UInt8) : List JournalRecord :=
  segmentRecords (wholeFile bytes) deviceId cardId

theorem Written.scan (h : Written deviceId cardId bytes header records tail) (batch : Option StorageBatch)
    (health : Option StorageHealth) :
    recordsIn deviceId cardId bytes = records.map JournalRecord.stored ∧
      (scanSegment (wholeFile bytes) deviceId cardId batch health).1 =
        if tail = [] then .ok else .invalidSize := by
  obtain ⟨hfits, rfl, rfl, hrecords, hbytes, hshort⟩ := h
  have hfile : (wholeFile bytes).bytes = writtenSegment header records ++ tail := hbytes
  obtain ⟨htaken, s, hscan, -⟩ := scan_written_segment hfits hrecords hshort (fun _ => rfl) hfile batch
    health
  exact ⟨htaken, congrArg Prod.fst hscan⟩

theorem length_writtenSegment (header : SegmentHeader) (records : List JournalRecord) :
    (writtenSegment header records).length =
      journalSegmentHeaderSize + records.length * journalRecordSize := by
  have hsize : (encodedHeader header).bytes.length = journalSegmentHeaderSize :=
    (encodedHeader header).size
  rw [writtenSegment, List.length_append, hsize, length_blocks, Nat.mul_comm]
  rfl

/-- The whole records of a file. -/
theorem Written.validEnd_eq (h : Written deviceId cardId bytes header records tail) :
    validEnd bytes = (writtenSegment header records).length ∧
      bytes.length = (writtenSegment header records).length + tail.length := by
  have hlength : bytes.length = (writtenSegment header records).length + tail.length := by
    rw [h.content, List.length_append]
  have hshort := h.short
  refine ⟨?_, hlength⟩
  rw [length_writtenSegment] at hlength ⊢
  simp only [validEnd, journalSegmentHeaderSize, journalRecordSize] at *
  omega

theorem Written.take_validEnd (h : Written deviceId cardId bytes header records tail) :
    bytes.take (validEnd bytes) = writtenSegment header records := by
  rw [h.validEnd_eq.1, h.content, List.take_left]

/-- The file without the part of a record at its end. -/
theorem Written.cut (h : Written deviceId cardId bytes header records tail) :
    Written deviceId cardId (bytes.take (validEnd bytes)) header records [] where
  fits := h.fits
  device := h.device
  card := h.card
  appended := h.appended
  content := by rw [h.take_validEnd, List.append_nil]
  short := by decide

theorem Written.tail_eq_nil (h : Written deviceId cardId bytes header records tail)
    (hend : validEnd bytes = bytes.length) : tail = [] := by
  obtain ⟨hvalid, hlength⟩ := h.validEnd_eq
  exact List.length_eq_zero_iff.1 (by omega)

theorem Written.header_le (h : Written deviceId cardId bytes header records tail) :
    journalSegmentHeaderSize ≤ bytes.length := by
  rw [h.validEnd_eq.2, length_writtenSegment]
  omega

/-- A record that can be appended to the journal after `offered`. -/
structure Next (deviceId : Bytes 16) (offered : List JournalRecord) (r : JournalRecord) : Prop where
  fits : r.Fits
  accepted : r.sequence ≠ 0 ∧ r.interval.completenessPermille ≤ 1000
  own : r.deviceId = deviceId
  newer : ∀ x ∈ offered, x.sequence < r.sequence

/-- A record is appended to a file of older ones. -/
theorem Appended.snoc {first : ℕ} (h : Appended deviceId first records) {offered : List JournalRecord}
    (hr : Next deviceId offered r) (hfirst : first ≤ r.sequence)
    (holder : ∀ x ∈ records, x.sequence < r.sequence) : Appended deviceId first (records ++ [r]) := by
  have hcases {p : JournalRecord → Prop} (hall : ∀ x ∈ records, p x) (hlast : p r) :
      ∀ x ∈ records ++ [r], p x := by
    intro x hx
    rcases List.mem_append.1 hx with hx | hx
    · exact hall x hx
    · obtain rfl := List.mem_singleton.1 hx
      exact hlast
  refine ⟨hcases h.fits hr.fits, hcases h.accepted hr.accepted, hcases h.own hr.own,
    hcases h.after hfirst, List.pairwise_append.2 ⟨h.ascending, List.pairwise_singleton _ _, ?_⟩⟩
  intro x hx y hy
  obtain rfl := List.mem_singleton.1 hy
  exact holder x hx

/-- **A write of a record** to a whole file: the record is there, or a part of it at the end. -/
theorem Written.append (h : Written deviceId cardId bytes header records [])
    {offered : List JournalRecord} (hr : Next deviceId offered r)
    (hfirst : header.firstSequence ≤ r.sequence) (holder : ∀ x ∈ records, x.sequence < r.sequence)
    (w : BlockWrite) :
    Written deviceId cardId (bytes ++ w.bytes (encodedRecord r).bytes) header (records ++ [r]) [] ∨
      w ≠ .done ∧ ∃ tail,
        Written deviceId cardId (bytes ++ w.bytes (encodedRecord r).bytes) header records tail := by
  have hsize : (encodedRecord r).bytes.length = journalRecordSize := (encodedRecord r).size
  have hwhole : Written deviceId cardId (bytes ++ (encodedRecord r).bytes) header (records ++ [r]) [] :=
    { fits := h.fits
      device := h.device
      card := h.card
      appended := h.appended.snoc hr hfirst holder
      content := by
        rw [h.content, List.append_nil, List.append_nil, writtenSegment, writtenSegment,
          List.flatMap_append, List.flatMap_singleton, List.append_assoc]
      short := by decide }
  have hpart (n : ℕ) : Written deviceId cardId (bytes ++ (encodedRecord r).bytes.take n) header
      (records ++ [r]) [] ∨ ∃ tail,
        Written deviceId cardId (bytes ++ (encodedRecord r).bytes.take n) header records tail := by
    by_cases hn : journalRecordSize ≤ n
    · rw [List.take_of_length_le (hsize.le.trans hn)]
      exact .inl hwhole
    · refine .inr ⟨(encodedRecord r).bytes.take n, h.fits, h.device, h.card, h.appended, ?_, ?_⟩
      · rw [h.content, List.append_nil]
      · rw [List.length_take]
        omega
  cases w with
  | done => exact .inl hwhole
  | fails noSpace n => exact (hpart n).imp id fun htail => ⟨by simp, htail⟩
  | powerLoss n => exact (hpart n).imp id fun htail => ⟨by simp, htail⟩

end

/-! ## The card -/

/-- A file of whole records. -/
def Whole (deviceId cardId : Bytes 16) (bytes : List UInt8) : Prop :=
  ∃ header records, Written deviceId cardId bytes header records []

/-- A file as the task leaves it when power is lost or a call fails: the header may be cut short. -/
def Left (deviceId cardId : Bytes 16) (bytes : List UInt8) : Prop :=
  (∃ header records tail, Written deviceId cardId bytes header records tail) ∨
    bytes.length < journalSegmentHeaderSize

/-- The file to which records after `offered` are appended. -/
def Current (deviceId cardId : Bytes 16) (offered : List JournalRecord) (bytes : List UInt8) : Prop :=
  (∃ header records tail, Written deviceId cardId bytes header records tail ∧
    ∃ x ∈ offered, header.firstSequence ≤ x.sequence) ∨ bytes.length < journalSegmentHeaderSize

/-- A scan of some file finds the record. -/
def Card.Finds (deviceId cardId : Bytes 16) (c : Card) (r : JournalRecord) : Prop :=
  ∃ f ∈ c.files, r ∈ recordsIn deviceId cardId f

/-- The invariant of the files, when the records `offered` were to be appended. -/
structure Card.Sound (deviceId cardId : Bytes 16) (offered : List JournalRecord) (c : Card) : Prop where
  segments : ∀ g ∈ c.segments, Whole deviceId cardId g.bytes ∧
    ∀ r ∈ recordsIn deviceId cardId g.bytes, r.sequence ≤ g.last
  quarantine : ∀ f ∈ c.quarantine, Left deviceId cardId f
  current : ∀ f, c.current = some f → Current deviceId cardId offered f
  offered : ∀ r, c.Finds deviceId cardId r → ∃ x ∈ offered, r = x.stored

/-- What the variables of the task say of the card: while storage is ready or full, no file is
damaged but for a part of a record in `current.tmp`, and none is while it is ready. -/
structure Consistent (deviceId cardId : Bytes 16) (card : Card) (w : Writer) : Prop where
  quarantine : w.status = .ready ∨ w.status = .full → ∀ f ∈ card.quarantine, Whole deviceId cardId f
  header : w.status = .ready ∨ w.status = .full →
    ∀ f, card.current = some f → journalSegmentHeaderSize ≤ f.length
  whole : w.status = .ready → ∀ f, card.current = some f → validEnd f = f.length
  opened : w.opened = true → card.current ≠ none

section

variable {deviceId cardId : Bytes 16} {offered : List JournalRecord} {card : Card} {w : Writer}
  {bytes : List UInt8}

theorem Current.left (h : Current deviceId cardId offered bytes) : Left deviceId cardId bytes :=
  h.imp (fun hwritten => by
    obtain ⟨header, records, tail, hwritten, -⟩ := hwritten
    exact ⟨header, records, tail, hwritten⟩) id

theorem Current.mono {offered' : List JournalRecord} (h : Current deviceId cardId offered bytes)
    (hsub : offered ⊆ offered') : Current deviceId cardId offered' bytes :=
  h.imp (fun hwritten => by
    obtain ⟨header, records, tail, hwritten, x, hx, hle⟩ := hwritten
    exact ⟨header, records, tail, hwritten, x, hsub hx, hle⟩) id

theorem Card.Sound.mono {offered' : List JournalRecord} (h : card.Sound deviceId cardId offered)
    (hsub : offered ⊆ offered') : card.Sound deviceId cardId offered' where
  segments := h.segments
  quarantine := h.quarantine
  current f hf := (h.current f hf).mono hsub
  offered r hr := by
    obtain ⟨x, hx, heq⟩ := h.offered r hr
    exact ⟨x, hsub hx, heq⟩

/-- A file without a header has no records. -/
theorem recordsIn_of_short (h : bytes.length < journalSegmentHeaderSize) :
    recordsIn deviceId cardId bytes = [] ∧
      ∀ batch health, (scanSegment (wholeFile bytes) deviceId cardId batch health).1 = .invalidCrc := by
  have hread : (wholeFile bytes).read 0 journalSegmentHeaderSize = none := by
    refine if_neg fun hle => ?_
    rw [Nat.zero_add] at hle
    exact absurd hle.1 (not_le.2 h)
  have hown : ownHeader (wholeFile bytes) deviceId cardId = none := by
    unfold ownHeader
    rw [hread]
  unfold recordsIn segmentRecords segmentTaken scanSegment
  rw [hown]
  exact ⟨rfl, fun _ _ => rfl⟩

/-- A scan that succeeds has seen a whole file. -/
theorem Left.whole (h : Left deviceId cardId bytes) {batch : Option StorageBatch}
    {health : Option StorageHealth}
    (hscan : (scanSegment (wholeFile bytes) deviceId cardId batch health).1 = .ok) :
    Whole deviceId cardId bytes := by
  rcases h with ⟨header, records, tail, hwritten⟩ | hshort
  · rw [(hwritten.scan batch health).2] at hscan
    split_ifs at hscan with htail
    · subst htail
      exact ⟨header, records, hwritten⟩
    · exact absurd hscan (by decide)
  · rw [(recordsIn_of_short hshort).2] at hscan
    exact absurd hscan (by decide)

theorem Whole.scan_ok (h : Whole deviceId cardId bytes) (batch : Option StorageBatch)
    (health : Option StorageHealth) :
    (scanSegment (wholeFile bytes) deviceId cardId batch health).1 = .ok := by
  obtain ⟨header, records, hwritten⟩ := h
  exact (hwritten.scan batch health).2

theorem Whole.header_le (h : Whole deviceId cardId bytes) :
    journalSegmentHeaderSize ≤ bytes.length := by
  obtain ⟨header, records, hwritten⟩ := h
  exact hwritten.header_le

theorem Whole.validEnd_eq (h : Whole deviceId cardId bytes) : validEnd bytes = bytes.length := by
  obtain ⟨header, records, hwritten⟩ := h
  obtain ⟨hend, hlength⟩ := hwritten.validEnd_eq
  rw [hend, hlength, List.length_nil, Nat.add_zero]

theorem Consistent.congr (h : Consistent deviceId cardId card w) {d : Card} {v : Writer}
    (hquarantine : d.quarantine = card.quarantine) (hcurrent : d.current = card.current)
    (hstatus : v.status = w.status) (hopened : v.opened = w.opened) : Consistent deviceId cardId d v where
  quarantine := by
    rw [hstatus, hquarantine]
    exact h.quarantine
  header := by
    rw [hstatus, hcurrent]
    exact h.header
  whole := by
    rw [hstatus, hcurrent]
    exact h.whole
  opened := by
    rw [hopened, hcurrent]
    exact h.opened

/-- Where neither is the status, nothing is said of the files. -/
theorem consistent_of_status (hready : w.status ≠ .ready) (hfull : w.status ≠ .full)
    (hopened : w.opened = true → card.current ≠ none) : Consistent deviceId cardId card w where
  quarantine h := (h.elim hready hfull).elim
  header h := (h.elim hready hfull).elim
  whole h := absurd h hready
  opened := hopened

/-- Storage that was ready is full. -/
theorem Consistent.full (h : Consistent deviceId cardId card w) (hready : w.status = .ready) :
    Consistent deviceId cardId card { w with status := .full } where
  quarantine _ := h.quarantine (.inl hready)
  header _ := h.header (.inl hready)
  whole hready' := absurd (show StorageStatus.full = .ready from hready') (by decide)
  opened := h.opened

theorem consistent_of_current (hquarantine : w.status = .ready ∨ w.status = .full →
    ∀ f ∈ card.quarantine, Whole deviceId cardId f) (hcurrent : card.current = some bytes)
    (hwhole : Whole deviceId cardId bytes) : Consistent deviceId cardId card w where
  quarantine := hquarantine
  header _ f hf := by
    obtain rfl := Option.some.inj (hcurrent.symm.trans hf)
    exact hwhole.header_le
  whole _ f hf := by
    obtain rfl := Option.some.inj (hcurrent.symm.trans hf)
    exact hwhole.validEnd_eq
  opened _ := by simp [hcurrent]

theorem Card.mem_files {f : List UInt8} :
    f ∈ card.files ↔ (∃ g ∈ card.segments, g.bytes = f) ∨ f ∈ card.quarantine ∨ card.current = some f := by
  simp only [Card.files, List.mem_append, List.mem_map, Option.mem_toList, or_assoc]

end

end PowerMonitor.Storage
