import PowerMonitor.Foundations.Runs
import PowerMonitor.Storage.Segment

/-!
# The journal on the card

The storage task of `pm_storage.c` over the files of the journal directory. Records are appended to
`current.tmp`, which gets a header when it is new and is renamed to `seg_<first>_<last>.bin` when it
is full; sealed segments are removed once they are acknowledged and space is short; and at a start
what is left of `current.tmp` is cut to whole records or, if it is damaged, put aside under another
name.

Every function takes what its calls into the file system meet: a write may leave any part of its
block, and power may be lost in each call. Formatting the card, which erases it on command, is left
out.

`Journal` is the card over any number of starts, with the records that were appended and the
acknowledgements kept for the statements.
-/

namespace PowerMonitor.Storage

open CMemory

/-! ## Files -/

/-- `PM_STORAGE_EMERGENCY_RESERVE`. -/
def storageEmergencyReserve : ℕ := 8 * 1024 * 1024

/-- `PM_STORAGE_SEGMENT_LIMIT`. -/
def storageSegmentLimit : ℕ := 1024 * 1024

/-- `pm_storage_status_t`. -/
inductive StorageStatus
  | uninitialized | ready | missing | readOnly | full | corrupt | ioError
  deriving DecidableEq, Repr

/-- The file `seg_<first>_<last>.bin`. -/
structure SealedSegment where
  first : ℕ
  last : ℕ
  bytes : List UInt8
  deriving DecidableEq

/-- The journal directory: `current.tmp`, the sealed segments and what was put aside. -/
structure Card where
  current : Option (List UInt8)
  segments : List SealedSegment
  quarantine : List (List UInt8)

/-- The files that a scan of the directory reads. -/
def Card.files (c : Card) : List (List UInt8) :=
  c.segments.map SealedSegment.bytes ++ c.quarantine ++ c.current.toList

/-- A file of which every byte can be read. -/
def wholeFile (bytes : List UInt8) : CardFile := ⟨bytes, fun _ => true⟩

/-- The variables of `pm_storage.c`; `opened` says that `s_current` is not null. -/
structure Writer where
  opened : Bool
  currentFirst : ℕ
  currentLast : ℕ
  currentSize : ℕ
  status : StorageStatus
  bytesFree : ℕ
  acknowledgedSequence : ℕ
  inventoryComplete : Bool
  inventory : StorageHealth

/-- The variables at a start. -/
def Writer.zero : Writer := ⟨false, 0, 0, 0, .uninitialized, 0, 0, false, ⟨0, 0, 0, 0, 0⟩⟩

/-- The end of a call: its result, unless power is lost, and what it leaves. `appended` says that a
record was written and synchronised. -/
structure StorageCall where
  result : CallEnd
  card : Card
  writer : Writer
  appended : Bool := false

/-- The next call, after one that succeeded; an error is handled. -/
def StorageCall.andThen (c : StorageCall) (failed : EspErr → Writer → Writer)
    (next : Card → Writer → StorageCall) : StorageCall :=
  match c.result with
  | none => c
  | some e => if e = .ok then next c.card c.writer else { c with writer := failed e c.writer }

/-- How a write and the `fsync` after it end: which part of the block is in the file, and whether
the error is `ENOSPC`. -/
inductive BlockWrite
  | done
  | fails (noSpace : Bool) (written : ℕ)
  | powerLoss (written : ℕ)

/-- What is written of a block. -/
def BlockWrite.bytes (w : BlockWrite) (block : List UInt8) : List UInt8 :=
  match w with
  | .done => block
  | .fails _ written | .powerLoss written => block.take written

/-- How a call that renames, removes or truncates a file ends. -/
inductive FileOp
  | done
  | fails
  | powerLoss (landed : Bool)

/-! ## The index -/

section

variable (deviceId cardId : Bytes 16)

/-- The loop of `pm_storage_rebuild_index` over the files of the directory. -/
def scanInventory : List (List UInt8) → StorageHealth → EspErr × StorageHealth
  | [], inventory => (.ok, inventory)
  | file :: files, inventory =>
    let (e, s) := scanSegment (wholeFile file) deviceId cardId none (some inventory)
    let inventory := s.health.getD inventory
    if e = .ok then scanInventory files inventory else (e, inventory)

/-- `pm_storage_rebuild_index`; `fault` is the error of a call into the file system, if one
fails. -/
def pmStorageRebuildIndex (fault : Option Failure) (card : Card) (w : Writer) : EspErr × Writer :=
  let w := { w with inventoryComplete := false }
  match fault with
  | some e => (e.1, w)
  | none =>
    let (e, inventory) := scanInventory deviceId cardId card.files ⟨0, 0, 0, 0, 0⟩
    if e = .ok then (.ok, { w with inventoryComplete := true, inventory }) else (e, w)

/-- The loop of `read_batch_owner` over the files of the directory. -/
def scanBatch : List (List UInt8) → StorageBatch → EspErr × StorageBatch
  | [], batch => (.ok, batch)
  | file :: files, batch =>
    let (e, s) := scanSegment (wholeFile file) deviceId cardId (some batch) none
    let batch := s.batch.getD batch
    if e = .ok then scanBatch files batch else (e, batch)

/-- `read_batch_owner`, with the files in the order of the directory. -/
def readBatchOwner (directory : List (List UInt8)) (cursor : ℕ) (fault : Option Failure) (w : Writer) :
    EspErr × StorageBatch × Writer :=
  if !w.inventoryComplete ∨ w.status ≠ .ready ∧ w.status ≠ .full ∧ w.status ≠ .readOnly then
    (.invalidState, .after cursor, w)
  else
    let failed := { w with inventoryComplete := false, status := .ioError }
    match fault with
    | some e => (e.1, .after cursor, failed)
    | none =>
      let (e, batch) := scanBatch deviceId cardId directory (.after cursor)
      (e, batch, if e = .ok then w else failed)

/-! ## Space -/

/-- `update_capacity`. -/
def updateCapacity (capacity : Except Failure ℕ) (w : Writer) : EspErr × Writer :=
  match capacity with
  | .error e => (e.1, w)
  | .ok free => (.ok, { w with bytesFree := free })

/-- `refresh_capacity`. -/
def refreshCapacity (capacity : Except Failure ℕ) (w : Writer) : EspErr × Writer :=
  let (e, w) := updateCapacity capacity w
  (e, if e = .ok ∧ w.status = .full ∧ storageEmergencyReserve ≤ w.bytesFree then
      { w with status := .ready }
    else w)

/-- The acknowledged segment of the least first sequence that a pass over the directory finds. -/
def oldestAcknowledged (acknowledged : ℕ) (segments : List SealedSegment) : Option SealedSegment :=
  segments.foldl (fun oldest s =>
    if s.last ≤ acknowledged ∧ s.first < (oldest.map SealedSegment.first).getD (2 ^ 64 - 1) then some s
    else oldest) none

/-- What one pass of `reclaim_acknowledged_segments` meets. -/
structure ReclaimPass where
  directory : Bool
  unlink : FileOp
  capacity : Except Failure ℕ

/-- The loop of `reclaim_acknowledged_segments`; power is lost when there are no more passes. -/
def reclaimLoop : List ReclaimPass → Card → Writer → StorageCall
  | [], card, w => ⟨if storageEmergencyReserve ≤ w.bytesFree then some .ok else none, card, w, false⟩
  | pass :: passes, card, w =>
    if storageEmergencyReserve ≤ w.bytesFree then ⟨some .ok, card, w, false⟩
    else if !pass.directory then ⟨some .fail, card, w, false⟩
    else
      match oldestAcknowledged w.acknowledgedSequence card.segments with
      | none => ⟨some .noMem, card, w, false⟩
      | some segment =>
        let removed := { card with segments := card.segments.erase segment }
        match pass.unlink with
        | .fails => ⟨some .fail, card, w, false⟩
        | .powerLoss landed => ⟨none, if landed then removed else card, w, false⟩
        | .done =>
          let (e, w) := updateCapacity pass.capacity w
          if e = .ok then reclaimLoop passes removed w else ⟨some e, removed, w, false⟩

/-- What `reclaim_acknowledged_segments` meets. -/
structure ReclaimEnv where
  capacity : Except Failure ℕ
  passes : List ReclaimPass
  index : Option Failure

/-- `reclaim_acknowledged_segments`. -/
def reclaimAcknowledgedSegments (env : ReclaimEnv) (card : Card) (w : Writer) : StorageCall :=
  let (e, w) := updateCapacity env.capacity w
  if e ≠ .ok then ⟨some e, card, w, false⟩
  else
    (reclaimLoop env.passes card w).andThen (fun _ w => w) fun card w =>
      let (e, w) := pmStorageRebuildIndex deviceId cardId env.index card
        { w with inventory := { w.inventory with oldestSequence := 0, newestSequence := 0 } }
      ⟨some e, card, w, false⟩

/-! ## Appending -/

/-- What `open_current` meets. -/
structure OpenEnv where
  opened : Bool
  positioned : Bool
  segmentId : Bytes 16
  header : BlockWrite

/-- The header of a new segment. -/
def newHeader (record : JournalRecord) (segmentId : Bytes 16) : SegmentHeader where
  deviceId := deviceId
  cardId := cardId
  segmentId := segmentId
  firstSequence := record.sequence
  createdUtcMs := record.interval.startUtcMs
  createdMonotonicUs := record.interval.startMonotonicUs
  timeTrusted := record.interval.flags &&& intervalFlagTimeUntrusted = 0

/-- `open_current`. -/
def openCurrent (record : JournalRecord) (env : OpenEnv) (card : Card) (w : Writer) : StorageCall :=
  if !env.opened then ⟨some .fail, card, w, false⟩
  else
    let bytes := card.current.getD []
    let w := { w with opened := true }
    if !env.positioned then ⟨some .fail, { card with current := some bytes }, w, false⟩
    else
      let w := { w with currentSize := bytes.length }
      if bytes.length ≠ 0 then ⟨some .ok, { card with current := some bytes }, w, false⟩
      else
        let header := (encodedHeader (newHeader deviceId cardId record env.segmentId)).bytes
        let card := { card with current := some (env.header.bytes header) }
        match env.header with
        | .done => ⟨some .ok, card, { w with
            currentSize := journalSegmentHeaderSize
            currentFirst := record.sequence }, false⟩
        | .fails _ _ => ⟨some .fail, card, w, false⟩
        | .powerLoss _ => ⟨none, card, w, false⟩

/-- How the calls of `rotate_current` end. -/
inductive RotateEnv
  | syncFails
  | rename (op : FileOp)

/-- `rotate_current`. A file whose name is taken is not renamed. -/
def rotateCurrent (env : RotateEnv) (card : Card) (w : Writer) : StorageCall :=
  if !w.opened then ⟨some .ok, card, w, false⟩
  else
    let closed := { w with opened := false }
    match env with
    | .syncFails => ⟨some .fail, card, closed, false⟩
    | .rename op =>
      if w.currentLast = 0 then ⟨some .ok, card, closed, false⟩
      else if card.segments.any fun s => s.first = w.currentFirst ∧ s.last = w.currentLast then
        ⟨some .fail, card, closed, false⟩
      else
        let renamed : Card := { card with
          current := none
          segments := card.segments ++ [⟨w.currentFirst, w.currentLast, card.current.getD []⟩] }
        match op with
        | .fails => ⟨some .fail, card, closed, false⟩
        | .powerLoss landed => ⟨none, if landed then renamed else card, closed, false⟩
        | .done => ⟨some .ok, renamed,
            { closed with currentFirst := 0, currentLast := 0, currentSize := 0 }, false⟩

/-- What `append_record` meets. -/
structure AppendEnv where
  reclaim : ReclaimEnv
  opened : OpenEnv
  block : BlockWrite
  capacity : Except Failure ℕ
  rotate : RotateEnv

/-- `append_record`, from the record on that is written to the open file. -/
def appendBlock (record : JournalRecord) (env : AppendEnv) (card : Card) (w : Writer) : StorageCall :=
  let card := { card with
    current := some (card.current.getD [] ++ env.block.bytes (encodedRecord record).bytes) }
  match env.block with
  | .fails noSpace _ =>
    ⟨some .fail, card, { w with status := if noSpace then .full else .ioError }, false⟩
  | .powerLoss _ => ⟨none, card, w, false⟩
  | .done =>
    let w := (updateCapacity env.capacity { w with
      currentSize := w.currentSize + journalRecordSize
      currentLast := record.sequence
      inventory := w.inventory.see record.sequence }).2
    if storageSegmentLimit ≤ w.currentSize then
      { rotateCurrent env.rotate card w with appended := true }
    else ⟨some .ok, card, w, true⟩

/-- `append_record`. -/
def appendRecord (record : JournalRecord) (env : AppendEnv) (card : Card) (w : Writer) : StorageCall :=
  if w.status ≠ .ready then ⟨some .invalidState, card, w, false⟩
  else
    (if w.bytesFree < storageEmergencyReserve then
        reclaimAcknowledgedSegments deviceId cardId env.reclaim card w
      else ⟨some .ok, card, w, false⟩).andThen
      (fun e w => { w with status := if e = .noMem then .full else .ioError }) fun card w =>
    (if w.opened then ⟨some .ok, card, w, false⟩
      else openCurrent deviceId cardId record env.opened card w).andThen
      (fun _ w => { w with status := .ioError }) fun card w =>
    appendBlock record env card w

/-! ## Starting -/

/-- What `recover_current` meets; `readable` says which bytes of `current.tmp` can be read. -/
structure RecoverEnv where
  opened : Bool
  readable : ℕ → Bool
  positioned : Bool
  truncate : FileOp
  rewound : Bool
  rename : FileOp

/-- How the loop of `recover_current` over the records ends. -/
inductive Recovered
  | whole
  | damaged
  | failed
  deriving DecidableEq

/-- The loop of `recover_current` over the records, with the last sequence that it has read. -/
def recoverLoop (file : CardFile) : ℕ → ℕ → ℕ → Recovered × ℕ
  | 0, _, last => (.whole, last)
  | fuel + 1, offset, last =>
    match file.read offset journalRecordSize with
    | none => (if file.fails offset journalRecordSize then .failed else .whole, last)
    | some block =>
      match decodeOwn deviceId block with
      | none => (.damaged, last)
      | some record => recoverLoop file fuel (offset + journalRecordSize) record.sequence

/-- `rename` of `current.tmp` to a name of a file that is put aside; its error is ignored. -/
def quarantineCurrent (op : FileOp) (card : Card) (w : Writer) : StorageCall :=
  let renamed : Card := { card with
    current := none
    quarantine := card.quarantine ++ card.current.toList }
  match op with
  | .done => ⟨some .ok, renamed, w, false⟩
  | .fails => ⟨some .ok, card, w, false⟩
  | .powerLoss landed => ⟨none, if landed then renamed else card, w, false⟩

/-- The length of the header and the whole records of a file. -/
def validEnd (bytes : List UInt8) : ℕ :=
  journalSegmentHeaderSize +
    (bytes.length - journalSegmentHeaderSize) / journalRecordSize * journalRecordSize

/-- `recover_current`, from the second `fseek` on. -/
def recoverRecords (first : ℕ) (bytes : List UInt8) (env : RecoverEnv) (card : Card) (w : Writer) :
    StorageCall :=
  if !env.rewound then ⟨some .fail, card, w, false⟩
  else
    match recoverLoop deviceId ⟨bytes, env.readable⟩ (bytes.length + 1) journalSegmentHeaderSize
      w.currentLast with
    | (.failed, last) => ⟨some .fail, card, { w with currentLast := last }, false⟩
    | (.damaged, _) =>
      quarantineCurrent env.rename card { w with currentFirst := 0, currentLast := 0, currentSize := 0 }
    | (.whole, last) => ⟨some .ok, card, { w with
        currentFirst := first
        currentLast := last
        currentSize := bytes.length }, false⟩

/-- `recover_current`. -/
def recoverCurrent (env : RecoverEnv) (card : Card) (w : Writer) : StorageCall :=
  match card.current with
  | none => ⟨some .ok, card, w, false⟩
  | some bytes =>
    if !env.opened then ⟨some .fail, card, w, false⟩
    else
      match ownHeader ⟨bytes, env.readable⟩ deviceId cardId with
      | none => quarantineCurrent env.rename card w
      | some header =>
        let rest := bytes.take (validEnd bytes)
        let cut := { card with current := some rest }
        if !env.positioned then ⟨some .fail, card, w, false⟩
        else if validEnd bytes = bytes.length then
          recoverRecords deviceId header.firstSequence bytes env card w
        else
          match env.truncate with
          | .fails => ⟨some .fail, card, w, false⟩
          | .powerLoss landed => ⟨none, if landed then cut else card, w, false⟩
          | .done => recoverRecords deviceId header.firstSequence rest env cut w

/-- What `pm_storage_start` meets. The card is mounted, and its space known, or the call returns. -/
structure StartEnv where
  mounted : Bool
  capacity : Except Failure ℕ
  recover : RecoverEnv
  index : Option Failure
  refreshed : Except Failure ℕ
  taskCreated : Bool

/-- `pm_storage_start`: what it leaves on the card, and its variables if the storage task runs. -/
def pmStorageStart (env : StartEnv) (card : Card) : Card × Option Writer :=
  match env.mounted, env.capacity with
  | true, .ok free =>
    let c := recoverCurrent deviceId cardId env.recover card
      { Writer.zero with status := .ready, bytesFree := free }
    match c.result with
    | none => (c.card, none)
    | some e =>
      let (e, w) := if e = .ok then pmStorageRebuildIndex deviceId cardId env.index c.card c.writer
        else (e, c.writer)
      let w := if e ≠ .ok then { w with status := .corrupt }
        else
          let (e, w) := refreshCapacity env.refreshed w
          if e ≠ .ok then { w with status := .ioError } else w
      (c.card, if env.taskCreated then some w else none)
  | _, _ => (card, none)

/-! ## Runs -/

/-- The card and, while the storage task runs, its variables. -/
structure Journal where
  card : Card
  writer : Option Writer
  /-- The records that `append_record` was called with. -/
  offered : List JournalRecord
  /-- Those that were written and synchronised. -/
  appended : List JournalRecord
  /-- The values that `acknowledged_sequence` has had; it is 0 after a start. -/
  acknowledged : List ℕ

/-- A card without a journal. -/
def Journal.blank : Journal := ⟨⟨none, [], []⟩, none, [], [], [0]⟩

/-- A message to the storage task, a write of the network task to `acknowledged_sequence`, a start,
or the loss of power between two calls. -/
inductive StorageAction
  | start (env : StartEnv)
  | append (record : JournalRecord) (env : AppendEnv)
  | readBatch (directory : List (List UInt8)) (cursor : ℕ) (fault : Option Failure)
  | refreshInventory (fault : Option Failure)
  | refreshCapacity (capacity : Except Failure ℕ)
  | acknowledge (sequence : ℕ)
  | powerLoss

def Journal.step (s : Journal) : StorageAction → Journal
  | .start env =>
    match s.writer with
    | some _ => s
    | none =>
      let (card, writer) := pmStorageStart deviceId cardId env s.card
      { s with card, writer }
  | .append record env =>
    match s.writer with
    | none => s
    | some w =>
      let c := appendRecord deviceId cardId record env s.card w
      { s with
        card := c.card
        writer := c.result.map fun _ => c.writer
        offered := s.offered ++ [record]
        appended := if c.appended then s.appended ++ [record] else s.appended }
  | .readBatch directory cursor fault =>
    { s with writer := s.writer.map fun w =>
        (readBatchOwner deviceId cardId directory cursor fault w).2.2 }
  | .refreshInventory fault =>
    { s with writer := s.writer.map fun w =>
        (pmStorageRebuildIndex deviceId cardId fault s.card w).2 }
  | .refreshCapacity capacity =>
    { s with writer := s.writer.map fun w => (refreshCapacity capacity w).2 }
  | .acknowledge sequence =>
    { s with
      writer := s.writer.map fun w => { w with acknowledgedSequence := sequence }
      acknowledged := s.acknowledged ++ [sequence] }
  | .powerLoss => { s with writer := none }

end

end PowerMonitor.Storage
