import PowerMonitor.Config.Record

/-!
# The configuration store

Two slots and a selector in one NVS namespace, which the first call that opens it for writing makes.
`pm_config_begin` stages a candidate in the slot the selector does not name, `pm_config_commit` and
`pm_config_activate_staged` move the selector, and the discard and erase calls clear the other slot.
`pm_config_load` opens the namespace for reading, and reads the slot the selector names and nothing
else.

Every call takes the fault of each of its steps (`Faults`) and returns an `Outcome`, which also
says which slot a blob write or an erase was issued to (`touched`) and which selector value took
effect (`selected`).
-/

namespace PowerMonitor.Config

open CMemory AbStore

/-! ## Flash and RAM -/

/-- `'A'`. -/
def charA : UInt8 := 0x41
/-- `'B'`. -/
def charB : UInt8 := 0x42

/-- The selector value of a slot. -/
def slotChar : Side → UInt8
  | .a => charA
  | .b => charB

/-- The slot of a selector value. -/
def slotOf (c : UInt8) : Option Side :=
  if c = charA then some .a else if c = charB then some .b else none

@[simp] theorem slotOf_slotChar (side : Side) : slotOf (slotChar side) = some side := by
  cases side <;> decide

theorem slotOf_eq_some {c : UInt8} {side : Side} (h : slotOf c = some side) :
    c = slotChar side := by
  unfold slotOf at h
  split at h
  · next hc => obtain rfl := Option.some.inj h; exact hc
  · split at h
    · next hc => obtain rfl := Option.some.inj h; exact hc
    · cases h

/-- A blob in a slot: a configuration, or bytes of another length. -/
inductive Blob
  | config (c : PmConfig)
  | other (bytes : List UInt8)

/-- The namespace `pm_config` in flash: whether it is there, and its keys. -/
structure Flash where
  made : Bool
  active : Option UInt8
  slots : Slots Blob
  blank : made = false → active = none ∧ slots = Slots.empty

/-- The flash of a device that was never configured. -/
def Flash.fresh : Flash := ⟨false, none, Slots.empty, fun _ => ⟨rfl, rfl⟩⟩

/-- The namespace, made if it was missing. -/
def Flash.make (flash : Flash) : Flash := ⟨true, flash.active, flash.slots, nofun⟩

/-- The flash after `nvs_open` with `NVS_READWRITE`. -/
def Flash.open (flash : Flash) (o : NvsOpen) : Flash := if o.made then flash.make else flash

@[simp] theorem Flash.active_open (flash : Flash) (o : NvsOpen) :
    (flash.open o).active = flash.active := by
  unfold Flash.open
  split <;> rfl

@[simp] theorem Flash.slots_open (flash : Flash) (o : NvsOpen) :
    (flash.open o).slots = flash.slots := by
  unfold Flash.open
  split <;> rfl

/-- `pm_config_stage_t`. -/
inductive Stage
  | none | validated | writtenInactive | readbackVerified | networkTested | committed
  deriving DecidableEq, Repr

/-- `pm_config_transaction_t`. -/
structure Transaction where
  stage : Stage
  candidateGeneration : ℕ
  transactionId : UInt32
  candidateSlot : UInt8
  candidateSha256 : Bytes 32
  deriving DecidableEq

/-- The zeroed transaction. -/
def Transaction.zero : Transaction := ⟨.none, 0, 0, 0, Bytes.zero 32⟩

/-- The flash and the static variables of `pm_config.c`. -/
structure Store where
  flash : Flash
  nextTransactionId : UInt32
  activeTransactionId : UInt32
  mutationInProgress : Bool

/-- The store after a reset: flash stays, the statics are initialised. -/
def Store.boot (flash : Flash) : Store := ⟨flash, 1, 0, false⟩

/-- The faults of one call: its allocation, its NVS calls in order, and the read back. -/
structure Faults where
  mallocOk : Bool
  opened : NvsOpen
  selector : NvsRead
  blob : NvsRead
  write : NvsWrite
  readback : NvsRead

/-- No faults. -/
def Faults.none : Faults := ⟨true, .ok, .ok, .ok, .done, .ok⟩

/-- One call of the store. -/
structure Outcome where
  result : CallEnd
  store : Store
  transaction : Transaction
  /-- The slot a blob write or an erase was issued to. -/
  touched : Option Side
  /-- The slot named by a selector write that took effect. -/
  selected : Option Side

/-- A call that returns without a write. -/
def Store.keep (s : Store) (e : CallEnd) (t : Transaction) : Outcome := ⟨e, s, t, none, none⟩

/-- The store after `nvs_open` with `NVS_READWRITE`. -/
def Store.openFlash (s : Store) (o : NvsOpen) : Store := { s with flash := s.flash.open o }

/-! ## Claims -/

/-- `claim_new_transaction`. -/
def Store.claimNewTransaction (s : Store) : Option (UInt32 × Store) :=
  if s.activeTransactionId = 0 ∧ s.mutationInProgress = false then
    let next := if s.nextTransactionId = 0 then s.nextTransactionId + 1 else s.nextTransactionId
    some (next, { s with
      nextTransactionId := next + 1
      activeTransactionId := next
      mutationInProgress := true })
  else none

/-- `claim_transaction_mutation`. -/
def Store.claimTransactionMutation (s : Store) (id : UInt32) : Option (UInt32 × Store) :=
  if id ≠ 0 ∧ s.activeTransactionId = id ∧ s.mutationInProgress = false then
    some (id, { s with mutationInProgress := true })
  else none

/-- `claim_unowned_mutation`. -/
def Store.claimUnownedMutation (s : Store) : Option Store :=
  if s.activeTransactionId = 0 ∧ s.mutationInProgress = false then
    some { s with mutationInProgress := true }
  else none

/-- `finish_mutation`. -/
def Store.finishMutation (s : Store) : Store := { s with mutationInProgress := false }

/-- `release_transaction`. -/
def Store.releaseTransaction (s : Store) (id : UInt32) : Store :=
  if id ≠ 0 ∧ s.activeTransactionId = id then
    { s with activeTransactionId := 0, mutationInProgress := false }
  else s

/-- `transaction_is_active`. -/
def Store.transactionIsActive (s : Store) (id : UInt32) : Bool :=
  id ≠ 0 && s.activeTransactionId = id && !s.mutationInProgress

/-! ## Reading -/

/-- The end of a call under a fault: the fault's error, or the call itself. -/
def NvsRead.andThen {α : Type} (f : NvsRead) (x : Except CallEnd α) : Except CallEnd α :=
  match f with
  | .ok => x
  | .fails e => .error (some e.1)
  | .powerLoss => .error none

/-- `nvs_get_u8` of the selector. -/
def readSelector (flash : Flash) (f : NvsRead) : Except CallEnd UInt8 :=
  NvsRead.andThen f <| match flash.active with
    | none => .error (some .nvsNotFound)
    | some c => .ok c

/-- What a validated read of a slot's content returns. -/
def slotContent : Option Blob → Except CallEnd PmConfig
  | none => .error (some .nvsNotFound)
  | some (.other bytes) =>
    .error (some (if configBytes < bytes.length then .nvsInvalidLength else .invalidSize))
  | some (.config c) =>
    if pmConfigValidate c false = .ok then .ok c else .error (some (pmConfigValidate c false))

/-- `read_slot`. -/
def readSlot (flash : Flash) (side : Side) (f : NvsRead) : Except CallEnd PmConfig :=
  NvsRead.andThen f (slotContent (flash.slots.get side))

/-- `pm_config_load`, with the faults of `nvs_open`, `nvs_get_u8` and `nvs_get_blob`. The opening
for reading makes no namespace. -/
def pmConfigLoad (flash : Flash) (opened selector blob : NvsRead) : Except CallEnd PmConfig :=
  NvsRead.andThen opened <|
    if !flash.made then .error (some .nvsNotFound)
    else
      match readSelector flash selector with
      | .error e => .error (if e = some .nvsNotFound then some .notFound else e)
      | .ok active =>
        match slotOf active with
        | none => .error (some .invalidState)
        | some side => readSlot flash side blob

/-! ## Staging -/

/-- The slot of a transaction that `pm_config_begin` stages again. -/
def restagingSlot (t : Transaction) : Option Side :=
  if t.stage = .readbackVerified ∧ t.transactionId ≠ 0 then slotOf t.candidateSlot else none

/-- The selector and the error code after the selector read of `pm_config_begin`. A missing selector
counts as `'A'`. -/
def beginSelector : Except CallEnd UInt8 → Except CallEnd (UInt8 × EspErr)
  | .ok c => .ok (c, if c ≠ charA ∧ c ≠ charB then .invalidState else .ok)
  | .error (some e) => .ok (charA, if e = .nvsNotFound then .ok else e)
  | .error none => .error none

/-- The slot `pm_config_begin` writes: that of the transaction it restages, or else the one the
selector does not name. -/
def beginTarget (flash : Flash) (f : NvsRead) (restaging : Option Side) : Except CallEnd Side :=
  match beginSelector (readSelector flash f) with
  | .error e => .error e
  | .ok (active, error) =>
    let inactive := restaging.getD (if active = charA then .b else .a)
    if restaging.isSome ∧ active = slotChar inactive then .error (some .invalidState)
    else if error ≠ .ok then .error (some error)
    else .ok inactive

variable [Sha256]

/-- The transaction of a staged candidate. -/
def stagedTransaction (c : PmConfig) (id : UInt32) (side : Side) : Transaction where
  stage := .readbackVerified
  candidateGeneration := c.generation
  transactionId := id
  candidateSlot := slotChar side
  candidateSha256 := sha256 c.image

/-- The slots after a blob write that may not have taken effect. -/
def Flash.write (flash : Flash) (side : Side) (blob : Option Blob) (w : NvsWrite) : Flash :=
  if w.landed then ⟨true, flash.active, flash.slots.set side blob, nofun⟩ else flash

/-- The result of the read back of `pm_config_begin`. -/
def verifyResult (flash : Flash) (side : Side) (c : PmConfig) (f : NvsRead) : CallEnd :=
  match readSlot flash side f with
  | .error e => e
  | .ok verified => if verified = c then some .ok else some .fail

/-- `pm_config_begin`, from its claim on. -/
def beginClaimed (s : Store) (id : UInt32) (c : PmConfig) (restaging : Option Side) (f : Faults) :
    Outcome :=
  let giveUp (e : CallEnd) (flash : Flash) (touched : Option Side) : Outcome :=
    ⟨e, { s.releaseTransaction id with flash := flash }, Transaction.zero, touched, none⟩
  let opened := s.flash.open f.opened
  match NvsRead.andThen f.opened.read (beginTarget opened f.selector restaging) with
  | .error e => giveUp e opened none
  | .ok side =>
    let flash := opened.write side (some (.config c)) f.write
    if f.write.result = some .ok then
      let verified := verifyResult flash side c f.readback
      if verified = some .ok then
        ⟨some .ok, { s.finishMutation with flash := flash }, stagedTransaction c id side, some side,
          none⟩
      else giveUp verified flash (some side)
    else giveUp f.write.result flash (some side)

/-- `pm_config_begin`. -/
def pmConfigBegin (s : Store) (candidate : PmConfig) (t : Transaction) (f : Faults) : Outcome :=
  if !f.mallocOk then s.keep (some .noMem) t
  else
    let c := staged candidate
    let valid := pmConfigValidate c false
    if valid ≠ .ok then s.keep (some valid) t
    else
      let restaging := restagingSlot t
      let claim := if restaging.isSome then s.claimTransactionMutation t.transactionId
        else s.claimNewTransaction
      match claim with
      | none => s.keep (some .invalidState) t
      | some (id, s') => beginClaimed s' id c restaging f

/-- `pm_config_mark_network_tested`. -/
def pmConfigMarkNetworkTested (s : Store) (t : Transaction) : Outcome :=
  if t.stage ≠ .readbackVerified ∨ s.transactionIsActive t.transactionId = false then
    s.keep (some .invalidState) t
  else s.keep (some .ok) { t with stage := .networkTested }

/-! ## Committing -/

/-- The checks of `pm_config_commit` on the slot it is about to select. -/
def commitCheck (flash : Flash) (side : Side) (t : Transaction) (f : Faults) :
    Except CallEnd Unit :=
  NvsRead.andThen f.opened.read <| match readSlot flash side f.blob with
    | .error e => .error e
    | .ok c =>
      if c.generation ≠ t.candidateGeneration ∨ sha256 c.image ≠ t.candidateSha256 then
        .error (some .invalidState)
      else .ok ()

/-- The selector after a write that may not have taken effect. -/
def Flash.select (flash : Flash) (side : Side) (w : NvsWrite) : Flash :=
  if w.landed then ⟨true, some (slotChar side), flash.slots, nofun⟩ else flash

/-- `pm_config_commit`. -/
def pmConfigCommit (s : Store) (t : Transaction) (f : Faults) : Outcome :=
  match slotOf t.candidateSlot with
  | none => s.keep (some .invalidState) t
  | some side =>
    if t.stage ≠ .networkTested ∨ t.transactionId = 0 then s.keep (some .invalidState) t
    else if !f.mallocOk then s.keep (some .noMem) t
    else
      match s.claimTransactionMutation t.transactionId with
      | none => s.keep (some .invalidState) t
      | some (id, s') =>
        let s' := s'.openFlash f.opened
        let released := s'.releaseTransaction id
        match commitCheck s'.flash side t f with
        | .error e => ⟨e, released, Transaction.zero, none, none⟩
        | .ok () =>
          ⟨f.write.result, { released with flash := s'.flash.select side f.write },
            if f.write.result = some .ok then { Transaction.zero with stage := .committed }
            else Transaction.zero,
            none, if f.write.landed then some side else none⟩

/-- `pm_config_activate_staged`. -/
def pmConfigActivateStaged (s : Store) (slot : UInt8) (expectedGeneration : ℕ) (t : Transaction)
    (f : Faults) : Outcome :=
  match slotOf slot with
  | none => s.keep (some .invalidArg) t
  | some side =>
    if expectedGeneration = 0 then s.keep (some .invalidArg) t
    else if !f.mallocOk then s.keep (some .noMem) t
    else
      match s.claimUnownedMutation with
      | none => s.keep (some .invalidState) t
      | some s' =>
        let s' := s'.openFlash f.opened
        let check : Except CallEnd UInt8 := NvsRead.andThen f.opened.read <|
          match readSlot s'.flash side f.blob with
          | .error e => .error e
          | .ok c =>
            if c.generation ≠ expectedGeneration then .error (some .invalidState)
            else readSelector s'.flash f.selector
        match check with
        | .error e => s'.finishMutation.keep e t
        | .ok active =>
          if active = slot then s'.finishMutation.keep (some .ok) t
          else ⟨f.write.result, { s'.finishMutation with flash := s'.flash.select side f.write }, t,
            none, if f.write.landed then some side else none⟩

/-! ## Discarding -/

/-- The end of a call that may erase the slot `side`. -/
def Store.eraseSlot (s : Store) (side : Side) (t : Transaction) (w : NvsWrite) : Outcome :=
  ⟨w.result, { s.finishMutation with flash := s.flash.write side none w }, t, some side, none⟩

/-- `pm_config_discard_staged`. -/
def pmConfigDiscardStaged (s : Store) (slot : UInt8) (expectedGeneration : ℕ) (t : Transaction)
    (f : Faults) : Outcome :=
  match slotOf slot with
  | none => s.keep (some .invalidArg) t
  | some side =>
    if expectedGeneration = 0 then s.keep (some .invalidArg) t
    else if !f.mallocOk then s.keep (some .noMem) t
    else
      match s.claimUnownedMutation with
      | none => s.keep (some .invalidState) t
      | some s' =>
        let s' := s'.openFlash f.opened
        match NvsRead.andThen f.opened.read (readSelector s'.flash f.selector) with
        | .error e => s'.finishMutation.keep e t
        | .ok active =>
          if active = slot then s'.finishMutation.keep (some .invalidState) t
          else
            match readSlot s'.flash side f.blob with
            | .error e =>
              s'.finishMutation.keep (if e = some .nvsNotFound then some .ok else e) t
            | .ok c =>
              if c.generation ≠ expectedGeneration then
                s'.finishMutation.keep (some .invalidState) t
              else s'.eraseSlot side t f.write

/-- The slot the selector does not name. -/
def inactiveSide (flash : Flash) (f : Faults) : Except CallEnd Side :=
  NvsRead.andThen f.opened.read <| match readSelector flash f.selector with
    | .error e => .error e
    | .ok active =>
      match slotOf active with
      | none => .error (some .invalidState)
      | some side => .ok side.other

/-- `pm_config_discard_inactive_generation`. -/
def pmConfigDiscardInactiveGeneration (s : Store) (expectedGeneration : ℕ) (t : Transaction)
    (f : Faults) : Outcome :=
  if expectedGeneration = 0 then s.keep (some .invalidArg) t
  else if !f.mallocOk then s.keep (some .noMem) t
  else
    match s.claimUnownedMutation with
    | none => s.keep (some .invalidState) t
    | some s' =>
      let s' := s'.openFlash f.opened
      match inactiveSide s'.flash f with
      | .error e => s'.finishMutation.keep e t
      | .ok side =>
        match readSlot s'.flash side f.blob with
        | .error e => s'.finishMutation.keep (if e = some .nvsNotFound then some .ok else e) t
        | .ok c =>
          if c.generation ≠ expectedGeneration then s'.finishMutation.keep (some .ok) t
          else s'.eraseSlot side t f.write

/-- `pm_config_erase_inactive`. Erasing a missing key answers `ESP_ERR_NVS_NOT_FOUND`, which the
call takes for success before it commits. -/
def pmConfigEraseInactive (s : Store) (t : Transaction) (f : Faults) : Outcome :=
  match s.claimUnownedMutation with
  | none => s.keep (some .invalidState) t
  | some s' =>
    let s' := s'.openFlash f.opened
    match inactiveSide s'.flash f with
    | .error e => s'.finishMutation.keep e t
    | .ok side =>
      let o := s'.eraseSlot side t f.write
      { o with result := if o.result = some .nvsNotFound then some .ok else o.result }

/-- `pm_config_abort`. -/
def pmConfigAbort (s : Store) (t : Transaction) : Outcome :=
  (s.releaseTransaction t.transactionId).keep (some .ok) Transaction.zero

end PowerMonitor.Config
