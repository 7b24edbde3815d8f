import PowerMonitor.Commands.Store

/-!
# The operations of the ledger

`pm_command_accept`, `pm_command_transition`, `pm_command_acknowledge_result`,
`pm_command_zeroize_payload` and `pm_command_reconcile_boot`, with their refusals, their single
`persist` and what each of them undoes in RAM when that persist fails; and `pm_command_boot_action`.

Every operation takes the slots and the fault its persist meets, and returns an `Outcome`: its
result, the ledger in RAM and the slots afterwards, and the persist call it made, if any. The
mutex is not part of a single operation; the interleavings it leaves are those of `Runtime`.
-/

namespace PowerMonitor.Commands

open CMemory AbStore

variable [Sha256]

/-- One call of a ledger operation. -/
structure Outcome where
  result : CallEnd
  ledger : Ledger
  nvs : Slots Ledger
  /-- The `persist` call the operation made. -/
  persisted : Option Persisted

/-- An operation that returns before it changes anything. -/
def refuse (e : EspErr) (l : Ledger) (nvs : Slots Ledger) : Outcome := ⟨some e, l, nvs, none⟩

/-! ## Accepting -/

/-- The entry has the identity or the idempotency key of the incoming command. -/
def sameCommand (c incoming : Command) : Bool :=
  c.commandId.str = incoming.commandId.str || c.idempotencyKey.str = incoming.idempotencyKey.str

/-- The first entry with the identity or the key of the incoming command. -/
def findDuplicate (l : Ledger) (incoming : Command) : Option EntryIndex :=
  (List.finRange ledgerSize).find? fun i => sameCommand (l.entries i) incoming

/-- The entry may be reused: it is empty, or terminal with no acknowledgement due. -/
def reusable (c : Command) : Bool := !c.occupied || (c.state.terminal && !c.resultAckRequired)

/-- `(ledger->next + offset) % PM_COMMAND_LEDGER_SIZE`. -/
def ringIndex (l : Ledger) (offset : ℕ) : EntryIndex :=
  ⟨(l.next + offset) % ledgerSize, Nat.mod_lt _ (by decide)⟩

/-- The entry a new command is stored in: the first reusable one from `next` on. -/
def selectEntry (l : Ledger) : Option EntryIndex :=
  ((List.range ledgerSize).map (ringIndex l)).find? fun i => reusable (l.entries i)

/-- The command `pm_command_accept` stores for `incoming`. -/
def acceptedCommand (incoming : Command) (nowUtcMs : ℤ) : Command :=
  let candidate := { incoming with
    payloadSha256 := sha256 incoming.payload.str
    payloadRedacted := false
    state := if nowUtcMs > incoming.expiresUtcMs then .expired else .accepted
    progressPercent := 0 }
  { candidate with crc32 := commandCrc candidate }

/-- The arguments `command_accept_locked` refuses outright. -/
def acceptRefused (incoming : Command) : Bool :=
  incoming.commandId.firstIsNul || incoming.idempotencyKey.firstIsNul || !incoming.type.inRange ||
    !incoming.payload.terminated

/-- The ledger handed to `persist` when the command is stored in entry `i`. -/
def storeCommand (l : Ledger) (i : EntryIndex) (c : Command) : Ledger :=
  { l.setEntry i c with next := (i.val + 1) % ledgerSize }

/-- A call of `pm_command_accept`: the outcome and what it wrote through `stored` and
`duplicate`. -/
structure Accepted where
  outcome : Outcome
  stored : Option EntryIndex
  duplicate : Bool

/-- `command_accept_locked`; `mallocOk` says whether the copy of the replaced entry could be
allocated. -/
def commandAccept (l : Ledger) (incoming : Command) (nowUtcMs : ℤ) (mallocOk : Bool)
    (nvs : Slots Ledger) (f : LedgerFault) : Accepted :=
  if acceptRefused incoming then ⟨refuse .invalidArg l nvs, none, false⟩
  else
    match findDuplicate l incoming with
    | some i =>
      if (l.entries i).type = incoming.type ∧
          (l.entries i).payloadSha256 = sha256 incoming.payload.str then
        ⟨refuse .ok l nvs, some i, true⟩
      else ⟨refuse .invalidCrc l nvs, none, false⟩
    | none =>
      let candidate := acceptedCommand incoming nowUtcMs
      match selectEntry l with
      | none => ⟨refuse .noMem l nvs, none, false⟩
      | some i =>
        if !mallocOk then ⟨refuse .noMem l nvs, none, false⟩
        else
          let p := persist (storeCommand l i candidate) nvs f
          if p.result = some .ok then
            ⟨⟨some (if candidate.state = .expired then .timeout else .ok), p.ledger, p.nvs,
              some p⟩, some i, false⟩
          else
            -- the entry, the ring index, the generation and the checksum are put back
            ⟨⟨p.result, { p.ledger.setEntry i (l.entries i) with
                next := l.next, generation := l.generation, crc32 := l.crc32 }, p.nvs, some p⟩,
              none, false⟩

/-! ## The other operations -/

/-- Undo of a single entry after a failed persist: the entry, the generation and the checksum. -/
def undoEntry (before after : Ledger) (i : EntryIndex) : Ledger :=
  { after.setEntry i (before.entries i) with
    generation := before.generation, crc32 := before.crc32 }

/-- Persist a change of one entry, undoing it in RAM when the persist fails. -/
def persistEntry (l : Ledger) (i : EntryIndex) (c : Command) (nvs : Slots Ledger)
    (f : LedgerFault) : Outcome :=
  let p := persist (l.setEntry i c) nvs f
  ⟨p.result, if p.result = some .ok then p.ledger else undoEntry l p.ledger i, p.nvs, some p⟩

/-- The states `command_transition_locked` treats as final; unlike `command_terminal` it leaves out
`PM_COMMAND_SUPERSEDED`. -/
def transitionFinal : CommandState → Bool
  | .succeeded | .failed | .expired | .cancelled | .rolledBack => true
  | _ => false

/-- The arguments `command_transition_locked` refuses. -/
def transitionRefused (c : Command) (state : CommandState) (progressPercent : ℕ) : Option EspErr :=
  if !state.inRange || decide (100 < progressPercent) ||
      decide (progressPercent < c.progressPercent) then some .invalidArg
  else if transitionFinal c.state && state ≠ c.state then some .invalidState
  else none

/-- `command_transition_locked`. -/
def commandTransition (l : Ledger) (i : EntryIndex) (state : CommandState) (progressPercent : ℕ)
    (resultCode : ℤ) (mallocOk : Bool) (nvs : Slots Ledger) (f : LedgerFault) : Outcome :=
  match transitionRefused (l.entries i) state progressPercent with
  | some e => refuse e l nvs
  | none =>
    if !mallocOk then refuse .noMem l nvs
    else persistEntry l i { l.entries i with
      state := state, progressPercent := progressPercent, resultCode := resultCode } nvs f

/-- Undo of an acknowledgement after a failed persist. The entry is not copied beforehand: the flag
and the checksum of the entry, the generation and the checksum of the ledger are put back. -/
def undoAcknowledge (before after : Ledger) (i : EntryIndex) : Ledger :=
  { after.setEntry i { after.entries i with
      resultAckRequired := true, crc32 := (before.entries i).crc32 } with
    generation := before.generation, crc32 := before.crc32 }

/-- `command_acknowledge_result_locked`. -/
def commandAcknowledgeResult (l : Ledger) (commandId : List UInt8) (nvs : Slots Ledger)
    (f : LedgerFault) : Outcome :=
  if commandId.length ≠ 36 then refuse .invalidArg l nvs
  else
    match (List.finRange ledgerSize).find? fun i => (l.entries i).commandId.str = commandId with
    | none => refuse .notFound l nvs
    | some i =>
      if (l.entries i).state ≠ .succeeded then refuse .invalidState l nvs
      else if !(l.entries i).resultAckRequired then refuse .ok l nvs
      else
        let p := persist (l.setEntry i { l.entries i with resultAckRequired := false }) nvs f
        ⟨p.result, if p.result = some .ok then p.ledger else undoAcknowledge l p.ledger i, p.nvs,
          some p⟩

/-- `command_zeroize_payload_locked`. A failed persist is not undone: the redaction stays, and so
does the generation `persist` has advanced. -/
def commandZeroizePayload (l : Ledger) (i : EntryIndex) (nvs : Slots Ledger) (f : LedgerFault) :
    Outcome :=
  if !(l.entries i).occupied then refuse .invalidArg l nvs
  else
    let redacted := if (l.entries i).payloadRedacted then l else
      l.setEntry i { l.entries i with payload := Bytes.zero 1537, payloadRedacted := true }
    let p := persist redacted nvs f
    ⟨p.result, p.ledger, p.nvs, some p⟩

/-- The states boot reconciliation may move a command to. -/
def reconcilable : CommandState → Bool
  | .succeeded | .failed | .rolledBack => true
  | _ => false

/-- `command_reconcile_boot_locked`. -/
def commandReconcileBoot (l : Ledger) (i : EntryIndex) (state : CommandState) (resultCode : ℤ)
    (resultText : List UInt8) (mallocOk : Bool) (nvs : Slots Ledger) (f : LedgerFault) : Outcome :=
  if decide (160 < resultText.length) || !reconcilable state || (l.entries i).state.terminal then
    refuse .invalidArg l nvs
  else if !mallocOk then refuse .noMem l nvs
  else persistEntry l i { l.entries i with
    state := state
    progressPercent := if state = .succeeded then 100 else (l.entries i).progressPercent
    resultCode := resultCode
    resultText := (l.entries i).resultText.print resultText
    evidenceJson := (l.entries i).evidenceJson.clearFirst } nvs f

/-! ## Boot -/

/-- `pm_command_boot_action_t`; `PM_COMMAND_BOOT_COMPLETE_WAKE` is never returned. -/
inductive BootAction
  | ignore | requeue | failInterrupted | completeReboot | reconcileOta
  deriving DecidableEq, Repr

/-- `pm_command_boot_action`. -/
def commandBootAction (c : Command) : BootAction :=
  if !c.type.inRange then .ignore
  else match c.state with
    | .accepted | .running =>
      -- an OTA that was running is settled from its checkpoint, never replayed
      if c.state = .running ∧ c.type = .otaInstall then .reconcileOta
      else match c.type with
        | .diagnosticsSnapshot | .networkSelfTest | .meterSelfTest => .requeue
        | _ => .failInterrupted
    | .awaitingReboot =>
      match c.type with
      | .reboot => .completeReboot
      | .otaInstall => .reconcileOta
      | _ => .failInterrupted
    | .awaitingHeartbeat => .failInterrupted
    | _ => .ignore

end PowerMonitor.Commands
