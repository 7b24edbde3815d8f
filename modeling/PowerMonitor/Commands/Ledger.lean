import Mathlib.Algebra.GroupWithZero.Nat
import Mathlib.Data.Fintype.Basic
import Mathlib.Data.Fintype.Pi
import PowerMonitor.Esp
import PowerMonitor.Config.Crc32

/-!
# The command ledger

The data of `pm_commands.h` and the checks of `pm_commands.c`: a command as the firmware stores it,
the ledger of eight commands with its generation, the memory layout the checksums read, and
`command_valid` and `ledger_valid`, which decide whether a stored ledger is accepted at boot.

`Sound` is `command_valid` without the checksum. It is what the operations of the ledger maintain in
RAM, where checksums are only brought up to date by `persist`; `ledgerValid_of_sound` is the step
from one to the other.
-/

namespace PowerMonitor.Commands

open CMemory Config

/-- `pm_command_type_t`; `other` is a value outside the enumeration. -/
inductive CommandType
  | reboot | reserved1 | reserved2 | diagnosticsSnapshot | networkSelfTest | meterSelfTest
  | reserved6 | reserved7 | reserved8 | reserved9 | reserved10 | otaInstall
  | reserved12 | reserved13 | reserved14
  | other (value : ℕ)
  deriving DecidableEq, Repr

namespace CommandType

/-- The value of the enumerator. -/
def value : CommandType → ℕ
  | reboot => 0 | reserved1 => 1 | reserved2 => 2 | diagnosticsSnapshot => 3
  | networkSelfTest => 4 | meterSelfTest => 5 | reserved6 => 6 | reserved7 => 7
  | reserved8 => 8 | reserved9 => 9 | reserved10 => 10 | otaInstall => 11
  | reserved12 => 12 | reserved13 => 13 | reserved14 => 14 | other v => v

/-- `type < PM_COMMAND_TYPE_COUNT`. -/
def inRange : CommandType → Bool
  | other _ => false
  | _ => true

end CommandType

/-- `pm_command_state_t`; `other` is a value outside the enumeration. -/
inductive CommandState
  | queued | delivered | accepted | running | succeeded | failed | expired | cancelled
  | superseded | awaitingReboot | awaitingHeartbeat | rolledBack
  | other (value : ℕ)
  deriving DecidableEq, Repr

namespace CommandState

/-- The value of the enumerator. -/
def value : CommandState → ℕ
  | queued => 0 | delivered => 1 | accepted => 2 | running => 3 | succeeded => 4 | failed => 5
  | expired => 6 | cancelled => 7 | superseded => 8 | awaitingReboot => 9
  | awaitingHeartbeat => 10 | rolledBack => 11 | other v => v

/-- `state <= PM_COMMAND_ROLLED_BACK`. -/
def inRange : CommandState → Bool
  | other _ => false
  | _ => true

/-- `command_terminal`. -/
def terminal : CommandState → Bool
  | succeeded | failed | expired | cancelled | superseded | rolledBack => true
  | _ => false

end CommandState

/-- `pm_command_t`. -/
structure Command where
  commandId : Bytes 37
  idempotencyKey : Bytes 101
  type : CommandType
  state : CommandState
  issuedUtcMs : ℤ
  notBeforeUtcMs : ℤ
  expiresUtcMs : ℤ
  progressPercent : ℕ
  attempt : ℕ
  resultAckRequired : Bool
  payloadRedacted : Bool
  payloadSha256 : Bytes 32
  payload : Bytes 1537
  resultText : Bytes 161
  evidenceJson : Bytes 385
  resultCode : ℤ
  crc32 : UInt32
  deriving DecidableEq

/-- `(pm_command_t){0}`. -/
def Command.zero : Command where
  commandId := Bytes.zero 37
  idempotencyKey := Bytes.zero 101
  type := .reboot
  state := .queued
  issuedUtcMs := 0
  notBeforeUtcMs := 0
  expiresUtcMs := 0
  progressPercent := 0
  attempt := 0
  resultAckRequired := false
  payloadRedacted := false
  payloadSha256 := Bytes.zero 32
  payload := Bytes.zero 1537
  resultText := Bytes.zero 161
  evidenceJson := Bytes.zero 385
  resultCode := 0
  crc32 := 0

/-- `command->command_id[0] != '\0'`: the entry holds a command. -/
def Command.occupied (c : Command) : Bool := !c.commandId.firstIsNul

/-- The memory of a command before its `crc32`, padding included. -/
def Command.memory (c : Command) : List UInt8 :=
  c.commandId.bytes ++ c.idempotencyKey.bytes ++ le 2 0 ++ le 4 c.type.value ++
  le 4 c.state.value ++ le 4 0 ++ leInt 8 c.issuedUtcMs ++ leInt 8 c.notBeforeUtcMs ++
  leInt 8 c.expiresUtcMs ++ le 1 c.progressPercent ++ le 1 c.attempt ++
  leBool c.resultAckRequired ++ leBool c.payloadRedacted ++ c.payloadSha256.bytes ++
  c.payload.bytes ++ c.resultText.bytes ++ c.evidenceJson.bytes ++ le 1 0 ++
  leInt 4 c.resultCode

/-- `PM_COMMAND_LEDGER_SIZE`. -/
abbrev ledgerSize : ℕ := 8

theorem ledgerSize_ne_zero : ledgerSize ≠ 0 := by decide

instance : NeZero ledgerSize := ⟨ledgerSize_ne_zero⟩

/-- A pointer to an entry of the ledger. -/
abbrev EntryIndex := Fin ledgerSize

/-- `pm_command_ledger_t`. -/
structure Ledger where
  entries : EntryIndex → Command
  generation : ℕ
  next : ℕ
  crc32 : UInt32
  deriving DecidableEq

/-- `(pm_command_ledger_t){0}`. -/
def Ledger.zero : Ledger := ⟨fun _ => Command.zero, 0, 0, 0⟩

/-- The memory of a ledger before its `crc32`, padding included. -/
def Ledger.memory (l : Ledger) : List UInt8 :=
  (List.finRange ledgerSize).flatMap (fun i => (l.entries i).memory ++ le 4 (l.entries i).crc32.toNat)
    ++ le 4 l.generation ++ le 1 l.next ++ le 3 0

/-- Assignment through a pointer to an entry. -/
def Ledger.setEntry (l : Ledger) (i : EntryIndex) (c : Command) : Ledger :=
  { l with entries := Function.update l.entries i c }

namespace Ledger

variable (l : Ledger) (i j : EntryIndex) (c : Command)

@[simp] theorem setEntry_entries : (l.setEntry i c).entries = Function.update l.entries i c := rfl
@[simp] theorem setEntry_generation : (l.setEntry i c).generation = l.generation := rfl
@[simp] theorem setEntry_next : (l.setEntry i c).next = l.next := rfl
@[simp] theorem setEntry_crc32 : (l.setEntry i c).crc32 = l.crc32 := rfl

end Ledger

/-- `command_crc`. -/
def commandCrc (c : Command) : UInt32 := pmCrc32Ieee c.memory

/-- `ledger_crc`. -/
def ledgerCrc (l : Ledger) : UInt32 := pmCrc32Ieee l.memory

/-! ## Stamping -/

/-- `persist` before it opens NVS: the next generation, with every checksum recomputed. -/
def stamp (l : Ledger) : Ledger :=
  let entries := fun i =>
    if (l.entries i).occupied then { l.entries i with crc32 := commandCrc (l.entries i) }
    else l.entries i
  let bumped : Ledger := { l with entries := entries, generation := l.generation + 1 }
  { bumped with crc32 := ledgerCrc bumped }

/-- Every checksum of a command is current. -/
def CrcsCurrent (l : Ledger) : Prop :=
  ∀ i, (l.entries i).occupied = true → (l.entries i).crc32 = commandCrc (l.entries i)

@[simp] theorem stamp_generation (l : Ledger) : (stamp l).generation = l.generation + 1 := rfl

@[simp] theorem stamp_next (l : Ledger) : (stamp l).next = l.next := rfl

theorem stamp_entries (l : Ledger) (i : EntryIndex) :
    (stamp l).entries i = if (l.entries i).occupied then
      { l.entries i with crc32 := commandCrc (l.entries i) } else l.entries i := rfl

@[simp] theorem stamp_occupied (l : Ledger) (i : EntryIndex) :
    ((stamp l).entries i).occupied = (l.entries i).occupied := by
  rw [stamp_entries]
  split <;> rfl

theorem crcsCurrent_stamp (l : Ledger) : CrcsCurrent (stamp l) := by
  intro i hi
  rw [stamp_occupied] at hi
  rw [stamp_entries, if_pos hi]
  rfl

/-! ## Checks -/

variable [Sha256]

/-- The payload is terminated, and it is either cleared and marked redacted or the text the digest
was taken of. -/
def payloadValid (c : Command) : Bool :=
  c.payload.terminated &&
    (if c.payloadRedacted then c.payload.cleared else sha256 c.payload.str = c.payloadSha256)

/-- The fields of `command_valid` other than the checksum. -/
def Sound (c : Command) : Bool :=
  c.type.inRange && c.state.inRange && decide (c.progressPercent ≤ 100) &&
    (!c.resultAckRequired || c.state = .succeeded) && payloadValid c

/-- `command_valid`. -/
def commandValid (c : Command) : Bool :=
  c.occupied && Sound c && c.crc32 = commandCrc c

/-- `ledger_valid`. -/
def ledgerValid (l : Ledger) : Bool :=
  decide (l.next < ledgerSize) && l.crc32 = ledgerCrc l &&
    decide (∀ i, (l.entries i).occupied = true → commandValid (l.entries i) = true)

/-- What the operations maintain in RAM: the ring index is in range and every command is sound. -/
structure LedgerSound (l : Ledger) : Prop where
  next_lt : l.next < ledgerSize
  sound : ∀ i, (l.entries i).occupied = true → Sound (l.entries i) = true

theorem LedgerSound.stamp {l : Ledger} (h : LedgerSound l) : LedgerSound (stamp l) := by
  refine ⟨h.next_lt, fun i hi => ?_⟩
  rw [stamp_occupied] at hi
  rw [stamp_entries, if_pos hi]
  exact h.sound i hi

/-- **What `persist` writes, the loader accepts**, as long as the ledger in RAM is sound. -/
theorem ledgerValid_stamp {l : Ledger} (h : LedgerSound l) : ledgerValid (stamp l) = true := by
  have hs := h.stamp
  have hc := crcsCurrent_stamp l
  have hcrc : (stamp l).crc32 = ledgerCrc (stamp l) := rfl
  simp only [ledgerValid, Bool.and_eq_true, decide_eq_true_eq]
  refine ⟨⟨hs.next_lt, hcrc⟩, fun i hi => ?_⟩
  simp only [commandValid, Bool.and_eq_true, decide_eq_true_eq]
  exact ⟨⟨hi, hs.sound i hi⟩, hc i hi⟩

theorem ledgerSound_of_valid {l : Ledger} (h : ledgerValid l = true) :
    LedgerSound l ∧ CrcsCurrent l := by
  simp only [ledgerValid, Bool.and_eq_true, decide_eq_true_eq] at h
  obtain ⟨⟨hn, -⟩, hv⟩ := h
  refine ⟨⟨hn, fun i hi => ?_⟩, fun i hi => ?_⟩ <;>
    have hc := hv i hi <;>
    simp only [commandValid, Bool.and_eq_true, decide_eq_true_eq] at hc
  · exact hc.1.2
  · exact hc.2

theorem ledgerSound_zero : LedgerSound Ledger.zero := by
  refine ⟨by decide, fun i hi => ?_⟩
  have : (Ledger.zero.entries i).occupied = false := by
    change Command.zero.occupied = false
    decide
  rw [this] at hi
  cases hi

end PowerMonitor.Commands
