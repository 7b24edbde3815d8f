import PowerMonitor.Commands.Ledger

/-!
# The commands of a telemetry response

`parse_commands` skips every item of the `commands` array that fails one of its checks, and builds a
zeroed `pm_command_t` from each other one. `CommandItem` is an item that passed the checks, with
what they establish as fields, and `parsedCommand` is the command built from it.
-/

namespace PowerMonitor.Commands

open CMemory

/-- `command_supported`: the types `pm_command_type_from_name` knows. -/
def commandSupported : CommandType → Bool
  | .reboot | .diagnosticsSnapshot | .networkSelfTest | .meterSelfTest | .otaInstall => true
  | _ => false

/-- An item of the `commands` array that `parse_commands` does not skip. -/
structure CommandItem where
  commandId : List UInt8
  idempotencyKey : List UInt8
  type : CommandType
  notBeforeUtcMs : ℤ
  expiresUtcMs : ℤ
  attempt : ℕ
  /-- The payload object as `cJSON_PrintUnformatted` writes it. -/
  payload : List UInt8
  commandId_length : commandId.length = 36
  commandId_text : 0 ∉ commandId
  idempotencyKey_length : 0 < idempotencyKey.length ∧ idempotencyKey.length ≤ 100
  idempotencyKey_text : 0 ∉ idempotencyKey
  supported : commandSupported type = true
  window : notBeforeUtcMs < expiresUtcMs
  attempt_le : attempt ≤ 255
  payload_length : payload.length ≤ 1536
  payload_text : 0 ∉ payload

/-- The command `parse_commands` builds at time `issued` from a zeroed `pm_command_t`. -/
def parsedCommand (item : CommandItem) (issued : ℤ) : Command :=
  { Command.zero with
    commandId := (Bytes.zero 37).print item.commandId
    idempotencyKey := (Bytes.zero 101).print item.idempotencyKey
    type := item.type
    issuedUtcMs := issued
    notBeforeUtcMs := item.notBeforeUtcMs
    expiresUtcMs := item.expiresUtcMs
    attempt := item.attempt
    payload := (Bytes.zero 1537).print item.payload }

variable (item : CommandItem) (issued : ℤ)

@[simp] theorem parsedCommand_commandId_str :
    (parsedCommand item issued).commandId.str = item.commandId :=
  Bytes.str_print item.commandId_text item.commandId_length.le

@[simp] theorem parsedCommand_payload_str :
    (parsedCommand item issued).payload.str = item.payload :=
  Bytes.str_print item.payload_text item.payload_length

@[simp] theorem parsedCommand_type : (parsedCommand item issued).type = item.type := rfl

/-- The command is built from a zeroed `pm_command_t`, in which no acknowledgement is due. -/
@[simp] theorem parsedCommand_resultAckRequired :
    (parsedCommand item issued).resultAckRequired = false := rfl

theorem one_ne_nul : (1 : UInt8) ≠ 0 := by decide

theorem two_ne_nul : (2 : UInt8) ≠ 0 := by decide

theorem three_ne_nul : (3 : UInt8) ≠ 0 := by decide

/-- An item whose identity and key repeat one nonzero byte. -/
def CommandItem.sample (type : CommandType) (supported : commandSupported type = true) (byte : UInt8)
    (hbyte : byte ≠ 0) : CommandItem where
  commandId := List.replicate 36 byte
  idempotencyKey := [byte]
  type := type
  notBeforeUtcMs := 0
  expiresUtcMs := 1000000
  attempt := 0
  payload := [0x7b, 0x7d]
  commandId_length := by simp
  commandId_text := by simpa using hbyte.symm
  idempotencyKey_length := by simp
  idempotencyKey_text := by simpa using hbyte.symm
  supported := supported
  window := by decide
  attempt_le := by decide
  payload_length := by decide
  payload_text := by decide

end PowerMonitor.Commands
