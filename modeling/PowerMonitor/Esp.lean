import Mathlib.Data.Int.Notation
import PowerMonitor.Foundations.AbStore
import PowerMonitor.Foundations.Base64Text
import PowerMonitor.Foundations.CMemory
import PowerMonitor.Foundations.Sha2

/-!
# What the firmware takes from ESP-IDF

The error codes of `esp_err.h` and `nvs.h`, the failures a call into ESP-IDF can report, and the
SHA-256 of the PSA crypto library and the Base64 decoder of mbedTLS, which the model takes as given
functions.
-/

namespace PowerMonitor

open CMemory

/-- `esp_err_t`. -/
structure EspErr where
  code : ℤ
  deriving DecidableEq, Repr

namespace EspErr

/-- `ESP_OK`. -/
def ok : EspErr := ⟨0⟩
/-- `ESP_FAIL`. -/
def fail : EspErr := ⟨-1⟩
/-- `ESP_ERR_NO_MEM`. -/
def noMem : EspErr := ⟨0x101⟩
/-- `ESP_ERR_INVALID_ARG`. -/
def invalidArg : EspErr := ⟨0x102⟩
/-- `ESP_ERR_INVALID_STATE`. -/
def invalidState : EspErr := ⟨0x103⟩
/-- `ESP_ERR_INVALID_SIZE`. -/
def invalidSize : EspErr := ⟨0x104⟩
/-- `ESP_ERR_NOT_FOUND`. -/
def notFound : EspErr := ⟨0x105⟩
/-- `ESP_ERR_NOT_SUPPORTED`. -/
def notSupported : EspErr := ⟨0x106⟩
/-- `ESP_ERR_TIMEOUT`. -/
def timeout : EspErr := ⟨0x107⟩
/-- `ESP_ERR_INVALID_RESPONSE`. -/
def invalidResponse : EspErr := ⟨0x108⟩
/-- `ESP_ERR_INVALID_CRC`. -/
def invalidCrc : EspErr := ⟨0x109⟩
/-- `ESP_ERR_INVALID_MAC`. -/
def invalidMac : EspErr := ⟨0x10b⟩
/-- `ESP_ERR_NVS_NOT_FOUND`. -/
def nvsNotFound : EspErr := ⟨0x1102⟩
/-- `ESP_ERR_NVS_INVALID_LENGTH`. -/
def nvsInvalidLength : EspErr := ⟨0x110c⟩
/-- `ESP_ERR_HTTP_INCOMPLETE_DATA`. -/
def httpIncompleteData : EspErr := ⟨0x700c⟩

end EspErr

/-- The code of a call that did not return `ESP_OK`. -/
abbrev Failure := { e : EspErr // e ≠ EspErr.ok }

/-- `ESP_FAIL`, as the code of a failed call. -/
def Failure.generic : Failure := ⟨EspErr.fail, by decide⟩

/-- `ESP_ERR_INVALID_RESPONSE`, as the code of a failed call. -/
def Failure.invalidResponse : Failure := ⟨EspErr.invalidResponse, by decide⟩

/-- The result of a call during which power may be lost: `none` when it is. -/
abbrev CallEnd := Option EspErr

/-! ## NVS -/

/-- How an NVS call that writes nothing ends. `ESP_ERR_NVS_NOT_FOUND` is not among the failures: it
is the answer to a read of a missing key and to the opening of a missing namespace with
`NVS_READONLY`, which depend on the flash. -/
inductive NvsRead
  | ok
  | fails (e : { e : EspErr // e ≠ .ok ∧ e ≠ .nvsNotFound })
  | powerLoss

/-- How `nvs_open` with `NVS_READWRITE` ends. It makes a missing namespace, and `made` says whether
it did when it does not succeed. -/
inductive NvsOpen
  | ok
  | fails (e : { e : EspErr // e ≠ .ok ∧ e ≠ .nvsNotFound }) (made : Bool)
  | powerLoss (made : Bool)

/-- Whether the namespace is there after the call. -/
def NvsOpen.made : NvsOpen → Bool
  | ok => true
  | fails _ m | powerLoss m => m

/-- The end of the call, whatever it made. -/
def NvsOpen.read : NvsOpen → NvsRead
  | ok => .ok
  | fails e _ => .fails e
  | powerLoss _ => .powerLoss

/-- How an NVS write and the `nvs_commit` after it end. A write takes effect as a whole or not at
all, and `landed` says which when one of the two calls does not succeed. -/
inductive NvsWrite
  | done
  | writeFails (e : Failure) (landed : Bool)
  | commitFails (e : Failure) (landed : Bool)
  | powerLoss (landed : Bool)

/-- Whether the write took effect. -/
def NvsWrite.landed : NvsWrite → Bool
  | done => true
  | writeFails _ l | commitFails _ l | powerLoss l => l

/-- What the two calls returned. -/
def NvsWrite.result : NvsWrite → CallEnd
  | done => some .ok
  | writeFails e _ | commitFails e _ => some e.1
  | powerLoss _ => none

theorem NvsWrite.landed_of_ok {w : NvsWrite} (h : w.result = some .ok) : w.landed = true := by
  cases w with
  | done => rfl
  | writeFails e l => exact absurd (Option.some.inj h) e.2
  | commitFails e l => exact absurd (Option.some.inj h) e.2
  | powerLoss l => cases h

/-- `UINT32_MAX`. -/
def uint32Max : ℕ := 2 ^ 32 - 1

/-- The SHA-256 of the crypto library. -/
class Sha256 where
  sha256 : List UInt8 → Bytes 32

export Sha256 (sha256)

/-- SHA-256 as it is standardised. -/
@[reducible] def Sha256.standard : Sha256 := ⟨Sha2.digest⟩

/-- The Base64 decoder of mbedTLS. -/
class Base64 where
  base64Decode : List UInt8 → Option (List UInt8)

export Base64 (base64Decode)

/-- Base64 as it is standardised. -/
@[reducible] def Base64.standard : Base64 := ⟨Base64Text.decode⟩

end PowerMonitor
