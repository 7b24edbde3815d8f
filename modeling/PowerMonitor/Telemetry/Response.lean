import PowerMonitor.Commands.Incoming
import PowerMonitor.Protocol.Canonical
import PowerMonitor.Telemetry.Slot
import PowerMonitor.Telemetry.Timestamp

/-!
# The telemetry response

What the network task reads out of a verified response: `validate_telemetry_response` checks that it
answers the sample in flight and takes the cadence from it, `parse_commands` takes the commands, and
`notify_result_acceptance` takes the identities of the acknowledged results from the request.
-/

namespace PowerMonitor.Telemetry

open CMemory CJson CText Commands Protocol

/-- `PM_TELEMETRY_PROTOCOL_ID`. -/
def telemetryProtocolId : List UInt8 := ascii "pm-telemetry/2.0.0"

/-! ## Lookups -/

/-- A member of a value that may be missing. -/
def member (j : Option Json) (name : String) : Option Json := j.bind fun j => j.item name

/-- A C string. -/
abbrev Text := { t : List UInt8 // 0 ∉ t }

/-- The C string in a text. -/
def Text.of (t : List UInt8) : Text :=
  ⟨t.takeWhile (· != 0), fun h => by simpa using List.mem_takeWhile_imp h⟩

/-- `cJSON_IsString`, with the C string. -/
def textOf (j : Option Json) : Option Text := (j.bind Json.text?).map Text.of

/-- `cJSON_IsString`, with the characters of the C string. -/
def cstring (j : Option Json) : Option (List UInt8) := (textOf j).map Subtype.val

/-- `cJSON_IsNumber`, with the value. -/
def numberOf (j : Option Json) : Option ℚ := j.bind Json.number?

/-- The number is an integer between the bounds; the code converts it to `uint32_t` and back. -/
def integerIn (low high : ℕ) (v : ℚ) : Option ℕ :=
  if v < low ∨ high < v ∨ v ≠ (⌊v⌋.toNat : ℚ) then none else some ⌊v⌋.toNat

/-! ## The identity of the sample -/

/-- The identity a response gives for the sample it answers. -/
structure Identity where
  sensorId : List UInt8
  bootId : List UInt8
  sampleSequence : ℚ

variable [Parser]

/-- The `sample` of a response. -/
def responseIdentity (response : List UInt8) : Option Identity := do
  let identity := member (Parser.parse response) "sample"
  let sensorId ← cstring (member identity "sensor_id")
  let bootId ← cstring (member identity "boot_id")
  let sampleSequence ← numberOf (member identity "sample_sequence")
  return ⟨sensorId, bootId, sampleSequence⟩

/-! ## Validation -/

/-- `telemetry_period_is_supported`. -/
def telemetryPeriodIsSupported (seconds : ℕ) : Bool := seconds ∈ [2, 5, 10, 15, 30, 60]

/-- The first group of checks of `validate_telemetry_response`. -/
def answersSample (deviceIdText bootId : List UInt8) (sample : TelemetrySample)
    (root : Option Json) : Bool :=
  let identity := member root "sample"
  cstring (member root "protocol_id") = some protocolId &&
    cstring (member root "telemetry_protocol") = some telemetryProtocolId &&
    (cstring (member root "status") = some (ascii "accepted") ||
      cstring (member root "status") = some (ascii "duplicate")) &&
    ((cstring (member root "server_received_at")).bind parseRfc3339Ms).isSome &&
    (identity.any Json.isObject) &&
    cstring (member identity "sensor_id") = some deviceIdText &&
    cstring (member identity "boot_id") = some bootId &&
    numberOf (member identity "sample_sequence") = some (doubleOfU64 sample.sampleSequence) &&
    (cstring (member root "timestamp_source") = some (ascii "sensor") ||
      cstring (member root "timestamp_source") = some (ascii "server")) &&
    ((member root "commands").bind Json.items?).isSome

/-- The second group: the configuration of the response, with its cadence in seconds. -/
def telemetrySeconds (root : Option Json) : Option ℕ := do
  let configuration := member root "configuration"
  if !configuration.any Json.isObject then none
  let version ← numberOf (member configuration "version")
  let _ ← integerIn 1 uint32Max version
  let period ← numberOf (member configuration "telemetry_interval_seconds")
  let seconds ← integerIn 2 60 period
  if telemetryPeriodIsSupported seconds then return seconds else none

/-- `validate_telemetry_response`, with the cadence it writes. -/
def validateTelemetryResponse (deviceIdText bootId : List UInt8) (sample : TelemetrySample)
    (response : List UInt8) : Except Failure ℕ :=
  let root := Parser.parse response
  if answersSample deviceIdText bootId sample root then
    match telemetrySeconds root with
    | some seconds => .ok seconds
    | none => .error .invalidResponse
  else .error .invalidResponse

/-- A response that passes gives the identity of the sample, and a cadence the firmware supports. -/
theorem identity_of_valid {deviceIdText bootId : List UInt8} {sample : TelemetrySample}
    {response : List UInt8} {seconds : ℕ}
    (h : validateTelemetryResponse deviceIdText bootId sample response = .ok seconds) :
    responseIdentity response =
      some ⟨deviceIdText, bootId, doubleOfU64 sample.sampleSequence⟩ := by
  unfold validateTelemetryResponse at h
  dsimp only at h
  split at h
  next hanswers =>
    simp only [answersSample, Bool.and_eq_true, decide_eq_true_eq] at hanswers
    obtain ⟨⟨⟨⟨⟨-, hsensor⟩, hboot⟩, hsequence⟩, -⟩, -⟩ := hanswers
    simp [responseIdentity, hsensor, hboot, hsequence]
  · cases h

/-! ## The acknowledged results -/

/-- The identities `notify_result_acceptance` reports for a request body. -/
def reportedIds (body : List UInt8) : List (List UInt8) :=
  (((member (Parser.parse body) "command_results").bind Json.items?).getD []).filterMap fun item =>
    (cstring (item.item "command_id")).filter fun id => id.length = 36

/-! ## The commands -/

/-- `capability_supported`. -/
def capabilitySupported : Option Json → Bool
  | some .null => true
  | j => cstring j ∈ [some protocolId, some (ascii "headless-command-v1"),
      some (ascii "esp-idf-ota-v1"), some (ascii "ota_v1")]

/-- `pm_command_type_from_name`. -/
def commandTypeFromName (name : List UInt8) : Option CommandType :=
  if name = ascii "reboot" then some .reboot
  else if name = ascii "diagnostics_snapshot" then some .diagnosticsSnapshot
  else if name = ascii "network_self_test" then some .networkSelfTest
  else if name = ascii "meter_self_test" then some .meterSelfTest
  else if name = ascii "ota_install" then some .otaInstall
  else none

/-- `pm_command_attempt_from_json_number`. -/
def attemptFromJsonNumber (v : ℚ) : Option { n : ℕ // n ≤ 255 } :=
  (integerIn 0 uint32Max v).map fun n => ⟨min n 255, min_le_right n 255⟩

variable [Printer]

/-- One round of `parse_commands`, up to the accept: `none` when the item is skipped. -/
def commandItem (item : Json) : Option CommandItem := do
  let commandId ← textOf (item.item "command_id")
  let idempotencyKey ← textOf (item.item "idempotency_key")
  let type ← (cstring (item.item "command_type")).bind commandTypeFromName
  let notBefore ← (cstring (item.item "not_before")).bind parseRfc3339Ms
  let expires ← (cstring (item.item "expires_at")).bind parseRfc3339Ms
  let attempt ← (numberOf (item.item "attempt")).bind attemptFromJsonNumber
  let payload ← item.item "payload"
  let serialized ← (printUnformatted payload).map Text.of
  if h : capabilitySupported (item.item "required_firmware_capability") = true ∧
      payload.isObject = true ∧ commandId.1.length = 36 ∧
      (0 < idempotencyKey.1.length ∧ idempotencyKey.1.length ≤ 100) ∧
      commandSupported type = true ∧ notBefore < expires ∧ serialized.1.length ≤ 1536 then
    some
      { commandId := commandId.1
        idempotencyKey := idempotencyKey.1
        type := type
        notBeforeUtcMs := notBefore
        expiresUtcMs := expires
        attempt := attempt.1
        payload := serialized.1
        commandId_length := h.2.2.1
        commandId_text := commandId.2
        idempotencyKey_length := h.2.2.2.1
        idempotencyKey_text := idempotencyKey.2
        supported := h.2.2.2.2.1
        window := h.2.2.2.2.2.1
        attempt_le := attempt.2
        payload_length := h.2.2.2.2.2.2
        payload_text := serialized.2 }
  else none

/-- The commands `parse_commands` goes through. -/
def responseCommands (response : List UInt8) : List CommandItem :=
  (((member (Parser.parse response) "commands").bind Json.items?).getD []).filterMap commandItem

end PowerMonitor.Telemetry
