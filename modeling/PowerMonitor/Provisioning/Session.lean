import PowerMonitor.Config.CommitPoint
import PowerMonitor.Protocol.Verify

/-!
# The provisioning session

`pm_provisioning_handle_line`: one request line of the `pm-com` protocol, over the session and the
configuration store. What the line's calls meet is given by a `LineEnv`: the outcome of each test
stage, which may change the candidate's device identity and secret and nothing else, the faults of
the configuration calls, and the values the environment supplies. The faults are orderly: power
stays on, and a write or commit that fails has no effect.

The handled line carries the result of its operation, the response, and what it was (`LineEvent`).
-/

namespace PowerMonitor.Provisioning

open CMemory CJson Config
open Protocol (hexLower)

/-! ## The session -/

/-- `pm_provisioning_test_stage_t`. -/
inductive TestStage
  | wifi | ipv4 | dns | tls | enrollment
  deriving DecidableEq, Repr

/-- The stages of `test_config`, in order. -/
def TestStage.all : List TestStage := [.wifi, .ipv4, .dns, .tls, .enrollment]

/-- `pm_provisioning_session_t`. The callbacks are those set at initialisation; a factory reset may
do anything to the store. -/
structure Session where
  active : PmConfig
  candidate : PmConfig
  transaction : Transaction
  enrollmentToken : Bytes 193
  factoryToken : Bytes 16
  factoryTokenExpiresUs : ℤ
  candidatePresent : Bool
  testsPassed : Bool
  rebootRequested : Bool
  physicallyAuthorized : Bool
  hasTest : Bool
  factoryReset : Option (Store → EspErr × Store)
  hasSafeRebootPrepare : Bool

/-- `pm_provisioning_session_init`. -/
def sessionInit (active : PmConfig) (physicallyAuthorized hasTest : Bool)
    (factoryReset : Option (Store → EspErr × Store)) (hasSafeRebootPrepare : Bool) : Session where
  active := active
  candidate := PmConfig.zero
  transaction := Transaction.zero
  enrollmentToken := Bytes.zero 193
  factoryToken := Bytes.zero 16
  factoryTokenExpiresUs := 0
  candidatePresent := false
  testsPassed := false
  rebootRequested := false
  physicallyAuthorized := physicallyAuthorized
  hasTest := hasTest
  factoryReset := factoryReset
  hasSafeRebootPrepare := hasSafeRebootPrepare

/-- `clear_candidate_state`, on the session; `pm_config_abort` releases the transaction in the
store. -/
def Session.clearCandidate (s : Session) : Session :=
  { s with
    transaction := Transaction.zero
    candidate := PmConfig.zero
    enrollmentToken := Bytes.zero 193
    candidatePresent := false
    testsPassed := false }

/-! ## What a line meets -/

/-- NVS faults under power, in which a failed write or commit has no effect. -/
structure OrderlyFaults extends Faults where
  powered : opened.read ≠ .powerLoss ∧ selector ≠ .powerLoss ∧ blob ≠ .powerLoss ∧
    readback ≠ .powerLoss ∧ write.result ≠ none
  noEffect : write.result ≠ some .ok → write.landed = false

/-- One call of the test callback: its result, and the identity and secret it left in the
candidate. -/
structure StageOutcome where
  result : EspErr
  deviceId : Bytes 16
  deviceSecret : Bytes 32
  deviceSecretLen : ℕ

/-- What the calls of one line meet. -/
structure LineEnv where
  tests : TestStage → PmConfig → List UInt8 → StageOutcome
  beginFaults : OrderlyFaults
  commitFaults : OrderlyFaults
  randomToken : Bytes 16
  nowUs : ℤ
  safeRebootResult : EspErr
  renderResult : EspErr
  firmwareVersion : List UInt8

/-- A member of the response. -/
inductive Field
  | text (t : List UInt8)
  | flag (b : Bool)
  | number (n : ℤ)

/-- The response object: its `id`, its `ok` and the members added after them. -/
structure Response where
  id : List UInt8
  ok : Bool
  members : List (String × Field)

/-- What a line was, for the history of a session. -/
inductive LineEvent
  | began
  | tested (results : List (TestStage × EspErr)) (candidate : PmConfig)
  | committed
  | rolledBack
  | rebooted
  | neutral

/-- One handled line. -/
structure Handled where
  /-- The result of the operation, before the response is rendered. -/
  result : EspErr
  /-- What `pm_provisioning_handle_line` returns. -/
  returned : EspErr
  session : Session
  store : Store
  response : Response
  event : LineEvent

/-! ## The candidate -/

/-- The fields `parse_candidate` reads from a configuration object, over the active configuration,
and the enrollment token. -/
def candidateFields (active : PmConfig) (config : Json) : Option (PmConfig × Bytes 193) := do
  if !config.isObject then failure
  if active.generation = uint32Max then failure
  let friendlyName ← config.copyString "friendly_name" active.friendlyName true
  let wifiSsid ← config.copyString "wifi_ssid" active.wifiSsid true
  let wifiPassword ← config.copyString "wifi_password" active.wifiPassword true
  let serverOrigin ← config.copyString "server_origin" active.serverOrigin true
  let caPem ← config.copyString "ca_pem" active.caPem true
  let timezone ← config.copyString "timezone" active.timezone true
  let token ← config.copyString "enrollment_token" (Bytes.zero 193) true
  let ipv4Mode ← config.getU32 "ipv4_mode" 0 true
  let ctRating ← config.getU32 "ct_rating_a" 0 true
  if 1 < ipv4Mode ∨ ctRating = 0 ∨ 100 < ctRating then failure
  if config.textItem "pzem_variant" ≠ some (ascii "pzem-004t-v4-classic") then failure
  let mode : Ipv4Mode := if ipv4Mode = 1 then .static else .dhcp
  let fixed := ipv4Mode = 1
  let address ← if fixed then config.getU32 "ipv4_address" active.ipv4Address true
    else some active.ipv4Address
  let gateway ← if fixed then config.getU32 "ipv4_gateway" active.ipv4Gateway true
    else some active.ipv4Gateway
  let netmask ← if fixed then config.getU32 "ipv4_netmask" active.ipv4Netmask true
    else some active.ipv4Netmask
  let dns1 ← if fixed then config.getU32 "dns_primary" active.dnsPrimary true
    else some active.dnsPrimary
  let dns2 ← if fixed then config.getU32 "dns_secondary" active.dnsSecondary false
    else some active.dnsSecondary
  return ({ active with
    generation := active.generation + 1
    friendlyName := friendlyName
    wifiSsid := wifiSsid
    wifiPassword := wifiPassword
    serverOrigin := serverOrigin
    caPem := caPem
    timezone := timezone
    ipv4Mode := mode
    ctRatingA := ctRating
    meterVariant := .pzem004tV4Classic
    ipv4Address := address
    ipv4Gateway := gateway
    ipv4Netmask := netmask
    dnsPrimary := dns1
    dnsSecondary := dns2 }, token)

/-- `parse_candidate`: the fields, under the current schema and a fresh checksum, validated for
production. -/
def parseCandidate (active : PmConfig) (config : Json) : Option (PmConfig × Bytes 193) :=
  match candidateFields active config with
  | none => none
  | some (fields, token) =>
    if pmConfigValidate (staged fields) true = .ok then some (staged fields, token) else none

/-- The stage loop of `test_config`: it stops at the first stage that does not return `ESP_OK`. -/
def runTests (tests : TestStage → PmConfig → List UInt8 → StageOutcome) (token : List UInt8) :
    List TestStage → PmConfig → PmConfig × List (TestStage × EspErr) × EspErr
  | [], c => (c, [], .ok)
  | stage :: stages, c =>
    let o := tests stage c token
    let c' := { c with
      deviceId := o.deviceId
      deviceSecret := o.deviceSecret
      deviceSecretLen := o.deviceSecretLen }
    if o.result = .ok then
      let r := runTests tests token stages c'
      (r.1, (stage, .ok) :: r.2.1, r.2.2)
    else (c', [(stage, o.result)], o.result)

/-! ## The operations -/

/-- The operations of the protocol. -/
inductive Operation
  | hello | status | beginConfig | testConfig | commitConfig | rollbackConfig
  | factoryResetPrepare | factoryResetCommit | safeReboot | unknown
  deriving DecidableEq, Repr

/-- The operation of an `op` string. -/
def operationOf (text : List UInt8) : Operation :=
  if text = ascii "hello" then .hello
  else if text = ascii "status" then .status
  else if text = ascii "begin_config" then .beginConfig
  else if text = ascii "test_config" then .testConfig
  else if text = ascii "commit_config" then .commitConfig
  else if text = ascii "rollback_config" then .rollbackConfig
  else if text = ascii "factory_reset_prepare" then .factoryResetPrepare
  else if text = ascii "factory_reset_commit" then .factoryResetCommit
  else if text = ascii "safe_reboot" then .safeReboot
  else .unknown

/-- What an operation does, before its response is rendered. -/
structure Effect where
  result : EspErr
  session : Session
  store : Store
  ok : Bool
  members : List (String × Field)
  event : LineEvent
  requestReboot : Bool

/-- The end of an operation that failed with `error`. -/
def failed (result : EspErr) (session : Session) (store : Store) (error : String)
    (event : LineEvent) : Effect :=
  ⟨result, session, store, false, [("error", .text (ascii error))], event, false⟩

/-- The end of an operation that succeeded in `stage`. -/
def reached (session : Session) (store : Store) (stage : String) (event : LineEvent) : Effect :=
  ⟨.ok, session, store, true, [("stage", .text (ascii stage))], event, false⟩

variable [Sha256]

/-- `clear_candidate_state`, on the store. -/
def abortTransaction (s : Session) (store : Store) : Store := (pmConfigAbort store s.transaction).store

/-- `hello` and `status`. -/
def describe (s : Session) (store : Store) (env : LineEnv) : Effect where
  result := .ok
  session := s
  store := store
  ok := true
  members := [
    ("device_fingerprint", .text (hexLower ((sha256 s.active.deviceId.bytes).bytes.take 8))),
    ("firmware", .text env.firmwareVersion),
    ("provisioned", .flag (s.active.generation ≠ 0)),
    ("physical_recovery", .flag s.physicallyAuthorized),
    ("sequence_floor", .number s.active.sequenceFloor)]
  event := .neutral
  requestReboot := false

/-- `begin_config`. -/
def beginConfig (s : Session) (store : Store) (request : Json) (env : LineEnv) : Effect :=
  let cleared := s.clearCandidate
  let store := abortTransaction s store
  let refuse (store : Store) : Effect :=
    failed .invalidArg cleared store "candidate_invalid_or_write_failed" .began
  match parseCandidate s.active ((request.item "config").getD .null) with
  | none => refuse store
  | some (candidate, token) =>
    let o := pmConfigBegin store candidate Transaction.zero env.beginFaults.toFaults
    let parsed := { cleared with
      candidate := candidate
      enrollmentToken := token
      candidatePresent := true
      transaction := o.transaction }
    if o.result = some .ok then reached parsed o.store "readback_verified" .began
    else refuse (abortTransaction parsed o.store)

/-- The rewrite of the tested candidate: `pm_config_begin` on it, then
`pm_config_mark_network_tested`. -/
def restage (store : Store) (candidate : PmConfig) (t : Transaction) (f : Faults) : Outcome :=
  let o := pmConfigBegin store candidate t f
  if o.result = some .ok then pmConfigMarkNetworkTested o.store o.transaction else o

/-- `test_config`. -/
def testConfig (s : Session) (store : Store) (env : LineEnv) : Effect :=
  let s := { s with testsPassed := false }
  let fail (e : EspErr) (s : Session) (store : Store) (event : LineEvent) : Effect :=
    let out := failed e s.clearCandidate (abortTransaction s store) "configuration_test_failed" event
    { out with members := out.members ++ [("code", .number e.code)] }
  if !s.candidatePresent || !s.hasTest then fail .invalidState s store (.tested [] s.candidate)
  else
    let r := runTests env.tests s.enrollmentToken.str TestStage.all s.candidate
    if r.2.2 = .ok then
      let candidate := { r.1 with crc32 := configCrc r.1 }
      let o := restage store candidate s.transaction env.beginFaults.toFaults
      let s := { s with candidate := candidate, transaction := o.transaction }
      if o.result = some .ok then
        reached { s with testsPassed := true } o.store "network_tls_enrollment_verified"
          (.tested r.2.1 candidate)
      else fail (o.result.getD .fail) s o.store (.tested r.2.1 candidate)
    else fail r.2.2 { s with candidate := r.1 } store (.tested r.2.1 r.1)

/-- `commit_config`. -/
def commitConfig (s : Session) (store : Store) (env : LineEnv) : Effect :=
  let o := if s.testsPassed then pmConfigCommit store s.transaction env.commitFaults.toFaults
    else store.keep (some .invalidState) s.transaction
  let s := { s with transaction := o.transaction }
  if o.result = some .ok then
    reached { s with active := s.candidate }.clearCandidate (abortTransaction s o.store) "committed"
      .committed
  else
    failed (o.result.getD .fail) s.clearCandidate (abortTransaction s o.store)
      "commit_requires_successful_tests" .committed

/-- `rollback_config`. -/
def rollbackConfig (s : Session) (store : Store) : Effect :=
  reached s.clearCandidate (abortTransaction s store) "prior_config_retained" .rolledBack

/-- `factory_reset_prepare`. -/
def factoryResetPrepare (s : Session) (store : Store) (env : LineEnv) : Effect :=
  if !s.physicallyAuthorized then
    failed .invalidState s store "physical_authorization_required" .neutral
  else
    let s := { s with
      factoryToken := env.randomToken
      factoryTokenExpiresUs := env.nowUs + 60000000 }
    ⟨.ok, s, store, true,
      [("confirmation_token", .text (hexLower s.factoryToken.bytes)),
        ("warning", .text (ascii ("factory reset revokes configuration; " ++
          "sequence identity is preserved unless separately authorized")))], .neutral, false⟩

/-- `factory_reset_commit`. -/
def factoryResetCommit (s : Session) (store : Store) (request : Json) (env : LineEnv) : Effect :=
  let spent := { s with factoryToken := Bytes.zero 16, factoryTokenExpiresUs := 0 }
  let refuse (e : EspErr) (store : Store) : Effect :=
    failed e spent store "factory_reset_rejected" .neutral
  match s.factoryReset with
  | none => refuse .invalidState store
  | some reset =>
    if !s.physicallyAuthorized || decide (s.factoryTokenExpiresUs < env.nowUs) ||
        request.textItem "confirmation_token" ≠ some (hexLower s.factoryToken.bytes) then
      refuse .invalidState store
    else
      let r := reset store
      if r.1 = .ok then ⟨.ok, spent, r.2, true, [], .neutral, false⟩ else refuse r.1 r.2

/-- `safe_reboot`. -/
def safeReboot (s : Session) (store : Store) (env : LineEnv) : Effect :=
  let cleared := s.clearCandidate
  let store := abortTransaction s store
  if !s.hasSafeRebootPrepare then
    failed .invalidState cleared store "safe_reboot_unavailable" .rebooted
  else if env.safeRebootResult = .ok then
    { reached cleared store "ready_for_safe_reboot" .rebooted with requestReboot := true }
  else
    let out := failed env.safeRebootResult cleared store "safe_reboot_preparation_failed" .rebooted
    { out with members := out.members ++ [("code", .number env.safeRebootResult.code)] }

/-- The operation of a request. -/
def perform (op : Operation) (s : Session) (store : Store) (request : Json) (env : LineEnv) :
    Effect :=
  match op with
  | .hello | .status => describe s store env
  | .beginConfig => beginConfig s store request env
  | .testConfig => testConfig s store env
  | .commitConfig => commitConfig s store env
  | .rollbackConfig => rollbackConfig s store
  | .factoryResetPrepare => factoryResetPrepare s store env
  | .factoryResetCommit => factoryResetCommit s store request env
  | .safeReboot => safeReboot s store env
  | .unknown => failed .notSupported s store "unknown_operation" .neutral

/-- A line as `cJSON_ParseWithLength` finds it: too long to be looked at, no JSON, or a request. -/
inductive Line
  | tooLong
  | malformed
  | request (j : Json)

/-- The operation a line requests, once its protocol is the right one. -/
def Line.operation : Line → Option Operation
  | .request j =>
    if j.textItem "protocol" ≠ some (ascii "pm-com/1.0.0") then none
    else (j.textItem "op").map operationOf
  | _ => none

/-- `pm_provisioning_handle_line`. -/
def pmProvisioningHandleLine (s : Session) (store : Store) (line : Line) (env : LineEnv) : Handled :=
  match line with
  | .tooLong => ⟨.invalidArg, .invalidArg, s, store, ⟨[], false, []⟩, .neutral⟩
  | .malformed => ⟨.invalidArg, .invalidArg, s, store,
      ⟨ascii "invalid", false, [("error", .text (ascii "invalid_json"))]⟩, .neutral⟩
  | .request j =>
    let id := (j.textItem "id").getD (ascii "invalid")
    match line.operation with
    | none => ⟨.notSupported, env.renderResult, s, store,
        ⟨id, false, [("error", .text (ascii "unsupported_protocol_or_operation"))]⟩, .neutral⟩
    | some op =>
      let e := perform op s store j env
      ⟨e.result, if env.renderResult = .ok then e.result else env.renderResult,
        if env.renderResult = .ok ∧ e.requestReboot then
          { e.session with rebootRequested := true } else e.session,
        e.store, ⟨id, e.ok, e.members⟩, e.event⟩

end PowerMonitor.Provisioning
