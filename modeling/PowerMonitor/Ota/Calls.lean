import PowerMonitor.Foundations.Decimal
import PowerMonitor.Ota.Canonical
import PowerMonitor.Ota.Install
import PowerMonitor.Protocol.Headers

/-!
# The calls of an installation

`pm_ota_install` call by call: every call it makes into NVS, the HTTP client, the hash and ESP-OTA
is a step with an answer of its own, its two cleanup labels are one step, and what was asked and
answered is kept in a log. The counters of the download are 32-bit numbers.

* `CallEnv` is what a call answers, and `InstallCall.step` one step.
* In `Ota.Refinement` these steps are related to those of `Install.step`.
-/

namespace PowerMonitor.Ota

open CMemory AbStore CJson CText Protocol

/-- The arguments of `pm_ota_install`. -/
structure InstallArgs where
  manifest : Manifest
  caPem : Option (List UInt8)
  deviceToServerKey : Option (Bytes 32)
  serverToDeviceKey : Option (Bytes 32)
  requestUtcMs : ℤ

/-- What `esp_http_client_read` puts in a buffer of `PM_OTA_BUFFER_SIZE` bytes. -/
structure ReadData where
  data : List UInt8
  size : data.length ≤ 4096

/-- The partition an update goes to, of at most 2 GiB. -/
structure UpdatePartition where
  size : ℕ
  le : size ≤ 2 ^ 31

/-- What the calls of one step answer. -/
structure CallEnv where
  /-- The result of the one call of the step that can fail with a code of its own. -/
  result : EspErr := .ok
  /-- A call without such a code fails, or returns `NULL`. -/
  fails : Bool := false
  /-- The version of `esp_app_get_description`. -/
  running : Option (List UInt8) := none
  /-- `pm_hmac_sha256` fails. -/
  hmacFails : Bool := false
  nonce : Bytes 16 := .zero 16
  persist : PersistFaults := {}
  /-- `esp_ota_get_next_update_partition`. -/
  partition : Option UpdatePartition := none
  contentLength : ℤ := 0
  statusCode : ℤ := 0
  /-- The header events up to the end of the headers. -/
  headers : List (Option (List UInt8) × Option (List UInt8)) := []
  /-- What `esp_http_client_read` returns; `none` is a negative count. -/
  read : Option ReadData := none
  /-- `psa_hash_update` fails. -/
  hashFails : Bool := false
  /-- The time since the request, in microseconds. -/
  elapsedUs : ℤ := 0
  /-- The project and the version of the image in the partition. -/
  image : List UInt8 × List UInt8 := ([], [])

/-- The partitions `esp_ota_set_boot_partition` is called for. -/
inductive BootChoice
  | update
  | running
  deriving DecidableEq, Repr

/-- The calls that are kept in the log, with what they were given and what they answered. -/
inductive EspCall
  | verifyManifest (running : Option (List UInt8)) (result : EspErr)
  | persist (c : Checkpoint) (result : CallEnd)
  | report (percent : ℕ) (stage : OtaStage)
  | updatePartition (size : ℕ)
  | otaBegin (result : EspErr)
  | fetchHeaders (contentLength statusCode : ℤ)
  | validateHeaders (capture : ResponseCapture) (result : EspErr)
  | otaWrite (data : List UInt8) (result : EspErr)
  | hashFinish (digest : Bytes 32)
  | verifyResponse (headers : ResponseAuthHeaders) (nowUtcMs : ℤ) (digest : List UInt8)
      (result : EspErr)
  | otaEnd (result : EspErr)
  | partitionDescription (project version : List UInt8)
  | setBootPartition (choice : BootChoice) (result : EspErr)
  | runningPartition (found : Bool)
  | otaAbort

/-- Where `pm_ota_install` stands. -/
inductive CallPc
  | verifying
  | signing
  | persistFirst
  | reportFirst
  | sizing
  | beginning
  | client
  | requesting
  | opening
  | validating
  | allocating
  | hashing
  | persistDownloading
  | reading
  | reportProgress (received : ℕ)
  | persistProgress
  | finishing
  | completing
  | verifyingResponse
  | ending
  | describing
  | persistVerified
  | reportVerified
  | selecting
  | persistSelected
  | reselecting (e : EspErr)
  | reportSelected
  | cleanup (e : EspErr)
  | reportFailed (e : EspErr)
  | returned (e : EspErr)
  /-- Power was lost during a call. -/
  | lost
  deriving DecidableEq

/-- The local state of `pm_ota_install`, the slots of its checkpoints and the log. -/
structure InstallCall where
  pc : CallPc
  checkpoint : Checkpoint
  /-- The handle `ota` is not zero. -/
  ota : Bool
  /-- The bytes hashed so far. -/
  hashed : List UInt8
  capture : ResponseCapture
  slots : Slots Checkpoint
  log : List EspCall

variable [Sha256]

/-- `pm_sign_request` of a request without a body. -/
def signRequest (method path : List UInt8) (query : Option (List UInt8)) (utcMs : ℤ)
    (nonce : Bytes 16) (hmacFails encodeFails : Bool) : EspErr :=
  match buildCanonical method path query (printUnsigned (utcMs / 1000).toNat)
    (hexLower nonce.bytes) (hexLower (sha256 []).bytes) canonicalMax with
  | .error e => e
  | .ok _ => if hmacFails || encodeFails then .fail else .ok

variable [Base64]

namespace InstallCall

/-- The call before its first step. -/
def start (args : InstallArgs) (slots : Slots Checkpoint) : InstallCall where
  pc := .verifying
  checkpoint := Install.firstCheckpoint args.manifest
  ota := false
  hashed := []
  capture := httpResponseCaptureInit
  slots := slots
  log := []

/-- Go on to `pc` after `calls`. -/
def goto (s : InstallCall) (calls : List EspCall) (pc : CallPc) : InstallCall :=
  { s with log := s.log ++ calls, pc := pc }

/-- `persist_checkpoint (&checkpoint)`, going on to `ok` or `err`. -/
def persist (s : InstallCall) (c : Checkpoint) (f : PersistFaults) (ok : CallPc)
    (err : EspErr → CallPc) : InstallCall :=
  let p := persistCheckpoint c s.slots f
  { s with
    checkpoint := p.checkpoint
    slots := p.slots
    log := s.log ++ [.persist (nextCheckpoint c) p.result]
    pc :=
      match p.result with
      | none => .lost
      | some e => if e = .ok then ok else err e }

/-- `pm_ota_verify_manifest` of the call. -/
def verifyManifest (args : InstallArgs) (env : CallEnv) : EspErr :=
  match args.serverToDeviceKey with
  | none => .notSupported
  | some key => pmOtaVerifyManifest args.manifest key env.running env.hmacFails

/-- The ETag that is expected: the digest of the manifest in quotes. -/
def expectedEtag (m : Manifest) : List UInt8 := 0x22 :: hexLower m.imageSha256.bytes ++ [0x22]

/-- The time at which the response is verified. -/
def responseNowUtcMs (args : InstallArgs) (env : CallEnv) : ℤ :=
  args.requestUtcMs + env.elapsedUs.tdiv 1000

/-- What `pm_verify_response_digest` is called with. -/
def responseCall (args : InstallArgs) (key : Bytes 32) (nowUtcMs : ℤ)
    (headers : ResponseAuthHeaders) : VerifyCall where
  key := key
  expectedDeviceId := args.manifest.deviceId
  path := args.manifest.downloadPath
  query := none
  nowUtcMs := nowUtcMs
  headers := headers
  body := []

/-- `pm_verify_response_digest` of the call, with an empty cache of nonces. -/
def verifyResponse (args : InstallArgs) (s : InstallCall) (env : CallEnv) (digest : List UInt8) :
    EspErr :=
  match args.serverToDeviceKey with
  | none => .invalidArg
  | some key =>
    let call := responseCall args key (responseNowUtcMs args env) s.capture.auth
    let result := (verifyResponseDigest call digest .zero).1
    -- what comes after the HMAC is reached only when it could be computed
    if env.hmacFails ∧ (result = .ok ∨ result = .invalidState) then .invalidMac else result

/-- One turn of the download loop. -/
def read (m : Manifest) (s : InstallCall) (env : CallEnv) : InstallCall :=
  match env.read with
  | none => s.goto [] (.cleanup .httpIncompleteData)
  | some ⟨data, _⟩ =>
    if data.length = 0 then s.goto [] (.cleanup .invalidSize)
    else if m.imageSize < (s.checkpoint.bytesWritten + data.length) % 2 ^ 32 then
      s.goto [] (.cleanup .httpIncompleteData)
    else if env.hashFails then s.goto [] (.cleanup .fail)
    else if env.result ≠ .ok then s.goto [.otaWrite data env.result] (.cleanup .fail)
    else
      { s with
        checkpoint := { s.checkpoint with
          bytesWritten := (s.checkpoint.bytesWritten + data.length) % 2 ^ 32 }
        hashed := s.hashed ++ data
        log := s.log ++ [.otaWrite data .ok]
        pc := .reportProgress data.length }

/-- The percentage of a download. -/
def percent (m : Manifest) (s : InstallCall) : ℕ :=
  s.checkpoint.bytesWritten * 90 / m.imageSize % 2 ^ 8

/-- One step of `pm_ota_install`. -/
def step (args : InstallArgs) (s : InstallCall) (env : CallEnv) : InstallCall :=
  let m := args.manifest
  match s.pc with
  | .verifying =>
    let error := verifyManifest args env
    let call := EspCall.verifyManifest env.running error
    if error ≠ .ok ∨ args.caPem.getD [] = [] ∨ args.deviceToServerKey = none ∨
        args.requestUtcMs < 1704067200000 then
      s.goto [call] (.returned (if error = .ok then .invalidArg else error))
    else s.goto [call] .signing
  | .signing =>
    let error := signRequest (ascii "GET") m.downloadPath none args.requestUtcMs env.nonce
      env.hmacFails env.fails
    s.goto [] (if error ≠ .ok then .returned error else .persistFirst)
  | .persistFirst => s.persist s.checkpoint env.persist .reportFirst .returned
  | .reportFirst => s.goto [.report 0 s.checkpoint.stage] .sizing
  | .sizing =>
    match env.partition with
    | none => s.goto [] (.returned .invalidSize)
    | some partition =>
      s.goto [.updatePartition partition.size]
        (if partition.size < m.imageSize then .returned .invalidSize else .beginning)
  | .beginning =>
    if env.result ≠ .ok then s.goto [.otaBegin env.result] (.returned env.result)
    else { s.goto [.otaBegin .ok] .client with ota := true }
  | .client => if env.fails then s.goto [.otaAbort] (.returned .noMem) else s.goto [] .requesting
  | .requesting =>
    -- the method and the seven headers; `result` is the first error
    s.goto [] (if env.result ≠ .ok then .cleanup env.result else .opening)
  | .opening =>
    if env.result ≠ .ok then s.goto [] (.cleanup env.result)
    else
      { s.goto [.fetchHeaders env.contentLength env.statusCode]
          (if env.contentLength ≠ m.imageSize ∨ env.statusCode ≠ 200 then .cleanup .invalidResponse
          else .validating) with
        capture := captureHeaders env.headers }
  | .validating =>
    let error := httpResponseCaptureValidate s.capture true
    s.goto [.validateHeaders s.capture error]
      (if error ≠ .ok ∨ s.capture.etag.str ≠ expectedEtag m then .cleanup .invalidResponse
      else .allocating)
  | .allocating => s.goto [] (if env.fails then .cleanup .noMem else .hashing)
  | .hashing => s.goto [] (if env.fails then .cleanup .fail else .persistDownloading)
  | .persistDownloading =>
    s.persist { s.checkpoint with stage := .downloading } env.persist .reading .cleanup
  | .reading =>
    if s.checkpoint.bytesWritten < m.imageSize then s.read m env else s.goto [] .finishing
  | .reportProgress received =>
    s.goto [.report (s.percent m) .downloading]
      (if s.checkpoint.bytesWritten % 65536 < received then .persistProgress else .reading)
  | .persistProgress => s.persist s.checkpoint env.persist .reading .cleanup
  | .finishing =>
    if env.fails ∨ !constantTimeEqual (sha256 s.hashed).bytes m.imageSha256.bytes then
      s.goto [] (.cleanup .invalidCrc)
    else s.goto [.hashFinish (sha256 s.hashed)] .completing
  | .completing =>
    s.goto [] (if env.fails then .cleanup .httpIncompleteData else .verifyingResponse)
  | .verifyingResponse =>
    let digest := hexLower (sha256 s.hashed).bytes
    let error := s.verifyResponse args env digest
    s.goto [.verifyResponse s.capture.auth (responseNowUtcMs args env) digest error]
      (if error ≠ .ok then .cleanup error else .ending)
  | .ending =>
    { s.goto [.otaEnd env.result]
        (if env.result ≠ .ok then .cleanup env.result else .describing) with ota := false }
  | .describing =>
    if env.result ≠ .ok then s.goto [] (.cleanup .notSupported)
    else
      s.goto [.partitionDescription env.image.1 env.image.2]
        (if env.image.1 ≠ m.projectName ∨ env.image.2 ≠ m.version then .cleanup .notSupported
        else .persistVerified)
  | .persistVerified =>
    s.persist { s.checkpoint with stage := .imageVerified } env.persist .reportVerified .cleanup
  | .reportVerified => s.goto [.report 95 s.checkpoint.stage] .selecting
  | .selecting =>
    s.goto [.setBootPartition .update env.result]
      (if env.result ≠ .ok then .cleanup env.result else .persistSelected)
  | .persistSelected =>
    s.persist { s.checkpoint with stage := .bootSelected } env.persist .reportSelected .reselecting
  | .reselecting e =>
    if env.fails then s.goto [.runningPartition false] (.cleanup e)
    else s.goto [.runningPartition true, .setBootPartition .running env.result] (.cleanup e)
  | .reportSelected => s.goto [.report 100 s.checkpoint.stage] (.returned .ok)
  | .cleanup e =>
    -- an error of the last persist takes the place of the one that led here
    (s.goto (if s.ota then [.otaAbort] else []) s.pc).persist
      { s.checkpoint with stage := .failed, lastError := e.code } env.persist (.reportFailed e)
      .reportFailed
  | .reportFailed e => s.goto [.report 0 s.checkpoint.stage] (.returned e)
  | .returned _ | .lost => s

end InstallCall

end PowerMonitor.Ota
