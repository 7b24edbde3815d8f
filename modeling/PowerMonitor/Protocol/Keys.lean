import PowerMonitor.Foundations.Hmac
import PowerMonitor.Protocol.Verify

/-!
# Key derivation

`pm_hmac_sha256` and `pm_hkdf_directional_keys`, over the hash operations of the crypto library, any
call of which may fail. `hmacSha256` is what the first one computes when none does.

* `pmHmacSha256_eq` and `pmHmacSha256_fail` are the two ways in which a MAC ends.
* `hmacSha256_eq_hmac`: the pads of the code are those of HMAC.
* `keys_match_standards`: the MAC is HMAC-SHA256, the keys are those of HKDF-SHA256, and a failed
  call leaves neither a digest nor a pair of keys behind.
-/

namespace PowerMonitor.Protocol

open CMemory CJson

/-- The incremental hashing of the crypto library: whatever the pieces, the digest is that of the
whole text. -/
class HashOperation [Sha256] where
  Operation : Type
  setup : Operation
  update : Operation → List UInt8 → Operation
  finish : Operation → Bytes 32
  finish_foldl (pieces : List (List UInt8)) :
    finish (pieces.foldl update setup) = sha256 pieces.flatten

/-- Keeping the pieces until the end. -/
@[reducible] def HashOperation.buffered [Sha256] : HashOperation where
  Operation := List (List UInt8)
  setup := []
  update pieces piece := pieces ++ [piece]
  finish pieces := sha256 pieces.flatten
  finish_foldl pieces := by
    rw [List.foldl_append_eq_append, List.nil_append]
    congr 1
    induction pieces <;> simp_all

section

variable [Sha256] [HashOperation]

theorem HashOperation.finish_one (text : List UInt8) : finish (update setup text) = sha256 text := by
  simpa using finish_foldl [text]

theorem HashOperation.finish_two (first second : List UInt8) :
    finish (update (update setup first) second) = sha256 (first ++ second) := by
  simpa using finish_foldl [first, second]

end

/-- The calls of `pm_hmac_sha256` on its hash operation. -/
inductive HashCall
  | innerSetup
  | innerPad
  | innerData
  | innerFinish
  | outerSetup
  | outerPad
  | outerDigest
  | outerFinish
  deriving DecidableEq, Repr

/-- Which calls fail: those on the hash operation, and the one that hashes a long key. -/
structure HmacFaults where
  fails : HashCall → Bool
  computeFails : Bool

/-- A call and what it gives unless it fails. -/
def HmacFaults.call {α : Type} (faults : HmacFaults) (c : HashCall) (result : α) : Option α :=
  if faults.fails c then none else some result

section

variable {faults : HmacFaults} {α : Type} {c : HashCall}

theorem HmacFaults.call_of_ok (h : faults.fails c = false) (result : α) :
    faults.call c result = some result := by
  rw [call, h]
  rfl

theorem HmacFaults.call_eq_some {result r : α} :
    faults.call c result = some r ↔ faults.fails c = false ∧ result = r := by
  cases h : faults.fails c <;> simp [call, h]

end

/-- The call is made unless one before it fails: there is no update with empty data. -/
def HashCall.made (data : List UInt8) (c : HashCall) : Prop := c = .innerData → data ≠ []

section

variable [Sha256]

/-- `pm_sha256`. -/
def pmSha256 (computeFails : Bool) (data : List UInt8) : Bytes 32 :=
  if computeFails then .zero 32 else sha256 data

variable [HashOperation]

open HashOperation

/-- The update with the data, which is left out when there is none. -/
def HmacFaults.updateData (faults : HmacFaults) (operation : Operation) (data : List UInt8) :
    Option Operation :=
  if data.length ≠ 0 then faults.call .innerData (update operation data) else some operation

/-- `pm_hmac_sha256`. A call that fails ends the calls; `psa_hash_finish` writes 32 bytes. -/
def pmHmacSha256 (faults : HmacFaults) (key data : List UInt8) : EspErr × Bytes 32 :=
  let keyBlock : Bytes 64 := (Bytes.zero 64).memcpy 0
    (if 64 < key.length then (pmSha256 faults.computeFails key).bytes else key)
  let innerPad := keyBlock.bytes.map (· ^^^ 0x36)
  let outerPad := keyBlock.bytes.map (· ^^^ 0x5c)
  let status : Option (Bytes 32) := do
    let operation ← faults.call .innerSetup setup
    let operation ← faults.call .innerPad (update operation innerPad)
    let operation ← faults.updateData operation data
    let innerDigest ← faults.call .innerFinish (finish operation)
    let operation ← faults.call .outerSetup setup
    let operation ← faults.call .outerPad (update operation outerPad)
    let operation ← faults.call .outerDigest (update operation innerDigest.bytes)
    faults.call .outerFinish (finish operation)
  match status with
  | some digest => (.ok, digest)
  | none => (.fail, .zero 32)

end

/-! ## Derived keys -/

/-- The two keys of a device. -/
structure DirectionalKeys where
  deviceToServer : Bytes 32
  serverToDevice : Bytes 32
  deriving DecidableEq

/-- The MACs of the derivation. -/
inductive HkdfStep
  | extract
  | deviceToServer
  | serverToDevice
  deriving DecidableEq, Repr

/-- The failures of each MAC, and what the arrays of the function hold before they are set. -/
structure HkdfEnv where
  faults : HkdfStep → HmacFaults
  salt : Bytes 54
  expandInput : Bytes 32

/-- The key block of the code, whose key is hashed if it is longer than a block. -/
theorem keyBlock_eq {short : List UInt8} (h : short.length ≤ 64) :
    ((Bytes.zero 64).memcpy 0 short).bytes = short.rightpad 64 0 := by
  simp only [Bytes.memcpy, Bytes.zero, List.take_zero, List.nil_append, Nat.zero_add,
    List.drop_replicate, List.rightpad]
  exact List.take_of_length_le (by simp; omega)

/-- `outbound_info`, with the NUL of the literal. -/
def outboundInfo : List UInt8 := ascii "PowerMeter V2" ++ 0 :: ascii "device-to-server" ++ [0]

/-- `inbound_info`. -/
def inboundInfo : List UInt8 := ascii "PowerMeter V2" ++ 0 :: ascii "server-to-device" ++ [0]

/-- An info without its NUL and the counter of the first block, in `expand_input`. -/
def setExpandInput (expandInput : Bytes 32) (info : List UInt8) : Bytes 32 :=
  (expandInput.memcpy 0 (info.take (info.length - 1))).set (info.length - 1) 1

section

variable [Sha256] [HashOperation]

/-- `pm_hkdf_directional_keys`, with the keys as they are before the call. -/
def hkdfDirectionalKeys (env : HkdfEnv) (deviceSecret deviceId : List UInt8)
    (keys : DirectionalKeys) : EspErr × DirectionalKeys :=
  if deviceSecret.length < 16 ∨ deviceId.length ≠ 36 then (.invalidArg, keys)
  else
    let protocolLength := protocolId.length
    let salt := ((env.salt.memcpy 0 protocolId).set protocolLength 0).memcpy (protocolLength + 1)
      deviceId
    let pseudorandomKey := pmHmacSha256 (env.faults .extract)
      (salt.bytes.take (protocolLength + 1 + 36)) deviceSecret
    if pseudorandomKey.1 ≠ .ok then (.fail, keys)
    else
      let expandInput := setExpandInput env.expandInput outboundInfo
      let deviceToServer := pmHmacSha256 (env.faults .deviceToServer) pseudorandomKey.2.bytes
        (expandInput.bytes.take outboundInfo.length)
      if deviceToServer.1 ≠ .ok then
        (.fail, { keys with deviceToServer := deviceToServer.2 })
      else
        let expandInput := setExpandInput expandInput inboundInfo
        let serverToDevice := pmHmacSha256 (env.faults .serverToDevice) pseudorandomKey.2.bytes
          (expandInput.bytes.take inboundInfo.length)
        if serverToDevice.1 ≠ .ok then (.fail, ⟨.zero 32, .zero 32⟩)
        else (.ok, ⟨deviceToServer.2, serverToDevice.2⟩)

/-! ## The MAC -/

section

variable {faults : HmacFaults} {key data : List UInt8}

/-- **Without failures** the MAC is `hmacSha256`. -/
theorem pmHmacSha256_eq (hok : ∀ c, faults.fails c = false)
    (hcompute : key.length ≤ 64 ∨ faults.computeFails = false) :
    pmHmacSha256 faults key data = (.ok, hmacSha256 key data) := by
  have hkey : (if 64 < key.length then (pmSha256 faults.computeFails key).bytes else key) =
      if 64 < key.length then (sha256 key).bytes else key := by
    split
    next hlong => rw [pmSha256, hcompute.resolve_left (by omega)]; rfl
    next => rfl
  have hshort : (if 64 < key.length then (sha256 key).bytes else key).length ≤ 64 := by
    have hsize := (sha256 key).size
    split <;> omega
  unfold pmHmacSha256 hmacSha256
  simp only [faults.call_of_ok (hok _), Option.bind_eq_bind, Option.bind_some, hkey,
    keyBlock_eq hshort]
  generalize (if 64 < key.length then (sha256 key).bytes else key).rightpad 64 0 = keyBlock
  by_cases hempty : data = []
  · simp [HmacFaults.updateData, HashOperation.finish_one, HashOperation.finish_two, hempty]
  · simp [HmacFaults.updateData, HmacFaults.call_of_ok (hok _), HashOperation.finish_two, hempty]

/-- **A failed call** leaves an error and a zeroed digest. -/
theorem pmHmacSha256_fail {c : HashCall} (hmade : c.made data) (h : faults.fails c = true) :
    pmHmacSha256 faults key data = (.fail, .zero 32) := by
  unfold pmHmacSha256
  dsimp only
  split
  next digest hstatus =>
    -- then every call that was made succeeded
    simp only [Option.bind_eq_bind, Option.bind_eq_some_iff, HmacFaults.call_eq_some] at hstatus
    obtain ⟨_, ⟨h₁, -⟩, _, ⟨h₂, -⟩, _, h₃, _, ⟨h₄, -⟩, _, ⟨h₅, -⟩, _, ⟨h₆, -⟩, _, ⟨h₇, -⟩, h₈, -⟩ :=
      hstatus
    cases c with
    | innerSetup => rw [h] at h₁; cases h₁
    | innerPad => rw [h] at h₂; cases h₂
    | innerData =>
      rw [HmacFaults.updateData, if_pos (by simpa using hmade rfl), HmacFaults.call_eq_some, h] at h₃
      cases h₃.1
    | innerFinish => rw [h] at h₄; cases h₄
    | outerSetup => rw [h] at h₅; cases h₅
    | outerPad => rw [h] at h₆; cases h₆
    | outerDigest => rw [h] at h₇; cases h₇
    | outerFinish => rw [h] at h₈; cases h₈
  next => rfl

end

end

/-! ## The derivation -/

section

variable [Sha256]

/-- The hash function of the standards. -/
def sha256Bytes (text : List UInt8) : List UInt8 := (sha256 text).bytes

/-- **The pads of the code** are those of HMAC. -/
theorem hmacSha256_eq_hmac (key data : List UInt8) :
    (hmacSha256 key data).bytes = Hmac.hmac sha256Bytes 64 key data := by
  have hsize : ∀ text, (sha256Bytes text).length ≤ 64 := fun text => by
    rw [sha256Bytes, (sha256 text).size]
    decide
  have hblock := Hmac.length_block hsize key
  rw [Hmac.hmac, Hmac.padded_eq_map hblock, Hmac.padded_eq_map hblock]
  rfl

end

/-- `expand_input` holds the info without its NUL, followed by the counter. -/
theorem setExpandInput_eq (expandInput : Bytes 32) {info : List UInt8} (hpos : 0 < info.length)
    (hsize : info.length ≤ 32) : (setExpandInput expandInput info).bytes.take info.length =
      info.take (info.length - 1) ++ [1] := by
  have hlength : (info.take (info.length - 1)).length = info.length - 1 := by
    rw [List.length_take]
    omega
  have hmemcpy := @Bytes.take_memcpy _ expandInput 0 (info.take (info.length - 1)) (by omega)
  have hset := Bytes.take_set (b := expandInput.memcpy 0 (info.take (info.length - 1)))
    (i := info.length - 1) (by omega) 1
  rw [hlength, Nat.zero_add, List.take_zero, List.nil_append] at hmemcpy
  rw [Nat.sub_add_cancel hpos, hmemcpy] at hset
  exact hset

/-- The salt of the derivation. -/
def hkdfSalt (deviceId : List UInt8) : List UInt8 := protocolId ++ 0 :: deviceId

theorem length_protocolId : protocolId.length = 17 := by decide +kernel

theorem salt_eq (salt : Bytes 54) {deviceId : List UInt8} (h : deviceId.length = 36) :
    (((salt.memcpy 0 protocolId).set protocolId.length 0).memcpy (protocolId.length + 1)
      deviceId).bytes.take (protocolId.length + 1 + 36) = hkdfSalt deviceId := by
  have hlength := length_protocolId
  have hprotocol := @Bytes.take_memcpy _ salt 0 protocolId (by omega)
  have hzero := Bytes.take_set (b := salt.memcpy 0 protocolId) (i := protocolId.length) (by omega) 0
  have hdevice := @Bytes.take_memcpy _ ((salt.memcpy 0 protocolId).set protocolId.length 0)
    (protocolId.length + 1) deviceId (by omega)
  rw [Nat.zero_add, List.take_zero, List.nil_append] at hprotocol
  rw [hprotocol] at hzero
  rw [hzero, h] at hdevice
  rw [hdevice, hkdfSalt, List.append_assoc]
  rfl

theorem length_hkdfSalt {deviceId : List UInt8} (hid : deviceId.length = 36) :
    (hkdfSalt deviceId).length = 54 := by
  rw [hkdfSalt, List.length_append, length_protocolId, List.length_cons, hid]

/-- The info of a direction, as it is hashed. -/
def directionInfo (direction : String) : List UInt8 := ascii "PowerMeter V2" ++ 0 :: ascii direction

theorem outboundInfo_spec : outboundInfo.length = 31 ∧
    outboundInfo.take 30 = directionInfo "device-to-server" := by decide +kernel

theorem inboundInfo_spec : inboundInfo.length = 31 ∧
    inboundInfo.take 30 = directionInfo "server-to-device" := by decide +kernel

section

variable [Sha256]

/-- The key of HKDF-SHA256 for one direction. -/
def directionalKey (deviceSecret deviceId info : List UInt8) : List UInt8 :=
  Hmac.hkdf sha256Bytes 64 32 (hkdfSalt deviceId) deviceSecret info 32

/-- One HMAC over the info and the counter, with the extracted key. -/
theorem directionalKey_eq (deviceSecret deviceId info : List UInt8) :
    directionalKey deviceSecret deviceId info =
      (hmacSha256 (hmacSha256 (hkdfSalt deviceId) deviceSecret).bytes (info ++ [1])).bytes := by
  have hsize : ∀ text, (sha256Bytes text).length = 32 := fun text => (sha256 text).size
  rw [directionalKey, Hmac.hkdf, Hmac.expand_hashSize hsize (by decide), Hmac.extract,
    hmacSha256_eq_hmac, hmacSha256_eq_hmac]

variable [HashOperation]

/-- The derivation, by the texts of its MACs. -/
theorem hkdfDirectionalKeys_eq (env : HkdfEnv) {deviceSecret deviceId : List UInt8}
    (hsecret : 16 ≤ deviceSecret.length) (hid : deviceId.length = 36) (keys : DirectionalKeys) :
    hkdfDirectionalKeys env deviceSecret deviceId keys =
      let mac (step : HkdfStep) := pmHmacSha256 (env.faults step)
      let prk := mac .extract (hkdfSalt deviceId) deviceSecret
      let out := mac .deviceToServer prk.2.bytes (directionInfo "device-to-server" ++ [1])
      let inb := mac .serverToDevice prk.2.bytes (directionInfo "server-to-device" ++ [1])
      if prk.1 ≠ .ok then (.fail, keys)
      else if out.1 ≠ .ok then (.fail, { keys with deviceToServer := out.2 })
      else if inb.1 ≠ .ok then (.fail, ⟨.zero 32, .zero 32⟩)
      else (.ok, ⟨out.2, inb.2⟩) := by
  obtain ⟨hout, hout'⟩ := outboundInfo_spec
  obtain ⟨hinb, hinb'⟩ := inboundInfo_spec
  unfold hkdfDirectionalKeys
  rw [if_neg (by omega)]
  dsimp only
  rw [salt_eq env.salt hid, setExpandInput_eq _ (by omega) (by omega),
    setExpandInput_eq _ (by omega) (by omega), hout, hinb, hout', hinb']

section

variable {env : HkdfEnv} {deviceSecret deviceId : List UInt8} {keys : DirectionalKeys}

/-- A MAC of the derivation that meets no failure. Its key is not longer than a block. -/
theorem mac_eq {step : HkdfStep} {key : List UInt8} (hkey : key.length ≤ 64)
    (hok : ∀ c, (env.faults step).fails c = false) (data : List UInt8) :
    pmHmacSha256 (env.faults step) key data = (.ok, hmacSha256 key data) :=
  pmHmacSha256_eq hok (.inl hkey)

/-- A MAC of the derivation that meets a failure. -/
theorem mac_fail {step : HkdfStep} {c : HashCall} (h : (env.faults step).fails c = true)
    (key : List UInt8) {data : List UInt8} (hdata : data ≠ []) :
    (pmHmacSha256 (env.faults step) key data).1 ≠ .ok := by
  rw [pmHmacSha256_fail (fun _ => hdata) h]
  decide

/-- **Without failures** the keys are those of the standard. -/
theorem hkdfDirectionalKeys_ok (hsecret : 16 ≤ deviceSecret.length) (hid : deviceId.length = 36)
    (hok : ∀ step c, (env.faults step).fails c = false) :
    ∃ derived, hkdfDirectionalKeys env deviceSecret deviceId keys = (.ok, derived) ∧
      derived.deviceToServer.bytes =
        directionalKey deviceSecret deviceId (directionInfo "device-to-server") ∧
      derived.serverToDevice.bytes =
        directionalKey deviceSecret deviceId (directionInfo "server-to-device") := by
  have hsalt := length_hkdfSalt hid
  have hprk := (hmacSha256 (hkdfSalt deviceId) deviceSecret).size
  simp only [directionalKey_eq]
  rw [hkdfDirectionalKeys_eq env hsecret hid]
  simp only [mac_eq (show (hkdfSalt deviceId).length ≤ 64 by omega) (hok .extract)]
  simp only [mac_eq (show (hmacSha256 (hkdfSalt deviceId) deviceSecret).bytes.length ≤ 64 by omega)
    (hok _), ne_eq, not_true_eq_false, if_false]
  exact ⟨_, rfl, rfl, rfl⟩

/-- **A failed call** is an error. -/
theorem hkdfDirectionalKeys_fail {step : HkdfStep} {c : HashCall}
    (h : (env.faults step).fails c = true) :
    (hkdfDirectionalKeys env deviceSecret deviceId keys).1 ≠ .ok := by
  have hfail : EspErr.fail ≠ .ok := by decide
  by_cases hvalid : 16 ≤ deviceSecret.length ∧ deviceId.length = 36
  · obtain ⟨hsecret, hid⟩ := hvalid
    have hnil : deviceSecret ≠ [] := List.length_pos_iff.1 (by omega)
    rw [hkdfDirectionalKeys_eq env hsecret hid]
    dsimp only
    split
    next => exact hfail
    next hprk =>
      split
      next => exact hfail
      next hout =>
        split
        next => exact hfail
        next hinb =>
          cases step with
          | extract => exact absurd (mac_fail h _ hnil) hprk
          | deviceToServer => exact absurd (mac_fail h _ (by simp)) hout
          | serverToDevice => exact absurd (mac_fail h _ (by simp)) hinb
  · have hinvalid : EspErr.invalidArg ≠ .ok := by decide
    rw [hkdfDirectionalKeys, if_pos (by omega)]
    exact hinvalid

/-- **A failure in the second key** leaves neither. -/
theorem hkdfDirectionalKeys_second (hsecret : 16 ≤ deviceSecret.length)
    (hid : deviceId.length = 36) (hextract : ∀ c, (env.faults .extract).fails c = false)
    (hfirst : ∀ c, (env.faults .deviceToServer).fails c = false) {c : HashCall}
    (h : (env.faults .serverToDevice).fails c = true) :
    hkdfDirectionalKeys env deviceSecret deviceId keys = (.fail, ⟨.zero 32, .zero 32⟩) := by
  have hsalt := length_hkdfSalt hid
  have hprk := (hmacSha256 (hkdfSalt deviceId) deviceSecret).size
  rw [hkdfDirectionalKeys_eq env hsecret hid]
  simp only [mac_eq (show (hkdfSalt deviceId).length ≤ 64 by omega) hextract]
  simp only [mac_eq (show (hmacSha256 (hkdfSalt deviceId) deviceSecret).bytes.length ≤ 64 by omega)
    hfirst, ne_eq, not_true_eq_false, if_false]
  exact if_pos (mac_fail h _ (by simp))

end

/-- **Keys and MACs match the standards.** Without failures the MAC is HMAC-SHA256, for every key
and text, and the derived keys are those of HKDF-SHA256. A call on a hash operation that fails
leaves an error and a zeroed digest, the derivation of the keys is then an error as well, and if it
has come to the second key both are zeroed. -/
theorem keys_match_standards :
    (∀ (faults : HmacFaults) (key data : List UInt8), (∀ c, faults.fails c = false) →
      key.length ≤ 64 ∨ faults.computeFails = false →
      ∃ digest, pmHmacSha256 faults key data = (.ok, digest) ∧
        digest.bytes = Hmac.hmac sha256Bytes 64 key data) ∧
    (∀ (faults : HmacFaults) (key data : List UInt8) (c : HashCall), c.made data →
      faults.fails c = true → pmHmacSha256 faults key data = (.fail, .zero 32)) ∧
    ∀ (env : HkdfEnv) (deviceSecret deviceId : List UInt8) (keys : DirectionalKeys),
      16 ≤ deviceSecret.length → deviceId.length = 36 →
      ((∀ step c, (env.faults step).fails c = false) →
        ∃ derived, hkdfDirectionalKeys env deviceSecret deviceId keys = (.ok, derived) ∧
          derived.deviceToServer.bytes = Hmac.hkdf sha256Bytes 64 32
            (protocolId ++ 0 :: deviceId) deviceSecret (directionInfo "device-to-server") 32 ∧
          derived.serverToDevice.bytes = Hmac.hkdf sha256Bytes 64 32
            (protocolId ++ 0 :: deviceId) deviceSecret (directionInfo "server-to-device") 32) ∧
      (∀ step c, (env.faults step).fails c = true →
        (hkdfDirectionalKeys env deviceSecret deviceId keys).1 ≠ .ok) ∧
      ((∀ c, (env.faults .extract).fails c = false) →
        (∀ c, (env.faults .deviceToServer).fails c = false) →
        ∀ c, (env.faults .serverToDevice).fails c = true →
        hkdfDirectionalKeys env deviceSecret deviceId keys =
          (.fail, ⟨.zero 32, .zero 32⟩)) := by
  refine ⟨fun faults key data hok hcompute => ⟨_, pmHmacSha256_eq hok hcompute,
    hmacSha256_eq_hmac key data⟩, fun faults key data c hmade h => pmHmacSha256_fail hmade h,
    fun env deviceSecret deviceId keys hsecret hid => ⟨fun hok => ?_, fun step c h => ?_,
      fun hextract hfirst c h => ?_⟩⟩
  · exact hkdfDirectionalKeys_ok hsecret hid hok
  · exact hkdfDirectionalKeys_fail h
  · exact hkdfDirectionalKeys_second hsecret hid hextract hfirst h

end

/-! ### A sample -/

/-- The bytes 0, 1, …, 31. -/
def countingSecret : List UInt8 := (List.range 32).map UInt8.ofNat

/-- An identity of 36 zeros. -/
def zerosId : List UInt8 := List.replicate 36 0x30

/-- No call fails. -/
def HmacFaults.calm : HmacFaults := ⟨fun _ => false, false⟩

/-- One call on the hash operation fails. -/
def HmacFaults.only (failed : HashCall) : HmacFaults := ⟨fun c => c = failed, false⟩

/-- The MACs of one derivation, over arrays of zeros. -/
def HkdfEnv.zeroed (faults : HkdfStep → HmacFaults) : HkdfEnv := ⟨faults, .zero 54, .zero 32⟩

theorem keys_match_standards_counting :
    (∃ digest, @pmHmacSha256 .standard (@HashOperation.buffered .standard) .calm countingSecret
        zerosId = (.ok, digest) ∧
      digest.bytes = Hmac.hmac (@sha256Bytes .standard) 64 countingSecret zerosId) ∧
    @pmHmacSha256 .standard (@HashOperation.buffered .standard) (.only .innerData) countingSecret
      zerosId = (.fail, .zero 32) ∧
    (∃ derived, @hkdfDirectionalKeys .standard (@HashOperation.buffered .standard)
        (.zeroed fun _ => .calm) countingSecret zerosId ⟨.zero 32, .zero 32⟩ = (.ok, derived) ∧
      derived.deviceToServer.bytes = Hmac.hkdf (@sha256Bytes .standard) 64 32
        (protocolId ++ 0 :: zerosId) countingSecret (directionInfo "device-to-server") 32) ∧
    (@hkdfDirectionalKeys .standard (@HashOperation.buffered .standard)
      (.zeroed fun step => if step = .extract then .only .outerFinish else .calm) countingSecret
      zerosId ⟨.zero 32, .zero 32⟩).1 ≠ .ok ∧
    @hkdfDirectionalKeys .standard (@HashOperation.buffered .standard)
      (.zeroed fun step => if step = .serverToDevice then .only .innerSetup else .calm)
      countingSecret zerosId ⟨.zero 32, .zero 32⟩ = (.fail, ⟨.zero 32, .zero 32⟩) := by
  obtain ⟨hmac, hmacFail, hkdf⟩ :=
    @keys_match_standards .standard (@HashOperation.buffered .standard)
  have hsecret : 16 ≤ countingSecret.length := by decide
  have hid : zerosId.length = 36 := List.length_replicate
  refine ⟨hmac _ _ _ (fun _ => rfl) (.inr rfl),
    hmacFail _ _ _ .innerData (fun _ => by decide) (by decide), ?_, ?_, ?_⟩
  · obtain ⟨derived, hderived, hout, -⟩ :=
      (hkdf (.zeroed fun _ => .calm) _ _ ⟨.zero 32, .zero 32⟩ hsecret hid).1 fun _ _ => rfl
    exact ⟨derived, hderived, hout⟩
  · exact (hkdf _ _ _ _ hsecret hid).2.1 .extract .outerFinish (by decide)
  · exact (hkdf _ _ _ _ hsecret hid).2.2 (fun _ => rfl) (fun _ => rfl) .innerSetup (by decide)

/-- The first key of that secret, with SHA-256 as it is standardised. -/
example : (@hkdfDirectionalKeys .standard (@HashOperation.buffered .standard)
      (.zeroed fun _ => .calm) countingSecret (ascii "123e4567-e89b-42d3-a456-426614174000")
      ⟨.zero 32, .zero 32⟩).2.deviceToServer.bytes =
    [0x7b, 0xf6, 0xf9, 0x42, 0xc1, 0xd7, 0x92, 0x21, 0x81, 0xb8, 0xdd, 0x0b, 0xe5, 0x93, 0x8d, 0xc0,
     0xcf, 0x7b, 0x36, 0x74, 0x42, 0xa9, 0xfc, 0x11, 0xf4, 0x27, 0xf2, 0xc0, 0x90, 0xaf, 0x4b,
     0x7c] := by
  decide +kernel

end PowerMonitor.Protocol
