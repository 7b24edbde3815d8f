import PowerMonitor.Esp
import PowerMonitor.Foundations.CJson

/-!
# The OTA manifest

`pm_ota_manifest_parse_payload`: the payload of an `ota_install` command is a JSON object of exactly
seventeen members, each of which is checked and copied. Texts are modelled by their bytes, with the
capacity of the buffer each is copied to as a bound on its length.

`payloadImage` is the part of the payload that says which image the command installs, its size and
SHA-256, and `payloadImage_of_parse` that an accepted manifest agrees with it.
-/

namespace PowerMonitor.Ota

open CMemory CJson

/-- `pm_ota_manifest_t`. -/
structure Manifest where
  schema : List UInt8
  deviceId : List UInt8
  deploymentId : List UInt8
  releaseId : List UInt8
  version : List UInt8
  buildNumber : ℕ
  projectName : List UInt8
  targetChip : List UInt8
  boardProfile : List UInt8
  minimumBootVersion : ℕ
  minimumConfigVersion : ℕ
  minimumProtocol : List UInt8
  imageSize : ℕ
  imageSha256 : Bytes 32
  downloadPath : List UInt8
  downloadUrl : List UInt8
  manifestNonce : Bytes 16
  signature : Bytes 32

/-- `uuid_valid`: lower-case hexadecimal digits in groups of 8, 4, 4, 4 and 12. -/
def uuidValid (value : List UInt8) : Bool :=
  value.length = 36 && value.zipIdx.all fun (b, i) =>
    if i = 8 ∨ i = 13 ∨ i = 18 ∨ i = 23 then b = 0x2d
    else (0x30 ≤ b ∧ b ≤ 0x39) ∨ (0x61 ≤ b ∧ b ≤ 0x66)

/-- `string_copy`: the text of a member that is a nonempty single-line string of fewer than
`capacity` bytes. -/
def stringCopy (object : Json) (name : String) (capacity : ℕ) : Option (List UInt8) :=
  (object.textItem name).filter fun t => t ≠ [] ∧ t.length < capacity ∧ 0x0a ∉ t ∧ 0x0d ∉ t

/-- `u32_value`: the value of a member that is an integer from `minimum` to `UINT32_MAX`. -/
def u32Value (object : Json) (name : String) (minimum : ℕ) : Option ℕ :=
  match object.item name with
  | some (.number v) =>
    if v < minimum ∨ (uint32Max : ℚ) < v ∨ (⌊v⌋.toNat : ℚ) ≠ v then none else some ⌊v⌋.toNat
  | _ => none

/-- The value of a lower-case hexadecimal digit. -/
def hexDigit (b : UInt8) : Option UInt8 :=
  if 0x30 ≤ b ∧ b ≤ 0x39 then some (b - 0x30)
  else if 0x61 ≤ b ∧ b ≤ 0x66 then some (b - 0x61 + 10)
  else none

/-- The bytes of pairs of hexadecimal digits. -/
def hexPairs : List UInt8 → Option (List UInt8)
  | [] => some []
  | [_] => none
  | high :: low :: rest => do
    let h ← hexDigit high
    let l ← hexDigit low
    let tail ← hexPairs rest
    return (h <<< 4 ||| l) :: tail

/-- A list of `n` bytes as an array. -/
def toBytes? (n : ℕ) (l : List UInt8) : Option (Bytes n) :=
  if h : l.length = n then some ⟨l, h⟩ else none

/-- `hex_decode`. -/
def hexDecode (input : List UInt8) (n : ℕ) : Option (Bytes n) := (hexPairs input).bind (toBytes? n)

/-- `PM_OTA_SCHEMA`. -/
def otaSchema : List UInt8 := ascii "pm-ota-manifest/1.0.0"

/-- The server origin without its trailing slashes; `https://` itself is never cut. -/
def trimOrigin (origin : List UInt8) : List UInt8 :=
  origin.take 8 ++ ((origin.drop 8).reverse.dropWhile (· == 0x2f)).reverse

/-- The arguments `pm_ota_manifest_parse_payload` accepts. -/
def parseArguments (serverOrigin expectedDeviceId : List UInt8) : Bool :=
  uuidValid expectedDeviceId && serverOrigin.take 8 = ascii "https://" &&
    !serverOrigin.contains 0x3f && !serverOrigin.contains 0x23

/-- The size and the SHA-256 of the image a manifest object names. -/
def manifestImage (root : Json) : Option (ℕ × Bytes 32) := do
  let size ← u32Value root "image_size" 1
  let digest ← stringCopy root "sha256" 65
  let sha ← hexDecode digest 32
  return (size, sha)

variable [Base64]

/-- The members of the manifest object, checked and copied. -/
def manifestFields (root : Json) (serverOrigin expectedDeviceId : List UInt8) :
    Option Manifest := do
  let schema ← stringCopy root "schema" 22
  let deviceId ← stringCopy root "device_id" 37
  let deploymentId ← stringCopy root "deployment_id" 37
  let releaseId ← stringCopy root "release_id" 37
  let version ← stringCopy root "semantic_version" 32
  let buildNumber ← u32Value root "build_number" 1
  let projectName ← stringCopy root "project_name" 48
  let targetChip ← stringCopy root "target_chip" 16
  let boardProfile ← stringCopy root "board_profile" 64
  let minimumBootVersion ← u32Value root "minimum_boot_version" 1
  let minimumConfigVersion ← u32Value root "minimum_config_version" 1
  let minimumProtocol ← stringCopy root "minimum_protocol" 32
  let (imageSize, imageSha256) ← manifestImage root
  let downloadPath ← stringCopy root "download_path" 96
  let nonce ← stringCopy root "manifest_nonce" 33
  let signature64 ← stringCopy root "signature" 45
  let expectedPath := ascii "/api/v1/device/firmware/" ++ releaseId
  let manifestNonce ← hexDecode nonce 16
  let signature ← (base64Decode signature64).bind (toBytes? 32)
  let downloadUrl := trimOrigin serverOrigin ++ downloadPath
  if schema = otaSchema ∧ deviceId = expectedDeviceId ∧ uuidValid deviceId ∧
      uuidValid deploymentId ∧ uuidValid releaseId ∧ expectedPath.length < 96 ∧
      downloadPath = expectedPath ∧ signature64.length = 44 ∧ downloadUrl.length < 256 then
    some { schema, deviceId, deploymentId, releaseId, version, buildNumber, projectName, targetChip,
           boardProfile, minimumBootVersion, minimumConfigVersion, minimumProtocol, imageSize,
           imageSha256, downloadPath, downloadUrl, manifestNonce, signature }
  else none

theorem manifestImage_of_fields {root : Json} {origin device : List UInt8} {m : Manifest}
    (h : manifestFields root origin device = some m) :
    manifestImage root = some (m.imageSize, m.imageSha256) := by
  -- twelve members come before the image in the order of the copies, and five steps after it
  iterate 12 obtain ⟨_, -, h⟩ := Option.bind_eq_some_iff.1 h
  obtain ⟨⟨size, sha⟩, himage, h⟩ := Option.bind_eq_some_iff.1 h
  iterate 5 obtain ⟨_, -, h⟩ := Option.bind_eq_some_iff.1 h
  dsimp only at h
  split at h
  · obtain rfl := Option.some.inj h
    exact himage
  · cases h

variable [Parser]

/-- `pm_ota_manifest_parse_payload`. -/
def pmOtaManifestParsePayload (payload serverOrigin expectedDeviceId : List UInt8) :
    Except EspErr Manifest :=
  if !parseArguments serverOrigin expectedDeviceId then .error .invalidArg
  else
    match Parser.parse payload with
    | some (.object members) =>
      if members.length ≠ 17 then .error .invalidArg
      else
        match manifestFields (.object members) serverOrigin expectedDeviceId with
        | some manifest => .ok manifest
        | none => .error .invalidArg
    | _ => .error .invalidArg

/-- The image a payload names. -/
def payloadImage (payload : List UInt8) : Option (ℕ × Bytes 32) :=
  (Parser.parse payload).bind manifestImage

/-- **An accepted manifest names the image of its payload.** -/
theorem payloadImage_of_parse {payload origin device : List UInt8} {m : Manifest}
    (h : pmOtaManifestParsePayload payload origin device = .ok m) :
    payloadImage payload = some (m.imageSize, m.imageSha256) := by
  unfold pmOtaManifestParsePayload at h
  split at h
  · cases h
  split at h
  next members hparse =>
    split at h
    · cases h
    split at h
    next m' hfields =>
      obtain rfl : m' = m := by simpa using h
      simp only [payloadImage, hparse, Option.bind_some]
      exact manifestImage_of_fields hfields
    · cases h
  · cases h

end PowerMonitor.Ota
