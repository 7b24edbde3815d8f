import Mathlib.Tactic.Ring
import PowerMonitor.Config.Record
import PowerMonitor.Ota.Payload
import PowerMonitor.Ota.Version
import PowerMonitor.Protocol.Verify

/-!
# The canonical manifest

`pm_ota_manifest_canonical` writes the sixteen signed fields of a manifest, one to a line, and
`pm_ota_verify_manifest` checks the signature over that text before anything is downloaded.

No field of an accepted payload holds a line feed, so the lines of the text are the fields
(`canonicalText_injective`), and the capacities of the fields keep the text within the buffer of
`pm_ota_verify_manifest`: `signature_binds_every_field`.
-/

namespace PowerMonitor.Ota

open CMemory CJson CText Protocol

/-! ## The functions of the source -/

/-- The lines of the canonical text. -/
def manifestLines (m : Manifest) : List (List UInt8) :=
  [ascii "PM-OTA-MANIFEST-V1", m.schema, m.deviceId, m.deploymentId, m.releaseId, m.version,
    printUnsigned m.buildNumber, m.projectName, m.targetChip, m.boardProfile,
    printUnsigned m.minimumBootVersion, printUnsigned m.minimumConfigVersion, m.minimumProtocol,
    printUnsigned m.imageSize, hexLower m.imageSha256.bytes, m.downloadPath,
    hexLower m.manifestNonce.bytes]

/-- The canonical text: the lines, with a line feed between them. -/
def canonicalText (m : Manifest) : List UInt8 := [0x0a].intercalate (manifestLines m)

/-- `pm_ota_manifest_canonical`, into a buffer of `outputSize` bytes. -/
def pmOtaManifestCanonical (m : Manifest) (outputSize : ℕ) : Except EspErr (List UInt8) :=
  if m.schema = [] ∨ m.deviceId = [] ∨ m.deploymentId = [] ∨ m.releaseId = [] ∨ m.version = [] ∨
      m.projectName = [] ∨ m.targetChip = [] ∨ m.boardProfile = [] ∨ m.downloadPath = [] ∨
      m.imageSize = 0 then .error .invalidArg
  else if (canonicalText m).length < outputSize then .ok (canonicalText m)
  else .error .invalidSize

/-- `PM_BOARD_PROFILE`. -/
def boardProfile : List UInt8 := ascii "esp32-s3-devkitc-n16r8-reference/1"

/-- `PM_BOOT_ABI_VERSION`. -/
def bootAbiVersion : ℕ := 1

/-- The checks of `pm_ota_verify_manifest` on the fields. -/
def manifestSupported (m : Manifest) : Bool :=
  m.schema = otaSchema && uuidValid m.deviceId && uuidValid m.deploymentId &&
    uuidValid m.releaseId && m.projectName = ascii "power-monitor-sensor-headless" &&
    m.targetChip = ascii "esp32s3" && m.boardProfile = boardProfile &&
    m.minimumProtocol = protocolId && m.minimumBootVersion ≠ 0 &&
    decide (m.minimumBootVersion ≤ bootAbiVersion) && m.minimumConfigVersion ≠ 0 &&
    decide (m.minimumConfigVersion ≤ Config.schemaVersion) &&
    m.downloadUrl.take 8 = ascii "https://"

/-- `pm_ota_verify_manifest`, with the version of the running image, if it has a description, and
whether the HMAC could be computed. -/
def pmOtaVerifyManifest [Sha256] (m : Manifest) (serverToDeviceKey : Bytes 32)
    (running : Option (List UInt8)) (hmacFails : Bool) : EspErr :=
  if !manifestSupported m then .notSupported
  else
    match pmOtaManifestCanonical m 1024 with
    | .error e => e
    | .ok canonical =>
      let expected := hmacSha256 serverToDeviceKey.bytes canonical
      if hmacFails then .fail
      else if !constantTimeEqual expected.bytes m.signature.bytes then .invalidCrc
      else
        match running with
        | none => .notSupported
        | some version =>
          if pmOtaVersionRequireUpgrade version m.version = .ok then .ok else .notSupported

/-- The fields of two manifests that the signature covers agree. -/
structure SameSigned (m m' : Manifest) : Prop where
  schema : m.schema = m'.schema
  deviceId : m.deviceId = m'.deviceId
  deploymentId : m.deploymentId = m'.deploymentId
  releaseId : m.releaseId = m'.releaseId
  version : m.version = m'.version
  buildNumber : m.buildNumber = m'.buildNumber
  projectName : m.projectName = m'.projectName
  targetChip : m.targetChip = m'.targetChip
  boardProfile : m.boardProfile = m'.boardProfile
  minimumBootVersion : m.minimumBootVersion = m'.minimumBootVersion
  minimumConfigVersion : m.minimumConfigVersion = m'.minimumConfigVersion
  minimumProtocol : m.minimumProtocol = m'.minimumProtocol
  imageSize : m.imageSize = m'.imageSize
  imageSha256 : m.imageSha256 = m'.imageSha256
  downloadPath : m.downloadPath = m'.downloadPath
  manifestNonce : m.manifestNonce = m'.manifestNonce

/-! ## Hexadecimal text -/

section Hex

theorem hexByte_decode (b : UInt8) :
    hexDigit (hexAlphabet.getD (b >>> 4).toNat 0) = some (b >>> 4) ∧
      hexDigit (hexAlphabet.getD (b &&& 0x0f).toNat 0) = some (b &&& 0x0f) ∧
      ((b >>> 4) <<< 4 ||| (b &&& 0x0f)) = b := by
  revert b
  exact forall_byte (by decide +kernel)

/-- Reading back what `pm_hex_lower` wrote. -/
theorem hexPairs_hexLower (data : List UInt8) : hexPairs (hexLower data) = some data := by
  induction data with
  | nil => rfl
  | cons b data ih =>
    obtain ⟨hhigh, hlow, hbyte⟩ := hexByte_decode b
    have hcons : hexLower (b :: data) = hexAlphabet.getD (b >>> 4).toNat 0 ::
        hexAlphabet.getD (b &&& 0x0f).toNat 0 :: hexLower data := rfl
    rw [hcons, hexPairs, hhigh, hlow, ih]
    simp [hbyte]

theorem bytes_eq_of_hexLower {n : ℕ} {a b : Bytes n} (h : hexLower a.bytes = hexLower b.bytes) :
    a = b := by
  have hbytes : a.bytes = b.bytes :=
    Option.some.inj ((hexPairs_hexLower a.bytes).symm.trans (h ▸ hexPairs_hexLower b.bytes))
  cases a
  cases b
  congr

end Hex

/-! ## The lines -/

/-- What the parser guarantees of the fields: texts of a line, within their capacities, and numbers
of 32 bits. -/
structure Printable (m : Manifest) : Prop where
  lines : ∀ line ∈ manifestLines m, 0x0a ∉ line
  nonempty : ¬(m.schema = [] ∨ m.deviceId = [] ∨ m.deploymentId = [] ∨ m.releaseId = [] ∨
    m.version = [] ∨ m.projectName = [] ∨ m.targetChip = [] ∨ m.boardProfile = [] ∨
    m.downloadPath = [] ∨ m.imageSize = 0)
  length : (canonicalText m).length < 1024

theorem stringCopy_some {root : Json} {name : String} {capacity : ℕ} {t : List UInt8}
    (h : stringCopy root name capacity = some t) : t ≠ [] ∧ t.length < capacity ∧ 0x0a ∉ t := by
  obtain ⟨-, hp⟩ := Option.filter_eq_some_iff.1 h
  simp only [decide_eq_true_eq] at hp
  exact ⟨hp.1, hp.2.1, hp.2.2.1⟩

theorem u32Value_some {root : Json} {name : String} {minimum n : ℕ}
    (h : u32Value root name minimum = some n) : minimum ≤ n ∧ n < 2 ^ 32 := by
  unfold u32Value at h
  split at h
  next v hv =>
    split at h
    · cases h
    next hrange =>
      obtain rfl := Option.some.inj h
      simp only [not_or, not_lt, ne_eq, not_not] at hrange
      obtain ⟨hmin, hmax, heq⟩ := hrange
      rw [← heq] at hmin hmax
      have hmax' : ⌊v⌋.toNat ≤ uint32Max := by exact_mod_cast hmax
      have hmin' : minimum ≤ ⌊v⌋.toNat := by exact_mod_cast hmin
      refine ⟨hmin', ?_⟩
      unfold uint32Max at hmax'
      omega
  · cases h

theorem newline_notMem_printUnsigned (n : ℕ) : 0x0a ∉ printUnsigned n := fun h =>
  absurd (isdigit_of_mem_printUnsigned h) (by decide)

theorem newline_notMem_hexLower (data : List UInt8) : 0x0a ∉ hexLower data := fun h =>
  absurd (hexLower_digits h) (by decide)

theorem length_canonicalText (m : Manifest) : (canonicalText m).length =
    18 + m.schema.length + m.deviceId.length + m.deploymentId.length + m.releaseId.length +
      m.version.length + (printUnsigned m.buildNumber).length + m.projectName.length +
      m.targetChip.length + m.boardProfile.length + (printUnsigned m.minimumBootVersion).length +
      (printUnsigned m.minimumConfigVersion).length + m.minimumProtocol.length +
      (printUnsigned m.imageSize).length + 64 + m.downloadPath.length + 32 + 16 := by
  have hheader : (ascii "PM-OTA-MANIFEST-V1").length = 18 := by decide +kernel
  have hsha : (hexLower m.imageSha256.bytes).length = 64 := by
    rw [hexLower_length, m.imageSha256.size]
  have hnonce : (hexLower m.manifestNonce.bytes).length = 32 := by
    rw [hexLower_length, m.manifestNonce.size]
  simp only [canonicalText, manifestLines, List.intercalate_cons_cons, List.intercalate_singleton,
    List.length_append, List.length_cons, List.length_nil, hheader, hsha, hnonce]
  ring

theorem printable_of_members [Base64] {root : Json} {m : Manifest} (h : ManifestMembers root m) :
    Printable m := by
  obtain ⟨n₁, l₁, f₁⟩ := stringCopy_some h.schema
  obtain ⟨n₂, l₂, f₂⟩ := stringCopy_some h.deviceId
  obtain ⟨n₃, l₃, f₃⟩ := stringCopy_some h.deploymentId
  obtain ⟨n₄, l₄, f₄⟩ := stringCopy_some h.releaseId
  obtain ⟨n₅, l₅, f₅⟩ := stringCopy_some h.version
  obtain ⟨n₆, l₆, f₆⟩ := stringCopy_some h.projectName
  obtain ⟨n₇, l₇, f₇⟩ := stringCopy_some h.targetChip
  obtain ⟨n₈, l₈, f₈⟩ := stringCopy_some h.boardProfile
  obtain ⟨-, l₉, f₉⟩ := stringCopy_some h.minimumProtocol
  obtain ⟨n₁₀, l₁₀, f₁₀⟩ := stringCopy_some h.downloadPath
  have hprint : ∀ n : ℕ, n < 2 ^ 32 → (printUnsigned n).length ≤ 10 := fun n hn =>
    length_printUnsigned_le (by omega) (by omega)
  have p₁ := hprint _ (u32Value_some h.buildNumber).2
  have p₂ := hprint _ (u32Value_some h.minimumBootVersion).2
  have p₃ := hprint _ (u32Value_some h.minimumConfigVersion).2
  have p₄ := hprint _ (u32Value_some h.imageSize).2
  refine ⟨?_, ?_, ?_⟩
  · simp only [manifestLines, List.forall_mem_cons]
    exact ⟨by decide +kernel, f₁, f₂, f₃, f₄, f₅, newline_notMem_printUnsigned _, f₆, f₇, f₈,
      newline_notMem_printUnsigned _, newline_notMem_printUnsigned _, f₉,
      newline_notMem_printUnsigned _, newline_notMem_hexLower _, f₁₀, newline_notMem_hexLower _,
      fun _ h => by cases h⟩
  · have hsize := (u32Value_some h.imageSize).1
    simp only [n₁, n₂, n₃, n₄, n₅, n₆, n₇, n₈, n₁₀, false_or]
    omega
  · rw [length_canonicalText]
    omega

/-- **The lines can be told apart**, so equal texts have equal fields. -/
theorem canonicalText_injective {m m' : Manifest} (h : ∀ line ∈ manifestLines m, 0x0a ∉ line)
    (h' : ∀ line ∈ manifestLines m', 0x0a ∉ line) (heq : canonicalText m = canonicalText m') :
    SameSigned m m' := by
  have hlines : manifestLines m = manifestLines m' := by
    rw [← List.splitOn_intercalate 0x0a h (by simp [manifestLines]),
      ← List.splitOn_intercalate 0x0a h' (by simp [manifestLines])]
    exact congrArg _ heq
  simp only [manifestLines, List.cons.injEq, and_true, true_and] at hlines
  obtain ⟨h₁, h₂, h₃, h₄, h₅, h₆, h₇, h₈, h₉, h₁₀, h₁₁, h₁₂, h₁₃, h₁₄, h₁₅, h₁₆⟩ := hlines
  exact ⟨h₁, h₂, h₃, h₄, h₅, printUnsigned_injective h₆, h₇, h₈, h₉, printUnsigned_injective h₁₀,
    printUnsigned_injective h₁₁, h₁₂, printUnsigned_injective h₁₃, bytes_eq_of_hexLower h₁₄, h₁₅,
    bytes_eq_of_hexLower h₁₆⟩

theorem canonical_of_printable {m : Manifest} (h : Printable m) :
    pmOtaManifestCanonical m 1024 = .ok (canonicalText m) := by
  unfold pmOtaManifestCanonical
  rw [if_neg h.nonempty, if_pos h.length]

/-- **The signature binds every signed field**: the canonical text of an accepted payload fits the
buffer it is written to, whole, and two accepted payloads with one text agree in every field. -/
theorem signature_binds_every_field [Base64] [Parser] {payload origin device : List UInt8}
    {payload' origin' device' : List UInt8} {m m' : Manifest}
    (h : pmOtaManifestParsePayload payload origin device = .ok m)
    (h' : pmOtaManifestParsePayload payload' origin' device' = .ok m') :
    pmOtaManifestCanonical m 1024 = .ok (canonicalText m) ∧
    pmOtaManifestCanonical m' 1024 = .ok (canonicalText m') ∧
    (pmOtaManifestCanonical m 1024 = pmOtaManifestCanonical m' 1024 → SameSigned m m') := by
  obtain ⟨members, -, -, hmem, -⟩ := parse_members h
  obtain ⟨members', -, -, hmem', -⟩ := parse_members h'
  have hp := printable_of_members hmem
  have hp' := printable_of_members hmem'
  rw [canonical_of_printable hp, canonical_of_printable hp']
  refine ⟨rfl, rfl, fun heq => ?_⟩
  exact canonicalText_injective hp.lines hp'.lines (by simpa using heq)

/-- Two payloads that differ in their nonce, whose texts differ. -/
theorem signature_binds_sample : ∃ m m',
    @pmOtaManifestParsePayload Base64.standard sampleParser (samplePayload nonceA)
      (ascii "https://server") sampleDevice = .ok m ∧
    @pmOtaManifestParsePayload Base64.standard sampleParser (samplePayload nonceB)
      (ascii "https://server/") sampleDevice = .ok m' ∧
    pmOtaManifestCanonical m 1024 = .ok (canonicalText m) ∧
    pmOtaManifestCanonical m 1024 ≠ pmOtaManifestCanonical m' 1024 := by
  have hA : ((@manifestFields Base64.standard (sampleObject nonceA) (ascii "https://server")
      sampleDevice).map (·.manifestNonce.bytes)) = hexPairs nonceA := by decide +kernel
  have hB : ((@manifestFields Base64.standard (sampleObject nonceB) (ascii "https://server/")
      sampleDevice).map (·.manifestNonce.bytes)) = hexPairs nonceB := by decide +kernel
  have hne : hexPairs nonceA ≠ hexPairs nonceB := by decide +kernel
  have hsomeA : (hexPairs nonceA).isSome = true := by decide +kernel
  have hsomeB : (hexPairs nonceB).isSome = true := by decide +kernel
  rw [← hA, Option.isSome_map] at hsomeA
  rw [← hB, Option.isSome_map] at hsomeB
  obtain ⟨m, hfields, hm⟩ := sample_accepted nonceA (ascii "https://server")
    (.inl rfl) (by decide +kernel) hsomeA
  obtain ⟨m', hfields', hm'⟩ := sample_accepted nonceB (ascii "https://server/")
    (.inr rfl) (by decide +kernel) hsomeB
  obtain ⟨htext, -, hsame⟩ := @signature_binds_every_field Base64.standard sampleParser _ _ _ _ _ _
    _ _ hm hm'
  refine ⟨m, m', hm, hm', htext, fun heq => hne ?_⟩
  rw [← hA, ← hB, hfields, hfields', Option.map_some, Option.map_some, (hsame heq).manifestNonce]

end PowerMonitor.Ota
