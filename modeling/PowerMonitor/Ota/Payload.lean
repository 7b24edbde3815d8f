import Mathlib.Data.List.DropRight
import Mathlib.Data.List.Perm.Subperm
import PowerMonitor.Ota.Manifest

/-!
# What an accepted payload is

`pm_ota_manifest_parse_payload` counts seventeen members and looks up seventeen names, so what it
accepts has exactly these members. The download address is put together from the configured origin,
which is not signed, and the path of the signed release.

* `ManifestMembers` is what the copies of an accepted payload say about its members, and
  `parse_members` the inversion of the parser that gives it.
* `AcceptedPayload` is what acceptance means, and `payload_acceptance` the result.
* `scheme_slashes_are_kept` is the one case in which the address does not start with the origin
  without its trailing slashes: an origin that is nothing but `https://` and slashes keeps those of
  the scheme.
-/

namespace PowerMonitor.Ota

open CMemory CJson

/-! ## The members -/

/-- The members of a manifest. -/
def manifestNames : List String :=
  ["schema", "device_id", "deployment_id", "release_id", "semantic_version", "build_number",
    "project_name", "target_chip", "board_profile", "minimum_boot_version",
    "minimum_config_version", "minimum_protocol", "image_size", "sha256", "download_path",
    "manifest_nonce", "signature"]

/-- What the copies of a payload say about its members. -/
structure ManifestMembers [Base64] (root : Json) (m : Manifest) : Prop where
  schema : stringCopy root "schema" 22 = some m.schema
  deviceId : stringCopy root "device_id" 37 = some m.deviceId
  deploymentId : stringCopy root "deployment_id" 37 = some m.deploymentId
  releaseId : stringCopy root "release_id" 37 = some m.releaseId
  version : stringCopy root "semantic_version" 32 = some m.version
  buildNumber : u32Value root "build_number" 1 = some m.buildNumber
  projectName : stringCopy root "project_name" 48 = some m.projectName
  targetChip : stringCopy root "target_chip" 16 = some m.targetChip
  boardProfile : stringCopy root "board_profile" 64 = some m.boardProfile
  minimumBootVersion : u32Value root "minimum_boot_version" 1 = some m.minimumBootVersion
  minimumConfigVersion : u32Value root "minimum_config_version" 1 = some m.minimumConfigVersion
  minimumProtocol : stringCopy root "minimum_protocol" 32 = some m.minimumProtocol
  imageSize : u32Value root "image_size" 1 = some m.imageSize
  imageSha256 : ∃ t, stringCopy root "sha256" 65 = some t ∧ hexDecode t 32 = some m.imageSha256
  downloadPath : stringCopy root "download_path" 96 = some m.downloadPath
  manifestNonce : ∃ t, stringCopy root "manifest_nonce" 33 = some t ∧
    hexDecode t 16 = some m.manifestNonce
  signature : ∃ t, stringCopy root "signature" 45 = some t ∧
    (base64Decode t).bind (toBytes? 32) = some m.signature

/-- The checks across the members. -/
structure ManifestChecks (origin device : List UInt8) (m : Manifest) : Prop where
  schema : m.schema = otaSchema
  deviceId : m.deviceId = device
  device : uuidValid m.deviceId = true
  deployment : uuidValid m.deploymentId = true
  release : uuidValid m.releaseId = true
  path : m.downloadPath = ascii "/api/v1/device/firmware/" ++ m.releaseId
  url : m.downloadUrl = trimOrigin origin ++ m.downloadPath
  fits : m.downloadUrl.length < 256

section Inversion

variable [Base64]

theorem manifestFields_some {root : Json} {origin device : List UInt8} {m : Manifest}
    (h : manifestFields root origin device = some m) :
    ManifestMembers root m ∧ ManifestChecks origin device m := by
  obtain ⟨schema, h₁, h⟩ := Option.bind_eq_some_iff.1 h
  obtain ⟨deviceId, h₂, h⟩ := Option.bind_eq_some_iff.1 h
  obtain ⟨deploymentId, h₃, h⟩ := Option.bind_eq_some_iff.1 h
  obtain ⟨releaseId, h₄, h⟩ := Option.bind_eq_some_iff.1 h
  obtain ⟨version, h₅, h⟩ := Option.bind_eq_some_iff.1 h
  obtain ⟨buildNumber, h₆, h⟩ := Option.bind_eq_some_iff.1 h
  obtain ⟨projectName, h₇, h⟩ := Option.bind_eq_some_iff.1 h
  obtain ⟨targetChip, h₈, h⟩ := Option.bind_eq_some_iff.1 h
  obtain ⟨boardProfile, h₉, h⟩ := Option.bind_eq_some_iff.1 h
  obtain ⟨minimumBootVersion, h₁₀, h⟩ := Option.bind_eq_some_iff.1 h
  obtain ⟨minimumConfigVersion, h₁₁, h⟩ := Option.bind_eq_some_iff.1 h
  obtain ⟨minimumProtocol, h₁₂, h⟩ := Option.bind_eq_some_iff.1 h
  obtain ⟨⟨size, sha⟩, himage, h⟩ := Option.bind_eq_some_iff.1 h
  obtain ⟨downloadPath, h₁₃, h⟩ := Option.bind_eq_some_iff.1 h
  obtain ⟨nonce, h₁₄, h⟩ := Option.bind_eq_some_iff.1 h
  obtain ⟨signature64, h₁₅, h⟩ := Option.bind_eq_some_iff.1 h
  obtain ⟨manifestNonce, h₁₆, h⟩ := Option.bind_eq_some_iff.1 h
  obtain ⟨signature, h₁₇, h⟩ := Option.bind_eq_some_iff.1 h
  obtain ⟨size', h₁₈, himage⟩ := Option.bind_eq_some_iff.1 himage
  obtain ⟨digest, h₁₉, himage⟩ := Option.bind_eq_some_iff.1 himage
  obtain ⟨sha', h₂₀, himage⟩ := Option.bind_eq_some_iff.1 himage
  obtain ⟨rfl, rfl⟩ := Prod.mk.inj (Option.some.inj himage)
  dsimp only at h
  split at h
  next hchecks =>
    obtain rfl := Option.some.inj h
    obtain ⟨c₁, c₂, c₃, c₄, c₅, -, c₆, -, c₇⟩ := hchecks
    exact ⟨⟨h₁, h₂, h₃, h₄, h₅, h₆, h₇, h₈, h₉, h₁₀, h₁₁, h₁₂, h₁₈, ⟨digest, h₁₉, h₂₀⟩, h₁₃,
      ⟨nonce, h₁₄, h₁₆⟩, ⟨signature64, h₁₅, h₁₇⟩⟩, ⟨c₁, c₂, c₃, c₄, c₅, c₆, rfl, c₇⟩⟩
  · cases h

/-- **What the parser accepts.** -/
theorem parse_members [Parser] {payload origin device : List UInt8} {m : Manifest}
    (h : pmOtaManifestParsePayload payload origin device = .ok m) :
    ∃ members, Parser.parse payload = some (.object members) ∧ members.length = 17 ∧
      ManifestMembers (.object members) m ∧ ManifestChecks origin device m ∧
      parseArguments origin device = true := by
  unfold pmOtaManifestParsePayload at h
  split at h
  · cases h
  next hargs =>
  split at h
  next members hparse =>
    split at h
    · cases h
    next hlen =>
    split at h
    next m' hfields =>
      obtain rfl : m' = m := by simpa using h
      obtain ⟨hmem, hchecks⟩ := manifestFields_some hfields
      exact ⟨members, hparse, not_not.1 hlen, hmem, hchecks, by simpa using hargs⟩
    · cases h
  · cases h

end Inversion

/-! ## Exactly seventeen -/

section Names

variable {members : List (List UInt8 × Json)} {name : String}

theorem mem_names_of_item {j : Json} (h : (Json.object members).item name = some j) :
    ascii name ∈ members.map Prod.fst := by
  obtain ⟨p, hp, -⟩ := Option.map_eq_some_iff.1 h
  have hname := List.find?_some hp
  simp only [decide_eq_true_eq] at hname
  exact hname ▸ List.mem_map_of_mem (List.mem_of_find?_eq_some hp)

theorem mem_names_of_stringCopy {capacity : ℕ} {t : List UInt8}
    (h : stringCopy (.object members) name capacity = some t) :
    ascii name ∈ members.map Prod.fst := by
  obtain ⟨htext, -⟩ := Option.filter_eq_some_iff.1 h
  obtain ⟨j, hj, -⟩ := Option.bind_eq_some_iff.1 htext
  exact mem_names_of_item hj

theorem mem_names_of_u32Value {minimum n : ℕ}
    (h : u32Value (.object members) name minimum = some n) : ascii name ∈ members.map Prod.fst := by
  unfold u32Value at h
  split at h
  next hj => exact mem_names_of_item hj
  · cases h

theorem manifestNames_nodup : (manifestNames.map ascii).Nodup := by decide +kernel

/-- A count of seventeen and seventeen names make the members exactly the named ones. -/
theorem members_perm [Base64] {m : Manifest} (hlen : members.length = 17)
    (h : ManifestMembers (.object members) m) :
    (members.map Prod.fst).Perm (manifestNames.map ascii) := by
  have hsub : manifestNames.map ascii ⊆ members.map Prod.fst := by
    intro t ht
    simp only [manifestNames, List.map_cons, List.map_nil, List.mem_cons, List.not_mem_nil,
      or_false] at ht
    obtain ⟨_, hsha, -⟩ := h.imageSha256
    obtain ⟨_, hnonce, -⟩ := h.manifestNonce
    obtain ⟨_, hsig, -⟩ := h.signature
    rcases ht with rfl | rfl | rfl | rfl | rfl | rfl | rfl | rfl | rfl | rfl | rfl | rfl | rfl |
      rfl | rfl | rfl | rfl
    · exact mem_names_of_stringCopy h.schema
    · exact mem_names_of_stringCopy h.deviceId
    · exact mem_names_of_stringCopy h.deploymentId
    · exact mem_names_of_stringCopy h.releaseId
    · exact mem_names_of_stringCopy h.version
    · exact mem_names_of_u32Value h.buildNumber
    · exact mem_names_of_stringCopy h.projectName
    · exact mem_names_of_stringCopy h.targetChip
    · exact mem_names_of_stringCopy h.boardProfile
    · exact mem_names_of_u32Value h.minimumBootVersion
    · exact mem_names_of_u32Value h.minimumConfigVersion
    · exact mem_names_of_stringCopy h.minimumProtocol
    · exact mem_names_of_u32Value h.imageSize
    · exact mem_names_of_stringCopy hsha
    · exact mem_names_of_stringCopy h.downloadPath
    · exact mem_names_of_stringCopy hnonce
    · exact mem_names_of_stringCopy hsig
  have hsubperm := List.subperm_of_subset manifestNames_nodup hsub
  refine (hsubperm.perm_of_length_le ?_).symm
  rw [List.length_map, List.length_map, hlen]
  exact le_rfl

end Names

/-! ## The address -/

/-- A text without its trailing slashes. -/
def withoutTrailingSlashes (text : List UInt8) : List UInt8 := text.rdropWhile (· == 0x2f)

/-- The origin without its trailing slashes, of which those of `https://` itself are kept. -/
def bareOrigin (origin : List UInt8) : List UInt8 :=
  if (withoutTrailingSlashes origin).length < 8 then ascii "https://"
  else withoutTrailingSlashes origin

section Origin

variable {origin : List UInt8}

theorem trimOrigin_eq (h : origin.take 8 = ascii "https://") :
    trimOrigin origin = bareOrigin origin := by
  have hscheme : (ascii "https://").rdropWhile (· == 0x2f) = ascii "https:" := by decide +kernel
  have hlen : (ascii "https://").length = 8 := by decide +kernel
  have hbare : withoutTrailingSlashes origin =
      if ((origin.drop 8).rdropWhile (· == 0x2f)) = [] then ascii "https:"
      else origin.take 8 ++ (origin.drop 8).rdropWhile (· == 0x2f) := by
    conv_lhs => rw [← List.take_append_drop 8 origin]
    unfold withoutTrailingSlashes List.rdropWhile
    rw [List.reverse_append, List.dropWhile_append]
    by_cases hempty : (origin.drop 8).reverse.dropWhile (· == 0x2f) = []
    · rw [hempty, h]
      exact hscheme
    · have hne : ((origin.drop 8).reverse.dropWhile (· == 0x2f)).isEmpty = false := by
        simpa [List.isEmpty_iff] using hempty
      rw [hne, if_neg (by simp), if_neg (by simpa using hempty)]
      simp
  unfold trimOrigin bareOrigin
  rw [hbare]
  by_cases hempty : (origin.drop 8).rdropWhile (· == 0x2f) = []
  · rw [if_pos hempty, if_pos (by decide +kernel), h]
    simpa using congrArg (ascii "https://" ++ ·) hempty
  · rw [if_neg hempty, if_neg]
    · rfl
    · rw [List.length_append, h, hlen]
      omega

theorem bareOrigin_prefix (h : origin.take 8 = ascii "https://") : bareOrigin origin <+: origin := by
  unfold bareOrigin
  split
  · rw [← h]
    exact List.take_prefix 8 origin
  · exact List.rdropWhile_prefix _ _

end Origin

/-! ## Acceptance -/

/-- A text of the form of a lower-case UUID: 36 characters, hyphens after the groups of 8, 4, 4 and
4, and lower-case hexadecimal digits. -/
def LowercaseUuid (text : List UInt8) : Prop :=
  text.length = 36 ∧ ∀ i b, text[i]? = some b →
    if i = 8 ∨ i = 13 ∨ i = 18 ∨ i = 23 then b = 0x2d
    else (0x30 ≤ b ∧ b ≤ 0x39) ∨ (0x61 ≤ b ∧ b ≤ 0x66)

theorem uuidValid_iff {text : List UInt8} : uuidValid text = true ↔ LowercaseUuid text := by
  simp only [uuidValid, Bool.and_eq_true, decide_eq_true_eq, List.all_eq_true, LowercaseUuid]
  refine and_congr_right fun _ => ⟨fun h i b hb => ?_, fun h c hc => ?_⟩
  · have hchar := h (b, i) (List.mk_mem_zipIdx_iff_getElem?.2 hb)
    dsimp only at hchar
    split at hchar
    next hi =>
      rw [if_pos hi]
      simpa using hchar
    next hi =>
      rw [if_neg hi]
      simpa using hchar
  · obtain ⟨b, i⟩ := c
    have hchar := h i b (List.mk_mem_zipIdx_iff_getElem?.1 hc)
    dsimp only
    split at hchar
    next hi =>
      rw [if_pos hi]
      simpa using hchar
    next hi =>
      rw [if_neg hi]
      simpa using hchar

/-- **What acceptance of a payload means.** -/
structure AcceptedPayload [Parser] (payload origin device : List UInt8) (m : Manifest) : Prop where
  /-- The seventeen members of a manifest, each once, and nothing else. -/
  members : ∃ members, Parser.parse payload = some (.object members) ∧
    (members.map Prod.fst).Perm (manifestNames.map ascii)
  release : LowercaseUuid m.releaseId
  deployment : LowercaseUuid m.deploymentId
  deviceId : LowercaseUuid m.deviceId ∧ m.deviceId = device
  /-- The address is on the configured origin. -/
  url : m.downloadUrl =
    bareOrigin origin ++ (ascii "/api/v1/device/firmware/" ++ m.releaseId)
  withinOrigin : bareOrigin origin <+: origin
  fits : m.downloadUrl.length < 256

/-- `pm_ota_manifest_parse_payload` on the caller's manifest: its result, and the manifest
afterwards. -/
def parsePayloadInto [Base64] [Parser] (manifest : Manifest)
    (payload serverOrigin expectedDeviceId : List UInt8) : EspErr × Manifest :=
  match pmOtaManifestParsePayload payload serverOrigin expectedDeviceId with
  | .ok candidate => (.ok, candidate)
  | .error e => (e, manifest)

section Acceptance

variable [Base64] [Parser]

theorem accepted_of_parse {payload origin device : List UInt8} {m : Manifest}
    (h : pmOtaManifestParsePayload payload origin device = .ok m) :
    AcceptedPayload payload origin device m := by
  obtain ⟨members, hparse, hlen, hmem, hchecks, hargs⟩ := parse_members h
  simp only [parseArguments, Bool.and_eq_true, decide_eq_true_eq] at hargs
  have hscheme := hargs.1.1.2
  exact
    { members := ⟨members, hparse, members_perm hlen hmem⟩
      release := uuidValid_iff.1 hchecks.release
      deployment := uuidValid_iff.1 hchecks.deployment
      deviceId := ⟨uuidValid_iff.1 hchecks.device, hchecks.deviceId⟩
      url := by rw [hchecks.url, hchecks.path, trimOrigin_eq hscheme]
      withinOrigin := bareOrigin_prefix hscheme
      fits := hchecks.fits }

theorem parse_error_ne_ok {payload origin device : List UInt8} {e : EspErr}
    (h : pmOtaManifestParsePayload payload origin device = .error e) : e ≠ .ok := by
  unfold pmOtaManifestParsePayload at h
  split at h
  · cases h
    decide
  split at h
  · split at h
    · cases h
      decide
    split at h
    · cases h
    · cases h
      decide
  · cases h
    decide

/-- **Payload acceptance.** What is accepted is a manifest of exactly its seventeen members for this
device, with its address on the configured origin; a rejected payload leaves the caller's manifest
alone; and no origin of at most 192 characters makes the address too long for its buffer. -/
theorem payload_acceptance (payload origin device : List UInt8) (manifest : Manifest) :
    ((parsePayloadInto manifest payload origin device).1 = .ok →
      AcceptedPayload payload origin device (parsePayloadInto manifest payload origin device).2) ∧
    ((parsePayloadInto manifest payload origin device).1 ≠ .ok →
      (parsePayloadInto manifest payload origin device).2 = manifest) ∧
    (origin.length ≤ 192 → ∀ releaseId, uuidValid releaseId = true →
      (trimOrigin origin ++ (ascii "/api/v1/device/firmware/" ++ releaseId)).length < 256) := by
  refine ⟨?_, ?_, ?_⟩
  · unfold parsePayloadInto
    split
    next candidate h => exact fun _ => accepted_of_parse h
    next e h => exact fun hok => absurd hok (parse_error_ne_ok h)
  · unfold parsePayloadInto
    split
    · exact fun hne => absurd rfl hne
    · exact fun _ => rfl
  · intro hlen releaseId hrelease
    have hpath : (ascii "/api/v1/device/firmware/").length = 24 := by decide +kernel
    have hid := (uuidValid_iff.1 hrelease).1
    have htrim : (trimOrigin origin).length ≤ origin.length := by
      unfold trimOrigin
      have hdrop := (List.dropWhile_sublist (fun b : UInt8 => b == 0x2f)
        (l := (origin.drop 8).reverse)).length_le
      rw [List.length_reverse] at hdrop
      rw [List.length_append, List.length_reverse]
      have := congrArg List.length (List.take_append_drop 8 origin)
      rw [List.length_append] at this
      omega
    rw [List.length_append, List.length_append, hpath, hid]
    omega

end Acceptance

/-! ## An origin without a host -/

/-- A payload up to its nonce. -/
def sampleHead : List UInt8 := ascii ("\x7b\"schema\":\"pm-ota-manifest/1.0.0\"," ++
  "\"device_id\":\"00000000-0000-4000-8000-000000000001\"," ++
  "\"deployment_id\":\"00000000-0000-4000-8000-000000000002\"," ++
  "\"release_id\":\"00000000-0000-4000-8000-000000000003\"," ++
  "\"semantic_version\":\"0.2.0\",\"build_number\":7," ++
  "\"project_name\":\"power-monitor-sensor-headless\",\"target_chip\":\"esp32s3\"," ++
  "\"board_profile\":\"esp32-s3-devkitc-n16r8-reference/1\",\"minimum_boot_version\":1," ++
  "\"minimum_config_version\":1,\"minimum_protocol\":\"pm-protocol/1.0.0\",\"image_size\":3," ++
  "\"sha256\":\"ba7816bf8f01cfea414140de5dae2223b00361a396177a9cb410ff61f20015ad\"," ++
  "\"download_path\":\"/api/v1/device/firmware/00000000-0000-4000-8000-000000000003\"," ++
  "\"manifest_nonce\":\"")

/-- The rest of a payload. -/
def sampleTail : List UInt8 :=
  ascii "\",\"signature\":\"AAAAAAAAAAAAAAAAAAAAAAAAAAAAAAAAAAAAAAAAAAA=\"\x7d"

/-- The payload of a nonce. -/
def samplePayload (nonce : List UInt8) : List UInt8 := sampleHead ++ nonce ++ sampleTail

/-- The members of a payload. -/
def sampleObject (nonce : List UInt8) : Json := .object [
  (ascii "schema", .string otaSchema),
  (ascii "device_id", .string (ascii "00000000-0000-4000-8000-000000000001")),
  (ascii "deployment_id", .string (ascii "00000000-0000-4000-8000-000000000002")),
  (ascii "release_id", .string (ascii "00000000-0000-4000-8000-000000000003")),
  (ascii "semantic_version", .string (ascii "0.2.0")),
  (ascii "build_number", .number 7),
  (ascii "project_name", .string (ascii "power-monitor-sensor-headless")),
  (ascii "target_chip", .string (ascii "esp32s3")),
  (ascii "board_profile", .string (ascii "esp32-s3-devkitc-n16r8-reference/1")),
  (ascii "minimum_boot_version", .number 1),
  (ascii "minimum_config_version", .number 1),
  (ascii "minimum_protocol", .string (ascii "pm-protocol/1.0.0")),
  (ascii "image_size", .number 3),
  (ascii "sha256", .string
    (ascii "ba7816bf8f01cfea414140de5dae2223b00361a396177a9cb410ff61f20015ad")),
  (ascii "download_path", .string
    (ascii "/api/v1/device/firmware/00000000-0000-4000-8000-000000000003")),
  (ascii "manifest_nonce", .string nonce),
  (ascii "signature", .string (ascii "AAAAAAAAAAAAAAAAAAAAAAAAAAAAAAAAAAAAAAAAAAA="))]

/-- Two nonces. -/
def nonceA : List UInt8 := ascii "000102030405060708090a0b0c0d0e0f"
def nonceB : List UInt8 := ascii "101112131415161718191a1b1c1d1e1f"

/-- The parser, on the payloads of these nonces. -/
@[reducible] def sampleParser : Parser where
  parse text :=
    if text = samplePayload nonceA then some (sampleObject nonceA)
    else if text = samplePayload nonceB then some (sampleObject nonceB)
    else none

/-- The device of the payloads. -/
def sampleDevice : List UInt8 := ascii "00000000-0000-4000-8000-000000000001"

theorem sampleParser_parse {nonce : List UInt8} (h : nonce = nonceA ∨ nonce = nonceB) :
    sampleParser.parse (samplePayload nonce) = some (sampleObject nonce) := by
  have hne : samplePayload nonceB ≠ samplePayload nonceA := by
    intro heq
    have := List.append_cancel_left (List.append_cancel_right heq)
    revert this
    decide +kernel
  rcases h with rfl | rfl
  · exact if_pos rfl
  · exact (if_neg hne).trans (if_pos rfl)

/-- A payload is accepted when its members are. -/
theorem sample_accepted (nonce origin : List UInt8) (h : nonce = nonceA ∨ nonce = nonceB)
    (hargs : parseArguments origin sampleDevice = true)
    (hfields : (@manifestFields Base64.standard (sampleObject nonce) origin sampleDevice).isSome =
      true) : ∃ m, @manifestFields Base64.standard (sampleObject nonce) origin sampleDevice = some m ∧
    @pmOtaManifestParsePayload Base64.standard sampleParser (samplePayload nonce) origin
      sampleDevice = .ok m := by
  obtain ⟨m, hm⟩ := Option.isSome_iff_exists.1 hfields
  refine ⟨m, hm, ?_⟩
  unfold pmOtaManifestParsePayload
  rw [sampleParser_parse h, hargs]
  simp only [sampleObject] at hm ⊢
  simp [hm]

/-- On the origin `https://`, the address keeps the slashes of the scheme. -/
theorem scheme_slashes_are_kept : ∃ m,
    @pmOtaManifestParsePayload Base64.standard sampleParser (samplePayload nonceA)
      (ascii "https://") sampleDevice = .ok m ∧
    m.downloadUrl ≠ withoutTrailingSlashes (ascii "https://") ++
      (ascii "/api/v1/device/firmware/" ++ m.releaseId) := by
  have hurl : ((@manifestFields Base64.standard (sampleObject nonceA) (ascii "https://")
      sampleDevice).map fun m => decide (m.downloadUrl ≠ withoutTrailingSlashes (ascii "https://") ++
        (ascii "/api/v1/device/firmware/" ++ m.releaseId))) = some true := by decide +kernel
  have hsome := congrArg Option.isSome hurl
  rw [Option.isSome_map] at hsome
  obtain ⟨m, hfields, hparse⟩ := sample_accepted nonceA (ascii "https://")
    (.inl rfl) (by decide +kernel) hsome
  refine ⟨m, hparse, ?_⟩
  rw [hfields, Option.map_some, Option.some.injEq] at hurl
  exact of_decide_eq_true hurl

end PowerMonitor.Ota
