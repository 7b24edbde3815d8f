import PowerMonitor.Esp
import PowerMonitor.Config.Crc32

/-!
# The configuration record

`pm_config_t` with its memory layout, and `pm_config_validate`, which every read of a configuration
slot passes through.
-/

namespace PowerMonitor.Config

open CMemory

/-- `pm_ipv4_mode_t`; `other` is a value outside the enumeration. -/
inductive Ipv4Mode
  | dhcp
  | static
  | other (value : ℕ)
  deriving DecidableEq, Repr

/-- The value of the enumerator. -/
def Ipv4Mode.value : Ipv4Mode → ℕ
  | dhcp => 0
  | static => 1
  | other v => v

/-- `pm_meter_variant_t`; `other` is a value outside the enumeration. -/
inductive MeterVariant
  | unspecified
  | pzem004tV4Classic
  | other (value : ℕ)
  deriving DecidableEq, Repr

/-- The value of the enumerator. -/
def MeterVariant.value : MeterVariant → ℕ
  | unspecified => 0
  | pzem004tV4Classic => 1
  | other v => v

/-- `PM_CONFIG_SCHEMA_VERSION`. -/
def schemaVersion : ℕ := 1

/-- `pm_config_t`. -/
structure PmConfig where
  schemaVersion : ℕ
  generation : ℕ
  deviceId : Bytes 16
  friendlyName : Bytes 49
  wifiSsid : Bytes 33
  wifiPassword : Bytes 64
  ipv4Mode : Ipv4Mode
  ipv4Address : ℕ
  ipv4Gateway : ℕ
  ipv4Netmask : ℕ
  dnsPrimary : ℕ
  dnsSecondary : ℕ
  serverOrigin : Bytes 193
  caPem : Bytes 4097
  timezone : Bytes 65
  ctRatingA : ℕ
  meterVariant : MeterVariant
  deviceSecret : Bytes 32
  deviceSecretLen : ℕ
  sequenceFloor : ℕ
  acknowledgedSequence : ℕ
  resetGeneration : ℕ
  crc32 : UInt32
  deriving DecidableEq

/-- The zeroed configuration. -/
def PmConfig.zero : PmConfig where
  schemaVersion := 0
  generation := 0
  deviceId := Bytes.zero 16
  friendlyName := Bytes.zero 49
  wifiSsid := Bytes.zero 33
  wifiPassword := Bytes.zero 64
  ipv4Mode := .dhcp
  ipv4Address := 0
  ipv4Gateway := 0
  ipv4Netmask := 0
  dnsPrimary := 0
  dnsSecondary := 0
  serverOrigin := Bytes.zero 193
  caPem := Bytes.zero 4097
  timezone := Bytes.zero 65
  ctRatingA := 0
  meterVariant := .unspecified
  deviceSecret := Bytes.zero 32
  deviceSecretLen := 0
  sequenceFloor := 0
  acknowledgedSequence := 0
  resetGeneration := 0
  crc32 := 0

/-- The memory of a configuration before its `crc32`, padding included. -/
def PmConfig.memory (c : PmConfig) : List UInt8 :=
  le 4 c.schemaVersion ++ le 4 c.generation ++ c.deviceId.bytes ++ c.friendlyName.bytes ++
  c.wifiSsid.bytes ++ c.wifiPassword.bytes ++ le 2 0 ++ le 4 c.ipv4Mode.value ++
  le 4 c.ipv4Address ++ le 4 c.ipv4Gateway ++ le 4 c.ipv4Netmask ++ le 4 c.dnsPrimary ++
  le 4 c.dnsSecondary ++ c.serverOrigin.bytes ++ c.caPem.bytes ++ c.timezone.bytes ++ le 1 0 ++
  le 2 c.ctRatingA ++ le 2 0 ++ le 4 c.meterVariant.value ++ c.deviceSecret.bytes ++
  le 1 c.deviceSecretLen ++ le 7 0 ++ le 8 c.sequenceFloor ++ le 8 c.acknowledgedSequence ++
  le 4 c.resetGeneration

/-- The memory of a whole configuration. -/
def PmConfig.image (c : PmConfig) : List UInt8 := c.memory ++ le 4 c.crc32.toNat

/-- `sizeof (pm_config_t)`. -/
def configBytes : ℕ := 4624

/-- `config_crc`. -/
def configCrc (c : PmConfig) : UInt32 := pmCrc32Ieee c.memory

/-- `strncmp (origin, "https://", 8) == 0`. -/
def httpsOrigin (origin : List UInt8) : Bool :=
  origin.take 8 = [0x68, 0x74, 0x74, 0x70, 0x73, 0x3a, 0x2f, 0x2f]

/-- `pm_config_validate`. -/
def pmConfigValidate (c : PmConfig) (productionGate : Bool) : EspErr :=
  if c.schemaVersion ≠ schemaVersion ∨ c.crc32 ≠ configCrc c then .invalidCrc
  else if !c.friendlyName.terminated || !c.wifiSsid.terminated || !c.wifiPassword.terminated ||
      !c.serverOrigin.terminated || !c.caPem.terminated || !c.timezone.terminated then .invalidSize
  else if c.friendlyName.firstIsNul || c.wifiSsid.firstIsNul || !httpsOrigin c.serverOrigin.str ||
      c.caPem.firstIsNul || c.timezone.firstIsNul || c.ctRatingA = 0 || decide (100 < c.ctRatingA) ||
      decide (32 < c.deviceSecretLen) || decide (c.sequenceFloor < c.acknowledgedSequence) then
    .invalidArg
  else if productionGate && c.meterVariant ≠ .pzem004tV4Classic then .notSupported
  else if c.ipv4Mode = .static && (c.ipv4Address = 0 || c.ipv4Gateway = 0 || c.ipv4Netmask = 0 ||
      c.dnsPrimary = 0) then .invalidArg
  else .ok

/-- What passes the checks for production passes the others. -/
theorem pmConfigValidate_of_production {c : PmConfig} (h : pmConfigValidate c true = .ok) :
    pmConfigValidate c false = .ok := by
  unfold pmConfigValidate at h ⊢
  split_ifs at h with hcrc hsize harg hgate hipv4
  case neg => simp [hcrc, hsize, harg, hipv4]
  all_goals exact absurd h (by decide)

/-- The candidate as `pm_config_begin` stages it: the current schema and a fresh checksum. -/
def staged (candidate : PmConfig) : PmConfig :=
  let c := { candidate with schemaVersion := schemaVersion }
  { c with crc32 := configCrc c }

theorem staged_crc32 (candidate : PmConfig) :
    (staged candidate).crc32 = configCrc (staged candidate) := rfl

/-- A candidate of the current schema with a current checksum is staged as it is. -/
theorem staged_eq {c : PmConfig} (hs : c.schemaVersion = schemaVersion)
    (hc : c.crc32 = configCrc c) : staged c = c := by
  have : { c with schemaVersion := schemaVersion } = c := by rw [← hs]
  simp only [staged, this, ← hc]

/-- A short text in a buffer. -/
def sampleText (n : ℕ) : Bytes (n + 1) := (Bytes.zero (n + 1)).print [0x61]

/-- A configuration that passes its checks, those for production included. -/
def sampleConfig : PmConfig :=
  { PmConfig.zero with
    generation := 1
    friendlyName := sampleText 48
    wifiSsid := sampleText 32
    serverOrigin := (Bytes.zero 193).print [0x68, 0x74, 0x74, 0x70, 0x73, 0x3a, 0x2f, 0x2f, 0x61]
    caPem := sampleText 4096
    timezone := sampleText 64
    ctRatingA := 100
    meterVariant := .pzem004tV4Classic }

theorem sampleConfig_production : pmConfigValidate (staged sampleConfig) true = .ok := by
  have hcrc : ¬((staged sampleConfig).schemaVersion ≠ schemaVersion ∨
      (staged sampleConfig).crc32 ≠ configCrc (staged sampleConfig)) := by
    rintro (h | h)
    · exact h rfl
    · exact h (staged_crc32 sampleConfig)
  rw [pmConfigValidate, if_neg hcrc]
  decide

theorem sampleConfig_valid : pmConfigValidate (staged sampleConfig) false = .ok :=
  pmConfigValidate_of_production sampleConfig_production

end PowerMonitor.Config
