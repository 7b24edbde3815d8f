import Mathlib.Algebra.Order.Ring.Int
import Mathlib.Logic.Function.Iterate
import Mathlib.Tactic.Common

/-!
# Frames of the PZEM-004T meter

`pm_meter_pzem_v4_classic.c`: the checks of a response frame and the decoding of its registers, in
the machine integers of the source, with products in two's complement.

* `WellFormed`, `Reading` and `Reading.InRange` say what a frame means: its length, checksum and
  header, and its registers scaled in exact arithmetic.
* `DecodesExactly` compares the parser with that meaning.
* The active power is scaled after it was narrowed to 32 bits, so a register far out of range can
  come back into it: `PowerAliases`. `decodes_exactly_iff` says that this is the only way in which
  the parser is not exact.
-/

namespace PowerMonitor.Meter

/-! ## The parser -/

/-- One bit of `pm_modbus_crc16`. -/
def modbusBit (crc : UInt16) : UInt16 :=
  if crc &&& 1 ≠ 0 then (crc >>> 1) ^^^ 0xA001 else crc >>> 1

/-- `pm_modbus_crc16`. -/
def pmModbusCrc16 (data : List UInt8) : UInt16 :=
  data.foldl (fun crc byte => modbusBit^[8] (crc ^^^ byte.toUInt16)) 0xFFFF

/-- The request of the driver, whose checksum the documentation gives. -/
example : pmModbusCrc16 [0x01, 0x04, 0x00, 0x00, 0x00, 0x0A] = 0x0D70 := by decide +kernel

/-- The byte at an index of a frame. -/
def byteAt (frame : List UInt8) (i : ℕ) : UInt8 := frame.getD i 0

/-- `word_be (&frame[i])`. -/
def wordBe (frame : List UInt8) (i : ℕ) : UInt16 :=
  (byteAt frame i).toUInt16 <<< 8 ||| (byteAt frame (i + 1)).toUInt16

/-- `low_high_words (&frame[i])`. -/
def lowHighWords (frame : List UInt8) (i : ℕ) : UInt32 :=
  (wordBe frame i).toUInt32 ||| (wordBe frame (i + 2)).toUInt32 <<< 16

/-- `pm_pzem_status_t`. -/
inductive PzemStatus
  | ok | timeout | shortFrame | badCrc | wrongSlave | wrongFunction | invalidRange | notVerified
  | uartError
  deriving DecidableEq, Repr

/-- `pm_meter_sample_t`, as far as a frame fills it. -/
structure MeterSample where
  voltageMv : Int32 := 0
  currentMa : Int32 := 0
  activePowerMw : Int32 := 0
  frequencyMhz : Int32 := 0
  powerFactorMilli : Int32 := 0
  energyWh : UInt64 := 0
  alarmStatus : UInt16 := 0
  status : PzemStatus
  deriving DecidableEq

/-- `pm_meter_sample_valid`. -/
def pmMeterSampleValid (s : MeterSample) (ctRatingA : UInt16) : Bool :=
  ctRatingA ≠ 0 &&
  decide (0 ≤ s.voltageMv) && decide (s.voltageMv ≤ 300000) && decide (0 ≤ s.currentMa) &&
  decide (s.currentMa ≤ Int32.ofNat ctRatingA.toNat * 1100) && decide (0 ≤ s.activePowerMw) &&
  decide (s.activePowerMw ≤ 30000000) && decide (40000 ≤ s.frequencyMhz) &&
  decide (s.frequencyMhz ≤ 70000) && decide (0 ≤ s.powerFactorMilli) &&
  decide (s.powerFactorMilli ≤ 1000)

/-- The registers of a frame, as `pm_pzem_v4_classic_parse_response` decodes them. -/
def decodeRegisters (frame : List UInt8) : MeterSample where
  voltageMv := Int32.ofNat (wordBe frame 3).toNat * 100
  currentMa := (lowHighWords frame 5).toInt32
  activePowerMw := (lowHighWords frame 9).toInt32 * 100
  energyWh := (lowHighWords frame 13).toUInt64
  frequencyMhz := Int32.ofNat (wordBe frame 17).toNat * 100
  powerFactorMilli := Int32.ofNat (wordBe frame 19).toNat * 10
  alarmStatus := wordBe frame 21
  status := .ok

/-- `received_crc`: the two bytes after the checked ones, the low one first. -/
def receivedCrc (frame : List UInt8) : UInt16 :=
  (byteAt frame 23).toUInt16 ||| (byteAt frame 24).toUInt16 <<< 8

/-- `pm_pzem_v4_classic_parse_response`: the sample it fills, whose status it returns. -/
def pmPzemV4ClassicParseResponse (slave : UInt8) (frame : List UInt8) : MeterSample :=
  if frame.length ≠ 25 then { status := .shortFrame }
  else if pmModbusCrc16 (frame.take 23) ≠ receivedCrc frame then { status := .badCrc }
  else if byteAt frame 0 ≠ slave then { status := .wrongSlave }
  else if byteAt frame 1 ≠ 0x04 ∨ byteAt frame 2 ≠ 20 then { status := .wrongFunction }
  else
    let sample := decodeRegisters frame
    if pmMeterSampleValid sample 100 then sample else { sample with status := .invalidRange }

/-! ## What a frame means -/

/-- The 16-bit register at byte `i`. -/
def register (frame : List UInt8) (i : ℕ) : ℕ :=
  256 * (byteAt frame i).toNat + (byteAt frame (i + 1)).toNat

/-- The 32-bit register at byte `i`, whose low word comes first. -/
def longRegister (frame : List UInt8) (i : ℕ) : ℕ :=
  register frame i + 65536 * register frame (i + 2)

/-- A response of the slave to the driver's request, with a matching checksum. -/
structure WellFormed (slave : UInt8) (frame : List UInt8) : Prop where
  length : frame.length = 25
  checksum : pmModbusCrc16 (frame.take 23) = receivedCrc frame
  address : byteAt frame 0 = slave
  function : byteAt frame 1 = 0x04
  count : byteAt frame 2 = 20

/-- The values of a frame, in exact arithmetic. -/
structure Reading where
  voltageMv : ℤ
  currentMa : ℤ
  activePowerMw : ℤ
  frequencyMhz : ℤ
  powerFactorMilli : ℤ
  energyWh : ℤ
  alarmStatus : ℤ
  deriving DecidableEq

/-- The scaled registers of a frame. -/
def exactReading (frame : List UInt8) : Reading where
  voltageMv := 100 * register frame 3
  currentMa := longRegister frame 5
  activePowerMw := 100 * longRegister frame 9
  energyWh := longRegister frame 13
  frequencyMhz := 100 * register frame 17
  powerFactorMilli := 10 * register frame 19
  alarmStatus := register frame 21

/-- The values of a sample. -/
def MeterSample.reading (s : MeterSample) : Reading where
  voltageMv := s.voltageMv.toInt
  currentMa := s.currentMa.toInt
  activePowerMw := s.activePowerMw.toInt
  energyWh := s.energyWh.toNat
  frequencyMhz := s.frequencyMhz.toInt
  powerFactorMilli := s.powerFactorMilli.toInt
  alarmStatus := s.alarmStatus.toNat

/-- The ranges of `pm_meter_sample_valid` with a CT rating of 100, the active power apart. -/
structure Reading.OthersInRange (r : Reading) : Prop where
  voltage : 0 ≤ r.voltageMv ∧ r.voltageMv ≤ 300000
  current : 0 ≤ r.currentMa ∧ r.currentMa ≤ 110000
  frequency : 40000 ≤ r.frequencyMhz ∧ r.frequencyMhz ≤ 70000
  powerFactor : 0 ≤ r.powerFactorMilli ∧ r.powerFactorMilli ≤ 1000

/-- The ranges of `pm_meter_sample_valid` with a CT rating of 100. -/
structure Reading.InRange (r : Reading) : Prop extends r.OthersInRange where
  activePower : 0 ≤ r.activePowerMw ∧ r.activePowerMw ≤ 30000000

/-- **The parser decodes a frame exactly or rejects it.** -/
def DecodesExactly (slave : UInt8) (frame : List UInt8) : Prop :=
  ((pmPzemV4ClassicParseResponse slave frame).status = .ok ↔
    WellFormed slave frame ∧ (exactReading frame).InRange) ∧
  ((pmPzemV4ClassicParseResponse slave frame).status = .ok →
    (pmPzemV4ClassicParseResponse slave frame).reading = exactReading frame)

/-- The frame is accepted but for its active power, and that, out of range as it is, comes back into
range modulo `2 ^ 32`. -/
structure PowerAliases (slave : UInt8) (frame : List UInt8) : Prop where
  wellFormed : WellFormed slave frame
  others : (exactReading frame).OthersInRange
  power : 300000 < longRegister frame 9 ∧ 100 * longRegister frame 9 % 2 ^ 32 ≤ 30000000

/-! ## The registers -/

section Registers

variable (frame : List UInt8) (i : ℕ)

theorem register_lt : register frame i < 65536 := by
  have h₁ := (byteAt frame i).toNat_lt
  have h₂ := (byteAt frame (i + 1)).toNat_lt
  unfold register
  omega

theorem longRegister_lt : longRegister frame i < 2 ^ 32 := by
  have h₁ := register_lt frame i
  have h₂ := register_lt frame (i + 2)
  unfold longRegister
  omega

/-- A word whose low part is free is the sum of its parts. -/
theorem shift_or_eq_add {a b k : ℕ} (hb : b < 2 ^ k) : a <<< k ||| b = 2 ^ k * a + b := by
  rw [← Nat.shiftLeft_add_eq_or_of_lt hb, Nat.shiftLeft_eq, Nat.mul_comm]

@[simp] theorem toNat_wordBe : (wordBe frame i).toNat = register frame i := by
  have h₁ := (byteAt frame i).toNat_lt
  have h₂ := (byteAt frame (i + 1)).toNat_lt
  have hfit : (byteAt frame i).toNat <<< 8 % 2 ^ 16 = (byteAt frame i).toNat <<< 8 := by
    rw [Nat.shiftLeft_eq]
    omega
  unfold wordBe register
  rw [UInt16.toNat_or, UInt16.toNat_shiftLeft]
  simp only [UInt8.toNat_toUInt16, show (8 : UInt16).toNat % 16 = 8 from rfl, hfit]
  exact shift_or_eq_add h₂

@[simp] theorem toNat_lowHighWords : (lowHighWords frame i).toNat = longRegister frame i := by
  have h₁ := register_lt frame i
  have h₂ := register_lt frame (i + 2)
  have hfit : register frame (i + 2) <<< 16 % 2 ^ 32 = register frame (i + 2) <<< 16 := by
    rw [Nat.shiftLeft_eq]
    omega
  unfold lowHighWords longRegister
  rw [UInt32.toNat_or, UInt32.toNat_shiftLeft]
  simp only [UInt16.toNat_toUInt32, toNat_wordBe, show (16 : UInt32).toNat % 32 = 16 from rfl, hfit]
  rw [Nat.or_comm, shift_or_eq_add h₁]
  omega

/-- A 16-bit register scaled by at most 100 fits in 32 bits. -/
theorem toInt_scaled {n k : ℕ} (hn : n < 65536) (hk : k ≤ 100) :
    (Int32.ofNat n * Int32.ofNat k).toInt = k * n := by
  have hprod : k * n ≤ 100 * n := Nat.mul_le_mul_right n hk
  rw [Int32.toInt_mul, Int32.toInt_ofNat_of_lt (by omega), Int32.toInt_ofNat_of_lt (by omega),
    Int.mul_comm]
  rw [← Int.natCast_mul]
  rw [Int.bmod_def]
  omega

/-- A 32-bit register narrowed to `int32_t`. -/
theorem toInt_toInt32 (x : UInt32) : x.toInt32.toInt = (x.toNat : ℤ).bmod (2 ^ 32) := by
  have hx : x.toInt32 = Int32.ofNat x.toNat := by
    conv_lhs => rw [← UInt32.ofNat_toNat (x := x)]
    exact UInt32.toInt32_ofNat'
  rw [hx, Int32.toInt_ofNat']
  rfl

/-- The narrowed product of the active power. -/
theorem toInt_power : ((lowHighWords frame i).toInt32 * 100).toInt =
    ((100 * longRegister frame i : ℕ) : ℤ).bmod (2 ^ 32) := by
  rw [Int32.toInt_mul, toInt_toInt32, toNat_lowHighWords, Int.bmod_mul_bmod]
  congr 1
  push_cast
  exact Int.mul_comm _ _

/-- A number comes back into a small range exactly when its remainder is in it. -/
theorem bmod_in_range_iff (n limit : ℕ) (h : limit < 2 ^ 31) :
    0 ≤ (n : ℤ).bmod (2 ^ 32) ∧ (n : ℤ).bmod (2 ^ 32) ≤ limit ↔ n % 2 ^ 32 ≤ limit := by
  rw [Int.bmod_def]
  omega

theorem bmod_eq_of_lt {n : ℕ} (h : n < 2 ^ 31) : (n : ℤ).bmod (2 ^ 32) = n := by
  rw [Int.bmod_def]
  omega

end Registers

/-! ## The comparison -/

section Comparison

variable {slave : UInt8} {frame : List UInt8}

theorem parse_ok_iff : (pmPzemV4ClassicParseResponse slave frame).status = .ok ↔
    WellFormed slave frame ∧ pmMeterSampleValid (decodeRegisters frame) 100 = true := by
  unfold pmPzemV4ClassicParseResponse
  split
  next h => exact ⟨nofun, fun e => absurd e.1.length h⟩
  next hlen =>
  split
  next h => exact ⟨nofun, fun e => absurd e.1.checksum h⟩
  next hcrc =>
  split
  next h => exact ⟨nofun, fun e => absurd e.1.address h⟩
  next hslave =>
  split
  next h =>
    refine ⟨nofun, fun e => ?_⟩
    rcases h with h | h
    · exact absurd e.1.function h
    · exact absurd e.1.count h
  next hfun =>
  simp only [not_or, not_not] at hlen hcrc hslave hfun
  dsimp only
  split
  next hv => exact ⟨fun _ => ⟨⟨hlen, hcrc, hslave, hfun.1, hfun.2⟩, hv⟩, fun _ => rfl⟩
  next hv => exact ⟨nofun, fun e => absurd e.2 hv⟩

/-- What an accepted frame is decoded to. -/
theorem parse_eq (h : (pmPzemV4ClassicParseResponse slave frame).status = .ok) :
    pmPzemV4ClassicParseResponse slave frame = decodeRegisters frame := by
  obtain ⟨hw, hv⟩ := parse_ok_iff.1 h
  simp [pmPzemV4ClassicParseResponse, hw.length, hw.checksum, hw.address, hw.function, hw.count, hv]

/-- The decoded registers, but for the active power and a current that is out of range. -/
theorem decodeRegisters_reading :
    (decodeRegisters frame).reading = { exactReading frame with
      currentMa := (longRegister frame 5 : ℤ).bmod (2 ^ 32)
      activePowerMw := ((100 * longRegister frame 9 : ℕ) : ℤ).bmod (2 ^ 32) } := by
  have h100 : (100 : Int32) = Int32.ofNat 100 := rfl
  have h10 : (10 : Int32) = Int32.ofNat 10 := rfl
  have henergy := longRegister_lt frame 13
  simp only [MeterSample.reading, decodeRegisters, exactReading, toInt_power, toInt_toInt32,
    toNat_lowHighWords, toNat_wordBe, UInt32.toNat_toUInt64]
  rw [h100, h10, toInt_scaled (register_lt _ _) (by omega), toInt_scaled (register_lt _ _) (by omega),
    toInt_scaled (register_lt _ _) (by omega)]
  rfl

theorem sample_valid_iff : pmMeterSampleValid (decodeRegisters frame) 100 = true ↔
    (exactReading frame).OthersInRange ∧ 100 * longRegister frame 9 % 2 ^ 32 ≤ 30000000 := by
  have hr := @decodeRegisters_reading frame
  simp only [MeterSample.reading, exactReading, Reading.mk.injEq] at hr
  obtain ⟨hv, hc, hp, hf, hpf, -, -⟩ := hr
  have hlimit : (Int32.ofNat (100 : UInt16).toNat * 1100 : Int32).toInt = 110000 := by decide
  have hpower := bmod_in_range_iff (100 * longRegister frame 9) 30000000 (by decide)
  have hcurrent := bmod_in_range_iff (longRegister frame 5) 110000 (by decide)
  rw [Nat.mod_eq_of_lt (longRegister_lt frame 5)] at hcurrent
  rw [← hpower]
  simp only [pmMeterSampleValid, Bool.and_eq_true, decide_eq_true_eq, Int32.le_iff_toInt_le, hv, hc,
    hp, hf, hpf, hlimit]
  constructor
  · rintro ⟨⟨⟨⟨⟨⟨⟨⟨⟨⟨-, v₁⟩, v₂⟩, c₁⟩, c₂⟩, p₁⟩, p₂⟩, f₁⟩, f₂⟩, q₁⟩, q₂⟩
    refine ⟨⟨⟨v₁, v₂⟩, ⟨Int.natCast_nonneg _, ?_⟩, ⟨f₁, f₂⟩, ⟨q₁, q₂⟩⟩, p₁, p₂⟩
    exact Int.ofNat_le.2 (hcurrent.1 ⟨c₁, c₂⟩)
  · rintro ⟨⟨⟨v₁, v₂⟩, ⟨-, c⟩, ⟨f₁, f₂⟩, ⟨q₁, q₂⟩⟩, p₁, p₂⟩
    obtain ⟨c₁, c₂⟩ := hcurrent.2 (Int.ofNat_le.1 c)
    exact ⟨⟨⟨⟨⟨⟨⟨⟨⟨⟨by decide, v₁⟩, v₂⟩, c₁⟩, c₂⟩, p₁⟩, p₂⟩, f₁⟩, f₂⟩, q₁⟩, q₂⟩

/-- The active power is in range as it stands, unless it comes back into range. -/
theorem power_in_range_iff : (exactReading frame).InRange ↔
    (exactReading frame).OthersInRange ∧ longRegister frame 9 ≤ 300000 := by
  have hpower : (exactReading frame).activePowerMw = 100 * longRegister frame 9 := rfl
  constructor
  · intro h
    refine ⟨h.toOthersInRange, ?_⟩
    have := h.activePower.2
    omega
  · rintro ⟨h, hle⟩
    exact ⟨h, by omega, by omega⟩

/-- **The parser decodes exactly, or rejects, every frame whose active power does not come back
into range modulo `2 ^ 32`**, and no other frame. -/
theorem decodes_exactly_iff (slave : UInt8) (frame : List UInt8) :
    DecodesExactly slave frame ↔ ¬PowerAliases slave frame := by
  unfold DecodesExactly
  rw [power_in_range_iff, parse_ok_iff, sample_valid_iff]
  constructor
  · rintro ⟨hiff, -⟩ ⟨hw, ho, hgt, hle⟩
    have := (hiff.1 ⟨hw, ho, hle⟩).2.2
    omega
  · intro hno
    have hsmall : WellFormed slave frame → (exactReading frame).OthersInRange →
        100 * longRegister frame 9 % 2 ^ 32 ≤ 30000000 → longRegister frame 9 ≤ 300000 := by
      intro hw ho hle
      by_contra hgt
      exact hno ⟨hw, ho, by omega, hle⟩
    refine ⟨⟨?_, ?_⟩, ?_⟩
    · rintro ⟨hw, ho, hle⟩
      exact ⟨hw, ho, hsmall hw ho hle⟩
    · rintro ⟨hw, ho, hle⟩
      refine ⟨hw, ho, ?_⟩
      rw [Nat.mod_eq_of_lt (by omega)]
      omega
    · rintro ⟨hw, ho, hle⟩
      have hp := hsmall hw ho hle
      have hc : longRegister frame 5 ≤ 110000 := Int.ofNat_le.1 ho.current.2
      rw [parse_eq (parse_ok_iff.2 ⟨hw, sample_valid_iff.2 ⟨ho, hle⟩⟩), decodeRegisters_reading,
        bmod_eq_of_lt (by omega), bmod_eq_of_lt (by omega)]
      rfl

/-- The frame of a meter that reports 4294967.3 W. -/
def aliasedFrame : List UInt8 :=
  [1, 4, 20, 4, 177, 48, 57, 0, 0, 92, 41, 2, 143, 226, 64, 0, 1, 2, 88, 0, 98, 0, 0, 169, 251]

/-- It is accepted, with an active power of 4 mW. -/
theorem aliased_frame_accepted : ¬DecodesExactly 1 aliasedFrame ∧
    (pmPzemV4ClassicParseResponse 1 aliasedFrame).status = .ok ∧
    (pmPzemV4ClassicParseResponse 1 aliasedFrame).activePowerMw = 4 ∧
    (exactReading aliasedFrame).activePowerMw = 4294967300 := by
  have hok : (pmPzemV4ClassicParseResponse 1 aliasedFrame).status = .ok := by decide +kernel
  refine ⟨fun h => ?_, hok, by decide +kernel, by decide⟩
  have := (h.1.1 hok).2.activePower.2
  revert this
  decide

end Comparison

end PowerMonitor.Meter
