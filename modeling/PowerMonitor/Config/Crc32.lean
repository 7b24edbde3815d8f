import PowerMonitor.Foundations.CMemory
import PowerMonitor.Foundations.Crc

/-!
# The IEEE CRC32 of `pm_config.c`

`pm_crc32_ieee` guards every record the firmware keeps in NVS: the command ledger and its entries,
the OTA checkpoint and the configuration slots.
-/

namespace PowerMonitor.Config

open CMemory

/-- One bit of `pm_crc32_ieee`: shift right, and add the reflected polynomial when the bit shifted
out is set. -/
def crc32Bit (crc : UInt32) : UInt32 :=
  (crc >>> 1) ^^^ (0xEDB88320 &&& (0 - (crc &&& 1)))

/-- One byte of `pm_crc32_ieee`. -/
def crc32Byte (crc : UInt32) (byte : UInt8) : UInt32 :=
  crc32Bit^[8] (crc ^^^ byte.toUInt32)

/-- `pm_crc32_ieee`. -/
def pmCrc32Ieee (data : List UInt8) : UInt32 :=
  ~~~ data.foldl crc32Byte 0xFFFFFFFF

/-- The check value of the CRC: the text `123456789`. -/
example : pmCrc32Ieee [49, 50, 51, 52, 53, 54, 55, 56, 57] = 0xCBF43926 := by decide +kernel

theorem toBitVec_crc32Bit (crc : UInt32) :
    (crc32Bit crc).toBitVec = Crc.step 0xEDB88320#32 crc.toBitVec := by
  have hlow : (crc &&& 1).toBitVec = BitVec.setWidth 32 (BitVec.ofBool (crc.toBitVec.getLsbD 0)) := by
    rw [UInt32.toBitVec_and]
    exact BitVec.and_one_eq_setWidth_ofBool_getLsbD
  have hmask : (0xEDB88320 &&& (0 - (crc &&& 1))).toBitVec =
      if crc.toBitVec.getLsbD 0 then 0xEDB88320#32 else 0#32 := by
    rw [UInt32.toBitVec_and, UInt32.toBitVec_sub, hlow]
    cases crc.toBitVec.getLsbD 0 <;> decide
  rw [crc32Bit, UInt32.toBitVec_xor, hmask]
  rfl

/-- **The checksum is the CRC32 of IEEE 802.3.** -/
theorem toBitVec_pmCrc32Ieee (data : List UInt8) : (pmCrc32Ieee data).toBitVec = Crc.ieee data := by
  have hfold : (data.foldl (fun crc b => crc32Bit^[8] (crc ^^^ b.toUInt32)) 0xFFFFFFFF).toBitVec =
      Crc.feed 0xEDB88320#32 (BitVec.allOnes 32) (Crc.textBits data) :=
    Crc.feed_of_register (by decide) UInt32.toBitVec toBitVec_crc32Bit
      (fun crc b => by rw [UInt32.toBitVec_xor, UInt8.toBitVec_toUInt32]) 0xFFFFFFFF data
  rw [Crc.ieee, pmCrc32Ieee, UInt32.toBitVec_not]
  exact congrArg (~~~·) hfold

/-- A stored checksum, as the register takes it in. -/
theorem word_le (crc : UInt32) : Crc.word 32 (Crc.textBits (le 4 crc.toNat)) = crc.toBitVec := by
  apply BitVec.eq_of_getLsbD_eq
  intro i hi
  have hbyte : (le 4 crc.toNat).getD (i / 8) 0 = UInt8.ofNat (crc.toNat / 2 ^ (8 * (i / 8))) := by
    have hlt : i / 8 < 4 := by omega
    rw [List.getD_eq_getElem?_getD, le, List.getElem?_map, List.getElem?_range hlt, Nat.pow_mul]
    rfl
  have hplace : i % 8 + 8 * (i / 8) = i := by omega
  have hmod : i % 8 < 8 := by omega
  have hbit : (UInt8.ofNat (crc.toNat / 2 ^ (8 * (i / 8)))).toBitVec.getLsbD (i % 8) =
      crc.toBitVec.getLsbD i := by
    rw [UInt8.toBitVec_ofNat', BitVec.getLsbD_ofNat, Nat.testBit_div_two_pow, hplace,
      decide_eq_true hmod, Bool.true_and]
    rfl
  rw [Crc.getLsbD_word, Crc.getD_textBits, Crc.bitAt, hbyte, hbit, decide_eq_true hi, Bool.true_and]

end PowerMonitor.Config
