import PowerMonitor.Foundations.Crc
import PowerMonitor.Meter.Pzem

/-!
# Bursts on the meter bus

A frame whose checksum matches is one that leaves no remainder when the checksum is taken in after
the bytes it covers (`crc_matches_iff`). A burst of errors within 16 bits, in the order in which the
UART sends them, always leaves one: `burst_caught`.
-/

namespace PowerMonitor.Meter

/-- The polynomial of `pm_modbus_crc16`. -/
def modbusPoly : BitVec 16 := 0xA001

theorem toBitVec_modbusBit (crc : UInt16) :
    (modbusBit crc).toBitVec = Crc.step modbusPoly crc.toBitVec := by
  have hlow : crc &&& 1 ≠ 0 ↔ crc.toBitVec.getLsbD 0 = true := by
    rw [ne_eq, ← UInt16.toBitVec_inj]
    have hand : (crc &&& 1).toBitVec = BitVec.setWidth 16 (BitVec.ofBool (crc.toBitVec.getLsbD 0)) := by
      rw [UInt16.toBitVec_and]
      exact BitVec.and_one_eq_setWidth_ofBool_getLsbD
    rw [hand]
    cases crc.toBitVec.getLsbD 0 <;> decide
  simp only [modbusBit, Crc.step, hlow]
  cases crc.toBitVec.getLsbD 0 <;> simp [modbusPoly]

/-- The checksum, bit by bit. -/
theorem toBitVec_pmModbusCrc16 (data : List UInt8) :
    (pmModbusCrc16 data).toBitVec = Crc.feed modbusPoly 0xFFFF (Crc.textBits data) :=
  Crc.feed_of_register (by decide) UInt16.toBitVec toBitVec_modbusBit
    (fun crc b => by rw [UInt16.toBitVec_xor, UInt8.toBitVec_toUInt16]) 0xFFFF data

/-- The remainder of a text that includes its checksum. -/
def remainder (text : List UInt8) : BitVec 16 := Crc.feed modbusPoly 0xFFFF (Crc.textBits text)

theorem modbusPoly_high : modbusPoly.getLsbD (16 - 1) = true := by decide

/-- The two bytes of the checksum, as they are taken in. -/
theorem word_checksum (low high : UInt8) : Crc.word 16 (Crc.textBits [low, high]) =
    (low.toUInt16 ||| high.toUInt16 <<< 8).toBitVec := by
  have hshift : (high.toUInt16 <<< 8).toBitVec = high.toBitVec.setWidth 16 <<< 8 := rfl
  apply BitVec.eq_of_getLsbD_eq
  intro i hi
  rw [Crc.getLsbD_word, UInt16.toBitVec_or, BitVec.getLsbD_or, hshift, UInt8.toBitVec_toUInt16,
    BitVec.getLsbD_setWidth, BitVec.getLsbD_shiftLeft, BitVec.getLsbD_setWidth, Crc.textBits_cons,
    Crc.textBits_cons, Crc.textBits_nil, List.append_nil, List.getD_eq_getElem?_getD,
    List.getElem?_append, Crc.length_byteBits]
  by_cases hlow : i < 8
  · rw [if_pos hlow, Crc.getElem?_byteBits _ hlow]
    simp [hi, hlow]
  · have hhigh : i - 8 < 8 := by omega
    have hlt : i - 8 < 16 := by omega
    rw [if_neg hlow, Crc.getElem?_byteBits _ hhigh, BitVec.getLsbD_of_ge _ _ (Nat.not_lt.1 hlow)]
    simp [hi, hlow, hlt]

/-- **The checksum matches** exactly when there is no remainder. -/
theorem crc_matches_iff {frame : List UInt8} (h : frame.length = 25) :
    pmModbusCrc16 (frame.take 23) = receivedCrc frame ↔ remainder frame = 0#16 := by
  have htail : frame.drop 23 = [byteAt frame 23, byteAt frame 24] := by
    rw [List.drop_eq_getElem_cons (by omega), List.drop_eq_getElem_cons (by omega),
      List.drop_of_length_le (by omega)]
    simp [byteAt, h]
  have hremainder : remainder frame = (Crc.step modbusPoly)^[16]
      ((pmModbusCrc16 (frame.take 23)).toBitVec ^^^ (receivedCrc frame).toBitVec) := by
    have hbits : Crc.textBits frame = Crc.textBits (frame.take 23) ++
        Crc.textBits [byteAt frame 23, byteAt frame 24] := by
      rw [← htail, ← Crc.textBits_append, List.take_append_drop]
    rw [remainder, hbits, Crc.feed_append, ← toBitVec_pmModbusCrc16,
      Crc.feed_eq_iterate _ _ (by simp), word_checksum]
    simp only [Crc.length_textBits, List.length_cons, List.length_nil]
    rfl
  rw [hremainder]
  constructor
  · intro heq
    rw [heq, BitVec.xor_self, Crc.iterate_step_zero]
  · intro hzero
    have hxor := Crc.eq_zero_of_iterate modbusPoly_high hzero
    exact UInt16.toBitVec_inj.1 (BitVec.xor_eq_zero_iff.1 hxor)

/-- A frame with a checksum that does not match is answered so, unless its length is wrong. -/
theorem status_badCrc_iff (slave : UInt8) {frame : List UInt8} (h : frame.length = 25) :
    (pmPzemV4ClassicParseResponse slave frame).status = .badCrc ↔ remainder frame ≠ 0#16 := by
  rw [ne_eq, ← crc_matches_iff h, pmPzemV4ClassicParseResponse, if_neg (not_not.2 h)]
  split
  next hcrc => exact iff_of_true rfl hcrc
  next hcrc =>
    refine iff_of_false ?_ (not_not.2 (not_not.1 hcrc))
    split
    next => decide
    next =>
      split
      next => decide
      next =>
        dsimp only
        split
        next => simp [decodeRegisters]
        next => simp

/-- **Every short burst is caught.** A frame that passes the check of its checksum, changed in bits
that lie within 16 consecutive ones of the UART's order, does not pass it any more. -/
theorem burst_caught (slave slave' : UInt8) {frame error : List UInt8} (hframe : frame.length = 25)
    (hpass : (pmPzemV4ClassicParseResponse slave frame).status ≠ .badCrc)
    (herror : error.length = 25) (hset : ∃ i, Crc.bitAt error i = true)
    (hburst : ∃ start, ∀ i, Crc.bitAt error i = true → start ≤ i ∧ i < start + 16) :
    (pmPzemV4ClassicParseResponse slave' (List.zipWith (· ^^^ ·) frame error)).status = .badCrc := by
  have hlength : frame.length = error.length := hframe.trans herror.symm
  rw [ne_eq, status_badCrc_iff slave hframe, not_not] at hpass
  rw [status_badCrc_iff slave' (by simp [hframe, herror])]
  have hsum : remainder (List.zipWith (· ^^^ ·) frame error) =
      remainder frame ^^^ Crc.feed modbusPoly 0#16 (Crc.textBits error) := by
    rw [remainder, remainder, Crc.textBits_xor hlength, ← Crc.feed_xor _ _ _ (by simp [hlength]),
      BitVec.xor_zero]
  rw [hsum, hpass, BitVec.zero_xor]
  obtain ⟨start, hburst⟩ := hburst
  obtain ⟨i, hi⟩ := hset
  have hbit : ∀ j, (Crc.textBits error)[j]? = some true ↔ Crc.bitAt error j = true := by
    intro j
    rw [← Crc.getD_textBits, List.getD_eq_getElem?_getD]
    cases (Crc.textBits error)[j]? <;> simp
  exact Crc.feed_ne_zero modbusPoly_high (List.mem_of_getElem? ((hbit i).2 hi))
    fun j hj => hburst j ((hbit j).1 hj)

/-- A response, whose checksum is in the last two bytes. -/
def burstFrame : List UInt8 :=
  [1, 4, 20, 9, 97, 4, 226, 0, 0, 10, 145, 0, 0, 18, 52, 0, 1, 2, 88, 0, 90, 0, 0, 92, 242]

/-- A burst of 16 bits, from the last bit of the registers to the last but one of the checksum. -/
def burstError : List UInt8 := List.replicate 22 0 ++ [0x80, 0, 0x40]

theorem burst_of_sixteen :
    (pmPzemV4ClassicParseResponse 1 (List.zipWith (· ^^^ ·) burstFrame burstError)).status =
      .badCrc := by
  refine burst_caught 1 1 (by decide) (by decide +kernel) (by decide)
    ⟨183, by decide⟩ ⟨183, fun i hi => ?_⟩
  have hbits : ∀ i < 200, Crc.bitAt burstError i = true → 183 ≤ i ∧ i < 183 + 16 := by decide +kernel
  refine hbits i (Nat.lt_of_not_le fun hle => ?_) hi
  rw [Crc.bitAt_of_le hle] at hi
  cases hi

end PowerMonitor.Meter
