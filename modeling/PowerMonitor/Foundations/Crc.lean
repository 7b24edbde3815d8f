import Mathlib.Logic.Function.Iterate
import Mathlib.Tactic.Common

/-!
# Reflected cyclic redundancy checks

A register of `w` bits takes in a stream of bits, least significant bit first: a bit is added to the
low end, the register moves down by one, and the polynomial is added if a bit fell out.

* `step_xor` and `feed_xor`: all of it is linear over exclusive or.
* `feed_eq_iterate` takes in up to `w` bits at once.
* `feed_ne_zero`: a stream whose bits are set in a window of `w` places only leaves a remainder, if
  the high bit of the polynomial is set. So a burst of errors that is not longer than the register
  is detected: `feed_ne_feed`, and `feed_textBits_ne` for texts.
-/

namespace PowerMonitor.Crc

variable {w : ℕ}

/-- One move of the register. -/
def step (poly crc : BitVec w) : BitVec w := (crc >>> 1) ^^^ if crc.getLsbD 0 then poly else 0#w

/-- A bit as the low end of a register. -/
def lowBit (w : ℕ) (b : Bool) : BitVec w := (BitVec.ofBool b).setWidth w

/-- The register after a stream of bits. -/
def feed (poly : BitVec w) : BitVec w → List Bool → BitVec w
  | crc, [] => crc
  | crc, b :: bits => feed poly (step poly (crc ^^^ lowBit w b)) bits

section

variable (poly : BitVec w)

@[simp] theorem feed_nil (crc : BitVec w) : feed poly crc [] = crc := rfl

@[simp] theorem feed_cons (crc : BitVec w) (b : Bool) (bits : List Bool) :
    feed poly crc (b :: bits) = feed poly (step poly (crc ^^^ lowBit w b)) bits := rfl

theorem feed_append (crc : BitVec w) (bits bits' : List Bool) :
    feed poly crc (bits ++ bits') = feed poly (feed poly crc bits) bits' := by
  induction bits generalizing crc with
  | nil => rfl
  | cons b bits ih => exact ih _

/-! ## Linearity -/

@[simp] theorem step_zero : step poly 0#w = 0#w := by
  simp [step]

theorem step_xor (a b : BitVec w) : step poly (a ^^^ b) = step poly a ^^^ step poly b := by
  simp only [step, BitVec.getLsbD_xor, BitVec.ushiftRight_xor_distrib]
  ext i
  cases a.getLsbD 0 <;> cases b.getLsbD 0 <;> simp <;> grind

theorem iterate_step_zero (n : ℕ) : (step poly)^[n] 0#w = 0#w := by
  induction n with
  | zero => rfl
  | succ n ih => rw [Function.iterate_succ_apply, step_zero, ih]

theorem lowBit_xor (b b' : Bool) : lowBit w (b ^^ b') = lowBit w b ^^^ lowBit w b' := by
  cases b <;> cases b' <;> simp [lowBit]

/-- The streams are added bit by bit. -/
theorem feed_xor (a a' : BitVec w) {bits bits' : List Bool} (h : bits.length = bits'.length) :
    feed poly (a ^^^ a') (List.zipWith (· ^^ ·) bits bits') =
      feed poly a bits ^^^ feed poly a' bits' := by
  induction bits generalizing a a' bits' with
  | nil =>
    obtain rfl := List.eq_nil_of_length_eq_zero h.symm
    rfl
  | cons b bits ih =>
    match bits', h with
    | b' :: bits', h =>
      have hstep : a ^^^ a' ^^^ lowBit w (b ^^ b') =
          (a ^^^ lowBit w b) ^^^ (a' ^^^ lowBit w b') := by
        rw [lowBit_xor]
        ac_rfl
      rw [List.zipWith_cons_cons, feed_cons, feed_cons, feed_cons, hstep, step_xor,
        ih _ _ (Nat.succ.inj h)]

/-! ## Bits at once -/

/-- The register moved up, if its high bit is clear, moves back down. -/
theorem step_shiftLeft {crc : BitVec w} (h : crc.getLsbD (w - 1) = false) :
    step poly (crc <<< 1) = crc := by
  apply BitVec.eq_of_getLsbD_eq
  intro i hi
  have hlow : (crc <<< 1).getLsbD 0 = false := by simp
  simp only [step, hlow, Bool.false_eq_true, if_false, BitVec.xor_zero, BitVec.getLsbD_ushiftRight,
    BitVec.getLsbD_shiftLeft]
  by_cases hlast : 1 + i < w
  · simpa using fun _ => hlast
  · have heq : i = w - 1 := by omega
    simp [heq, h]

/-- A stream of bits as a register, its first bit at the low end. -/
def word (w : ℕ) (bits : List Bool) : BitVec w := (BitVec.ofBoolListLE bits).setWidth w

theorem getLsbD_word (bits : List Bool) (i : ℕ) :
    (word w bits).getLsbD i = (decide (i < w) && bits.getD i false) := by
  simp [word]

theorem word_cons (b : Bool) (bits : List Bool) :
    word w (b :: bits) = lowBit w b ^^^ word w bits <<< 1 := by
  apply BitVec.eq_of_getLsbD_eq
  intro i hi
  rw [getLsbD_word, BitVec.getLsbD_xor, BitVec.getLsbD_shiftLeft, getLsbD_word]
  cases i with
  | zero => simp [lowBit, hi]
  | succ i =>
    have hlow : (lowBit w b).getLsbD (i + 1) = false := by simp [lowBit]
    have hi' : i < w := by omega
    rw [hlow]
    simp [hi, hi']

/-- **Up to `w` bits** are taken in at once, and then moved out. -/
theorem feed_eq_iterate (crc : BitVec w) {bits : List Bool} (h : bits.length ≤ w) :
    feed poly crc bits = (step poly)^[bits.length] (crc ^^^ word w bits) := by
  induction bits generalizing crc with
  | nil =>
    have hword : word w [] = 0#w := by
      apply BitVec.eq_of_getLsbD_eq
      simp [getLsbD_word]
    simp [hword]
  | cons b bits ih =>
    rw [List.length_cons] at h
    have hhigh : (word w bits).getLsbD (w - 1) = false := by
      rw [getLsbD_word, List.getD_eq_getElem?_getD, List.getElem?_eq_none (by omega),
        Option.getD_none, Bool.and_false]
    have hstep : step poly (crc ^^^ lowBit w b) ^^^ word w bits =
        step poly (crc ^^^ word w (b :: bits)) := by
      rw [word_cons, ← BitVec.xor_assoc, step_xor poly (crc ^^^ lowBit w b),
        step_shiftLeft poly hhigh]
    rw [feed_cons, ih _ (by omega), List.length_cons, Function.iterate_succ_apply, hstep]

/-- Bits that are not set only move the register. -/
theorem feed_of_clear (crc : BitVec w) {bits : List Bool} (h : ∀ b ∈ bits, b = false) :
    feed poly crc bits = (step poly)^[bits.length] crc := by
  induction bits generalizing crc with
  | nil => rfl
  | cons b bits ih =>
    obtain rfl := h b List.mem_cons_self
    have hzero : lowBit w false = 0#w := by simp [lowBit]
    rw [feed_cons, hzero, BitVec.xor_zero, ih _ fun b hb => h b (List.mem_cons_of_mem _ hb),
      List.length_cons, Function.iterate_succ_apply]

end

/-! ## Bursts -/

section

variable {poly : BitVec w}

/-- Nothing but zero moves to zero: the high bit tells whether a bit fell out. -/
theorem eq_zero_of_step (hpoly : poly.getLsbD (w - 1) = true) {crc : BitVec w}
    (h : step poly crc = 0#w) : crc = 0#w := by
  have hbit : ∀ i, (crc >>> 1 ^^^ if crc.getLsbD 0 then poly else 0#w).getLsbD i = false := by
    intro i
    have hi := congrArg (BitVec.getLsbD · i) h
    simpa [step] using hi
  have hw : w - 1 < w := by
    by_contra hzero
    rw [BitVec.getLsbD_of_ge poly (w - 1) (Nat.not_lt.1 hzero)] at hpoly
    cases hpoly
  have hlow : crc.getLsbD 0 = false := by
    have hhigh := hbit (w - 1)
    by_contra hset
    rw [Bool.not_eq_false] at hset
    rw [hset, if_pos rfl, BitVec.getLsbD_xor, hpoly, BitVec.getLsbD_ushiftRight,
      BitVec.getLsbD_of_ge crc (1 + (w - 1)) (by omega)] at hhigh
    cases hhigh
  apply BitVec.eq_of_getLsbD_eq
  intro i hi
  rw [BitVec.getLsbD_zero]
  cases i with
  | zero => exact hlow
  | succ i =>
    have hi' := hbit i
    rw [hlow] at hi'
    simpa [Nat.add_comm 1 i] using hi'

theorem eq_zero_of_iterate (hpoly : poly.getLsbD (w - 1) = true) {n : ℕ} {crc : BitVec w}
    (h : (step poly)^[n] crc = 0#w) : crc = 0#w := by
  induction n generalizing crc with
  | zero => exact h
  | succ n ih => exact eq_zero_of_step hpoly (ih h)

/-- **A burst** of set bits that is not longer than the register leaves a remainder. -/
theorem feed_ne_zero (hpoly : poly.getLsbD (w - 1) = true) {bits : List Bool} {start : ℕ}
    (hset : true ∈ bits) (hburst : ∀ i, bits[i]? = some true → start ≤ i ∧ i < start + w) :
    feed poly 0#w bits ≠ 0#w := by
  have hbefore : ∀ b ∈ bits.take start, b = false := by
    intro b hb
    obtain ⟨i, hi⟩ := List.mem_iff_getElem?.1 hb
    rw [List.getElem?_take] at hi
    cases b with
    | false => rfl
    | true =>
      split at hi
      next hlt => exact absurd (hburst i hi).1 (by omega)
      next => cases hi
  have hafter : ∀ b ∈ (bits.drop start).drop w, b = false := by
    intro b hb
    obtain ⟨i, hi⟩ := List.mem_iff_getElem?.1 hb
    rw [List.drop_drop, List.getElem?_drop] at hi
    cases b with
    | false => rfl
    | true => exact absurd (hburst _ hi).2 (by omega)
  have hsplit : bits = bits.take start ++ ((bits.drop start).take w ++ (bits.drop start).drop w) := by
    rw [List.take_append_drop, List.take_append_drop]
  have hwindow : true ∈ (bits.drop start).take w := by
    rw [hsplit, List.mem_append, List.mem_append] at hset
    rcases hset with h | h | h
    · exact absurd (hbefore _ h) (by decide)
    · exact h
    · exact absurd (hafter _ h) (by decide)
  have hlength : ((bits.drop start).take w).length ≤ w := List.length_take_le _ _
  intro hzero
  rw [hsplit, feed_append, feed_append, feed_of_clear poly _ hafter, feed_of_clear poly _ hbefore,
    iterate_step_zero, feed_eq_iterate poly _ hlength, BitVec.zero_xor] at hzero
  have hword := eq_zero_of_iterate hpoly (eq_zero_of_iterate hpoly hzero)
  obtain ⟨i, hi⟩ := List.mem_iff_getElem?.1 hwindow
  have hlt : i < w := Nat.lt_of_lt_of_le (List.getElem?_eq_some_iff.1 hi).1 hlength
  have hbit := getLsbD_word (w := w) ((bits.drop start).take w) i
  rw [hword, List.getD_eq_getElem?_getD, hi] at hbit
  simp [hlt] at hbit

theorem getD_zipWith_xor {bits bits' : List Bool} (h : bits.length = bits'.length) (i : ℕ) :
    (List.zipWith (· ^^ ·) bits bits').getD i false = (bits.getD i false ^^ bits'.getD i false) := by
  simp only [List.getD_eq_getElem?_getD, List.getElem?_zipWith]
  by_cases hi : i < bits.length
  · simp [hi, h ▸ hi]
  · simp [List.getElem?_eq_none (Nat.not_lt.1 hi), List.getElem?_eq_none (h ▸ Nat.not_lt.1 hi)]

/-- **Two streams** that differ in such a window only leave different registers. -/
theorem feed_ne_feed (hpoly : poly.getLsbD (w - 1) = true) (crc : BitVec w)
    {bits bits' : List Bool} {start : ℕ} (hlength : bits.length = bits'.length)
    (hne : bits ≠ bits')
    (hburst : ∀ i, bits.getD i false ≠ bits'.getD i false → start ≤ i ∧ i < start + w) :
    feed poly crc bits ≠ feed poly crc bits' := by
  intro heq
  have hzero : feed poly 0#w (List.zipWith (· ^^ ·) bits bits') = 0#w := by
    have hsum := feed_xor poly crc crc hlength
    rwa [heq, BitVec.xor_self, BitVec.xor_self] at hsum
  refine feed_ne_zero hpoly ?_ (fun i hi => hburst i ?_) hzero
  · -- otherwise the streams would agree everywhere
    by_contra hclear
    refine hne (List.ext_getElem hlength fun i hi hi' => ?_)
    have hbit := getD_zipWith_xor hlength i
    cases herror : (List.zipWith (· ^^ ·) bits bits').getD i false with
    | true =>
      refine absurd (List.mem_of_getElem? (i := i) ?_) hclear
      rw [List.getD_eq_getElem?_getD, Option.getD_eq_iff] at herror
      exact herror.resolve_right fun h => by cases h.2
    | false =>
      rw [herror] at hbit
      simpa [List.getD_eq_getElem?_getD, hi, hi'] using hbit.symm
  · have hbit := getD_zipWith_xor hlength i
    rw [List.getD_eq_getElem?_getD, hi, Option.getD_some] at hbit
    intro hsame
    rw [hsame, Bool.xor_self] at hbit
    cases hbit

end

/-! ## Bytes -/

/-- The bits of a byte, least significant first. -/
def byteBits (b : UInt8) : List Bool := (List.range 8).map b.toBitVec.getLsbD

/-- The bits of a text. -/
def textBits (text : List UInt8) : List Bool := text.flatMap byteBits

@[simp] theorem length_byteBits (b : UInt8) : (byteBits b).length = 8 := by
  simp [byteBits]

@[simp] theorem textBits_nil : textBits [] = [] := rfl

@[simp] theorem textBits_cons (b : UInt8) (text : List UInt8) :
    textBits (b :: text) = byteBits b ++ textBits text := rfl

@[simp] theorem length_textBits (text : List UInt8) : (textBits text).length = 8 * text.length := by
  induction text with
  | nil => rfl
  | cons b text ih =>
    rw [textBits_cons, List.length_append, length_byteBits, ih, List.length_cons]
    omega

theorem textBits_append (text text' : List UInt8) :
    textBits (text ++ text') = textBits text ++ textBits text' := List.flatMap_append

theorem getElem?_byteBits (b : UInt8) {i : ℕ} (hi : i < 8) :
    (byteBits b)[i]? = some (b.toBitVec.getLsbD i) := by
  simp [byteBits, hi]

theorem word_byteBits (b : UInt8) : word w (byteBits b) = b.toBitVec.setWidth w := by
  apply BitVec.eq_of_getLsbD_eq
  intro i hi
  rw [getLsbD_word, BitVec.getLsbD_setWidth, List.getD_eq_getElem?_getD]
  by_cases hlt : i < 8
  · rw [getElem?_byteBits b hlt]
    rfl
  · rw [List.getElem?_eq_none (by simpa using hlt), BitVec.getLsbD_of_ge _ _ (Nat.not_lt.1 hlt)]
    rfl

/-- **A byte** is added to the low end as a whole. -/
theorem feed_byteBits (hw : 8 ≤ w) (poly crc : BitVec w) (b : UInt8) :
    feed poly crc (byteBits b) = (step poly)^[8] (crc ^^^ b.toBitVec.setWidth w) := by
  rw [feed_eq_iterate poly crc (by simpa using hw), word_byteBits, length_byteBits]

/-- The bytes one by one. -/
theorem feed_textBits (hw : 8 ≤ w) (poly crc : BitVec w) (text : List UInt8) :
    feed poly crc (textBits text) =
      text.foldl (fun crc b => (step poly)^[8] (crc ^^^ b.toBitVec.setWidth w)) crc := by
  induction text generalizing crc with
  | nil => rfl
  | cons b text ih => rw [textBits_cons, feed_append, feed_byteBits hw, List.foldl_cons, ih]

/-- A register of another type that adds bytes and moves in the same way. -/
theorem feed_of_register {σ : Type*} {poly : BitVec w} (hw : 8 ≤ w) (bits : σ → BitVec w)
    {move : σ → σ} {add : σ → UInt8 → σ} (hmove : ∀ crc, bits (move crc) = step poly (bits crc))
    (hadd : ∀ crc b, bits (add crc b) = bits crc ^^^ b.toBitVec.setWidth w) (crc : σ)
    (text : List UInt8) : bits (text.foldl (fun crc b => move^[8] (add crc b)) crc) =
      feed poly (bits crc) (textBits text) := by
  have hmoves : ∀ (n : ℕ) (crc : σ), bits (move^[n] crc) = (step poly)^[n] (bits crc) := by
    intro n
    induction n with
    | zero => exact fun _ => rfl
    | succ n ih =>
      intro crc
      rw [Function.iterate_succ_apply, Function.iterate_succ_apply, ih, hmove]
  rw [feed_textBits hw]
  induction text generalizing crc with
  | nil => rfl
  | cons b text ih => rw [List.foldl_cons, List.foldl_cons, ih, hmoves, hadd]

theorem byteBits_xor (b b' : UInt8) :
    byteBits (b ^^^ b') = List.zipWith (· ^^ ·) (byteBits b) (byteBits b') := by
  simp [byteBits, List.zipWith_map]

/-- Texts are added byte by byte. -/
theorem textBits_xor {text text' : List UInt8} (h : text.length = text'.length) :
    textBits (List.zipWith (· ^^^ ·) text text') =
      List.zipWith (· ^^ ·) (textBits text) (textBits text') := by
  induction text generalizing text' with
  | nil => rfl
  | cons b text ih =>
    match text', h with
    | b' :: text', h =>
      rw [List.zipWith_cons_cons, textBits_cons, textBits_cons, textBits_cons,
        List.zipWith_append (by simp), byteBits_xor, ih (Nat.succ.inj h)]

/-- Different bytes have different bits. -/
theorem byteBits_injective : Function.Injective byteBits := by
  intro b b' h
  have hword := congrArg (word 8) h
  rw [word_byteBits, word_byteBits, BitVec.setWidth_eq, BitVec.setWidth_eq] at hword
  exact UInt8.toBitVec_inj.1 hword

theorem textBits_injective : Function.Injective textBits := by
  intro text text' h
  have hlength : text.length = text'.length := by
    have hbits := congrArg List.length h
    rw [length_textBits, length_textBits] at hbits
    omega
  induction text generalizing text' with
  | nil => exact (List.eq_nil_of_length_eq_zero hlength.symm).symm
  | cons b text ih =>
    match text', hlength with
    | b' :: text', hlength =>
      obtain ⟨hbyte, htext⟩ := List.append_inj h (by simp)
      rw [byteBits_injective hbyte, ih htext (Nat.succ.inj hlength)]

/-- The bit of a text at a place: byte by byte, least significant bit first. -/
def bitAt (text : List UInt8) (i : ℕ) : Bool := (text.getD (i / 8) 0).toBitVec.getLsbD (i % 8)

theorem bitAt_of_le {text : List UInt8} {i : ℕ} (h : 8 * text.length ≤ i) :
    bitAt text i = false := by
  rw [bitAt, List.getD_eq_getElem?_getD, List.getElem?_eq_none (by omega)]
  exact BitVec.getLsbD_zero

theorem getD_textBits (text : List UInt8) (i : ℕ) : (textBits text).getD i false = bitAt text i := by
  rw [List.getD_eq_getElem?_getD]
  induction text generalizing i with
  | nil => simp [bitAt]
  | cons b text ih =>
    rw [textBits_cons, List.getElem?_append, length_byteBits]
    by_cases hlt : i < 8
    · rw [if_pos hlt, getElem?_byteBits b hlt, bitAt, Nat.div_eq_of_lt hlt, Nat.mod_eq_of_lt hlt]
      rfl
    · obtain ⟨j, rfl⟩ : ∃ j, i = j + 8 := ⟨i - 8, by omega⟩
      rw [if_neg hlt, Nat.add_sub_cancel, ih, bitAt, bitAt, Nat.add_div_right j (by decide),
        Nat.add_mod_right]
      rfl

/-- Two texts differ in a window of `n` consecutive bits only. -/
def WithinBurst (n : ℕ) (text text' : List UInt8) : Prop :=
  ∃ start, ∀ i, bitAt text i ≠ bitAt text' i → start ≤ i ∧ i < start + n

/-- **Two texts** of one length that differ within a window of the register leave different ones. -/
theorem feed_textBits_ne {poly : BitVec w} (hpoly : poly.getLsbD (w - 1) = true) (crc : BitVec w)
    {text text' : List UInt8} (hlength : text.length = text'.length) (hne : text ≠ text')
    (hburst : WithinBurst w text text') :
    feed poly crc (textBits text) ≠ feed poly crc (textBits text') := by
  obtain ⟨start, hburst⟩ := hburst
  refine feed_ne_feed hpoly crc (by simp [hlength]) (textBits_injective.ne hne)
    fun i hi => hburst i ?_
  rwa [getD_textBits, getD_textBits] at hi

/-- The polynomial of the CRC32 of IEEE 802.3. -/
def ieeePoly : BitVec 32 := 0xEDB88320#32

theorem ieeePoly_high : ieeePoly.getLsbD (32 - 1) = true := by decide

/-- The CRC32 of IEEE 802.3: the register starts with ones, and is inverted at the end. -/
def ieee (text : List UInt8) : BitVec 32 :=
  ~~~feed 0xEDB88320#32 (BitVec.allOnes 32) (textBits text)

theorem ieee_eq (text : List UInt8) :
    ieee text = ~~~feed ieeePoly (BitVec.allOnes 32) (textBits text) := rfl

theorem ieee_ne {text text' : List UInt8} (hlength : text.length = text'.length)
    (hne : text ≠ text') (hburst : WithinBurst 32 text text') : ieee text ≠ ieee text' := by
  intro heq
  exact feed_textBits_ne ieeePoly_high (BitVec.allOnes 32) hlength hne hburst (BitVec.not_inj.1 heq)

/-- With its checksum after it, every text leaves the same register. -/
theorem feed_ieee {text checksum : List UInt8} (hlength : checksum.length = 4)
    (h : word 32 (textBits checksum) = ieee text) :
    feed ieeePoly (BitVec.allOnes 32) (textBits (text ++ checksum)) =
      (step ieeePoly)^[32] (BitVec.allOnes 32) := by
  have hbits : (textBits checksum).length = 32 := by rw [length_textBits, hlength]
  rw [textBits_append, feed_append, feed_eq_iterate _ _ (Nat.le_of_eq hbits), hbits, h, ieee_eq]
  congr 1
  rw [BitVec.not_def, BitVec.xor_comm (BitVec.allOnes 32), ← BitVec.xor_assoc, BitVec.xor_self,
    BitVec.zero_xor]

/-- **A text with its checksum** that is damaged within 32 bits is not one any more. -/
theorem not_withinBurst_ieee {text text' checksum checksum' : List UInt8}
    (hlength : text.length = text'.length) (h : checksum.length = 4) (h' : checksum'.length = 4)
    (hword : word 32 (textBits checksum) = ieee text)
    (hword' : word 32 (textBits checksum') = ieee text')
    (hne : text ++ checksum ≠ text' ++ checksum') :
    ¬WithinBurst 32 (text ++ checksum) (text' ++ checksum') := by
  intro hburst
  refine feed_textBits_ne ieeePoly_high (BitVec.allOnes 32) ?_ hne hburst ?_
  · rw [List.length_append, List.length_append, hlength, h, h']
  · rw [feed_ieee h hword, feed_ieee h' hword']

end PowerMonitor.Crc
