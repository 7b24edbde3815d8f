import Mathlib.Algebra.GroupWithZero.Nat
import PowerMonitor.Foundations.CMemory

/-!
# Records of little-endian fields

A record of a fixed layout is written into a buffer field by field, each at an offset of its own,
and read back the same way. This module is the layout over an arbitrary list of fields, each a width
and a value.

* `bytes_store`: writes that follow each other leave what they wrote, one after the other.
* `pack` is a record as a list of bytes. `number_pack` reads a field of it, and `pack_readFields`
  says that a list of bytes is the record of the fields that are read from it.
* `leIntValue` is a signed member in two's complement, and `ofTwos_leIntValue` reads it.
-/

namespace PowerMonitor.Fields

open CMemory

/-! ## Little-endian numbers -/

theorem littleEndian_le (k v : ℕ) : littleEndian (le k v) = v % 256 ^ k := by
  induction k with
  | zero => simp [le, littleEndian, Nat.mod_one]
  | succ k ih =>
    have hlast : le (k + 1) v = le k v ++ [UInt8.ofNat (v / 256 ^ k)] := by
      simp only [le, List.range_succ, List.map_append, List.map_cons, List.map_nil]
    have hbyte : (UInt8.ofNat (v / 256 ^ k)).toNat = v / 256 ^ k % 256 := UInt8.toNat_ofNat'
    rw [hlast, littleEndian_append, ih, length_le, hbyte, Nat.pow_succ, Nat.mod_mul,
      Nat.mul_comm (256 ^ k)]

theorem le_littleEndian (bytes : List UInt8) : le bytes.length (littleEndian bytes) = bytes := by
  apply List.ext_getElem (length_le _ _)
  intro i _ hi
  induction bytes generalizing i with
  | nil => cases hi
  | cons b bytes ih =>
    simp only [le, List.getElem_map, List.getElem_range, littleEndian] at ih ⊢
    cases i with
    | zero =>
      rw [Nat.pow_zero, Nat.div_one, List.getElem_cons_zero]
      apply UInt8.toNat_inj.1
      rw [UInt8.toNat_ofNat', Nat.add_mul_mod_self_left, Nat.mod_eq_of_lt b.toNat_lt]
    | succ i =>
      rw [List.getElem_cons_succ, ← ih i (by simpa using hi) (by simpa using hi)]
      have hshift : (b.toNat + 256 * littleEndian bytes) / 256 ^ (i + 1) =
          littleEndian bytes / 256 ^ i := by
        rw [Nat.pow_succ, Nat.mul_comm (256 ^ i), ← Nat.div_div_eq_div_mul,
          Nat.add_mul_div_left _ _ (by decide), Nat.div_eq_of_lt b.toNat_lt, Nat.zero_add]
      rw [hshift]

/-! ## Writing -/

/-- Every write of the list, in order. -/
def store {n : ℕ} (buffer : Bytes n) (writes : List (ℕ × List UInt8)) : Bytes n :=
  writes.foldl (fun buffer w => buffer.memcpy w.1 w.2) buffer

/-- Each write starts where the one before it ended. -/
def Consecutive : ℕ → List (ℕ × List UInt8) → Prop
  | _, [] => True
  | start, w :: writes => w.1 = start ∧ Consecutive (start + w.2.length) writes

theorem bytes_memcpy {n : ℕ} (buffer : Bytes n) {start : ℕ} {source : List UInt8}
    (h : start + source.length ≤ n) : (buffer.memcpy start source).bytes =
      buffer.bytes.take start ++ source ++ buffer.bytes.drop (start + source.length) := by
  apply List.take_of_length_le
  have := buffer.size
  simp only [List.length_append, List.length_take, List.length_drop]
  omega

/-- **Consecutive writes** leave what was before them and after them. -/
theorem bytes_store {n : ℕ} (buffer : Bytes n) {start : ℕ} {writes : List (ℕ × List UInt8)}
    (hwrites : Consecutive start writes) (h : start + (writes.flatMap Prod.snd).length ≤ n) :
    (store buffer writes).bytes = buffer.bytes.take start ++ writes.flatMap Prod.snd ++
      buffer.bytes.drop (start + (writes.flatMap Prod.snd).length) := by
  induction writes generalizing buffer start with
  | nil => simp [store]
  | cons w writes ih =>
    obtain ⟨rfl, hwrites⟩ := hwrites
    rw [List.flatMap_cons, List.length_append, ← Nat.add_assoc] at h
    have hfits : w.1 + w.2.length ≤ n := by omega
    have hmem := bytes_memcpy buffer hfits
    have hsize := buffer.size
    have hhead : (buffer.bytes.take w.1 ++ w.2).length = w.1 + w.2.length := by
      rw [List.length_append, List.length_take]
      omega
    have hrest := ih (buffer.memcpy w.1 w.2) hwrites h
    rw [hmem, List.take_append_of_le_length hhead.ge, List.take_of_length_le hhead.le,
      ← List.drop_drop, List.drop_left' hhead, List.drop_drop] at hrest
    rw [List.flatMap_cons, List.length_append, ← Nat.add_assoc, ← List.append_assoc]
    exact hrest

/-! ## Reading -/

/-- The number of `width` bytes from an offset on. -/
def number (width : ℕ) (data : List UInt8) (offset : ℕ) : ℕ :=
  littleEndian ((data.drop offset).take width)

theorem number_lt {width : ℕ} {data : List UInt8} {offset : ℕ} (h : offset + width ≤ data.length) :
    number width data offset < 256 ^ width := by
  have hlength : ((data.drop offset).take width).length = width := by
    rw [List.length_take, List.length_drop]
    omega
  have hlt := littleEndian_lt ((data.drop offset).take width)
  rwa [hlength] at hlt

theorem le_number (width : ℕ) (data : List UInt8) {offset : ℕ} (h : offset + width ≤ data.length) :
    le width (number width data offset) = (data.drop offset).take width := by
  have hlength : ((data.drop offset).take width).length = width := by
    rw [List.length_take, List.length_drop]
    omega
  have hbytes := le_littleEndian ((data.drop offset).take width)
  rwa [hlength] at hbytes

/-- A field: its width and its value. -/
abbrev Field := ℕ × ℕ

/-- The bytes of a record. -/
def pack (fields : List Field) : List UInt8 := fields.flatMap fun f => le f.1 f.2

/-- Where a field starts. -/
def offset (fields : List Field) (i : ℕ) : ℕ := ((fields.map Prod.fst).take i).sum

@[simp] theorem pack_nil : pack [] = [] := rfl

@[simp] theorem pack_cons (f : Field) (fields : List Field) :
    pack (f :: fields) = le f.1 f.2 ++ pack fields := rfl

theorem pack_append (fields fields' : List Field) :
    pack (fields ++ fields') = pack fields ++ pack fields' := by
  simp [pack]

theorem length_pack (fields : List Field) : (pack fields).length = (fields.map Prod.fst).sum := by
  induction fields with
  | nil => rfl
  | cons f fields ih => rw [pack_cons, List.length_append, length_le, ih, List.map_cons, List.sum_cons]

/-- **A field that was packed** is read back, modulo its width. -/
theorem number_pack (fields : List Field) (rest : List UInt8) (i : ℕ) {f : Field}
    (h : fields[i]? = some f) :
    number f.1 (pack fields ++ rest) (offset fields i) = f.2 % 256 ^ f.1 := by
  induction fields generalizing i with
  | nil => cases h
  | cons g fields ih =>
    cases i with
    | zero =>
      obtain rfl : g = f := by simpa using h
      have hhead : (le g.1 g.2 ++ (pack fields ++ rest)).take g.1 = le g.1 g.2 :=
        List.take_left' (length_le g.1 g.2)
      rw [number, offset, pack_cons, List.append_assoc]
      exact (congrArg littleEndian hhead).trans (littleEndian_le g.1 g.2)
    | succ i =>
      have hskip : (pack (g :: fields) ++ rest).drop (offset (g :: fields) (i + 1)) =
          (pack fields ++ rest).drop (offset fields i) := by
        have hoffset : offset (g :: fields) (i + 1) = g.1 + offset fields i := rfl
        rw [hoffset, pack_cons, List.append_assoc, ← List.drop_drop, List.drop_left' (length_le _ _)]
      rw [number, hskip]
      exact ih i (by simpa using h)

/-- The fields of the given widths, from an offset on. -/
def readFields (data : List UInt8) : ℕ → List ℕ → List Field
  | _, [] => []
  | start, width :: widths => (width, number width data start) :: readFields data (start + width) widths

/-- **Bytes are the record of the fields that are read from them.** -/
theorem pack_readFields (data : List UInt8) (start : ℕ) (widths : List ℕ)
    (h : start + widths.sum ≤ data.length) :
    pack (readFields data start widths) = (data.drop start).take widths.sum := by
  induction widths generalizing start with
  | nil => rw [readFields, pack_nil, List.sum_nil, List.take_zero]
  | cons width widths ih =>
    rw [List.sum_cons, ← Nat.add_assoc] at h
    rw [readFields, pack_cons, le_number width data (by omega), ih (start + width) h, List.sum_cons,
      List.take_add, List.drop_drop]

/-! ## Signed members -/

/-- A signed member as the number that its bytes stand for. -/
def leIntValue (k : ℕ) (v : ℤ) : ℕ := (v % 256 ^ k).toNat

theorem leInt_eq (k : ℕ) (v : ℤ) : leInt k v = le k (leIntValue k v) := rfl

/-- A number of `k` bytes, read in two's complement. -/
def ofTwos (k u : ℕ) : ℤ := if 2 * u < 256 ^ k then u else u - (256 ^ k : ℕ)

theorem cast_leIntValue (k : ℕ) (v : ℤ) : (leIntValue k v : ℤ) = v % (256 ^ k : ℕ) := by
  have hcast : ((256 ^ k : ℕ) : ℤ) = 256 ^ k := Int.natCast_pow 256 k
  have hpos : (0 : ℤ) < (256 ^ k : ℕ) := Int.natCast_pos.2 (Nat.pow_pos (by decide))
  rw [leIntValue, ← hcast]
  exact Int.toNat_of_nonneg (Int.emod_nonneg v (Int.ne_of_gt hpos))

theorem leIntValue_lt (k : ℕ) (v : ℤ) : leIntValue k v < 256 ^ k := by
  have hpos : (0 : ℤ) < (256 ^ k : ℕ) := Int.natCast_pos.2 (Nat.pow_pos (by decide))
  have hlt := Int.emod_lt_of_pos v hpos
  rw [← cast_leIntValue] at hlt
  exact Int.ofNat_lt.1 hlt

/-- **A signed member in range** is read back. -/
theorem ofTwos_leIntValue {k : ℕ} {v : ℤ} (hlow : -(256 ^ k : ℕ) ≤ 2 * v)
    (hhigh : 2 * v < (256 ^ k : ℕ)) : ofTwos k (leIntValue k v) = v := by
  have hvalue := cast_leIntValue k v
  unfold ofTwos
  generalize leIntValue k v = u at hvalue ⊢
  generalize 256 ^ k = m at hlow hhigh hvalue ⊢
  by_cases hneg : v < 0
  · rw [← Int.add_emod_right, Int.emod_eq_of_lt (by omega) (by omega)] at hvalue
    rw [if_neg (by omega), hvalue, Int.add_sub_cancel]
  · rw [Int.emod_eq_of_lt (by omega) (by omega)] at hvalue
    rw [if_pos (by omega), hvalue]

/-- A number of `k` bytes is the one that its signed reading stands for. -/
theorem leIntValue_ofTwos {k u : ℕ} (h : u < 256 ^ k) : leIntValue k (ofTwos k u) = u := by
  have hvalue := cast_leIntValue k (ofTwos k u)
  have hrange : ofTwos k u % (256 ^ k : ℕ) = u := by
    unfold ofTwos
    generalize 256 ^ k = m at h ⊢
    split
    · exact Int.emod_eq_of_lt (by omega) (by omega)
    · rw [Int.sub_emod_right, Int.emod_eq_of_lt (by omega) (by omega)]
  omega

end PowerMonitor.Fields
