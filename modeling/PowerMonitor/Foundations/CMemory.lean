import Mathlib.Algebra.Group.Int.Defs
import Mathlib.Algebra.Group.Nat.Defs
import Mathlib.Data.List.TakeWhile
import Mathlib.Tactic.Common

/-!
# Fixed-size C arrays

`Bytes n` is a C array of `n` bytes, used for digests and, with the string functions below, for
`char` buffers: `str` is the text before the first NUL, `terminated` is `memchr (p, 0, n) != NULL`,
and `print` is `snprintf (p, n, "%s", text)`, which writes at most `n - 1` bytes and the NUL and
leaves the rest of the array alone. `le` and `leInt` are the little-endian bytes of an integer
member of a structure, which is what a checksum over the structure's memory reads.
-/

namespace PowerMonitor.CMemory

/-- An array of `n` bytes. -/
structure Bytes (n : ℕ) where
  bytes : List UInt8
  size : bytes.length = n
  deriving DecidableEq

namespace Bytes

variable {n : ℕ}

theorem ext {a b : Bytes n} (h : a.bytes = b.bytes) : a = b := by
  cases a
  cases b
  congr

/-- The zeroed array. -/
def zero (n : ℕ) : Bytes n := ⟨List.replicate n 0, List.length_replicate⟩

/-- The C string in the array: the bytes before the first NUL. -/
def str (b : Bytes n) : List UInt8 := b.bytes.takeWhile (· != 0)

/-- `memchr (p, '\0', n) != NULL`. -/
def terminated (b : Bytes n) : Bool := b.bytes.contains 0

/-- Whether every byte is zero. -/
def cleared (b : Bytes n) : Bool := b.bytes.all (· == 0)

/-- `snprintf (p, n + 1, "%s", text)`. -/
def print (b : Bytes (n + 1)) (text : List UInt8) : Bytes (n + 1) where
  bytes := text.take n ++ 0 :: b.bytes.drop ((text.take n).length + 1)
  size := by
    have := b.size
    simp only [List.length_append, List.length_cons, List.length_drop, List.length_take]
    omega

/-- `p[0] = '\0'`. -/
def clearFirst (b : Bytes (n + 1)) : Bytes (n + 1) where
  bytes := 0 :: b.bytes.tail
  size := by
    have := b.size
    simp only [List.length_cons, List.length_tail]
    omega

/-- `p[i] = v`. -/
def set (b : Bytes n) (i : ℕ) (v : UInt8) : Bytes n := ⟨b.bytes.set i v, by simp [b.size]⟩

/-- `memcpy (p + start, source, length)`, for as much as fits. -/
def memcpy (b : Bytes n) (start : ℕ) (source : List UInt8) : Bytes n where
  bytes := (b.bytes.take start ++ source ++ b.bytes.drop (start + source.length)).take n
  size := by
    have := b.size
    simp only [List.length_take, List.length_append, List.length_drop]
    omega

theorem getElem?_set (b : Bytes n) {i : ℕ} (h : i < n) (v : UInt8) (j : ℕ) :
    (b.set i v).bytes[j]? = if j = i then some v else b.bytes[j]? := by
  have hi : i < b.bytes.length := by rw [b.size]; exact h
  simp only [set, List.getElem?_set, if_pos hi, eq_comm (a := i)]

theorem take_set {b : Bytes n} {i : ℕ} (h : i < n) (v : UInt8) :
    (b.set i v).bytes.take (i + 1) = b.bytes.take i ++ [v] := by
  rw [List.take_add_one, b.getElem?_set h, if_pos rfl]
  simp only [set]
  rw [List.take_set_of_le (Nat.le_refl i)]
  rfl

theorem take_memcpy {b : Bytes n} {start : ℕ} {source : List UInt8} (h : start + source.length ≤ n) :
    (b.memcpy start source).bytes.take (start + source.length) = b.bytes.take start ++ source := by
  have hlength : (b.bytes.take start ++ source).length = start + source.length := by
    rw [List.length_append, List.length_take, b.size]
    omega
  simp only [memcpy]
  rw [List.take_take, Nat.min_eq_left h, ← hlength, List.take_left']
  rw [hlength]

/-- Of as many bytes as it is told, `memcpy` writes each. -/
theorem memcpy_injective {b : Bytes n} {start : ℕ} {source source' : List UInt8}
    (hlength : source.length = source'.length) (h : start + source.length ≤ n)
    (heq : b.memcpy start source = b.memcpy start source') : source = source' := by
  have htaken := take_memcpy (b := b) h
  rw [heq, hlength, take_memcpy (hlength ▸ h)] at htaken
  exact (List.append_cancel_left htaken).symm

/-- `p[0] == '\0'`. -/
def firstIsNul (b : Bytes n) : Bool := b.bytes.head? == some 0

@[simp] theorem terminated_zero (n : ℕ) : (zero (n + 1)).terminated = true := by
  simp [zero, terminated, List.replicate_succ]

@[simp] theorem cleared_zero (n : ℕ) : (zero n).cleared = true := by
  simp [zero, cleared]

theorem str_eq_nil_of_firstIsNul {b : Bytes n} (h : b.firstIsNul = true) : b.str = [] := by
  obtain ⟨_ | ⟨x, l⟩, hb⟩ := b
  · rfl
  · obtain rfl : x = 0 := by simpa [firstIsNul] using h
    simp [str]

theorem firstIsNul_of_str_eq_nil {b : Bytes (n + 1)} (h : b.str = []) : b.firstIsNul = true := by
  obtain ⟨_ | ⟨x, l⟩, hb⟩ := b
  · simp at hb
  · by_cases hx : x = 0
    · simp [firstIsNul, hx]
    · simp [str, hx] at h

theorem str_print {b : Bytes (n + 1)} {text : List UInt8} (hnul : 0 ∉ text)
    (hlen : text.length ≤ n) : (b.print text).str = text := by
  have hall : ∀ x ∈ text, (x != 0) = true := by
    intro x hx
    have : x ≠ 0 := fun h => hnul (h ▸ hx)
    simpa using this
  simp only [str, print, List.take_of_length_le hlen]
  rw [List.takeWhile_append_of_pos hall]
  simp

theorem terminated_print (b : Bytes (n + 1)) (text : List UInt8) :
    (b.print text).terminated = true := by
  simp [terminated, print]

end Bytes

/-- A C string: the bytes before its NUL. -/
structure CString where
  text : List UInt8
  noNul : 0 ∉ text
  deriving DecidableEq

/-- The `k` little-endian bytes of an unsigned member. -/
def le (k v : ℕ) : List UInt8 := (List.range k).map fun i => UInt8.ofNat (v / 256 ^ i)

/-- The number that little-endian bytes stand for. -/
def littleEndian : List UInt8 → ℕ
  | [] => 0
  | b :: bytes => b.toNat + 256 * littleEndian bytes

theorem littleEndian_append (bytes : List UInt8) (b : UInt8) :
    littleEndian (bytes ++ [b]) = littleEndian bytes + b.toNat * 256 ^ bytes.length := by
  induction bytes with
  | nil => simp [littleEndian]
  | cons c bytes ih =>
    rw [List.cons_append, littleEndian, littleEndian, ih, List.length_cons, Nat.pow_succ]
    grind

theorem littleEndian_lt (bytes : List UInt8) : littleEndian bytes < 256 ^ bytes.length := by
  induction bytes with
  | nil => decide
  | cons b bytes ih =>
    have hb := b.toNat_lt
    rw [littleEndian, List.length_cons, Nat.pow_succ]
    omega

/-- The `k` little-endian bytes of a signed member, in two's complement. -/
def leInt (k : ℕ) (v : ℤ) : List UInt8 := le k (v % 256 ^ k).toNat

/-- A `bool` member. -/
def leBool (b : Bool) : List UInt8 := [if b then 1 else 0]

@[simp] theorem length_le (k v : ℕ) : (le k v).length = k := by simp [le]

@[simp] theorem length_leInt (k : ℕ) (v : ℤ) : (leInt k v).length = k := length_le k _

@[simp] theorem length_leBool (b : Bool) : (leBool b).length = 1 := rfl

end PowerMonitor.CMemory
