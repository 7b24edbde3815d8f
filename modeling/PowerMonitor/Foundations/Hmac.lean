import Mathlib.Tactic.Common

/-!
# HMAC and HKDF

The keyed hash of RFC 2104 and the key derivation of RFC 5869 over any hash function of byte
strings, with a block of `blockSize` bytes and digests of `hashSize` bytes.
-/

namespace PowerMonitor.Hmac

section

variable (hash : List UInt8 → List UInt8) (blockSize : ℕ)

/-- The key as a block: hashed first if it is longer than that, and filled up with zeros. -/
def block (key : List UInt8) : List UInt8 :=
  let short := if blockSize < key.length then hash key else key
  short ++ List.replicate (blockSize - short.length) 0

/-- The key block, each byte of it changed by `pad`. -/
def padded (key : List UInt8) (pad : UInt8) : List UInt8 :=
  List.zipWith (· ^^^ ·) (block hash blockSize key) (List.replicate blockSize pad)

/-- HMAC. -/
def hmac (key text : List UInt8) : List UInt8 :=
  hash (padded hash blockSize key 0x5c ++ hash (padded hash blockSize key 0x36 ++ text))

/-- HKDF-Extract. -/
def extract (salt keyMaterial : List UInt8) : List UInt8 := hmac hash blockSize salt keyMaterial

/-- The blocks `T(0)`, `T(1)`, … of HKDF-Expand. -/
def expandBlock (pseudorandomKey info : List UInt8) : ℕ → List UInt8
  | 0 => []
  | i + 1 => hmac hash blockSize pseudorandomKey
      (expandBlock pseudorandomKey info i ++ info ++ [UInt8.ofNat (i + 1)])

/-- HKDF-Expand: as many blocks as are needed, cut to the length. -/
def expand (hashSize : ℕ) (pseudorandomKey info : List UInt8) (length : ℕ) : List UInt8 :=
  ((List.range ((length + hashSize - 1) / hashSize)).flatMap fun i =>
    expandBlock hash blockSize pseudorandomKey info (i + 1)).take length

/-- HKDF. -/
def hkdf (hashSize : ℕ) (salt keyMaterial info : List UInt8) (length : ℕ) : List UInt8 :=
  expand hash blockSize hashSize (extract hash blockSize salt keyMaterial) info length

end

variable {hash : List UInt8 → List UInt8} {blockSize : ℕ}

/-- Padding a block that is complete. -/
theorem padded_eq_map {key : List UInt8} (h : (block hash blockSize key).length = blockSize)
    (pad : UInt8) : padded hash blockSize key pad = (block hash blockSize key).map (· ^^^ pad) := by
  unfold padded
  generalize block hash blockSize key = bytes at h
  subst h
  induction bytes with
  | nil => rfl
  | cons b bytes ih =>
    rw [List.length_cons, List.replicate_succ, List.zipWith_cons_cons, ih]
    rfl

theorem length_block (hhash : ∀ text, (hash text).length ≤ blockSize) (key : List UInt8) :
    (block hash blockSize key).length = blockSize := by
  have hle := hhash key
  simp only [block, List.length_append, List.length_replicate]
  split <;> omega

/-- Key material of one digest is one HMAC. -/
theorem expand_hashSize {hashSize : ℕ} (hhash : ∀ text, (hash text).length = hashSize)
    (hpos : 0 < hashSize) (pseudorandomKey info : List UInt8) :
    expand hash blockSize hashSize pseudorandomKey info hashSize =
      hmac hash blockSize pseudorandomKey (info ++ [1]) := by
  have hone : (hashSize + hashSize - 1) / hashSize = 1 := by
    rw [Nat.div_eq_iff hpos]
    omega
  have hfirst : expandBlock hash blockSize pseudorandomKey info 1 =
      hmac hash blockSize pseudorandomKey (info ++ [1]) := rfl
  rw [expand, hone]
  simp only [List.range_one, List.flatMap_cons, List.flatMap_nil, List.append_nil, Nat.zero_add,
    hfirst]
  exact List.take_of_length_le (Nat.le_of_eq (hhash _))

end PowerMonitor.Hmac
