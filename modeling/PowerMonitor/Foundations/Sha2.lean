import PowerMonitor.Foundations.CMemory

/-!
# SHA-256

The hash function of FIPS 180-4, as a function on byte lists. Nothing is proved about it: the
developments that use a hash take it as a parameter, and run their concrete traces with this one.
-/

namespace PowerMonitor.Sha2

open CMemory

def rotr (x n : UInt32) : UInt32 := (x >>> n) ||| (x <<< (32 - n))

/-- The round constants. -/
def constants : List UInt32 :=
  [0x428a2f98, 0x71374491, 0xb5c0fbcf, 0xe9b5dba5, 0x3956c25b, 0x59f111f1, 0x923f82a4, 0xab1c5ed5,
   0xd807aa98, 0x12835b01, 0x243185be, 0x550c7dc3, 0x72be5d74, 0x80deb1fe, 0x9bdc06a7, 0xc19bf174,
   0xe49b69c1, 0xefbe4786, 0x0fc19dc6, 0x240ca1cc, 0x2de92c6f, 0x4a7484aa, 0x5cb0a9dc, 0x76f988da,
   0x983e5152, 0xa831c66d, 0xb00327c8, 0xbf597fc7, 0xc6e00bf3, 0xd5a79147, 0x06ca6351, 0x14292967,
   0x27b70a85, 0x2e1b2138, 0x4d2c6dfc, 0x53380d13, 0x650a7354, 0x766a0abb, 0x81c2c92e, 0x92722c85,
   0xa2bfe8a1, 0xa81a664b, 0xc24b8b70, 0xc76c51a3, 0xd192e819, 0xd6990624, 0xf40e3585, 0x106aa070,
   0x19a4c116, 0x1e376c08, 0x2748774c, 0x34b0bcb5, 0x391c0cb3, 0x4ed8aa4a, 0x5b9cca4f, 0x682e6ff3,
   0x748f82ee, 0x78a5636f, 0x84c87814, 0x8cc70208, 0x90befffa, 0xa4506ceb, 0xbef9a3f7, 0xc67178f2]

/-- The eight working variables. -/
structure Working where
  (a b c d e f g h : UInt32)

/-- The initial hash value. -/
def initial : Working :=
  ⟨0x6a09e667, 0xbb67ae85, 0x3c6ef372, 0xa54ff53a, 0x510e527f, 0x9b05688c, 0x1f83d9ab, 0x5be0cd19⟩

/-- The big-endian words of a block. -/
def words : List UInt8 → List UInt32
  | a :: b :: c :: d :: rest =>
    (a.toUInt32 <<< 24 ||| b.toUInt32 <<< 16 ||| c.toUInt32 <<< 8 ||| d.toUInt32) :: words rest
  | _ => []

/-- The message schedule, extended by `n` words; the latest word comes first. -/
def extend : ℕ → List UInt32 → List UInt32
  | 0, w => w
  | n + 1, w =>
    let s0 := w.getD 14 0
    let s1 := w.getD 1 0
    let next := (rotr s1 17 ^^^ rotr s1 19 ^^^ (s1 >>> 10)) + w.getD 6 0 +
      (rotr s0 7 ^^^ rotr s0 18 ^^^ (s0 >>> 3)) + w.getD 15 0
    extend n (next :: w)

/-- One round, with the round constant and the scheduled word. -/
def round (s : Working) (kw : UInt32 × UInt32) : Working :=
  let t1 := s.h + (rotr s.e 6 ^^^ rotr s.e 11 ^^^ rotr s.e 25) +
    ((s.e &&& s.f) ^^^ (~~~s.e &&& s.g)) + kw.1 + kw.2
  let t2 := (rotr s.a 2 ^^^ rotr s.a 13 ^^^ rotr s.a 22) +
    ((s.a &&& s.b) ^^^ (s.a &&& s.c) ^^^ (s.b &&& s.c))
  ⟨t1 + t2, s.a, s.b, s.c, s.d + t1, s.e, s.f, s.g⟩

/-- The hash value after one block. -/
def compress (s : Working) (block : List UInt8) : Working :=
  let w := (extend 48 (words block).reverse).reverse
  let r := (constants.zip w).foldl round s
  ⟨s.a + r.a, s.b + r.b, s.c + r.c, s.d + r.d, s.e + r.e, s.f + r.f, s.g + r.g, s.h + r.h⟩

/-- The padded message. -/
def pad (message : List UInt8) : List UInt8 :=
  message ++ 0x80 :: List.replicate ((119 - message.length % 64) % 64) 0 ++
    (le 8 (8 * message.length)).reverse

/-- The first `n` blocks. -/
def blocks : ℕ → List UInt8 → List (List UInt8)
  | 0, _ => []
  | n + 1, l => l.take 64 :: blocks n (l.drop 64)

def bytesOf (w : UInt32) : List UInt8 :=
  [(w >>> 24).toUInt8, (w >>> 16).toUInt8, (w >>> 8).toUInt8, w.toUInt8]

/-- The SHA-256 digest. -/
def digest (message : List UInt8) : Bytes 32 :=
  let padded := pad message
  let s := (blocks (padded.length / 64) padded).foldl compress initial
  ⟨bytesOf s.a ++ bytesOf s.b ++ bytesOf s.c ++ bytesOf s.d ++ bytesOf s.e ++ bytesOf s.f ++
    bytesOf s.g ++ bytesOf s.h, rfl⟩

/-- The digest of the text `abc`. -/
example : (digest [97, 98, 99]).bytes =
    [0xba, 0x78, 0x16, 0xbf, 0x8f, 0x01, 0xcf, 0xea, 0x41, 0x41, 0x40, 0xde, 0x5d, 0xae, 0x22, 0x23,
     0xb0, 0x03, 0x61, 0xa3, 0x96, 0x17, 0x7a, 0x9c, 0xb4, 0x10, 0xff, 0x61, 0xf2, 0x00, 0x15,
     0xad] := by
  decide +kernel

end PowerMonitor.Sha2
