import PowerMonitor.Esp
import PowerMonitor.Foundations.CJson
import PowerMonitor.Foundations.CText

/-!
# The canonical string

`pm_build_canonical` writes what both sides sign: the scheme, the method, the target with its query
in canonical order, the timestamp, the nonce and the digest of the content, one to a line. Every
buffer it goes through has a fixed size, and a text that does not fit is an error.
-/

namespace PowerMonitor.Protocol

open CMemory CJson CText

/-- `PM_PROTOCOL_ID`. -/
def protocolId : List UInt8 := ascii "pm-protocol/1.0.0"

/-- `PM_HMAC_SCHEME`. -/
def hmacScheme : List UInt8 := ascii "PM-HMAC-SHA256-V1"

/-- `PM_CANONICAL_MAX`. -/
def canonicalMax : ℕ := 1024

/-- `PM_CANONICAL_QUERY_MAX`. -/
def canonicalQueryMax : ℕ := 384

/-! ## The query -/

/-- `valid_encoded_component`. -/
def validEncodedComponent : List UInt8 → Bool
  | [] => true
  | c :: rest =>
    !(c == 0x25 && (!isxdigit (rest.getD 0 0) || !isxdigit (rest.getD 1 0))) &&
      !(c ≤ 0x20 || c == 0x7f || c == 0x23 || c == 0x2b) && validEncodedComponent rest

/-- The two digits after every `%` in upper case. -/
def upperEscapes : List UInt8 → List UInt8
  | [] => []
  | 0x25 :: a :: b :: rest => 0x25 :: toupper a :: toupper b :: upperEscapes rest
  | c :: rest => c :: upperEscapes rest

/-- The order of `strcmp`. -/
def compareStrings (a b : List UInt8) : Bool := decide (a ≤ b)

/-- The parts, with a `&` before each but the first, into a buffer of which `used` bytes are
taken. -/
def joinParts (outputSize : ℕ) : Bool → ℕ → List (List UInt8) → Option (List UInt8)
  | _, _, [] => some []
  | first, used, part :: parts =>
    let separator : List UInt8 := if first then [] else [0x26]
    if used + part.length + separator.length + 1 > outputSize then none
    else do
      let rest ← joinParts outputSize false (used + separator.length + part.length) parts
      return separator ++ part ++ rest

/-- `pm_canonical_query`, into a buffer of `outputSize` bytes. -/
def canonicalQuery (query : Option (List UInt8)) (outputSize : ℕ) : Except EspErr (List UInt8) :=
  if outputSize = 0 then .error .invalidArg
  else
    match query with
    | none | some [] => .ok []
    | some query =>
      if canonicalQueryMax ≤ query.length ∨ outputSize < query.length + 1 then .error .invalidSize
      else
        let parts := query.splitOn 0x26
        if 32 < parts.length then .error .invalidSize
        else if parts.any fun part => part = [] || !validEncodedComponent part then
          .error .invalidArg
        else
          match joinParts outputSize true 0 ((parts.map upperEscapes).mergeSort compareStrings) with
          | none => .error .invalidSize
          | some output => .ok output

/-! ## The string -/

/-- The target of the request: the path and the query. -/
def canonicalTarget (path canonicalQuery : List UInt8) : List UInt8 :=
  path ++ (if canonicalQuery = [] then [] else 0x3f :: canonicalQuery)

/-- `pm_build_canonical`, into a buffer of `outputSize` bytes. -/
def buildCanonical (method path : List UInt8) (query : Option (List UInt8))
    (timestamp nonce contentSha256 : List UInt8) (outputSize : ℕ) : Except EspErr (List UInt8) :=
  if path.head? ≠ some 0x2f then .error .invalidArg
  else if method = [] ∨ 16 ≤ method.length then .error .invalidSize
  else
    match canonicalQuery query canonicalQueryMax with
    | .error e => .error e
    | .ok canonicalQuery =>
      let target := canonicalTarget path canonicalQuery
      if 512 ≤ target.length then .error .invalidSize
      else
        let output := hmacScheme ++ 0x0a :: method.map toupper ++ 0x0a :: target ++
          0x0a :: timestamp ++ 0x0a :: nonce ++ 0x0a :: contentSha256
        if output.length < outputSize then .ok output else .error .invalidSize

theorem canonicalQuery_error_ne_ok {query : Option (List UInt8)} {outputSize : ℕ} {e : EspErr}
    (h : canonicalQuery query outputSize = .error e) : e ≠ .ok := by
  unfold canonicalQuery at h
  split at h
  · cases h
    decide
  split at h
  · cases h
  · cases h
  split at h
  · cases h
    decide
  dsimp only at h
  split at h
  · cases h
    decide
  split at h
  · cases h
    decide
  split at h
  · cases h
    decide
  · cases h

/-- A string that is not built is an error. -/
theorem buildCanonical_error_ne_ok {method path : List UInt8} {query : Option (List UInt8)}
    {timestamp nonce contentSha256 : List UInt8} {outputSize : ℕ} {e : EspErr}
    (h : buildCanonical method path query timestamp nonce contentSha256 outputSize = .error e) :
    e ≠ .ok := by
  unfold buildCanonical at h
  split at h
  · cases h
    decide
  split at h
  · cases h
    decide
  split at h
  next hquery =>
    cases h
    exact canonicalQuery_error_ne_ok hquery
  · dsimp only at h
    split at h
    · cases h
      decide
    split at h
    · cases h
    · cases h
      decide

end PowerMonitor.Protocol
