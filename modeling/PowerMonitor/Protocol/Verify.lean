import PowerMonitor.Foundations.Ring
import PowerMonitor.Foundations.Runs
import PowerMonitor.Protocol.Canonical

/-!
# Response verification

`pm_verify_response` checks the headers of a response against its body, the clock and the key of the
server, and refuses a nonce whose digest is among those it remembers. The cache it keeps them in is
a ring of 32 places, zeroed at boot.

`Acceptable` states what makes a response acceptable apart from the cache, and `Exchanges` runs any
number of calls over one cache and records the accepted ones, so that what the cache means can be
said in their terms.
-/

namespace PowerMonitor.Protocol

open CMemory CJson CText Runs

/-! ## Digests -/

/-- The digits of `pm_hex_lower`. -/
def hexAlphabet : List UInt8 := ascii "0123456789abcdef"

/-- `pm_hex_lower`. -/
def hexLower (data : List UInt8) : List UInt8 :=
  data.flatMap fun b : UInt8 =>
    [hexAlphabet.getD (b >>> 4).toNat 0, hexAlphabet.getD (b &&& 0x0f).toNat 0]

/-- `lowercase_hex_sha256`. -/
def lowercaseHexSha256 (value : List UInt8) : Bool :=
  value.length = 64 && value.all fun c => isdigit c || (0x61 ≤ c && c ≤ 0x66)

/-- `pm_constant_time_equal`, on arrays of one length. -/
def constantTimeEqual (left right : List UInt8) : Bool :=
  (List.zipWith (· ^^^ ·) left right).foldl (· ||| ·) 0 == 0

theorem foldl_or_eq_zero (l : List UInt8) (d : UInt8) :
    l.foldl (· ||| ·) d = 0 ↔ d = 0 ∧ ∀ x ∈ l, x = 0 := by
  induction l generalizing d with
  | nil => simp
  | cons x l ih =>
    rw [List.foldl_cons, ih, UInt8.or_eq_zero_iff]
    simp [and_assoc]

theorem constantTimeEqual_iff {left right : List UInt8} (h : left.length = right.length) :
    constantTimeEqual left right = true ↔ left = right := by
  rw [constantTimeEqual, beq_iff_eq, foldl_or_eq_zero]
  induction left generalizing right with
  | nil => cases right <;> simp at h ⊢
  | cons x left ih =>
    cases right with
    | nil => simp at h
    | cons y right =>
      have htail : left.length = right.length := by simpa using h
      have := ih htail
      simp only [true_and] at this ⊢
      simp [this]

section

variable [Sha256]

/-- `pm_hmac_sha256`. -/
def hmacSha256 (key data : List UInt8) : Bytes 32 :=
  let keyBlock := (if 64 < key.length then (sha256 key).bytes else key).rightpad 64 0
  let innerPad := keyBlock.map (· ^^^ 0x36)
  let outerPad := keyBlock.map (· ^^^ 0x5c)
  sha256 (outerPad ++ (sha256 (innerPad ++ data)).bytes)

end

/-! ## Verification -/

/-- `pm_response_auth_headers_t`: a C string in each buffer. -/
structure ResponseAuthHeaders where
  protocol : Bytes 18
  deviceId : Bytes 37
  timestamp : Bytes 24
  nonce : Bytes 129
  contentSha256 : Bytes 65
  signature : Bytes 45
  deriving DecidableEq

/-- `pm_nonce_cache_t`. -/
abbrev NonceCache := Ring (Bytes 32) 32

/-- The zeroed cache. -/
def NonceCache.zero : NonceCache := ⟨fun _ => Bytes.zero 32, 0, 0⟩

/-- The arguments of `pm_verify_response`, apart from the cache. -/
structure VerifyCall where
  key : Bytes 32
  expectedDeviceId : List UInt8
  path : List UInt8
  query : Option (List UInt8)
  nowUtcMs : ℤ
  headers : ResponseAuthHeaders
  body : List UInt8

variable [Sha256] [Base64]

namespace VerifyCall

/-- What a response consists of. -/
def response (c : VerifyCall) : ResponseAuthHeaders × List UInt8 := (c.headers, c.body)

/-- The digest of the nonce. -/
def nonceDigest (c : VerifyCall) : Bytes 32 := sha256 c.headers.nonce.str

/-- The string that is signed. -/
def canonical (c : VerifyCall) : Except EspErr (List UInt8) :=
  buildCanonical (ascii "RESPONSE") c.path c.query c.headers.timestamp.str c.headers.nonce.str
    c.headers.contentSha256.str canonicalMax

end VerifyCall

/-- `pm_verify_response_digest`; the body of the call is not used. -/
def verifyResponseDigest (c : VerifyCall) (expectedContentSha256 : List UInt8) (cache : NonceCache) :
    EspErr × NonceCache :=
  let headers := c.headers
  if !lowercaseHexSha256 expectedContentSha256 || headers.protocol.str != protocolId ||
      headers.deviceId.str != c.expectedDeviceId || !lowercaseHexSha256 headers.contentSha256.str then
    (.invalidArg, cache)
  else
    match strtoll headers.timestamp.str with
    | none => (.invalidResponse, cache)
    | some (timestampSeconds, timestampEnd) =>
      if timestampEnd ≠ [] ∨ timestampSeconds < 0 ∨ c.nowUtcMs < 0 ∨
          300 < |timestampSeconds - c.nowUtcMs.tdiv 1000| then
        (.invalidResponse, cache)
      else if headers.nonce.str.length < 16 ∨ 128 < headers.nonce.str.length ∨
          headers.signature.str.length ≠ 44 then
        (.invalidResponse, cache)
      else if !constantTimeEqual expectedContentSha256 headers.contentSha256.str then
        (.invalidCrc, cache)
      else
        match c.canonical with
        | .error e => (e, cache)
        | .ok canonical =>
          let expected := hmacSha256 c.key.bytes canonical
          match base64Decode headers.signature.str with
          | none => (.invalidMac, cache)
          | some presented =>
            if presented.length ≠ 32 ∨ !constantTimeEqual expected.bytes presented then
              (.invalidMac, cache)
            else if cache.contains c.nonceDigest then (.invalidState, cache)
            else (.ok, cache.push c.nonceDigest)

/-- `pm_verify_response`. -/
def verifyResponse (c : VerifyCall) (cache : NonceCache) : EspErr × NonceCache :=
  verifyResponseDigest c (hexLower (sha256 c.body).bytes) cache

/-! ## What is accepted -/

/-- The response is genuine and fresh: everything that is asked of it except that it is new. -/
structure Acceptable (c : VerifyCall) : Prop where
  protocol : c.headers.protocol.str = protocolId
  device : c.headers.deviceId.str = c.expectedDeviceId
  content : c.headers.contentSha256.str = hexLower (sha256 c.body).bytes
  fresh : ∃ seconds, strtoll c.headers.timestamp.str = some (seconds, []) ∧ 0 ≤ seconds ∧
    0 ≤ c.nowUtcMs ∧ |seconds - c.nowUtcMs / 1000| ≤ 300
  nonce : 16 ≤ c.headers.nonce.str.length ∧ c.headers.nonce.str.length ≤ 128
  signature : c.headers.signature.str.length = 44 ∧ ∃ canonical, c.canonical = .ok canonical ∧
    base64Decode c.headers.signature.str = some (hmacSha256 c.key.bytes canonical).bytes

omit [Sha256] [Base64] in
theorem hexLower_length (data : List UInt8) : (hexLower data).length = 2 * data.length := by
  induction data with
  | nil => rfl
  | cons b data ih =>
    rw [hexLower, List.flatMap_cons, List.length_append, ← hexLower, ih]
    simp only [List.length_cons, List.length_nil]
    omega

omit [Sha256] [Base64] in
theorem hexLower_digits {data : List UInt8} {c : UInt8} (h : c ∈ hexLower data) :
    (isdigit c || (0x61 ≤ c && c ≤ 0x66)) = true := by
  have hdigit : ∀ n < 16, (isdigit (hexAlphabet.getD n 0) ||
      (0x61 ≤ hexAlphabet.getD n 0 && hexAlphabet.getD n 0 ≤ 0x66)) = true := by decide +kernel
  obtain ⟨b, -, hc⟩ := List.mem_flatMap.1 h
  have hb := b.toNat_lt
  simp only [List.mem_cons, List.not_mem_nil, or_false] at hc
  rcases hc with rfl | rfl
  · refine hdigit _ ?_
    have hpow : (2 : ℕ) ^ (UInt8.toNat 4 % 8) = 16 := rfl
    rw [UInt8.toNat_shiftRight, Nat.shiftRight_eq_div_pow, hpow]
    omega
  · refine hdigit _ ?_
    rw [UInt8.toNat_and]
    exact Nat.lt_of_le_of_lt Nat.and_le_right (by decide)

omit [Sha256] [Base64] in
theorem lowercaseHexSha256_hexLower (d : Bytes 32) :
    lowercaseHexSha256 (hexLower d.bytes) = true := by
  simp only [lowercaseHexSha256, hexLower_length, d.size, Bool.and_eq_true, List.all_eq_true]
  exact ⟨rfl, fun c hc => hexLower_digits hc⟩

/-! ### The checks, one by one -/

omit [Base64] in
/-- The arguments pass when the protocol and the device are the expected ones and the digest of the
body is written as one. -/
theorem arguments_ok_iff (c : VerifyCall) :
    (!lowercaseHexSha256 (hexLower (sha256 c.body).bytes) || c.headers.protocol.str != protocolId ||
      c.headers.deviceId.str != c.expectedDeviceId ||
      !lowercaseHexSha256 c.headers.contentSha256.str) = false ↔
    c.headers.protocol.str = protocolId ∧ c.headers.deviceId.str = c.expectedDeviceId ∧
      lowercaseHexSha256 c.headers.contentSha256.str = true := by
  simp [lowercaseHexSha256_hexLower, and_assoc]

omit [Sha256] [Base64] in
/-- The timestamp is a number of seconds near the clock. -/
theorem fresh_iff (seconds now : ℤ) (tail : List UInt8) :
    ¬(tail ≠ [] ∨ seconds < 0 ∨ now < 0 ∨ 300 < |seconds - now.tdiv 1000|) ↔
      tail = [] ∧ 0 ≤ seconds ∧ 0 ≤ now ∧ |seconds - now / 1000| ≤ 300 := by
  simp only [not_or, not_not, not_lt, ne_eq]
  refine and_congr_right fun _ => and_congr_right fun _ => and_congr_right fun hnow => ?_
  rw [Int.tdiv_eq_ediv_of_nonneg hnow]

omit [Base64] in
/-- The digest of the body is the one in the header. -/
theorem content_eq_iff {c : VerifyCall}
    (hhex : lowercaseHexSha256 c.headers.contentSha256.str = true) :
    constantTimeEqual (hexLower (sha256 c.body).bytes) c.headers.contentSha256.str = true ↔
      c.headers.contentSha256.str = hexLower (sha256 c.body).bytes := by
  have hexpected : (hexLower (sha256 c.body).bytes).length = 64 := by
    rw [hexLower_length, (sha256 c.body).size]
  have hlength : c.headers.contentSha256.str.length = 64 := by
    simp only [lowercaseHexSha256, Bool.and_eq_true, decide_eq_true_eq] at hhex
    exact hhex.1
  exact (constantTimeEqual_iff (hexpected.trans hlength.symm)).trans eq_comm

omit [Sha256] [Base64] in
/-- The presented code is the expected one. -/
theorem mac_ok_iff (mac : Bytes 32) (presented : List UInt8) :
    ¬(presented.length ≠ 32 ∨ (!constantTimeEqual mac.bytes presented) = true) ↔
      presented = mac.bytes := by
  simp only [not_or, not_not, ne_eq, Bool.not_eq_true', Bool.not_eq_false]
  constructor
  · rintro ⟨hlength, hequal⟩
    exact ((constantTimeEqual_iff (mac.size.trans hlength.symm)).1 hequal).symm
  · rintro rfl
    exact ⟨mac.size, (constantTimeEqual_iff rfl).2 rfl⟩

/-- A call rejects the response and leaves the cache alone, or the response is acceptable, its nonce
is not remembered, and its digest is put in. -/
theorem verifyResponse_cases (c : VerifyCall) (cache : NonceCache) :
    (¬(Acceptable c ∧ cache.contains c.nonceDigest = false) ∧
      ∃ e, e ≠ .ok ∧ verifyResponse c cache = (e, cache)) ∨
    (Acceptable c ∧ cache.contains c.nonceDigest = false ∧
      verifyResponse c cache = (.ok, cache.push c.nonceDigest)) := by
  unfold verifyResponse verifyResponseDigest
  dsimp only
  split
  next hargs =>
    refine .inl ⟨fun ⟨ha, _⟩ => ?_, .invalidArg, by decide, rfl⟩
    have hhex := lowercaseHexSha256_hexLower (sha256 c.body)
    rw [← ha.content] at hhex
    rw [(arguments_ok_iff c).2 ⟨ha.protocol, ha.device, hhex⟩] at hargs
    cases hargs
  next hargs =>
  obtain ⟨hprotocol, hdevice, hhex⟩ := (arguments_ok_iff c).1 (by simpa using hargs)
  split
  next hparse =>
    refine .inl ⟨fun ⟨ha, _⟩ => ?_, .invalidResponse, by decide, rfl⟩
    obtain ⟨seconds, hseconds, -⟩ := ha.fresh
    rw [hparse] at hseconds
    cases hseconds
  next seconds tail hparse =>
  split
  next hstale =>
    refine .inl ⟨fun ⟨ha, _⟩ => ?_, .invalidResponse, by decide, rfl⟩
    obtain ⟨seconds', hseconds, hnear⟩ := ha.fresh
    rw [hparse] at hseconds
    cases hseconds
    exact (fresh_iff _ _ _).2 ⟨rfl, hnear⟩ hstale
  next hfresh =>
  obtain ⟨rfl, hnear⟩ := (fresh_iff _ _ _).1 hfresh
  split
  next hsizes =>
    refine .inl ⟨fun ⟨ha, _⟩ => ?_, .invalidResponse, by decide, rfl⟩
    have := ha.nonce
    have := ha.signature.1
    omega
  next hsizes =>
  simp only [not_or, not_lt, ne_eq, not_not] at hsizes
  split
  next hdigest =>
    refine .inl ⟨fun ⟨ha, _⟩ => ?_, .invalidCrc, by decide, rfl⟩
    rw [(content_eq_iff hhex).2 ha.content] at hdigest
    cases hdigest
  next hdigest =>
  have hcontent := (content_eq_iff hhex).1 (by simpa using hdigest)
  split
  next e hcanonical =>
    refine .inl ⟨fun ⟨ha, _⟩ => ?_, e, buildCanonical_error_ne_ok hcanonical, rfl⟩
    obtain ⟨-, canonical, hbuilt, -⟩ := ha.signature
    rw [hcanonical] at hbuilt
    cases hbuilt
  next canonical hcanonical =>
  split
  next hdecode =>
    refine .inl ⟨fun ⟨ha, _⟩ => ?_, .invalidMac, by decide, rfl⟩
    obtain ⟨-, canonical', -, hsignature⟩ := ha.signature
    rw [hdecode] at hsignature
    cases hsignature
  next presented hdecode =>
  split
  next hmac =>
    refine .inl ⟨fun ⟨ha, _⟩ => ?_, .invalidMac, by decide, rfl⟩
    obtain ⟨-, canonical', hbuilt, hsignature⟩ := ha.signature
    rw [hcanonical] at hbuilt
    cases hbuilt
    rw [hdecode] at hsignature
    exact (mac_ok_iff _ _).2 (Option.some.inj hsignature) hmac
  next hmac =>
  have hpresented := (mac_ok_iff _ _).1 hmac
  split
  next hseen =>
    refine .inl ⟨fun ⟨_, hnew⟩ => ?_, .invalidState, by decide, rfl⟩
    rw [hnew] at hseen
    cases hseen
  next hnew =>
  exact .inr ⟨⟨hprotocol, hdevice, hcontent, ⟨seconds, hparse, hnear⟩, ⟨hsizes.1, hsizes.2.1⟩,
    hsizes.2.2, canonical, hcanonical, by rw [hdecode, hpresented]⟩, by simpa using hnew, rfl⟩

/-! ## Runs over one cache -/

/-- A cache and the calls that were accepted with it, oldest first. -/
structure Exchanges where
  cache : NonceCache
  accepted : List VerifyCall

namespace Exchanges

/-- Nothing was accepted yet. -/
def start : Exchanges := ⟨.zero, []⟩

/-- One call. -/
def step (s : Exchanges) (c : VerifyCall) : Exchanges where
  cache := (verifyResponse c s.cache).2
  accepted := if (verifyResponse c s.cache).1 = .ok then s.accepted ++ [c] else s.accepted

/-- The digests of the accepted nonces. -/
def digests (s : Exchanges) : List (Bytes 32) := s.accepted.map VerifyCall.nonceDigest

/-- The digests of the last 32 accepted nonces, or of all of them when they are fewer. -/
def remembered (s : Exchanges) : List (Bytes 32) := s.digests.drop (s.digests.length - 32)

/-- A rejected call changes nothing; an accepted one is recorded and its digest put in. -/
theorem step_cases (s : Exchanges) (c : VerifyCall) :
    ((verifyResponse c s.cache).1 ≠ .ok ∧ s.step c = s) ∨
      ((verifyResponse c s.cache).1 = .ok ∧
        s.step c = ⟨s.cache.push c.nonceDigest, s.accepted ++ [c]⟩) := by
  rcases verifyResponse_cases c s.cache with ⟨-, e, he, hr⟩ | ⟨-, -, hr⟩
  · refine .inl ⟨by rw [hr]; exact he, ?_⟩
    simp [step, hr, he]
  · exact .inr ⟨by rw [hr], by simp [step, hr]⟩

theorem holds_step {s : Exchanges} (hs : s.cache.Holds s.digests) (c : VerifyCall) :
    (s.step c).cache.Holds (s.step c).digests := by
  rcases s.step_cases c with ⟨-, hstep⟩ | ⟨-, hstep⟩
  · rw [hstep]
    exact hs
  · rw [hstep, digests, List.map_append]
    exact hs.push _

omit [Base64] in
theorem holds_start : start.cache.Holds start.digests :=
  ⟨rfl, rfl, fun k hk => absurd hk (Nat.not_lt_zero k)⟩

/-- The cache holds the digests of the accepted nonces. -/
theorem holds_run (calls : List VerifyCall) :
    (run step start calls).cache.Holds (run step start calls).digests :=
  run_invariant (I := fun s : Exchanges => s.cache.Holds s.digests) (fun _ c hs => holds_step hs c)
    holds_start calls

end Exchanges

/-- **Verification accepts exactly its specification**, whatever was presented before: the response
is acceptable and its nonce is not among the last 32 accepted. A rejected response leaves the cache
as it is, and an accepted one appends the digest of its nonce, over the oldest when the cache is
full. -/
theorem verify_response_exact (earlier : List VerifyCall) (c : VerifyCall) :
    let s := run Exchanges.step .start earlier
    ((verifyResponse c s.cache).1 = .ok ↔ Acceptable c ∧ c.nonceDigest ∉ s.remembered) ∧
      ((verifyResponse c s.cache).1 ≠ .ok → (verifyResponse c s.cache).2 = s.cache) ∧
      ((verifyResponse c s.cache).1 = .ok →
        (verifyResponse c s.cache).2 = s.cache.push c.nonceDigest ∧
        (verifyResponse c s.cache).2.toList =
          (if s.remembered.length < 32 then s.remembered else s.remembered.tail) ++
            [c.nonceDigest]) ∧
      s.cache.toList = s.remembered := by
  intro s
  have hholds : s.cache.Holds s.digests := Exchanges.holds_run earlier
  have hseen : s.cache.contains c.nonceDigest = false ↔ c.nonceDigest ∉ s.remembered := by
    rw [Exchanges.remembered, ← hholds.contains_iff, Bool.not_eq_true]
  refine ⟨?_, ?_, ?_, hholds.toList_eq⟩
  · rw [← hseen]
    rcases verifyResponse_cases c s.cache with ⟨hnot, e, he, hr⟩ | ⟨ha, hnew, hr⟩
    · simp [hr, he, hnot]
    · simp [hr, ha, hnew]
  · intro hne
    rcases verifyResponse_cases c s.cache with ⟨-, e, -, hr⟩ | ⟨-, -, hr⟩
    · rw [hr]
    · exact absurd (by rw [hr]) hne
  · intro hok
    have hpush : (verifyResponse c s.cache).2 = s.cache.push c.nonceDigest := by
      rcases verifyResponse_cases c s.cache with ⟨-, e, he, hr⟩ | ⟨-, -, hr⟩
      · rw [hr] at hok
        exact absurd hok he
      · rw [hr]
    refine ⟨hpush, ?_⟩
    rw [hpush, hholds.toList_push, hholds.toList_eq]
    rfl

end PowerMonitor.Protocol
