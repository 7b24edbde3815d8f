import Mathlib.Data.List.Induction
import Mathlib.Data.List.Nodup
import PowerMonitor.Protocol.Verify

/-!
# Replayed responses

A response is fresh for 300 seconds either side of its timestamp, and the cache remembers the last
32 accepted nonces. The cache is the only thing that tells a response from a copy of it, so a copy
that is presented while the response is still fresh is refused as long as fewer than 32 others were
accepted in between, and accepted after that. `no_replay_iff` states this for every run, and
`replay_after_32` is a run at one response every two seconds in which a response comes through a
second time after 66 seconds.
-/

namespace PowerMonitor.Protocol

open CMemory CJson CText Runs

section

variable [Sha256] [Base64]

/-- The call does not accept a response that was accepted before. -/
def NotReplayed (s : Exchanges) (c : VerifyCall) : Prop :=
  (verifyResponse c s.cache).1 = .ok → c.response ∉ s.accepted.map VerifyCall.response

/-- A response that was accepted before and would pass as a new one is presented before 32 responses
were accepted since one with its nonce was. -/
def InTime (s : Exchanges) (c : VerifyCall) : Prop :=
  Acceptable c → c.response ∈ s.accepted.map VerifyCall.response →
    ∃ before e since, s.accepted = before ++ e :: since ∧ e.nonceDigest = c.nonceDigest ∧
      since.length < 32

omit [Base64] in
/-- A digest is remembered when fewer than 32 responses were accepted since. -/
theorem Exchanges.mem_remembered {s : Exchanges} {d : Bytes 32} :
    d ∈ s.remembered ↔ ∃ before e since, s.accepted = before ++ e :: since ∧ e.nonceDigest = d ∧
      since.length < 32 := by
  rw [remembered, digests, List.length_map, ← List.map_drop, List.mem_map]
  constructor
  · rintro ⟨e, he, hd⟩
    obtain ⟨before, since, hsplit⟩ := List.append_of_mem he
    refine ⟨s.accepted.take (s.accepted.length - 32) ++ before, e, since, ?_, hd, ?_⟩
    · rw [List.append_assoc, ← hsplit, List.take_append_drop]
    · have hlen := congrArg List.length hsplit
      simp only [List.length_drop, List.length_append, List.length_cons] at hlen
      omega
  · rintro ⟨before, e, since, hsplit, hd, hlen⟩
    refine ⟨e, ?_, hd⟩
    rw [hsplit, List.length_append, List.length_cons, List.drop_append]
    refine List.mem_append_right _ ?_
    have hzero : before.length + (since.length + 1) - 32 - before.length = 0 := by omega
    rw [hzero, List.drop_zero]
    exact List.mem_cons_self

/-- A replay is refused exactly while its nonce is remembered. -/
theorem notReplayed_iff {s : Exchanges} (hs : s.cache.Holds s.digests) (c : VerifyCall) :
    NotReplayed s c ↔ InTime s c := by
  have hseen : s.cache.contains c.nonceDigest = true ↔ c.nonceDigest ∈ s.remembered :=
    hs.contains_iff _
  rw [NotReplayed, InTime, ← Exchanges.mem_remembered, ← hseen]
  rcases verifyResponse_cases c s.cache with ⟨hnot, e, he, hr⟩ | ⟨ha, hnew, hr⟩
  · refine ⟨fun _ ha _ => ?_, fun _ hok => ?_⟩
    · by_contra hmiss
      exact hnot ⟨ha, by simpa using hmiss⟩
    · rw [hr] at hok
      exact absurd hok he
  · constructor
    · exact fun h _ hmem => absurd hmem (h (by rw [hr]))
    · intro h _ hmem
      rw [h ha hmem] at hnew
      cases hnew

/-- **When no response is accepted twice**: in every run of calls over one cache, no response is
accepted again exactly if each one that was accepted before and would pass as new is presented while
fewer than 32 responses were accepted since. -/
theorem no_replay_iff (calls : List VerifyCall) :
    Along Exchanges.step NotReplayed .start calls ↔ Along Exchanges.step InTime .start calls := by
  refine Along.iff_of_invariant (I := fun s : Exchanges => s.cache.Holds s.digests) ?_ ?_
    Exchanges.holds_start calls
  · intro s c hs _
    exact Exchanges.holds_step hs c
  · exact fun s c hs => notReplayed_iff hs c

/-- Acceptable responses with distinct nonces are all accepted. -/
theorem accepted_of_distinct (calls : List VerifyCall) (hall : ∀ c ∈ calls, Acceptable c)
    (hdistinct : (calls.map VerifyCall.nonceDigest).Nodup) :
    (run Exchanges.step .start calls).accepted = calls := by
  induction calls using List.reverseRecOn with
  | nil => rfl
  | append_singleton calls c ih =>
    rw [List.map_append, List.nodup_append] at hdistinct
    have hprev := ih (fun d hd => hall d (List.mem_append_left _ hd)) hdistinct.1
    have hholds := Exchanges.holds_run calls
    rw [run_append, run_cons, run_nil]
    generalize run Exchanges.step .start calls = s at hprev hholds ⊢
    have hnew : s.cache.contains c.nonceDigest = false := by
      rw [← Bool.not_eq_true, hholds.contains_iff]
      intro hmem
      have hmem' : c.nonceDigest ∈ s.digests := List.mem_of_mem_drop hmem
      rw [Exchanges.digests, hprev] at hmem'
      exact hdistinct.2.2 _ hmem' _ (by simp) rfl
    rcases verifyResponse_cases c s.cache with ⟨hnot, -⟩ | ⟨-, -, hr⟩
    · exact absurd ⟨hall c (by simp), hnew⟩ hnot
    · simp [Exchanges.step, hr, hprev]

end

/-! ## A response that is accepted twice -/

namespace ReplayRun

/-- A device identity. -/
def device : List UInt8 := List.replicate 36 0x61

/-- `PM_TELEMETRY_ENDPOINT`. -/
def path : List UInt8 := ascii "/api/v1/device/telemetry/v2"

/-- The key of the server. -/
def key : Bytes 32 := Bytes.zero 32

/-- The Unix time of the response `i`. -/
def seconds (i : ℕ) : ℕ := 1704067200 + 2 * i

def timestamp (i : ℕ) : List UInt8 := (Nat.toDigits 10 (seconds i)).map fun d => UInt8.ofNat d.toNat

def nonce (i : ℕ) : List UInt8 := List.replicate 15 0x61 ++ [UInt8.ofNat (0x30 + i)]

/-- The digest of the empty body, as the server writes it. -/
def content : List UInt8 := hexLower (Sha2.digest []).bytes

/-- What the server signs. -/
def signed (i : ℕ) : List UInt8 :=
  hmacScheme ++ 0x0a :: ascii "RESPONSE" ++ 0x0a :: path ++ 0x0a :: timestamp i ++ 0x0a :: nonce i ++
    0x0a :: content

/-- The headers the server sends with the response `i`, whose body is empty. -/
def headers (i : ℕ) : ResponseAuthHeaders where
  protocol := (Bytes.zero 18).print protocolId
  deviceId := (Bytes.zero 37).print device
  timestamp := (Bytes.zero 24).print (timestamp i)
  nonce := (Bytes.zero 129).print (nonce i)
  contentSha256 := (Bytes.zero 65).print content
  signature := (Bytes.zero 45).print
    (Base64Text.encode (@hmacSha256 .standard key.bytes (signed i)).bytes)

/-- The response `i`, presented `2 * t` seconds into the run. -/
def call (i t : ℕ) : VerifyCall where
  key := key
  expectedDeviceId := device
  path := path
  query := none
  nowUtcMs := 1000 * seconds t
  headers := headers i
  body := []

theorem timestamp_spec : ∀ i < 33, (timestamp i).length = 10 ∧ 0 ∉ timestamp i ∧
    strtoll (timestamp i) = some ((seconds i : ℤ), []) := by
  decide

theorem nonce_spec : ∀ i < 33, (nonce i).length = 16 ∧ 0 ∉ nonce i := by
  decide

theorem content_spec : content.length = 64 ∧ 0 ∉ content := by
  refine ⟨by rw [content, hexLower_length, (Sha2.digest []).size], fun h => ?_⟩
  exact absurd (hexLower_digits h) (by decide)

theorem text_spec : (0 ∉ protocolId ∧ protocolId.length = 17) ∧ (0 ∉ device ∧ device.length = 36) ∧
    path.length = 27 ∧ path.head? = some 0x2f ∧ hmacScheme.length = 17 ∧
    (ascii "RESPONSE").length = 8 ∧ (ascii "RESPONSE").map toupper = ascii "RESPONSE" := by
  decide +kernel

/-- The server's response passes every check while it is fresh. -/
theorem acceptable (i t : ℕ) (hi : i < 33) (hit : i ≤ t) (ht : t ≤ i + 150) :
    @Acceptable .standard .standard (call i t) := by
  obtain ⟨htlen, htnul, htparse⟩ := timestamp_spec i hi
  obtain ⟨hnlen, hnnul⟩ := nonce_spec i hi
  obtain ⟨hclen, hcnul⟩ := content_spec
  obtain ⟨⟨hpnul, hplen⟩, ⟨hdnul, hdlen⟩, hpath, hhead, hscheme, hmethod, hupper⟩ := text_spec
  have hts : (headers i).timestamp.str = timestamp i := Bytes.str_print htnul (by omega)
  have hnonce : (headers i).nonce.str = nonce i := Bytes.str_print hnnul (by omega)
  have hcontent : (headers i).contentSha256.str = content := Bytes.str_print hcnul (by omega)
  have hsize := (@hmacSha256 .standard key.bytes (signed i)).size
  have hsiglen : (Base64Text.encode (@hmacSha256 .standard key.bytes (signed i)).bytes).length =
      44 := by
    rw [Base64Text.length_encode, hsize]
  have hsig : (headers i).signature.str =
      Base64Text.encode (@hmacSha256 .standard key.bytes (signed i)).bytes :=
    Bytes.str_print (Base64Text.zero_notMem_encode _) (by omega)
  have hcanonical : (call i t).canonical = .ok (signed i) := by
    have hquery : canonicalQuery none canonicalQueryMax = .ok [] := rfl
    have hmethod' : ¬(ascii "RESPONSE" = [] ∨ 16 ≤ (ascii "RESPONSE").length) := by
      rw [hmethod]
      decide +kernel
    have htarget : canonicalTarget path [] = path := by simp [canonicalTarget]
    rw [VerifyCall.canonical]
    change buildCanonical _ path none (headers i).timestamp.str (headers i).nonce.str
      (headers i).contentSha256.str _ = _
    rw [hts, hnonce, hcontent, buildCanonical, if_neg (by simp [hhead]), if_neg hmethod', hquery]
    dsimp only
    rw [htarget, if_neg (by omega), hupper]
    refine if_pos ?_
    simp only [List.length_append, List.length_cons, hscheme, hmethod, hpath, htlen, hnlen, hclen,
      canonicalMax]
    decide
  refine @Acceptable.mk .standard .standard _ ?_ ?_ hcontent ?_ ?_ ?_
  · exact Bytes.str_print hpnul (by omega)
  · exact Bytes.str_print hdnul (by omega)
  · refine ⟨seconds i, hts ▸ htparse, by positivity, ?_, ?_⟩
    · change (0 : ℤ) ≤ 1000 * seconds t
      positivity
    · change |(seconds i : ℤ) - 1000 * seconds t / 1000| ≤ 300
      rw [Int.mul_ediv_cancel_left _ (by decide), abs_le]
      simp only [seconds]
      push_cast
      omega
  · change 16 ≤ (headers i).nonce.str.length ∧ (headers i).nonce.str.length ≤ 128
    rw [hnonce, hnlen]
    decide
  · change (headers i).signature.str.length = 44 ∧ _
    refine ⟨hsig ▸ hsiglen, signed i, hcanonical, ?_⟩
    change Base64Text.decode (headers i).signature.str = _
    rw [hsig]
    exact Base64Text.decode_encode _

/-- A byte of the digest of the nonce `i`, which no other nonce has. -/
def digestByte (i : ℕ) : UInt8 := (Sha2.digest (nonce i)).bytes.getD 12 0

theorem digests_nodup : ((List.range 33).map fun i => Sha2.digest (nonce i)).Nodup := by
  -- eleven digests at a time, so that not all of them are evaluated at once
  have hfirst : (List.range' 0 11).map digestByte =
      [174, 128, 157, 1, 197, 4, 9, 36, 99, 247, 60] := by
    decide +kernel
  have hsecond : (List.range' 11 11).map digestByte =
      [30, 210, 137, 136, 209, 112, 176, 143, 76, 98, 164] := by
    decide +kernel
  have hthird : (List.range' 22 11).map digestByte =
      [15, 35, 59, 42, 144, 175, 235, 90, 41, 245, 201] := by
    decide +kernel
  have hparts : List.range 33 = List.range' 0 11 ++ (List.range' 11 11 ++ List.range' 22 11) := rfl
  have hbytes : ((List.range 33).map fun i => Sha2.digest (nonce i)).map (fun d => d.bytes.getD 12 0) =
      (List.range 33).map digestByte := List.map_map
  refine List.Nodup.of_map (fun d => d.bytes.getD 12 0) ?_
  rw [hbytes, hparts, List.map_append, List.map_append, hfirst, hsecond, hthird]
  decide

/-- 33 responses, one every two seconds. -/
def responses : List VerifyCall := (List.range 33).map fun i => call i i

theorem responses_digests : responses.map (@VerifyCall.nonceDigest .standard) =
    (List.range 33).map fun i => Sha2.digest (nonce i) := by
  rw [responses, List.map_map]
  refine List.map_congr_left fun i hi => ?_
  obtain ⟨hlen, hnul⟩ := nonce_spec i (List.mem_range.1 hi)
  exact congrArg Sha2.digest (Bytes.str_print hnul (by omega))

theorem responses_accepted :
    (run (@Exchanges.step .standard .standard) .start responses).accepted = responses := by
  refine @accepted_of_distinct .standard .standard responses (fun c hc => ?_) ?_
  · obtain ⟨i, hi, rfl⟩ := List.mem_map.1 hc
    exact acceptable i i (List.mem_range.1 hi) le_rfl (by omega)
  · rw [responses_digests]
    exact digests_nodup

end ReplayRun

open ReplayRun in
/-- The first of 33 responses is accepted a second time, 66 seconds after it was signed. -/
theorem replay_after_32 :
    ((responses ++ [call 0 33]).map VerifyCall.nowUtcMs).Pairwise (· ≤ ·) ∧
      ¬Along (@Exchanges.step .standard .standard) (@NotReplayed .standard .standard) .start
        (responses ++ [call 0 33]) := by
  refine ⟨by decide, fun h => ?_⟩
  rw [along_append] at h
  have hreplay := h.2.1
  have haccepted := responses_accepted
  have hholds := @Exchanges.holds_run .standard .standard responses
  generalize run (@Exchanges.step .standard .standard) .start responses = s at *
  rw [@notReplayed_iff .standard .standard s hholds] at hreplay
  have hfirst : (call 0 33).response ∈ s.accepted.map VerifyCall.response := by
    rw [haccepted]
    exact List.mem_map.2 ⟨call 0 0, List.mem_map.2 ⟨0, by simp, rfl⟩, rfl⟩
  obtain ⟨before, e, since, hsplit, hdigest, hsince⟩ :=
    hreplay (acceptable 0 33 (by decide) (by decide) (by decide)) hfirst
  rw [haccepted] at hsplit
  have hnodup := digests_nodup
  rw [← responses_digests, hsplit] at hnodup
  cases before with
  | nil =>
    have hlen := congrArg List.length hsplit
    simp only [responses, List.length_map, List.length_range, List.nil_append,
      List.length_cons] at hlen
    omega
  | cons b before =>
    obtain rfl : call 0 0 = b := by
      have hhead := congrArg List.head? hsplit
      exact Option.some.inj hhead
    rw [List.cons_append, List.map_cons, List.nodup_cons] at hnodup
    refine hnodup.1 (List.mem_map.2 ⟨e, by simp, ?_⟩)
    rw [hdigest]
    rfl

end PowerMonitor.Protocol
