import PowerMonitor.Protocol.NormalForm

/-!
# The canonical string names its request

`pm_build_canonical` with the buffers it goes through: the method of 16 bytes, the query of 384, the
target of 512, and the output of the caller. The last two are written by `snprintf`, which cuts a
text that does not fit and returns the length of the whole.

* `pmBuildCanonical` is the function with its output; it agrees with `buildCanonical` wherever the
  size of the output is an `int`.
* When it succeeds nothing was cut: the output is `canonicalString` (`pmBuildCanonical_ok`).
* Six fields without a newline are read back from the lines of the string, and the path and the
  query from the first `?` of the target.
-/

namespace PowerMonitor.Protocol

open CMemory CJson CText

/-! ## The function with its buffers -/

/-- `snprintf` of a text into a buffer of `size` bytes: the value returned and the characters
written. A length that is no `int` is an error. -/
def snprintf (size : ℕ) (text : List UInt8) : ℤ × List UInt8 :=
  (if text.length < 2 ^ 31 then text.length else -1, text.take (size - 1))

/-- The arguments of `pm_build_canonical`, any of which may be `NULL`. -/
structure CanonicalArgs where
  method : Option (List UInt8)
  path : Option (List UInt8)
  query : Option (List UInt8)
  timestamp : Option (List UInt8)
  nonce : Option (List UInt8)
  contentSha256 : Option (List UInt8)

/-- `pm_build_canonical`: its result, and the text in the output where one was written. -/
def pmBuildCanonical (args : CanonicalArgs) (outputSize : ℕ) : EspErr × Option (List UInt8) :=
  match args.method, args.path, args.timestamp, args.nonce, args.contentSha256 with
  | some method, some path, some timestamp, some nonce, some contentSha256 =>
    if path.head? ≠ some 0x2f then (.invalidArg, none)
    else if method.length = 0 ∨ 16 ≤ method.length then (.invalidSize, none)
    else
      let uppercaseMethod := method.map toupper
      let canonicalQuery := pmCanonicalQuery args.query canonicalQueryMax
      if canonicalQuery.1 ≠ .ok then (canonicalQuery.1, none)
      else
        let target := snprintf 512
          (path ++ (if canonicalQuery.2 = [] then [] else [0x3f]) ++ canonicalQuery.2)
        if target.1 < 0 ∨ 512 ≤ target.1 then (.invalidSize, none)
        else
          let written := snprintf outputSize (hmacScheme ++ 0x0a :: uppercaseMethod ++
            0x0a :: target.2 ++ 0x0a :: timestamp ++ 0x0a :: nonce ++ 0x0a :: contentSha256)
          (if 0 ≤ written.1 ∧ written.1 < outputSize then .ok else .invalidSize, some written.2)
  | _, _, _, _, _ => (.invalidArg, none)

/-- The canonical query of a request. -/
def CanonicalArgs.canonicalQuery (args : CanonicalArgs) : List UInt8 :=
  (pmCanonicalQuery args.query canonicalQueryMax).2

/-- The lines of the canonical string. -/
def canonicalLines (args : CanonicalArgs) : List (List UInt8) :=
  [hmacScheme, (args.method.getD []).map toupper,
    canonicalTarget (args.path.getD []) args.canonicalQuery, args.timestamp.getD [],
    args.nonce.getD [], args.contentSha256.getD []]

/-- The string both sides sign, whatever its length. -/
def canonicalString (args : CanonicalArgs) : List UInt8 :=
  [0x0a].intercalate (canonicalLines args)

section Buffers

variable {size : ℕ} {text : List UInt8}

/-- A text that fits its buffer is written whole. -/
theorem snprintf_eq (h : 0 ≤ (snprintf size text).1 ∧ (snprintf size text).1 < size) :
    (snprintf size text).2 = text ∧ (snprintf size text).1 = text.length := by
  unfold snprintf at h ⊢
  by_cases hint : text.length < 2 ^ 31
  · rw [if_pos hint] at h ⊢
    exact ⟨List.take_of_length_le (by simp only at h; omega), rfl⟩
  · rw [if_neg hint] at h
    simp at h

theorem target_eq (path query : List UInt8) :
    path ++ (if query = [] then [] else [0x3f]) ++ query = canonicalTarget path query := by
  unfold canonicalTarget
  by_cases hquery : query = []
  · simp [hquery]
  · simp [hquery]

/-- All that a successful call has seen. -/
theorem pmBuildCanonical_ok {args : CanonicalArgs} {outputSize : ℕ}
    (h : (pmBuildCanonical args outputSize).1 = .ok) :
    args.method.isSome ∧ args.path.isSome ∧ args.timestamp.isSome ∧ args.nonce.isSome ∧
      args.contentSha256.isSome ∧ (pmCanonicalQuery args.query canonicalQueryMax).1 = .ok ∧
      (pmBuildCanonical args outputSize).2 = some (canonicalString args) ∧
      (canonicalString args).length < outputSize := by
  obtain ⟨method, path, query, timestamp, nonce, contentSha256⟩ := args
  match method, path, timestamp, nonce, contentSha256 with
  | some method, some path, some timestamp, some nonce, some contentSha256 =>
    simp only [pmBuildCanonical, target_eq] at h ⊢
    split at h
    · cases h
    rename_i hpath
    split at h
    · cases h
    rename_i hmethod
    split at h
    · exact absurd h ‹_›
    rename_i hquery
    split at h
    · cases h
    rename_i htarget
    have hwhole := snprintf_eq (not_or.1 htarget |>.imp not_lt.1 not_le.1)
    rw [hwhole.1] at h ⊢
    split at h
    next hfits =>
      have hout := snprintf_eq hfits
      rw [if_neg hpath, if_neg hmethod, if_neg hquery, if_neg htarget, hout.1]
      have hstring : canonicalString ⟨some method, some path, query, some timestamp, some nonce,
          some contentSha256⟩ = hmacScheme ++ 0x0a :: method.map toupper ++ 0x0a ::
            canonicalTarget path (pmCanonicalQuery query canonicalQueryMax).2 ++
              0x0a :: timestamp ++ 0x0a :: nonce ++ 0x0a :: contentSha256 := by
        simp [canonicalString, canonicalLines, CanonicalArgs.canonicalQuery,
          List.intercalate_cons_cons]
      rw [hstring]
      refine ⟨rfl, rfl, rfl, rfl, rfl, not_not.1 hquery, rfl, ?_⟩
      rw [hout.2] at hfits
      exact_mod_cast hfits.2
    · cases h
  | none, _, _, _, _ | some _, none, _, _, _ | some _, some _, none, _, _
  | some _, some _, some _, none, _ | some _, some _, some _, some _, none => cases h

theorem snprintf_fits_iff (hsize : size ≤ 2 ^ 31) :
    (0 ≤ (snprintf size text).1 ∧ (snprintf size text).1 < size) ↔ text.length < size := by
  unfold snprintf
  by_cases hint : text.length < 2 ^ 31
  · rw [if_pos hint]
    simp
  · rw [if_neg hint]
    exact ⟨fun h => absurd h.1 (by simp), fun h => absurd h (by omega)⟩

/-- The function with its buffers returns what `buildCanonical` does. -/
theorem buildCanonical_eq {method path timestamp nonce contentSha256 : List UInt8}
    {query : Option (List UInt8)} {outputSize : ℕ} {result : EspErr × Option (List UInt8)}
    (hsize : outputSize ≤ 2 ^ 31)
    (h : pmBuildCanonical ⟨some method, some path, query, some timestamp, some nonce,
      some contentSha256⟩ outputSize = result) :
    buildCanonical method path query timestamp nonce contentSha256 outputSize =
      if result.1 = .ok then .ok (result.2.getD []) else .error result.1 := by
  have hinvalid : EspErr.invalidSize ≠ .ok := by decide
  subst h
  simp only [buildCanonical, pmBuildCanonical, target_eq,
    canonicalQuery_eq (show 0 < canonicalQueryMax by decide), List.length_eq_zero_iff]
  by_cases hpath : path.head? ≠ some 0x2f
  · simp only [if_pos hpath]
    rfl
  by_cases hmethod : method = [] ∨ 16 ≤ method.length
  · simp only [if_neg hpath, if_pos hmethod, if_neg hinvalid]
  simp only [if_neg hpath, if_neg hmethod]
  generalize pmCanonicalQuery query canonicalQueryMax = cq
  obtain ⟨e, text⟩ := cq
  by_cases he : e = .ok
  swap
  · simp only [ne_eq, he, not_false_eq_true, if_true, if_false]
  subst he
  have htarget := @snprintf_fits_iff 512 (canonicalTarget path text) (by decide)
  by_cases hlong : 512 ≤ (canonicalTarget path text).length
  · have hcut : (snprintf 512 (canonicalTarget path text)).1 < 0 ∨
        512 ≤ (snprintf 512 (canonicalTarget path text)).1 := by omega
    simp only [if_true, ne_eq, not_true_eq_false, if_false, hlong, hcut, hinvalid]
  have hfits := htarget.2 (not_le.1 hlong)
  have hcut : ¬((snprintf 512 (canonicalTarget path text)).1 < 0 ∨
      512 ≤ (snprintf 512 (canonicalTarget path text)).1) := by omega
  simp only [if_true, ne_eq, not_true_eq_false, if_false, hlong, hcut, (snprintf_eq hfits).1]
  generalize hmacScheme ++ 0x0a :: method.map toupper ++ 0x0a :: canonicalTarget path text ++
    0x0a :: timestamp ++ 0x0a :: nonce ++ 0x0a :: contentSha256 = output
  by_cases hroom : output.length < outputSize
  · have hwritten := (snprintf_fits_iff hsize).2 hroom
    simp only [if_pos hroom, if_pos hwritten, if_true, (snprintf_eq hwritten).1, Option.getD_some]
  · have hwritten := mt (snprintf_fits_iff hsize).1 hroom
    simp only [if_neg hroom, if_neg hwritten, if_neg hinvalid]

end Buffers

/-! ## Reading the string back -/

section Reading

theorem toupper_eq_newline_iff (c : UInt8) : toupper c = 0x0a ↔ c = 0x0a := by
  revert c
  exact forall_byte (by decide)

/-- A canonical query is made of bytes that may stand in a query. -/
theorem queryByte_of_mem_canonicalQuery {query : Option (List UInt8)}
    (h : (pmCanonicalQuery query canonicalQueryMax).1 = .ok) :
    ∀ c ∈ (pmCanonicalQuery query canonicalQueryMax).2, QueryByte c := by
  rw [pmCanonicalQuery_getD] at h ⊢
  generalize query.getD [] = query at h ⊢
  obtain ⟨-, heq⟩ | ⟨-, e, he, heq⟩ := pmCanonicalQuery_cases query
  · -- the normal form is accepted as well
    have hnormal := pmCanonicalQuery_congr (sameQuery_normalQuery query)
    rw [heq] at hnormal ⊢
    obtain ⟨hformed, -⟩ | ⟨-, e, he, heq'⟩ := pmCanonicalQuery_cases (normalQuery query)
    · rcases hformed with hnil | hformed
      · simp [hnil]
      · exact hformed.bytes
    · exact absurd (congrArg Prod.fst (hnormal.trans heq')) he.symm
  · rw [heq] at h
    exact absurd h he

/-- The path ends at the first `?` of the target. -/
theorem canonicalTarget_injective {path path' query query' : List UInt8} (hpath : 0x3f ∉ path)
    (hpath' : 0x3f ∉ path') (h : canonicalTarget path query = canonicalTarget path' query') :
    path = path' ∧ query = query' := by
  have hread : ∀ {path query : List UInt8}, 0x3f ∉ path →
      (canonicalTarget path query).takeWhile (· != 0x3f) = path := by
    intro path query hpath
    unfold canonicalTarget
    rw [List.takeWhile_append_of_pos fun c hc => by
      simpa using fun heq : c = 0x3f => hpath (heq ▸ hc)]
    by_cases hquery : query = []
    · simp [hquery]
    · simp [hquery]
  have hpaths : path = path' := by rw [← hread hpath, h, hread hpath']
  subst hpaths
  refine ⟨rfl, ?_⟩
  have hrest := List.append_cancel_left h
  by_cases hquery : query = []
  · by_cases hquery' : query' = []
    · rw [hquery, hquery']
    · simp [hquery, hquery'] at hrest
  · by_cases hquery' : query' = []
    · simp [hquery, hquery'] at hrest
    · simpa [hquery, hquery'] using hrest

/-- The fields that are written as they are hold no newline, and the path no `?`. -/
structure CanonicalArgs.Clean (args : CanonicalArgs) : Prop where
  method : 0x0a ∉ args.method.getD []
  path : 0x0a ∉ args.path.getD []
  path_query : 0x3f ∉ args.path.getD []
  timestamp : 0x0a ∉ args.timestamp.getD []
  nonce : 0x0a ∉ args.nonce.getD []
  contentSha256 : 0x0a ∉ args.contentSha256.getD []

/-- The lines of a string that was built are its fields. -/
theorem splitOn_canonicalString {args : CanonicalArgs} (hclean : args.Clean)
    (hquery : (pmCanonicalQuery args.query canonicalQueryMax).1 = .ok) :
    (canonicalString args).splitOn 0x0a = canonicalLines args := by
  have hscheme : (0x0a : UInt8) ∉ hmacScheme := by decide +kernel
  have hmethod : (0x0a : UInt8) ∉ (args.method.getD []).map toupper := by
    rw [List.mem_map]
    rintro ⟨c, hc, hupper⟩
    exact hclean.method ((toupper_eq_newline_iff c).1 hupper ▸ hc)
  have htarget : (0x0a : UInt8) ∉ canonicalTarget (args.path.getD []) args.canonicalQuery := by
    unfold canonicalTarget
    rw [List.mem_append, not_or]
    refine ⟨hclean.path, fun hmem => ?_⟩
    split at hmem
    · cases hmem
    · rcases List.mem_cons.1 hmem with heq | hmem
      · exact absurd heq (by decide)
      · exact absurd (queryByte_of_mem_canonicalQuery hquery _ hmem).1 (by decide)
  refine List.splitOn_intercalate 0x0a ?_ (by simp [canonicalLines])
  simp only [canonicalLines, List.forall_mem_cons]
  exact ⟨hscheme, hmethod, htarget, hclean.timestamp, hclean.nonce, hclean.contentSha256, by simp⟩

theorem eq_of_isSome_of_getD {α : Type} {x y : Option (List α)} (hx : x.isSome) (hy : y.isSome)
    (h : x.getD [] = y.getD []) : x = y := by
  obtain ⟨a, rfl⟩ := Option.isSome_iff_exists.1 hx
  obtain ⟨b, rfl⟩ := Option.isSome_iff_exists.1 hy
  exact congrArg some h

/-- Equal strings that were built from clean arguments have equal fields. -/
theorem fields_eq_of_canonicalString_eq {args args' : CanonicalArgs} {outputSize outputSize' : ℕ}
    (h : (pmBuildCanonical args outputSize).1 = .ok)
    (h' : (pmBuildCanonical args' outputSize').1 = .ok) (hclean : args.Clean)
    (hclean' : args'.Clean) (heq : canonicalString args = canonicalString args') :
    args.method.map (List.map toupper) = args'.method.map (List.map toupper) ∧
      args.path = args'.path ∧ args.canonicalQuery = args'.canonicalQuery ∧
      args.timestamp = args'.timestamp ∧ args.nonce = args'.nonce ∧
      args.contentSha256 = args'.contentSha256 := by
  obtain ⟨hmethod, hpath, htimestamp, hnonce, hdigest, hquery, -⟩ := pmBuildCanonical_ok h
  obtain ⟨hmethod', hpath', htimestamp', hnonce', hdigest', hquery', -⟩ := pmBuildCanonical_ok h'
  have hlines := congrArg (List.splitOn 0x0a) heq
  rw [splitOn_canonicalString hclean hquery, splitOn_canonicalString hclean' hquery'] at hlines
  simp only [canonicalLines, List.cons.injEq, true_and, and_true] at hlines
  obtain ⟨heqMethod, heqTarget, heqTimestamp, heqNonce, heqDigest⟩ := hlines
  obtain ⟨heqPath, heqQuery⟩ :=
    canonicalTarget_injective hclean.path_query hclean'.path_query heqTarget
  refine ⟨?_, eq_of_isSome_of_getD hpath hpath' heqPath, heqQuery,
    eq_of_isSome_of_getD htimestamp htimestamp' heqTimestamp,
    eq_of_isSome_of_getD hnonce hnonce' heqNonce, eq_of_isSome_of_getD hdigest hdigest' heqDigest⟩
  obtain ⟨m, hm⟩ := Option.isSome_iff_exists.1 hmethod
  obtain ⟨m', hm'⟩ := Option.isSome_iff_exists.1 hmethod'
  simpa [hm, hm'] using heqMethod

/-- **Canonical strings are unambiguous.** Two calls of `pm_build_canonical` that succeed with the
same output, on fields without a newline and paths without a `?`, were made for the same method up
to case, path, canonical query, timestamp, nonce and digest. The output of a call that succeeds is
the whole string, whatever the lengths and the size of the output. -/
theorem canonical_strings_unambiguous :
    (∀ (args args' : CanonicalArgs) (outputSize outputSize' : ℕ),
      (pmBuildCanonical args outputSize).1 = .ok → (pmBuildCanonical args' outputSize').1 = .ok →
      args.Clean → args'.Clean →
      (pmBuildCanonical args outputSize).2 = (pmBuildCanonical args' outputSize').2 →
      args.method.map (List.map toupper) = args'.method.map (List.map toupper) ∧
      args.path = args'.path ∧ args.canonicalQuery = args'.canonicalQuery ∧
      args.timestamp = args'.timestamp ∧ args.nonce = args'.nonce ∧
      args.contentSha256 = args'.contentSha256) ∧
    ∀ (args : CanonicalArgs) (outputSize : ℕ), (pmBuildCanonical args outputSize).1 = .ok →
      (pmBuildCanonical args outputSize).2 = some (canonicalString args) := by
  have hwhole : ∀ (args : CanonicalArgs) (outputSize : ℕ),
      (pmBuildCanonical args outputSize).1 = .ok →
        (pmBuildCanonical args outputSize).2 = some (canonicalString args) := by
    intro args outputSize h
    obtain ⟨-, -, -, -, -, -, hout, -⟩ := pmBuildCanonical_ok h
    exact hout
  refine ⟨fun args args' outputSize outputSize' h h' hclean hclean' heq => ?_, hwhole⟩
  rw [hwhole args outputSize h, hwhole args' outputSize' h', Option.some.injEq] at heq
  exact fields_eq_of_canonicalString_eq h h' hclean hclean' heq

/-- A request of a device, with the method in lower case. -/
def sampleArgs : CanonicalArgs where
  method := some (ascii "post")
  path := some (ascii "/api/v1/device/telemetry/v2")
  query := none
  timestamp := some (ascii "1700000000")
  nonce := some (ascii "00112233445566778899aabbccddeeff")
  contentSha256 := some (ascii "e3b0c44298fc1c149afbf4c8996fb924")

/-- The same request, with the method in upper case and an empty query. -/
def upperArgs : CanonicalArgs :=
  { sampleArgs with method := some (ascii "POST"), query := some [] }

theorem sample_string_whole :
    (sampleArgs.method.map (List.map toupper) = upperArgs.method.map (List.map toupper) ∧
      sampleArgs.path = upperArgs.path ∧ sampleArgs.canonicalQuery = upperArgs.canonicalQuery ∧
      sampleArgs.timestamp = upperArgs.timestamp ∧ sampleArgs.nonce = upperArgs.nonce ∧
      sampleArgs.contentSha256 = upperArgs.contentSha256) ∧
    (pmBuildCanonical sampleArgs canonicalMax).2 = some (canonicalString sampleArgs) := by
  have hclean : sampleArgs.Clean := by constructor <;> decide +kernel
  have hclean' : upperArgs.Clean := by constructor <;> decide +kernel
  have hok : (pmBuildCanonical sampleArgs canonicalMax).1 = .ok := by decide +kernel
  have hok' : (pmBuildCanonical upperArgs canonicalMax).1 = .ok := by decide +kernel
  have hsame : (pmBuildCanonical sampleArgs canonicalMax).2 =
      (pmBuildCanonical upperArgs canonicalMax).2 := by decide +kernel
  exact ⟨canonical_strings_unambiguous.1 sampleArgs upperArgs canonicalMax canonicalMax hok hok'
      hclean hclean' hsame,
    canonical_strings_unambiguous.2 sampleArgs canonicalMax hok⟩

end Reading

end PowerMonitor.Protocol
