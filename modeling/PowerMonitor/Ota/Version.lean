import Mathlib.Algebra.Order.Ring.WithTop
import Mathlib.Data.Nat.Cast.Order.Ring
import Mathlib.Data.Prod.Lex
import Mathlib.Logic.Relation
import Mathlib.Order.RelClasses
import PowerMonitor.Esp
import PowerMonitor.Foundations.Decimal

/-!
# The version gate

`pm_ota_version.c`: the versions the firmware accepts, their order, and
`pm_ota_version_require_upgrade`, which lets an image be installed only over a lower version.

* `VersionText` is the grammar of a version and `precedence` its rank, a value of a linear order:
  three numbers, then the number of the release candidate, which a release is above.
* `parseVersion_iff` says that the parser accepts this grammar, and `printVersion_of_parse` that
  what it accepts is what the version prints.
* `version_gate` is the result: the gate is the strict order of the ranks, so no chain of upgrades
  comes back.
-/

namespace PowerMonitor.Ota

open CText

/-! ## The parser -/

/-- `pm_ota_version_t`. -/
structure PmOtaVersion where
  major : ℕ
  minor : ℕ
  patch : ℕ
  releaseCandidate : ℕ
  isReleaseCandidate : Bool
  deriving DecidableEq, Repr

/-- The loop of `parse_number`, with the number parsed so far. -/
def parseDigits (parsed : ℕ) : List UInt8 → Option (ℕ × List UInt8)
  | [] => some (parsed, [])
  | c :: rest =>
    if isdigit c then
      if (uint32Max - digitValue c) / 10 < parsed then none
      else parseDigits (parsed * 10 + digitValue c) rest
    else some (parsed, c :: rest)

/-- `parse_number`: the number at the cursor and the text after it. -/
def parseNumber (text : List UInt8) : Option (ℕ × List UInt8) :=
  match text with
  | [] => none
  | c :: rest =>
    if !isdigit c then none
    else if c == 0x30 && isdigit (rest.headD 0) then none
    else parseDigits 0 (c :: rest)

/-- `-rc.`. -/
def rcMark : List UInt8 := [0x2d, 0x72, 0x63, 0x2e]

/-- `parse_version`. -/
def parseVersion (text : List UInt8) : Option PmOtaVersion := do
  let (major, rest) ← parseNumber text
  let rest ← scanChar 0x2e rest
  let (minor, rest) ← parseNumber rest
  let rest ← scanChar 0x2e rest
  let (patch, rest) ← parseNumber rest
  if rest = [] then some ⟨major, minor, patch, 0, false⟩
  else if rest.take 4 ≠ rcMark then none
  else
    let (candidate, rest) ← parseNumber (rest.drop 4)
    if candidate = 0 ∨ rest ≠ [] then none
    else some ⟨major, minor, patch, candidate, true⟩

/-- `compare_versions`. -/
def compareVersions (left right : PmOtaVersion) : ℤ :=
  if left.major ≠ right.major then (if right.major < left.major then 1 else -1)
  else if left.minor ≠ right.minor then (if right.minor < left.minor then 1 else -1)
  else if left.patch ≠ right.patch then (if right.patch < left.patch then 1 else -1)
  else if left.isReleaseCandidate ≠ right.isReleaseCandidate then
    (if left.isReleaseCandidate then -1 else 1)
  else if !left.isReleaseCandidate || left.releaseCandidate = right.releaseCandidate then 0
  else (if right.releaseCandidate < left.releaseCandidate then 1 else -1)

/-- `pm_ota_version_require_upgrade`. -/
def pmOtaVersionRequireUpgrade (currentVersion candidateVersion : List UInt8) : EspErr :=
  match parseVersion currentVersion, parseVersion candidateVersion with
  | some current, some candidate =>
    if 0 < compareVersions candidate current then .ok else .notSupported
  | _, _ => .invalidArg

/-! ## What a version is -/

/-- A number of a version: `0` or digits that do not start with one, in 32 bits. -/
structure VersionNumber (text : List UInt8) : Prop where
  numeral : IsNumeral text
  fits : decimal text ≤ uint32Max

/-- Three numbers with dots between them. -/
def dotted (a b c : List UInt8) : List UInt8 := a ++ 0x2e :: (b ++ 0x2e :: c)

/-- The grammar of a version: three numbers, and `-rc.` and a positive number or nothing. -/
def VersionText (text : List UInt8) : Prop :=
  ∃ a b c, VersionNumber a ∧ VersionNumber b ∧ VersionNumber c ∧
    (text = dotted a b c ∨
      ∃ r, VersionNumber r ∧ r ≠ [0x30] ∧ text = dotted a b c ++ (rcMark ++ r))

/-- A version as it is written. -/
def printVersion (v : PmOtaVersion) : List UInt8 :=
  dotted (printUnsigned v.major) (printUnsigned v.minor) (printUnsigned v.patch) ++
    if v.isReleaseCandidate then rcMark ++ printUnsigned v.releaseCandidate else []

/-- The precedence of a version: its numbers in order, a release above its candidates. -/
def precedence (v : PmOtaVersion) : ℕ ×ₗ ℕ ×ₗ ℕ ×ₗ WithTop ℕ :=
  toLex (v.major, toLex (v.minor, toLex (v.patch,
    if v.isReleaseCandidate then (v.releaseCandidate : WithTop ℕ) else ⊤)))

/-- The texts that parse. -/
abbrev ParsedVersion := { text : List UInt8 // (parseVersion text).isSome = true }

/-- The gate lets an image of the second version over one of the first. -/
def Upgrades (current candidate : List UInt8) : Prop :=
  pmOtaVersionRequireUpgrade current candidate = .ok

/-! ## Numbers -/

/-- The text does not go on with a digit. -/
def EndsNumber (rest : List UInt8) : Prop := isdigit (rest.headD 0) = false

section Numbers

theorem endsNumber_nil : EndsNumber [] := rfl

theorem le_foldl_digits (digits : List UInt8) (p : ℕ) :
    p ≤ digits.foldl (fun v c => 10 * v + digitValue c) p := by
  induction digits generalizing p with
  | nil => exact le_rfl
  | cons c cs ih =>
    have := ih (10 * p + digitValue c)
    simp only [List.foldl_cons]
    omega

/-- The loop reads the whole run of digits, unless the number leaves 32 bits. -/
theorem parseDigits_eq {p : ℕ} (hp : p ≤ uint32Max) (text : List UInt8) :
    parseDigits p text =
      if (text.takeWhile isdigit).foldl (fun v c => 10 * v + digitValue c) p ≤ uint32Max then
        some ((text.takeWhile isdigit).foldl (fun v c => 10 * v + digitValue c) p,
          text.dropWhile isdigit)
      else none := by
  induction text generalizing p with
  | nil => simp [parseDigits, hp]
  | cons c rest ih =>
    unfold parseDigits
    by_cases hc : isdigit c = true
    · have hlt := digitValue_lt hc
      have hmax : uint32Max = 4294967295 := rfl
      simp only [hc, if_true, List.takeWhile_cons_of_pos, List.dropWhile_cons_of_pos,
        List.foldl_cons]
      have hcomm : p * 10 + digitValue c = 10 * p + digitValue c := by omega
      split
      next hover =>
        -- a number too large at this digit stays so
        have hle := le_foldl_digits (rest.takeWhile isdigit) (10 * p + digitValue c)
        rw [if_neg (by omega)]
      next hfit =>
        rw [hcomm]
        exact ih (by omega)
    · simp [hc, hp]

theorem takeWhile_append_of_ends {t rest : List UInt8} (ht : ∀ c ∈ t, isdigit c = true)
    (hr : EndsNumber rest) :
    (t ++ rest).takeWhile isdigit = t ∧ (t ++ rest).dropWhile isdigit = rest := by
  have hrest : rest.takeWhile isdigit = [] ∧ rest.dropWhile isdigit = rest := by
    cases rest with
    | nil => exact ⟨rfl, rfl⟩
    | cons c cs =>
      have hc : isdigit c = false := hr
      simp [hc]
  rw [List.takeWhile_append_of_pos ht, List.dropWhile_append_of_pos ht, hrest.1, hrest.2]
  exact ⟨List.append_nil t, rfl⟩

theorem endsNumber_dropWhile (text : List UInt8) : EndsNumber (text.dropWhile isdigit) := by
  induction text with
  | nil => exact endsNumber_nil
  | cons c rest ih =>
    by_cases hc : isdigit c = true
    · rw [List.dropWhile_cons_of_pos hc]
      exact ih
    · rw [List.dropWhile_cons_of_neg hc]
      simpa [EndsNumber] using hc

/-- **`parse_number` reads a number of a version**, and leaves the text after it. -/
theorem parseNumber_eq_some_iff {text rest : List UInt8} {n : ℕ} :
    parseNumber text = some (n, rest) ↔
      ∃ t, VersionNumber t ∧ text = t ++ rest ∧ n = decimal t ∧ EndsNumber rest := by
  constructor
  · intro h
    unfold parseNumber at h
    split at h
    · cases h
    next c cs =>
    split at h
    · cases h
    next hc =>
    split at h
    · cases h
    next hzero =>
    rw [parseDigits_eq (Nat.zero_le _)] at h
    split at h
    next hfits =>
      simp only [Option.some.injEq, Prod.mk.injEq] at h
      obtain ⟨rfl, rfl⟩ := h
      have hdigit : isdigit c = true := by simpa using hc
      refine ⟨(c :: cs).takeWhile isdigit, ⟨⟨?_, ?_, ?_⟩, hfits⟩,
        List.takeWhile_append_dropWhile.symm, rfl, endsNumber_dropWhile _⟩
      · simp [hdigit]
      · exact fun d hd => List.mem_takeWhile_imp hd
      · rw [List.takeWhile_cons_of_pos hdigit]
        intro hhead
        obtain rfl : c = 0x30 := Option.some.inj hhead
        have hnext : isdigit (cs.headD 0) = false := by simpa using hzero
        cases cs with
        | nil => rfl
        | cons d ds =>
          have hd : isdigit d = false := hnext
          simp [hd]
    · cases h
  · rintro ⟨t, ⟨⟨hne, hdigits, hzero⟩, hfits⟩, rfl, rfl, hends⟩
    obtain ⟨c, cs, rfl⟩ := List.exists_cons_of_ne_nil hne
    have hdigit : isdigit c = true := hdigits c (by simp)
    obtain ⟨htake, hdrop⟩ := takeWhile_append_of_ends hdigits hends
    have hloop : parseDigits 0 (c :: cs ++ rest) = some (decimal (c :: cs), rest) := by
      rw [parseDigits_eq (Nat.zero_le _), htake, hdrop]
      exact if_pos hfits
    have hstart : (c == 0x30 && isdigit ((cs ++ rest).headD 0)) = false := by
      by_cases hc : c = 0x30
      · have hcs : cs = [] := by simpa [hc] using hzero (by rw [hc]; rfl)
        simp only [hc, hcs, List.nil_append, Bool.and_eq_false_imp]
        exact fun _ => hends
      · simp [hc]
    unfold parseNumber
    simp only [List.cons_append, hdigit, hstart]
    exact hloop

end Numbers

/-! ## Versions -/

section Versions

theorem scanChar_eq_some_iff {c : UInt8} {text rest : List UInt8} :
    scanChar c text = some rest ↔ text = c :: rest := by
  cases text with
  | nil => simp [scanChar]
  | cons d ds =>
    by_cases h : c = d
    · simp [scanChar, h]
    · simp [scanChar, h, Ne.symm h]

theorem endsNumber_cons {c : UInt8} (h : isdigit c = false) (rest : List UInt8) :
    EndsNumber (c :: rest) := h

/-- **What `parse_version` accepts**, and with which version. -/
theorem parseVersion_iff {text : List UInt8} {v : PmOtaVersion} : parseVersion text = some v ↔
    ∃ a b c, VersionNumber a ∧ VersionNumber b ∧ VersionNumber c ∧
      ((text = dotted a b c ∧ v = ⟨decimal a, decimal b, decimal c, 0, false⟩) ∨
        ∃ r, VersionNumber r ∧ decimal r ≠ 0 ∧ text = dotted a b c ++ (rcMark ++ r) ∧
          v = ⟨decimal a, decimal b, decimal c, decimal r, true⟩) := by
  constructor
  · intro h
    obtain ⟨⟨major, r₁⟩, h₁, h⟩ := Option.bind_eq_some_iff.1 h
    obtain ⟨r₂, h₂, h⟩ := Option.bind_eq_some_iff.1 h
    obtain ⟨⟨minor, r₃⟩, h₃, h⟩ := Option.bind_eq_some_iff.1 h
    obtain ⟨r₄, h₄, h⟩ := Option.bind_eq_some_iff.1 h
    obtain ⟨⟨patch, r₅⟩, h₅, h⟩ := Option.bind_eq_some_iff.1 h
    obtain ⟨a, ha, rfl, rfl, -⟩ := parseNumber_eq_some_iff.1 h₁
    obtain rfl := scanChar_eq_some_iff.1 h₂
    obtain ⟨b, hb, rfl, rfl, -⟩ := parseNumber_eq_some_iff.1 h₃
    obtain rfl := scanChar_eq_some_iff.1 h₄
    obtain ⟨c, hc, rfl, rfl, -⟩ := parseNumber_eq_some_iff.1 h₅
    refine ⟨a, b, c, ha, hb, hc, ?_⟩
    dsimp only at h
    split at h
    next hnil =>
      refine .inl ⟨by simp [dotted, hnil], (Option.some.inj h).symm⟩
    next =>
    split at h
    · cases h
    next hmark =>
    obtain ⟨⟨candidate, r₆⟩, h₆, h⟩ := Option.bind_eq_some_iff.1 h
    obtain ⟨r, hr, hdrop, rfl, -⟩ := parseNumber_eq_some_iff.1 h₆
    dsimp only at h
    split at h
    · cases h
    next hend =>
    simp only [ne_eq, not_or, not_not] at hmark hend
    refine .inr ⟨r, hr, hend.1, ?_, (Option.some.inj h).symm⟩
    rw [← List.take_append_drop 4 r₅, hmark, hdrop, hend.2]
    simp [dotted]
  · rintro ⟨a, b, c, ha, hb, hc, hcases⟩
    have hdot : ∀ rest, EndsNumber (0x2e :: rest) := endsNumber_cons (by decide)
    -- the three numbers are read alike, whatever follows them
    have hthree : ∀ rest, EndsNumber rest → parseVersion (dotted a b c ++ rest) =
        if rest = [] then some ⟨decimal a, decimal b, decimal c, 0, false⟩
        else if rest.take 4 ≠ rcMark then none
        else (parseNumber (rest.drop 4)).bind fun p =>
          if p.1 = 0 ∨ p.2 ≠ [] then none
          else some ⟨decimal a, decimal b, decimal c, p.1, true⟩ := by
      intro rest hrest
      have h₁ : parseNumber (dotted a b c ++ rest) =
          some (decimal a, 0x2e :: (b ++ 0x2e :: (c ++ rest))) :=
        parseNumber_eq_some_iff.2 ⟨a, ha, by simp [dotted], rfl, hdot _⟩
      have h₂ : parseNumber (b ++ 0x2e :: (c ++ rest)) = some (decimal b, 0x2e :: (c ++ rest)) :=
        parseNumber_eq_some_iff.2 ⟨b, hb, rfl, rfl, hdot _⟩
      have h₃ : parseNumber (c ++ rest) = some (decimal c, rest) :=
        parseNumber_eq_some_iff.2 ⟨c, hc, rfl, rfl, hrest⟩
      simp only [parseVersion, h₁, h₂, h₃, scanChar, Option.bind_eq_bind, Option.bind_some, if_true]
    rcases hcases with ⟨rfl, rfl⟩ | ⟨r, hr, hne, rfl, rfl⟩
    · have := hthree [] endsNumber_nil
      rwa [List.append_nil, if_pos rfl] at this
    · have hnum : parseNumber r = some (decimal r, []) :=
        parseNumber_eq_some_iff.2 ⟨r, hr, by simp, rfl, endsNumber_nil⟩
      rw [hthree (rcMark ++ r) (endsNumber_cons (c := 0x2d) (by decide) _), if_neg (by simp [rcMark]),
        if_neg (by simp [rcMark])]
      simp [rcMark, hnum, hne]

theorem decimal_eq_zero_iff {t : List UInt8} (h : IsNumeral t) : decimal t = 0 ↔ t = [0x30] := by
  constructor
  · intro hz
    have hprint := printUnsigned_decimal h
    rw [hz] at hprint
    exact hprint.symm
  · rintro rfl
    rfl

/-- The parser accepts the grammar. -/
theorem parseVersion_isSome_iff {text : List UInt8} :
    (parseVersion text).isSome = true ↔ VersionText text := by
  rw [Option.isSome_iff_exists]
  constructor
  · rintro ⟨v, hv⟩
    obtain ⟨a, b, c, ha, hb, hc, ⟨ht, -⟩ | ⟨r, hr, hne, ht, -⟩⟩ := parseVersion_iff.1 hv
    · exact ⟨a, b, c, ha, hb, hc, .inl ht⟩
    · exact ⟨a, b, c, ha, hb, hc, .inr ⟨r, hr, mt (decimal_eq_zero_iff hr.numeral).2 hne, ht⟩⟩
  · rintro ⟨a, b, c, ha, hb, hc, ht | ⟨r, hr, hne, ht⟩⟩
    · exact ⟨_, parseVersion_iff.2 ⟨a, b, c, ha, hb, hc, .inl ⟨ht, rfl⟩⟩⟩
    · exact ⟨_, parseVersion_iff.2 ⟨a, b, c, ha, hb, hc,
        .inr ⟨r, hr, mt (decimal_eq_zero_iff hr.numeral).1 hne, ht, rfl⟩⟩⟩

/-- **An accepted text is what its version prints.** -/
theorem printVersion_of_parse {text : List UInt8} {v : PmOtaVersion}
    (h : parseVersion text = some v) : printVersion v = text := by
  obtain ⟨a, b, c, ha, hb, hc, ⟨rfl, rfl⟩ | ⟨r, hr, -, rfl, rfl⟩⟩ := parseVersion_iff.1 h
  · simp [printVersion, printUnsigned_decimal ha.numeral, printUnsigned_decimal hb.numeral,
      printUnsigned_decimal hc.numeral]
  · simp [printVersion, printUnsigned_decimal ha.numeral, printUnsigned_decimal hb.numeral,
      printUnsigned_decimal hc.numeral, printUnsigned_decimal hr.numeral]

theorem releaseCandidate_of_parse {text : List UInt8} {v : PmOtaVersion}
    (h : parseVersion text = some v) : v.isReleaseCandidate = false → v.releaseCandidate = 0 := by
  obtain ⟨a, b, c, -, -, -, ⟨-, rfl⟩ | ⟨r, -, -, -, rfl⟩⟩ := parseVersion_iff.1 h
  · exact fun _ => rfl
  · exact nofun

end Versions

/-! ## The order -/

section Order

/-- One number of the comparison decides it, or leaves it to the rest. -/
theorem compare_number_pos_iff {a b : ℕ} {rest : ℤ} :
    (0 < if a ≠ b then (if b < a then 1 else -1) else rest) ↔ b < a ∨ b = a ∧ 0 < rest := by
  split_ifs with hne hlt
  · simp [hlt]
  · constructor
    · intro h
      omega
    · rintro (h | ⟨h, -⟩)
      · exact absurd h hlt
      · exact absurd h.symm hne
  · have hab : a = b := not_not.1 hne
    simp [hab]

/-- **`compare_versions` compares the precedences.** -/
theorem compareVersions_pos_iff {u v : PmOtaVersion} :
    0 < compareVersions v u ↔ precedence u < precedence v := by
  unfold precedence compareVersions
  simp only [Prod.Lex.toLex_lt_toLex, compare_number_pos_iff]
  -- the candidate numbers are left
  have hlast : (0 < if v.isReleaseCandidate ≠ u.isReleaseCandidate then
        (if v.isReleaseCandidate then -1 else 1)
      else if !v.isReleaseCandidate || v.releaseCandidate = u.releaseCandidate then 0
      else (if u.releaseCandidate < v.releaseCandidate then 1 else (-1 : ℤ))) ↔
      (if u.isReleaseCandidate then (u.releaseCandidate : WithTop ℕ) else ⊤) <
        (if v.isReleaseCandidate then (v.releaseCandidate : WithTop ℕ) else ⊤) := by
    cases hu : u.isReleaseCandidate <;> cases hv : v.isReleaseCandidate
    · simp
    · simp
    · simp
    · by_cases heq : v.releaseCandidate = u.releaseCandidate
      · simp [heq]
      · by_cases hlt : u.releaseCandidate < v.releaseCandidate
        · simp [heq, hlt]
        · simp [heq, hlt]
  rw [hlast]

/-- Parsed versions of the same precedence are the same version. -/
theorem eq_of_precedence_eq {s t : List UInt8} {u v : PmOtaVersion} (hs : parseVersion s = some u)
    (ht : parseVersion t = some v) (h : precedence u = precedence v) : u = v := by
  have hu := releaseCandidate_of_parse hs
  have hv := releaseCandidate_of_parse ht
  simp only [precedence, EmbeddingLike.apply_eq_iff_eq, Prod.mk.injEq] at h
  obtain ⟨h₁, h₂, h₃, h₄⟩ := h
  obtain ⟨major, minor, patch, n, rc⟩ := u
  obtain ⟨major', minor', patch', n', rc'⟩ := v
  dsimp only at h₁ h₂ h₃ h₄ hu hv
  subst h₁ h₂ h₃
  cases rc <;> cases rc'
  · rw [hu rfl, hv rfl]
  · simp at h₄
  · simp at h₄
  · obtain rfl : n = n' := by simpa using h₄
    rfl

/-- The gate, on any two texts. -/
theorem upgrades_iff {current candidate : List UInt8} : Upgrades current candidate ↔
    ∃ u v, parseVersion current = some u ∧ parseVersion candidate = some v ∧
      precedence u < precedence v := by
  unfold Upgrades pmOtaVersionRequireUpgrade
  split
  next u v hu hv =>
    simp only [hu, hv, Option.some.injEq, exists_and_left, exists_eq_left']
    rw [← compareVersions_pos_iff]
    split
    next h => exact ⟨fun _ => h, fun _ => rfl⟩
    next h => exact ⟨(fun hne => by cases hne), fun h' => absurd h' h⟩
  next hno =>
    refine ⟨(fun h => by cases h), ?_⟩
    rintro ⟨u, v, hu, hv, -⟩
    exact absurd hv (hno u v hu)

theorem upgrades_trans {r s t : List UInt8} (h₁ : Upgrades r s) (h₂ : Upgrades s t) :
    Upgrades r t := by
  obtain ⟨u, v, hu, hv, huv⟩ := upgrades_iff.1 h₁
  obtain ⟨v', w, hv', hw, hvw⟩ := upgrades_iff.1 h₂
  obtain rfl := Option.some.inj (hv.symm.trans hv')
  exact upgrades_iff.2 ⟨u, w, hu, hw, huv.trans hvw⟩

theorem upgrades_irrefl (s : List UInt8) : ¬Upgrades s s := by
  intro h
  obtain ⟨u, v, hu, hv, huv⟩ := upgrades_iff.1 h
  obtain rfl := Option.some.inj (hu.symm.trans hv)
  exact lt_irrefl _ huv

/-- Of two parsed versions that differ, one upgrades the other. -/
theorem upgrades_total {s t : ParsedVersion} (h₁ : ¬Upgrades s.1 t.1) (h₂ : ¬Upgrades t.1 s.1) :
    s = t := by
  obtain ⟨s, hs⟩ := s
  obtain ⟨t, ht⟩ := t
  obtain ⟨u, hu⟩ := Option.isSome_iff_exists.1 hs
  obtain ⟨v, hv⟩ := Option.isSome_iff_exists.1 ht
  have huv : precedence u = precedence v := by
    apply le_antisymm
    · exact not_lt.1 fun h => h₂ (upgrades_iff.2 ⟨v, u, hv, hu, h⟩)
    · exact not_lt.1 fun h => h₁ (upgrades_iff.2 ⟨u, v, hu, hv, h⟩)
  have hsame := eq_of_precedence_eq hu hv huv
  rw [Subtype.mk.injEq, ← printVersion_of_parse hu, ← printVersion_of_parse hv, hsame]

/-- A chain of upgrades is an upgrade. -/
theorem upgrades_of_chain {s t : List UInt8} (h : Relation.TransGen Upgrades s t) :
    Upgrades s t := by
  induction h with
  | single h => exact h
  | tail _ h ih => exact upgrades_trans ih h

end Order

/-- **The version gate.** The parser accepts the grammar of versions and reads what a version
prints; the gate refuses as invalid what does not parse, and otherwise accepts the strictly higher
precedence; so it is a strict total order on the texts that parse, and no chain of accepted upgrades
returns. -/
theorem version_gate :
    (∀ text, (parseVersion text).isSome = true ↔ VersionText text) ∧
    (∀ text v, parseVersion text = some v → printVersion v = text) ∧
    (∀ current candidate, pmOtaVersionRequireUpgrade current candidate = .invalidArg ↔
      ¬(VersionText current ∧ VersionText candidate)) ∧
    (∀ current candidate, Upgrades current candidate ↔
      ∃ u v, parseVersion current = some u ∧ parseVersion candidate = some v ∧
        precedence u < precedence v) ∧
    IsStrictTotalOrder ParsedVersion (fun s t => Upgrades s.1 t.1) ∧
    ∀ text, ¬Relation.TransGen Upgrades text text := by
  refine ⟨fun text => parseVersion_isSome_iff, fun text v => printVersion_of_parse, ?_,
    fun _ _ => upgrades_iff, ?_, fun text h => upgrades_irrefl text (upgrades_of_chain h)⟩
  · intro current candidate
    rw [← parseVersion_isSome_iff, ← parseVersion_isSome_iff]
    unfold pmOtaVersionRequireUpgrade
    split
    next u v hu hv =>
      simp only [hu, hv, Option.isSome_some, and_self, not_true_eq_false, iff_false]
      split <;> decide
    next hno =>
      refine ⟨fun _ h => ?_, fun _ => rfl⟩
      obtain ⟨u, hu⟩ := Option.isSome_iff_exists.1 h.1
      obtain ⟨v, hv⟩ := Option.isSome_iff_exists.1 h.2
      exact hno u v hu hv
  · exact
      { trichotomous := fun s t h₁ h₂ => upgrades_total h₁ h₂
        irrefl := fun s => upgrades_irrefl s.1
        trans := fun _ _ _ => upgrades_trans }

end PowerMonitor.Ota
