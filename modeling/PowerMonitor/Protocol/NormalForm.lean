import PowerMonitor.Protocol.QueryParts

/-!
# The normal form of a query

* `pmCanonicalQuery_eq` is `pm_canonical_query` in closed form: the checks, and then the sorted
  parts.
* Queries with the same parts up to order and the case of escapes have the same result
  (`pmCanonicalQuery_congr`). The output has the parts of its query, so it is its own normal form.
* `QueryWellFormed` is the grammar of a query, position by position; the checks on the parts come to
  it because an `&` is no digit (`valid_append_ampersand`).
-/

namespace PowerMonitor.Protocol

open CMemory CJson CText

/-! ## The normal form -/

/-- The parts of a query in normal form: escapes in upper case, sorted. -/
def sortedParts (query : List UInt8) : List (List UInt8) :=
  ((queryParts query).map upperEscapes).mergeSort compareStrings

/-- The normal form of a query. -/
def normalQuery (query : List UInt8) : List UInt8 := [0x26].intercalate (sortedParts query)

section Normal

variable {query : List UInt8}

theorem queryParts_ne_nil (query : List UInt8) : queryParts query ≠ [] := by
  simp [queryParts, List.splitOn_ne_nil]

theorem sortedParts_perm (query : List UInt8) :
    (sortedParts query).Perm ((queryParts query).map upperEscapes) := List.mergeSort_perm ..

theorem sortedParts_ne_nil (query : List UInt8) : sortedParts query ≠ [] := by
  intro h
  have hperm := sortedParts_perm query
  rw [h] at hperm
  exact queryParts_ne_nil query (by simpa using hperm.symm.eq_nil)

theorem sortedParts_pairwise (query : List UInt8) : (sortedParts query).Pairwise (· ≤ ·) := by
  have hsorted := @List.pairwise_mergeSort _ compareStrings
    (fun a b c hab hbc => by
      simp only [compareStrings, decide_eq_true_eq] at hab hbc ⊢
      exact List.le_trans hab hbc)
    (fun a b => by
      simp only [compareStrings, Bool.or_eq_true, decide_eq_true_eq]
      exact List.le_total a b)
    ((queryParts query).map upperEscapes)
  exact hsorted.imp fun h => of_decide_eq_true h

/-- Sorting forgets the order. -/
theorem sorted_eq_of_perm {l l' : List (List UInt8)} (h : l.Pairwise (· ≤ ·))
    (h' : l'.Pairwise (· ≤ ·)) (hperm : l.Perm l') : l = l' :=
  hperm.eq_of_pairwise (fun _ _ _ _ hab hba => List.le_antisymm hab hba) h h'

theorem length_normalQuery (query : List UInt8) : (normalQuery query).length = query.length := by
  have hnormal := length_intercalate 0x26 (sortedParts_ne_nil query)
  have hquery := length_intercalate 0x26 (queryParts_ne_nil query)
  rw [List.intercalate_splitOn] at hquery
  have hsum : ((sortedParts query).map List.length).sum =
      ((queryParts query).map List.length).sum := by
    rw [((sortedParts_perm query).map List.length).sum_eq, List.map_map]
    congr 1
    exact List.map_congr_left fun part _ => length_upperEscapes part
  have hlen : (sortedParts query).length = (queryParts query).length := by
    rw [(sortedParts_perm query).length_eq, List.length_map]
  unfold normalQuery
  omega

/-- **`pm_canonical_query` in closed form.** -/
theorem pmCanonicalQuery_eq (query : List UInt8) : pmCanonicalQuery (some query) canonicalQueryMax =
    if query = [] then (.ok, [])
    else if canonicalQueryMax ≤ query.length ∨ 32 < (queryParts query).length then (.invalidSize, [])
    else if (queryParts query).any fun part => part = [] || !validEncodedComponent part then
      (.invalidArg, [])
    else (.ok, normalQuery query) := by
  cases query with
  | nil => rfl
  | cons c cs =>
    rw [if_neg (by simp)]
    simp only [pmCanonicalQuery]
    by_cases hlong : canonicalQueryMax ≤ (c :: cs).length
    · rw [if_pos (.inl hlong), if_pos (.inl hlong)]
    have hroom : ¬canonicalQueryMax < (c :: cs).length + 1 := by omega
    by_cases hmany : 32 < ((c :: cs).splitOn 0x26).length
    · simp only [hlong, hroom, hmany, or_self, or_true, if_true, if_false]
    simp only [hlong, hroom, hmany, or_self, if_false]
    have hjoin := joinInto_eq (sortedParts_ne_nil (c :: cs))
      (show (normalQuery (c :: cs)).length + 1 ≤ canonicalQueryMax by
        rw [length_normalQuery]
        omega)
    unfold sortedParts at hjoin
    rw [hjoin]
    rfl

/-! ## Queries that mean the same -/

/-- Two parts that differ at most in the letter case of the digits of escapes. -/
inductive EscapeCase : List UInt8 → List UInt8 → Prop
  | nil : EscapeCase [] []
  | cons (c : UInt8) {p p' : List UInt8} : EscapeCase p p' → EscapeCase (c :: p) (c :: p')
  | escape {a a' b b' : UInt8} {p p' : List UInt8} : toupper a = toupper a' →
      toupper b = toupper b' → EscapeCase p p' →
      EscapeCase (0x25 :: a :: b :: p) (0x25 :: a' :: b' :: p')

/-- Two queries that differ at most in the order of their parts and the case of escapes. -/
def SameQuery (query query' : List UInt8) : Prop :=
  ∃ parts, List.Forall₂ EscapeCase (queryParts query) parts ∧ parts.Perm (queryParts query')

theorem isxdigit_eq_of_toupper {a a' : UInt8} (h : toupper a = toupper a') :
    isxdigit a = isxdigit a' := by
  rw [← isxdigit_toupper a, h, isxdigit_toupper]

theorem escapeCase_upperEscapes (part : List UInt8) : EscapeCase part (upperEscapes part) := by
  induction part using upperEscapes.induct with
  | case1 => exact .nil
  | case2 a b rest ih => exact .escape (toupper_toupper a).symm (toupper_toupper b).symm ih
  | case3 c rest h ih =>
    rw [upperEscapes.eq_3 _ _ h]
    exact .cons c ih

namespace EscapeCase

variable {p p' : List UInt8}

theorem length_eq (h : EscapeCase p p') : p.length = p'.length := by
  induction h with
  | nil => rfl
  | cons c _ ih => rw [List.length_cons, List.length_cons, ih]
  | escape _ _ _ ih => simp only [List.length_cons, ih]

theorem eq_nil_iff (h : EscapeCase p p') : p = [] ↔ p' = [] := by
  rw [← List.length_eq_zero_iff, ← List.length_eq_zero_iff, h.length_eq]

theorem toupper_getD (h : EscapeCase p p') (i : ℕ) :
    toupper (p.getD i 0) = toupper (p'.getD i 0) := by
  induction h generalizing i with
  | nil => rfl
  | cons c _ ih =>
    cases i with
    | zero => rfl
    | succ i => exact ih i
  | escape ha hb _ ih =>
    match i with
    | 0 => rfl
    | 1 => exact ha
    | 2 => exact hb
    | i + 3 => exact ih i

theorem valid_eq (h : EscapeCase p p') : validEncodedComponent p = validEncodedComponent p' := by
  induction h with
  | nil => rfl
  | cons c htail ih =>
    unfold validEncodedComponent
    rw [ih, isxdigit_eq_of_toupper (htail.toupper_getD 0),
      isxdigit_eq_of_toupper (htail.toupper_getD 1)]
  | escape ha hb _ ih =>
    rw [valid_escape, valid_escape, isxdigit_eq_of_toupper ha, isxdigit_eq_of_toupper hb, ih]

/-- Valid parts that differ in the case of escapes are the same in upper case. -/
theorem upperEscapes_eq (h : EscapeCase p p') (hvalid : validEncodedComponent p = true) :
    upperEscapes p = upperEscapes p' := by
  induction h with
  | nil => rfl
  | @cons c p p' htail ih =>
    by_cases hc : c = 0x25
    · subst hc
      match p, p', htail.length_eq with
      | [], _, _ => simp [valid_cut] at hvalid
      | [a], _, _ => simp [valid_cut] at hvalid
      | a :: b :: rest, a' :: b' :: rest', _ =>
        rw [valid_escape, Bool.and_eq_true, Bool.and_eq_true] at hvalid
        obtain ⟨⟨ha, hb⟩, hrest⟩ := hvalid
        -- two digits follow, which start no escape of their own
        obtain ⟨ha₁, ha₂⟩ := plain_of_isxdigit a ha
        obtain ⟨hb₁, hb₂⟩ := plain_of_isxdigit b hb
        have ha' := isxdigit_eq_of_toupper (htail.toupper_getD 0)
        have hb' := isxdigit_eq_of_toupper (htail.toupper_getD 1)
        obtain ⟨ha₁', -⟩ := plain_of_isxdigit a' (ha'.symm.trans ha)
        obtain ⟨hb₁', -⟩ := plain_of_isxdigit b' (hb'.symm.trans hb)
        have heq := ih (by simp [valid_cons ha₁, valid_cons hb₁, ha₂, hb₂, hrest])
        rw [upperEscapes_cons ha₁, upperEscapes_cons hb₁, upperEscapes_cons ha₁',
          upperEscapes_cons hb₁'] at heq
        simp only [List.cons.injEq] at heq
        obtain ⟨rfl, rfl, hrests⟩ := heq
        rw [upperEscapes_escape, upperEscapes_escape, hrests]
    · rw [valid_cons hc, Bool.and_eq_true] at hvalid
      rw [upperEscapes_cons hc, upperEscapes_cons hc, ih hvalid.2]
  | escape ha hb _ ih =>
    rw [valid_escape, Bool.and_eq_true] at hvalid
    rw [upperEscapes_escape, upperEscapes_escape, ha, hb, ih hvalid.2]

end EscapeCase

/-! ## The result depends on the meaning -/

/-- Parts that are refused. -/
abbrev refused (part : List UInt8) : Bool := part = [] || !validEncodedComponent part

theorem EscapeCase.refused_eq {p p' : List UInt8} (h : EscapeCase p p') :
    refused p = refused p' := by
  simp only [refused, h.eq_nil_iff, h.valid_eq]

theorem length_of_forall₂ {parts parts' : List (List UInt8)}
    (h : List.Forall₂ EscapeCase parts parts') :
    parts.map List.length = parts'.map List.length := by
  induction h with
  | nil => rfl
  | cons hpart _ ih => rw [List.map_cons, List.map_cons, hpart.length_eq, ih]

theorem refused_of_forall₂ {parts parts' : List (List UInt8)}
    (h : List.Forall₂ EscapeCase parts parts') : parts.any refused = parts'.any refused := by
  induction h with
  | nil => rfl
  | cons hpart _ ih => rw [List.any_cons, List.any_cons, hpart.refused_eq, ih]

theorem upper_of_forall₂ {parts parts' : List (List UInt8)}
    (h : List.Forall₂ EscapeCase parts parts') (hvalid : parts.any refused = false) :
    parts.map upperEscapes = parts'.map upperEscapes := by
  induction h with
  | nil => rfl
  | cons hpart _ ih =>
    rw [List.any_cons, Bool.or_eq_false_iff] at hvalid
    have hthis := (Bool.or_eq_false_iff.1 hvalid.1).2
    rw [List.map_cons, List.map_cons, hpart.upperEscapes_eq (by simpa using hthis), ih hvalid.2]

theorem length_queryParts (query : List UInt8) :
    query.length + 1 = ((queryParts query).map List.length).sum + (queryParts query).length := by
  have hjoin := length_intercalate 0x26 (queryParts_ne_nil query)
  rwa [List.intercalate_splitOn] at hjoin

theorem normalQuery_eq_of_perm {query' : List UInt8}
    (h : ((queryParts query).map upperEscapes).Perm ((queryParts query').map upperEscapes)) :
    normalQuery query = normalQuery query' := by
  unfold normalQuery
  congr 1
  refine sorted_eq_of_perm (sortedParts_pairwise query) (sortedParts_pairwise query') ?_
  exact (sortedParts_perm query).trans (h.trans (sortedParts_perm query').symm)

/-- **The order of the parts and the case of escapes do not matter.** -/
theorem pmCanonicalQuery_congr {query' : List UInt8} (h : SameQuery query query') :
    pmCanonicalQuery (some query) canonicalQueryMax =
      pmCanonicalQuery (some query') canonicalQueryMax := by
  obtain ⟨parts, hcase, hperm⟩ := h
  have hcount : (queryParts query).length = (queryParts query').length :=
    hcase.length_eq.trans hperm.length_eq
  have hlen : query.length = query'.length := by
    have hquery := length_queryParts query
    have hquery' := length_queryParts query'
    rw [length_of_forall₂ hcase, (hperm.map List.length).sum_eq] at hquery
    omega
  have hempty : query = [] ↔ query' = [] := by
    rw [← List.length_eq_zero_iff, ← List.length_eq_zero_iff, hlen]
  have hrefused : (queryParts query).any refused = (queryParts query').any refused :=
    (refused_of_forall₂ hcase).trans hperm.any_eq
  rw [pmCanonicalQuery_eq, pmCanonicalQuery_eq, hlen, hcount]
  simp only [hempty]
  rw [hrefused]
  by_cases hvalid : (queryParts query').any refused = true
  · rw [if_pos hvalid, if_pos hvalid]
  · have hupper := upper_of_forall₂ hcase (hrefused.trans (by simpa using hvalid))
    rw [normalQuery_eq_of_perm (hupper ▸ hperm.map upperEscapes)]

theorem queryParts_normalQuery (query : List UInt8) :
    queryParts (normalQuery query) = sortedParts query := by
  have hfree : ∀ part ∈ sortedParts query, 0x26 ∉ part := by
    intro part hpart
    obtain ⟨p, hp, rfl⟩ := List.mem_map.1 ((sortedParts_perm query).mem_iff.1 hpart)
    rw [ampersand_mem_upperEscapes]
    exact not_mem_of_mem_splitOn hp
  exact List.splitOn_intercalate 0x26 hfree (sortedParts_ne_nil query)

/-- The normal form means the same as its query. -/
theorem sameQuery_normalQuery (query : List UInt8) : SameQuery query (normalQuery query) := by
  refine ⟨(queryParts query).map upperEscapes, ?_, ?_⟩
  · rw [List.forall₂_map_right_iff]
    exact List.forall₂_same.2 fun part _ => escapeCase_upperEscapes part
  · rw [queryParts_normalQuery]
    exact (sortedParts_perm query).symm

end Normal

/-! ## The grammar -/

/-- A byte that may stand in a query. -/
def QueryByte (c : UInt8) : Prop := 0x20 < c ∧ c ≠ 0x7f ∧ c ≠ 0x23 ∧ c ≠ 0x2b

/-- The text starts with two hexadecimal digits. -/
def StartsWithDigits (text : List UInt8) : Prop :=
  ∃ a b rest, text = a :: b :: rest ∧ isxdigit a = true ∧ isxdigit b = true

/-- A query that is neither empty nor refused. -/
structure QueryWellFormed (query : List UInt8) : Prop where
  short : query.length < 384
  few : (queryParts query).length ≤ 32
  parts_ne_nil : [] ∉ queryParts query
  bytes : ∀ c ∈ query, QueryByte c
  /-- Two hexadecimal digits follow every `%`. -/
  escapes : ∀ before after, query = before ++ 0x25 :: after → StartsWithDigits after

section Grammar

theorem queryByte_iff (c : UInt8) :
    (!(c ≤ 0x20 || c == 0x7f || c == 0x23 || c == 0x2b)) = true ↔ QueryByte c := by
  simp [QueryByte, and_assoc]

theorem startsWithDigits_iff (text : List UInt8) :
    StartsWithDigits text ↔ isxdigit (text.getD 0 0) = true ∧ isxdigit (text.getD 1 0) = true := by
  have hzero : isxdigit 0 = false := by decide
  match text with
  | [] => simp [StartsWithDigits, hzero]
  | [a] => simp [StartsWithDigits, hzero]
  | a :: b :: rest => simp [StartsWithDigits]

/-- What `valid_encoded_component` checks, position by position. -/
theorem valid_iff (text : List UInt8) : validEncodedComponent text = true ↔
    (∀ c ∈ text, QueryByte c) ∧
      ∀ before after, text = before ++ 0x25 :: after → StartsWithDigits after := by
  induction text with
  | nil => simp [validEncodedComponent]
  | cons c rest ih =>
    have hescape : (!(c == 0x25 && (!isxdigit (rest.getD 0 0) || !isxdigit (rest.getD 1 0)))) = true ↔
        (c = 0x25 → StartsWithDigits rest) := by
      rw [startsWithDigits_iff]
      by_cases hc : c = 0x25 <;> simp [hc]
    have hafter : (∀ before after, c :: rest = before ++ 0x25 :: after → StartsWithDigits after) ↔
        (c = 0x25 → StartsWithDigits rest) ∧
          ∀ before after, rest = before ++ 0x25 :: after → StartsWithDigits after := by
      constructor
      · intro h
        refine ⟨fun hc => h [] rest (by rw [hc]; rfl), fun before after heq => ?_⟩
        exact h (c :: before) after (by rw [heq]; rfl)
      · rintro ⟨hfirst, hrest⟩ (_ | ⟨d, before⟩) after heq
        · obtain ⟨rfl, rfl⟩ := List.cons.inj heq
          exact hfirst rfl
        · exact hrest before after (List.cons.inj heq).2
    rw [validEncodedComponent, Bool.and_eq_true, Bool.and_eq_true, ih, hescape, queryByte_iff,
      List.forall_mem_cons, hafter]
    tauto

/-- An `&` ends what is checked together: it is no digit. -/
theorem valid_append_ampersand (part rest : List UInt8) :
    validEncodedComponent (part ++ 0x26 :: rest) =
      (validEncodedComponent part && validEncodedComponent rest) := by
  have hzero : isxdigit 0 = false := by decide
  have hampersand : isxdigit 0x26 = false := by decide
  induction part with
  | nil => simp [validEncodedComponent]
  | cons c part ih =>
    have hdigits : (isxdigit ((part ++ 0x26 :: rest).getD 0 0) &&
        isxdigit ((part ++ 0x26 :: rest).getD 1 0)) =
        (isxdigit (part.getD 0 0) && isxdigit (part.getD 1 0)) := by
      rcases part with _ | ⟨a, _ | ⟨b, part⟩⟩
      · simp [hzero, hampersand]
      · simp [hzero, hampersand]
      · rfl
    simp only [List.cons_append, validEncodedComponent, ih, ← Bool.not_and, hdigits, Bool.and_assoc]

theorem valid_intercalate {parts : List (List UInt8)} (h : parts ≠ []) :
    validEncodedComponent ([0x26].intercalate parts) = parts.all validEncodedComponent := by
  obtain ⟨part, parts, rfl⟩ := List.exists_cons_of_ne_nil h
  induction parts generalizing part with
  | nil => simp
  | cons next parts ih =>
    rw [List.intercalate_cons_cons, List.append_assoc, List.singleton_append,
      valid_append_ampersand, ih next (by simp), List.all_cons (a := part)]

/-- The checks on the parts are checks on the query. -/
theorem any_refused_eq_false_iff (query : List UInt8) : (queryParts query).any refused = false ↔
    [] ∉ queryParts query ∧ (∀ c ∈ query, QueryByte c) ∧
      ∀ before after, query = before ++ 0x25 :: after → StartsWithDigits after := by
  have hvalid := valid_intercalate (queryParts_ne_nil query)
  rw [List.intercalate_splitOn] at hvalid
  rw [← valid_iff, hvalid, List.all_eq_true]
  simp only [List.any_eq_false, refused, Bool.or_eq_true, decide_eq_true_eq, not_or,
    Bool.not_eq_true', Bool.not_eq_false]
  constructor
  · intro h
    exact ⟨fun hnil => (h [] hnil).1 rfl, fun part hpart => (h part hpart).2⟩
  · rintro ⟨hnil, hall⟩ part hpart
    exact ⟨fun heq => hnil (heq ▸ hpart), hall part hpart⟩

theorem queryWellFormed_iff (query : List UInt8) : QueryWellFormed query ↔
    ¬(canonicalQueryMax ≤ query.length ∨ 32 < (queryParts query).length) ∧
      (queryParts query).any refused = false := by
  rw [any_refused_eq_false_iff, not_or, not_le, not_lt]
  constructor
  · rintro ⟨hshort, hfew, hnil, hbytes, hescapes⟩
    exact ⟨⟨hshort, hfew⟩, hnil, hbytes, hescapes⟩
  · rintro ⟨⟨hshort, hfew⟩, hnil, hbytes, hescapes⟩
    exact ⟨hshort, hfew, hnil, hbytes, hescapes⟩

/-- The function is the normal form on well-formed queries and fails elsewhere. -/
theorem pmCanonicalQuery_cases (query : List UInt8) :
    (query = [] ∨ QueryWellFormed query) ∧
        pmCanonicalQuery (some query) canonicalQueryMax = (.ok, normalQuery query) ∨
      ¬(query = [] ∨ QueryWellFormed query) ∧ ∃ e ≠ EspErr.ok,
        pmCanonicalQuery (some query) canonicalQueryMax = (e, []) := by
  rw [pmCanonicalQuery_eq, queryWellFormed_iff]
  by_cases hnil : query = []
  · subst hnil
    have hempty : normalQuery [] = [] := List.length_eq_zero_iff.1 (length_normalQuery [])
    rw [if_pos rfl, hempty]
    exact .inl ⟨.inl rfl, rfl⟩
  by_cases hsize : canonicalQueryMax ≤ query.length ∨ 32 < (queryParts query).length
  · rw [if_neg hnil, if_pos hsize]
    exact .inr ⟨fun h => h.elim hnil fun h => h.1 hsize, .invalidSize, by decide, rfl⟩
  rw [if_neg hnil, if_neg hsize]
  by_cases hrefused : (queryParts query).any refused = true
  · rw [if_pos hrefused]
    refine .inr ⟨fun h => h.elim hnil fun h => ?_, .invalidArg, by decide, rfl⟩
    exact Bool.false_ne_true (h.2.symm.trans hrefused)
  · rw [if_neg hrefused]
    exact .inl ⟨.inr ⟨hsize, by simpa using hrefused⟩, rfl⟩

theorem pmCanonicalQuery_getD (query : Option (List UInt8)) (outputSize : ℕ) :
    pmCanonicalQuery query outputSize = pmCanonicalQuery (some (query.getD [])) outputSize := by
  cases query with
  | none => rfl
  | some query => rfl

/-- **The canonical query is a normal form.** `pm_canonical_query` succeeds on the queries of the
grammar and the empty one. It then writes the parts, with escapes in upper case, in the order of
their bytes; that text has the length of the query, is its own canonical query and the one of every
query with the same parts up to order and the case of escapes. Where it fails, it writes nothing. -/
theorem canonical_query_normal_form (query : Option (List UInt8)) :
    ((pmCanonicalQuery query canonicalQueryMax).1 = .ok ↔
      query.getD [] = [] ∨ QueryWellFormed (query.getD [])) ∧
    ((pmCanonicalQuery query canonicalQueryMax).1 = .ok →
      (∃ parts : List (List UInt8),
        parts.Perm ((queryParts (query.getD [])).map upperEscapes) ∧ parts.Pairwise (· ≤ ·) ∧
        (pmCanonicalQuery query canonicalQueryMax).2 = [0x26].intercalate parts) ∧
      (pmCanonicalQuery query canonicalQueryMax).2.length = (query.getD []).length ∧
      pmCanonicalQuery (some (pmCanonicalQuery query canonicalQueryMax).2) canonicalQueryMax =
        pmCanonicalQuery query canonicalQueryMax) ∧
    (∀ query', SameQuery (query.getD []) query' →
      pmCanonicalQuery (some query') canonicalQueryMax =
        pmCanonicalQuery query canonicalQueryMax) ∧
    ((pmCanonicalQuery query canonicalQueryMax).1 ≠ .ok →
      (pmCanonicalQuery query canonicalQueryMax).2 = []) := by
  have hsame : ∀ query', SameQuery (query.getD []) query' →
      pmCanonicalQuery (some query') canonicalQueryMax =
        pmCanonicalQuery query canonicalQueryMax := by
    intro query' h
    rw [pmCanonicalQuery_getD query, pmCanonicalQuery_congr h]
  have hnormal := hsame _ (sameQuery_normalQuery (query.getD []))
  obtain ⟨hformed, heq⟩ | ⟨hformed, e, he, heq⟩ := pmCanonicalQuery_cases (query.getD [])
  · rw [← pmCanonicalQuery_getD] at heq
    rw [heq] at hsame hnormal ⊢
    refine ⟨⟨fun _ => hformed, fun _ => rfl⟩, fun _ => ?_, hsame, fun h => absurd rfl h⟩
    refine ⟨⟨sortedParts (query.getD []), sortedParts_perm _, sortedParts_pairwise _, rfl⟩, ?_, ?_⟩
    · exact length_normalQuery _
    · exact hnormal
  · rw [← pmCanonicalQuery_getD] at heq
    rw [heq] at hsame ⊢
    exact ⟨⟨fun h => absurd h he, fun h => absurd h hformed⟩, fun h => absurd h he, hsame,
      fun _ => rfl⟩

end Grammar

end PowerMonitor.Protocol
