import Mathlib.Data.List.Induction
import Mathlib.Data.List.Sort

/-!
# The first records in order

A reader that meets records in no particular order keeps the ones of the least keys, one for each
key, in a list of bounded length. This module is that reader over an arbitrary record type `β` with
a key in a linear order.

* `place` puts a record where it belongs, and `least` is what it makes of all records: they ascend,
  and `mem_least` says that each is the first that was met with its key. `least_congr`: what is kept
  does not depend on the order in which the records are met.
* `offer` is the same in a list of at most `n` records, with a mark that something was left out, and
  `foldl_offer` says that it keeps the first `n` of all.
-/

namespace PowerMonitor.Least

variable {β κ : Type*} [LinearOrder κ] (key : β → κ)

/-- The records ascend. -/
def Ascending (l : List β) : Prop := l.Pairwise (key · < key ·)

/-- A record is put before the first with a greater key, unless one has its key. -/
def place (x : β) : List β → List β
  | [] => [x]
  | y :: l =>
    if key y < key x then y :: place x l else if key y = key x then y :: l else x :: y :: l

/-- All records, put in their places one after the other. -/
def least (xs : List β) : List β := xs.foldl (fun l x => place key x l) []

variable {key}

theorem mem_place {x y : β} {l : List β} (h : Ascending key l) :
    y ∈ place key x l ↔ y ∈ l ∨ y = x ∧ ∀ z ∈ l, key z ≠ key x := by
  induction l with
  | nil => simp [place]
  | cons z l ih =>
    obtain ⟨hz, hl⟩ := List.pairwise_cons.1 h
    unfold place
    split_ifs with hlt heq
    · rw [List.mem_cons, ih hl, List.mem_cons]
      simp only [List.mem_cons, forall_eq_or_imp, ne_eq, hlt.ne, not_false_eq_true, true_and, or_assoc]
    · simp only [List.mem_cons, forall_eq_or_imp, ne_eq, heq, not_true_eq_false, false_and, and_false,
        or_false]
    · have hgt : key x < key z := lt_of_le_of_ne (not_lt.1 hlt) (Ne.symm heq)
      have hall : ∀ w ∈ z :: l, key w ≠ key x := by
        rintro w (_ | ⟨_, hw⟩)
        · exact hgt.ne'
        · exact (hgt.trans (hz w hw)).ne'
      simp only [List.mem_cons] at hall ⊢
      constructor
      · rintro (rfl | hy)
        · exact .inr ⟨rfl, hall⟩
        · exact .inl hy
      · rintro (hy | ⟨rfl, -⟩)
        · exact .inr hy
        · exact .inl rfl

theorem Ascending.place {x : β} {l : List β} (h : Ascending key l) :
    Ascending key (Least.place key x l) := by
  induction l with
  | nil => exact List.pairwise_singleton _ _
  | cons z l ih =>
    obtain ⟨hz, hl⟩ := List.pairwise_cons.1 h
    unfold Least.place
    split_ifs with hlt heq
    · refine List.pairwise_cons.2 ⟨fun y hy => ?_, ih hl⟩
      rcases (mem_place hl).1 hy with hy | ⟨rfl, -⟩
      · exact hz y hy
      · exact hlt
    · exact h
    · have hgt : key x < key z := lt_of_le_of_ne (not_lt.1 hlt) (Ne.symm heq)
      refine List.pairwise_cons.2 ⟨fun y hy => ?_, h⟩
      rcases List.mem_cons.1 hy with rfl | hy
      · exact hgt
      · exact hgt.trans (hz y hy)

theorem ascending_foldl (xs : List β) {l : List β} (h : Ascending key l) :
    Ascending key (xs.foldl (fun l x => place key x l) l) := by
  induction xs generalizing l with
  | nil => exact h
  | cons x xs ih => exact ih h.place

theorem ascending_least (xs : List β) : Ascending key (least key xs) := ascending_foldl xs .nil

theorem least_append (xs : List β) (x : β) :
    least key (xs ++ [x]) = place key x (least key xs) := by
  rw [least, List.foldl_append]
  rfl

theorem key_mem_least {xs : List β} {k : κ} :
    (∃ z ∈ least key xs, key z = k) ↔ ∃ z ∈ xs, key z = k := by
  induction xs using List.reverseRecOn with
  | nil => rfl
  | append_singleton xs x ih =>
    rw [least_append]
    constructor
    · rintro ⟨z, hz, rfl⟩
      rcases (mem_place (ascending_least xs)).1 hz with hz | ⟨rfl, -⟩
      · obtain ⟨w, hw, hkey⟩ := ih.1 ⟨z, hz, rfl⟩
        exact ⟨w, List.mem_append_left _ hw, hkey⟩
      · exact ⟨z, List.mem_append_right _ List.mem_cons_self, rfl⟩
    · rintro ⟨z, hz, rfl⟩
      by_cases hkept : ∃ w ∈ least key xs, key w = key z
      · obtain ⟨w, hw, hkey⟩ := hkept
        exact ⟨w, (mem_place (ascending_least xs)).2 (.inl hw), hkey⟩
      · rcases List.mem_append.1 hz with hz | hz
        · exact absurd (ih.2 ⟨z, hz, rfl⟩) hkept
        · obtain rfl := List.mem_singleton.1 hz
          refine ⟨z, (mem_place (ascending_least xs)).2 (.inr ⟨rfl, fun w hw hkey => ?_⟩), rfl⟩
          exact hkept ⟨w, hw, hkey⟩

/-- **What is kept** of each key is the record that was met first. -/
theorem mem_least {xs : List β} {y : β} :
    y ∈ least key xs ↔ xs.find? (fun x => decide (key x = key y)) = some y := by
  induction xs using List.reverseRecOn with
  | nil => simp [least]
  | append_singleton xs x ih =>
    rw [least_append, mem_place (ascending_least xs), ih, List.find?_append]
    rcases hfind : xs.find? (fun x => decide (key x = key y)) with _ | w
    · have hnone : ∀ z ∈ xs, key z ≠ key y := by simpa using hfind
      constructor
      · rintro (h | ⟨rfl, -⟩)
        · cases h
        · simp
      · intro h
        have hx : key x = key y ∧ x = y := by simpa [List.find?_singleton] using h
        obtain ⟨-, rfl⟩ := hx
        refine .inr ⟨rfl, fun z hz hkey => ?_⟩
        obtain ⟨w, hw, hkey'⟩ := key_mem_least.1 ⟨z, hz, hkey⟩
        exact hnone w hw hkey'
    · have hw : w ∈ xs ∧ key w = key y :=
        ⟨List.mem_of_find?_eq_some hfind, by simpa using List.find?_some hfind⟩
      rw [Option.some_or]
      refine or_iff_left ?_
      rintro ⟨rfl, hnone⟩
      obtain ⟨z, hz, hkey⟩ := key_mem_least.2 ⟨w, hw.1, hw.2⟩
      exact hnone z hz hkey

theorem mem_of_mem_least {xs : List β} {y : β} (h : y ∈ least key xs) : y ∈ xs :=
  List.mem_of_find?_eq_some (mem_least.1 h)

/-- **The order does not matter**, if records of one key are the same. -/
theorem least_congr {xs ys : List β} (hmem : ∀ z, z ∈ xs ↔ z ∈ ys)
    (hkey : ∀ x ∈ xs, ∀ y ∈ xs, key x = key y → x = y) : least key xs = least key ys := by
  have hkept : ∀ {zs : List β}, (∀ x ∈ zs, ∀ y ∈ zs, key x = key y → x = y) →
      ∀ z, z ∈ least key zs ↔ z ∈ zs := by
    intro zs hzs z
    refine ⟨mem_of_mem_least, fun hz => ?_⟩
    have hkept : ∃ w ∈ least key zs, key w = key z := key_mem_least.2 ⟨z, hz, rfl⟩
    obtain ⟨w, hw, heq⟩ := hkept
    exact hzs w (mem_of_mem_least hw) z hz heq ▸ hw
  have hkey' : ∀ x ∈ ys, ∀ y ∈ ys, key x = key y → x = y := fun x hx y hy =>
    hkey x ((hmem x).2 hx) y ((hmem y).2 hy)
  have : Std.Irrefl (fun x y : β => key x < key y) := ⟨fun x => lt_irrefl (key x)⟩
  have : IsTrans β (fun x y : β => key x < key y) := ⟨fun _ _ _ => lt_trans⟩
  refine List.Pairwise.eq_of_mem_iff (ascending_least xs) (ascending_least ys) fun z => ?_
  rw [hkept hkey, hkept hkey', hmem]

/-- What is kept of the records with a property of their keys. -/
theorem least_filter (p : κ → Bool) (xs : List β) :
    least key (xs.filter (p <| key ·)) = (least key xs).filter (p <| key ·) := by
  have : Std.Irrefl (fun x y : β => key x < key y) := ⟨fun x => lt_irrefl (key x)⟩
  have : IsTrans β (fun x y : β => key x < key y) := ⟨fun _ _ _ => lt_trans⟩
  refine List.Pairwise.eq_of_mem_iff (ascending_least _) ((ascending_least xs).filter _) fun z => ?_
  rw [List.mem_filter, mem_least, mem_least, List.find?_filter]
  by_cases hz : p (key z) = true
  · have hsame : ∀ x,
        (decide (p (key x) = true) && decide (key x = key z)) = decide (key x = key z) := by
      intro x
      by_cases hx : key x = key z
      · simp [hx, hz]
      · simp [hx]
    simp only [Bool.decide_eq_true] at hsame ⊢
    simp [hsame, hz]
  · have hnone : ∀ x, (p (key x) && decide (key x = key z)) = false := by
      intro x
      by_cases hx : key x = key z
      · simp [hx, hz]
      · simp [hx]
    have hfind : xs.find? (fun x => p (key x) && decide (key x = key z)) = none := by
      simp only [List.find?_eq_none, hnone]
      simp
    simp [hfind, hz]

/-- The records after one of them. -/
theorem filter_of_ascending {pre post : List β} {x : β} (h : Ascending key (pre ++ x :: post)) :
    (pre ++ x :: post).filter (fun y => decide (key x < key y)) = post := by
  obtain ⟨-, hpost, hcross⟩ := List.pairwise_append.1 h
  obtain ⟨hx, -⟩ := List.pairwise_cons.1 hpost
  have hbefore : pre.filter (fun y => decide (key x < key y)) = [] := by
    refine List.filter_eq_nil_iff.2 fun y hy => ?_
    simpa using (hcross y hy x List.mem_cons_self).le
  have hafter : post.filter (fun y => decide (key x < key y)) = post :=
    List.filter_eq_self.2 fun y hy => by simpa using hx y hy
  rw [List.filter_append, hbefore, List.filter_cons_of_neg (by simp), hafter, List.nil_append]

/-! ## At most `n` records -/

theorem take_place (n : ℕ) (x : β) (l : List β) :
    (place key x l).take n = (place key x (l.take n)).take n := by
  induction l generalizing n with
  | nil => simp
  | cons y l ih =>
    cases n with
    | zero => simp
    | succ n =>
      unfold place
      rw [List.take_succ_cons]
      simp only
      split_ifs
      · rw [List.take_succ_cons, List.take_succ_cons, ih]
      · rw [List.take_succ_cons, List.take_succ_cons, List.take_take, Nat.min_self]
      · rw [List.take_succ_cons, List.take_succ_cons]
        cases n with
        | zero => rfl
        | succ n => rw [List.take_succ_cons, List.take_succ_cons, List.take_take,
            Nat.min_eq_left (Nat.le_succ n)]

theorem length_place (x : β) (l : List β) :
    l.length ≤ (place key x l).length ∧ (place key x l).length ≤ l.length + 1 := by
  induction l with
  | nil => exact ⟨Nat.zero_le _, le_rfl⟩
  | cons y l ih =>
    unfold place
    split_ifs <;> simp only [List.length_cons] <;> omega

variable (key) in
/-- A record is put into at most `n`, and it is marked if one does not fit any more. -/
def offer (n : ℕ) (s : List β × Bool) (x : β) : List β × Bool :=
  ((place key x s.1).take n, s.2 || decide (n < (place key x s.1).length))

/-- **A bounded reader** keeps the first `n` records of all, and marks that there are more. -/
theorem foldl_offer (n : ℕ) (xs : List β) : xs.foldl (offer key n) ([], false) =
    ((least key xs).take n, decide (n < (least key xs).length)) := by
  induction xs using List.reverseRecOn with
  | nil => simp [least]
  | append_singleton xs x ih =>
    rw [List.foldl_append, ih, least_append, List.foldl_cons, List.foldl_nil, offer]
    refine Prod.ext (take_place n x _).symm ?_
    by_cases hfull : n < (least key xs).length
    · have hgrows : (least key xs).length ≤ (place key x (least key xs)).length :=
        (length_place x _).1
      simp [hfull, hfull.trans_le hgrows]
    · rw [List.take_of_length_le (not_lt.1 hfull)]
      simp [hfull]

end PowerMonitor.Least
