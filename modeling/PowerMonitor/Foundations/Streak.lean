import Mathlib.Data.List.Infix

/-!
# Streaks

A counter that counts the elements of a list that satisfy a predicate, and starts again at each one
that does not, is how a noisy signal is debounced. `reaches p k n l` says that the counter, which
stands at `n`, gets to `k` on the list `l`; `reaches_zero_iff` says when: there are `k` such
elements in a row.
-/

namespace PowerMonitor.Streak

variable {α : Type*} (p : α → Bool) {k : ℕ}

/-- The counter, from `n`, gets to `k`. -/
def reaches (k : ℕ) : ℕ → List α → Bool
  | _, [] => false
  | n, x :: l =>
    let n := if p x then n + 1 else 0
    if k ≤ n then true else reaches k n l

variable {p}

/-- No streak starts with an element that does not satisfy `p`. -/
theorem not_starting {x : α} {l s : List α} (hx : ¬ p x = true) (hs : s <+: x :: l)
    (hpos : 0 < s.length) (hall : ∀ y ∈ s, p y = true) : False := by
  rcases List.prefix_cons_iff.1 hs with rfl | ⟨t, rfl, -⟩
  · exact absurd hpos (lt_irrefl 0)
  · exact hx (hall x List.mem_cons_self)

/-- The counter gets to `k` on the elements that start the list, with the `n` before them, or on
`k` elements in a row. -/
theorem reaches_iff {n : ℕ} (hn : n < k) (l : List α) :
    reaches p k n l = true ↔
      (∃ s, s <+: l ∧ s.length + n = k ∧ ∀ x ∈ s, p x = true) ∨
        ∃ s, s <:+: l ∧ s.length = k ∧ ∀ x ∈ s, p x = true := by
  induction l generalizing n with
  | nil =>
    refine iff_of_false Bool.false_ne_true ?_
    rintro (⟨s, hs, hlength, -⟩ | ⟨s, hs, hlength, -⟩)
    · rw [List.prefix_nil.1 hs, List.length_nil] at hlength
      omega
    · rw [List.infix_nil.1 hs, List.length_nil] at hlength
      omega
  | cons x l ih =>
    have htail {s : List α} (hs : s <:+: l) : s <:+: x :: l := hs.trans (List.suffix_cons x l).isInfix
    by_cases hx : p x = true
    · by_cases hk : k ≤ n + 1
      · refine iff_of_true (by simp [reaches, hx, hk]) (.inl ⟨[x], ?_, ?_, by simpa using hx⟩)
        · exact List.prefix_append [x] l
        · rw [List.length_singleton]
          omega
      have hstep : reaches p k n (x :: l) = reaches p k (n + 1) l := by simp [reaches, hx, hk]
      rw [hstep, ih (not_le.1 hk)]
      constructor
      · rintro (⟨s, hs, hlength, hall⟩ | ⟨s, hs, hlength, hall⟩)
        · refine .inl ⟨x :: s, List.cons_prefix_cons.2 ⟨rfl, hs⟩, ?_, ?_⟩
          · rw [List.length_cons]
            omega
          · exact List.forall_mem_cons.2 ⟨hx, hall⟩
        · exact .inr ⟨s, htail hs, hlength, hall⟩
      · rintro (⟨s, hs, hlength, hall⟩ | ⟨s, hs, hlength, hall⟩)
        · rcases List.prefix_cons_iff.1 hs with rfl | ⟨t, rfl, ht⟩
          · rw [List.length_nil] at hlength
            omega
          · refine .inl ⟨t, ht, ?_, fun y hy => hall y (List.mem_cons_of_mem x hy)⟩
            rw [List.length_cons] at hlength
            omega
        · rcases List.infix_cons_iff.1 hs with hs | hs
          · -- the streak starts at `x`: its first elements are enough after the `n` before
            rcases List.prefix_cons_iff.1 hs with rfl | ⟨t, rfl, ht⟩
            · rw [List.length_nil] at hlength
              omega
            rw [List.length_cons] at hlength
            refine .inl ⟨t.take (k - (n + 1)), (List.take_prefix _ _).trans ht, ?_, fun y hy => ?_⟩
            · rw [List.length_take]
              omega
            · exact hall y (List.mem_cons_of_mem x (List.mem_of_mem_take hy))
          · exact .inr ⟨s, hs, hlength, hall⟩
    · have hk : ¬ k ≤ 0 := by omega
      have hstep : reaches p k n (x :: l) = reaches p k 0 l := by simp [reaches, hx, hk]
      rw [hstep, ih (Nat.zero_lt_of_lt hn)]
      constructor
      · rintro (⟨s, hs, hlength, hall⟩ | ⟨s, hs, hlength, hall⟩)
        · exact .inr ⟨s, htail hs.isInfix, hlength, hall⟩
        · exact .inr ⟨s, htail hs, hlength, hall⟩
      · rintro (⟨s, hs, hlength, hall⟩ | ⟨s, hs, hlength, hall⟩)
        · exact (not_starting hx hs (by omega) hall).elim
        · rcases List.infix_cons_iff.1 hs with hs | hs
          · exact (not_starting hx hs (by omega) hall).elim
          · exact .inr ⟨s, hs, hlength, hall⟩

/-- **The counter gets from 0 to `k` when there are `k` elements in a row.** -/
theorem reaches_zero_iff (hk : 0 < k) (l : List α) :
    reaches p k 0 l = true ↔ ∃ s, s <:+: l ∧ s.length = k ∧ ∀ x ∈ s, p x = true := by
  rw [reaches_iff hk]
  constructor
  · rintro (⟨s, hs, hlength, hall⟩ | h)
    · exact ⟨s, hs.isInfix, hlength, hall⟩
    · exact h
  · exact .inr

end PowerMonitor.Streak
