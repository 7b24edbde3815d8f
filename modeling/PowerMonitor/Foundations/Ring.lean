import Mathlib.Algebra.Group.Fin.Basic
import Mathlib.Algebra.Order.Ring.Nat
import Mathlib.Data.Fin.Basic
import Mathlib.Data.Int.ModEq
import Mathlib.Logic.Function.Basic
import Mathlib.Tactic.Common

/-!
# The last few values

A ring of `n` places that keeps the last `n` values put into it: `next` is the place of the oldest
one once the ring is full, and `count` the number of places in use. `Holds r l` says that `r` is
what the values `l`, oldest first, leave behind; `Holds.push` is the step, and `Holds.contains_iff`
what a search through the places in use means.
-/

namespace PowerMonitor

/-- `n` places of which the first `count` are in use; the next value goes to the place `next`. -/
structure Ring (α : Type*) (n : ℕ) where
  values : Fin n → α
  count : ℕ
  next : Fin n

namespace Ring

variable {α : Type*} {n : ℕ}

/-- Whether a place in use holds the value. -/
def contains [DecidableEq α] (r : Ring α n) (x : α) : Bool :=
  (List.finRange n).any fun i => i.val < r.count && r.values i = x

theorem contains_eq_true [DecidableEq α] {r : Ring α n} {x : α} :
    r.contains x = true ↔ ∃ i : Fin n, i.val < r.count ∧ r.values i = x := by
  simp [contains]

variable [NeZero n]

/-- The values in the places in use, oldest first. -/
def toList (r : Ring α n) : List α :=
  (List.range r.count).map fun k => r.values (r.next - Fin.ofNat n (r.count - k))

/-- A value is put in, over the oldest one when the ring is full. -/
def push (r : Ring α n) (x : α) : Ring α n where
  values := Function.update r.values r.next x
  count := if r.count < n then r.count + 1 else r.count
  next := r.next + 1

/-- The ring after the values `l`, oldest first. -/
structure Holds (r : Ring α n) (l : List α) : Prop where
  count : r.count = min l.length n
  next : r.next.val = l.length % n
  values : ∀ k (h : k < l.length), l.length ≤ k + n →
    r.values ⟨k % n, Nat.mod_lt k (NeZero.pos n)⟩ = l.get ⟨k, h⟩

theorem Holds.push {r : Ring α n} {l : List α} (h : Holds r l) (x : α) :
    Holds (r.push x) (l ++ [x]) where
  count := by
    have hlen : (l ++ [x]).length = l.length + 1 := by simp
    simp only [Ring.push, h.count, hlen]
    split <;> omega
  next := by
    have hlen : (l ++ [x]).length = l.length + 1 := by simp
    rw [hlen, Ring.push, Fin.val_add, h.next, Nat.add_mod, Nat.mod_mod, Nat.add_mod l.length 1]
    simp
  values := by
    have hlen : (l ++ [x]).length = l.length + 1 := by simp
    intro k hk hnear
    rw [hlen] at hk hnear
    by_cases hlast : k = l.length
    · subst hlast
      have hplace : (⟨l.length % n, Nat.mod_lt _ (NeZero.pos n)⟩ : Fin n) = r.next :=
        Fin.ext h.next.symm
      simp [Ring.push, hplace]
    · have hlt : k < l.length := by omega
      -- the value that is overwritten is `n` places back, out of the range of `hnear`
      have hplace : (⟨k % n, Nat.mod_lt k (NeZero.pos n)⟩ : Fin n) ≠ r.next := by
        intro heq
        have hmod : k % n = l.length % n := by
          rw [← h.next, ← heq]
        have hdiv : n ∣ l.length - k := (Nat.modEq_iff_dvd' hlt.le).1 hmod
        have hle := Nat.le_of_dvd (by omega) hdiv
        omega
      simp only [Ring.push, Function.update_of_ne hplace]
      rw [h.values k hlt (by omega)]
      simp [List.getElem_append_left hlt]

/-- A search through the places in use looks at the last `n` values. -/
theorem Holds.contains_iff [DecidableEq α] {r : Ring α n} {l : List α} (h : Holds r l) (x : α) :
    r.contains x = true ↔ x ∈ l.drop (l.length - n) := by
  have hpos := NeZero.pos n
  rw [contains_eq_true, List.mem_iff_getElem]
  constructor
  · rintro ⟨i, hi, rfl⟩
    rw [h.count] at hi
    -- the last of the values that went to the place `i`
    have hdiv := Nat.div_add_mod (l.length - 1 - i) n
    have hmod := Nat.mod_lt (l.length - 1 - i) hpos
    generalize (l.length - 1 - i) / n = q at hdiv
    have hk : i + n * q < l.length := by omega
    have hmodi : (i + n * q) % n = i := by
      rw [Nat.add_mul_mod_self_left, Nat.mod_eq_of_lt i.isLt]
    have hplace : (⟨(i + n * q) % n, Nat.mod_lt _ hpos⟩ : Fin n) = i := Fin.ext hmodi
    have hvalue := h.values _ hk (by omega)
    rw [hplace] at hvalue
    refine ⟨i + n * q - (l.length - n), by rw [List.length_drop]; omega, ?_⟩
    rw [hvalue, List.getElem_drop, List.get_eq_getElem]
    congr 1
    change l.length - n + _ = i + n * q
    omega
  · rintro ⟨k, hk, rfl⟩
    rw [List.length_drop] at hk
    have hlt : l.length - n + k < l.length := by omega
    refine ⟨⟨(l.length - n + k) % n, Nat.mod_lt _ hpos⟩, ?_, ?_⟩
    · rw [h.count]
      rcases le_total l.length n with hle | hle
      · rw [Nat.sub_eq_zero_of_le hle, Nat.zero_add] at hlt ⊢
        have := Nat.mod_le k n
        simp only
        omega
      · have := Nat.mod_lt (l.length - n + k) hpos
        simp only
        omega
    · rw [h.values _ hlt (by omega), List.getElem_drop]
      rfl

/-- What the ring holds are the last `n` values. -/
theorem Holds.toList_eq {r : Ring α n} {l : List α} (h : Holds r l) :
    r.toList = l.drop (l.length - n) := by
  refine List.ext_getElem ?_ fun k hk hk' => ?_
  · rw [toList, List.length_map, List.length_range, List.length_drop, h.count]
    omega
  · have hlen := List.length_drop (i := l.length - n) (l := l)
    have hlt : l.length - n + k < l.length := by omega
    have hplace : r.next - Fin.ofNat n (r.count - k) =
        ⟨(l.length - n + k) % n, Nat.mod_lt _ (NeZero.pos n)⟩ := by
      rw [sub_eq_iff_eq_add]
      refine Fin.ext ?_
      rw [h.next, Fin.val_add, Fin.val_ofNat, ← Nat.add_mod, h.count]
      congr 1
      omega
    simp only [toList, List.getElem_map, List.getElem_range, hplace]
    rw [h.values _ hlt (by omega), List.getElem_drop]
    rfl

/-- A value is appended, and the oldest one goes when the ring is full. -/
theorem Holds.toList_push {r : Ring α n} {l : List α} (h : Holds r l) (x : α) :
    (r.push x).toList = (if r.toList.length < n then r.toList else r.toList.tail) ++ [x] := by
  have hpos := NeZero.pos n
  have hlen : (l ++ [x]).length = l.length + 1 := by simp
  rw [(h.push x).toList_eq, h.toList_eq, hlen, List.length_drop]
  split
  next hroom =>
    have hshort : l.length < n := by omega
    rw [Nat.sub_eq_zero_of_le hshort, Nat.sub_eq_zero_of_le hshort.le]
    rfl
  next hfull =>
    have hlong : n ≤ l.length := by omega
    rw [List.tail_drop, List.drop_append_of_le_length (by omega)]
    congr 2
    omega

end Ring

end PowerMonitor
