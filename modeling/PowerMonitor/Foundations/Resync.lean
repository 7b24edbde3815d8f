import Mathlib.Data.List.Basic
import Mathlib.Order.Basic
import Mathlib.Order.Nat
import Mathlib.Tactic.SplitIfs

/-!
# Scanning a damaged log

A log of blocks of one size is scanned from its start. Where a block is not valid, or is older than
what is expected, the scan goes on at the next valid block, wherever that is. This module is that
scan over an arbitrary type `ρ` of records with a number `key` and the number `after` that is
expected next; `valid o` is the record at the offset `o`, if there is a valid block.

* `found` are the records that the scan finds, with their offsets. `found_cases` is one step.
* `found_valid` and `found_sorted`: each is at its offset, they do not overlap, and no one is older
  than what was expected after the one before.
* `found_complete`: a valid block that is not found overlaps one that is, or is older than what was
  expected.
-/

namespace PowerMonitor.Resync

variable {ρ : Type*}

/-- The first valid block from an offset on, among the `n` next offsets. -/
def next (valid : ℕ → Option ρ) : ℕ → ℕ → Option (ℕ × ρ)
  | 0, _ => none
  | n + 1, o =>
    match valid o with
    | some r => some (o, r)
    | none => next valid n (o + 1)

section

variable {valid : ℕ → Option ρ} {n o x : ℕ} {r : ρ}

theorem next_eq_some (h : next valid n o = some (x, r)) :
    valid x = some r ∧ o ≤ x ∧ x < o + n ∧ ∀ y, o ≤ y → y < x → valid y = none := by
  induction n generalizing o with
  | zero => cases h
  | succ n ih =>
    unfold next at h
    split at h
    next r' hr =>
      obtain ⟨rfl, rfl⟩ := Prod.mk.inj (Option.some.inj h)
      exact ⟨hr, le_rfl, by omega, fun y hy hlt => by omega⟩
    next hnone =>
      obtain ⟨hvalid, hle, hlt, hbetween⟩ := ih h
      refine ⟨hvalid, by omega, by omega, fun y hy hyx => ?_⟩
      rcases hy.lt_or_eq with hy | rfl
      · exact hbetween y hy hyx
      · exact hnone

theorem next_eq_none (h : next valid n o = none) (hle : o ≤ x) (hlt : x < o + n) :
    valid x = none := by
  induction n generalizing o with
  | zero => omega
  | succ n ih =>
    unfold next at h
    split at h
    · cases h
    next hnone =>
      rcases hle.lt_or_eq with hle | rfl
      · exact ih h hle (by omega)
      · exact hnone

end

/-- What a scan needs to know: the blocks, their size, and the end of the log. -/
structure Log (ρ : Type*) where
  valid : ℕ → Option ρ
  key : ρ → ℕ
  after : ρ → ℕ
  size : ℕ
  stop : ℕ
  size_pos : 0 < size
  key_le_after : ∀ r, key r ≤ after r
  inside : ∀ o r, valid o = some r → o + size ≤ stop

/-- The record at an offset, if it is not older than what is expected. -/
def Log.fresh (log : Log ρ) (o expected : ℕ) : Option ρ :=
  (log.valid o).filter (fun r => decide (expected ≤ log.key r))

/-- The records that are found from an offset on, with their offsets. -/
def found (log : Log ρ) : ℕ → ℕ → ℕ → List (ℕ × ρ)
  | 0, _, _ => []
  | fuel + 1, o, expected =>
    if o + log.size ≤ log.stop then
      match log.fresh o expected with
      | some r => (o, r) :: found log fuel (o + log.size) (log.after r)
      | none =>
        match next log.valid (log.stop - o) (o + 1) with
        | some (x, _) => found log fuel x expected
        | none => []
    else []

section

variable {log : Log ρ} {o expected : ℕ} {r : ρ}

theorem fresh_eq_some (h : log.fresh o expected = some r) :
    log.valid o = some r ∧ expected ≤ log.key r := by
  unfold Log.fresh at h
  obtain ⟨hvalid, hkey⟩ := Option.filter_eq_some_iff.1 h
  exact ⟨hvalid, by simpa using hkey⟩

theorem fresh_eq_none (h : log.fresh o expected = none) (hr : log.valid o = some r) :
    log.key r < expected := by
  rw [Log.fresh, hr, Option.filter_some] at h
  by_contra hle
  simp [not_lt.1 hle] at h

/-- A block that is fresh is found, and the scan goes on after it. -/
theorem found_of_fresh (h : log.fresh o expected = some r) (fuel : ℕ) :
    found log (fuel + 1) o expected = (o, r) :: found log fuel (o + log.size) (log.after r) := by
  have hfits := log.inside o r (fresh_eq_some h).1
  rw [found, if_pos hfits, h]

/-- Nothing is found where no block fits. -/
theorem found_of_end (h : ¬o + log.size ≤ log.stop) (fuel : ℕ) :
    found log fuel o expected = [] := by
  cases fuel with
  | zero => rfl
  | succ fuel => rw [found, if_neg h]

/-- **What is found is there**: every record is at its offset, from the start on, and is not older
than what was expected there. -/
theorem found_valid (fuel : ℕ) : ∀ p ∈ found log fuel o expected,
    log.valid p.1 = some p.2 ∧ o ≤ p.1 ∧ expected ≤ log.key p.2 := by
  induction fuel generalizing o expected with
  | zero => simp [found]
  | succ fuel ih =>
    unfold found
    split
    · split
      next r hr =>
        obtain ⟨hvalid, hkey⟩ := fresh_eq_some hr
        rintro p (_ | ⟨_, hp⟩)
        · exact ⟨hvalid, le_rfl, hkey⟩
        · obtain ⟨hp, hle, hafter⟩ := ih p hp
          exact ⟨hp, by omega, (hkey.trans (log.key_le_after r)).trans hafter⟩
      next =>
        split
        next x _ hnext =>
          intro p hp
          obtain ⟨hp, hle, hexpected⟩ := ih p hp
          have := (next_eq_some hnext).2.1
          exact ⟨hp, by omega, hexpected⟩
        next => simp
    · simp

/-- **What is found is in order**: the blocks follow each other, and no record is older than what
was expected after the ones before it. -/
theorem found_sorted (fuel : ℕ) : (found log fuel o expected).Pairwise
    (fun p q => p.1 + log.size ≤ q.1 ∧ log.after p.2 ≤ log.key q.2) := by
  induction fuel generalizing o expected with
  | zero => exact .nil
  | succ fuel ih =>
    unfold found
    split
    · split
      next r hr =>
        refine List.pairwise_cons.2 ⟨fun q hq => ?_, ih⟩
        obtain ⟨-, hle, hkey⟩ := found_valid fuel q hq
        exact ⟨hle, hkey⟩
      next =>
        split
        · exact ih
        · exact .nil
    · exact .nil

/-- **Nothing else is there**: a valid block that is not found lies within one that is, or its
record is older than what was expected before it. -/
theorem found_complete (fuel : ℕ) (hfuel : log.stop < o + fuel) {x : ℕ} {r : ρ} (hle : o ≤ x)
    (hr : log.valid x = some r) : (x, r) ∈ found log fuel o expected ∨
      (∃ p ∈ found log fuel o expected, p.1 < x ∧ x < p.1 + log.size) ∨ log.key r < expected ∨
      ∃ p ∈ found log fuel o expected, p.1 < x ∧ log.key r < log.after p.2 := by
  have hinside := log.inside x r hr
  have hsize := log.size_pos
  induction fuel generalizing o expected with
  | zero => omega
  | succ fuel ih =>
    unfold found
    rw [if_pos (by omega : o + log.size ≤ log.stop)]
    split
    next r' hfresh =>
      obtain ⟨hvalid, hkey⟩ := fresh_eq_some hfresh
      rcases hle.lt_or_eq with hlt | rfl
      · by_cases hoverlap : x < o + log.size
        · exact .inr (.inl ⟨(o, r'), List.mem_cons_self, hlt, hoverlap⟩)
        · rcases ih (by omega) (not_lt.1 hoverlap) with hp | ⟨p, hp, hp'⟩ | hold | ⟨p, hp, hp'⟩
          · exact .inl (List.mem_cons_of_mem _ hp)
          · exact .inr (.inl ⟨p, List.mem_cons_of_mem _ hp, hp'⟩)
          · exact .inr (.inr (.inr ⟨(o, r'), List.mem_cons_self, hlt, hold⟩))
          · exact .inr (.inr (.inr ⟨p, List.mem_cons_of_mem _ hp, hp'⟩))
      · obtain rfl := Option.some.inj (hr.symm.trans hvalid)
        exact .inl List.mem_cons_self
    next hstale =>
      rcases hle.lt_or_eq with hlt | rfl
      · split
        next y _ hnext =>
          obtain ⟨-, hoy, -, hbetween⟩ := next_eq_some hnext
          have hyx : y ≤ x := by
            by_contra hxy
            have hnone := hbetween x hlt (not_le.1 hxy)
            cases hnone.symm.trans hr
          exact ih (by omega) hyx
        next hnext =>
          have hnone := next_eq_none hnext hlt (by omega)
          cases hnone.symm.trans hr
      · exact .inr (.inr (.inl (fresh_eq_none hstale hr)))

end

end PowerMonitor.Resync
