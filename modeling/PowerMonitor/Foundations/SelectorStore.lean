import PowerMonitor.Foundations.AbStore

/-!
# Two slots and a selector

A record that must survive a power loss is kept in two slots, and a selector names the slot of the
last confirmed record. A writer puts its record, numbered after the one it holds, into the slot that
the selector does not name, and only then moves the selector. The reader does not use the selector:
it takes the record of the greater generation, and refuses a store in which a slot fails its check
or two different records have one generation. This module is that pattern over an arbitrary record
type `β` with a generation `gen` and a validity check `valid`.

* `Kept s selector g P` is the invariant of a store whose last confirmed record has the generation
  `g`: from `g` on every record satisfies `P`, except one that ties with the confirmed record.
  `Kept.leave`, `Kept.select` and `Kept.confirm` are the three ends of a write, and `Kept.read` is
  what a reader that is not refused gets.
* `Clear s` says that no reader is refused. `Clear.leave` and `Clear.set` keep it, as long as the
  selector names nothing newer than the record that the writer holds.
-/

namespace PowerMonitor.SelectorStore

open AbStore

variable {β : Type*}

/-- The slot that a write goes to: the one that is not named. Without a selector slot A is. -/
def target (selector : Option Side) : Side := (selector.getD .a).other

theorem ne_target (selector : Option Side) : selector ≠ some (target selector) := by
  cases selector with
  | none => simp
  | some side =>
    intro h
    exact Side.other_ne side (Option.some.inj h).symm

theorem eq_target_or (selector : Option Side) (side : Side) :
    side = target selector ∨ side = (target selector).other := by
  cases side <;> cases target selector <;> simp [Side.other]

section

variable (valid : β → Bool) (gen : β → ℕ)

/-- The record `x` of a slot ties with the confirmed one, which the selector names. -/
def Clash (s : Slots β) (selector : Option Side) (g : ℕ) (side : Side) (x : β) : Prop :=
  gen x = g ∧ selector = some side.other ∧
    ∃ y, s.get side.other = some y ∧ valid y = true ∧ gen y = g ∧ y ≠ x

/-- **The last confirmed record has the generation `g`**, and no reader gets a record without
`P`. -/
structure Kept (s : Slots β) (selector : Option Side) (g : ℕ) (P : β → Prop) : Prop where
  bounded : ∀ side x, s.get side = some x → valid x = true → gen x ≤ g + 1
  held : ∀ side x, s.get side = some x → valid x = true →
    gen x < g ∨ P x ∨ Clash valid gen s selector g side x
  reached : ∃ side x, s.get side = some x ∧ (valid x = true → g ≤ gen x)

/-- A reader is not refused. -/
structure Clear (s : Slots β) : Prop where
  valid : ∀ side x, s.get side = some x → valid x = true
  apart : ∀ x y, s.a = some x → s.b = some y → gen x = gen y → x = y

end

variable {valid : β → Bool} {gen : β → ℕ} {s : Slots β} {selector : Option Side} {g : ℕ}
  {P Q : β → Prop} {x : β}

/-! ## Writing -/

/-- Away from the target nothing ties with the confirmed record. -/
theorem Kept.held_off_target (h : Kept valid gen s selector g P) {y : β}
    (hy : s.get (target selector).other = some y) (hv : valid y = true) : gen y < g ∨ P y := by
  rcases h.held _ y hy hv with hlt | hP | ⟨-, hselector, -⟩
  · exact .inl hlt
  · exact .inr hP
  · rw [Side.other_other] at hselector
    exact absurd hselector (ne_target selector)

/-- **A write that reached its slot**, wherever the selector then points. -/
theorem Kept.select (h : Kept valid gen s selector g P) (hgen : gen x = g + 1) (hP : P x)
    (selector' : Option Side) :
    Kept valid gen (s.set (target selector) (some x)) selector' g P := by
  refine ⟨?_, ?_, ⟨target selector, x, by simp, fun _ => by omega⟩⟩
  · intro side y hy hv
    rcases eq_target_or selector side with rfl | rfl
    · rw [Slots.get_set_self] at hy
      obtain rfl := Option.some.inj hy
      exact hgen.le
    · rw [Slots.get_set_other] at hy
      exact h.bounded _ y hy hv
  · intro side y hy hv
    rcases eq_target_or selector side with rfl | rfl
    · rw [Slots.get_set_self] at hy
      obtain rfl := Option.some.inj hy
      exact .inr (.inl hP)
    · rw [Slots.get_set_other] at hy
      exact (h.held_off_target hy hv).imp_right .inl

/-- **A write that did not succeed** keeps the confirmed record, whatever it left in its slot. -/
theorem Kept.leave (h : Kept valid gen s selector g P) (hgen : gen x = g + 1) (hP : P x)
    (r : Residue valid) : Kept valid gen (s.leave (target selector) x r) selector g P := by
  cases r with
  | old => exact h
  | new => exact h.select hgen hP selector
  | torn z hz =>
    have hnot : valid z ≠ true := by simp [hz]
    refine ⟨?_, ?_, ⟨target selector, z, by simp [Slots.leave], fun hv => absurd hv hnot⟩⟩
    · intro side y hy hv
      rcases eq_target_or selector side with rfl | rfl
      · rw [Slots.leave, Slots.get_set_self] at hy
        exact absurd (Option.some.inj hy ▸ hv) hnot
      · rw [Slots.leave, Slots.get_set_other] at hy
        exact h.bounded _ y hy hv
    · intro side y hy hv
      rcases eq_target_or selector side with rfl | rfl
      · rw [Slots.leave, Slots.get_set_self] at hy
        exact absurd (Option.some.inj hy ▸ hv) hnot
      · rw [Slots.leave, Slots.get_set_other] at hy
        exact (h.held_off_target hy hv).imp_right .inl

/-- **A write that succeeds** makes its record the confirmed one. -/
theorem Kept.confirm (h : Kept valid gen s selector g P) (hgen : gen x = g + 1)
    (hv : valid x = true) (hQ : Q x) :
    Kept valid gen (s.set (target selector) (some x)) (some (target selector)) (g + 1) Q := by
  refine ⟨?_, ?_, ⟨target selector, x, by simp, fun _ => hgen.ge⟩⟩
  · intro side y hy hvy
    rcases eq_target_or selector side with rfl | rfl
    · rw [Slots.get_set_self] at hy
      obtain rfl := Option.some.inj hy
      omega
    · rw [Slots.get_set_other] at hy
      have := h.bounded _ y hy hvy
      omega
  · intro side y hy hvy
    rcases eq_target_or selector side with rfl | rfl
    · rw [Slots.get_set_self] at hy
      obtain rfl := Option.some.inj hy
      exact .inr (.inl hQ)
    · rw [Slots.get_set_other] at hy
      have hle := h.bounded _ y hy hvy
      by_cases hlt : gen y < g + 1
      · exact .inl hlt
      by_cases hxy : x = y
      · exact .inr (.inl (hxy ▸ hQ))
      · exact .inr (.inr ⟨by omega, by rw [Side.other_other],
          ⟨x, by rw [Side.other_other, Slots.get_set_self], hv, hgen, hxy⟩⟩)

/-! ## Reading -/

/-- **What a reader gets**, if it is not refused, satisfies `P`, and becomes the confirmed record:
from its generation on it is the only one. -/
theorem Kept.read (h : Kept valid gen s selector g P) (hclear : Clear valid gen s)
    (hb : best valid gen s = some x) (hQ : Q x) : P x ∧ Kept valid gen s selector (gen x) Q := by
  obtain ⟨hv, side, hside⟩ := best_mem hb
  have hmax : g ≤ gen x := by
    obtain ⟨t, y, hy, hle⟩ := h.reached
    have hvy := hclear.valid t y hy
    exact (hle hvy).trans (le_gen_best hb hy hvy)
  have hsame : ∀ t y, s.get t = some y → gen y = gen x → y = x := by
    intro t y hy hgen
    by_cases ht : t = side
    · subst ht
      exact Option.some.inj (hy.symm.trans hside)
    · cases t <;> cases side <;> first | exact absurd rfl ht | skip
      · exact hclear.apart y x hy hside hgen
      · exact (hclear.apart x y hside hy hgen.symm).symm
  have hP : P x := by
    rcases h.held side x hside hv with hlt | hP | ⟨hgen, -, y, hy, -, hgy, hne⟩
    · omega
    · exact hP
    · exact absurd (hsame _ y hy (hgy.trans hgen.symm)) hne
  refine ⟨hP, ⟨fun t y hy hvy => ?_, fun t y hy hvy => ?_, ⟨side, x, hside, fun _ => le_rfl⟩⟩⟩
  · have := le_gen_best hb hy hvy
    omega
  · rcases (le_gen_best hb hy hvy).lt_or_eq with hlt | heq
    · exact .inl hlt
    · exact .inr (.inl (hsame t y hy heq ▸ hQ))

/-- The same in a store of which nothing is known but that the reader is not refused. -/
theorem kept_of_clear (hclear : Clear valid gen s) (hb : best valid gen s = some x) (hQ : Q x)
    (selector : Option Side) : Kept valid gen s selector (gen x) Q := by
  obtain ⟨-, side, hside⟩ := best_mem hb
  have hany : Kept valid gen s selector (gen x) (fun _ => True) := by
    refine ⟨fun side y hy hv => ?_, fun side y _ _ => .inr (.inl trivial),
      ⟨side, x, hside, fun _ => le_rfl⟩⟩
    have := le_gen_best hb hy hv
    omega
  exact (hany.read hclear hb hQ).2

/-! ## Stores that are read -/

theorem clear_empty : Clear valid gen Slots.empty := by
  refine ⟨fun side x hx => ?_, fun x y hx => by cases hx⟩
  cases side <;> cases hx

/-- **A write that reached its slot** leaves a store that is read, if the other slot holds nothing
as new. -/
theorem Clear.set (h : Clear valid gen s) (hv : valid x = true)
    (hnewer : ∀ y, s.get (target selector).other = some y → gen y < gen x) :
    Clear valid gen (s.set (target selector) (some x)) := by
  refine ⟨fun side y hy => ?_, ?_⟩
  · rcases eq_target_or selector side with rfl | rfl
    · rw [Slots.get_set_self] at hy
      exact Option.some.inj hy ▸ hv
    · rw [Slots.get_set_other] at hy
      exact h.valid _ y hy
  · intro y z hy hz hgen
    cases ht : target selector with
    | a =>
      rw [ht] at hnewer hy hz
      obtain rfl : x = y := Option.some.inj hy
      exact absurd hgen (hnewer z hz).ne'
    | b =>
      rw [ht] at hnewer hy hz
      obtain rfl : x = z := Option.some.inj hz
      exact absurd hgen (hnewer y hy).ne

/-- A slot whose write left no torn record. -/
theorem Clear.leave (h : Clear valid gen s) (hv : valid x = true)
    (hnewer : ∀ y, s.get (target selector).other = some y → gen y < gen x) {r : Residue valid}
    (hr : ∀ z hz, r ≠ .torn z hz) : Clear valid gen (s.leave (target selector) x r) := by
  cases r with
  | old => exact h
  | new => exact h.set hv hnewer
  | torn z hz => exact absurd rfl (hr z hz)

end PowerMonitor.SelectorStore
