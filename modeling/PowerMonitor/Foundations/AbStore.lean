import Mathlib.Order.Basic
import Mathlib.Order.Nat
import Mathlib.Tactic.SplitIfs

/-!
# A/B generation stores

A record that must survive a power loss is kept in two slots. Every version carries a generation;
odd generations are written to slot A and even ones to slot B, and the reader takes the valid slot
with the greater generation. This module is that pattern over an arbitrary record type `β` with a
generation `gen` and a validity check `valid`.

* `WriteFault` lists what one sequence of open, set and commit can meet, and `writeBlob` is its
  effect on the slots: a write that does not succeed may leave the slot as it was, with the new
  record, or with one that fails the check.
* `AllValid` is a property of every record that passes the check; a write of a record that has it
  keeps it (`AllValid.writeBlob`).
* `best` is the reader.
* `Holds slots base P` is the invariant of a store in use: `base` sits in its own slot, and the
  other slot holds nothing newer, except records satisfying `P` whose write reported a failure.
  `Holds.best` reads such a store, `Holds.leave` and `Holds.replace` write to it.
* `InPlace` is the weaker invariant of a writer that numbers its record after the newest one it can
  read: every valid record sits in the slot of its generation. `InPlace.best_writeBlob` is what such
  a write does to the newest record.
-/

namespace PowerMonitor.AbStore

/-- The two slots. -/
inductive Side
  | a
  | b
  deriving DecidableEq, Repr

/-- The other slot. -/
def Side.other : Side → Side
  | .a => .b
  | .b => .a

@[simp] theorem Side.other_other (s : Side) : s.other.other = s := by cases s <;> rfl

@[simp] theorem Side.other_ne (s : Side) : s.other ≠ s := by cases s <;> simp [Side.other]

/-- The slot of a generation: `(generation & 1U) != 0U ? "slot_a" : "slot_b"`. -/
def sideOf (g : ℕ) : Side := if g % 2 = 1 then .a else .b

theorem sideOf_succ (g : ℕ) : sideOf (g + 1) = (sideOf g).other := by
  unfold sideOf
  rcases Nat.mod_two_eq_zero_or_one g with h | h
  · rw [if_pos (by omega), if_neg (by omega)]
    rfl
  · rw [if_neg (by omega), if_pos h]
    rfl

theorem sideOf_eq_iff (g h : ℕ) : sideOf g = sideOf h ↔ g % 2 = h % 2 := by
  unfold sideOf
  split_ifs with h₁ h₂ h₂ <;> simp <;> omega

/-- The contents of the two slots; `none` is a key that was never written. -/
structure Slots (β : Type*) where
  a : Option β
  b : Option β
  deriving DecidableEq

namespace Slots

variable {β : Type*}

/-- Both keys missing. -/
def empty : Slots β := ⟨none, none⟩

def get (s : Slots β) : Side → Option β
  | .a => s.a
  | .b => s.b

def set (s : Slots β) (side : Side) (x : Option β) : Slots β :=
  match side with
  | .a => { s with a := x }
  | .b => { s with b := x }

@[simp] theorem get_set_self (s : Slots β) (side : Side) (x : Option β) :
    (s.set side x).get side = x := by cases side <;> rfl

@[simp] theorem get_set_other (s : Slots β) (side : Side) (x : Option β) :
    (s.set side x).get side.other = s.get side.other := by cases side <;> rfl

theorem get_set_of_ne (s : Slots β) {side t : Side} (h : t ≠ side) (x : Option β) :
    (s.set side x).get t = s.get t := by cases side <;> cases t <;> simp_all [get, set]

end Slots

/-! ## Writing -/

/-- What an interrupted or failed write leaves in its slot: the old record, the new one, or one
that fails the reader's check. -/
inductive Residue {β : Type*} (valid : β → Bool)
  | old
  | new
  | torn (blob : β) (detected : valid blob = false)

/-- What one open, set and commit sequence meets. The error codes `ε` are those of failures. -/
inductive WriteFault {β : Type*} (ε : Type*) (valid : β → Bool)
  | none
  | openFails (e : ε)
  | setFails (e : ε) (left : Residue valid)
  | commitFails (e : ε) (left : Residue valid)
  | powerLoss (left : Residue valid)

/-- How a write sequence ends: it returns success or an error, or power is lost under it. -/
inductive WriteEnd (ε : Type*)
  | success
  | failure (e : ε)
  | lost
  deriving DecidableEq

section

variable {β ε : Type*} {valid : β → Bool}

/-- The slots after a write of `blob` to `side` left `r`. -/
def Slots.leave (s : Slots β) (side : Side) (blob : β) : Residue valid → Slots β
  | .old => s
  | .new => s.set side (some blob)
  | .torn x _ => s.set side (some x)

/-- One open, set and commit sequence that writes `blob` to `side`. -/
def writeBlob (f : WriteFault ε valid) (side : Side) (blob : β) (s : Slots β) :
    WriteEnd ε × Slots β :=
  match f with
  | .none => (.success, s.set side (some blob))
  | .openFails e => (.failure e, s)
  | .setFails e r => (.failure e, s.leave side blob r)
  | .commitFails e r => (.failure e, s.leave side blob r)
  | .powerLoss r => (.lost, s.leave side blob r)

/-- Whether the sequence gets as far as writing its slot. -/
def WriteFault.reaches : WriteFault ε valid → Bool
  | .openFails _ => false
  | _ => true

/-- **What a write sequence can do**: it succeeds and the slot holds the record; or the slot holds
one of the three residues; or it never reached the slot. -/
theorem writeBlob_cases (f : WriteFault ε valid) (side : Side) (blob : β) (s : Slots β) :
    (writeBlob f side blob s = (.success, s.set side (some blob)) ∧ f.reaches = true) ∨
    (∃ e, ∃ r : Residue valid, (writeBlob f side blob s).1 = e ∧ e ≠ .success ∧ f.reaches = true ∧
      (writeBlob f side blob s).2 = s.leave side blob r) ∨
    (∃ e, writeBlob f side blob s = (.failure e, s) ∧ f.reaches = false) := by
  cases f with
  | none => exact .inl ⟨rfl, rfl⟩
  | openFails e => exact .inr (.inr ⟨e, rfl, rfl⟩)
  | setFails e r => exact .inr (.inl ⟨_, r, rfl, by simp [writeBlob], rfl, rfl⟩)
  | commitFails e r => exact .inr (.inl ⟨_, r, rfl, by simp [writeBlob], rfl, rfl⟩)
  | powerLoss r => exact .inr (.inl ⟨_, r, rfl, by simp [writeBlob], rfl, rfl⟩)

/-- Every record of the slots that passes the check has the property `P`. -/
def AllValid (valid : β → Bool) (P : β → Prop) (s : Slots β) : Prop :=
  ∀ side x, s.get side = some x → valid x = true → P x

theorem AllValid.set {P : β → Prop} {s : Slots β} (h : AllValid valid P s) (side : Side) {x : β}
    (hx : valid x = true → P x) : AllValid valid P (s.set side (some x)) := by
  intro t y hy hv
  by_cases ht : t = side
  · subst ht
    rw [Slots.get_set_self] at hy
    obtain rfl := Option.some.inj hy
    exact hx hv
  · rw [Slots.get_set_of_ne s ht] at hy
    exact h t y hy hv

/-- A write of a record with the property keeps it, however it ends. -/
theorem AllValid.writeBlob {P : β → Prop} {s : Slots β} (h : AllValid valid P s)
    (f : WriteFault ε valid) (side : Side) {blob : β} (hb : P blob) :
    AllValid valid P (writeBlob f side blob s).2 := by
  have hleave : ∀ r : Residue valid, AllValid valid P (s.leave side blob r) := by
    rintro (_ | _ | ⟨x, hx⟩)
    · exact h
    · exact h.set side fun _ => hb
    · exact h.set side fun hv => by rw [hx] at hv; cases hv
  cases f with
  | none => exact h.set side fun _ => hb
  | openFails e => exact h
  | setFails e r => exact hleave r
  | commitFails e r => exact hleave r
  | powerLoss r => exact hleave r

end

/-! ## Reading -/

section

variable {β : Type*} (valid : β → Bool) (gen : β → ℕ)

/-- The valid slot with the greater generation; slot A on a tie. -/
def best (s : Slots β) : Option β :=
  match s.a.filter (valid ·), s.b.filter (valid ·) with
  | some x, some y => if gen y ≤ gen x then some x else some y
  | some x, none => some x
  | none, y => y

/-- `base` is stored in the slot of its generation, and the other slot holds nothing newer except
records satisfying `P`. -/
structure Holds (s : Slots β) (base : β) (P : β → Prop) : Prop where
  stored : s.get (sideOf (gen base)) = some base
  accepted : valid base = true
  rest : ∀ y, s.get (sideOf (gen base)).other = some y → valid y = true →
    gen y < gen base ∨
      (P y ∧ gen base < gen y ∧ sideOf (gen y) = (sideOf (gen base)).other)

variable {valid gen} {s : Slots β} {base : β} {P : β → Prop}

theorem filter_eq_some_of_valid {o : Option β} {x : β} (h : o = some x) (hv : valid x = true) :
    o.filter (valid ·) = some x := by
  subst h
  simp [Option.filter, hv]

theorem of_filter_eq_some {o : Option β} {x : β} (h : o.filter (valid ·) = some x) :
    o = some x ∧ valid x = true := by
  cases o with
  | none => simp at h
  | some y =>
    obtain ⟨hv, rfl⟩ : valid y = true ∧ y = x := by simpa [Option.filter_some] using h
    exact ⟨rfl, hv⟩

/-- Reading a store in use returns its base, or a newer record found in the other slot. -/
theorem Holds.best_cases (h : Holds valid gen s base P) :
    (best valid gen s = some base ∧ ∀ y, s.get (sideOf (gen base)).other = some y →
      valid y = true → gen y < gen base) ∨
    ∃ x, best valid gen s = some x ∧ valid x = true ∧ P x ∧ gen base < gen x ∧
      sideOf (gen x) = (sideOf (gen base)).other ∧
      s.get (sideOf (gen base)).other = some x := by
  have hs := filter_eq_some_of_valid h.stored h.accepted
  have hr := h.rest
  cases hside : sideOf (gen base) <;> rw [hside] at hs hr <;>
    simp only [Slots.get, Side.other] at hs hr ⊢
  · rcases hy : s.b.filter (valid ·) with _ | y
    · refine .inl ⟨by simp [AbStore.best, hs, hy], fun y hb hv => ?_⟩
      rw [filter_eq_some_of_valid hb hv] at hy
      cases hy
    · obtain ⟨hb, hv⟩ := of_filter_eq_some hy
      rcases hr y hb hv with hlt | ⟨hP, hlt, hpar⟩
      · refine .inl ⟨by simp [AbStore.best, hs, hy, hlt.le], fun z hz _ => ?_⟩
        obtain rfl := Option.some.inj (hb.symm.trans hz)
        exact hlt
      · exact .inr ⟨y, by simp [AbStore.best, hs, hy, not_le.2 hlt], hv, hP, hlt, hpar, hb⟩
  · rcases hy : s.a.filter (valid ·) with _ | y
    · refine .inl ⟨by simp [AbStore.best, hs, hy], fun y ha hv => ?_⟩
      rw [filter_eq_some_of_valid ha hv] at hy
      cases hy
    · obtain ⟨ha, hv⟩ := of_filter_eq_some hy
      rcases hr y ha hv with hlt | ⟨hP, hlt, hpar⟩
      · refine .inl ⟨by simp [AbStore.best, hs, hy, not_le.2 hlt], fun z hz _ => ?_⟩
        obtain rfl := Option.some.inj (ha.symm.trans hz)
        exact hlt
      · exact .inr ⟨y, by simp [AbStore.best, hs, hy, hlt.le], hv, hP, hlt, hpar, ha⟩

/-- **Reading a store in use** returns its base or a newer record that satisfies `P`, and what is
read becomes the base of the store. -/
theorem Holds.best (h : Holds valid gen s base P) :
    ∃ x, best valid gen s = some x ∧ (x = base ∨ (P x ∧ gen base < gen x)) ∧
      Holds valid gen s x (fun _ => False) := by
  rcases h.best_cases with ⟨hb, hlt⟩ | ⟨x, hb, hv, hP, hlt, hpar, hx⟩
  · exact ⟨base, hb, .inl rfl, h.stored, h.accepted, fun y hy hv => .inl (hlt y hy hv)⟩
  · refine ⟨x, hb, .inr ⟨hP, hlt⟩, by rw [hpar, hx], hv, fun y hy _ => .inl ?_⟩
    rw [hpar, Side.other_other, h.stored, Option.some.injEq] at hy
    exact hy ▸ hlt

/-- With nothing newer in the other slot, reading returns the base. -/
theorem Holds.best_eq (h : Holds valid gen s base (fun _ => False)) :
    AbStore.best valid gen s = some base := by
  obtain ⟨x, hx, rfl | ⟨hfalse, -⟩, -⟩ := h.best
  · exact hx
  · exact hfalse.elim

theorem Holds.mono {Q : β → Prop} (h : Holds valid gen s base P) (hPQ : ∀ y, P y → Q y) :
    Holds valid gen s base Q :=
  ⟨h.stored, h.accepted, fun y hy hv => (h.rest y hy hv).imp_right (.imp_left (hPQ y))⟩

/-- A record in the other slot that fails the check is not found. -/
theorem Holds.spoil (h : Holds valid gen s base P) {x : β} (hx : valid x = false) :
    Holds valid gen (s.set (sideOf (gen base)).other (some x)) base (fun _ => False) := by
  refine ⟨by rw [Slots.get_set_of_ne _ (Side.other_ne _).symm, h.stored], h.accepted,
    fun y hy hv => ?_⟩
  rw [Slots.get_set_self, Option.some.injEq] at hy
  rw [← hy, hx] at hv
  cases hv

/-- **A write to the other slot that does not succeed** keeps the base; the new record joins the
newer ones that may be found there. -/
theorem Holds.leave (h : Holds valid gen s base P) {x : β} (hlt : gen base < gen x)
    (hside : sideOf (gen x) = (sideOf (gen base)).other) (r : Residue valid) :
    Holds valid gen (s.leave (sideOf (gen x)) x r) base (fun y => P y ∨ y = x) := by
  rw [hside]
  cases r with
  | old => exact h.mono fun y hy => .inl hy
  | new =>
    refine ⟨?_, h.accepted, fun y hy _ => .inr ?_⟩
    · rw [Slots.leave, Slots.get_set_of_ne _ (Side.other_ne _).symm, h.stored]
    · simp only [Slots.leave, Slots.get_set_self, Option.some.injEq] at hy
      exact ⟨.inr hy.symm, hy ▸ hlt, hy ▸ hside⟩
  | torn z hz => exact (h.spoil hz).mono fun _ hf => hf.elim

/-- **A write to the other slot that succeeds** makes the new record the base. -/
theorem Holds.replace (h : Holds valid gen s base P) {x : β} (hv : valid x = true)
    (hlt : gen base < gen x) (hside : sideOf (gen x) = (sideOf (gen base)).other) :
    Holds valid gen (s.set (sideOf (gen x)) (some x)) x (fun _ => False) := by
  refine ⟨by simp, hv, fun y hy _ => .inl ?_⟩
  rw [Slots.get_set_other, hside, Side.other_other, h.stored, Option.some.injEq] at hy
  exact hy ▸ hlt

/-! ## Numbering after the newest record -/

/-- Every record that passes the check is in the slot of its generation. -/
def InPlace (valid : β → Bool) (gen : β → ℕ) (s : Slots β) : Prop :=
  ∀ side x, s.get side = some x → valid x = true → sideOf (gen x) = side

theorem inPlace_empty : InPlace valid gen Slots.empty := by
  rintro (_ | _) x h
  · cases h
  · cases h

theorem InPlace.set (h : InPlace valid gen s) {x : β} :
    InPlace valid gen (s.set (sideOf (gen x)) (some x)) := by
  intro side y hy hv
  by_cases hside : side = sideOf (gen x)
  · subst hside
    rw [Slots.get_set_self] at hy
    rw [Option.some.inj hy]
  · rw [Slots.get_set_of_ne s hside] at hy
    exact h side y hy hv

theorem InPlace.leave (h : InPlace valid gen s) {x : β} (r : Residue valid) :
    InPlace valid gen (s.leave (sideOf (gen x)) x r) := by
  cases r with
  | old => exact h
  | new => exact h.set
  | torn z hz =>
    intro side y hy hv
    by_cases hside : side = sideOf (gen x)
    · subst hside
      simp only [Slots.leave, Slots.get_set_self, Option.some.injEq] at hy
      rw [← hy, hz] at hv
      cases hv
    · rw [Slots.leave, Slots.get_set_of_ne s hside] at hy
      exact h side y hy hv

theorem best_eq_none_iff :
    AbStore.best valid gen s = none ↔ ∀ side y, s.get side = some y → valid y = false := by
  constructor
  · intro h side y hy
    by_contra hv
    rw [Bool.not_eq_false] at hv
    have hf := filter_eq_some_of_valid hy hv
    cases side with
    | a =>
      change s.a.filter (valid ·) = some y at hf
      rw [AbStore.best, hf] at h
      cases hb : s.b.filter (valid ·) with
      | none => simp [hb] at h
      | some z =>
        rw [hb] at h
        dsimp only at h
        split at h <;> cases h
    | b =>
      change s.b.filter (valid ·) = some y at hf
      rw [AbStore.best, hf] at h
      cases ha : s.a.filter (valid ·) with
      | none => simp [ha] at h
      | some z =>
        rw [ha] at h
        dsimp only at h
        split at h <;> cases h
  · intro h
    have ha : s.a.filter (valid ·) = none := by
      cases ha : s.a with
      | none => rfl
      | some y => simp [Option.filter, h .a y ha]
    have hb : s.b.filter (valid ·) = none := by
      cases hb : s.b with
      | none => rfl
      | some y => simp [Option.filter, h .b y hb]
    simp [AbStore.best, ha, hb]

theorem best_mem (h : AbStore.best valid gen s = some base) :
    valid base = true ∧ ∃ side, s.get side = some base := by
  unfold AbStore.best at h
  split at h
  next x y hx hy =>
    obtain ⟨ha, hva⟩ := of_filter_eq_some hx
    obtain ⟨hb, hvb⟩ := of_filter_eq_some hy
    split at h
    · obtain rfl := Option.some.inj h
      exact ⟨hva, .a, ha⟩
    · obtain rfl := Option.some.inj h
      exact ⟨hvb, .b, hb⟩
  next x hx _ =>
    obtain ⟨ha, hva⟩ := of_filter_eq_some hx
    obtain rfl := Option.some.inj h
    exact ⟨hva, .a, ha⟩
  next hy =>
    obtain ⟨hb, hvb⟩ := of_filter_eq_some h
    exact ⟨hvb, .b, hb⟩

theorem le_gen_best (h : AbStore.best valid gen s = some base) {side : Side} {y : β}
    (hy : s.get side = some y) (hv : valid y = true) : gen y ≤ gen base := by
  have hf := filter_eq_some_of_valid hy hv
  unfold AbStore.best at h
  cases side with
  | a =>
    change s.a.filter (valid ·) = some y at hf
    rw [hf] at h
    split at h
    next x z hx hz =>
      obtain rfl := Option.some.inj hx
      split at h
      · exact (Option.some.inj h) ▸ le_rfl
      next hlt => exact (Option.some.inj h) ▸ (not_le.1 hlt).le
    next x hx _ => exact (Option.some.inj (hx.trans h)) ▸ le_rfl
    next hx => cases hx
  | b =>
    change s.b.filter (valid ·) = some y at hf
    rw [hf] at h
    split at h
    next x z hx hz =>
      obtain rfl := Option.some.inj hz
      split at h
      next hle => exact (Option.some.inj h) ▸ hle
      · exact (Option.some.inj h) ▸ le_rfl
    next hx => cases hx
    next => exact (Option.some.inj h) ▸ le_rfl

/-- The newest record of a store whose records are in place is its base. -/
theorem InPlace.holds (h : InPlace valid gen s) (hb : AbStore.best valid gen s = some base) :
    Holds valid gen s base (fun _ => False) := by
  obtain ⟨hv, side, hside⟩ := best_mem hb
  have hplace := h side base hside hv
  refine ⟨by rw [hplace, hside], hv, fun y hy hvy => .inl ?_⟩
  have hle := le_gen_best hb hy hvy
  have hne : gen y ≠ gen base := by
    intro heq
    have hother := h _ y hy hvy
    rw [heq] at hother
    exact Side.other_ne _ hother.symm
  omega

/-- The first valid record of a store is its newest. -/
theorem best_set_of_none (h : AbStore.best valid gen s = none) {x : β} (hv : valid x = true)
    (side : Side) : AbStore.best valid gen (s.set side (some x)) = some x := by
  have hnone := best_eq_none_iff.1 h
  rcases hb : AbStore.best valid gen (s.set side (some x)) with _ | y
  · have := best_eq_none_iff.1 hb side x (Slots.get_set_self ..)
    rw [hv] at this
    cases this
  · obtain ⟨hvy, t, hy⟩ := best_mem hb
    by_cases ht : t = side
    · subst ht
      rw [Slots.get_set_self] at hy
      exact hy.symm
    · rw [Slots.get_set_of_ne s ht] at hy
      rw [hnone t y hy] at hvy
      cases hvy

/-- **A write numbered after the newest record**: when it succeeds the new record is the newest;
otherwise the newest is the old one or the new one. -/
theorem InPlace.best_writeBlob {ε : Type*} (h : InPlace valid gen s) {x : β} (hv : valid x = true)
    (hnext : gen x = ((AbStore.best valid gen s).map gen).getD 0 + 1) (f : WriteFault ε valid) :
    ((AbStore.writeBlob f (sideOf (gen x)) x s).1 = .success →
      AbStore.best valid gen (AbStore.writeBlob f (sideOf (gen x)) x s).2 = some x) ∧
    (AbStore.best valid gen (AbStore.writeBlob f (sideOf (gen x)) x s).2 =
        AbStore.best valid gen s ∨
      AbStore.best valid gen (AbStore.writeBlob f (sideOf (gen x)) x s).2 = some x) := by
  have hset : AbStore.best valid gen (s.set (sideOf (gen x)) (some x)) = some x := by
    cases hb : AbStore.best valid gen s with
    | none => exact best_set_of_none hb hv _
    | some base =>
      rw [hb] at hnext
      have hside : sideOf (gen x) = (sideOf (gen base)).other := by
        rw [hnext]
        exact sideOf_succ _
      have hlt : gen base < gen x := by
        rw [hnext]
        exact Nat.lt_succ_self _
      exact ((h.holds hb).replace hv hlt hside).best_eq
  rcases writeBlob_cases f (sideOf (gen x)) x s with ⟨heq, -⟩ | ⟨e, r, he, hne, -, heq⟩ | ⟨e, heq, -⟩
  · rw [heq]
    exact ⟨fun _ => hset, .inr hset⟩
  · rw [heq]
    refine ⟨fun hs => absurd (he.symm.trans hs) hne, ?_⟩
    cases r with
    | old => exact .inl rfl
    | new => exact .inr hset
    | torn z hz =>
      left
      cases hb : AbStore.best valid gen s with
      | none =>
        refine best_eq_none_iff.2 fun side y hy => ?_
        by_cases hside : side = sideOf (gen x)
        · subst hside
          simp only [Slots.leave, Slots.get_set_self, Option.some.injEq] at hy
          rw [← hy, hz]
        · rw [Slots.leave, Slots.get_set_of_ne s hside] at hy
          exact best_eq_none_iff.1 hb side y hy
      | some base =>
        rw [hb] at hnext
        have hside : sideOf (gen x) = (sideOf (gen base)).other := by
          rw [hnext]
          exact sideOf_succ _
        -- the torn slot is the other one, so only the base is left
        have hheld : Holds valid gen (s.leave (sideOf (gen x)) x (.torn z hz)) base
            (fun _ => False) := by
          rw [Slots.leave, hside]
          exact (h.holds hb).spoil hz
        exact hheld.best_eq
  · rw [heq]
    exact ⟨(fun hs => by cases hs), .inl rfl⟩

theorem InPlace.writeBlob {ε : Type*} (h : InPlace valid gen s) {x : β} (f : WriteFault ε valid) :
    InPlace valid gen (AbStore.writeBlob f (sideOf (gen x)) x s).2 := by
  rcases writeBlob_cases f (sideOf (gen x)) x s with ⟨heq, -⟩ | ⟨e, r, -, -, -, heq⟩ | ⟨e, heq, -⟩
  · rw [heq]
    exact h.set
  · rw [heq]
    exact h.leave r
  · rw [heq]
    exact h

end

end PowerMonitor.AbStore
