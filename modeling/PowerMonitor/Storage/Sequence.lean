import PowerMonitor.Esp
import PowerMonitor.Config.Crc32
import PowerMonitor.Foundations.SelectorStore

/-!
# Sequence numbers

`pm_sequence.c`: the numbers of the journal's records are reserved in blocks, and every number is
made durable before it is handed out. The state is kept in the NVS namespace `pm_sequence`, in two
slots and the selector `active`.

* `persist` writes the slot that the selector does not name, reads it back and moves the selector;
  `persist_cases` lists what it can do.
* `pmSequenceLoad` takes the slot with the greater generation; `pmSequenceLoad_ok` says what a load
  that succeeds returns, in terms of the reader of `SelectorStore`.
* `pmSequenceNext`, `pmSequenceAcknowledge` and `pmSequenceRaiseFloor` each persist a candidate
  before the caller's state takes it.
-/

namespace PowerMonitor.Storage

open CMemory AbStore SelectorStore Config

/-- `UINT64_MAX`. -/
def uint64Max : ℕ := 2 ^ 64 - 1

/-- `PM_SEQUENCE_RESERVATION_BLOCK`. -/
def sequenceReservationBlock : ℕ := 64

/-- `pm_sequence_state_t`. -/
structure SequenceState where
  nextSequence : ℕ
  reservedThrough : ℕ
  maximumSeen : ℕ
  acknowledged : ℕ
  resetGeneration : ℕ
  generation : ℕ
  deriving DecidableEq, Repr

/-- `(pm_sequence_state_t){.next_sequence = 1U, .reserved_through = 0U}`. -/
def SequenceState.first : SequenceState := ⟨1, 0, 0, 0, 0, 0⟩

/-- The memory of a state. -/
def SequenceState.memory (st : SequenceState) : List UInt8 :=
  le 8 st.nextSequence ++ le 8 st.reservedThrough ++ le 8 st.maximumSeen ++ le 8 st.acknowledged ++
    le 4 st.resetGeneration ++ le 4 st.generation

/-- `sequence_slot_t`. -/
structure SequenceSlot where
  state : SequenceState
  crc32 : UInt32
  deriving DecidableEq

/-- `slot_crc`. -/
def slotCrc (slot : SequenceSlot) : UInt32 := pmCrc32Ieee slot.state.memory

/-- `slot_valid`. -/
def slotValid (slot : SequenceSlot) : Bool :=
  decide (0 < slot.state.nextSequence) &&
  decide (slot.state.nextSequence - 1 ≤ slot.state.reservedThrough) &&
  decide (slot.state.maximumSeen < slot.state.nextSequence) &&
  decide (slot.state.acknowledged ≤ slot.state.maximumSeen) &&
  slot.crc32 = slotCrc slot

/-- `slot->state.generation`. -/
def SequenceSlot.generation (slot : SequenceSlot) : ℕ := slot.state.generation

/-- Slots that pass the check are the same if their states are. -/
theorem slot_ext {x y : SequenceSlot} (hx : slotValid x = true) (hy : slotValid y = true)
    (h : x.state = y.state) : x = y := by
  have hcrc : ∀ {z}, slotValid z = true → z.crc32 = slotCrc z := fun hz => by
    simp only [slotValid, Bool.and_eq_true, decide_eq_true_eq] at hz
    exact hz.2
  obtain ⟨sx, cx⟩ := x
  obtain ⟨sy, cy⟩ := y
  obtain rfl : sx = sy := h
  have hcx := hcrc hx
  have hcy := hcrc hy
  simp only [slotCrc] at hcx hcy
  rw [hcx, hcy]

/-! ## Writing -/

/-- How `nvs_set_blob` and the `nvs_commit` after it end, and what they leave in the slot. -/
inductive BlobWrite
  | done
  | fails (e : Failure) (left : Residue slotValid)
  | powerLoss (left : Residue slotValid)

/-- What the NVS calls of one `persist` meet. -/
structure PersistFaults where
  opened : NvsRead := .ok
  selector : NvsRead := .ok
  blob : BlobWrite := .done
  verify : NvsRead := .ok
  select : NvsWrite := .done

/-- The flash of the namespace: the slots, and the value of `active`. -/
structure SequenceFlash where
  slots : Slots SequenceSlot
  active : Option UInt8
  deriving DecidableEq

/-- A flash that was never written. -/
def SequenceFlash.empty : SequenceFlash := ⟨Slots.empty, none⟩

/-- The value of `active` that names a slot. -/
def sideKey : Side → UInt8
  | .a => 0x41
  | .b => 0x42

/-- The slot that a value of `active` names. -/
def keySide (key : UInt8) : Option Side :=
  if key = 0x41 then some .a else if key = 0x42 then some .b else none

@[simp] theorem keySide_sideKey (side : Side) : keySide (sideKey side) = some side := by
  cases side <;> rfl

/-- The slot that the selector names. -/
def SequenceFlash.selector (flash : SequenceFlash) : Option Side := flash.active.bind keySide

/-- `read_slot`; `none` when power is lost under it. -/
def readSlot (slot : Option SequenceSlot) : NvsRead → Option (Except EspErr SequenceSlot)
  | .powerLoss => none
  | .fails e => some (.error e.1)
  | .ok =>
    match slot with
    | none => some (.error .nvsNotFound)
    | some x => some (if slotValid x then .ok x else .error .invalidCrc)

/-- One call: its result, and the caller's state and the flash afterwards. -/
structure SequenceCall where
  result : CallEnd
  state : SequenceState
  flash : SequenceFlash
  deriving DecidableEq

/-- The slot that `persist` writes for a state. -/
def nextSlot (st : SequenceState) : SequenceSlot :=
  let slot : SequenceSlot := ⟨{ st with generation := st.generation + 1 }, 0⟩
  { slot with crc32 := slotCrc slot }

/-- The part of `persist` from `nvs_set_blob` on. -/
def persistSlot (st : SequenceState) (flash : SequenceFlash) (inactive : Side) (f : PersistFaults) :
    SequenceCall :=
  let slot := nextSlot st
  let left (r : Residue slotValid) : SequenceFlash :=
    { flash with slots := flash.slots.leave inactive slot r }
  match f.blob with
  | .powerLoss r => ⟨none, st, left r⟩
  | .fails e r => ⟨some e.1, st, left r⟩
  | .done =>
    let written := left .new
    match readSlot (written.slots.get inactive) f.verify with
    | none => ⟨none, st, written⟩
    | some (.error e) => ⟨some e, st, written⟩
    | some (.ok verified) =>
      if verified ≠ slot then ⟨some .fail, st, written⟩
      else
        let selected : SequenceFlash :=
          if f.select.landed then { written with active := some (sideKey inactive) } else written
        match f.select.result with
        | none => ⟨none, st, selected⟩
        | some e => ⟨some e, if e = .ok then slot.state else st, selected⟩

/-- `persist`. -/
def persist (st : SequenceState) (flash : SequenceFlash) (f : PersistFaults) : SequenceCall :=
  if st.generation = uint32Max then ⟨some .invalidState, st, flash⟩
  else
    match f.opened, f.selector with
    | .powerLoss, _ => ⟨none, st, flash⟩
    | .fails e, _ => ⟨some e.1, st, flash⟩
    | .ok, .powerLoss => ⟨none, st, flash⟩
    | .ok, .fails e => ⟨some e.1, st, flash⟩
    | .ok, .ok =>
      match flash.active with
      | none =>
        if st.generation ≠ 0 then ⟨some .nvsNotFound, st, flash⟩
        else persistSlot st flash (target none) f
      | some active =>
        match keySide active with
        | none => ⟨some .invalidState, st, flash⟩
        | some side => persistSlot st flash (target (some side)) f

/-- What `nvs_set_blob` left in the slot. -/
def BlobWrite.left : BlobWrite → Residue slotValid
  | done => .new
  | fails _ r | powerLoss r => r

@[simp] theorem nextSlot_generation (st : SequenceState) :
    (nextSlot st).generation = st.generation + 1 := rfl

theorem readSlot_ne_ok {slot : Option SequenceSlot} {n : NvsRead} {e : EspErr}
    (h : readSlot slot n = some (.error e)) : e ≠ .ok := by
  cases n with
  | powerLoss => cases h
  | fails e' =>
    obtain rfl : e'.1 = e := by simpa [readSlot] using h
    exact e'.2.1
  | ok =>
    cases slot with
    | none =>
      obtain rfl : EspErr.nvsNotFound = e := by simpa [readSlot] using h
      decide
    | some x =>
      simp only [readSlot] at h
      split at h <;> cases h
      decide

/-- A read that succeeds returns what the slot holds, which passes the check. -/
theorem readSlot_ok {slot : Option SequenceSlot} {n : NvsRead} {x : SequenceSlot}
    (h : readSlot slot n = some (.ok x)) : slot = some x ∧ slotValid x = true := by
  cases n with
  | powerLoss => cases h
  | fails e => cases h
  | ok =>
    cases slot with
    | none => cases h
    | some y =>
      simp only [readSlot] at h
      split at h
      next hv =>
        obtain rfl : y = x := by simpa using h
        exact ⟨rfl, hv⟩
      next => cases h

/-- A read finds no slot only if there is none. -/
theorem readSlot_notFound {slot : Option SequenceSlot} {n : NvsRead}
    (h : readSlot slot n = some (.error .nvsNotFound)) : slot = none := by
  cases n with
  | powerLoss => cases h
  | fails e => exact absurd (by simpa [readSlot] using h) e.2.2
  | ok =>
    cases slot with
    | none => rfl
    | some y =>
      simp only [readSlot] at h
      split at h <;> cases h

/-- How a `persist` ended that did not succeed, with what it left behind. -/
inductive Unconfirmed (st : SequenceState) (flash : SequenceFlash) (f : PersistFaults) (e : CallEnd) :
    SequenceFlash → Prop
  | refused : Unconfirmed st flash f e flash
  | left : Unconfirmed st flash f e { flash with
      slots := flash.slots.leave (target flash.selector) (nextSlot st) f.blob.left }
  | selected (hlanded : f.select.landed = true) (hresult : f.select.result = e) :
      Unconfirmed st flash f e ⟨flash.slots.set (target flash.selector) (some (nextSlot st)),
        some (sideKey (target flash.selector))⟩

/-- **What a persist can do**: it returns `ESP_OK`, and the slot that was not named holds the next
state and is named; or the caller's state stays as it was. -/
theorem persist_cases (st : SequenceState) (flash : SequenceFlash) (f : PersistFaults) :
    (slotValid (nextSlot st) = true ∧ persist st flash f = ⟨some .ok, (nextSlot st).state,
      ⟨flash.slots.set (target flash.selector) (some (nextSlot st)),
        some (sideKey (target flash.selector))⟩⟩) ∨
    ∃ e flash', e ≠ some .ok ∧ Unconfirmed st flash f e flash' ∧
      persist st flash f = ⟨e, st, flash'⟩ := by
  have hslot : (slotValid (nextSlot st) = true ∧ persistSlot st flash (target flash.selector) f =
      ⟨some .ok, (nextSlot st).state, ⟨flash.slots.set (target flash.selector) (some (nextSlot st)),
        some (sideKey (target flash.selector))⟩⟩) ∨
      ∃ e flash', e ≠ some .ok ∧ Unconfirmed st flash f e flash' ∧
        persistSlot st flash (target flash.selector) f = ⟨e, st, flash'⟩ := by
    unfold persistSlot
    have hleft : ∀ e r, f.blob.left = r → Unconfirmed st flash f e { flash with
        slots := flash.slots.leave (target flash.selector) (nextSlot st) r } := by
      rintro e _ rfl
      exact .left
    cases hblob : f.blob with
    | powerLoss r => exact .inr ⟨none, _, by simp, hleft none r (by rw [hblob]; rfl), rfl⟩
    | fails e r =>
      exact .inr ⟨some e.1, _, by simpa using e.2, hleft (some e.1) r (by rw [hblob]; rfl), rfl⟩
    | done =>
      replace hleft := fun e => hleft e .new (by rw [hblob]; rfl)
      simp only [Slots.leave, Slots.get_set_self] at hleft ⊢
      rcases hread : readSlot (some (nextSlot st)) f.verify with _ | e | x
      · exact .inr ⟨none, _, by simp, hleft none, rfl⟩
      · exact .inr ⟨some e, _, by simpa using readSlot_ne_ok hread, hleft _, rfl⟩
      · obtain ⟨hx, hv⟩ := readSlot_ok hread
        obtain rfl := Option.some.inj hx
        simp only [ne_eq, not_true_eq_false, if_false]
        by_cases hlanded : f.select.landed = true
        · simp only [hlanded, if_true]
          rcases hresult : f.select.result with _ | e
          · exact .inr ⟨none, _, by simp, .selected hlanded hresult, rfl⟩
          · by_cases he : e = .ok
            · subst he
              exact .inl ⟨hv, by simp⟩
            · exact .inr ⟨some e, _, by simpa using he, .selected hlanded hresult, by simp [he]⟩
        · rcases hresult : f.select.result with _ | e
          · exact .inr ⟨none, _, by simp, hleft none, by simp [hlanded]⟩
          · have he : e ≠ .ok := fun he => hlanded (NvsWrite.landed_of_ok (he ▸ hresult))
            exact .inr ⟨some e, _, by simpa using he, hleft _, by simp [hlanded, he]⟩
  unfold persist
  split
  · exact .inr ⟨some .invalidState, flash, by decide, .refused, rfl⟩
  cases f.opened with
  | powerLoss => exact .inr ⟨none, flash, by simp, .refused, rfl⟩
  | fails e => exact .inr ⟨some e.1, flash, by simpa using e.2.1, .refused, rfl⟩
  | ok =>
    cases f.selector with
    | powerLoss => exact .inr ⟨none, flash, by simp, .refused, rfl⟩
    | fails e => exact .inr ⟨some e.1, flash, by simpa using e.2.1, .refused, rfl⟩
    | ok =>
      cases hactive : flash.active with
      | none =>
        by_cases hgen : st.generation = 0
        · have hselector : flash.selector = none := by simp [SequenceFlash.selector, hactive]
          simpa [hgen, hselector] using hslot
        · exact .inr ⟨some .nvsNotFound, flash, by decide, .refused, by simp [hgen]⟩
      | some active =>
        cases hside : keySide active with
        | none => exact .inr ⟨some .invalidState, flash, by decide, .refused, by simp [hside]⟩
        | some side =>
          have hselector : flash.selector = some side := by
            simp [SequenceFlash.selector, hactive, hside]
          simpa [hside, hselector] using hslot

/-! ## The functions of the source -/

/-- What the NVS calls of one `pm_sequence_load` meet. -/
structure LoadFaults where
  opened : NvsRead := .ok
  readA : NvsRead := .ok
  readB : NvsRead := .ok
  persist : PersistFaults := {}

/-- The end of `pm_sequence_load`: a reservation that was not used up is skipped. -/
def skipReservation (st : SequenceState) : Option SequenceState :=
  if st.reservedThrough < st.nextSequence then some st
  else if st.reservedThrough = uint64Max then none
  else some { st with nextSequence := st.reservedThrough + 1 }

/-- The end of `pm_sequence_load`, from the slot that was selected. -/
def takeSlot (slot : SequenceSlot) (flash : SequenceFlash) : SequenceCall :=
  match skipReservation slot.state with
  | none => ⟨some .invalidState, slot.state, flash⟩
  | some st => ⟨some .ok, st, flash⟩

@[simp] theorem flash_takeSlot (slot : SequenceSlot) (flash : SequenceFlash) :
    (takeSlot slot flash).flash = flash := by
  unfold takeSlot
  split <;> rfl

theorem takeSlot_ok {slot : SequenceSlot} {flash : SequenceFlash}
    (h : (takeSlot slot flash).result = some .ok) :
    ∃ st, skipReservation slot.state = some st ∧ takeSlot slot flash = ⟨some .ok, st, flash⟩ := by
  unfold takeSlot at h ⊢
  cases hskip : skipReservation slot.state with
  | none =>
    rw [hskip] at h
    cases h
  | some st => exact ⟨st, rfl, rfl⟩

/-- `pm_sequence_load`, into the caller's `state`. -/
def pmSequenceLoad (state : SequenceState) (flash : SequenceFlash) (f : LoadFaults) :
    SequenceCall :=
  let refuse (e : EspErr) : SequenceCall := ⟨some e, state, flash⟩
  match f.opened with
  | .powerLoss => ⟨none, state, flash⟩
  | .fails e => refuse e.1
  | .ok =>
    match readSlot flash.slots.a f.readA, readSlot flash.slots.b f.readB with
    | none, _ => ⟨none, state, flash⟩
    | some _, none => ⟨none, state, flash⟩
    | some (.error ea), some (.error eb) =>
      if ea ≠ .nvsNotFound ∨ eb ≠ .nvsNotFound then
        refuse (if ea ≠ .nvsNotFound then ea else eb)
      else persist SequenceState.first flash f.persist
    | some (.error ea), some (.ok b) => if ea ≠ .nvsNotFound then refuse ea else takeSlot b flash
    | some (.ok a), some (.error eb) => if eb ≠ .nvsNotFound then refuse eb else takeSlot a flash
    | some (.ok a), some (.ok b) =>
      if a.generation = b.generation ∧ a.state ≠ b.state then refuse .invalidState
      else takeSlot (if b.generation ≤ a.generation then a else b) flash

theorem slots_eq_empty {slots : Slots SequenceSlot} (ha : slots.a = none) (hb : slots.b = none) :
    slots = Slots.empty := by
  obtain ⟨a, b⟩ := slots
  obtain rfl : a = none := ha
  obtain rfl : b = none := hb
  rfl

/-- A load changes the flash only if both slots are missing. -/
theorem flash_pmSequenceLoad (st : SequenceState) (flash : SequenceFlash) (f : LoadFaults) :
    (pmSequenceLoad st flash f).flash = flash ∨ flash.slots = Slots.empty ∧
      pmSequenceLoad st flash f = persist SequenceState.first flash f.persist := by
  unfold pmSequenceLoad
  cases f.opened with
  | powerLoss => exact .inl rfl
  | fails e => exact .inl rfl
  | ok =>
    rcases ha : readSlot flash.slots.a f.readA with _ | ea | a <;>
      rcases hb : readSlot flash.slots.b f.readB with _ | eb | b <;> dsimp only
    case some.error.some.error =>
      split
      · exact .inl rfl
      next hmissing =>
        rw [not_or, not_not, not_not] at hmissing
        obtain ⟨rfl, rfl⟩ := hmissing
        exact .inr ⟨slots_eq_empty (readSlot_notFound ha) (readSlot_notFound hb), rfl⟩
    all_goals first | exact .inl rfl | split
    all_goals first | exact .inl rfl | exact .inl (flash_takeSlot ..)

/-- One slot that passes the check, and the other one missing. -/
theorem clear_of_one {slots : Slots SequenceSlot} (side : Side) {x : SequenceSlot}
    (hx : slots.get side = some x) (hv : slotValid x = true) (hnone : slots.get side.other = none) :
    best slotValid SequenceSlot.generation slots = some x ∧
      Clear slotValid SequenceSlot.generation slots := by
  obtain ⟨a, b⟩ := slots
  cases side <;> obtain rfl := hx <;> obtain rfl := hnone
  · refine ⟨by simp [best, Option.filter_some, hv], ⟨?_, fun y z _ hz => by cases hz⟩⟩
    rintro (_ | _) y hy <;> cases hy
    exact hv
  · refine ⟨by simp [best, Option.filter_some, hv], ⟨?_, fun y z hy => by cases hy⟩⟩
    rintro (_ | _) y hy <;> cases hy
    exact hv

/-- Two slots that pass the check, without a conflict between them. -/
theorem clear_of_two {slots : Slots SequenceSlot} {a b : SequenceSlot} (ha : slots.a = some a)
    (hb : slots.b = some b) (hva : slotValid a = true) (hvb : slotValid b = true)
    (hconflict : ¬(a.generation = b.generation ∧ a.state ≠ b.state)) :
    best slotValid SequenceSlot.generation slots =
        some (if b.generation ≤ a.generation then a else b) ∧
      Clear slotValid SequenceSlot.generation slots := by
  obtain ⟨_, _⟩ := slots
  obtain rfl := ha
  obtain rfl := hb
  refine ⟨?_, ⟨?_, fun y z hy hz hgen => ?_⟩⟩
  · simp only [best, Option.filter_some, hva, hvb, if_true]
    split <;> rfl
  · rintro (_ | _) y hy <;> cases hy
    · exact hva
    · exact hvb
  · obtain rfl := Option.some.inj hy
    obtain rfl := Option.some.inj hz
    by_contra hne
    exact hconflict ⟨hgen, fun hstate => hne (slot_ext hva hvb hstate)⟩

/-- **What a load that succeeds returns**: the newest state, past its reservation, from slots that
no reader is refused; or both slots are missing and it stored the first state. -/
theorem pmSequenceLoad_ok {st : SequenceState} {flash : SequenceFlash} {f : LoadFaults}
    (h : (pmSequenceLoad st flash f).result = some .ok) :
    (flash.slots = Slots.empty ∧
      pmSequenceLoad st flash f = persist SequenceState.first flash f.persist) ∨
    ∃ slot st', best slotValid SequenceSlot.generation flash.slots = some slot ∧
      Clear slotValid SequenceSlot.generation flash.slots ∧
      skipReservation slot.state = some st' ∧ pmSequenceLoad st flash f = ⟨some .ok, st', flash⟩ := by
  unfold pmSequenceLoad at h ⊢
  cases hopen : f.opened with
  | powerLoss => simp [hopen] at h
  | fails e => exact absurd (by simpa [hopen] using h) e.2.1
  | ok =>
    rw [hopen] at h
    rcases ha : readSlot flash.slots.a f.readA with _ | ea | a <;>
      rcases hb : readSlot flash.slots.b f.readB with _ | eb | b <;> rw [ha, hb] at h <;>
      dsimp only at h ⊢
    case some.error.some.error =>
      split at h
      · have hok := Option.some.inj h
        split at hok
        · exact absurd hok (readSlot_ne_ok ha)
        · exact absurd hok (readSlot_ne_ok hb)
      next hmissing =>
        rw [if_neg hmissing]
        rw [not_or, not_not, not_not] at hmissing
        obtain ⟨rfl, rfl⟩ := hmissing
        exact .inl ⟨slots_eq_empty (readSlot_notFound ha) (readSlot_notFound hb), rfl⟩
    case some.error.some.ok =>
      split at h
      · exact absurd (Option.some.inj h) (readSlot_ne_ok ha)
      next hmissing =>
        rw [if_neg hmissing]
        obtain rfl := not_not.1 hmissing
        obtain ⟨st', hskip, hcall⟩ := takeSlot_ok h
        obtain ⟨hstored, hv⟩ := readSlot_ok hb
        obtain ⟨hbest, hclear⟩ := clear_of_one .b hstored hv (readSlot_notFound ha)
        exact .inr ⟨b, st', hbest, hclear, hskip, hcall⟩
    case some.ok.some.error =>
      split at h
      · exact absurd (Option.some.inj h) (readSlot_ne_ok hb)
      next hmissing =>
        rw [if_neg hmissing]
        obtain rfl := not_not.1 hmissing
        obtain ⟨st', hskip, hcall⟩ := takeSlot_ok h
        obtain ⟨hstored, hv⟩ := readSlot_ok ha
        obtain ⟨hbest, hclear⟩ := clear_of_one .a hstored hv (readSlot_notFound hb)
        exact .inr ⟨a, st', hbest, hclear, hskip, hcall⟩
    case some.ok.some.ok =>
      split at h
      · cases h
      next hconflict =>
        rw [if_neg hconflict]
        obtain ⟨st', hskip, hcall⟩ := takeSlot_ok h
        obtain ⟨hsa, hva⟩ := readSlot_ok ha
        obtain ⟨hsb, hvb⟩ := readSlot_ok hb
        obtain ⟨hbest, hclear⟩ := clear_of_two hsa hsb hva hvb hconflict
        exact .inr ⟨_, st', hbest, hclear, hskip, hcall⟩
    all_goals exact absurd h (by simp)

/-- The state of `pm_sequence_next` once its block is reserved. -/
def allocate (st : SequenceState) : SequenceState :=
  { st with nextSequence := st.nextSequence + 1, maximumSeen := st.nextSequence }

/-- The state that `pm_sequence_next` reserves a block for. -/
def reserve (st : SequenceState) : SequenceState :=
  { st with reservedThrough := st.nextSequence + sequenceReservationBlock - 1 }

/-- `pm_sequence_next`, and the number it hands out if it returns `ESP_OK`. -/
def pmSequenceNext (st : SequenceState) (flash : SequenceFlash) (reserving allocating : PersistFaults) :
    SequenceCall × ℕ :=
  let hand (st : SequenceState) (flash : SequenceFlash) : SequenceCall × ℕ :=
    let allocated := persist (allocate st) flash allocating
    (⟨allocated.result, if allocated.result = some .ok then allocated.state else st,
      allocated.flash⟩, st.nextSequence)
  if st.nextSequence = uint64Max then (⟨some .invalidArg, st, flash⟩, 0)
  else if st.reservedThrough < st.nextSequence then
    if uint64Max - st.nextSequence < sequenceReservationBlock - 1 then
      (⟨some .invalidSize, st, flash⟩, 0)
    else
      let reserved := persist (reserve st) flash reserving
      if reserved.result ≠ some .ok then (⟨reserved.result, st, reserved.flash⟩, 0)
      else hand reserved.state reserved.flash
  else hand st flash

/-- A call that persists a candidate, which the caller's state takes on success. -/
def persistCandidate (st candidate : SequenceState) (flash : SequenceFlash) (f : PersistFaults) :
    SequenceCall :=
  let persisted := persist candidate flash f
  ⟨persisted.result, if persisted.result = some .ok then persisted.state else st, persisted.flash⟩

/-- `pm_sequence_acknowledge`. -/
def pmSequenceAcknowledge (st : SequenceState) (flash : SequenceFlash) (acknowledged : ℕ)
    (f : PersistFaults) : SequenceCall :=
  if acknowledged < st.acknowledged ∨ st.maximumSeen < acknowledged then ⟨some .invalidArg, st, flash⟩
  else if acknowledged = st.acknowledged then ⟨some .ok, st, flash⟩
  else persistCandidate st { st with acknowledged := acknowledged } flash f

/-- The state that `pm_sequence_raise_floor` persists. -/
def raised (st : SequenceState) (floor resetGeneration : ℕ) : SequenceState :=
  { st with
    maximumSeen := floor
    nextSequence := floor + 1
    reservedThrough := floor
    acknowledged := floor
    resetGeneration := resetGeneration }

/-- `pm_sequence_raise_floor`. -/
def pmSequenceRaiseFloor (st : SequenceState) (flash : SequenceFlash) (floor resetGeneration : ℕ)
    (f : PersistFaults) : SequenceCall :=
  if floor = uint64Max then ⟨some .invalidArg, st, flash⟩
  else if resetGeneration = st.resetGeneration then
    if st.maximumSeen = floor ∧ st.nextSequence = floor + 1 ∧ st.reservedThrough = floor ∧
        st.acknowledged = floor then ⟨some .ok, st, flash⟩
    else ⟨some .invalidState, st, flash⟩
  else if floor < st.maximumSeen ∨ resetGeneration < st.resetGeneration then
    ⟨some .invalidArg, st, flash⟩
  else persistCandidate st (raised st floor resetGeneration) flash f

/-- A new device hands out the number one, and its block is reserved before it. -/
example : let booted := pmSequenceLoad SequenceState.first SequenceFlash.empty {}
    (pmSequenceNext booted.state booted.flash {} {}).2 = 1 ∧
    (pmSequenceNext booted.state booted.flash {} {}).1.state = ⟨2, 64, 1, 0, 0, 3⟩ := by
  decide +kernel

end PowerMonitor.Storage
