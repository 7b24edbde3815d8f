import PowerMonitor.Foundations.Runs
import PowerMonitor.Storage.Sequence

/-!
# Sequence numbers over all boots

A device that hands out sequence numbers: its flash, the state of `pm_sequence.c` while it runs, and
what it promised so far. A boot may come at any time, power may be lost in any call, and every NVS
call may fail; a write that does not succeed may leave its slot torn, and may move the selector.

* `Keeps` says that no boot finds a state behind the running one: `SelectorStore.Kept` of the flash.
  `load_keeps`, `next_keeps`, `acknowledge_keeps` and `raiseFloor_keeps` are the calls.
* `Promises.Covers` says that a state honours what was promised.
* `sequence_never_reused` and `promises_kept` are the results.
-/

namespace PowerMonitor.Storage

open AbStore SelectorStore Runs

/-- What a device promised, newest first. -/
structure Promises where
  /-- The numbers `pm_sequence_next` handed out. -/
  handedOut : List ℕ
  /-- The arguments with which `pm_sequence_acknowledge` returned `ESP_OK`, and the floors with
  which `pm_sequence_raise_floor` did. -/
  acknowledged : List ℕ
  /-- The reset generations with which `pm_sequence_raise_floor` returned `ESP_OK`. -/
  resets : List ℕ
  deriving DecidableEq

/-- A device. -/
structure Sequencer where
  flash : SequenceFlash
  running : Option SequenceState
  promised : Promises
  deriving DecidableEq

/-- A device that has promised nothing yet. -/
def Sequencer.new (flash : SequenceFlash) : Sequencer := ⟨flash, none, ⟨[], [], []⟩⟩

/-- What can happen to a device. -/
inductive SequencerAct
  | boot (f : LoadFaults)
  | next (reserving allocating : PersistFaults)
  | acknowledge (value : ℕ) (f : PersistFaults)
  | raiseFloor (floor resetGeneration : ℕ) (f : PersistFaults)

/-- The zeroed `s_sequence` of a boot. -/
def SequenceState.zero : SequenceState := ⟨0, 0, 0, 0, 0, 0⟩

/-- The device after a call: it is off if power was lost, and promises `p` if it succeeded. -/
def Sequencer.after (w : Sequencer) (c : SequenceCall) (p : Promises) : Sequencer where
  flash := c.flash
  running := if c.result = none then none else some c.state
  promised := if c.result = some .ok then p else w.promised

/-- One step of a device. `app_main` returns if the load of a boot fails. -/
def Sequencer.step (w : Sequencer) : SequencerAct → Sequencer
  | .boot f =>
    let c := pmSequenceLoad SequenceState.zero w.flash f
    { w with flash := c.flash, running := if c.result = some .ok then some c.state else none }
  | .next reserving allocating =>
    match w.running with
    | none => w
    | some st =>
      let (c, n) := pmSequenceNext st w.flash reserving allocating
      w.after c { w.promised with handedOut := n :: w.promised.handedOut }
  | .acknowledge value f =>
    match w.running with
    | none => w
    | some st =>
      w.after (pmSequenceAcknowledge st w.flash value f)
        { w.promised with acknowledged := value :: w.promised.acknowledged }
  | .raiseFloor floor resetGeneration f =>
    match w.running with
    | none => w
    | some st =>
      w.after (pmSequenceRaiseFloor st w.flash floor resetGeneration f)
        { w.promised with
          acknowledged := floor :: w.promised.acknowledged
          resets := resetGeneration :: w.promised.resets }

/-- The state `st'` is not behind `st`. -/
structure SequenceState.Within (st st' : SequenceState) : Prop where
  seen : st.maximumSeen ≤ st'.maximumSeen
  acknowledged : st.acknowledged ≤ st'.acknowledged
  reset : st.resetGeneration ≤ st'.resetGeneration

/-- The order of the numbers of a state. -/
structure SequenceState.Sane (st : SequenceState) : Prop where
  seen : st.maximumSeen < st.nextSequence
  acknowledged : st.acknowledged ≤ st.maximumSeen

/-- No boot finds a state behind `st`. -/
structure Keeps (flash : SequenceFlash) (st : SequenceState) : Prop where
  kept : Kept slotValid SequenceSlot.generation flash.slots flash.selector st.generation
    (fun slot => st.Within slot.state)
  sane : st.Sane

/-- A state honours what was promised. -/
structure Promises.Covers (p : Promises) (st : SequenceState) : Prop where
  handedOut : ∀ n ∈ p.handedOut, n ≤ st.maximumSeen
  acknowledged : ∀ n ∈ p.acknowledged, n ≤ st.acknowledged
  resets : ∀ n ∈ p.resets, n ≤ st.resetGeneration

/-- What was promised is in order. -/
structure Promises.Ordered (p : Promises) : Prop where
  handedOut : p.handedOut.Pairwise (· > ·)
  acknowledged : p.acknowledged.Pairwise (· ≥ ·)
  resets : p.resets.Pairwise (· ≥ ·)

section

variable {flash : SequenceFlash} {st st' : SequenceState}

theorem SequenceState.Within.refl (st : SequenceState) : st.Within st := ⟨le_rfl, le_rfl, le_rfl⟩

theorem SequenceState.Within.trans {a b c : SequenceState} (h : a.Within b) (h' : b.Within c) :
    a.Within c :=
  ⟨h.1.trans h'.1, h.2.trans h'.2, h.3.trans h'.3⟩

/-! ## One persist -/

theorem selector_sideKey (slots : Slots SequenceSlot) (side : Side) :
    (⟨slots, some (sideKey side)⟩ : SequenceFlash).selector = some side := keySide_sideKey side

theorem within_nextSlot (st : SequenceState) : st.Within (nextSlot st).state :=
  ⟨le_rfl, le_rfl, le_rfl⟩

/-- **A persist of a running device**: the flash keeps the candidate if it succeeds, and what it
kept before if it does not. -/
theorem Keeps.persist (h : Keeps flash st) (candidate : SequenceState)
    (hgen : candidate.generation = st.generation)
    (hwithin : st.Within candidate) (hsane : candidate.Sane) (f : PersistFaults) :
    let c := Storage.persist candidate flash f
    (c.result = some .ok ∧ c.state = (nextSlot candidate).state ∧ Keeps c.flash c.state) ∨
      (c.result ≠ some .ok ∧ Keeps c.flash st) := by
  have hkept := h.kept
  have hslot : st.Within (nextSlot candidate).state := hwithin.trans (within_nextSlot candidate)
  have hnext : (nextSlot candidate).generation = st.generation + 1 := by
    rw [nextSlot_generation, hgen]
  rcases persist_cases candidate flash f with ⟨hv, hc⟩ | ⟨e, flash', he, hflash, hc⟩ <;> rw [hc]
  · refine .inl ⟨rfl, rfl, ?_, hsane.1, hsane.2⟩
    have hstored : (nextSlot candidate).state.generation = st.generation + 1 := hnext
    dsimp only
    rw [selector_sideKey, hstored]
    exact Kept.confirm hkept hnext hv (.refl _)
  · refine .inr ⟨he, ?_, h.sane⟩
    cases hflash with
    | refused => exact hkept
    | left => exact hkept.leave hnext hslot _
    | selected => exact hkept.select hnext hslot _

/-! ## The calls -/

/-- **`pm_sequence_next`** keeps the state, and hands out a number above every one before. -/
theorem next_keeps (h : Keeps flash st) (reserving allocating : PersistFaults) :
    let c := pmSequenceNext st flash reserving allocating
    Keeps c.1.flash c.1.state ∧ st.Within c.1.state ∧
      (c.1.result = some .ok → st.maximumSeen < c.2 ∧ c.2 ≤ c.1.state.maximumSeen) := by
  have hhand : ∀ {flash : SequenceFlash} {st : SequenceState}, Keeps flash st →
      let c := Storage.persist (allocate st) flash allocating
      let st' := if c.result = some .ok then c.state else st
      Keeps c.flash st' ∧ st.Within st' ∧
        (c.result = some .ok → st.maximumSeen < st.nextSequence ∧ st.nextSequence ≤ st'.maximumSeen) := by
    intro flash st h
    have hwithin : st.Within (allocate st) := ⟨h.sane.seen.le, le_rfl, le_rfl⟩
    have hsane : (allocate st).Sane :=
      ⟨Nat.lt_succ_self _, h.sane.acknowledged.trans h.sane.seen.le⟩
    rcases h.persist (allocate st) rfl hwithin hsane allocating with
      ⟨hok, hstate, hkeeps⟩ | ⟨hne, hkeeps⟩
    · simp only [hok, if_true]
      refine ⟨hkeeps, ?_, fun _ => ⟨h.sane.seen, ?_⟩⟩
      · rw [hstate]
        exact hwithin.trans (within_nextSlot _)
      · rw [hstate]
        exact le_rfl
    · simp only [if_neg hne]
      exact ⟨hkeeps, .refl st, fun hok => absurd hok hne⟩
  unfold pmSequenceNext
  dsimp only
  split
  · exact ⟨h, .refl st, fun hok => by cases hok⟩
  split
  · split
    · exact ⟨h, .refl st, fun hok => by cases hok⟩
    have hwithin : st.Within (reserve st) := ⟨le_rfl, le_rfl, le_rfl⟩
    rcases h.persist (reserve st) rfl hwithin ⟨h.sane.1, h.sane.2⟩ reserving with
      ⟨hok, hstate, hkeeps⟩ | ⟨hne, hkeeps⟩
    · rw [if_neg (not_not.2 hok)]
      obtain ⟨hkeeps, hfrom, hnumber⟩ := hhand hkeeps
      have hreserved : st.Within (Storage.persist (reserve st) flash reserving).state := by
        rw [hstate]
        exact hwithin.trans (within_nextSlot _)
      refine ⟨hkeeps, hreserved.trans hfrom, fun hok => ?_⟩
      obtain ⟨hlt, hle⟩ := hnumber hok
      exact ⟨hreserved.seen.trans_lt hlt, hle⟩
    · rw [if_pos hne]
      exact ⟨hkeeps, .refl st, fun hok => absurd hok hne⟩
  · exact hhand h

/-- A call that persists a candidate. -/
theorem Keeps.persistCandidate (h : Keeps flash st) (candidate : SequenceState)
    (hgen : candidate.generation = st.generation)
    (hwithin : st.Within candidate) (hsane : candidate.Sane) (f : PersistFaults) :
    let c := Storage.persistCandidate st candidate flash f
    Keeps c.flash c.state ∧ st.Within c.state ∧
      (c.result = some .ok → candidate.Within c.state) := by
  unfold Storage.persistCandidate
  rcases h.persist candidate hgen hwithin hsane f with ⟨hok, hstate, hkeeps⟩ | ⟨hne, hkeeps⟩
  · simp only [hok, if_true]
    rw [hstate] at hkeeps ⊢
    exact ⟨hkeeps, hwithin.trans (within_nextSlot _), fun _ => within_nextSlot _⟩
  · simp only [if_neg hne]
    exact ⟨hkeeps, .refl st, fun hok => absurd hok hne⟩

/-- **`pm_sequence_acknowledge`** keeps the state, and accepts nothing behind it. -/
theorem acknowledge_keeps (h : Keeps flash st) (value : ℕ) (f : PersistFaults) :
    let c := pmSequenceAcknowledge st flash value f
    Keeps c.flash c.state ∧ st.Within c.state ∧
      (c.result = some .ok → st.acknowledged ≤ value ∧ value ≤ c.state.acknowledged) := by
  unfold pmSequenceAcknowledge
  dsimp only
  split
  · exact ⟨h, .refl st, fun hok => by cases hok⟩
  next hrange =>
    rw [not_or, not_lt, not_lt] at hrange
    split
    next heq => exact ⟨h, .refl st, fun _ => ⟨hrange.1, heq.le⟩⟩
    next =>
      obtain ⟨hkeeps, hwithin, hok⟩ := h.persistCandidate
        { st with acknowledged := value } rfl ⟨le_rfl, hrange.1, le_rfl⟩
        ⟨h.sane.1, hrange.2⟩ f
      exact ⟨hkeeps, hwithin, fun h => ⟨hrange.1, (hok h).acknowledged⟩⟩

/-- **`pm_sequence_raise_floor`** keeps the state, and accepts nothing behind it. -/
theorem raiseFloor_keeps (h : Keeps flash st) (floor resetGeneration : ℕ) (f : PersistFaults) :
    let c := pmSequenceRaiseFloor st flash floor resetGeneration f
    Keeps c.flash c.state ∧ st.Within c.state ∧
      (c.result = some .ok → (st.acknowledged ≤ floor ∧ floor ≤ c.state.acknowledged) ∧
        st.resetGeneration ≤ resetGeneration ∧ resetGeneration ≤ c.state.resetGeneration) := by
  unfold pmSequenceRaiseFloor
  split
  · exact ⟨h, .refl st, fun hok => by cases hok⟩
  split
  next hsame =>
    split
    next hfloor =>
      exact ⟨h, .refl st, fun _ => ⟨⟨hfloor.2.2.2.le, hfloor.2.2.2.ge⟩, hsame.ge, hsame.le⟩⟩
    next => exact ⟨h, .refl st, fun hok => by cases hok⟩
  split
  · exact ⟨h, .refl st, fun hok => by cases hok⟩
  next hrange =>
    rw [not_or, not_lt, not_lt] at hrange
    have hacknowledged : st.acknowledged ≤ floor := h.sane.acknowledged.trans hrange.1
    obtain ⟨hkeeps, hwithin, hok⟩ := h.persistCandidate (raised st floor resetGeneration)
      rfl ⟨hrange.1, hacknowledged, hrange.2⟩ ⟨Nat.lt_succ_self _, le_rfl⟩ f
    exact ⟨hkeeps, hwithin, fun h => ⟨⟨hacknowledged, (hok h).acknowledged⟩, hrange.2, (hok h).reset⟩⟩

/-! ## The boot -/

/-- Past its reservation, a state is the one that was stored. -/
theorem skipReservation_spec (h : skipReservation st = some st') :
    st'.generation = st.generation ∧ st.Within st' ∧ st'.Within st ∧
      st.nextSequence ≤ st'.nextSequence := by
  unfold skipReservation at h
  split at h
  · obtain rfl := Option.some.inj h
    exact ⟨rfl, .refl st, .refl st, le_rfl⟩
  next hreserved =>
    split at h
    · cases h
    · obtain rfl := Option.some.inj h
      exact ⟨rfl, ⟨le_rfl, le_rfl, le_rfl⟩, ⟨le_rfl, le_rfl, le_rfl⟩, by dsimp only; omega⟩

/-- The state of a slot that passes the check, past its reservation. -/
theorem sane_of_slotValid {slot : SequenceSlot} (hv : slotValid slot = true)
    (hskip : skipReservation slot.state = some st') : st'.Sane := by
  obtain ⟨-, hwithin, hwithin', hnext⟩ := skipReservation_spec hskip
  simp only [slotValid, Bool.and_eq_true, decide_eq_true_eq] at hv
  exact ⟨hwithin'.seen.trans_lt (hv.1.1.2.trans_le hnext),
    hwithin'.acknowledged.trans (hv.1.2.trans hwithin.seen)⟩

theorem Keeps.slots_ne_empty (h : Keeps flash st) : flash.slots ≠ Slots.empty := by
  obtain ⟨side, x, hx, -⟩ := h.kept.reached
  intro hempty
  rw [hempty] at hx
  cases side <;> cases hx

/-- **A boot of a device that ran before** finds no state behind the last one. -/
theorem load_keeps (h : Keeps flash st) (f : LoadFaults) :
    let c := pmSequenceLoad SequenceState.zero flash f
    c.flash = flash ∧ (c.result = some .ok → Keeps c.flash c.state ∧ st.Within c.state) := by
  refine ⟨?_, fun hok => ?_⟩
  · rcases flash_pmSequenceLoad SequenceState.zero flash f with hflash | ⟨hempty, -⟩
    · exact hflash
    · exact absurd hempty h.slots_ne_empty
  · rcases pmSequenceLoad_ok hok with ⟨hempty, -⟩ | ⟨slot, st', hbest, hclear, hskip, hc⟩
    · exact absurd hempty h.slots_ne_empty
    obtain ⟨hgen, hfrom, hto, -⟩ := skipReservation_spec hskip
    obtain ⟨hv, -⟩ := best_mem hbest
    obtain ⟨hslot, hkept⟩ := h.kept.read
      (Q := fun slot => st'.Within slot.state) hclear hbest hto
    rw [hc]
    refine ⟨⟨?_, sane_of_slotValid hv hskip⟩, hslot.trans hfrom⟩
    rw [hgen]
    exact hkept

/-- **A boot of a device of which nothing is known.** -/
theorem first_load (flash : SequenceFlash) (f : LoadFaults) :
    let c := pmSequenceLoad SequenceState.zero flash f
    c.result = some .ok → Keeps c.flash c.state := by
  intro c hok
  rcases pmSequenceLoad_ok hok with ⟨hempty, hc⟩ | ⟨slot, st', hbest, hclear, hskip, hc⟩
  · have hok' : (persist SequenceState.first flash f.persist).result = some .ok := hc ▸ hok
    rcases persist_cases SequenceState.first flash f.persist with ⟨hv, hp⟩ | ⟨e, flash', he, -, hp⟩
    · have hflash : c = _ := hc.trans hp
      rw [hflash]
      refine ⟨?_, Nat.zero_lt_one, le_rfl⟩
      rw [hempty]
      have hnone : best slotValid SequenceSlot.generation Slots.empty = none := rfl
      refine kept_of_clear (clear_empty.set hv fun y hy => ?_) (best_set_of_none hnone hv _)
        ⟨le_rfl, le_rfl, le_rfl⟩ _
      cases h : (target flash.selector).other <;> rw [h] at hy <;> cases hy
    · rw [hp] at hok'
      exact absurd hok' he
  · have hflash : c = _ := hc
    obtain ⟨hgen, hfrom, hto, -⟩ := skipReservation_spec hskip
    obtain ⟨hv, -⟩ := best_mem hbest
    rw [hflash]
    refine ⟨?_, sane_of_slotValid hv hskip⟩
    rw [hgen]
    exact kept_of_clear hclear hbest hto _

end

/-! ## Every run -/

theorem Promises.Covers.mono {p : Promises} {st st' : SequenceState} (h : p.Covers st)
    (hwithin : st.Within st') : p.Covers st' :=
  ⟨fun n hn => (h.handedOut n hn).trans hwithin.seen,
    fun n hn => (h.acknowledged n hn).trans hwithin.acknowledged,
    fun n hn => (h.resets n hn).trans hwithin.reset⟩

/-- What holds of a device at any time. A device that is off has promised nothing yet, or its flash
keeps a state that honours its promises. -/
structure Sequencer.Safe (w : Sequencer) : Prop where
  ordered : w.promised.Ordered
  honoured : match w.running with
    | none => w.promised = ⟨[], [], []⟩ ∨ ∃ st, Keeps w.flash st ∧ w.promised.Covers st
    | some st => Keeps w.flash st ∧ w.promised.Covers st

theorem safe_new (flash : SequenceFlash) : (Sequencer.new flash).Safe :=
  ⟨⟨.nil, .nil, .nil⟩, .inl rfl⟩

/-- A call of a running device. -/
theorem Sequencer.Safe.after {w : Sequencer} (h : w.Safe) {st : SequenceState}
    (hrunning : w.running = some st) {c : SequenceCall} {p : Promises}
    (hkeeps : Keeps c.flash c.state) (hwithin : st.Within c.state)
    (hp : c.result = some .ok → w.promised.Covers st → p.Covers c.state ∧ p.Ordered) :
    (w.after c p).Safe := by
  have hcovers := h.honoured
  rw [hrunning] at hcovers
  by_cases hok : c.result = some .ok
  · obtain ⟨hcovers', hordered⟩ := hp hok hcovers.2
    refine ⟨by simpa [Sequencer.after, hok] using hordered, ?_⟩
    simpa [Sequencer.after, hok] using ⟨hkeeps, hcovers'⟩
  · refine ⟨by simpa [Sequencer.after, hok] using h.ordered, ?_⟩
    have hkept := hcovers.2.mono hwithin
    cases hresult : c.result with
    | none => simpa [Sequencer.after, hresult] using .inr ⟨c.state, hkeeps, hkept⟩
    | some e =>
      rw [hresult] at hok
      simpa [Sequencer.after, hresult, hok] using ⟨hkeeps, hkept⟩

theorem step_safe (w : Sequencer) (a : SequencerAct) (h : w.Safe) : (w.step a).Safe := by
  cases a with
  | boot f =>
    refine ⟨h.ordered, ?_⟩
    have hfound : (∃ st, Keeps w.flash st ∧ w.promised.Covers st) ∨ w.promised = ⟨[], [], []⟩ := by
      have := h.honoured
      cases hrunning : w.running with
      | none =>
        rw [hrunning] at this
        exact this.symm
      | some st =>
        rw [hrunning] at this
        exact .inl ⟨st, this⟩
    simp only [Sequencer.step]
    by_cases hok : (pmSequenceLoad SequenceState.zero w.flash f).result = some .ok
    · rw [if_pos hok]
      rcases hfound with ⟨st, hkeeps, hcovers⟩ | hnothing
      · obtain ⟨hkeeps', hwithin⟩ := (load_keeps hkeeps f).2 hok
        exact ⟨hkeeps', hcovers.mono hwithin⟩
      · rw [hnothing]
        exact ⟨first_load w.flash f hok, ⟨by simp, by simp, by simp⟩⟩
    · rw [if_neg hok]
      rcases hfound with ⟨st, hkeeps, hcovers⟩ | hnothing
      · exact .inr ⟨st, by rwa [(load_keeps hkeeps f).1], hcovers⟩
      · exact .inl hnothing
  | next reserving allocating =>
    unfold Sequencer.step
    cases hrunning : w.running with
    | none => exact h
    | some st =>
      have hkeeps := h.honoured
      rw [hrunning] at hkeeps
      obtain ⟨hkeeps', hwithin, hnumber⟩ := next_keeps hkeeps.1 reserving allocating
      refine h.after hrunning hkeeps' hwithin fun hok hcovers => ?_
      obtain ⟨hlt, hle⟩ := hnumber hok
      have hcovers' := hcovers.mono hwithin
      refine ⟨⟨?_, hcovers'.acknowledged, hcovers'.resets⟩,
        ⟨.cons (fun n hn => (hcovers.handedOut n hn).trans_lt hlt) h.ordered.handedOut,
          h.ordered.acknowledged, h.ordered.resets⟩⟩
      rintro n (_ | ⟨_, hn⟩)
      · exact hle
      · exact hcovers'.handedOut n hn
  | acknowledge value f =>
    unfold Sequencer.step
    cases hrunning : w.running with
    | none => exact h
    | some st =>
      have hkeeps := h.honoured
      rw [hrunning] at hkeeps
      obtain ⟨hkeeps', hwithin, hvalue⟩ := acknowledge_keeps hkeeps.1 value f
      refine h.after hrunning hkeeps' hwithin fun hok hcovers => ?_
      obtain ⟨hfrom, hto⟩ := hvalue hok
      have hcovers' := hcovers.mono hwithin
      refine ⟨⟨hcovers'.handedOut, ?_, hcovers'.resets⟩,
        ⟨h.ordered.handedOut,
          .cons (fun n hn => (hcovers.acknowledged n hn).trans hfrom) h.ordered.acknowledged,
          h.ordered.resets⟩⟩
      rintro n (_ | ⟨_, hn⟩)
      · exact hto
      · exact hcovers'.acknowledged n hn
  | raiseFloor floor resetGeneration f =>
    unfold Sequencer.step
    cases hrunning : w.running with
    | none => exact h
    | some st =>
      have hkeeps := h.honoured
      rw [hrunning] at hkeeps
      obtain ⟨hkeeps', hwithin, hvalue⟩ := raiseFloor_keeps hkeeps.1 floor resetGeneration f
      refine h.after hrunning hkeeps' hwithin fun hok hcovers => ?_
      obtain ⟨⟨hfrom, hto⟩, hreset, hreset'⟩ := hvalue hok
      have hcovers' := hcovers.mono hwithin
      refine ⟨⟨hcovers'.handedOut, ?_, ?_⟩, ⟨h.ordered.handedOut,
        .cons (fun n hn => (hcovers.acknowledged n hn).trans hfrom) h.ordered.acknowledged,
        .cons (fun n hn => (hcovers.resets n hn).trans hreset) h.ordered.resets⟩⟩
      · rintro n (_ | ⟨_, hn⟩)
        · exact hto
        · exact hcovers'.acknowledged n hn
      · rintro n (_ | ⟨_, hn⟩)
        · exact hreset'
        · exact hcovers'.resets n hn

/-- **No sequence number is handed out twice**, nor after a greater one: over any sequence of boots
and calls, from any flash, and whatever the writes leave behind. -/
theorem sequence_never_reused (flash : SequenceFlash) (acts : List SequencerAct) :
    (run Sequencer.step (.new flash) acts).promised.handedOut.Pairwise (· > ·) :=
  (run_invariant step_safe (safe_new flash) acts).ordered.handedOut

/-- **A running device honours its promises**: its next number is above all that were handed out,
and its acknowledged number and its reset generation are not behind any that was confirmed, which
never went back. -/
theorem promises_kept (flash : SequenceFlash) (acts : List SequencerAct) :
    let w := run Sequencer.step (.new flash) acts
    w.promised.acknowledged.Pairwise (· ≥ ·) ∧ w.promised.resets.Pairwise (· ≥ ·) ∧
      ∀ st, w.running = some st → (∀ n ∈ w.promised.handedOut, n < st.nextSequence) ∧
        (∀ n ∈ w.promised.acknowledged, n ≤ st.acknowledged) ∧
        ∀ n ∈ w.promised.resets, n ≤ st.resetGeneration := by
  intro w
  have hsafe := run_invariant step_safe (safe_new flash) acts
  refine ⟨hsafe.ordered.acknowledged, hsafe.ordered.resets, fun st hrunning => ?_⟩
  have hcovers := hsafe.honoured
  rw [hrunning] at hcovers
  obtain ⟨hkeeps, hcovers⟩ := hcovers
  exact ⟨fun n hn => (hcovers.handedOut n hn).trans_lt hkeeps.sane.seen, hcovers.acknowledged,
    hcovers.resets⟩

end PowerMonitor.Storage
