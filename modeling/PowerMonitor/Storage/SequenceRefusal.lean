import PowerMonitor.Storage.Sequencer

/-!
# When the sequence numbers are refused

`pm_sequence_load` refuses a slot that fails its check and two slots that disagree about one
generation, and `persist` refuses to write without a selector. Neither repairs anything, so a flash
that is refused once is refused for good.

* `load_after_orderly_run`: as long as no write leaves a torn slot, and no move of the selector
  takes effect and still reports a failure, every boot finds its state.
* `refused_for_good` and `no_number_without_selector`: what happens otherwise. The second state is
  the one that a power loss of the first boot leaves, between its two commits.
-/

namespace PowerMonitor.Storage

open AbStore SelectorStore Runs

/-! ## Orderly writes -/

/-- The numbers of a state are in the order that `slot_valid` checks. -/
structure SequenceState.Sound (st : SequenceState) : Prop where
  sane : st.Sane
  positive : 0 < st.nextSequence
  reserved : st.nextSequence - 1 ≤ st.reservedThrough

theorem sound_first : SequenceState.first.Sound :=
  ⟨⟨Nat.zero_lt_one, le_rfl⟩, Nat.zero_lt_one, le_rfl⟩

theorem SequenceState.Sound.slotValid_nextSlot {st : SequenceState} (h : st.Sound) :
    slotValid (nextSlot st) = true := by
  simp only [slotValid, Bool.and_eq_true, decide_eq_true_eq]
  exact ⟨⟨⟨⟨h.positive, h.reserved⟩, h.sane.seen⟩, h.sane.acknowledged⟩, rfl⟩

/-- A slot that passes the check, past its reservation. -/
theorem sound_of_slotValid {slot : SequenceSlot} {st : SequenceState} (hv : slotValid slot = true)
    (hskip : skipReservation slot.state = some st) : st.Sound := by
  refine ⟨sane_of_slotValid hv hskip, ?_, ?_⟩
  · simp only [slotValid, Bool.and_eq_true, decide_eq_true_eq] at hv
    exact hv.1.1.1.1.trans_le (skipReservation_spec hskip).2.2.2
  · simp only [slotValid, Bool.and_eq_true, decide_eq_true_eq] at hv
    unfold skipReservation at hskip
    split at hskip
    · exact Option.some.inj hskip ▸ hv.1.1.1.2
    · split at hskip
      · cases hskip
      · obtain rfl := Option.some.inj hskip
        exact le_rfl

/-- The faults of a `persist` that leaves no torn slot, and no selector that it does not report. -/
structure PersistFaults.Orderly (f : PersistFaults) : Prop where
  whole : ∀ z hz, f.blob.left ≠ .torn z hz
  told : f.select.landed = true → f.select.result = some .ok ∨ f.select.result = none

/-- Every write of the action is orderly. -/
def SequencerAct.Orderly : SequencerAct → Prop
  | .boot f => f.persist.Orderly
  | .next reserving allocating => reserving.Orderly ∧ allocating.Orderly
  | .acknowledge _ f | .raiseFloor _ _ f => f.Orderly

/-- No reader is refused, and the selector names nothing in a flash without slots. -/
structure SequenceFlash.Readable (flash : SequenceFlash) : Prop where
  clear : Clear slotValid SequenceSlot.generation flash.slots
  unnamed : flash.slots = Slots.empty → flash.active = none

/-- A running state that the selected slot is not ahead of. -/
structure Ready (flash : SequenceFlash) (st : SequenceState) : Prop where
  readable : flash.Readable
  sound : st.Sound
  leads : ∀ y, flash.slots.get (target flash.selector).other = some y → y.generation ≤ st.generation

section

variable {flash : SequenceFlash} {st : SequenceState} {f : PersistFaults}

theorem target_other (side : Side) : (target (some side)).other = side := Side.other_other side

theorem persist_state (hok : (Storage.persist st flash f).result = some .ok) :
    (Storage.persist st flash f).state = (nextSlot st).state := by
  rcases persist_cases st flash f with ⟨-, hc⟩ | ⟨e, flash', he, -, hc⟩ <;> rw [hc] at hok ⊢
  exact absurd hok he

theorem slots_set_ne_empty (slots : Slots SequenceSlot) (side : Side) (x : SequenceSlot) :
    slots.set side (some x) ≠ Slots.empty := by
  intro h
  have hget := Slots.get_set_self slots side (some x)
  rw [h] at hget
  cases side <;> cases hget

/-- **An orderly persist** leaves a flash that is read, and a state that is ready unless power was
lost. -/
theorem Ready.persist (h : Ready flash st) (candidate : SequenceState)
    (hgen : candidate.generation = st.generation)
    (hsound : candidate.Sound) (hf : f.Orderly) :
    let c := Storage.persist candidate flash f
    c.flash.Readable ∧ (c.result = some .ok → Ready c.flash c.state) ∧
      (c.result ≠ none → c.result ≠ some .ok → Ready c.flash st) := by
  have hv := hsound.slotValid_nextSlot
  have hnewer : ∀ y, flash.slots.get (target flash.selector).other = some y →
      y.generation < (nextSlot candidate).generation := fun y hy => by
    have := h.leads y hy
    rw [nextSlot_generation, hgen]
    omega
  have hset : ∀ active, (⟨flash.slots.set (target flash.selector) (some (nextSlot candidate)),
      active⟩ : SequenceFlash).Readable := fun active =>
    ⟨h.readable.clear.set hv hnewer, fun hempty => absurd hempty (slots_set_ne_empty _ _ _)⟩
  rcases persist_cases candidate flash f with ⟨-, hc⟩ | ⟨e, flash', he, hflash, hc⟩ <;> rw [hc]
  · refine ⟨hset _, fun _ => ⟨hset _, ⟨⟨hsound.sane.1, hsound.sane.2⟩, hsound.positive,
      hsound.reserved⟩, fun y hy => ?_⟩, fun _ hne => absurd rfl hne⟩
    -- the slot that is named now is the one just written
    dsimp only at hy
    rw [selector_sideKey, target_other, Slots.get_set_self] at hy
    obtain rfl := Option.some.inj hy
    exact le_rfl
  · have hleft : flash'.Readable ∧ (e ≠ none → Ready flash' st) := by
      cases hflash with
      | refused => exact ⟨h.readable, fun _ => h⟩
      | left =>
        cases hr : f.blob.left with
        | old => exact ⟨h.readable, fun _ => h⟩
        | new =>
          refine ⟨hset _, fun _ => ⟨hset _, h.sound, fun y hy => ?_⟩⟩
          refine h.leads y ?_
          rw [Slots.leave] at hy
          exact (Slots.get_set_other ..).symm.trans hy
        | torn z hz => exact absurd hr (hf.whole z hz)
      | selected hlanded hresult =>
        refine ⟨hset _, fun hpower => ?_⟩
        rcases hf.told hlanded with hok | hnone
        · exact absurd (hresult.symm.trans hok) he
        · exact absurd (hresult.symm.trans hnone) hpower
    exact ⟨hleft.1, fun hok => absurd hok he, fun hpower _ => hleft.2 hpower⟩

/-- What an orderly call leaves. -/
def Settled (c : SequenceCall) : Prop :=
  c.flash.Readable ∧ (c.result ≠ none → Ready c.flash c.state)

theorem Ready.settled (h : Ready flash st) (e : CallEnd) : Settled ⟨e, st, flash⟩ :=
  ⟨h.readable, fun _ => h⟩

/-- A call that persists a candidate. -/
theorem Ready.persistCandidate (h : Ready flash st) (candidate : SequenceState)
    (hgen : candidate.generation = st.generation)
    (hsound : candidate.Sound) (hf : f.Orderly) :
    Settled (Storage.persistCandidate st candidate flash f) := by
  obtain ⟨hreadable, hok, hfailed⟩ := h.persist candidate hgen hsound hf
  refine ⟨hreadable, fun hpower => ?_⟩
  unfold Storage.persistCandidate at hpower ⊢
  by_cases hresult : (Storage.persist candidate flash f).result = some .ok
  · simpa only [hresult, if_true] using hok hresult
  · simpa only [hresult, if_false] using hfailed hpower hresult

theorem Ready.next (h : Ready flash st) {reserving allocating : PersistFaults}
    (hreserving : reserving.Orderly) (hallocating : allocating.Orderly) :
    Settled (pmSequenceNext st flash reserving allocating).1 := by
  have hhand : ∀ {flash : SequenceFlash} {st : SequenceState}, Ready flash st →
      st.nextSequence ≤ st.reservedThrough →
      Settled (Storage.persistCandidate st (allocate st) flash allocating) := fun h hreserved =>
    h.persistCandidate (allocate _) rfl ⟨⟨Nat.lt_succ_self _,
      h.sound.sane.acknowledged.trans h.sound.sane.seen.le⟩, Nat.succ_pos _, hreserved⟩ hallocating
  unfold pmSequenceNext
  split
  · exact h.settled _
  split
  · split
    · exact h.settled _
    have hblock : st.nextSequence ≤ (reserve st).reservedThrough := by
      simp only [reserve, sequenceReservationBlock]
      omega
    obtain ⟨hreadable, hok, hfailed⟩ := h.persist (reserve st) rfl
      ⟨⟨h.sound.sane.1, h.sound.sane.2⟩, h.sound.positive, (Nat.sub_le _ _).trans hblock⟩ hreserving
    by_cases hresult : (Storage.persist (reserve st) flash reserving).result = some .ok
    · rw [if_neg (not_not.2 hresult)]
      refine hhand (hok hresult) ?_
      rw [persist_state hresult]
      exact hblock
    · rw [if_pos hresult]
      exact ⟨hreadable, fun hpower => hfailed hpower hresult⟩
  next hreserved => exact hhand h (not_lt.1 hreserved)

theorem Ready.acknowledge (h : Ready flash st) (value : ℕ) (hf : f.Orderly) :
    Settled (pmSequenceAcknowledge st flash value f) := by
  unfold pmSequenceAcknowledge
  split
  · exact h.settled _
  next hrange =>
    rw [not_or, not_lt, not_lt] at hrange
    split
    · exact h.settled _
    · exact h.persistCandidate { st with acknowledged := value } rfl
        ⟨⟨h.sound.sane.seen, hrange.2⟩, h.sound.positive, h.sound.reserved⟩ hf

theorem Ready.raiseFloor (h : Ready flash st) (floor resetGeneration : ℕ) (hf : f.Orderly) :
    Settled (pmSequenceRaiseFloor st flash floor resetGeneration f) := by
  unfold pmSequenceRaiseFloor
  split
  · exact h.settled _
  split
  · split <;> exact h.settled _
  split
  · exact h.settled _
  · exact h.persistCandidate (raised st floor resetGeneration) rfl
      ⟨⟨Nat.lt_succ_self _, le_rfl⟩, Nat.succ_pos _, le_rfl⟩ hf

/-! ## Boots -/

/-- The first state is ready in a flash without slots. -/
theorem ready_first (h : flash.Readable) (hempty : flash.slots = Slots.empty) :
    Ready flash SequenceState.first := by
  refine ⟨h, sound_first, fun y hy => ?_⟩
  rw [hempty] at hy
  cases hside : (target flash.selector).other <;> rw [hside] at hy <;> cases hy

/-- **A boot of a flash that is read** leaves one, and if it succeeds its state is ready. -/
theorem SequenceFlash.Readable.load (h : flash.Readable) {f : LoadFaults} (hf : f.persist.Orderly) :
    let c := pmSequenceLoad SequenceState.zero flash f
    c.flash.Readable ∧ (c.result = some .ok → Ready c.flash c.state) := by
  refine ⟨?_, fun hok => ?_⟩
  · rcases flash_pmSequenceLoad SequenceState.zero flash f with hflash | ⟨hempty, hc⟩
    · rwa [hflash]
    · rw [hc]
      exact ((ready_first h hempty).persist _ rfl sound_first hf).1
  · rcases pmSequenceLoad_ok hok with ⟨hempty, hc⟩ | ⟨slot, st', hbest, hclear, hskip, hc⟩
    · rw [hc] at hok ⊢
      exact ((ready_first h hempty).persist _ rfl sound_first hf).2.1 hok
    · rw [hc]
      obtain ⟨hv, -⟩ := best_mem hbest
      refine ⟨h, sound_of_slotValid hv hskip, fun y hy => ?_⟩
      rw [(skipReservation_spec hskip).1]
      exact le_gen_best hbest hy (hclear.valid _ y hy)

/-- The first persist, without faults. -/
theorem persist_unnamed (hgen : st.generation = 0) (hactive : flash.active = none)
    (hv : slotValid (nextSlot st) = true) : (Storage.persist st flash {}).result = some .ok := by
  have hmax : (0 : ℕ) ≠ uint32Max := by decide
  unfold Storage.persist persistSlot
  simp [hgen, hactive, hmax, Slots.leave, readSlot, hv, NvsWrite.landed, NvsWrite.result]

/-- **A boot without faults** of a flash that is read succeeds, unless all numbers are reserved. -/
theorem SequenceFlash.Readable.load_ok (h : flash.Readable) :
    (pmSequenceLoad SequenceState.zero flash {}).result = some .ok ∨
      ∃ side slot, flash.slots.get side = some slot ∧ slot.state.reservedThrough = uint64Max := by
  have htake : ∀ side slot, flash.slots.get side = some slot → (takeSlot slot flash).result = some .ok ∨
      ∃ side slot, flash.slots.get side = some slot ∧ slot.state.reservedThrough = uint64Max := by
    intro side slot hslot
    unfold takeSlot skipReservation
    by_cases hused : slot.state.reservedThrough < slot.state.nextSequence
    · simp [hused]
    by_cases hmax : slot.state.reservedThrough = uint64Max
    · exact .inr ⟨side, slot, hslot, hmax⟩
    · simp [hused, hmax]
  have hread : ∀ side {slot}, flash.slots.get side = some slot →
      readSlot (some slot) .ok = some (.ok slot) := fun side slot hslot => by
    simp [readSlot, h.clear.valid side slot hslot]
  have hmissing : readSlot none .ok = some (.error .nvsNotFound) := rfl
  unfold pmSequenceLoad
  rcases ha : flash.slots.a with _ | a <;> rcases hb : flash.slots.b with _ | b <;>
    simp only [hmissing]
  · have hok := persist_unnamed rfl (h.unnamed (slots_eq_empty ha hb)) sound_first.slotValid_nextSlot
    exact .inl (by simpa using hok)
  · simpa [hread .b hb] using htake .b b hb
  · simpa [hread .a ha] using htake .a a ha
  · simp only [hread .a ha, hread .b hb]
    have hsame : ¬(a.generation = b.generation ∧ a.state ≠ b.state) := by
      rintro ⟨hgen, hne⟩
      exact hne (congrArg SequenceSlot.state (h.clear.apart a b ha hb hgen))
    rw [if_neg hsame]
    split
    · exact htake .a a ha
    · exact htake .b b hb

end

/-! ## Runs -/

/-- The flash is read, and a running state is ready. -/
structure Sequencer.Serves (w : Sequencer) : Prop where
  readable : w.flash.Readable
  ready : ∀ st, w.running = some st → Ready w.flash st

theorem Sequencer.serves_after {w : Sequencer} {c : SequenceCall} (h : Settled c) (p : Promises) :
    (w.after c p).Serves := by
  refine ⟨h.1, fun st hst => ?_⟩
  simp only [Sequencer.after] at hst
  split at hst
  · cases hst
  next hpower => exact Option.some.inj hst ▸ h.2 hpower

theorem step_serves (w : Sequencer) (a : SequencerAct) (ha : a.Orderly) (h : w.Serves) :
    (w.step a).Serves := by
  unfold Sequencer.step
  cases a with
  | boot f =>
    obtain ⟨hreadable, hready⟩ := h.readable.load ha
    refine ⟨hreadable, fun st hst => ?_⟩
    dsimp only at hst
    split at hst
    next hok => exact Option.some.inj hst ▸ hready hok
    next => cases hst
  | next reserving allocating =>
    cases hrunning : w.running with
    | none => exact h
    | some st => exact Sequencer.serves_after ((h.ready st hrunning).next ha.1 ha.2) _
  | acknowledge value f =>
    cases hrunning : w.running with
    | none => exact h
    | some st => exact Sequencer.serves_after ((h.ready st hrunning).acknowledge value ha) _
  | raiseFloor floor resetGeneration f =>
    cases hrunning : w.running with
    | none => exact h
    | some st => exact Sequencer.serves_after ((h.ready st hrunning).raiseFloor floor resetGeneration ha) _

/-- **After orderly writes every boot succeeds**: over any run from an erased flash in which no
write leaves a torn slot and no selector moves unreported, wherever power is lost, a boot without
faults finds a state, unless the last block of numbers was reserved. -/
theorem load_after_orderly_run (acts : List SequencerAct)
    (h : Along Sequencer.step (fun _ a => a.Orderly) (.new .empty) acts) :
    let w := run Sequencer.step (.new .empty) acts
    (pmSequenceLoad SequenceState.zero w.flash {}).result = some .ok ∨
      ∃ side slot, w.flash.slots.get side = some slot ∧ slot.state.reservedThrough = uint64Max := by
  intro w
  have hnew : (Sequencer.new .empty).Serves :=
    ⟨⟨clear_empty, fun _ => rfl⟩, fun st hst => by cases hst⟩
  have hrun := Along.invariant (fun w a hserves ha => step_serves w a ha hserves) hnew h
  exact hrun.readable.load_ok

theorem orderly_default : ({} : PersistFaults).Orderly := ⟨fun z hz h => (by cases h), fun _ => .inl rfl⟩

theorem load_after_first_number :
    let w := run Sequencer.step (.new .empty) [.boot {}, .next {} {}]
    (pmSequenceLoad SequenceState.zero w.flash {}).result = some .ok ∨
      ∃ side slot, w.flash.slots.get side = some slot ∧ slot.state.reservedThrough = uint64Max :=
  load_after_orderly_run _ ⟨orderly_default, ⟨orderly_default, orderly_default⟩, trivial⟩

/-- **A device whose slots are refused never runs again**: no boot succeeds, and none changes the
flash. -/
theorem refused_for_good {w : Sequencer} (hoff : w.running = none)
    (hrefused : ¬Clear slotValid SequenceSlot.generation w.flash.slots) (acts : List SequencerAct) :
    (run Sequencer.step w acts).running = none ∧ (run Sequencer.step w acts).flash = w.flash := by
  have hload : ∀ f : LoadFaults, (pmSequenceLoad SequenceState.zero w.flash f).flash = w.flash ∧
      (pmSequenceLoad SequenceState.zero w.flash f).result ≠ some .ok := by
    have hne : w.flash.slots ≠ Slots.empty := fun hempty => hrefused (hempty ▸ clear_empty)
    refine fun f => ⟨?_, fun hok => ?_⟩
    · rcases flash_pmSequenceLoad SequenceState.zero w.flash f with hflash | ⟨hempty, -⟩
      · exact hflash
      · exact absurd hempty hne
    · rcases pmSequenceLoad_ok hok with ⟨hempty, -⟩ | ⟨-, -, -, hclear, -⟩
      · exact hne hempty
      · exact hrefused hclear
  refine run_invariant (I := fun w' : Sequencer => w'.running = none ∧ w'.flash = w.flash) ?_
    ⟨hoff, rfl⟩ acts
  rintro w' a ⟨hoff', hflash⟩
  cases a with
  | boot f =>
    obtain ⟨hsame, hfails⟩ := hload f
    simp only [Sequencer.step, hflash]
    exact ⟨if_neg hfails, hsame⟩
  | next reserving allocating => simp [Sequencer.step, hoff', hflash]
  | acknowledge value f => simp [Sequencer.step, hoff', hflash]
  | raiseFloor floor resetGeneration f => simp [Sequencer.step, hoff', hflash]

/-- A slot whose checksum is wrong. -/
def tornSlot : SequenceSlot := { nextSlot SequenceState.first with crc32 := 0 }

theorem refused_for_good_torn :
    let w : Sequencer := .new ⟨⟨some tornSlot, none⟩, none⟩
    (run Sequencer.step w [.boot {}, .boot {}]).running = none ∧
      (run Sequencer.step w [.boot {}, .boot {}]).flash = w.flash :=
  refused_for_good rfl (fun hclear => absurd (hclear.valid .a tornSlot rfl) (by decide +kernel)) _

section

variable {flash : SequenceFlash} {st : SequenceState}

/-- Without a selector nothing is written for a state that was stored before. -/
theorem persist_without_selector (st : SequenceState) (hactive : flash.active = none)
    (hgen : st.generation ≠ 0)
    (f : PersistFaults) : (persist st flash f).flash = flash ∧ (persist st flash f).result ≠ some .ok := by
  have hrefusal : ∀ e, e ≠ EspErr.ok → some e ≠ some EspErr.ok := fun e he h => he (Option.some.inj h)
  unfold persist
  split
  · exact ⟨rfl, hrefusal _ (by decide)⟩
  rw [hactive]
  cases f.opened with
  | powerLoss => exact ⟨rfl, by simp⟩
  | fails e => exact ⟨rfl, hrefusal _ e.2.1⟩
  | ok =>
    cases f.selector with
    | powerLoss => exact ⟨rfl, by simp⟩
    | fails e => exact ⟨rfl, hrefusal _ e.2.1⟩
    | ok =>
      exact ⟨rfl, hrefusal _ (by decide)⟩

theorem persistCandidate_without_selector (st candidate : SequenceState)
    (hactive : flash.active = none) (hgen : candidate.generation ≠ 0) (f : PersistFaults) :
    (persistCandidate st candidate flash f).flash = flash ∧
      (persistCandidate st candidate flash f).state = st := by
  obtain ⟨hflash, hfails⟩ := persist_without_selector candidate hactive hgen f
  exact ⟨hflash, if_neg hfails⟩

theorem next_without_selector (hactive : flash.active = none) (hgen : st.generation ≠ 0)
    (reserving allocating : PersistFaults) :
    let c := (pmSequenceNext st flash reserving allocating).1
    c.flash = flash ∧ c.state = st ∧ c.result ≠ some .ok := by
  obtain ⟨hflash, hfails⟩ := persist_without_selector (reserve st) hactive hgen reserving
  obtain ⟨hflash', hfails'⟩ := persist_without_selector (allocate st) hactive hgen allocating
  simp only [pmSequenceNext, hfails, hfails', ne_eq, not_false_eq_true, if_true, if_false]
  split
  · exact ⟨rfl, rfl, fun h => absurd (Option.some.inj h) (by decide)⟩
  split
  · split
    · exact ⟨rfl, rfl, fun h => absurd (Option.some.inj h) (by decide)⟩
    · exact ⟨hflash, rfl, hfails⟩
  · exact ⟨hflash', rfl, hfails'⟩

end

/-- The records of the flash were stored, and the selector was not. -/
structure Sequencer.Unselected (flash : SequenceFlash) (w : Sequencer) : Prop where
  flash : w.flash = flash
  running : ∀ st, w.running = some st → st.generation ≠ 0
  none_handed_out : w.promised.handedOut = []

/-- **Without a selector no number is handed out**, over any run of boots and calls: `persist`
refuses every state that a slot gave, and nothing writes the selector but `persist`. -/
theorem no_number_without_selector {flash : SequenceFlash} (hactive : flash.active = none)
    (hslots : flash.slots ≠ Slots.empty)
    (hgen : ∀ side slot, flash.slots.get side = some slot → slot.generation ≠ 0)
    (acts : List SequencerAct) :
    (run Sequencer.step (.new flash) acts).promised.handedOut = [] ∧
      (run Sequencer.step (.new flash) acts).flash = flash := by
  have hstep : ∀ w a, Sequencer.Unselected flash w → Sequencer.Unselected flash (w.step a) := by
    rintro w a ⟨rfl, hrunning, hnone⟩
    have hafter : ∀ {st : SequenceState} {c : SequenceCall} {p : Promises}, st.generation ≠ 0 →
        c.flash = w.flash → c.state = st → (c.result = some .ok → p.handedOut = []) →
        Sequencer.Unselected w.flash (w.after c p) := by
      rintro st c p hst hflash rfl hp
      refine ⟨hflash, fun st' hst' => ?_, ?_⟩
      · simp only [Sequencer.after] at hst'
        split at hst'
        · cases hst'
        · exact Option.some.inj hst' ▸ hst
      · simp only [Sequencer.after]
        split
        next hok => exact hp hok
        next => exact hnone
    unfold Sequencer.step
    cases a with
    | boot f =>
      refine ⟨?_, fun st hst => ?_, hnone⟩
      · rcases flash_pmSequenceLoad SequenceState.zero w.flash f with hflash | ⟨hempty, -⟩
        · exact hflash
        · exact absurd hempty hslots
      · dsimp only at hst
        split at hst
        next hok =>
          obtain rfl := Option.some.inj hst
          rcases pmSequenceLoad_ok hok with ⟨hempty, -⟩ | ⟨slot, st', hbest, -, hskip, hc⟩
          · exact absurd hempty hslots
          · obtain ⟨-, side, hside⟩ := best_mem hbest
            rw [hc]
            dsimp only
            rw [(skipReservation_spec hskip).1]
            exact hgen side slot hside
        next => cases hst
    | next reserving allocating =>
      cases hrun : w.running with
      | none => exact ⟨rfl, hrunning, hnone⟩
      | some st =>
        have hst := hrunning st hrun
        obtain ⟨hflash, hstate, hfails⟩ := next_without_selector hactive hst reserving allocating
        exact hafter hst hflash hstate fun hok => absurd hok hfails
    | acknowledge value f =>
      cases hrun : w.running with
      | none => exact ⟨rfl, hrunning, hnone⟩
      | some st =>
        have hst := hrunning st hrun
        obtain ⟨hflash, hstate⟩ := persistCandidate_without_selector st
          { st with acknowledged := value } hactive hst f
        dsimp only
        unfold pmSequenceAcknowledge
        split
        · exact hafter hst rfl rfl fun _ => hnone
        split
        · exact hafter hst rfl rfl fun _ => hnone
        · exact hafter hst hflash hstate fun _ => hnone
    | raiseFloor floor resetGeneration f =>
      cases hrun : w.running with
      | none => exact ⟨rfl, hrunning, hnone⟩
      | some st =>
        have hst := hrunning st hrun
        obtain ⟨hflash, hstate⟩ := persistCandidate_without_selector st
          (raised st floor resetGeneration) hactive hst f
        dsimp only
        unfold pmSequenceRaiseFloor
        split
        · exact hafter hst rfl rfl fun _ => hnone
        split
        · split <;> exact hafter hst rfl rfl fun _ => hnone
        split
        · exact hafter hst rfl rfl fun _ => hnone
        · exact hafter hst hflash hstate fun _ => hnone
  have hnew : Sequencer.Unselected flash (.new flash) := ⟨rfl, fun st hst => (by cases hst), rfl⟩
  have hrun := run_invariant hstep hnew acts
  exact ⟨hrun.none_handed_out, hrun.flash⟩

/-- A first boot that loses power after it stored its slot and before it stored the selector. -/
def cutShort : SequencerAct := .boot { persist := { select := .powerLoss false } }

theorem no_number_after_cut_short :
    let flash := ((Sequencer.new .empty).step cutShort).flash
    (run Sequencer.step (.new flash) [.boot {}, .next {} {}]).promised.handedOut = [] ∧
      (run Sequencer.step (.new flash) [.boot {}, .next {} {}]).flash = flash := by
  refine no_number_without_selector (by decide +kernel) (by decide +kernel) ?_ _
  rintro (_ | _) slot hslot
  · have hnone : ((Sequencer.new .empty).step cutShort).flash.slots.a = none := by decide +kernel
    cases hnone.symm.trans hslot
  · have hfirst : ((Sequencer.new .empty).step cutShort).flash.slots.b =
        some (nextSlot SequenceState.first) := by decide +kernel
    obtain rfl := Option.some.inj (hfirst.symm.trans hslot)
    decide

end PowerMonitor.Storage
