import PowerMonitor.Foundations.Runs
import PowerMonitor.Config.Store

/-!
# The commit point of the configuration

Every sequence of configuration calls, with any fault in any of their steps and power losses in and
between them, over arbitrary flash contents and arbitrary transactions passed by the caller. What
`pm_config_load` returns changes only when a selector write of `pm_config_commit` or
`pm_config_activate_staged` takes effect, and then to the content of the slot it names.

* `Outcome.Contained` is what every call satisfies: it writes and erases at most a slot the
  selector does not name, and moves the selector only to a slot it has just read and validated.
* `LoadKept` is what the other calls do to the load: nothing, except that the first one to open the
  missing namespace for writing changes its error.
* `load_eq_committed` is the result over whole histories.
-/

namespace PowerMonitor.Config

open AbStore Runs

/-- `pm_config_load` when none of its own NVS calls fails. -/
def load (flash : Flash) : Except CallEnd PmConfig := pmConfigLoad flash .ok .ok .ok

/-! ## The flash under an opening and a write -/

/-- The keys are as they were, and the namespace stays. -/
structure Flash.Opens (flash flash' : Flash) : Prop where
  active : flash'.active = flash.active
  slots : flash'.slots = flash.slots
  made : flash.made = true → flash'.made = true

theorem Flash.Opens.refl (flash : Flash) : flash.Opens flash := ⟨rfl, rfl, id⟩

/-- `nvs_open` with `NVS_READWRITE`. -/
theorem Flash.Opens.open {flash flash' : Flash} (h : flash' = flash) (o : NvsOpen) :
    flash.Opens (flash'.open o) where
  active := by rw [Flash.active_open, h]
  slots := by rw [Flash.slots_open, h]
  made hm := by
    subst h
    unfold Flash.open
    split
    · rfl
    · exact hm

theorem slots_write_of_ne (flash : Flash) {side t : Side} (h : t ≠ side) (blob : Option Blob)
    (w : NvsWrite) : (flash.write side blob w).slots.get t = flash.slots.get t := by
  unfold Flash.write
  split
  · exact Slots.get_set_of_ne _ h _
  · rfl

theorem active_write (flash : Flash) (side : Side) (blob : Option Blob) (w : NvsWrite) :
    (flash.write side blob w).active = flash.active := by
  unfold Flash.write
  split <;> rfl

theorem made_write {flash : Flash} (h : flash.made = true) (side : Side) (blob : Option Blob)
    (w : NvsWrite) : (flash.write side blob w).made = true := by
  unfold Flash.write
  split
  · rfl
  · exact h

/-! ## One call -/

/-- **What every call respects.** -/
structure Outcome.Contained (s : Store) (o : Outcome) : Prop where
  made : s.flash.made = true → o.store.flash.made = true
  touched : ∀ side, o.touched = some side → s.flash.active ≠ some (slotChar side)
  slots : ∀ side, o.touched ≠ some side → o.store.flash.slots.get side = s.flash.slots.get side
  unselected : o.selected = none → o.store.flash.active = s.flash.active
  selected : ∀ side, o.selected = some side → o.touched = none ∧ o.store.flash.made = true ∧
    o.store.flash.active = some (slotChar side) ∧
    ∃ c, s.flash.slots.get side = some (.config c) ∧ pmConfigValidate c false = .ok

section

variable {s : Store}

/-- A call that opens the namespace at most. -/
theorem Outcome.Contained.of_flash {o : Outcome} (hf : s.flash.Opens o.store.flash)
    (ht : o.touched = none) (hs : o.selected = none) : o.Contained s where
  made := hf.made
  touched side h := by rw [ht] at h; cases h
  slots side _ := by rw [hf.slots]
  unselected _ := hf.active
  selected side h := by rw [hs] at h; cases h

/-- A call that writes or erases one slot which the selector does not name. -/
theorem Outcome.Contained.of_write {o : Outcome} {flash : Flash} {side : Side} {blob : Option Blob}
    {w : NvsWrite} (hopen : s.flash.Opens flash) (hf : o.store.flash = flash.write side blob w)
    (ht : o.touched = some side) (hs : o.selected = none)
    (hne : s.flash.active ≠ some (slotChar side)) : o.Contained s where
  made h := by rw [hf]; exact made_write (hopen.made h) side blob w
  touched t h := by
    rw [ht] at h
    exact Option.some.inj h ▸ hne
  slots t h := by
    rw [hf, slots_write_of_ne _ (fun h' : t = side => h (by rw [ht, h'])), hopen.slots]
  unselected _ := by rw [hf, active_write, hopen.active]
  selected t h := by rw [hs] at h; cases h

/-- A call that writes the selector after it has read the slot it names. -/
theorem Outcome.Contained.of_select {o : Outcome} {flash : Flash} {side : Side} {w : NvsWrite}
    {c : PmConfig} (hopen : s.flash.Opens flash) (hf : o.store.flash = flash.select side w)
    (ht : o.touched = none) (hs : o.selected = if w.landed then some side else none)
    (hc : flash.slots.get side = some (.config c)) (hv : pmConfigValidate c false = .ok) :
    o.Contained s where
  made h := by
    rw [hf, Flash.select]
    split
    · rfl
    · exact hopen.made h
  touched t h := by rw [ht] at h; cases h
  slots t _ := by
    rw [hf, Flash.select, ← hopen.slots]
    split <;> rfl
  unselected h := by
    rw [hs] at h
    cases hw : w.landed with
    | true => simp [hw] at h
    | false => rw [hf, Flash.select, hw]; exact hopen.active
  selected t h := by
    rw [hs] at h
    cases hw : w.landed with
    | false => simp [hw] at h
    | true =>
      obtain rfl : side = t := by simpa [hw] using h
      rw [hf, Flash.select, hw]
      exact ⟨ht, rfl, rfl, c, hopen.slots ▸ hc, hv⟩

theorem of_andThen_ok {α : Type} {f : NvsRead} {x : Except CallEnd α} {v : α}
    (h : NvsRead.andThen f x = .ok v) : x = .ok v := by
  cases f with
  | ok => exact h
  | fails e => cases h
  | powerLoss => cases h

theorem readSlot_ok {flash : Flash} {side : Side} {f : NvsRead} {c : PmConfig}
    (h : readSlot flash side f = .ok c) :
    flash.slots.get side = some (.config c) ∧ pmConfigValidate c false = .ok := by
  have h := of_andThen_ok h
  unfold slotContent at h
  split at h
  · cases h
  · cases h
  next c' hc =>
    split at h
    next hv =>
      obtain rfl := Except.ok.inj h
      exact ⟨hc, hv⟩
    · cases h

theorem readSelector_ok {flash : Flash} {f : NvsRead} {c : UInt8}
    (h : readSelector flash f = .ok c) : flash.active = some c := by
  have h := of_andThen_ok h
  split at h
  · cases h
  next c' hc =>
    obtain rfl := Except.ok.inj h
    exact hc

/-- The slot the selector does not name. -/
theorem inactiveSide_ne {flash : Flash} {f : Faults} {side : Side}
    (h : inactiveSide flash f = .ok side) : flash.active ≠ some (slotChar side) := by
  have h := of_andThen_ok h
  split at h
  · cases h
  next active hread =>
    split at h
    · cases h
    next named hn =>
      obtain rfl := Except.ok.inj h
      rw [readSelector_ok hread, slotOf_eq_some hn]
      cases named <;> decide

/-- **Staging never targets the slot the selector names**, restaging included. -/
theorem beginTarget_ne {flash : Flash} {f : NvsRead} {restaging : Option Side} {side : Side}
    (h : beginTarget flash f restaging = .ok side) : flash.active ≠ some (slotChar side) := by
  intro hactive
  have hread : beginSelector (readSelector flash f) = .error none ∨
      (∃ e, e ≠ .ok ∧ beginSelector (readSelector flash f) = .ok (charA, e)) ∨
      beginSelector (readSelector flash f) = .ok (slotChar side, .ok) := by
    cases f with
    | ok =>
      refine .inr (.inr ?_)
      simp only [readSelector, NvsRead.andThen, hactive, beginSelector]
      cases side <;> rfl
    | fails e =>
      refine .inr (.inl ⟨e.1, e.2.1, ?_⟩)
      simp [readSelector, NvsRead.andThen, beginSelector, e.2.2]
    | powerLoss => exact .inl rfl
  unfold beginTarget at h
  rcases hread with hr | ⟨e, he, hr⟩ | hr <;> rw [hr] at h <;> dsimp only at h
  · cases h
  · rw [if_pos he] at h
    exact absurd h (by split_ifs <;> simp)
  · cases restaging with
    | none =>
      have hne : (if slotChar side = charA then Side.b else .a) = side := by simpa using h
      revert hne
      cases side <;> decide
    | some t =>
      by_cases ht : slotChar side = slotChar t
      · simp [ht] at h
      · obtain rfl : t = side := by simpa [ht] using h
        exact ht rfl

/-! ## The calls -/

theorem flash_releaseTransaction (s : Store) (id : UInt32) :
    (s.releaseTransaction id).flash = s.flash := by
  unfold Store.releaseTransaction
  split <;> rfl

theorem flash_claimNewTransaction {s s' : Store} {id : UInt32}
    (h : s.claimNewTransaction = some (id, s')) : s'.flash = s.flash := by
  unfold Store.claimNewTransaction at h
  split at h
  · simp only [Option.some.injEq, Prod.mk.injEq] at h
    rw [← h.2]
  · cases h

theorem flash_claimTransactionMutation {s s' : Store} {id id' : UInt32}
    (h : s.claimTransactionMutation id = some (id', s')) : s'.flash = s.flash := by
  unfold Store.claimTransactionMutation at h
  split at h
  · simp only [Option.some.injEq, Prod.mk.injEq] at h
    rw [← h.2]
  · cases h

theorem flash_claimUnownedMutation {s s' : Store} (h : s.claimUnownedMutation = some s') :
    s'.flash = s.flash := by
  unfold Store.claimUnownedMutation at h
  split at h
  · rw [← Option.some.inj h]
  · cases h

theorem activateStaged_contained (s : Store) (slot : UInt8) (gen : ℕ) (t : Transaction)
    (f : Faults) : (pmConfigActivateStaged s slot gen t f).Contained s := by
  unfold pmConfigActivateStaged
  split
  · exact .of_flash (.refl _) rfl rfl
  next side hside =>
  split
  · exact .of_flash (.refl _) rfl rfl
  split
  · exact .of_flash (.refl _) rfl rfl
  split
  · exact .of_flash (.refl _) rfl rfl
  next s' hclaim =>
  have hf := Flash.Opens.open (flash_claimUnownedMutation hclaim) f.opened
  dsimp only
  split
  · exact .of_flash hf rfl rfl
  next active hcheck =>
    split
    · exact .of_flash hf rfl rfl
    · have h := of_andThen_ok hcheck
      split at h
      · cases h
      next c hread =>
        obtain ⟨hc, hv⟩ := readSlot_ok hread
        exact .of_select hf rfl rfl rfl hc hv

theorem eraseSlot_contained {s' : Store} (hf : s.flash.Opens s'.flash) {side : Side}
    (hne : s'.flash.active ≠ some (slotChar side)) (t : Transaction) (w : NvsWrite) :
    (s'.eraseSlot side t w).Contained s :=
  .of_write hf rfl rfl rfl (hf.active ▸ hne)

theorem discardStaged_contained (s : Store) (slot : UInt8) (gen : ℕ) (t : Transaction)
    (f : Faults) : (pmConfigDiscardStaged s slot gen t f).Contained s := by
  unfold pmConfigDiscardStaged
  split
  · exact .of_flash (.refl _) rfl rfl
  next side hside =>
  split
  · exact .of_flash (.refl _) rfl rfl
  split
  · exact .of_flash (.refl _) rfl rfl
  split
  · exact .of_flash (.refl _) rfl rfl
  next s' hclaim =>
  have hf := Flash.Opens.open (flash_claimUnownedMutation hclaim) f.opened
  dsimp only
  split
  · exact .of_flash hf rfl rfl
  next active hactive =>
  split
  · exact .of_flash hf rfl rfl
  next hne =>
  split
  · exact .of_flash hf rfl rfl
  split
  · exact .of_flash hf rfl rfl
  · refine eraseSlot_contained hf ?_ t f.write
    rw [readSelector_ok (of_andThen_ok hactive)]
    intro h
    exact hne ((Option.some.inj h).trans (slotOf_eq_some hside).symm)

theorem discardInactive_contained (s : Store) (gen : ℕ) (t : Transaction) (f : Faults) :
    (pmConfigDiscardInactiveGeneration s gen t f).Contained s := by
  unfold pmConfigDiscardInactiveGeneration
  split
  · exact .of_flash (.refl _) rfl rfl
  split
  · exact .of_flash (.refl _) rfl rfl
  split
  · exact .of_flash (.refl _) rfl rfl
  next s' hclaim =>
  have hf := Flash.Opens.open (flash_claimUnownedMutation hclaim) f.opened
  dsimp only
  split
  · exact .of_flash hf rfl rfl
  next side hside =>
  split
  · exact .of_flash hf rfl rfl
  split
  · exact .of_flash hf rfl rfl
  · exact eraseSlot_contained hf (inactiveSide_ne hside) t f.write

theorem eraseInactive_contained (s : Store) (t : Transaction) (f : Faults) :
    (pmConfigEraseInactive s t f).Contained s := by
  unfold pmConfigEraseInactive
  split
  · exact .of_flash (.refl _) rfl rfl
  next s' hclaim =>
  have hf := Flash.Opens.open (flash_claimUnownedMutation hclaim) f.opened
  dsimp only
  split
  · exact .of_flash hf rfl rfl
  next side hside =>
    have h := eraseSlot_contained hf (inactiveSide_ne hside) t f.write
    exact ⟨h.made, h.touched, h.slots, h.unselected, h.selected⟩

variable [Sha256]

theorem beginClaimed_contained {s' : Store} (hf : s'.flash = s.flash) (id : UInt32) (c : PmConfig)
    (restaging : Option Side) (f : Faults) : (beginClaimed s' id c restaging f).Contained s := by
  have hopen := Flash.Opens.open hf f.opened
  unfold beginClaimed
  dsimp only
  split
  · exact .of_flash hopen rfl rfl
  next side hside =>
    have hne := beginTarget_ne (of_andThen_ok hside)
    rw [hopen.active] at hne
    split
    · split
      · exact .of_write hopen rfl rfl rfl hne
      · exact .of_write hopen rfl rfl rfl hne
    · exact .of_write hopen rfl rfl rfl hne

theorem begin_contained (s : Store) (candidate : PmConfig) (t : Transaction) (f : Faults) :
    (pmConfigBegin s candidate t f).Contained s := by
  unfold pmConfigBegin
  split
  · exact .of_flash (.refl _) rfl rfl
  dsimp only
  split
  · exact .of_flash (.refl _) rfl rfl
  split
  · exact .of_flash (.refl _) rfl rfl
  next id s' hclaim =>
    refine beginClaimed_contained ?_ id _ _ f
    split at hclaim
    · exact flash_claimTransactionMutation hclaim
    · exact flash_claimNewTransaction hclaim

theorem made_beginClaimed {s : Store} {f : Faults} (h : f.opened.made = true) (id : UInt32)
    (c : PmConfig) (restaging : Option Side) :
    (beginClaimed s id c restaging f).store.flash.made = true := by
  have hmade : (s.flash.open f.opened).made = true := by
    rw [Flash.open, if_pos h]
    rfl
  unfold beginClaimed
  dsimp only
  split
  · exact hmade
  · split
    · split <;> exact made_write hmade ..
    · exact made_write hmade ..

/-- A staging that opens the namespace leaves it made, however it ends. -/
theorem made_begin {s : Store} {candidate : PmConfig} {f : Faults}
    (hvalid : pmConfigValidate (staged candidate) false = .ok) (hmalloc : f.mallocOk = true)
    (hopen : f.opened.made = true)
    (hfree : s.activeTransactionId = 0 ∧ s.mutationInProgress = false) :
    (pmConfigBegin s candidate Transaction.zero f).store.flash.made = true := by
  have hclaim : ∃ id s', s.claimNewTransaction = some (id, s') := by
    unfold Store.claimNewTransaction
    rw [if_pos hfree]
    exact ⟨_, _, rfl⟩
  obtain ⟨id, s', hclaim⟩ := hclaim
  have hbegin : pmConfigBegin s candidate Transaction.zero f =
      beginClaimed s' id (staged candidate) none f := by
    have hnew : restagingSlot Transaction.zero = none := rfl
    simp [pmConfigBegin, hmalloc, hvalid, hnew, hclaim]
  rw [hbegin]
  exact made_beginClaimed hopen ..

theorem commit_contained (s : Store) (t : Transaction) (f : Faults) :
    (pmConfigCommit s t f).Contained s := by
  unfold pmConfigCommit
  split
  · exact .of_flash (.refl _) rfl rfl
  next side hside =>
  split
  · exact .of_flash (.refl _) rfl rfl
  split
  · exact .of_flash (.refl _) rfl rfl
  split
  · exact .of_flash (.refl _) rfl rfl
  next id s' hclaim =>
  have hf := Flash.Opens.open (flash_claimTransactionMutation hclaim) f.opened
  dsimp only
  split
  · refine .of_flash ?_ rfl rfl
    rw [flash_releaseTransaction]
    exact hf
  next hcheck =>
    have h := of_andThen_ok hcheck
    split at h
    · cases h
    next c hread =>
      obtain ⟨hc, hv⟩ := readSlot_ok hread
      exact .of_select hf rfl rfl rfl hc hv

/-- The calls of the store that change it. -/
inductive ConfigCall
  | begin (candidate : PmConfig) (t : Transaction)
  | markNetworkTested (t : Transaction)
  | commit (t : Transaction)
  | activateStaged (slot : UInt8) (expectedGeneration : ℕ)
  | discardStaged (slot : UInt8) (expectedGeneration : ℕ)
  | discardInactiveGeneration (expectedGeneration : ℕ)
  | eraseInactive
  | abort (t : Transaction)

/-- Whether the call is one of the two that may move the selector. -/
def ConfigCall.commits : ConfigCall → Bool
  | commit _ | activateStaged _ _ => true
  | _ => false

/-- The call, under the faults `f`. -/
def ConfigCall.perform (c : ConfigCall) (s : Store) (f : Faults) : Outcome :=
  match c with
  | begin candidate t => pmConfigBegin s candidate t f
  | markNetworkTested t => pmConfigMarkNetworkTested s t
  | commit t => pmConfigCommit s t f
  | activateStaged slot gen => pmConfigActivateStaged s slot gen .zero f
  | discardStaged slot gen => pmConfigDiscardStaged s slot gen .zero f
  | discardInactiveGeneration gen => pmConfigDiscardInactiveGeneration s gen .zero f
  | eraseInactive => pmConfigEraseInactive s .zero f
  | abort t => pmConfigAbort s t

/-- **Every call is contained.** -/
theorem ConfigCall.perform_contained (c : ConfigCall) (s : Store) (f : Faults) :
    (c.perform s f).Contained s := by
  cases c with
  | begin candidate t => exact begin_contained s candidate t f
  | markNetworkTested t =>
    simp only [perform, pmConfigMarkNetworkTested]
    split <;> exact .of_flash (.refl _) rfl rfl
  | commit t => exact commit_contained s t f
  | activateStaged slot gen => exact activateStaged_contained s slot gen .zero f
  | discardStaged slot gen => exact discardStaged_contained s slot gen .zero f
  | discardInactiveGeneration gen => exact discardInactive_contained s gen .zero f
  | eraseInactive => exact eraseInactive_contained s .zero f
  | abort t =>
    refine .of_flash ?_ rfl rfl
    rw [perform, pmConfigAbort, Store.keep, flash_releaseTransaction]
    exact .refl _

/-- Only a commit or an activation writes the selector. -/
theorem ConfigCall.selected_eq_none {c : ConfigCall} (hc : c.commits = false) (s : Store)
    (f : Faults) : (c.perform s f).selected = none := by
  cases c with
  | commit t => cases hc
  | activateStaged slot gen => cases hc
  | begin candidate t =>
    simp only [perform, pmConfigBegin, beginClaimed]
    repeat' split
    all_goals rfl
  | markNetworkTested t =>
    simp only [perform, pmConfigMarkNetworkTested]
    split <;> rfl
  | discardStaged slot gen =>
    simp only [perform, pmConfigDiscardStaged]
    repeat' split
    all_goals rfl
  | discardInactiveGeneration gen =>
    simp only [perform, pmConfigDiscardInactiveGeneration]
    repeat' split
    all_goals rfl
  | eraseInactive =>
    simp only [perform, pmConfigEraseInactive]
    repeat' split
    all_goals rfl
  | abort t => rfl

end

/-! ## What success means -/

theorem andThen_ne_ok {α : Type} {f : NvsRead} {x : Except CallEnd α} {e : CallEnd}
    (hx : ∀ e, x = .error e → e ≠ some .ok) (h : NvsRead.andThen f x = .error e) :
    e ≠ some .ok := by
  cases f with
  | ok => exact hx e h
  | fails e' =>
    obtain rfl := Except.error.inj h
    simpa using e'.2.1
  | powerLoss =>
    obtain rfl := Except.error.inj h
    simp

theorem slotContent_ne_ok {o : Option Blob} {e : CallEnd} (h : slotContent o = .error e) :
    e ≠ some .ok := by
  unfold slotContent at h
  split at h
  · obtain rfl := Except.error.inj h
    decide
  · obtain rfl := Except.error.inj h
    split <;> decide
  · split at h
    · cases h
    next hv =>
      obtain rfl := Except.error.inj h
      simpa using hv

theorem readSlot_ne_ok {flash : Flash} {side : Side} {f : NvsRead} {e : CallEnd}
    (h : readSlot flash side f = .error e) : e ≠ some .ok :=
  andThen_ne_ok (fun _ => slotContent_ne_ok) h

theorem beginTarget_ne_ok {flash : Flash} {f : NvsRead} {restaging : Option Side} {e : CallEnd}
    (h : beginTarget flash f restaging = .error e) : e ≠ some .ok := by
  unfold beginTarget at h
  split at h
  next e' he =>
    obtain rfl := Except.error.inj h
    unfold beginSelector at he
    split at he
    · cases he
    · cases he
    · obtain rfl := Except.error.inj he
      simp
  · dsimp only at h
    generalize restaging.getD _ = inactive at h
    split at h
    · obtain rfl := Except.error.inj h
      decide
    · split at h
      next herr =>
        obtain rfl := Except.error.inj h
        simpa using herr
      · cases h

section

variable [Sha256]

/-- A staging that succeeds has written its candidate and names the slot it is in. -/
theorem beginClaimed_ok {s : Store} {id : UInt32} {c : PmConfig} {restaging : Option Side}
    {f : Faults} (h : (beginClaimed s id c restaging f).result = some .ok) :
    ∃ side, (beginClaimed s id c restaging f).transaction = stagedTransaction c id side ∧
      (beginClaimed s id c restaging f).store.flash.slots.get side = some (.config c) := by
  unfold beginClaimed at h ⊢
  dsimp only at h ⊢
  split at h
  next e he => exact absurd h (andThen_ne_ok (fun _ => beginTarget_ne_ok) he)
  next side hside =>
  by_cases hw : f.write.result = some .ok
  · rw [if_pos hw] at h ⊢
    by_cases hv : verifyResult ((s.flash.open f.opened).write side (some (.config c)) f.write) side c
        f.readback = some .ok
    · rw [if_pos hv]
      refine ⟨side, rfl, ?_⟩
      simp [Flash.write, NvsWrite.landed_of_ok hw]
    · rw [if_neg hv] at h
      exact absurd h hv
  · rw [if_neg hw] at h
    exact absurd h hw

theorem begin_ok {s : Store} {candidate : PmConfig} {t : Transaction} {f : Faults}
    (h : (pmConfigBegin s candidate t f).result = some .ok) :
    ∃ id side, (pmConfigBegin s candidate t f).transaction =
        stagedTransaction (staged candidate) id side ∧
      (pmConfigBegin s candidate t f).store.flash.slots.get side =
        some (.config (staged candidate)) := by
  unfold pmConfigBegin at h ⊢
  split at h
  · cases h
  next hmalloc =>
  rw [if_neg hmalloc]
  dsimp only at h ⊢
  split at h
  next hv => exact absurd (Option.some.inj h) hv
  next hv =>
  rw [if_neg hv]
  split at h
  · cases h
  next id s' hclaim => exact ⟨id, beginClaimed_ok h⟩

/-- **What a commit can do**: it fails before its selector write, or it makes it. -/
theorem commit_cases (s : Store) (t : Transaction) (f : Faults) :
    ((pmConfigCommit s t f).result ≠ some .ok ∧ (pmConfigCommit s t f).selected = none) ∨
    ∃ side, slotOf t.candidateSlot = some side ∧
      (pmConfigCommit s t f).result = f.write.result ∧
      (pmConfigCommit s t f).selected = if f.write.landed then some side else none := by
  unfold pmConfigCommit
  split
  · exact .inl ⟨by simp [Store.keep, EspErr.invalidState, EspErr.ok], rfl⟩
  next side hside =>
  split
  · exact .inl ⟨by simp [Store.keep, EspErr.invalidState, EspErr.ok], rfl⟩
  split
  · exact .inl ⟨by simp [Store.keep, EspErr.noMem, EspErr.ok], rfl⟩
  split
  · exact .inl ⟨by simp [Store.keep, EspErr.invalidState, EspErr.ok], rfl⟩
  dsimp only
  split
  next e he =>
    refine .inl ⟨andThen_ne_ok (fun e' he' => ?_) he, rfl⟩
    split at he'
    next e'' hr =>
      obtain rfl := Except.error.inj he'
      exact readSlot_ne_ok hr
    · split at he'
      · obtain rfl := Except.error.inj he'
        decide
      · cases he'
  · exact .inr ⟨side, hside, rfl, rfl⟩

/-- A commit that succeeds selects the slot of its transaction. -/
theorem commit_ok {s : Store} {t : Transaction} {f : Faults}
    (h : (pmConfigCommit s t f).result = some .ok) :
    ∃ side, slotOf t.candidateSlot = some side ∧ (pmConfigCommit s t f).selected = some side := by
  rcases commit_cases s t f with ⟨hne, -⟩ | ⟨side, hside, hr, hs⟩
  · exact absurd h hne
  · rw [hr] at h
    exact ⟨side, hside, by rw [hs, NvsWrite.landed_of_ok h]; rfl⟩

/-- A commit that does not succeed selects nothing, when a failed write has no effect. -/
theorem commit_not_ok {s : Store} {t : Transaction} {f : Faults}
    (hw : f.write.result ≠ some .ok → f.write.landed = false)
    (h : (pmConfigCommit s t f).result ≠ some .ok) : (pmConfigCommit s t f).selected = none := by
  rcases commit_cases s t f with ⟨-, hs⟩ | ⟨side, -, hr, hs⟩
  · exact hs
  · rw [hr] at h
    rw [hs, hw h]
    rfl

end

/-! ## What the load sees -/

/-- The namespace was missing and is there now. -/
def FirstOpening (before after : Flash) : Prop := before.made = false ∧ after.made = true

theorem load_missing {flash : Flash} (h : flash.made = false) :
    load flash = .error (some .nvsNotFound) := by
  simp [load, pmConfigLoad, NvsRead.andThen, h]

/-- The load of a namespace that is there. -/
theorem load_make (flash : Flash) : load flash.make =
    match flash.active with
    | none => .error (some .notFound)
    | some c =>
      match slotOf c with
      | none => .error (some .invalidState)
      | some side => slotContent (flash.slots.get side) := by
  simp only [load, pmConfigLoad, NvsRead.andThen, readSelector, readSlot, Flash.make]
  cases flash.active <;> rfl

theorem load_eq_make {flash : Flash} (h : flash.made = true) : load flash = load flash.make := by
  obtain ⟨made, active, slots, blank⟩ := flash
  obtain rfl : made = true := h
  rfl

/-- What a load of a missing namespace becomes when the namespace is made. -/
theorem load_make_missing {flash : Flash} (h : flash.made = false) :
    load flash.make = .error (some .notFound) := by
  rw [load_make, (flash.blank h).1]

/-- **A contained call that moves no selector** leaves the load of the namespace alone. -/
theorem Outcome.Contained.load_made {s : Store} {o : Outcome} (h : o.Contained s)
    (hs : o.selected = none) : load o.store.flash.make = load s.flash.make := by
  rw [load_make, load_make, h.unselected hs]
  cases ha : s.flash.active with
  | none => rfl
  | some c =>
    dsimp only
    cases hc : slotOf c with
    | none => rfl
    | some side =>
      dsimp only
      rw [h.slots side fun ht => h.touched side ht (by rw [ha, slotOf_eq_some hc])]

/-- The load returns what it did, unless the namespace was missing and has been made, which changes
its error. -/
structure LoadKept (before after : Flash) : Prop where
  made : before.made = true → after.made = true
  unchanged : ¬FirstOpening before after → load after = load before
  opened : FirstOpening before after →
    load before = .error (some .nvsNotFound) ∧ load after = .error (some .notFound)

theorem LoadKept.refl (flash : Flash) : LoadKept flash flash where
  made := id
  unchanged _ := rfl
  opened h := by
    rw [FirstOpening, h.1] at h
    cases h.2

theorem Outcome.Contained.loadKept {s : Store} {o : Outcome} (h : o.Contained s)
    (hs : o.selected = none) : LoadKept s.flash o.store.flash where
  made := h.made
  unchanged hopen := by
    cases hbefore : s.flash.made with
    | true => rw [load_eq_make (h.made hbefore), load_eq_make hbefore, h.load_made hs]
    | false =>
      cases hafter : o.store.flash.made with
      | true => exact absurd ⟨hbefore, hafter⟩ hopen
      | false => rw [load_missing hbefore, load_missing hafter]
  opened hopen := by
    rw [load_missing hopen.1, load_eq_make hopen.2, h.load_made hs, load_make_missing hopen.1]
    exact ⟨rfl, rfl⟩

/-- A contained call that moves the selector makes the load return the slot it names. -/
theorem Outcome.Contained.load_selected {s : Store} {o : Outcome} (h : o.Contained s) {side : Side}
    (hs : o.selected = some side) :
    ∃ c, s.flash.slots.get side = some (.config c) ∧ load o.store.flash = .ok c ∧
      slotContent (s.flash.slots.get side) = .ok c := by
  obtain ⟨ht, hmade, hactive, c, hc, hv⟩ := h.selected side hs
  have hslot := h.slots side (by rw [ht]; simp)
  have hcontent : slotContent (s.flash.slots.get side) = .ok c := by simp [hc, slotContent, hv]
  refine ⟨c, hc, ?_, hcontent⟩
  rw [load_eq_make hmade, load_make, hactive]
  simp only [slotOf_slotChar, hslot, hcontent]

/-! ## Histories -/

/-- One step of a history: a call under faults, or a power loss between calls. -/
inductive ConfigAct
  | call (c : ConfigCall) (f : Faults)
  | powerLoss

/-- Whether the step is one of the two calls that may commit. -/
def ConfigAct.commits : ConfigAct → Bool
  | .call c _ => c.commits
  | .powerLoss => false

/-- The store, and what the last effective selector write committed: before the first, what the
namespace holds at the start. -/
structure ConfigHistory where
  store : Store
  committed : Except CallEnd PmConfig

namespace ConfigHistory

/-- A boot over the flash `flash`: what is committed is what its namespace holds. -/
def start (flash : Flash) : ConfigHistory := ⟨Store.boot flash, load flash.make⟩

variable [Sha256]

/-- The outcome of the step's call. -/
def outcome (h : ConfigHistory) : ConfigAct → Outcome
  | .call c f => c.perform h.store f
  | .powerLoss => h.store.keep none .zero

/-- One step. A selector write that takes effect commits the content of the slot it names, as it is
when the write is made. -/
def step (h : ConfigHistory) (a : ConfigAct) : ConfigHistory :=
  let o := h.outcome a
  { store := if o.result = none then Store.boot o.store.flash else o.store
    committed := match o.selected with
      | none => h.committed
      | some side => slotContent (h.store.flash.slots.get side) }

/-- **The commit point.** The step touches no slot the selector names; it changes what the load
returns only if it is a commit or an activation whose selector write takes effect, and then to the
valid configuration in the slot that write names, or if it is the first to open the namespace for
writing, and then from `ESP_ERR_NVS_NOT_FOUND` to `ESP_ERR_NOT_FOUND`. -/
structure CommitPoint (h : ConfigHistory) (a : ConfigAct) : Prop where
  untouched : ∀ side, (h.outcome a).touched = some side →
    h.store.flash.active ≠ some (slotChar side)
  kept : (h.outcome a).selected = none → LoadKept h.store.flash (h.step a).store.flash
  changed : ∀ side, (h.outcome a).selected = some side → a.commits = true ∧
    ∃ c, h.store.flash.slots.get side = some (.config c) ∧ load (h.step a).store.flash = .ok c

theorem contained (h : ConfigHistory) (a : ConfigAct) : (h.outcome a).Contained h.store := by
  cases a with
  | call c f => exact c.perform_contained h.store f
  | powerLoss => exact .of_flash (.refl _) rfl rfl

theorem flash_step (h : ConfigHistory) (a : ConfigAct) :
    (h.step a).store.flash = (h.outcome a).store.flash := by
  simp only [step]
  split <;> rfl

theorem commits_of_selected (h : ConfigHistory) (a : ConfigAct) {side : Side}
    (hs : (h.outcome a).selected = some side) : a.commits = true := by
  cases a with
  | powerLoss => cases hs
  | call c f =>
    by_contra hc
    rw [outcome, c.selected_eq_none (by simpa [ConfigAct.commits] using hc)] at hs
    cases hs

theorem commitPoint (h : ConfigHistory) (a : ConfigAct) : h.CommitPoint a where
  untouched := (h.contained a).touched
  kept hs := by
    rw [flash_step]
    exact (h.contained a).loadKept hs
  changed side hs := by
    obtain ⟨c, hc, hload, -⟩ := (h.contained a).load_selected hs
    exact ⟨h.commits_of_selected a hs, c, hc, by rw [flash_step, hload]⟩

theorem step_committed {h : ConfigHistory} (hi : load h.store.flash.make = h.committed)
    (a : ConfigAct) : load (h.step a).store.flash.make = (h.step a).committed := by
  rw [flash_step]
  cases hs : (h.outcome a).selected with
  | none => rw [(h.contained a).load_made hs, hi, step, hs]
  | some side =>
    obtain ⟨c, -, hload, hcontent⟩ := (h.contained a).load_selected hs
    have hmade := ((h.contained a).selected side hs).2.1
    rw [← load_eq_make hmade, hload, step, hs]
    exact hcontent.symm

/-- **The load returns what was committed**, after every sequence of calls, faults and power losses
from any flash contents, or `ESP_ERR_NVS_NOT_FOUND` as long as no call has opened the missing
namespace for writing; and every step respects the commit point. -/
theorem load_eq_committed (flash : Flash) (acts : List ConfigAct) :
    (load (run step (start flash) acts).store.flash =
      if (run step (start flash) acts).store.flash.made then (run step (start flash) acts).committed
      else .error (some .nvsNotFound)) ∧
      Along step CommitPoint (start flash) acts := by
  have hcommitted := run_invariant (I := fun h : ConfigHistory =>
    load h.store.flash.make = h.committed) (fun _ a hi => step_committed hi a)
    (s := start flash) rfl acts
  refine ⟨?_, Along.of_forall commitPoint _ acts⟩
  split
  next hmade => rw [load_eq_make hmade, hcommitted]
  next hmade => exact load_missing (by simpa using hmade)

/-- The first staging on a device that was never configured. -/
theorem first_begin {candidate : PmConfig}
    (hvalid : pmConfigValidate (staged candidate) false = .ok) :
    let a := ConfigAct.call (.begin candidate .zero) Faults.none
    ((start Flash.fresh).outcome a).selected = none ∧
      load Flash.fresh = .error (some .nvsNotFound) ∧
      load ((start Flash.fresh).step a).store.flash = .error (some .notFound) := by
  intro a
  have hsel : ((start Flash.fresh).outcome a).selected = none :=
    (ConfigCall.begin candidate .zero).selected_eq_none rfl _ _
  have hmade : ((start Flash.fresh).step a).store.flash.made = true := by
    rw [flash_step]
    exact made_begin hvalid rfl rfl ⟨rfl, rfl⟩
  exact ⟨hsel, ((commitPoint (start Flash.fresh) a).kept hsel).opened ⟨rfl, hmade⟩⟩

omit [Sha256] in
/-- A call that moves no selector can change what the load returns. -/
theorem first_begin_changes_load :
    ¬∀ (flash : Flash) (a : ConfigAct), flash.active = none →
      (@outcome .standard (start flash) a).selected = none →
      load (@step .standard (start flash) a).store.flash = load flash := by
  intro h
  obtain ⟨hsel, hbefore, hafter⟩ := @first_begin .standard sampleConfig sampleConfig_valid
  have heq := hafter.symm.trans ((h _ _ rfl hsel).trans hbefore)
  exact absurd heq (by decide)

end ConfigHistory

end PowerMonitor.Config
