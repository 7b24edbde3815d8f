import PowerMonitor.Commands.History

/-!
# Crash safety of the command ledger

What a load finds after any history, and where the next write goes. The conditions `WritesEven` and
`StoresLoadable` are met by every call of the active firmware, which never redacts and asks for no
acknowledgement, and they are exact: `overwrites_of_odd` is the write that hits the acknowledged
slot when the first one fails, and `not_durable_of_ackDue` is the ledger that no load returns when
the second one does. `ledger_crash_safe` and `redaction_crash_safe_iff` are the two results.
-/

namespace PowerMonitor.Commands

open CMemory AbStore Runs Relation

variable [Sha256]

namespace History

/-! ## Whole histories -/

theorem Inv.durable {h : History} (hi : Inv h) : h.Durable := by
  intro f
  obtain ⟨l, hload, hcase, -⟩ := hi.load_eq f
  refine ⟨l, hload, ?_, ?_, fun p hp => (hi.completed p hp).trans ?_⟩
  · exact hcase.elim (· ▸ hi.acked_mem) fun hl => hi.pending_mem l hl.1
  · exact hi.persisted_le.trans (hcase.elim (· ▸ le_rfl) fun hl => hl.2.le)
  · exact hcase.elim (· ▸ .refl) fun hl => hi.pending l hl.1

theorem Inv.staysRedacted {h : History} (hi : Inv h) : h.StaysRedacted := by
  intro f m hm id hid
  obtain ⟨l, hload, hcase, -⟩ := hi.load_eq f
  obtain rfl : m = l := by
    rw [hload] at hm
    exact (Loaded.mk.inj hm).2.1.symm
  exact hcase.elim (· ▸ hi.redacted id hid) fun hl => hi.redacted_pending id hid m hl.1

/-- A load of a store in use writes nothing. -/
theorem Inv.target_load {h : History} (hi : Inv h) (f : LedgerFault) :
    h.target (.load f) = none := by
  obtain ⟨l, hload, -⟩ := hi.load_eq f
  simp [target, hload]

/-- The slot a call writes is that of the generation after the one in RAM. -/
theorem target_call {h : History} {c : Call} {f : LedgerFault} {l : Ledger} (hram : h.ram = some l)
    {side : Side} (ht : h.target (.call c f) = some side) :
    c.proceeds l = true ∧ f.reaches = true ∧ l.generation ≠ uint32Max ∧
      side = sideOf (l.generation + 1) := by
  simp only [target, hram] at ht
  obtain ⟨m, hm, rfl⟩ := Option.map_eq_some_iff.1 ht
  rcases c.perform_cases l h.nvs f with ⟨-, e, he⟩ | ⟨hpro, l', hp⟩
  · rw [he] at hm
    cases hm
  · rw [hp.persisted, Option.bind_some] at hm
    obtain ⟨hreach, hmax⟩ := reaches_of_written hm
    rw [persist, if_neg hmax] at hm
    simp only [hreach, if_true, Option.some.injEq] at hm
    rw [hp.edit.generation] at hmax
    rw [← hm, stamp_generation, hp.edit.generation]
    exact ⟨hpro, hreach, hmax, rfl⟩

theorem target_of_proceeds {h : History} {c : Call} {f : LedgerFault} {l : Ledger}
    (hram : h.ram = some l) (hpro : c.proceeds l = true) (hreach : f.reaches = true)
    (hmax : l.generation ≠ uint32Max) :
    h.target (.call c f) = some (sideOf (l.generation + 1)) := by
  rcases c.perform_cases l h.nvs f with ⟨hno, -⟩ | ⟨-, l', hp⟩
  · rw [hpro] at hno
    cases hno
  · simp [target, hram, hp.persisted, persist, hmax, hreach, hp.edit.generation]

/-- **An even write spares the acknowledged ledger.** -/
theorem Inv.not_overwrites {h : History} (hi : Inv h) {a : Act} (heven : h.WritesEven a) :
    ¬h.Overwrites a := by
  rintro ⟨side, ht, hget⟩
  cases a with
  | powerLoss => cases ht
  | load f =>
    rw [hi.target_load f] at ht
    cases ht
  | call c f =>
    cases hram : h.ram with
    | none => simp [target, hram] at ht
    | some l =>
      obtain ⟨hpro, hreach, hmax, rfl⟩ := target_call hram ht
      obtain ⟨-, hside⟩ := (hi.ram l hram).next_side (m := l) hmax
        (heven l hram hmax hpro hreach) rfl
      rw [stamp_generation] at hside
      rw [hside] at hget
      rcases hi.store.rest _ hget hi.store.accepted with h | ⟨-, h, -⟩ <;> exact lt_irrefl _ h

/-- **An odd write hits the acknowledged ledger.** -/
theorem Inv.overwrites_of_odd {h : History} (hi : Inv h) {a : Act} (hodd : ¬h.WritesEven a) :
    h.Overwrites a := by
  cases a with
  | powerLoss => exact absurd trivial hodd
  | load f => exact absurd trivial hodd
  | call c f =>
    simp only [WritesEven, not_forall] at hodd
    obtain ⟨l, hram, hmax, hpro, hreach, hodd⟩ := hodd
    obtain ⟨-, ha⟩ := (hi.ram l hram).ahead.resolve_left hmax
    refine ⟨sideOf (l.generation + 1), target_of_proceeds hram hpro hreach hmax, ?_⟩
    have : sideOf (l.generation + 1) = sideOf h.acked.generation := by
      rw [sideOf_eq_iff, ha]
      omega
    rw [this, hi.store.stored]

/-- The entry of a command with an acknowledgement due makes the loader refuse the ledger. -/
theorem ledgerValid_stamp_ackDue {l : Ledger} {i : EntryIndex} {incoming : Command} {now : ℤ}
    (hok : acceptRefused incoming = false) (hack : incoming.resultAckRequired = true) :
    ledgerValid (stamp (storeCommand l i (acceptedCommand incoming now))) = false := by
  rw [← Bool.not_eq_true]
  intro hv
  have hocc : (acceptedCommand incoming now).occupied = true := by
    simp only [acceptRefused, Bool.or_eq_false_iff] at hok
    simp [Command.occupied, acceptedCommand, hok.1.1.1]
  have hsound := (ledgerSound_of_valid hv).1.sound i
  rw [stamp_occupied, stamp_entries] at hsound
  simp only [storeCommand, Ledger.setEntry_entries, Function.update_self, hocc, if_true] at hsound
  exact absurd ((not_sound_accepted hack).symm.trans (hsound trivial)) (by decide)

/-- Storing a command with an acknowledgement due is acknowledged, though the loader refuses what is
written. -/
theorem Inv.stores_ackDue {h : History} (hi : Inv h) {c : Call} {l : Ledger}
    (heven : h.WritesEven (.call c .none)) (hram : h.ram = some l) (hmax : l.generation ≠ uint32Max)
    (hpro : c.proceeds l = true) (hack : c.ackDue = true) :
    ∃ m, ledgerValid m = false ∧ h.acked.generation < m.generation ∧
      (h.step (.call c .none)).nvs = h.nvs.set (sideOf h.acked.generation).other (some m) ∧
      (h.step (.call c .none)).persisted = m := by
  cases c with
  | accept incoming now mallocOk =>
    have hcase := commandAccept_cases l incoming now mallocOk h.nvs .none
    generalize ha : commandAccept l incoming now mallocOk h.nvs .none = a at hcase
    have hpersist : ∀ i, (persist (storeCommand l i (acceptedCommand incoming now)) h.nvs
        .none).result = some .ok := fun i => (persist_ok_iff _ _ _).2 ⟨hmax, rfl⟩
    cases hcase with
    | refused e _ hstop => rw [Call.proceeds, hstop] at hpro; cases hpro
    | found i _ hdup => simp [Call.proceeds, hdup] at hpro
    | undone i _ _ _ _ p hp hres => exact absurd (hp ▸ hpersist i) hres
    | stored i hok _ _ _ p hp hres =>
      obtain ⟨m, hm⟩ : ∃ m, m = storeCommand l i (acceptedCommand incoming now) := ⟨_, rfl⟩
      have hgen : m.generation = l.generation := by rw [hm]; rfl
      obtain ⟨hlt, hside⟩ := (hi.ram l hram).next_side hmax (heven l hram hmax hpro rfl) hgen
      have hinvalid : ledgerValid (stamp m) = false := hm ▸ ledgerValid_stamp_ackDue hok hack
      rw [← hm, persist_eq (hgen ▸ hmax)] at hp
      subst hp
      refine ⟨stamp m, hinvalid, hlt, ?_⟩
      simp only [step, hram, Call.perform, ha, record, writeBlob, endCode, if_true]
      rw [← hside]
      exact ⟨rfl, trivial⟩
  | _ => cases hack

/-- **A stored command with an acknowledgement due** is not in what the next load returns, nor is
anything else of the ledger that was acknowledged with it. -/
theorem Inv.not_durable_of_ackDue {h : History} (hi : Inv h) {c : Call} {l : Ledger}
    (heven : h.WritesEven (.call c .none)) (hram : h.ram = some l) (hmax : l.generation ≠ uint32Max)
    (hpro : c.proceeds l = true) (hack : c.ackDue = true) :
    ¬(h.step (.call c .none)).Durable := by
  obtain ⟨m, hinvalid, hlt, hnvs, hpersisted⟩ := hi.stores_ackDue heven hram hmax hpro hack
  intro hdur
  obtain ⟨l', hload, -, hle, -⟩ := hdur .none
  -- the load finds the ledger acknowledged before
  have hold := pmCommandsLoad_of_alone (hi.store.spoil hinvalid) .none
  rw [← hnvs] at hold
  have heq : h.acked = l' := congrArg Loaded.ledger (hold.symm.trans hload)
  rw [← heq, hpersisted] at hle
  exact absurd hlt (not_lt.2 hle)

/-- The claim of a whole history: `P` holds in every state, the last included, and no step
overwrites the newest acknowledged ledger. -/
def Throughout (P : History → Prop) (acts : List Act) : Prop :=
  Along step (fun h a => P h ∧ ¬h.Overwrites a) start acts ∧ P (run step start acts)

/-- The conditions on one step. -/
def Careful (h : History) (a : Act) : Prop := h.WritesEven a ∧ h.StoresLoadable a

theorem Inv.along {P : History → Prop} (hP : ∀ h, Inv h → P h) {acts : List Act} {h : History}
    (hi : Inv h) (hcare : Along step Careful h acts) :
    Along step (fun h a => P h ∧ ¬h.Overwrites a) h acts := by
  induction acts generalizing h with
  | nil => trivial
  | cons a acts ih =>
    exact ⟨⟨hP h hi, hi.not_overwrites hcare.1.1⟩, ih (step_inv hi hcare.1.1 hcare.1.2) hcare.2⟩

theorem throughout_of_careful {P : History → Prop} (hP : ∀ h, Inv h → P h) {acts : List Act}
    (hcare : Along step Careful start acts) : Throughout P acts :=
  ⟨start_inv.along hP hcare,
    hP _ (Along.invariant (I := Inv) (fun _ _ hi he => step_inv hi he.1 he.2) start_inv hcare)⟩

/-- A history that is durable in every state, and overwrites no acknowledged ledger, is careful: the
first step that is not would break one of the two. -/
theorem careful_of_durable {acts : List Act} {h : History} (hi : Inv h)
    (hdur : Along step (fun h a => h.Durable ∧ ¬h.Overwrites a) h acts)
    (hend : (run step h acts).Durable) : Along step Careful h acts := by
  induction acts generalizing h with
  | nil => trivial
  | cons a acts ih =>
    have heven : h.WritesEven a := by
      by_contra hodd
      exact hdur.1.2 (hi.overwrites_of_odd hodd)
    have hnext : (h.step a).Durable := by
      cases acts with
      | nil => exact hend
      | cons b acts => exact hdur.2.1.1
    have hloadable : h.StoresLoadable a := by
      cases a with
      | call c f =>
        rintro l hram hmax hpro rfl
        by_contra hack
        exact hi.not_durable_of_ackDue heven hram hmax hpro (by simpa using hack) hnext
      | powerLoss => trivial
      | load f => trivial
    exact ⟨⟨heven, hloadable⟩, ih (step_inv hi heven hloadable) hdur.2 hend⟩

/-! ## The firmware's calls -/

/-- A step of the active firmware: any but a redaction or the accept of a command with an
acknowledgement due. -/
abbrev FirmwareAct := { a : Act // a.redacts = false ∧ a.ackDue = false }

theorem failedRedactions_step {h : History} (h0 : h.failedRedactions = 0) {a : Act}
    (ha : a.redacts = false) : (h.step a).failedRedactions = 0 := by
  cases a with
  | powerLoss => exact h0
  | load f =>
    simp only [step]
    split
    · rfl
    · exact h0
  | call c f =>
    have hc : c.redacts = false := ha
    simp only [step]
    split
    · exact h0
    · dsimp only
      split
      · exact h0
      · simp only [record, hc, Bool.toNat_false, h0]
        split <;> rfl

theorem careful_of_firmware {h : History} (h0 : h.failedRedactions = 0)
    (acts : List FirmwareAct) : Along step Careful h (acts.map Subtype.val) := by
  induction acts generalizing h with
  | nil => trivial
  | cons a acts ih =>
    refine ⟨?_, ih (failedRedactions_step h0 a.2.1)⟩
    obtain ⟨a, -, hack⟩ := a
    cases a with
    | call c f => exact ⟨fun l _ _ _ _ => by rw [h0], fun _ _ _ _ _ => hack⟩
    | powerLoss => exact ⟨trivial, trivial⟩
    | load f => exact ⟨trivial, trivial⟩

/-- **The ledger survives every crash of the active firmware**: at every point of every history of
accepts, transitions, acknowledgements and boot reconciliations, with any faults, power losses and
loads, the next load is durable and no write targets the newest acknowledged ledger. -/
theorem ledger_crash_safe (acts : List FirmwareAct) : Throughout Durable (acts.map Subtype.val) :=
  throughout_of_careful (fun _ hi => hi.durable) (careful_of_firmware rfl acts)

/-- **Redactions are crash safe exactly while no write is odd** and no stored command has an
acknowledgement due. -/
theorem redaction_crash_safe_iff (acts : List Act) :
    Throughout (fun h => h.Durable ∧ h.StaysRedacted) acts ↔
      Along step (fun h a => h.WritesEven a ∧ h.StoresLoadable a) start acts := by
  refine ⟨fun h => careful_of_durable start_inv ?_ h.2.1,
    throughout_of_careful fun _ hi => ⟨hi.durable, hi.staysRedacted⟩⟩
  exact h.1.imp fun _ _ h => ⟨h.1.1, h.2⟩

/-! ## Where the conditions matter -/

/-- The first command of the histories below. -/
def firstCommand : Command :=
  parsedCommand (.sample .diagnosticsSnapshot (.refl true) 1 one_ne_nul) 0

/-- The ledger in which it is stored. -/
def firstLedger : Ledger :=
  stamp (storeCommand (stamp Ledger.zero) 0 (acceptedCommand firstCommand 0))

theorem firstLedger_generation : firstLedger.generation = 2 := rfl

theorem firstLedger_state : (firstLedger.entries 0).state = .accepted ∧
    (firstLedger.entries 0).progressPercent = 0 ∧ (firstLedger.entries 0).occupied = true := by
  have hocc : (acceptedCommand firstCommand 0).occupied =
      firstCommand.occupied := rfl
  have hfirst : firstCommand.occupied = true := by decide
  rw [firstLedger, stamp_occupied, stamp_entries]
  simp only [storeCommand, Ledger.setEntry_entries, Function.update_self, hocc, hfirst, if_true,
    and_true]
  exact ⟨rfl, rfl⟩

theorem persist_first (nvs : Slots Ledger) (f : LedgerFault) :
    persist (storeCommand (stamp Ledger.zero) 0 (acceptedCommand firstCommand 0)) nvs f =
      ⟨endCode (writeBlob f .b firstLedger nvs).1, firstLedger,
        (writeBlob f .b firstLedger nvs).2, if f.reaches then some firstLedger else none⟩ := by
  have hg : (storeCommand (stamp Ledger.zero) 0
      (acceptedCommand firstCommand 0)).generation = 1 := rfl
  have hside : sideOf 2 = .b := by decide
  rw [persist_eq (by rw [hg]; decide), ← firstLedger, hg, hside]

theorem accept_first (nvs : Slots Ledger) (f : LedgerFault) :
    ∃ o, (Call.accept firstCommand 0 true).perform (stamp Ledger.zero) nvs f = o ∧
      o.persisted = some (persist (storeCommand (stamp Ledger.zero) 0
        (acceptedCommand firstCommand 0)) nvs f) ∧
      o.nvs = (persist (storeCommand (stamp Ledger.zero) 0
        (acceptedCommand firstCommand 0)) nvs f).nvs ∧
      (f = .none → o.result = some .ok ∧ o.ledger = firstLedger) := by
  have hok : acceptRefused firstCommand = false := by decide
  have hdup : findDuplicate (stamp Ledger.zero) firstCommand = none := by decide
  have hsel : selectEntry (stamp Ledger.zero) = some 0 := by decide
  have hopen : (acceptedCommand firstCommand 0).state ≠ .expired := by
    simp [acceptedCommand, firstCommand, parsedCommand, CommandItem.sample]
  refine ⟨_, rfl, ?_, ?_, ?_⟩ <;>
    simp only [Call.perform, commandAccept, hok, hdup, hsel, Bool.not_true, if_false,
      Bool.false_eq_true]
  · split <;> rfl
  · split <;> rfl
  · rintro rfl
    simp [persist_first, writeBlob, endCode, hopen]

/-- The history after the first command was stored, under fault `f`. -/
theorem step_first (f : LedgerFault) :
    ∃ ram, (f = .none → ram = some firstLedger) ∧
      start.step (.call (.accept firstCommand 0 true) f) =
      { start.record (.accept firstCommand 0 true) (stamp Ledger.zero)
          (persist (storeCommand (stamp Ledger.zero) 0 (acceptedCommand firstCommand 0))
            start.nvs f) with
        nvs := (writeBlob f .b firstLedger start.nvs).2
        ram := ram } := by
  obtain ⟨o, ho, hp, hn, hok⟩ := accept_first start.nvs f
  refine ⟨o.result.map fun _ => o.ledger, fun h => by simp [hok h], ?_⟩
  have hram : start.ram = some (stamp Ledger.zero) := rfl
  simp only [step, hram, ho, hp, hn, persist_first]

theorem load_first (f : LedgerFault) :
    pmCommandsLoad ⟨some (stamp Ledger.zero), some firstLedger⟩ f =
      ⟨some .ok, firstLedger, ⟨some (stamp Ledger.zero), some firstLedger⟩, none⟩ := by
  have hh : Holds ledgerValid Ledger.generation ⟨some (stamp Ledger.zero), some firstLedger⟩
      firstLedger (fun _ => False) := by
    have hdup : findDuplicate (stamp Ledger.zero) firstCommand = none := by decide
    have hsound := (Edit.storeCommand 0 true 0 (by decide) hdup).sound rfl
      ledgerSound_zero.stamp
    refine ⟨by rw [firstLedger_generation]; rfl, ledgerValid_stamp hsound, fun y hy _ => .inl ?_⟩
    rw [firstLedger_generation] at hy ⊢
    obtain rfl := Option.some.inj hy
    decide
  exact pmCommandsLoad_of_alone hh f

/-- The first command, with an acknowledgement of its result due. -/
def ackDueCommand : Command := { firstCommand with resultAckRequired := true }

/-- Storing it is acknowledged, and the next load returns the ledger before it. -/
theorem ackDue_not_durable : ¬(run step start [.call (.accept ackDueCommand 0 true) .none]).Durable := by
  have hok : acceptRefused ackDueCommand = false := by decide
  have hdup : findDuplicate (stamp Ledger.zero) ackDueCommand = none := by decide
  have hsel : selectEntry (stamp Ledger.zero) = some 0 := by decide
  have hgen : (stamp Ledger.zero).generation ≠ uint32Max := by rw [stamp_generation]; decide
  have hram : start.ram = some (stamp Ledger.zero) := rfl
  have hpro : (Call.accept ackDueCommand 0 true).proceeds (stamp Ledger.zero) = true := by
    simp [Call.proceeds, hok, hdup, hsel]
  exact start_inv.not_durable_of_ackDue (fun _ _ _ _ _ => rfl) hram hgen hpro rfl

omit [Sha256] in
/-- A write that reports a failure may be stored all the same; the load after it then acknowledges
it, and the next write goes to the slot of the last ledger a `persist` had acknowledged. And an
accept with an acknowledgement due is rolled back at the next load. -/
theorem persisted_slot_overwritten :
    (¬∃ _ : Sha256, ∀ (acts : List FirmwareAct) (a : FirmwareAct) (side : Side),
      (run step start (acts.map Subtype.val)).target a.1 = some side →
        (run step start (acts.map Subtype.val)).nvs.get side ≠
          some (run step start (acts.map Subtype.val)).persisted) ∧
    ¬∃ _ : Sha256, ∀ acts : List Act, (∀ a ∈ acts, a.redacts = false) →
      (run step start acts).Durable := by
  refine ⟨?_, fun ⟨_, h⟩ => ackDue_not_durable (h _ (by simp [Act.redacts, Call.redacts]))⟩
  rintro ⟨_, h⟩
  let a₁ : Act := .call (.accept firstCommand 0 true) (.commitFails .generic .new)
  let a₂ : Act := .call (.transition 0 .running 0 0 true) .none
  obtain ⟨ram, -, hstep⟩ := step_first (.commitFails .generic .new)
  have hnvs₁ : (start.step a₁).nvs = ⟨some (stamp Ledger.zero), some firstLedger⟩ := by
    rw [hstep]
    rfl
  have hpers₁ : (start.step a₁).persisted = stamp Ledger.zero := by
    rw [hstep, persist_first, record, if_neg (by simp [writeBlob, endCode, Failure.generic,
      EspErr.fail, EspErr.ok])]
    rfl
  -- the state after the failed write, the power loss and the load
  obtain ⟨h', hrun, hnvs, hram, hpers⟩ : ∃ h', run step start [a₁, .powerLoss, .load .none] = h' ∧
      h'.nvs = ⟨some (stamp Ledger.zero), some firstLedger⟩ ∧ h'.ram = some firstLedger ∧
      h'.persisted = stamp Ledger.zero := by
    rw [run_cons, run_cons, run_cons, run_nil]
    generalize start.step a₁ = h₁ at hnvs₁ hpers₁
    have hload := load_first .none
    rw [← hnvs₁] at hload
    rw [step_load (h := h₁.step .powerLoss) hload]
    exact ⟨_, rfl, hnvs₁, rfl, hpers₁⟩
  have hproceeds : (Call.transition 0 .running 0 0 true).proceeds firstLedger = true := by
    obtain ⟨hs, hp, -⟩ := firstLedger_state
    simp [Call.proceeds, transitionRefused, hs, hp, CommandState.inRange, transitionFinal]
  have hbad := h [⟨a₁, rfl, rfl⟩, ⟨.powerLoss, rfl, rfl⟩, ⟨.load .none, rfl, rfl⟩] ⟨a₂, rfl, rfl⟩ .a
  simp only [List.map_cons, List.map_nil, hrun] at hbad
  refine hbad ?_ ?_
  · rw [target_of_proceeds hram hproceeds rfl (by rw [firstLedger_generation]; decide),
      firstLedger_generation]
    rfl
  · rw [hnvs, hpers]
    rfl

/-- A redaction, as far as its write: the same commands under the next generation. -/
theorem zeroize_step {h : History} {l : Ledger} {i : EntryIndex} (hram : h.ram = some l)
    (hocc : (l.entries i).occupied = true) (hmax : l.generation ≠ uint32Max) (f : LedgerFault) :
    ∃ m : Ledger, m.generation = l.generation + 1 ∧ (m.entries i).occupied = true ∧
      (h.step (.call (.zeroizePayload i) f)).nvs =
        (writeBlob f (sideOf (l.generation + 1)) m h.nvs).2 ∧
      ((writeBlob f (sideOf (l.generation + 1)) m h.nvs).1 ≠ .success →
        (h.step (.call (.zeroizePayload i) f)).persisted = h.persisted) ∧
      (h.step (.call (.zeroizePayload i) f)).ram =
        (endCode (writeBlob f (sideOf (l.generation + 1)) m h.nvs).1).map fun _ => m := by
  obtain ⟨l', hl'⟩ : ∃ l', l' = if (l.entries i).payloadRedacted then l else
      l.setEntry i { l.entries i with payload := Bytes.zero 1537, payloadRedacted := true } :=
    ⟨_, rfl⟩
  have hgen : l'.generation = l.generation := by
    rw [hl']
    split <;> rfl
  have hocc' : (l'.entries i).occupied = true := by
    rw [hl']
    split
    · exact hocc
    · simpa [Command.occupied] using hocc
  have hpers : persist l' h.nvs f = ⟨endCode (writeBlob f (sideOf (l.generation + 1)) (stamp l')
      h.nvs).1, stamp l', (writeBlob f (sideOf (l.generation + 1)) (stamp l') h.nvs).2,
      if f.reaches then some (stamp l') else none⟩ := by
    rw [persist_eq (hgen ▸ hmax), hgen]
  have hz : (Call.zeroizePayload i).perform l h.nvs f = ⟨(persist l' h.nvs f).result,
      (persist l' h.nvs f).ledger, (persist l' h.nvs f).nvs, some (persist l' h.nvs f)⟩ := by
    simp only [Call.perform, commandZeroizePayload, hocc, ← hl']
    rfl
  refine ⟨stamp l', by rw [stamp_generation, hgen], by rwa [stamp_occupied], ?_⟩
  simp only [step, hram, hz, hpers]
  refine ⟨trivial, fun hne => ?_, trivial⟩
  rw [record, if_neg (endCode_ne_ok hne)]

/-- A ledger that fails the loader's check. -/
def tornLedger : Ledger := { Ledger.zero with next := ledgerSize }

theorem tornLedger_invalid : ledgerValid tornLedger = false := by
  have : ¬tornLedger.next < ledgerSize := lt_irrefl _
  simp [ledgerValid, this]

omit [Sha256] in
/-- One failed redaction makes the retry write over the newest acknowledged ledger; torn by a power
loss, that write leaves only the ledger before it. -/
theorem redaction_retry_loses_ledger :
    ¬∃ _ : Sha256, ∀ acts : List Act, (run step start acts).Durable := by
  rintro ⟨_, hdur⟩
  obtain ⟨ram, hram, hstep⟩ := step_first .none
  specialize hdur [.call (.accept firstCommand 0 true) .none,
    .call (.zeroizePayload 0) (.openFails .generic),
    .call (.zeroizePayload 0) (.powerLoss (.torn tornLedger tornLedger_invalid))]
  rw [run_cons, run_cons, run_cons, run_nil] at hdur
  have hnvs₁ : (start.step (.call (.accept firstCommand 0 true) .none)).nvs =
      ⟨some (stamp Ledger.zero), some firstLedger⟩ := by
    rw [hstep]
    rfl
  have hram₁ : (start.step (.call (.accept firstCommand 0 true) .none)).ram =
      some firstLedger := by
    rw [hstep]
    exact hram rfl
  have hpers₁ : (start.step (.call (.accept firstCommand 0 true) .none)).persisted =
      firstLedger := by
    rw [hstep, persist_first, record, if_pos (by rfl)]
  generalize start.step (.call (.accept firstCommand 0 true) .none) = h₁ at *
  have hmax : firstLedger.generation ≠ uint32Max := by rw [firstLedger_generation]; decide
  obtain ⟨m, hgen, hocc, hnvs₂, hpers₂, hram₂⟩ :=
    zeroize_step hram₁ firstLedger_state.2.2 hmax (.openFails .generic)
  rw [firstLedger_generation] at hgen hnvs₂ hpers₂ hram₂
  obtain ⟨m', -, -, hnvs₃, hpers₃, -⟩ :=
    zeroize_step hram₂ hocc (by rw [hgen]; decide)
      (.powerLoss (.torn tornLedger tornLedger_invalid))
  rw [hgen] at hnvs₃ hpers₃
  have hnvs : ((h₁.step (.call (.zeroizePayload 0) (.openFails .generic))).step
      (.call (.zeroizePayload 0) (.powerLoss (.torn tornLedger tornLedger_invalid)))).nvs =
      ⟨some (stamp Ledger.zero), some tornLedger⟩ := by
    rw [hnvs₃, hnvs₂]
    simp only [writeBlob, hnvs₁]
    rfl
  obtain ⟨l, hload, -, hle, -⟩ := hdur .none
  have hvalid := ledgerValid_stamp ledgerSound_zero
  rw [hpers₃ (by simp [writeBlob]), hpers₂ (by simp [writeBlob]), hpers₁, firstLedger_generation]
    at hle
  have ha : (metaOf (some (stamp Ledger.zero))).status = .valid :=
    (metaOf_valid_iff _).2 ⟨_, rfl, hvalid⟩
  have hb : (metaOf (some tornLedger)).status ≠ .valid := by
    intro hb
    obtain ⟨x, hx, hv⟩ := (metaOf_valid_iff _).1 hb
    rw [← Option.some.inj hx, tornLedger_invalid] at hv
    cases hv
  have hsel := @pmCommandsLoad_select _ ⟨some (stamp Ledger.zero), some tornLedger⟩ .none
    (.inl ha) fun _ h => absurd h hb
  rw [if_pos ⟨ha, .inl hb⟩, Option.getD_some, ← hnvs, hload] at hsel
  have hl : l = stamp Ledger.zero := congrArg Loaded.ledger hsel
  rw [hl, stamp_generation] at hle
  exact absurd hle (by decide)

end History

end PowerMonitor.Commands
