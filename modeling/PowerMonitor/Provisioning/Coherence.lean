import PowerMonitor.Provisioning.Commit

/-!
# The session and the configuration lock

A session owns at most one configuration transaction: while it does, the statics of `pm_config.c`
name that transaction, and once the candidate is gone nothing of it is left in the session.

* `Config.Store.HeldBy` says that a store is between mutations and that a transaction is the active
  one. Every call of the store takes such a store to one held by the transaction it leaves.
* `Coherent` is the invariant of the session: the lock is that of its transaction, the tests count
  as passed only for a candidate whose transaction was marked, and without a candidate the
  candidate, the token and the transaction are zero.
* `every_line_keeps_coherence` is the result, over any sequence of lines. The flash may be anything
  after a line, which covers a write that failed and took effect, and other writers of the
  namespace.
-/

namespace PowerMonitor.Config

/-! ## The lock of the store -/

/-- No mutation is in progress, and the active transaction is `t`; none is active when `t` has no
id. -/
structure Store.HeldBy (s : Store) (t : Transaction) : Prop where
  idle : s.mutationInProgress = false
  owned : s.activeTransactionId = t.transactionId

section Lock

variable {s s' : Store} {t : Transaction} {id : UInt32}

theorem Store.HeldBy.withFlash (h : s.HeldBy t) (flash : Flash) :
    ({ s with flash := flash } : Store).HeldBy t := ⟨h.idle, h.owned⟩

theorem claimNewTransaction_spec (h : s.claimNewTransaction = some (id, s')) :
    id ≠ 0 ∧ s'.activeTransactionId = id := by
  unfold Store.claimNewTransaction at h
  split at h
  · obtain ⟨rfl, rfl⟩ := Prod.mk.inj (Option.some.inj h)
    refine ⟨?_, rfl⟩
    split
    next hz => rw [hz]; decide
    next hz => exact hz
  · cases h

theorem claimTransactionMutation_spec {id' : UInt32}
    (h : s.claimTransactionMutation id = some (id', s')) :
    id' ≠ 0 ∧ s'.activeTransactionId = id' := by
  unfold Store.claimTransactionMutation at h
  split at h
  next hc =>
    obtain ⟨rfl, rfl⟩ := Prod.mk.inj (Option.some.inj h)
    exact ⟨hc.1, hc.2.1⟩
  · cases h

/-- The owner of the lock gives it up. -/
theorem heldBy_release (h : id ≠ 0 ∧ s.activeTransactionId = id) :
    (s.releaseTransaction id).HeldBy Transaction.zero := by
  unfold Store.releaseTransaction
  rw [if_pos h]
  exact ⟨rfl, rfl⟩

/-- `pm_config_abort` frees a store from the transaction that holds it. -/
theorem heldBy_abort (h : s.HeldBy t) :
    (pmConfigAbort s t).store.HeldBy Transaction.zero := by
  by_cases hid : t.transactionId = 0
  · have hs : s.releaseTransaction t.transactionId = s := by
      unfold Store.releaseTransaction
      rw [if_neg (fun hc => hc.1 hid)]
    have hfree : s.HeldBy Transaction.zero := ⟨h.idle, h.owned.trans hid⟩
    rw [← hs] at hfree
    exact hfree
  · exact heldBy_release ⟨hid, h.owned⟩

variable [Sha256]

theorem beginClaimed_heldBy (h : id ≠ 0 ∧ s.activeTransactionId = id) (c : PmConfig)
    (restaging : Option AbStore.Side) (f : Faults) :
    (beginClaimed s id c restaging f).store.HeldBy (beginClaimed s id c restaging f).transaction := by
  have hgone : ∀ flash, ({ s.releaseTransaction id with flash := flash } : Store).HeldBy
      Transaction.zero := fun flash => (heldBy_release h).withFlash flash
  unfold beginClaimed
  dsimp only
  split
  · exact hgone _
  · split
    · split
      · exact ⟨rfl, h.2⟩
      · exact hgone _
    · exact hgone _

theorem begin_heldBy (h : s.HeldBy t) (candidate : PmConfig) (f : Faults) :
    (pmConfigBegin s candidate t f).store.HeldBy (pmConfigBegin s candidate t f).transaction := by
  unfold pmConfigBegin
  split
  · exact h
  dsimp only
  split
  · exact h
  split
  · exact h
  next id s' hclaim =>
    refine beginClaimed_heldBy ?_ _ _ f
    split at hclaim
    · exact claimTransactionMutation_spec hclaim
    · exact claimNewTransaction_spec hclaim

theorem commit_heldBy (h : s.HeldBy t) (f : Faults) :
    (pmConfigCommit s t f).store.HeldBy (pmConfigCommit s t f).transaction := by
  unfold pmConfigCommit
  split
  · exact h
  split
  · exact h
  split
  · exact h
  split
  · exact h
  next id s' hclaim =>
    have howner := claimTransactionMutation_spec hclaim
    have hfree := heldBy_release (s := s'.openFlash f.opened) howner
    dsimp only
    split
    · exact hfree
    · refine ⟨hfree.idle, hfree.owned.trans ?_⟩
      dsimp only
      split <;> rfl

omit [Sha256] in
theorem markNetworkTested_heldBy (h : s.HeldBy t) :
    (pmConfigMarkNetworkTested s t).store.HeldBy (pmConfigMarkNetworkTested s t).transaction := by
  unfold pmConfigMarkNetworkTested
  split
  · exact h
  · exact ⟨h.idle, h.owned⟩

/-- What `pm_config_begin` answers on a free store depends on its flash alone. -/
theorem begin_result_of_free (h : s.HeldBy Transaction.zero) (h' : s'.HeldBy Transaction.zero)
    (hflash : s.flash = s'.flash) (candidate : PmConfig) (f : Faults) :
    (pmConfigBegin s candidate Transaction.zero f).result =
      (pmConfigBegin s' candidate Transaction.zero f).result := by
  have hclaim : ∀ {s : Store}, s.HeldBy Transaction.zero → ∃ id next,
      s.claimNewTransaction = some (id, ⟨s.flash, next, id, true⟩) := by
    intro s h
    unfold Store.claimNewTransaction
    rw [if_pos ⟨h.owned, h.idle⟩]
    exact ⟨_, _, rfl⟩
  have hclaimed : ∀ (id id' next next' : UInt32) (flash : Flash) (c : PmConfig),
      (beginClaimed ⟨flash, next, id, true⟩ id c none f).result =
        (beginClaimed ⟨flash, next', id', true⟩ id' c none f).result := by
    intro id id' next next' flash c
    unfold beginClaimed
    dsimp only
    split
    · rfl
    · split
      · split <;> rfl
      · rfl
  obtain ⟨id, next, hs⟩ := hclaim h
  obtain ⟨id', next', hs'⟩ := hclaim h'
  have hnew : restagingSlot Transaction.zero = none := rfl
  unfold pmConfigBegin
  simp only [hnew, hs, hs', hflash]
  split
  · rfl
  split
  · rfl
  exact hclaimed ..

end Lock

end PowerMonitor.Config

namespace PowerMonitor.Provisioning

open CMemory CJson Config AbStore Runs

/-! ## Coherence -/

/-- Nothing of a candidate is left in the session. -/
structure Session.Wiped (s : Session) : Prop where
  candidate : s.candidate = PmConfig.zero
  token : s.enrollmentToken = Bytes.zero 193
  transaction : s.transaction = Transaction.zero

/-- **Coherence** of a session with the configuration store. -/
structure Coherent (s : Session) (store : Store) : Prop where
  idle : store.mutationInProgress = false
  owned : store.activeTransactionId = s.transaction.transactionId
  tested : s.testsPassed = true → s.candidatePresent = true ∧ s.transaction.stage = .networkTested
  wiped : s.candidatePresent = false → s.Wiped

/-- The factory reset callback leaves the lock alone. -/
def Session.ResetKeepsLock (s : Session) : Prop :=
  ∀ reset, s.factoryReset = some reset → ∀ store : Store,
    (reset store).2.mutationInProgress = store.mutationInProgress ∧
      (reset store).2.activeTransactionId = store.activeTransactionId

/-- The invariant that the lines keep. -/
structure Held (s : Session) (store : Store) : Prop where
  coherent : Coherent s store
  reset : s.ResetKeepsLock

section Operations

variable {s : Session} {store : Store}

theorem Coherent.heldBy (h : Coherent s store) : store.HeldBy s.transaction := ⟨h.idle, h.owned⟩

theorem clearCandidate_wiped (s : Session) : s.clearCandidate.Wiped := ⟨rfl, rfl, rfl⟩

/-- `clear_candidate_state`, on a store that the transaction holds. -/
theorem clearCandidate_held {t : Transaction} (h : store.HeldBy t) (hr : s.ResetKeepsLock) :
    Held s.clearCandidate (pmConfigAbort store t).store where
  coherent :=
    { idle := (heldBy_abort h).idle
      owned := (heldBy_abort h).owned
      tested := fun hp => by cases hp
      wiped := fun _ => clearCandidate_wiped s }
  reset := hr

/-- The operation, with its result, is the end of a candidate: the candidate was refused, failed its
tests, was committed or was dropped. -/
def Operation.Ends (op : Operation) (result : EspErr) : Prop :=
  match op with
  | .beginConfig | .testConfig => result ≠ .ok
  | .commitConfig | .rollbackConfig | .safeReboot => True
  | _ => False

/-- What an operation leaves: a coherent session, and nothing of the candidate at its end. -/
structure Effect.Tidy (e : Effect) (ended : Prop) : Prop where
  held : Held e.session e.store
  wiped : ended → e.session.candidatePresent = false ∧ e.session.Wiped

theorem tidy_of_cleared {e : Effect} {ended : Prop} {t : Transaction} (h : store.HeldBy t)
    (hr : s.ResetKeepsLock) (hs : e.session = s.clearCandidate)
    (hst : e.store = (pmConfigAbort store t).store) : e.Tidy ended where
  held := by rw [hs, hst]; exact clearCandidate_held h hr
  wiped _ := by rw [hs]; exact ⟨rfl, clearCandidate_wiped s⟩

/-- An operation that leaves the candidate, its transaction and the lock alone. -/
theorem tidy_of_neutral {e : Effect} (h : Held s store)
    (hreset : e.session.factoryReset = s.factoryReset) (hcand : e.session.candidate = s.candidate)
    (htoken : e.session.enrollmentToken = s.enrollmentToken)
    (hpresent : e.session.candidatePresent = s.candidatePresent)
    (hpassed : e.session.testsPassed = s.testsPassed)
    (htrans : e.session.transaction = s.transaction)
    (hidle : e.store.mutationInProgress = store.mutationInProgress)
    (howned : e.store.activeTransactionId = store.activeTransactionId) : e.Tidy False where
  held :=
    { coherent :=
        { idle := hidle.trans h.coherent.idle
          owned := by rw [howned, htrans]; exact h.coherent.owned
          tested := by rw [hpassed, hpresent, htrans]; exact h.coherent.tested
          wiped := fun hp => by
            obtain ⟨hc, ht, hx⟩ := h.coherent.wiped (hpresent ▸ hp)
            exact ⟨hcand.trans hc, htoken.trans ht, htrans.trans hx⟩ }
      reset := by
        intro reset hr
        exact h.reset reset (hreset ▸ hr) }
  wiped := False.elim

variable [Sha256]

theorem beginConfig_tidy (h : Held s store) (request : Json) (env : LineEnv) :
    (beginConfig s store request env).Tidy
      (Operation.beginConfig.Ends (beginConfig s store request env).result) := by
  have hcleared := clearCandidate_held h.coherent.heldBy h.reset
  unfold beginConfig
  dsimp only
  split
  · exact tidy_of_cleared h.coherent.heldBy h.reset rfl rfl
  next candidate token hparse =>
    have hbegin := begin_heldBy hcleared.coherent.heldBy candidate env.beginFaults.toFaults
    split
    · refine ⟨⟨⟨hbegin.idle, hbegin.owned, ?_, ?_⟩, h.reset⟩, fun hne => absurd rfl hne⟩
      · intro hp; cases hp
      · intro hp; cases hp
    · exact tidy_of_cleared hbegin h.reset rfl rfl

/-- The rewrite of the tested candidate, and its mark. -/
theorem restage_heldBy {t : Transaction} (h : store.HeldBy t) (candidate : PmConfig) (f : Faults) :
    (restage store candidate t f).store.HeldBy (restage store candidate t f).transaction ∧
      ((restage store candidate t f).result = some .ok →
        (restage store candidate t f).transaction.stage = .networkTested) := by
  have hbegin := begin_heldBy h candidate f
  unfold restage
  dsimp only
  split
  next hok =>
    refine ⟨markNetworkTested_heldBy hbegin, ?_⟩
    unfold pmConfigMarkNetworkTested
    split
    · intro hm; cases hm
    · intro _; rfl
  next hne => exact ⟨hbegin, fun hok => absurd hok hne⟩

theorem testConfig_tidy (h : Held s store) (env : LineEnv) :
    (testConfig s store env).Tidy (Operation.testConfig.Ends (testConfig s store env).result) := by
  unfold testConfig
  dsimp only
  split
  · exact tidy_of_cleared h.coherent.heldBy h.reset rfl rfl
  next hpresent =>
  simp only [Bool.or_eq_true, Bool.not_eq_true', not_or, Bool.not_eq_false] at hpresent
  split
  next hpass =>
    generalize runTests env.tests s.enrollmentToken.str TestStage.all s.candidate = r at hpass ⊢
    obtain ⟨hheld, hstage⟩ := restage_heldBy h.coherent.heldBy { r.1 with crc32 := configCrc r.1 }
      env.beginFaults.toFaults
    split
    next hok =>
      refine ⟨⟨⟨hheld.idle, hheld.owned, fun _ => ⟨hpresent.1, hstage hok⟩, ?_⟩, h.reset⟩,
        fun hne => absurd rfl hne⟩
      intro hp
      rw [show _ = s.candidatePresent from rfl, hpresent.1] at hp
      cases hp
    · exact tidy_of_cleared hheld h.reset rfl rfl
  · exact tidy_of_cleared h.coherent.heldBy h.reset rfl rfl

theorem commitConfig_held (h : Held s store) (env : LineEnv) :
    ∃ s' store', store'.HeldBy s'.transaction ∧ s'.ResetKeepsLock ∧
      (commitConfig s store env).session = s'.clearCandidate ∧
      (commitConfig s store env).store = abortTransaction s' store' := by
  have hcall : ∀ o : Outcome, (if s.testsPassed then pmConfigCommit store s.transaction
      env.commitFaults.toFaults else store.keep (some .invalidState) s.transaction) = o →
      o.store.HeldBy o.transaction := by
    rintro o rfl
    split
    · exact commit_heldBy h.coherent.heldBy _
    · exact h.coherent.heldBy
  unfold commitConfig
  dsimp only
  generalize ho : (if s.testsPassed then pmConfigCommit store s.transaction
    env.commitFaults.toFaults else store.keep (some .invalidState) s.transaction) = o
  have hheld := hcall o ho
  split
  · exact ⟨{ s with transaction := o.transaction, active := s.candidate }, o.store, hheld, h.reset,
      rfl, rfl⟩
  · exact ⟨{ s with transaction := o.transaction }, o.store, hheld, h.reset, rfl, rfl⟩

theorem commitConfig_tidy (h : Held s store) (env : LineEnv) :
    (commitConfig s store env).Tidy True := by
  obtain ⟨s', store', hheld, hreset, hs, hst⟩ := commitConfig_held h env
  exact tidy_of_cleared hheld hreset hs hst

omit [Sha256] in
theorem factoryResetPrepare_tidy (h : Held s store) (env : LineEnv) :
    (factoryResetPrepare s store env).Tidy False := by
  unfold factoryResetPrepare
  split
  · exact tidy_of_neutral h rfl rfl rfl rfl rfl rfl rfl rfl
  · exact tidy_of_neutral h rfl rfl rfl rfl rfl rfl rfl rfl

omit [Sha256] in
theorem factoryResetCommit_tidy (h : Held s store) (request : Json) (env : LineEnv) :
    (factoryResetCommit s store request env).Tidy False := by
  unfold factoryResetCommit
  dsimp only
  split
  · exact tidy_of_neutral h rfl rfl rfl rfl rfl rfl rfl rfl
  next reset hreset =>
    obtain ⟨hidle, howned⟩ := h.reset reset hreset store
    split
    · exact tidy_of_neutral h rfl rfl rfl rfl rfl rfl rfl rfl
    · split
      · exact tidy_of_neutral h rfl rfl rfl rfl rfl rfl hidle howned
      · exact tidy_of_neutral h rfl rfl rfl rfl rfl rfl hidle howned

omit [Sha256] in
theorem safeReboot_tidy (h : Held s store) (env : LineEnv) :
    (safeReboot s store env).Tidy True := by
  unfold safeReboot
  dsimp only
  split
  · exact tidy_of_cleared h.coherent.heldBy h.reset rfl rfl
  · split
    · exact tidy_of_cleared h.coherent.heldBy h.reset rfl rfl
    · exact tidy_of_cleared h.coherent.heldBy h.reset rfl rfl

theorem perform_tidy (h : Held s store) (op : Operation) (request : Json) (env : LineEnv) :
    (perform op s store request env).Tidy
      (op.Ends (perform op s store request env).result) := by
  cases op with
  | hello => exact tidy_of_neutral h rfl rfl rfl rfl rfl rfl rfl rfl
  | status => exact tidy_of_neutral h rfl rfl rfl rfl rfl rfl rfl rfl
  | beginConfig => exact beginConfig_tidy h request env
  | testConfig => exact testConfig_tidy h env
  | commitConfig => exact commitConfig_tidy h env
  | rollbackConfig => exact tidy_of_cleared h.coherent.heldBy h.reset rfl rfl
  | factoryResetPrepare => exact factoryResetPrepare_tidy h env
  | factoryResetCommit => exact factoryResetCommit_tidy h request env
  | safeReboot => exact safeReboot_tidy h env
  | unknown => exact tidy_of_neutral h rfl rfl rfl rfl rfl rfl rfl rfl

end Operations

/-! ## Lines -/

/-- A session as `pm_provisioning_session_init` opens it after a reset. A factory reset works on the
flash of the namespace. -/
def Desk.opened (flash : Flash) (active : PmConfig) (physicallyAuthorized hasTest : Bool)
    (factoryReset : Option (Flash → EspErr × Flash)) (hasSafeRebootPrepare : Bool) : Desk where
  session := sessionInit active physicallyAuthorized hasTest
    (factoryReset.map fun reset store =>
      ((reset store.flash).1, { store with flash := (reset store.flash).2 }))
    hasSafeRebootPrepare
  store := Store.boot flash
  log := []

/-- A line, and what becomes of the flash by the time of the next one. -/
structure Turn extends LineAct where
  drift : Flash → Flash

variable [Sha256]

/-- One line, and the flash as the next line finds it. -/
def Desk.turn (d : Desk) (t : Turn) : Desk :=
  let d' := d.step t.toLineAct
  { d' with store := { d'.store with flash := t.drift d'.store.flash } }

/-- The store is not locked against a candidate: whatever `begin_config` comes next is answered as
on a store that was just booted with the same flash. -/
def Desk.Unlocked (d : Desk) : Prop :=
  ∀ a : LineAct, a.line.operation = some .beginConfig →
    (d.handled a).result = (({ d with store := Store.boot d.store.flash } : Desk).handled a).result

/-- **What a line leaves.** -/
structure Desk.Keeps (d : Desk) (t : Turn) : Prop where
  coherent : Coherent (d.turn t).session (d.turn t).store
  unlocked : (d.turn t).Unlocked
  wiped : ∀ op, t.line.operation = some op → op.Ends (d.handled t.toLineAct).result →
    (d.turn t).session.candidatePresent = false ∧ (d.turn t).session.Wiped

/-- What `begin_config` answers on a store that its transaction leaves free depends on the flash
alone. -/
theorem beginConfig_result {s : Session} {store store' : Store}
    (h : (abortTransaction s store).HeldBy Transaction.zero)
    (h' : (abortTransaction s store').HeldBy Transaction.zero) (hflash : store.flash = store'.flash)
    (request : Json) (env : LineEnv) :
    (beginConfig s store request env).result = (beginConfig s store' request env).result := by
  have hfree : ∀ store : Store, (abortTransaction s store).flash = store.flash := fun store =>
    flash_releaseTransaction store s.transaction.transactionId
  unfold beginConfig
  dsimp only
  split
  · rfl
  next candidate token hparse =>
    rw [begin_result_of_free h h' (by rw [hfree, hfree, hflash]) candidate env.beginFaults.toFaults]
    split <;> rfl

omit [Sha256] in
theorem abort_boot_heldBy (s : Session) (flash : Flash) :
    (abortTransaction s (Store.boot flash)).HeldBy Transaction.zero := by
  have hboot : (Store.boot flash).releaseTransaction s.transaction.transactionId =
      Store.boot flash := by
    unfold Store.releaseTransaction
    exact if_neg fun h => h.1 h.2.symm
  unfold abortTransaction pmConfigAbort
  rw [hboot]
  exact ⟨rfl, rfl⟩

theorem Desk.unlocked_of_coherent {d : Desk} (h : Coherent d.session d.store) : d.Unlocked := by
  intro a hop
  have hresult : ∀ store : Store, (abortTransaction d.session store).HeldBy Transaction.zero →
      store.flash = d.store.flash →
      (d.handled a).result = (({ d with store := store } : Desk).handled a).result := by
    intro store hfree hflash
    unfold Desk.handled pmProvisioningHandleLine
    split
    · rfl
    · rfl
    next j _ =>
      simp only [hop, perform]
      exact beginConfig_result (heldBy_abort h.heldBy) hfree hflash.symm j a.env
  exact hresult _ (abort_boot_heldBy d.session d.store.flash) rfl

/-- **One line** keeps the invariant and leaves what it should. -/
theorem Desk.turn_keeps {d : Desk} (h : Held d.session d.store) (t : Turn) :
    Held (d.turn t).session (d.turn t).store ∧ d.Keeps t := by
  have hline : Held (d.handled t.toLineAct).session (d.handled t.toLineAct).store ∧
      ∀ op, t.line.operation = some op → op.Ends (d.handled t.toLineAct).result →
        (d.handled t.toLineAct).session.candidatePresent = false ∧
          (d.handled t.toLineAct).session.Wiped := by
    rcases d.handled_cases t.toLineAct with ⟨hop, hs, hst, -⟩ | ⟨op, request, hop, hres, hst, -, hs⟩
    · refine ⟨by rw [hs, hst]; exact h, fun op hop' => ?_⟩
      rw [hop] at hop'
      cases hop'
    · obtain ⟨hheld, hwiped⟩ := perform_tidy h op request t.env
      rw [hst, hres]
      -- the session differs from that of the operation in its reboot request at most
      rcases hs with hs | hs <;> rw [hs]
      · refine ⟨hheld, fun op' hop' hends => ?_⟩
        obtain rfl := Option.some.inj (hop.symm.trans hop')
        exact hwiped hends
      · refine ⟨⟨⟨hheld.coherent.idle, hheld.coherent.owned, hheld.coherent.tested, fun hp => ?_⟩,
          hheld.reset⟩, fun op' hop' hends => ?_⟩
        · obtain ⟨hc, ht, hx⟩ := hheld.coherent.wiped hp
          exact ⟨hc, ht, hx⟩
        · obtain rfl := Option.some.inj (hop.symm.trans hop')
          obtain ⟨hp, hc, ht, hx⟩ := hwiped hends
          exact ⟨hp, hc, ht, hx⟩
  have hc : Coherent (d.turn t).session (d.turn t).store :=
    ⟨hline.1.coherent.idle, hline.1.coherent.owned, hline.1.coherent.tested, hline.1.coherent.wiped⟩
  exact ⟨⟨hc, hline.1.reset⟩, hc, unlocked_of_coherent hc, hline.2⟩

omit [Sha256] in
theorem Desk.opened_held (flash : Flash) (active : PmConfig) (physicallyAuthorized hasTest : Bool)
    (factoryReset : Option (Flash → EspErr × Flash)) (hasSafeRebootPrepare : Bool) :
    Held (Desk.opened flash active physicallyAuthorized hasTest factoryReset
      hasSafeRebootPrepare).session (Store.boot flash) where
  coherent := ⟨rfl, rfl, (fun h => by cases h), fun _ => ⟨rfl, rfl, rfl⟩⟩
  reset := by
    intro reset hr store
    obtain ⟨onFlash, -, rfl⟩ := Option.map_eq_some_iff.1 hr
    exact ⟨rfl, rfl⟩

/-- **Every line keeps the session and the configuration lock coherent**, in every sequence of
lines, with whatever their calls meet. -/
theorem every_line_keeps_coherence (flash : Flash) (active : PmConfig)
    (physicallyAuthorized hasTest : Bool) (factoryReset : Option (Flash → EspErr × Flash))
    (hasSafeRebootPrepare : Bool) (lines : List Turn) :
    Along Desk.turn Desk.Keeps
      (Desk.opened flash active physicallyAuthorized hasTest factoryReset hasSafeRebootPrepare)
      lines :=
  Along.of_invariant (I := fun d => Held d.session d.store)
    (fun _ t h => (Desk.turn_keeps h t).1) (fun _ t h => (Desk.turn_keeps h t).2)
    (Desk.opened_held flash active physicallyAuthorized hasTest factoryReset hasSafeRebootPrepare)
    lines

end PowerMonitor.Provisioning
