import PowerMonitor.Foundations.Runs
import PowerMonitor.Config.Store

/-!
# Interleaved configuration calls

Several tasks may be inside `pm_config.c` at once. Only the claim of a call and the finish or
release that ends it are critical sections; the NVS calls between them are separate steps, and every
other task may move between any two of them.

* `Work` is what a call does after its claim, as a tree of NVS calls whose answers choose the
  branch; `beginWork` to `eraseInactiveWork` are the six mutating calls, and `MutatingCall.enter` is
  what each of them checks before it claims.
* `Shared.step` lets any task take its next step.
* `Owned` is the invariant: whoever is inside owns the mutation, so that nobody else is. It is kept
  by every step but one, the release that `pm_config_abort` makes of a transaction that a call is
  working on (`abort_admits_second`); `mutations_exclude` is the result without it.
-/

namespace PowerMonitor.Config

open CMemory AbStore Runs

/-! ## The calls -/

/-- What a call does between its claim and the critical section that ends it: NVS calls, each with
what follows its answer, and then `finish_mutation` or `release_transaction`. -/
inductive Work
  | nvsOpen (next : CallEnd → Work)
  | getActive (next : Except CallEnd UInt8 → Work)
  | readSlot (side : Side) (next : Except CallEnd PmConfig → Work)
  | setBlob (side : Side) (c : PmConfig) (next : CallEnd → Work)
  | setActive (slot : UInt8) (next : CallEnd → Work)
  | eraseKey (side : Side) (next : CallEnd → Work)
  | nvsCommit (next : CallEnd → Work)
  | finishMutation (result : CallEnd)
  | releaseTransaction (result : CallEnd)

/-- The claim of a call. -/
inductive Claim
  | newTransaction
  | transaction (id : UInt32)
  | unowned

/-- A call goes on after `ESP_OK` and otherwise ends with the error. -/
def Work.andThen (giveUp : CallEnd → Work) (next : Work) (e : CallEnd) : Work :=
  if e = some .ok then next else giveUp e

/-- `pm_config_begin` after its claim. -/
def beginWork (c : PmConfig) (restaging : Option Side) : Work :=
  .nvsOpen <| .andThen .releaseTransaction <| .getActive fun selector =>
    match beginSelector selector with
    | .error e => .releaseTransaction e
    | .ok (active, error) =>
      let inactive := restaging.getD (if active = charA then .b else .a)
      if restaging.isSome ∧ active = slotChar inactive then .releaseTransaction (some .invalidState)
      else if error ≠ .ok then .releaseTransaction (some error)
      else .setBlob inactive c <| .andThen .releaseTransaction <|
        .nvsCommit <| .andThen .releaseTransaction <| .readSlot inactive fun verified =>
          match verified with
          | .error e => .releaseTransaction e
          | .ok v => if v = c then .finishMutation (some .ok) else .releaseTransaction (some .fail)

variable [Sha256]

/-- `pm_config_commit` after its claim. -/
def commitWork (t : Transaction) (side : Side) : Work :=
  .nvsOpen <| .andThen .releaseTransaction <| .readSlot side fun candidate =>
    match candidate with
    | .error e => .releaseTransaction e
    | .ok c =>
      if c.generation ≠ t.candidateGeneration ∨ sha256 c.image ≠ t.candidateSha256 then
        .releaseTransaction (some .invalidState)
      else .setActive (slotChar side) <| .andThen .releaseTransaction <|
        .nvsCommit .releaseTransaction

/-- `pm_config_activate_staged` after its claim. -/
def activateWork (side : Side) (expectedGeneration : ℕ) : Work :=
  .nvsOpen <| .andThen .finishMutation <| .readSlot side fun candidate =>
    match candidate with
    | .error e => .finishMutation e
    | .ok c =>
      if c.generation ≠ expectedGeneration then .finishMutation (some .invalidState)
      else .getActive fun active =>
        match active with
        | .error e => .finishMutation e
        | .ok active =>
          if active = slotChar side then .finishMutation (some .ok)
          else .setActive (slotChar side) <| .andThen .finishMutation <|
            .nvsCommit .finishMutation

/-- `pm_config_discard_staged` after its claim. -/
def discardStagedWork (side : Side) (expectedGeneration : ℕ) : Work :=
  .nvsOpen <| .andThen .finishMutation <| .getActive fun active =>
    match active with
    | .error e => .finishMutation e
    | .ok active =>
      if active = slotChar side then .finishMutation (some .invalidState)
      else .readSlot side fun candidate =>
        match candidate with
        | .error e => .finishMutation (if e = some .nvsNotFound then some .ok else e)
        | .ok c =>
          if c.generation ≠ expectedGeneration then .finishMutation (some .invalidState)
          else .eraseKey side <| .andThen .finishMutation <| .nvsCommit .finishMutation

/-- The calls on the slot the selector does not name: `nvs_get_u8` and its checks. -/
def inactiveWork (next : Side → Work) : Work :=
  .nvsOpen <| .andThen .finishMutation <| .getActive fun active =>
    match active with
    | .error e => .finishMutation e
    | .ok active =>
      match slotOf active with
      | none => .finishMutation (some .invalidState)
      | some side => next side.other

/-- `pm_config_discard_inactive_generation` after its claim. -/
def discardInactiveWork (expectedGeneration : ℕ) : Work :=
  inactiveWork fun side => .readSlot side fun candidate =>
    match candidate with
    | .error e => .finishMutation (if e = some .nvsNotFound then some .ok else e)
    | .ok c =>
      if c.generation ≠ expectedGeneration then .finishMutation (some .ok)
      else .eraseKey side <| .andThen .finishMutation <| .nvsCommit .finishMutation

/-- `pm_config_erase_inactive` after its claim. -/
def eraseInactiveWork : Work :=
  inactiveWork fun side => .eraseKey side fun e =>
    if e = some .ok ∨ e = some .nvsNotFound then .nvsCommit .finishMutation else .finishMutation e

/-- The calls that mutate the store under a claim. -/
inductive MutatingCall
  | begin (candidate : PmConfig) (t : Transaction)
  | commit (t : Transaction)
  | activateStaged (slot : UInt8) (expectedGeneration : ℕ)
  | discardStaged (slot : UInt8) (expectedGeneration : ℕ)
  | discardInactiveGeneration (expectedGeneration : ℕ)
  | eraseInactive

/-- What the call does before its claim: it returns, or it goes on to make the claim. -/
def MutatingCall.enter (mallocOk : Bool) : MutatingCall → Option (Claim × Work)
  | begin candidate t =>
    if !mallocOk then none
    else if pmConfigValidate (staged candidate) false ≠ .ok then none
    else
      let restaging := restagingSlot t
      some (if restaging.isSome then .transaction t.transactionId else .newTransaction,
        beginWork (staged candidate) restaging)
  | commit t =>
    match slotOf t.candidateSlot with
    | none => none
    | some side =>
      if t.stage ≠ .networkTested ∨ t.transactionId = 0 then none
      else if !mallocOk then none
      else some (.transaction t.transactionId, commitWork t side)
  | activateStaged slot expectedGeneration =>
    match slotOf slot with
    | none => none
    | some side =>
      if expectedGeneration = 0 ∨ mallocOk = false then none
      else some (.unowned, activateWork side expectedGeneration)
  | discardStaged slot expectedGeneration =>
    match slotOf slot with
    | none => none
    | some side =>
      if expectedGeneration = 0 ∨ mallocOk = false then none
      else some (.unowned, discardStagedWork side expectedGeneration)
  | discardInactiveGeneration expectedGeneration =>
    if expectedGeneration = 0 ∨ mallocOk = false then none
    else some (.unowned, discardInactiveWork expectedGeneration)
  | eraseInactive => some (.unowned, eraseInactiveWork)

/-! ## Tasks -/

/-- Where a task is: outside, before its claim, or inside, between its claim and the finish or
release. `owner` is the transaction it claimed, `0` for an unowned mutation. -/
inductive Place
  | outside
  | claiming (claim : Claim) (work : Work)
  | inside (owner : UInt32) (work : Work)

/-- Whether the task is between a successful claim and its finish or release. -/
def Place.isInside : Place → Bool
  | inside _ _ => true
  | _ => false

/-- How one NVS call ends. A failed write, or opening for writing, may have taken effect. -/
inductive NvsAnswer
  | ok
  | fails (e : { e : EspErr // e ≠ .ok ∧ e ≠ .nvsNotFound }) (landed : Bool)

namespace NvsAnswer

/-- The answer of a call that writes nothing. -/
def read : NvsAnswer → NvsRead
  | ok => .ok
  | fails e _ => .fails e

/-- The error code. -/
def code : NvsAnswer → CallEnd
  | ok => some .ok
  | fails e _ => some e.1

/-- Whether the call took effect. -/
def landed : NvsAnswer → Bool
  | ok => true
  | fails _ l => l

end NvsAnswer

/-- The store and the tasks. -/
structure Shared where
  store : Store
  tasks : ℕ → Place

/-- One step: a task enters a call, a task takes the next step of its call, a task calls
`pm_config_mark_network_tested` or `pm_config_abort`, which are one critical section each, or power
is lost. -/
inductive Move
  | call (task : ℕ) (c : MutatingCall) (mallocOk : Bool)
  | advance (task : ℕ) (answer : NvsAnswer)
  | markNetworkTested (t : Transaction)
  | abort (t : Transaction)
  | reset

/-- The critical section of a claim. -/
def Store.claim (s : Store) : Claim → Option (UInt32 × Store)
  | .newTransaction => s.claimNewTransaction
  | .transaction id => s.claimTransactionMutation id
  | .unowned => s.claimUnownedMutation.map fun s' => (0, s')

/-- The next step of a call that is inside: one NVS call, or the critical section that ends it. -/
def Work.step (owner : UInt32) (answer : NvsAnswer) (s : Store) : Work → Store × Place
  | nvsOpen next =>
    ({ s with flash := if answer.landed then s.flash.make else s.flash },
      .inside owner (next answer.code))
  | getActive next => (s, .inside owner (next (readSelector s.flash answer.read)))
  | readSlot side next => (s, .inside owner (next (Config.readSlot s.flash side answer.read)))
  | setBlob side c next =>
    ({ s with flash := if answer.landed then
        ⟨true, s.flash.active, s.flash.slots.set side (some (.config c)), nofun⟩ else s.flash },
      .inside owner (next answer.code))
  | setActive slot next =>
    ({ s with flash := if answer.landed then ⟨true, some slot, s.flash.slots, nofun⟩ else s.flash },
      .inside owner (next answer.code))
  | eraseKey side next =>
    -- erasing a key that is not there answers `ESP_ERR_NVS_NOT_FOUND`
    ({ s with flash := if answer.landed then
        ⟨true, s.flash.active, s.flash.slots.set side none, nofun⟩ else s.flash },
      .inside owner (next (if answer.code = some .ok ∧ s.flash.slots.get side = none then
        some .nvsNotFound else answer.code)))
  | nvsCommit next => (s, .inside owner (next answer.code))
  | finishMutation _ => (s.finishMutation, .outside)
  | releaseTransaction _ => (s.releaseTransaction owner, .outside)

namespace Shared

/-- After a boot no task is inside. -/
def boot (flash : Flash) : Shared := ⟨Store.boot flash, fun _ => .outside⟩

/-- The task goes to `place`. -/
def put (w : Shared) (task : ℕ) (store : Store) (place : Place) : Shared :=
  ⟨store, Function.update w.tasks task place⟩

omit [Sha256] in
@[simp] theorem put_tasks_self (w : Shared) (task : ℕ) (store : Store) (place : Place) :
    (w.put task store place).tasks task = place := Function.update_self _ _ _

omit [Sha256] in
theorem put_tasks_of_ne (w : Shared) {i task : ℕ} (h : i ≠ task) (store : Store) (place : Place) :
    (w.put task store place).tasks i = w.tasks i := Function.update_of_ne h _ _

/-- One step. -/
def step (w : Shared) : Move → Shared
  | .call task c mallocOk =>
    match w.tasks task with
    | .outside =>
      match c.enter mallocOk with
      | none => w
      | some (claim, work) => w.put task w.store (.claiming claim work)
    | _ => w
  | .advance task answer =>
    match w.tasks task with
    | .outside => w
    | .claiming claim work =>
      match w.store.claim claim with
      | none => w.put task w.store .outside
      | some (id, store) => w.put task store (.inside id work)
    | .inside owner work =>
      let (store, place) := work.step owner answer w.store
      w.put task store place
  | .markNetworkTested _ => w
  | .abort t => { w with store := w.store.releaseTransaction t.transactionId }
  | .reset => boot w.store.flash

end Shared

/-! ## Exclusion -/

/-- At most one call is between its claim and its finish or release. -/
def Exclusive (w : Shared) : Prop :=
  ∀ i j, (w.tasks i).isInside = true → (w.tasks j).isInside = true → i = j

/-- `pm_config_abort` is not called with the active transaction while a call is working under it. -/
def AbortsIdle (w : Shared) : Move → Prop
  | .abort t =>
    ¬(t.transactionId ≠ 0 ∧ w.store.activeTransactionId = t.transactionId ∧
      w.store.mutationInProgress = true)
  | _ => True

/-- The invariant: the call that is inside owns the mutation. -/
structure Owned (w : Shared) : Prop where
  exclusive : Exclusive w
  inProgress : ∀ i owner work, w.tasks i = .inside owner work → w.store.mutationInProgress = true
  active : ∀ i owner work, w.tasks i = .inside owner work → w.store.activeTransactionId = owner

section

variable {w : Shared}

omit [Sha256] in
theorem Place.eq_inside {p : Place} (h : p.isInside = true) : ∃ owner work, p = .inside owner work := by
  cases p with
  | inside owner work => exact ⟨owner, work, rfl⟩
  | _ => cases h

omit [Sha256] in
theorem Owned.boot (flash : Flash) : Owned (.boot flash) :=
  ⟨fun _ _ h => (by cases h), fun _ _ _ h => (by cases h), fun _ _ _ h => (by cases h)⟩

omit [Sha256] in
/-- Without a mutation in progress nobody is inside. -/
theorem Owned.nobody (h : Owned w) (hidle : w.store.mutationInProgress = false) (i : ℕ) :
    (w.tasks i).isInside = false := by
  by_contra hi
  obtain ⟨owner, work, hpc⟩ := Place.eq_inside (by simpa using hi)
  rw [h.inProgress i owner work hpc] at hidle
  cases hidle

omit [Sha256] in
/-- A step of a task that is outside, or that stays where it is with the statics unchanged. -/
theorem Owned.put_same (h : Owned w) {task : ℕ} {store : Store} {place : Place}
    (hactive : store.activeTransactionId = w.store.activeTransactionId)
    (hprog : store.mutationInProgress = w.store.mutationInProgress)
    (hplace : ∀ owner work, place = .inside owner work → ∃ work', w.tasks task = .inside owner work') :
    Owned (w.put task store place) := by
  have hinside : ∀ i owner work, (w.put task store place).tasks i = .inside owner work →
      ∃ work', w.tasks i = .inside owner work' := by
    intro i owner work hi
    by_cases hit : i = task
    · subst hit
      rw [Shared.put_tasks_self] at hi
      exact hplace owner work hi
    · rw [w.put_tasks_of_ne hit] at hi
      exact ⟨work, hi⟩
  refine ⟨fun i j hi hj => ?_, fun i owner work hi => ?_, fun i owner work hi => ?_⟩
  · obtain ⟨_, _, hi⟩ := Place.eq_inside hi
    obtain ⟨_, _, hj⟩ := Place.eq_inside hj
    obtain ⟨_, hi⟩ := hinside _ _ _ hi
    obtain ⟨_, hj⟩ := hinside _ _ _ hj
    exact h.exclusive i j (by rw [hi]; rfl) (by rw [hj]; rfl)
  · obtain ⟨_, hi⟩ := hinside _ _ _ hi
    exact hprog.trans (h.inProgress _ _ _ hi)
  · obtain ⟨_, hi⟩ := hinside _ _ _ hi
    exact hactive.trans (h.active _ _ _ hi)

omit [Sha256] in
/-- The only task inside leaves. -/
theorem Owned.leave (h : Owned w) {task : ℕ} (hin : (w.tasks task).isInside = true) (store : Store) :
    Owned (w.put task store .outside) := by
  have hnone : ∀ i, ((w.put task store .outside).tasks i).isInside = false := by
    intro i
    by_cases hit : i = task
    · subst hit
      rw [Shared.put_tasks_self]
      rfl
    · rw [w.put_tasks_of_ne hit]
      by_contra hi
      exact hit (h.exclusive i task (by simpa using hi) hin)
  refine ⟨fun i j hi _ => ?_, fun i owner work hi => ?_, fun i owner work hi => ?_⟩
  · rw [hnone i] at hi
    cases hi
  · have := hnone i
    rw [hi] at this
    cases this
  · have := hnone i
    rw [hi] at this
    cases this

omit [Sha256] in
/-- A claim succeeds only while no mutation is in progress, and makes its caller the owner. -/
theorem Store.claim_spec {s s' : Store} {c : Claim} {id : UInt32} (h : s.claim c = some (id, s')) :
    s.mutationInProgress = false ∧ s'.mutationInProgress = true ∧ s'.activeTransactionId = id := by
  cases c with
  | newTransaction =>
    simp only [Store.claim, Store.claimNewTransaction] at h
    split at h
    · next hc =>
      cases h
      exact ⟨hc.2, rfl, rfl⟩
    · cases h
  | transaction id =>
    simp only [Store.claim, Store.claimTransactionMutation] at h
    split at h
    · next hc =>
      cases h
      exact ⟨hc.2.2, rfl, hc.2.1⟩
    · cases h
  | unowned =>
    simp only [Store.claim, Store.claimUnownedMutation] at h
    split at h
    · next hc =>
      cases h
      exact ⟨hc.2, rfl, hc.1⟩
    · cases h

omit [Sha256] in
/-- A task that claims is the only one inside. -/
theorem Owned.claim (h : Owned w) {c : Claim} {id : UInt32} {store : Store}
    (hc : w.store.claim c = some (id, store)) (task : ℕ) (work : Work) :
    Owned (w.put task store (.inside id work)) := by
  obtain ⟨hidle, hprog, hactive⟩ := Store.claim_spec hc
  have honly : ∀ i, ((w.put task store (.inside id work)).tasks i).isInside = true → i = task := by
    intro i hi
    by_contra hit
    rw [w.put_tasks_of_ne hit, h.nobody hidle i] at hi
    cases hi
  refine ⟨fun i j hi hj => (honly i hi).trans (honly j hj).symm, fun i owner work' hi => hprog,
    fun i owner work' hi => ?_⟩
  obtain rfl := honly i (by rw [hi]; rfl)
  rw [Shared.put_tasks_self] at hi
  cases hi
  exact hactive

omit [Sha256] in
/-- The next step of a call stays inside and leaves the statics alone, or it leaves. -/
theorem Work.step_spec (owner : UInt32) (answer : NvsAnswer) (s : Store) (work : Work) :
    let r := work.step owner answer s
    (∃ work', r.2 = .inside owner work' ∧ r.1.activeTransactionId = s.activeTransactionId ∧
      r.1.mutationInProgress = s.mutationInProgress) ∨ r.2 = .outside := by
  cases work with
  | finishMutation _ => exact .inr rfl
  | releaseTransaction _ => exact .inr rfl
  | _ => exact .inl ⟨_, rfl, rfl, rfl⟩

/-- **Every step keeps the owner**, except an abort of the transaction a call is working under. -/
theorem Owned.step (h : Owned w) (a : Move) (ha : AbortsIdle w a) : Owned (w.step a) := by
  cases a with
  | call task c mallocOk =>
    simp only [Shared.step]
    split
    next hout =>
      split
      · exact h
      · exact h.put_same rfl rfl fun _ _ hp => (by cases hp)
    · exact h
  | advance task answer =>
    simp only [Shared.step]
    split
    · exact h
    next claim work hpc =>
      split
      · exact h.put_same rfl rfl fun _ _ hp => (by cases hp)
      next id store hc => exact h.claim hc task work
    next owner work hpc =>
      rcases work.step_spec owner answer w.store with ⟨work', hr, hactive, hprog⟩ | hr
      · refine h.put_same hactive hprog fun owner' work'' hp => ⟨work, ?_⟩
        rw [hr] at hp
        cases hp
        exact hpc
      · rw [hr]
        exact h.leave (by rw [hpc]; rfl) _
  | markNetworkTested t => exact h
  | abort t =>
    simp only [Shared.step, Store.releaseTransaction]
    split
    next hid =>
      -- the transaction is active, so no mutation is in progress
      have hidle : w.store.mutationInProgress = false := by
        by_contra hp
        exact ha ⟨hid.1, hid.2, by simpa using hp⟩
      have hnone := h.nobody hidle
      refine ⟨fun i j hi _ => ?_, fun i owner work hi => ?_, fun i owner work hi => ?_⟩
      · rw [hnone i] at hi
        cases hi
      · have := hnone i
        rw [hi] at this
        cases this
      · have := hnone i
        rw [hi] at this
        cases this
    · exact h
  | reset => exact Owned.boot _

end

/-- **Configuration mutations exclude each other** in every state of a run in which no transaction
is aborted under the call that is working on it. -/
theorem mutations_exclude (flash : Flash) (moves : List Move)
    (h : Along Shared.step AbortsIdle (.boot flash) moves) :
    ∀ pre post, moves = pre ++ post → Exclusive (run Shared.step (.boot flash) pre) := by
  rintro pre post rfl
  have hpre := ((along_append _ _ _ _ _).1 h).1
  exact (hpre.invariant (fun _ a hw ha => hw.step a ha) (Owned.boot flash)).exclusive

/-- `pm_config_activate_staged` is inside when a zero transaction is aborted and another task tries
to claim. -/
def zeroAbort : List Move :=
  [.call 0 (.activateStaged charB 4) true, .advance 0 .ok, .advance 0 .ok, .abort Transaction.zero,
    .call 1 .eraseInactive true, .advance 1 .ok]

omit [Sha256] in
theorem zero_abort_cannot_unlock :
    ((run (@Shared.step .standard) (.boot Flash.fresh) zeroAbort).tasks 0).isInside = true ∧
    ((run (@Shared.step .standard) (.boot Flash.fresh) zeroAbort).tasks 1).isInside = false ∧
    Exclusive (run (@Shared.step .standard) (.boot Flash.fresh) zeroAbort) := by
  have halong : Along (@Shared.step .standard) AbortsIdle (.boot Flash.fresh) zeroAbort :=
    ⟨trivial, trivial, trivial, fun h => absurd rfl h.1, trivial, trivial, trivial⟩
  refine ⟨by decide, by decide, ?_⟩
  exact @mutations_exclude .standard Flash.fresh zeroAbort halong zeroAbort []
    (List.append_nil _).symm

/-! ## The abort of a transaction at work -/

/-- The transaction of the first candidate after its network test. -/
def testedTransaction (c : PmConfig) : Transaction :=
  { stagedTransaction (staged c) 1 .b with stage := .networkTested }

/-- A candidate is staged, its commit has claimed the transaction and is about to open NVS, a copy
of the transaction is aborted, and another task claims. -/
def abortUnderCommit (c : PmConfig) : List Move :=
  .call 0 (.begin c .zero) true :: List.replicate 7 (.advance 0 .ok) ++
    [.call 0 (.commit (testedTransaction c)) true, .advance 0 .ok, .abort (testedTransaction c),
      .call 1 (.activateStaged charB 1) true, .advance 1 .ok]

/-- Task 0 is at `place`, and nobody else has called. -/
structure Alone (w : Shared) (store : Store) (place : Place) : Prop where
  store_eq : w.store = store
  place_eq : w.tasks 0 = place
  rest : w.tasks 1 = .outside

omit [Sha256] in
theorem alone_put (w : Shared) (store : Store) (place : Place) (h : w.tasks 1 = .outside) :
    Alone (w.put 0 store place) store place :=
  ⟨rfl, w.put_tasks_self 0 store place, (w.put_tasks_of_ne (by decide) store place).trans h⟩

theorem Alone.advance {w : Shared} {store : Store} {owner : UInt32} {work : Work}
    (h : Alone w store (.inside owner work)) (answer : NvsAnswer) :
    Alone (w.step (.advance 0 answer)) (work.step owner answer store).1
      (work.step owner answer store).2 := by
  simp only [Shared.step, h.place_eq, h.store_eq]
  exact alone_put w _ _ h.rest

theorem Alone.claims {w : Shared} {store store' : Store} {claim : Claim} {id : UInt32} {work : Work}
    (h : Alone w store (.claiming claim work)) (hc : store.claim claim = some (id, store'))
    (answer : NvsAnswer) : Alone (w.step (.advance 0 answer)) store' (.inside id work) := by
  simp only [Shared.step, h.place_eq, h.store_eq, hc]
  exact alone_put w _ _ h.rest

theorem Alone.enters {w : Shared} {store : Store} (h : Alone w store .outside) {c : MutatingCall}
    {claim : Claim} {work : Work} (hc : c.enter true = some (claim, work)) :
    Alone (w.step (.call 0 c true)) store (.claiming claim work) := by
  simp only [Shared.step, h.place_eq, h.store_eq, hc]
  exact alone_put w _ _ h.rest

/-- A task whose call finds its claim free is inside, and the others are where they were. -/
theorem enters_inside {w : Shared} {task : ℕ} (hout : w.tasks task = .outside) {c : MutatingCall}
    {claim : Claim} {work : Work} (hc : c.enter true = some (claim, work)) {id : UInt32}
    {store : Store} (hclaim : w.store.claim claim = some (id, store)) :
    let w' := (w.step (.call task c true)).step (.advance task .ok)
    (w'.tasks task).isInside = true ∧ ∀ i, i ≠ task → w'.tasks i = w.tasks i := by
  have hcall : w.step (.call task c true) = w.put task w.store (.claiming claim work) := by
    simp only [Shared.step, hout, hc]
  have hstore : (w.put task w.store (.claiming claim work)).store = w.store := rfl
  dsimp only
  rw [hcall]
  simp only [Shared.step, Shared.put_tasks_self, hstore, hclaim]
  refine ⟨rfl, fun i hi => ?_⟩
  rw [Shared.put_tasks_of_ne _ hi, Shared.put_tasks_of_ne _ hi]

/-- A valid candidate is staged by the first transaction. -/
theorem staged_alone {c : PmConfig} (hv : pmConfigValidate (staged c) false = .ok) :
    Alone (run Shared.step (.boot Flash.fresh)
      (.call 0 (.begin c .zero) true :: List.replicate 7 (.advance 0 .ok)))
      ⟨⟨true, none, ⟨none, some (.config (staged c))⟩, nofun⟩, 2, 1, false⟩ .outside := by
  have henter : (MutatingCall.begin c .zero).enter true =
      some (.newTransaction, beginWork (staged c) none) := by
    simp only [MutatingCall.enter, hv]
    rfl
  have hstart : Alone (.boot Flash.fresh) (.boot Flash.fresh) .outside :=
    ⟨rfl, rfl, rfl⟩
  have hopened := ((hstart.enters henter).claims rfl .ok).advance .ok
  have hwritten := ((hopened.advance .ok).advance .ok).advance .ok
  have hread : Alone _ _ (.inside 1 (match
      Config.readSlot ⟨true, none, ⟨none, some (.config (staged c))⟩, nofun⟩ .b .ok with
        | .error e => .releaseTransaction e
        | .ok v => if v = staged c then .finishMutation (some .ok)
          else .releaseTransaction (some .fail))) := hwritten.advance .ok
  have hverified : Config.readSlot ⟨true, none, ⟨none, some (.config (staged c))⟩, nofun⟩ .b .ok =
      .ok (staged c) := by
    simp only [Config.readSlot, NvsRead.andThen, Slots.get, slotContent, hv, if_true]
  simp only [hverified, if_true] at hread
  exact hread.advance .ok

/-- The abort of a copy of the active transaction lets a second call in. -/
theorem abortUnderCommit_inside {c : PmConfig} (hv : pmConfigValidate (staged c) false = .ok) :
    ¬Exclusive (run Shared.step (.boot Flash.fresh) (abortUnderCommit c)) := by
  rw [abortUnderCommit, run_append]
  have hstaged := staged_alone hv
  generalize run Shared.step (.boot Flash.fresh)
    (.call 0 (.begin c .zero) true :: List.replicate 7 (.advance 0 .ok)) = w at hstaged ⊢
  have hcommit : (MutatingCall.commit (testedTransaction c)).enter true =
      some (.transaction 1, commitWork (testedTransaction c) .b) := rfl
  have hclaimed := (hstaged.enters hcommit).claims rfl .ok
  simp only [run_cons, run_nil]
  generalize (w.step (.call 0 (.commit (testedTransaction c)) true)).step (.advance 0 .ok) = w
    at hclaimed ⊢
  have hactivate : (MutatingCall.activateStaged charB 1).enter true =
      some (.unowned, activateWork .b 1) := rfl
  -- the release clears the mutation flag of the commit
  have hfree : (w.step (.abort (testedTransaction c))).store.claim .unowned =
      some (0, ⟨⟨true, none, ⟨none, some (.config (staged c))⟩, nofun⟩, 2, 0, true⟩) := by
    change (w.store.releaseTransaction (testedTransaction c).transactionId).claim .unowned = _
    rw [hclaimed.store_eq]
    rfl
  obtain ⟨h1, h0⟩ := enters_inside (w := w.step (.abort (testedTransaction c))) hclaimed.rest
    hactivate hfree
  have h0 : ((((w.step (.abort (testedTransaction c))).step
      (.call 1 (.activateStaged charB 1) true)).step (.advance 1 .ok)).tasks 0).isInside = true := by
    rw [h0 0 (by decide)]
    change (w.tasks 0).isInside = true
    rw [hclaimed.place_eq]
    rfl
  intro hex
  exact absurd (hex 0 1 h0 h1) (by decide)

omit [Sha256] in
/-- With a copy of the active transaction aborted under its commit, two calls are inside. -/
theorem abort_admits_second :
    ¬∀ (flash : Flash) (moves : List Move), Exclusive (run (@Shared.step .standard) (.boot flash) moves) :=
  fun h => @abortUnderCommit_inside .standard _ sampleConfig_valid (h _ _)

end PowerMonitor.Config
