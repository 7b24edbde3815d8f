import PowerMonitor.Provisioning.Session

/-!
# Only a tested configuration becomes active

Sessions of the firmware, over any sequence of request lines and whatever their calls meet. A
`commit_config` that succeeds was preceded by a `test_config` on the same candidate in which all
five stages returned `ESP_OK`, with nothing in between that could have replaced or dropped the
candidate; afterwards the stored configuration and the session's active one are that candidate. No
other line changes either; the first to open the missing namespace for writing changes the error of
a load.

* `SessionInv` is the invariant: while the tests count as passed, the staged slot holds the
  candidate and the log has the test that it passed.
* `line_sound` is the step, `only_tested_configuration_becomes_active` the result.
-/

namespace PowerMonitor.Provisioning

open CMemory CJson Config AbStore Runs

/-- The last test in the log passed all five stages on `c`, and only neutral lines came after it.
The newest event is first. The results of a test are what the stages answered, in the order in which
`runTests` asked them. -/
def TestedBefore (log : List LineEvent) (c : PmConfig) : Prop :=
  ∃ later earlier, log = later ++ .tested (TestStage.all.map fun stage => (stage, .ok)) c :: earlier ∧
    ∀ e ∈ later, e = .neutral

theorem testedBefore_neutral {log : List LineEvent} {c : PmConfig} (h : TestedBefore log c) :
    TestedBefore (.neutral :: log) c := by
  obtain ⟨later, earlier, rfl, hl⟩ := h
  refine ⟨.neutral :: later, earlier, rfl, ?_⟩
  rintro e (_ | ⟨_, he⟩)
  · rfl
  · exact hl e he

/-- The stage loop: when it ends well, every stage returned `ESP_OK`, in order. -/
theorem runTests_ok {tests : TestStage → PmConfig → List UInt8 → StageOutcome} {token : List UInt8}
    {stages : List TestStage} {c : PmConfig}
    (h : (runTests tests token stages c).2.2 = .ok) :
    (runTests tests token stages c).2.1 = stages.map fun stage => (stage, .ok) := by
  induction stages generalizing c with
  | nil => rfl
  | cons stage stages ih =>
    simp only [runTests] at h ⊢
    split
    next ho =>
      rw [if_pos ho] at h
      exact congrArg _ (ih h)
    next ho =>
      rw [if_neg ho] at h
      exact absurd h ho

theorem runTests_schema (tests : TestStage → PmConfig → List UInt8 → StageOutcome)
    (token : List UInt8) (stages : List TestStage) (c : PmConfig) :
    (runTests tests token stages c).1.schemaVersion = c.schemaVersion := by
  induction stages generalizing c with
  | nil => rfl
  | cons stage stages ih =>
    simp only [runTests]
    split
    · exact ih _
    · rfl

theorem parseCandidate_spec {active candidate : PmConfig} {config : Json} {token : Bytes 193}
    (h : parseCandidate active config = some (candidate, token)) :
    candidate.schemaVersion = schemaVersion ∧ candidate.crc32 = configCrc candidate ∧
      pmConfigValidate candidate true = .ok := by
  unfold parseCandidate at h
  split at h
  · cases h
  next fields token' _ =>
    split at h
    next hvalid =>
      obtain ⟨rfl, -⟩ := Prod.mk.inj (Option.some.inj h)
      exact ⟨rfl, staged_crc32 fields, hvalid⟩
    · cases h

/-! ## Sessions -/

/-- A session at work: the session, the store, and the lines so far, newest first. -/
structure Desk where
  session : Session
  store : Store
  log : List LineEvent

/-- A line and what its calls meet. -/
structure LineAct where
  line : Line
  env : LineEnv

/-- A session as the firmware opens it at boot, which sets no factory reset callback. -/
def Desk.open (flash : Flash) (active : PmConfig) (physicallyAuthorized : Bool) : Desk where
  session := sessionInit active physicallyAuthorized true none true
  store := Store.boot flash
  log := []

/-- The invariant of a session. -/
structure SessionInv (s : Session) (store : Store) (log : List LineEvent) : Prop where
  noReset : s.factoryReset = none
  schema : s.candidatePresent = true → s.candidate.schemaVersion = schemaVersion
  present : s.testsPassed = true → s.candidatePresent = true
  staged : s.testsPassed = true → ∃ side, slotOf s.transaction.candidateSlot = some side ∧
    store.flash.slots.get side = some (.config s.candidate)
  tested : s.testsPassed = true → TestedBefore log s.candidate

/-- What an operation respects that does not commit. -/
structure Effect.Respects (e : Effect) (s : Session) (store : Store) (log : List LineEvent) :
    Prop where
  inv : SessionInv e.session e.store (e.event :: log)
  load_kept : LoadKept store.flash e.store.flash
  active_eq : e.session.active = s.active

/-! ## The operations -/

section Operations

variable {s : Session} {store : Store} {log : List LineEvent}

theorem flash_abort (s : Session) (store : Store) :
    (abortTransaction s store).flash = store.flash :=
  flash_releaseTransaction store s.transaction.transactionId

theorem loadKept_abort (s : Session) (store : Store) :
    LoadKept store.flash (abortTransaction s store).flash := by
  rw [flash_abort]
  exact .refl _

/-- After `clear_candidate_state` nothing is left to commit. -/
theorem SessionInv.cleared (hreset : s.factoryReset = none) (hpresent : s.candidatePresent = false)
    (hpassed : s.testsPassed = false) (store : Store) (log : List LineEvent) :
    SessionInv s store log where
  noReset := hreset
  schema h := by rw [hpresent] at h; cases h
  present h := by rw [hpassed] at h; cases h
  staged h := by rw [hpassed] at h; cases h
  tested h := by rw [hpassed] at h; cases h

theorem Effect.Respects.of_cleared {e : Effect} (hi : SessionInv s store log)
    (hreset : e.session.factoryReset = s.factoryReset) (hpresent : e.session.candidatePresent = false)
    (hpassed : e.session.testsPassed = false) (hload : LoadKept store.flash e.store.flash)
    (hactive : e.session.active = s.active) : e.Respects s store log :=
  ⟨.cleared (hreset.trans hi.noReset) hpresent hpassed _ _, hload, hactive⟩

theorem SessionInv.neutral (hi : SessionInv s store log) {s' : Session}
    (hreset : s'.factoryReset = s.factoryReset) (hcand : s'.candidate = s.candidate)
    (hpresent : s'.candidatePresent = s.candidatePresent)
    (hpassed : s'.testsPassed = s.testsPassed) (htrans : s'.transaction = s.transaction) :
    SessionInv s' store (.neutral :: log) where
  noReset := hreset.trans hi.noReset
  schema h := by rw [hcand]; exact hi.schema (hpresent ▸ h)
  present h := by rw [hpresent]; exact hi.present (hpassed ▸ h)
  staged h := by rw [hcand, htrans]; exact hi.staged (hpassed ▸ h)
  tested h := by rw [hcand]; exact testedBefore_neutral (hi.tested (hpassed ▸ h))

theorem SessionInv.rebootRequested (hi : SessionInv s store log) :
    SessionInv { s with rebootRequested := true } store log :=
  ⟨hi.noReset, hi.schema, hi.present, hi.staged, hi.tested⟩

theorem safeReboot_respects (hi : SessionInv s store log) (env : LineEnv) :
    (safeReboot s store env).Respects s store log := by
  unfold safeReboot
  dsimp only
  split
  · exact .of_cleared hi rfl rfl rfl (loadKept_abort s store) rfl
  · split
    · exact .of_cleared hi rfl rfl rfl (loadKept_abort s store) rfl
    · exact .of_cleared hi rfl rfl rfl (loadKept_abort s store) rfl

theorem factoryResetPrepare_respects (hi : SessionInv s store log) (env : LineEnv) :
    (factoryResetPrepare s store env).Respects s store log := by
  unfold factoryResetPrepare
  split
  · exact ⟨hi.neutral rfl rfl rfl rfl rfl, .refl _, rfl⟩
  · exact ⟨hi.neutral rfl rfl rfl rfl rfl, .refl _, rfl⟩

theorem factoryResetCommit_respects (hi : SessionInv s store log) (request : Json)
    (env : LineEnv) : (factoryResetCommit s store request env).Respects s store log := by
  unfold factoryResetCommit
  dsimp only
  split
  · exact ⟨hi.neutral rfl rfl rfl rfl rfl, .refl _, rfl⟩
  next hreset =>
    rw [hi.noReset] at hreset
    cases hreset

theorem result_getD_ne_ok {e : CallEnd} (h : e ≠ some .ok) : e.getD .fail ≠ .ok := by
  cases e with
  | none => decide
  | some e => simpa using h

variable [Sha256]

theorem describe_respects (hi : SessionInv s store log) (env : LineEnv) :
    (describe s store env).Respects s store log :=
  ⟨hi.neutral rfl rfl rfl rfl rfl, .refl _, rfl⟩

theorem beginConfig_respects (hi : SessionInv s store log) (request : Json) (env : LineEnv) :
    (beginConfig s store request env).Respects s store log := by
  unfold beginConfig
  dsimp only
  split
  · exact .of_cleared hi rfl rfl rfl (loadKept_abort s store) rfl
  next candidate token hparse =>
    have hc := begin_contained (abortTransaction s store) candidate Transaction.zero
      env.beginFaults.toFaults
    have hsel : (pmConfigBegin (abortTransaction s store) candidate Transaction.zero
        env.beginFaults.toFaults).selected = none :=
      (ConfigCall.begin candidate Transaction.zero).selected_eq_none rfl _ _
    have hload := hc.loadKept hsel
    rw [flash_abort] at hload
    split
    · refine ⟨⟨hi.noReset, fun _ => (parseCandidate_spec hparse).1, ?_, ?_, ?_⟩, hload, rfl⟩
      all_goals exact fun h => by cases h
    · refine .of_cleared hi rfl rfl rfl ?_ rfl
      rw [failed, flash_abort]
      exact hload

/-- The rewrite of the tested candidate moves no selector and, when it succeeds, the candidate
in the slot of the transaction. -/
theorem restage_spec (store : Store) (candidate : PmConfig) (t : Transaction) (f : Faults) :
    LoadKept store.flash (restage store candidate t f).store.flash ∧
    ((restage store candidate t f).result = some .ok → ∃ side,
      slotOf (restage store candidate t f).transaction.candidateSlot = some side ∧
      (restage store candidate t f).store.flash.slots.get side =
        some (.config (staged candidate))) := by
  have hload := (begin_contained store candidate t f).loadKept
    ((ConfigCall.begin candidate t).selected_eq_none rfl store f)
  unfold restage
  dsimp only
  split
  next hok =>
    obtain ⟨id, side, ht, hslot⟩ := begin_ok hok
    unfold pmConfigMarkNetworkTested
    split
    · exact ⟨hload, fun h => by cases h⟩
    · refine ⟨hload, fun _ => ⟨side, ?_, hslot⟩⟩
      simp [Store.keep, ht, stagedTransaction]
  next hne => exact ⟨hload, fun h => absurd h hne⟩

theorem testConfig_respects (hi : SessionInv s store log) (env : LineEnv) :
    (testConfig s store env).Respects s store log := by
  unfold testConfig
  dsimp only
  split
  · exact .of_cleared hi rfl rfl rfl (loadKept_abort _ store) rfl
  next hpresent =>
  simp only [Bool.or_eq_true, Bool.not_eq_true', not_or, Bool.not_eq_false] at hpresent
  split
  next hpass =>
    generalize hr : runTests env.tests s.enrollmentToken.str TestStage.all s.candidate = r at hpass ⊢
    obtain ⟨hload, hslot⟩ := restage_spec store { r.1 with crc32 := configCrc r.1 } s.transaction
      env.beginFaults.toFaults
    have hschema : r.1.schemaVersion = schemaVersion := by
      rw [← hr, runTests_schema]
      exact hi.schema hpresent.1
    split
    next hok =>
      obtain ⟨side, hside, hget⟩ := hslot hok
      rw [staged_eq (c := { r.1 with crc32 := configCrc r.1 }) hschema rfl] at hget
      refine ⟨⟨hi.noReset, fun _ => hschema, fun _ => hpresent.1, fun _ => ⟨side, hside, hget⟩,
        fun _ => ⟨[], log, ?_, fun e he => by cases he⟩⟩, hload, rfl⟩
      rw [List.nil_append, ← hr, runTests_ok (hr ▸ hpass)]
      rfl
    · refine .of_cleared hi rfl rfl rfl ?_ rfl
      rw [failed, flash_abort]
      exact hload
  · exact .of_cleared hi rfl rfl rfl (loadKept_abort _ store) rfl

/-- **A commit that succeeds** makes the tested candidate the stored and the active
configuration. -/
theorem commitConfig_ok (hi : SessionInv s store log) {env : LineEnv}
    (hok : (commitConfig s store env).result = .ok) :
    TestedBefore log s.candidate ∧
      load (commitConfig s store env).store.flash = .ok s.candidate ∧
      (commitConfig s store env).session.active = s.candidate ∧
      ∀ log', SessionInv (commitConfig s store env).session (commitConfig s store env).store
        log' := by
  cases hpassed : s.testsPassed with
  | false =>
    simp [commitConfig, hpassed, Store.keep, EspErr.invalidState, EspErr.ok, failed] at hok
  | true =>
    simp only [commitConfig, hpassed, if_true] at hok ⊢
    split at hok
    next hres =>
      rw [if_pos hres]
      obtain ⟨side, hside, hsel⟩ := commit_ok hres
      obtain ⟨side', hside', hget⟩ := hi.staged hpassed
      obtain rfl := Option.some.inj (hside.symm.trans hside')
      obtain ⟨c, hc, hload, -⟩ := (commit_contained store s.transaction
        env.commitFaults.toFaults).load_selected hsel
      obtain rfl : c = s.candidate := by
        rw [hc] at hget
        exact Blob.config.inj (Option.some.inj hget)
      refine ⟨hi.tested hpassed, ?_, rfl, fun log' => ?_⟩
      · rw [reached, flash_abort]
        exact hload
      exact .cleared (s := { s with active := s.candidate }.clearCandidate) hi.noReset rfl rfl _ _
    next hres =>
      exact absurd hok (result_getD_ne_ok hres)

/-- **A commit that does not succeed** changes neither. -/
theorem commitConfig_not_ok (hi : SessionInv s store log) {env : LineEnv}
    (hne : (commitConfig s store env).result ≠ .ok) :
    (commitConfig s store env).Respects s store log := by
  have hquiet : ∀ o : Outcome, (if s.testsPassed then pmConfigCommit store s.transaction
      env.commitFaults.toFaults else store.keep (some .invalidState) s.transaction) = o →
      o.result ≠ some .ok → LoadKept store.flash o.store.flash := by
    rintro o rfl hres
    split
    next hpassed =>
      rw [if_pos hpassed] at hres
      exact (commit_contained store s.transaction env.commitFaults.toFaults).loadKept
        (commit_not_ok env.commitFaults.noEffect hres)
    · exact .refl _
  unfold commitConfig at hne ⊢
  dsimp only at hne ⊢
  generalize ho : (if s.testsPassed then pmConfigCommit store s.transaction
    env.commitFaults.toFaults else store.keep (some .invalidState) s.transaction) = o at hne ⊢
  split at hne
  · exact absurd rfl hne
  next hres =>
  rw [if_neg hres]
  refine .of_cleared hi rfl rfl rfl ?_ rfl
  rw [failed, flash_abort]
  exact hquiet o ho hres

theorem perform_respects (hi : SessionInv s store log) (op : Operation) (request : Json)
    (env : LineEnv) (h : op = .commitConfig → (perform op s store request env).result ≠ .ok) :
    (perform op s store request env).Respects s store log := by
  cases op with
  | hello => exact describe_respects hi env
  | status => exact describe_respects hi env
  | beginConfig => exact beginConfig_respects hi request env
  | testConfig => exact testConfig_respects hi env
  | commitConfig => exact commitConfig_not_ok hi (h rfl)
  | rollbackConfig => exact .of_cleared hi rfl rfl rfl (loadKept_abort s store) rfl
  | factoryResetPrepare => exact factoryResetPrepare_respects hi env
  | factoryResetCommit => exact factoryResetCommit_respects hi request env
  | safeReboot => exact safeReboot_respects hi env
  | unknown => exact ⟨hi.neutral rfl rfl rfl rfl rfl, .refl _, rfl⟩

end Operations

/-! ## Lines -/

variable [Sha256]

/-- The line as the session handles it. -/
def Desk.handled (d : Desk) (a : LineAct) : Handled :=
  pmProvisioningHandleLine d.session d.store a.line a.env

/-- One line. -/
def Desk.step (d : Desk) (a : LineAct) : Desk :=
  let h := d.handled a
  ⟨h.session, h.store, h.event :: d.log⟩

/-- A `commit_config` that succeeds. -/
def Desk.Commits (d : Desk) (a : LineAct) : Prop :=
  a.line.operation = some .commitConfig ∧ (d.handled a).result = .ok

/-- **What a line may do to the active configuration.** -/
structure Desk.Sound (d : Desk) (a : LineAct) : Prop where
  commit : d.Commits a → TestedBefore d.log d.session.candidate ∧
    load (d.step a).store.flash = .ok d.session.candidate ∧
    (d.step a).session.active = d.session.candidate
  other : ¬d.Commits a → LoadKept d.store.flash (d.step a).store.flash ∧
    (d.step a).session.active = d.session.active

/-- The invariant of a desk. -/
def Desk.Inv (d : Desk) : Prop := SessionInv d.session d.store d.log

/-- A line is refused before its operation, or performs it. -/
theorem Desk.handled_cases (d : Desk) (a : LineAct) :
    (a.line.operation = none ∧ (d.handled a).session = d.session ∧
      (d.handled a).store = d.store ∧ (d.handled a).event = .neutral) ∨
    ∃ op request, a.line.operation = some op ∧
      (d.handled a).result = (perform op d.session d.store request a.env).result ∧
      (d.handled a).store = (perform op d.session d.store request a.env).store ∧
      (d.handled a).event = (perform op d.session d.store request a.env).event ∧
      ((d.handled a).session = (perform op d.session d.store request a.env).session ∨
        (d.handled a).session =
          { (perform op d.session d.store request a.env).session with rebootRequested := true }) := by
  unfold Desk.handled pmProvisioningHandleLine
  split
  next h => exact .inl ⟨by rw [h]; rfl, rfl, rfl, rfl⟩
  next h => exact .inl ⟨by rw [h]; rfl, rfl, rfl, rfl⟩
  next j h =>
  dsimp only
  split
  next hop => exact .inl ⟨h ▸ hop, rfl, rfl, rfl⟩
  next op hop =>
  refine .inr ⟨op, j, h ▸ hop, rfl, rfl, rfl, ?_⟩
  by_cases hr : a.env.renderResult = .ok ∧
      (perform op d.session d.store j a.env).requestReboot = true
  · exact .inr (if_pos hr)
  · exact .inl (if_neg hr)

/-- **One line**: it keeps the invariant and does to the active configuration only what it may. -/
theorem Desk.line_sound {d : Desk} (hi : d.Inv) (a : LineAct) : (d.step a).Inv ∧ d.Sound a := by
  rcases d.handled_cases a with ⟨hop, hs, hst, hev⟩ | ⟨op, request, hop, hres, hst, hev, hs⟩
  · have hno : ¬d.Commits a := fun h => by
      rw [Desk.Commits, hop] at h
      cases h.1
    refine ⟨?_, fun h => absurd h hno, fun _ => ?_⟩
    · simp only [Desk.Inv, Desk.step, hs, hst, hev]
      exact SessionInv.neutral hi rfl rfl rfl rfl rfl
    · simp only [Desk.step, hs, hst, and_true]
      exact .refl _
  · -- the session differs from that of the operation in its reboot request at most
    have hinv : ∀ {log}, SessionInv (perform op d.session d.store request a.env).session
        (perform op d.session d.store request a.env).store log →
        SessionInv (d.handled a).session (d.handled a).store log := by
      intro log h
      rw [hst]
      rcases hs with hs | hs <;> rw [hs]
      · exact h
      · exact h.rebootRequested
    have hactive : (d.handled a).session.active =
        (perform op d.session d.store request a.env).session.active := by
      rcases hs with hs | hs <;> rw [hs]
    by_cases hc : d.Commits a
    · obtain rfl : op = .commitConfig := Option.some.inj (hop.symm.trans hc.1)
      have hok := hres.symm.trans hc.2
      obtain ⟨htest, hload, hact, hi'⟩ := commitConfig_ok hi hok
      refine ⟨hinv (hi' _), fun _ => ⟨htest, ?_, hactive.trans hact⟩, fun h => absurd hc h⟩
      simp only [Desk.step, hst]
      exact hload
    · have hr := perform_respects hi op request a.env fun h hok => hc ⟨h ▸ hop, hres.trans hok⟩
      refine ⟨?_, fun h => absurd h hc, fun _ => ⟨?_, hactive.trans hr.active_eq⟩⟩
      · have := hinv hr.inv
        rw [← hev] at this
        exact this
      · simp only [Desk.step, hst]
        exact hr.load_kept

omit [Sha256] in
theorem Desk.open_inv (flash : Flash) (active : PmConfig) (physicallyAuthorized : Bool) :
    (Desk.open flash active physicallyAuthorized).Inv :=
  .cleared rfl rfl rfl _ _

/-- **Only a tested configuration becomes active**: every line of every session does to the stored
and the active configuration only what it may. -/
theorem only_tested_configuration_becomes_active (flash : Flash) (active : PmConfig)
    (physicallyAuthorized : Bool) (lines : List LineAct) :
    Along Desk.step Desk.Sound (Desk.open flash active physicallyAuthorized) lines :=
  Along.of_invariant (I := Desk.Inv) (fun _ a hi => (Desk.line_sound hi a).1)
    (fun _ a hi => (Desk.line_sound hi a).2) (Desk.open_inv flash active physicallyAuthorized) lines

/-! ## The first candidate of a device -/

/-- A candidate that passes every check makes the namespace. -/
theorem made_beginConfig {active candidate : PmConfig} {request : Json} {token : Bytes 193}
    (hparse : parseCandidate active ((request.item "config").getD .null) = some (candidate, token))
    (flash : Flash) (physicallyAuthorized : Bool) {env : LineEnv}
    (hmalloc : env.beginFaults.mallocOk = true) (hopen : env.beginFaults.opened.made = true) :
    (beginConfig (sessionInit active physicallyAuthorized true none true) (Store.boot flash) request
      env).store.flash.made = true := by
  obtain ⟨hschema, hcrc, hvalid⟩ := parseCandidate_spec hparse
  have hstaged : pmConfigValidate (staged candidate) false = .ok := by
    rw [staged_eq hschema hcrc]
    exact pmConfigValidate_of_production hvalid
  have hmade := made_begin (s := abortTransaction
    (sessionInit active physicallyAuthorized true none true) (Store.boot flash)) hstaged hmalloc hopen
    ⟨rfl, rfl⟩
  unfold beginConfig
  dsimp only [sessionInit] at hmade ⊢
  rw [hparse]
  dsimp only
  split
  · exact hmade
  · rw [failed, flash_abort]
    exact hmade

/-- The first candidate of a device that was never configured changes the error of a load. -/
theorem first_candidate {active candidate : PmConfig} {request : Json} {token : Bytes 193}
    (hparse : parseCandidate active ((request.item "config").getD .null) = some (candidate, token))
    (hop : (Line.request request).operation = some .beginConfig) (env : LineEnv)
    (hmalloc : env.beginFaults.mallocOk = true) (hopen : env.beginFaults.opened.made = true) :
    let d := Desk.open Flash.fresh active false
    let a : LineAct := ⟨.request request, env⟩
    ¬d.Commits a ∧ load d.store.flash = .error (some .nvsNotFound) ∧
      load (d.step a).store.flash = .error (some .notFound) := by
  intro d a
  have hno : ¬d.Commits a := fun hc => by
    have hcommit := hop.symm.trans hc.1
    cases hcommit
  have hstore : (d.step a).store = (beginConfig d.session d.store request env).store := by
    simp only [Desk.step, Desk.handled, pmProvisioningHandleLine, a, hop, perform]
  have hmade : (d.step a).store.flash.made = true := by
    rw [hstore]
    exact made_beginConfig hparse Flash.fresh false hmalloc hopen
  exact ⟨hno, ((Desk.line_sound (Desk.open_inv _ _ _) a).2.other hno).1.opened ⟨rfl, hmade⟩⟩

/-- A request with a candidate that passes every check. -/
def sampleRequest : Json := .object
  [(ascii "protocol", .string (ascii "pm-com/1.0.0")), (ascii "op", .string (ascii "begin_config")),
    (ascii "config", .object
      [(ascii "friendly_name", .string (ascii "a")), (ascii "wifi_ssid", .string (ascii "a")),
        (ascii "wifi_password", .string []), (ascii "server_origin", .string (ascii "https://a")),
        (ascii "ca_pem", .string (ascii "a")), (ascii "timezone", .string (ascii "a")),
        (ascii "enrollment_token", .string (ascii "a")), (ascii "ipv4_mode", .number 0),
        (ascii "ct_rating_a", .number 100),
        (ascii "pzem_variant", .string (ascii "pzem-004t-v4-classic"))])]

/-- No faults. -/
def OrderlyFaults.none : OrderlyFaults where
  toFaults := Faults.none
  powered := by simp [Faults.none, NvsOpen.read, NvsWrite.result]
  noEffect h := absurd rfl h

/-- Calls that succeed. -/
def calmLine : LineEnv where
  tests _ c _ := ⟨.ok, c.deviceId, c.deviceSecret, c.deviceSecretLen⟩
  beginFaults := OrderlyFaults.none
  commitFaults := OrderlyFaults.none
  randomToken := Bytes.zero 16
  nowUs := 0
  safeRebootResult := .ok
  renderResult := .ok
  firmwareVersion := []

omit [Sha256] in
theorem parseCandidate_sample : ∃ token, parseCandidate PmConfig.zero
    ((sampleRequest.item "config").getD .null) = some (staged sampleConfig, token) := by
  have hfields : candidateFields PmConfig.zero ((sampleRequest.item "config").getD .null) =
      some (sampleConfig, (Bytes.zero 193).print (ascii "a")) := by decide +kernel
  exact ⟨_, by rw [parseCandidate, hfields]; exact if_pos sampleConfig_production⟩

omit [Sha256] in
theorem sampleRequest_operation : (Line.request sampleRequest).operation = some .beginConfig := by
  decide +kernel

omit [Sha256] in
/-- A line that commits nothing can change what the load returns. -/
theorem first_candidate_changes_load :
    ¬∀ (flash : Flash) (active : PmConfig) (physicallyAuthorized : Bool) (lines : List LineAct),
      Along (@Desk.step .standard)
        (fun d a => ¬@Desk.Commits .standard d a →
          load (@Desk.step .standard d a).store.flash = load d.store.flash)
        (Desk.open flash active physicallyAuthorized) lines := by
  intro h
  obtain ⟨token, hparse⟩ := parseCandidate_sample
  obtain ⟨hno, hbefore, hafter⟩ := @first_candidate .standard _ _ _ _ hparse sampleRequest_operation
    calmLine rfl rfl
  have heq := hafter.symm.trans (((h _ _ _ [_]).1 hno).trans hbefore)
  exact absurd heq (by decide)

end PowerMonitor.Provisioning
