import PowerMonitor.Runtime.Steps

/-!
# One OTA task at a time

`s_ota_task_active` is meant to keep a second OTA task from being created while one is alive. It is
set by `claim_ota_task` and cleared by `release_ota_task`, from two tasks and from every exit of
`execute_command`. One of these exits clears it without having set it: after a claim that failed.

`FlightInv` is the invariant that relates the flag to the tasks, and `single_flight_iff` says that
there is never a second task, along a run, exactly when that exit is never taken while a task is
alive.
-/

namespace PowerMonitor.Runtime

open AbStore CJson Commands Ota Runs

/-- The control task has claimed the flag and not yet handed it to a task. -/
def ControlPc.claimed : ControlPc → Bool
  | spawning _ => true
  | releasing _ _ claimed => claimed
  | _ => false

/-- At most one OTA task is alive, and the flag is set while one is. -/
def SingleFlight (w : World) : Prop :=
  w.tasks.length ≤ 1 ∧ (w.tasks ≠ [] → w.otaActive = true)

instance (w : World) : Decidable (SingleFlight w) :=
  inferInstanceAs (Decidable (w.tasks.length ≤ 1 ∧ (w.tasks ≠ [] → w.otaActive = true)))

/-- The invariant: the flag belongs to the one task, or to the control task. -/
structure FlightInv (w : World) : Prop where
  flight : SingleFlight w
  claimed : w.control.claimed = true → w.otaActive = true ∧ w.tasks = []

namespace FlightInv

variable {w w' : World}

theorem start (nvs : Slots Ledger) (flash : OtaFlash) : FlightInv (World.start nvs flash) :=
  ⟨⟨Nat.zero_le 1, fun h => absurd rfl h⟩, fun h => by cases h⟩

theorem reset (w : World) (env : BootEnv) : FlightInv (w.reset env) :=
  ⟨⟨Nat.zero_le 1, fun h => absurd rfl h⟩, fun h => by cases h⟩

/-- A step that leaves the tasks and the flag alone and claims nothing. -/
theorem keep (hi : FlightInv w) (htasks : w'.tasks = w.tasks) (hactive : w'.otaActive = w.otaActive)
    (hclaimed : w'.control.claimed = true → w.control.claimed = true) : FlightInv w' := by
  refine ⟨?_, fun h => ?_⟩
  · rw [SingleFlight, htasks, hactive]
    exact hi.flight
  · rw [htasks, hactive]
    exact hi.claimed (hclaimed h)

/-- No task is alive while the flag is clear. -/
theorem tasks_eq_nil (hi : FlightInv w) (h : w.otaActive = false) : w.tasks = [] := by
  by_contra hne
  rw [hi.flight.2 hne] at h
  cases h

end FlightInv

variable [Sha256]

/-- `execute_command` does not come to `release_ota_task` after a failed claim while an OTA task is
alive. -/
def ReleasesOwn (w : World) (a : Action) : Prop :=
  a.actor = .control → ∀ i e, w.control = .releasing i e false → w.tasks = []

/-- A ledger call whose continuation leaves the tasks and the flag alone and claims nothing. -/
theorem flight_call {w w₁ : World} (hi : FlightInv w) (c : Call) (env : Env)
    {k : EspErr → World → World} (htasks : w₁.tasks = w.tasks)
    (hactive : w₁.otaActive = w.otaActive)
    (hk : ∀ e w₂, (k e w₂).tasks = w₂.tasks ∧ (k e w₂).otaActive = w₂.otaActive ∧
      ((k e w₂).control.claimed = true → w₂.control.claimed = true))
    (hclaimed : w₁.control.claimed = true → w.control.claimed = true) :
    FlightInv (w₁.call c env k) := by
  refine World.call_ind (FlightInv.reset _ _) fun e _ => ?_
  obtain ⟨hkt, hka, hkc⟩ := hk e { w₁ with
    ledger := (c.perform w₁.ledger w₁.nvs env.fault).ledger
    nvs := (c.perform w₁.ledger w₁.nvs env.fault).nvs }
  exact hi.keep (hkt.trans htasks) (hka.trans hactive) fun h => hclaimed (hkc h)

theorem flight_execute {w : World} (hi : FlightInv w) (i : EntryIndex) (env : Env) :
    FlightInv (w.execute i env) := by
  unfold World.execute
  split
  · refine flight_call hi _ env rfl rfl (fun e w₂ => ⟨rfl, rfl, fun h => ?_⟩) fun h => h
    dsimp only at h
    split at h <;> cases h
  all_goals exact hi.keep rfl rfl fun h => by cases h

/-- The control task outside `release_ota_task`. -/
theorem flight_control {w : World} (hi : FlightInv w) (env : Env)
    (hpc : ∀ i e claimed, w.control ≠ .releasing i e claimed) :
    FlightInv (w.stepControl env) := by
  unfold World.stepControl
  split
  · exact hi
  · split
    · exact hi
    · exact hi.keep rfl rfl fun h => by cases h
  · split
    · exact hi.keep rfl rfl fun h => by cases h
    · exact flight_call hi _ env rfl rfl (fun _ _ => ⟨rfl, rfl, id⟩) id
  · split
    · exact hi.keep rfl rfl fun h => by cases h
    · exact hi.keep rfl rfl fun h => by cases h
  · split
    · exact hi
    · exact flight_call hi _ env rfl rfl (fun _ _ => ⟨rfl, rfl, fun h => by cases h⟩) id
  · exact flight_execute hi _ env
  · split
    · exact hi.keep rfl rfl fun h => by cases h
    next hactive =>
      have hnil := hi.tasks_eq_nil (by simpa using hactive)
      refine ⟨⟨?_, fun _ => rfl⟩, fun _ => ⟨rfl, hnil⟩⟩
      simp [hnil]
  next i hspawn =>
    obtain ⟨hactive, hnil⟩ := hi.claimed (by rw [hspawn]; rfl)
    split
    · exact ⟨⟨hi.flight.1, fun h => absurd hnil h⟩, fun _ => ⟨hactive, hnil⟩⟩
    · exact ⟨⟨by simp [hnil], fun _ => hactive⟩, fun h => by cases h⟩
  next i e claimed hrel => exact absurd hrel (hpc i e claimed)
  · exact flight_call hi _ env rfl rfl (fun _ _ => ⟨rfl, rfl, fun h => by cases h⟩) id
  · exact FlightInv.reset _ _

/-- `release_ota_task` in `execute_command`: after a claim that failed it keeps the invariant
exactly when no task is alive. -/
theorem flight_release {w : World} (hi : FlightInv w) (i : EntryIndex) (e : EspErr) {claimed : Bool}
    (hpc : w.control = .releasing i e claimed) (env : Env) :
    (SingleFlight (w.stepControl env) ↔ (claimed = false → w.tasks = [])) ∧
      (w.tasks = [] → FlightInv (w.stepControl env)) := by
  have hstep : w.stepControl env = { w with otaActive := false, control := .finishing i e } := by
    simp only [World.stepControl, hpc]
  rw [hstep]
  have hnil : w.tasks = [] → FlightInv { w with otaActive := false, control := .finishing i e } :=
    fun h => ⟨⟨hi.flight.1, fun hne => absurd h hne⟩, fun h => by cases h⟩
  refine ⟨⟨fun h _ => ?_, fun h => ?_⟩, hnil⟩
  · by_contra hne
    exact absurd (h.2 hne) (by simp)
  · cases claimed with
    | true => exact (hnil (hi.claimed (by rw [hpc]; rfl)).2).flight
    | false => exact (hnil (h rfl)).flight

variable [Parser] [Base64]

theorem flight_task {w : World} (hi : FlightInv w) (k : ℕ) (env : Env) :
    FlightInv (w.stepTask k env) := by
  rcases w.stepTask_frame k env with ⟨_, _, _, h⟩ | ⟨hf, hm⟩
  · rw [h]
    exact FlightInv.reset _ _
  have hc : (w.stepTask k env).control.claimed = true → w.control.claimed = true := by
    rw [hf.control]
    exact id
  cases hm with
  | stays htasks hactive _ => exact hi.keep htasks hactive hc
  | moves t pc state ht _ htasks hactive _ _ =>
    have hne : w.tasks ≠ [] := by
      rintro h
      rw [h] at ht
      cases ht
    refine ⟨⟨?_, fun _ => hactive ▸ hi.flight.2 hne⟩, fun h => absurd (hi.claimed (hc h)).2 hne⟩
    rw [htasks, List.length_set]
    exact hi.flight.1
  | ends t ht _ htasks hactive _ =>
    obtain ⟨hk, -⟩ := List.getElem?_eq_some_iff.1 ht
    have hlen := hi.flight.1
    have hnil : (w.stepTask k env).tasks = [] := by
      rw [htasks, ← List.length_eq_zero_iff, List.length_eraseIdx_of_lt hk]
      omega
    refine ⟨⟨by simp [hnil], fun h => absurd hnil h⟩, fun h => ?_⟩
    have := (hi.claimed (hc h)).2
    rw [this] at hk
    cases hk

/-- **One step**: under the invariant, the step keeps a single flight exactly when it does not
release a flag that belongs to a task, and then it keeps the invariant. -/
theorem flight_step {w : World} (hi : FlightInv w) (a : Action) :
    (SingleFlight (w.step a) ↔ ReleasesOwn w a) ∧ (ReleasesOwn w a → FlightInv (w.step a)) := by
  have hkeep : FlightInv (w.step a) → ReleasesOwn w a →
      (SingleFlight (w.step a) ↔ ReleasesOwn w a) ∧ (ReleasesOwn w a → FlightInv (w.step a)) :=
    fun hi' hr => ⟨iff_of_true hi'.flight hr, fun _ => hi'⟩
  unfold World.step at hkeep ⊢
  cases ha : a.actor with
  | main =>
    simp only [ha] at hkeep ⊢
    refine hkeep ?_ fun h => by rw [ha] at h; cases h
    rcases w.stepMain_frame a.env with ⟨_, _, h⟩ | hf
    · rw [h]
      exact FlightInv.reset _ _
    · refine hi.keep hf.tasks hf.otaActive fun h => ?_
      rcases hf.control with hc | hc <;> rw [hc] at h
      exacts [h, by cases h]
  | network =>
    simp only [ha] at hkeep ⊢
    refine hkeep ?_ fun h => by rw [ha] at h; cases h
    rcases w.stepNetwork_frame a.env with ⟨_, _, h⟩ | hf
    · rw [h]
      exact FlightInv.reset _ _
    · exact hi.keep hf.tasks hf.otaActive fun h => hf.control ▸ h
  | ota k =>
    simp only [ha] at hkeep ⊢
    exact hkeep (flight_task hi k a.env) fun h => by rw [ha] at h; cases h
  | power =>
    simp only [ha] at hkeep ⊢
    exact hkeep (FlightInv.reset _ _) fun h => by rw [ha] at h; cases h
  | control =>
    simp only [ha] at hkeep ⊢
    by_cases hrel : ∃ i e claimed, w.control = .releasing i e claimed
    · obtain ⟨i, e, claimed, hpc⟩ := hrel
      obtain ⟨hiff, hnil⟩ := flight_release hi i e hpc a.env
      have hown : ReleasesOwn w a ↔ (claimed = false → w.tasks = []) := by
        rw [ReleasesOwn, hpc]
        simp [ha]
      refine ⟨hiff.trans hown.symm, fun h => hnil ?_⟩
      cases claimed with
      | true => exact (hi.claimed (by rw [hpc]; rfl)).2
      | false => exact hown.1 h rfl
    · refine hkeep (flight_control hi a.env fun i e c h => hrel ⟨i, e, c, h⟩) ?_
      exact fun _ i e h => absurd ⟨i, e, _, h⟩ hrel

/-- **OTA single flight**, along a whole run from any flash: there is never a second OTA task and
the flag is set whenever one is alive, if and only if `execute_command` never releases the flag
after a failed claim while an OTA task is alive. -/
theorem single_flight_iff (nvs : Slots Ledger) (flash : OtaFlash) (acts : List Action) :
    Along World.step (fun w a => SingleFlight (w.step a)) (World.start nvs flash) acts ↔
      Along World.step ReleasesOwn (World.start nvs flash) acts :=
  Along.iff_of_invariant (I := FlightInv) (fun _ a hi hr => (flight_step hi a).2 hr)
    (fun _ a hi => (flight_step hi a).1) (FlightInv.start nvs flash) acts

omit [Sha256] [Parser] [Base64]

/-- Three `ota_install` commands arrive in one response. The control task executes the first, which
creates a task; then the second, whose claim fails; then the third. -/
def threeInstalls : List (@Action .standard) :=
  @bootActions .standard ++
    @exchange .standard [.sample .otaInstall (.refl true) 1 one_ne_nul,
      .sample .otaInstall (.refl true) 2 two_ne_nul,
      .sample .otaInstall (.refl true) 3 three_ne_nul] 1 0 ++ @controlActions .standard 22

/-- The release after the failed claim of the second command clears the flag of the first one's
task, and the third command creates a second task. No payload is parsed in this run. -/
theorem three_installs_two_tasks :
    ¬Along (@World.step .standard ⟨fun _ => none⟩ ⟨fun _ => none⟩)
      (fun w a => SingleFlight (@World.step .standard ⟨fun _ => none⟩ ⟨fun _ => none⟩ w a))
      (World.start Slots.empty factoryFlash) threeInstalls ∧
    (run (@World.step .standard ⟨fun _ => none⟩ ⟨fun _ => none⟩)
      (World.start Slots.empty factoryFlash) threeInstalls).tasks.length = 2 := by
  decide +kernel

end PowerMonitor.Runtime
