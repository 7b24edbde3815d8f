import PowerMonitor.Runtime.Steps

/-!
# What an OTA outcome should mean

A boot settles the OTA commands it finds open from the newest checkpoint: a checkpoint `VALID` makes
them `SUCCEEDED`. Neither the checkpoint nor the selected image names the command it belongs to, so
this is right as long as the three agree.

`TruthfulOutcome` is what an outcome should mean: the running image has the digest of the command's
manifest, and it is marked valid. `OutcomeCondition` is the condition on a step under which it does:
the tasks stay off each other's partition, a boot that has a `VALID` checkpoint, or may write one,
finds no OTA command open but the one whose task selected the running image, and it can read whether
that image still has to be verified. Which command that is follows from the run (`Tracked`).
-/

namespace PowerMonitor.Runtime

open AbStore CJson Commands Ota

/-- An OTA command that boot reconciliation settles from the checkpoint. -/
def openOta (c : Command) : Bool := c.occupied && commandBootAction c = .reconcileOta

/-- `app_main` is about to load the ledger. -/
def MainPc.loads : MainPc → Bool
  | booting => true
  | _ => false

theorem MainPc.eq_booting {pc : MainPc} (h : pc.loads = true) : pc = .booting := by
  cases pc <;> first | rfl | cases h

/-- The control task is about to create an OTA task. -/
def ControlPc.spawns : ControlPc → Bool
  | spawning _ => true
  | _ => false

/-- `app_main` is about to read the state of the running image. -/
def MainPc.checks : MainPc → Bool
  | validating .checking => true
  | _ => false

/-- The OTA task is about to erase its partition. -/
def OtaTask.erases (t : OtaTask) : Bool :=
  match t.pc with
  | .installing _ s => s.pc = .beginning
  | _ => false

/-- The OTA task that moves. -/
def Actor.task : Actor → Option ℕ
  | ota k => some k
  | _ => none

/-- The newest checkpoint is not `VALID`, and the running image is not in `PENDING_VERIFY`. -/
def Quiet (fl : OtaFlash) : Prop :=
  fl.verification = .settled ∧ (newest fl.checkpoints).map Checkpoint.stage ≠ some .valid

instance (fl : OtaFlash) : Decidable (Quiet fl) :=
  inferInstanceAs (Decidable (fl.verification = .settled ∧
    (newest fl.checkpoints).map Checkpoint.stage ≠ some .valid))

namespace World

/-- The OTA command `app_main` is about to move to `SUCCEEDED`. -/
def succeeding (w : World) : Option EntryIndex :=
  match w.main with
  | .reconciling c k =>
    if h : k < ledgerSize then
      let command := w.ledger.entries ⟨k, h⟩
      if command.occupied ∧ command.type = .otaInstall ∧
          (bootOutcome c (commandBootAction command)).map Prod.fst = some .succeeded then
        some ⟨k, h⟩
      else none
    else none
  | _ => none

end World

/-- The command is the owner of the image that runs. -/
def Owns (owner : Option Command) (c : Command) : Prop :=
  ∃ d ∈ owner, c.commandId = d.commandId ∧ c.payload = d.payload

instance (owner : Option Command) (c : Command) : Decidable (Owns owner c) :=
  inferInstanceAs (Decidable (∃ d ∈ owner, _))

section Statement

/-- The firmware, and the owner of the image that runs: the command whose OTA task selected it. -/
@[ext] structure Tracked where
  world : World
  owner : Option Command

variable [Sha256] [Parser]

namespace Tracked

/-- A device that starts on the given flash; nobody knows whose image it runs. -/
def start (nvs : Slots Ledger) (flash : OtaFlash) : Tracked := ⟨World.start nvs flash, none⟩

/-- One step. A newly selected image starts with the command that selected it as its owner, and has
the same owner as long as its partition runs. -/
def step [Base64] (t : Tracked) (a : Action) : Tracked :=
  let w := t.world.step a
  { world := w
    owner :=
      if w.main.loads = true ∧ w.flash.verification = .firstBoot then w.selected
      else if w.flash.running = t.world.flash.running then t.owner
      else none }

theorem step_world [Base64] (t : Tracked) (a : Action) : (t.step a).world = t.world.step a := rfl

end Tracked

/-- The image has the size and the digest of the command's manifest. -/
def Names (c : Command) (image : AppImage) : Prop :=
  ∃ p ∈ payloadImage c.payload.str, sha256 (image.read p.1) = p.2

instance (c : Command) (image : AppImage) : Decidable (Names c image) :=
  inferInstanceAs (Decidable (∃ p ∈ payloadImage c.payload.str, _))

/-- **A truthful outcome**: the command that is moved to `SUCCEEDED` names the running image, which
is marked valid. -/
def TruthfulOutcome (w : World) (a : Action) : Prop :=
  a.actor = .main → ∀ i ∈ w.succeeding,
    Names (w.ledger.entries i) (w.flash.app w.flash.running) ∧ w.flash.pending = false

instance (w : World) (a : Action) : Decidable (TruthfulOutcome w a) :=
  inferInstanceAs (Decidable (_ → ∀ i ∈ w.succeeding, _))

/-! ## The condition -/

/-- No OTA task is created while another is alive. -/
def SpawnsAlone (w : World) (a : Action) : Prop :=
  a.actor = .control → w.control.spawns = true → a.env.answer = none → w.tasks = []

/-- No OTA task erases a partition that is selected for the next boot. -/
def ErasesUnselected (w : World) (a : Action) : Prop :=
  ∀ k ∈ a.actor.task, ∀ t ∈ w.tasks[k]?, t.erases = true →
    w.flash.selection ≠ some w.flash.target

/-- **What a boot finds**: an OTA command that is open in the ledger it loads is the owner of the
running image, or no checkpoint says `VALID` and none will. -/
def BootsOwn (t : Tracked) (a : Action) : Prop :=
  a.actor = .main → t.world.main.loads = true →
    (pmCommandsLoad t.world.nvs a.env.fault).result = some .ok →
    ∀ i, openOta ((pmCommandsLoad t.world.nvs a.env.fault).ledger.entries i) = true →
      Owns t.owner ((pmCommandsLoad t.world.nvs a.env.fault).ledger.entries i) ∨
        Quiet t.world.flash

/-- **A state that is read**: `pm_ota_post_boot_validate` passes over an image in `PENDING_VERIFY`
whose state cannot be read only where no checkpoint says `VALID` or no OTA command is open. -/
def ReadsState (w : World) (a : Action) : Prop :=
  a.actor = .main → w.main.checks = true → a.env.ota.answer ≠ none → w.flash.pending = true →
    (newest w.flash.checkpoints).map Checkpoint.stage ≠ some .valid ∨
      ∀ i, openOta (w.ledger.entries i) = false

/-- The condition on a step under which outcomes are truthful. -/
def OutcomeCondition (t : Tracked) (a : Action) : Prop :=
  SpawnsAlone t.world a ∧ ErasesUnselected t.world a ∧ BootsOwn t a ∧ ReadsState t.world a

instance (w : World) (a : Action) : Decidable (SpawnsAlone w a) :=
  inferInstanceAs (Decidable (_ → _ → _ → _))

instance (w : World) (a : Action) : Decidable (ErasesUnselected w a) :=
  inferInstanceAs (Decidable (∀ k ∈ a.actor.task, ∀ t ∈ w.tasks[k]?, _))

instance (t : Tracked) (a : Action) : Decidable (BootsOwn t a) :=
  inferInstanceAs (Decidable (_ → _ → _ → ∀ _, _))

instance (w : World) (a : Action) : Decidable (ReadsState w a) :=
  inferInstanceAs (Decidable (_ → _ → _ ≠ none → _ → _))

instance (t : Tracked) (a : Action) : Decidable (OutcomeCondition t a) :=
  inferInstanceAs (Decidable (_ ∧ _))

end Statement

/-! ## Open commands -/

theorem type_of_openOta {c : Command} (h : openOta c = true) : c.type = .otaInstall := by
  simp only [openOta, Bool.and_eq_true, decide_eq_true_eq] at h
  have h := h.2
  unfold commandBootAction at h
  cases hs : c.state <;> cases ht : c.type <;> simp_all [CommandType.inRange]

theorem openOta_congr {c d : Command} (hid : c.commandId = d.commandId) (htype : c.type = d.type)
    (hstate : c.state = d.state) : openOta c = openOta d := by
  have : commandBootAction c = commandBootAction d := by
    unfold commandBootAction
    rw [htype, hstate]
  rw [openOta, openOta, Command.occupied, Command.occupied, hid, this]

/-- What is settled is not open. -/
theorem openOta_of_terminal {c : Command} (h : c.state.terminal = true) : openOta c = false := by
  have : commandBootAction c = .ignore := by
    unfold commandBootAction
    cases hs : c.state <;> simp_all [CommandState.terminal]
  simp [openOta, this]

end PowerMonitor.Runtime
