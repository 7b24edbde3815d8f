import PowerMonitor.Commands.CrashSafety
import PowerMonitor.Runtime.Outcome.Boot
import PowerMonitor.Runtime.Outcome.Image
import PowerMonitor.Runtime.Outcome.Tasks

/-!
# The outcome of an OTA command

`outcome_truthful` proves `TruthfulOutcome` along every run whose steps meet `OutcomeCondition`.
That the image a command selected is the one of its manifest, that the bootloader starts it, and
that it is marked valid before anything is settled, is part of the proof.

`stale_checkpoint_succeeds` is a run without the condition: a command that is interrupted before it
has installed anything is moved to `SUCCEEDED` by the checkpoint of the deployment before it.
-/

namespace PowerMonitor.Runtime

open AbStore CJson Commands Ota Runs

variable [Sha256] [Parser] [Base64]

/-! ## Runs -/

/-- The invariant of a tracked run. -/
structure TrackedInv (t : Tracked) : Prop where
  outcome : OutcomeInv t.world
  owner : ∀ c ∈ t.owner, Names c (t.world.flash.app t.world.flash.running)

/-- **One step** that meets the condition keeps the invariant. -/
theorem tracked_step (t : Tracked) (a : Action) (hi : TrackedInv t) (hc : OutcomeCondition t a) :
    TrackedInv (t.step a) := by
  obtain ⟨hspawn, herase, hown, hread⟩ := hc
  have hw : OutcomeInv (t.world.step a) := by
    obtain ⟨actor, env⟩ := a
    cases actor with
    | main => exact outcome_main hi.outcome hi.owner env hown hread
    | control => exact outcome_control hi.outcome env (hspawn rfl)
    | network => exact outcome_network hi.outcome env
    | ota k => exact outcome_task hi.outcome k env fun u hu => herase k rfl u hu
    | power => exact .reset hi.outcome.dispatch.rebooted hi.outcome.waiting _
  refine ⟨hw, fun c hc => ?_⟩
  unfold Tracked.step at hc ⊢
  dsimp only at hc ⊢
  split at hc
  next hfirst =>
    have hboot := hw.boot
    rw [BootOk, MainPc.eq_booting hfirst.1] at hboot
    exact hboot hfirst.2 c hc
  split at hc
  next hrun =>
    rw [hrun, sameImage_step t.world a]
    exact hi.owner c hc
  · cases hc

omit [Sha256] [Parser] [Base64] in
/-- An OTA command is moved to `SUCCEEDED` only when it is open and the checkpoint is `VALID`. -/
theorem succeeding_spec {w : World} {i : EntryIndex} (h : i ∈ w.succeeding) :
    ∃ c k, w.main = .reconciling c k ∧ c.stage = .valid ∧ openOta (w.ledger.entries i) = true := by
  unfold World.succeeding at h
  split at h
  next c k hpc =>
    split at h
    · dsimp only at h
      split at h
      next hk hcond =>
        obtain rfl := Option.mem_some_iff.1 h
        obtain ⟨hocc, htype, hout⟩ := hcond
        refine ⟨c, k, hpc, ?_⟩
        cases ha : commandBootAction (w.ledger.entries ⟨k, hk⟩) with
        | reconcileOta =>
          refine ⟨?_, by simp [openOta, hocc, ha]⟩
          by_contra hne
          simp only [ha, World.bootOutcome, World.otaOutcome] at hout
          split at hout <;> simp_all
        | completeReboot =>
          -- only a reboot command is completed by a boot
          unfold commandBootAction at ha
          rw [htype] at ha
          cases hs : (w.ledger.entries ⟨k, hk⟩).state <;> simp_all [CommandType.inRange]
        | _ => rw [ha] at hout; cases hout
      · cases h
    · cases h
  · cases h

omit [Base64] in
theorem outcomeInv_truthful {w : World} (hi : OutcomeInv w) (a : Action) : TruthfulOutcome w a := by
  intro _ i hsucc
  obtain ⟨c, k, hpc, hvalid, hopen⟩ := succeeding_spec hsucc
  have hboot := hi.boot
  rw [BootOk, hpc] at hboot
  obtain ⟨himage, hsettled⟩ := hboot.resolve_right (fun h => h hvalid) i hopen
  exact ⟨himage, by simp [OtaFlash.pending, hsettled]⟩

/-- **Truthful OTA outcomes**, along a whole run from any flash: whenever boot reconciliation moves
an `ota_install` command to `SUCCEEDED`, the running image has the digest of its manifest and is
marked valid, in every run whose steps meet the condition. -/
theorem outcome_truthful (nvs : Slots Ledger) (flash : OtaFlash) (acts : List Action) :
    Along Tracked.step OutcomeCondition (Tracked.start nvs flash) acts →
      Along World.step TruthfulOutcome (World.start nvs flash) acts := by
  intro h
  have hstart : TrackedInv (Tracked.start nvs flash) := ⟨.start nvs flash, fun _ hc => by cases hc⟩
  refine (along_proj Tracked.step_world TruthfulOutcome (Tracked.start nvs flash) acts).1 ?_
  exact Along.imp_of_invariant tracked_step (fun t a hi _ => outcomeInv_truthful hi.outcome a)
    hstart h

/-! ## An installation that is interrupted at its start -/

omit [Parser] [Base64] in
/-- A boot loads the ledger that the NVS holds. -/
theorem stepMain_load {nvs : Slots Ledger} {l : Ledger}
    (h : pmCommandsLoad nvs .none = ⟨some .ok, l, nvs, none⟩) (flash : OtaFlash) :
    (World.start nvs flash).stepMain {} =
      { World.start nvs flash with ledger := l, main := .starting } := by
  simp only [World.stepMain, World.start, h, if_true]

/-- The actions of a boot without faults, after the load of the ledger. -/
def bootedActions : List Action := List.replicate 14 { actor := .main }

/-- A condition along a boot whose ledger is known. -/
theorem along_boot (C : World → Action → Prop) {nvs : Slots Ledger} {l : Ledger}
    (h : pmCommandsLoad nvs .none = ⟨some .ok, l, nvs, none⟩) (flash : OtaFlash) :
    Along World.step C (World.start nvs flash) bootActions ↔
      C (World.start nvs flash) { actor := .main } ∧
        Along World.step C { World.start nvs flash with ledger := l, main := .starting }
          bootedActions := by
  rw [← stepMain_load h flash]
  exact Iff.rfl

/-- The load of the ledger tells nobody whose image runs. -/
theorem tracked_load {nvs : Slots Ledger} {l : Ledger}
    (h : pmCommandsLoad nvs .none = ⟨some .ok, l, nvs, none⟩) (flash : OtaFlash) :
    (Tracked.start nvs flash).step { actor := .main } =
      ⟨{ World.start nvs flash with ledger := l, main := .starting }, none⟩ := by
  have hw : (Tracked.start nvs flash).world.step { actor := .main } =
      { World.start nvs flash with ledger := l, main := .starting } := stepMain_load h flash
  simp only [Tracked.step, hw]
  simp [Tracked.start, World.start, MainPc.loads]

/-- Power is lost and comes back. -/
def powerCycle : Action := { actor := .power }

omit [Sha256] [Parser] [Base64]

/-- The SHA-256 of an image of one zero byte, in hexadecimal. -/
def zeroImageDigest : List UInt8 :=
  ascii "6e340b9cffb37a989ca544e6bb780a2c78901d3fb33738768511a30617afa01d"

/-- The members of a manifest that name that image. -/
def zeroImagePayload : List UInt8 :=
  ascii "\x7b\"image_size\":1,\"sha256\":\"" ++ zeroImageDigest ++ ascii "\"\x7d"

/-- `cJSON_ParseWithLength`, on that payload. -/
@[reducible] def zeroImageParser : Parser where
  parse text :=
    if text = zeroImagePayload then
      some (.object [(ascii "image_size", .number 1), (ascii "sha256", .string zeroImageDigest)])
    else none

/-- An `ota_install` command with that payload. -/
def installItem : CommandItem :=
  { CommandItem.sample .otaInstall (.refl true) 1 one_ne_nul with
    payload := zeroImagePayload
    payload_length := by decide +kernel
    payload_text := by decide +kernel }

/-- The command arrives, the control task starts it and creates its OTA task, and power is lost
before that task has moved. -/
def installInterrupted : List (@Action .standard) :=
  @bootActions .standard ++ @exchange .standard [installItem] 1 0 ++ @controlActions .standard 7 ++
    [@powerCycle .standard]

/-- What that run stores: the ledger with the command accepted, and with the command running. -/
def interruptedActs : List (@History.FirmwareAct .standard) :=
  [⟨@Act.call .standard (.accept (parsedCommand installItem 1) 1 true) .none, rfl, rfl⟩,
    ⟨@Act.call .standard (.transition 0 .running 1 EspErr.ok.code true) .none, rfl, rfl⟩]

def interruptedHistory : History :=
  run (@History.step .standard) (@History.start .standard) (interruptedActs.map Subtype.val)

/-- The flash of a device whose last deployment ended in the given stage. -/
def deployedFlash (stage : OtaStage) : OtaFlash :=
  { factoryFlash with
    checkpoints := ⟨some (nextCheckpoint { Checkpoint.zero with stage := stage }), none⟩ }

theorem load_interrupted : @pmCommandsLoad .standard interruptedHistory.nvs .none =
    ⟨some .ok, interruptedHistory.acked, interruptedHistory.nvs, none⟩ := by
  have hi : @History.Inv .standard interruptedHistory :=
    Along.invariant (I := @History.Inv .standard)
      (fun _ _ hi he => @History.step_inv .standard _ hi _ he.1 he.2) (@History.start_inv .standard)
      (@History.careful_of_firmware .standard _ rfl interruptedActs)
  have hpending : interruptedHistory.pending = [] :=
    List.eq_nil_of_length_eq_zero (by decide +kernel)
  obtain ⟨l, hload, hl | ⟨hl, -⟩, -⟩ := @History.Inv.load_eq .standard _ hi .none
  · rw [hload, hl]
  · rw [hpending] at hl
    cases hl

set_option maxRecDepth 100000 in
/-- The device after the power loss, whether the last deployment failed or was validated. -/
theorem run_interrupted {stage : OtaStage} (h : stage = .failed ∨ stage = .valid) :
    run (@World.step .standard zeroImageParser ⟨fun _ => none⟩)
      (World.start Slots.empty (deployedFlash stage)) installInterrupted =
        World.start interruptedHistory.nvs (deployedFlash stage) := by
  rcases h with rfl | rfl <;> with_unfolding_all rfl

/-- After a failed deployment the interrupted command meets the condition, and the boot does not
move it to `SUCCEEDED`. -/
theorem outcome_truthful_interrupted :
    Along (@World.step .standard zeroImageParser ⟨fun _ => none⟩)
      (@TruthfulOutcome .standard zeroImageParser) (World.start Slots.empty (deployedFlash .failed))
      (installInterrupted ++ @bootActions .standard) := by
  refine @outcome_truthful .standard zeroImageParser ⟨fun _ => none⟩ _ _ _ ?_
  have hrun : run (@Tracked.step .standard zeroImageParser ⟨fun _ => none⟩)
      (Tracked.start Slots.empty (deployedFlash .failed)) installInterrupted =
        Tracked.start interruptedHistory.nvs (deployedFlash .failed) := by
    have hworld := run_proj (@Tracked.step_world .standard zeroImageParser ⟨fun _ => none⟩)
      (Tracked.start Slots.empty (deployedFlash .failed)) installInterrupted
    have howner : (run (@Tracked.step .standard zeroImageParser ⟨fun _ => none⟩)
        (Tracked.start Slots.empty (deployedFlash .failed)) installInterrupted).owner = none :=
      Option.isNone_iff_eq_none.1 (by decide +kernel)
    exact Tracked.ext (hworld.trans (run_interrupted (.inl rfl))) howner
  rw [along_append, hrun]
  refine ⟨by decide +kernel, ⟨by decide +kernel, by decide +kernel, ?_, fun _ h => by cases h⟩, ?_⟩
  · exact fun _ _ _ _ _ => .inr (by decide +kernel)
  · have hload := @tracked_load .standard zeroImageParser ⟨fun _ => none⟩ _ _ load_interrupted
      (deployedFlash .failed)
    show Along _ _ (@Tracked.step .standard zeroImageParser ⟨fun _ => none⟩ _ _)
      (@bootedActions .standard)
    rw [hload]
    decide +kernel

/-- The command was interrupted before anything was installed, and the boot moves it to `SUCCEEDED`:
the checkpoint of the last deployment is `VALID`. -/
theorem stale_checkpoint_succeeds :
    ¬Along (@World.step .standard zeroImageParser ⟨fun _ => none⟩)
      (@TruthfulOutcome .standard zeroImageParser) (World.start Slots.empty (deployedFlash .valid))
      (installInterrupted ++ @bootActions .standard) := by
  rw [along_append, run_interrupted (.inr rfl),
    @along_boot .standard zeroImageParser ⟨fun _ => none⟩ _ _ _ load_interrupted]
  rintro ⟨-, -, h⟩
  revert h
  decide +kernel

end PowerMonitor.Runtime
