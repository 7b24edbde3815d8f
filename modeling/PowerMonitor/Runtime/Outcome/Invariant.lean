import PowerMonitor.Ota.Content
import PowerMonitor.Runtime.Dispatch
import PowerMonitor.Runtime.Outcome.Statement

/-!
# The invariant behind truthful outcomes

`OutcomeInv` says what each part of the device knows: the partition that waits for its first boot
holds the image of the command that selected it (`Waiting`), an OTA task writes the image of its own
command (`InstallOk`), and `app_main` has the open commands agree with the running image on its way
to the reconciliation (`BootOk`).
-/

namespace PowerMonitor.Runtime

open AbStore CJson Commands Ota

variable [Sha256] [Parser]

theorem names_congr {c d : Command} (h : c.payload = d.payload) (image : AppImage) :
    Names c image ↔ Names d image := by
  rw [Names, Names, h]

/-- The partition that waits for its first boot holds the image of the command that selected it. -/
def Waiting (fl : OtaFlash) (selected : Option Command) : Prop :=
  fl.selection = some fl.target → ∀ c ∈ selected, Names c (fl.app fl.target)

/-- The running image is that of the command that selected it. -/
def FirstBoot (fl : OtaFlash) (selected : Option Command) : Prop :=
  fl.verification = .firstBoot → ∀ c ∈ selected, Names c (fl.app fl.running)

/-- Every open OTA command names the running image. -/
def ImageOk (w : World) : Prop :=
  ∀ i, openOta (w.ledger.entries i) = true →
    Names (w.ledger.entries i) (w.flash.app w.flash.running)

/-- An installation works for its command. -/
def InstallOk (w : World) (t : OtaTask) : Prop :=
  match t.pc with
  | .installing m s =>
    payloadImage (w.ledger.entries t.index).payload.str = some (m.imageSize, m.imageSha256) ∧
      Content m s w.flash
  | _ => True

/-- Every open OTA command names the running image, and it is marked valid. -/
def Settles (w : World) : Prop :=
  ∀ i, openOta (w.ledger.entries i) = true →
    Names (w.ledger.entries i) (w.flash.app w.flash.running) ∧ w.flash.verification = .settled

/-- No checkpoint says `VALID`. -/
def Unvalidated (fl : OtaFlash) : Prop :=
  (newest fl.checkpoints).map Checkpoint.stage ≠ some .valid

/-- What `app_main` knows on its way to the reconciliation: the open commands name the running
image, or the checkpoint will not be `VALID`. From the validation on the image is settled as
well. -/
def BootOk (w : World) : Prop :=
  match w.main with
  | .booting => FirstBoot w.flash w.selected
  | .starting => ImageOk w ∨ Quiet w.flash
  | .validating (.returned e) => e = .ok → Settles w ∨ Unvalidated w.flash
  | .validating .checking => ImageOk w ∨ Quiet w.flash
  | .validating _ => ImageOk w
  | .loading => Settles w ∨ Unvalidated w.flash
  | .locking c | .reconciling c _ => Settles w ∨ c.stage ≠ .valid
  | _ => True

/-- No OTA command is under way before `app_main` has started the network task. -/
structure Early (w : World) : Prop where
  tasks : w.tasks = []
  held : ∀ i ∈ w.items.map Queued.index ++ w.control.held,
    (w.ledger.entries i).type ≠ .otaInstall
  idle : w.control.installing = false

structure OutcomeInv (w : World) : Prop where
  dispatch : DispatchInv w
  early : w.main ≠ .started → Early w
  single : w.tasks.length ≤ 1
  install : ∀ t ∈ w.tasks, InstallOk w t
  waiting : Waiting w.flash w.selected
  boot : BootOk w

theorem OutcomeInv.start (nvs : Slots Ledger) (flash : OtaFlash) :
    OutcomeInv (World.start nvs flash) where
  dispatch := .start nvs flash
  early _ := ⟨rfl, fun _ h => (by cases h), rfl⟩
  single := Nat.zero_le 1
  install _ h := by cases h
  waiting _ _ h := by cases h
  boot _ _ h := by cases h

/-- A reset: a newly selected image starts from the partition that waited for it. -/
theorem OutcomeInv.reset {w : World} (hrebooted : w.rebooted.Nodup)
    (hwaiting : Waiting w.flash w.selected) (env : BootEnv) : OutcomeInv (w.reset env) where
  dispatch := .reset w hrebooted env
  early _ := ⟨rfl, fun _ h => (by cases h), rfl⟩
  single := Nat.zero_le 1
  install _ h := by cases h
  waiting hsel := by
    have hnone : (w.flash.boot env).selection = none := by
      unfold OtaFlash.boot
      dsimp only
      split
      · split
        · rfl
        split <;> rfl
      · split <;> rfl
    have hsel : (w.flash.boot env).selection = some (w.flash.boot env).target := hsel
    rw [hnone] at hsel
    cases hsel
  boot := by
    show FirstBoot (w.flash.boot env) w.selected
    unfold FirstBoot OtaFlash.boot
    dsimp only
    have hfree : (if env.verify = true then Verification.again else .settled) ≠ .firstBoot := by
      split <;> decide
    split
    next p hsel =>
      split
      · exact fun h => absurd h hfree
      next hne =>
      split
      · intro _ c hc
        obtain rfl : p = w.flash.running.other := Partition.eq_other_of_ne hne
        exact hwaiting hsel c hc
      · exact fun h => absurd h hfree
    · split
      · exact fun h => by cases h
      · exact fun h => by cases h
      · exact fun h => absurd h hfree

/-! ## Frames -/

section Frames

variable {w w' : World}

/-- No OTA command has become open, and those that are have kept their payloads. -/
def OpensNone (w w' : World) : Prop :=
  ∀ i, openOta (w'.ledger.entries i) = true → openOta (w.ledger.entries i) = true ∧
    (w'.ledger.entries i).payload = (w.ledger.entries i).payload

omit [Sha256] [Parser] in
theorem OpensNone.refl (hl : w'.ledger = w.ledger) : OpensNone w w' := fun i h => by
  rw [hl] at h ⊢
  exact ⟨h, rfl⟩

omit [Sha256] [Parser] in
theorem OpensNone.of_same {p : EntryIndex → Prop} (hl : SameCommands p w.ledger w'.ledger)
    (hp : ∀ i, p i → (w.ledger.entries i).type ≠ .otaInstall ∨
      (w'.ledger.entries i).state.terminal = true) : OpensNone w w' := by
  intro i hopen
  have hstate : (w'.ledger.entries i).state = (w.ledger.entries i).state := by
    by_cases hpi : p i
    · rcases hp i hpi with ht | ht
      · exact absurd ((hl.type i).symm.trans (type_of_openOta hopen)) ht
      · rw [openOta_of_terminal ht] at hopen
        cases hopen
    · exact hl.state i hpi
  rw [openOta_congr (hl.commandId i) (hl.type i) hstate] at hopen
  exact ⟨hopen, hl.payload i⟩

/-- Open commands keep naming the running image when no OTA command becomes open. -/
theorem ImageOk.opens (h : ImageOk w) (ho : OpensNone w w') (happ : w'.flash.app = w.flash.app)
    (hrunning : w'.flash.running = w.flash.running) : ImageOk w' := by
  intro i hopen
  obtain ⟨hbefore, hpayload⟩ := ho i hopen
  rw [names_congr hpayload, happ, hrunning]
  exact h i hbefore

theorem Settles.opens (h : Settles w) (ho : OpensNone w w') (happ : w'.flash.app = w.flash.app)
    (hrunning : w'.flash.running = w.flash.running)
    (hverification : w'.flash.verification = w.flash.verification) : Settles w' := by
  have himage : ImageOk w' :=
    ImageOk.opens (w := w) (fun i hi => (h i hi).1) ho happ hrunning
  exact fun i hopen => ⟨himage i hopen, hverification.trans (h i (ho i hopen).1).2⟩

theorem settles_of_imageOk (h : ImageOk w) (hsettled : w.flash.verification = .settled) :
    Settles w := fun i hopen => ⟨h i hopen, hsettled⟩

theorem BootOk.of_eq (h : BootOk w) (hmain : w'.main = w.main) (hflash : w'.flash = w.flash)
    (hselected : w'.selected = w.selected) (ho : OpensNone w w') : BootOk w' := by
  have himage : ImageOk w → ImageOk w' := fun h => h.opens ho (by rw [hflash]) (by rw [hflash])
  have hsettles : Settles w → Settles w' := fun h =>
    h.opens ho (by rw [hflash]) (by rw [hflash]) (by rw [hflash])
  unfold BootOk at h ⊢
  rw [hmain, hflash, hselected]
  generalize w.main = pc at h ⊢
  cases pc with
  | booting => exact h
  | starting => exact h.imp_left himage
  | validating s =>
    cases s with
    | checking => exact h.imp_left himage
    | returned e => exact fun he => (h he).imp_left hsettles
    | _ => exact himage h
  | loading => exact h.imp_left hsettles
  | locking c => exact h.imp_left hsettles
  | reconciling c k => exact h.imp_left hsettles
  | _ => trivial

theorem BootOk.started (h : w.main = .started) : BootOk w := by
  rw [BootOk, h]
  trivial

theorem InstallOk.of_eq {t : OtaTask} (h : InstallOk w t)
    (hpayload : t.held = [t.index] →
      (w'.ledger.entries t.index).payload = (w.ledger.entries t.index).payload)
    (happ : w'.flash.app = w.flash.app) (hrunning : w'.flash.running = w.flash.running)
    (hselection : w'.flash.selection = w.flash.selection) : InstallOk w' t := by
  unfold InstallOk at h ⊢
  split
  next m s hpc =>
    rw [hpc] at h
    have hheld : t.held = [t.index] := by rw [OtaTask.held, hpc]
    rw [hpayload hheld]
    exact ⟨h.1, h.2.of_eq (.inl rfl) rfl rfl happ hrunning hselection⟩
  · trivial

/-- A partition that waits stays as it is unless it is written or selected. -/
theorem Waiting.of_eq {fl fl' : OtaFlash} {selected : Option Command} (h : Waiting fl selected)
    (hrunning : fl'.running = fl.running) (happ : fl'.app = fl.app)
    (hselection : fl'.selection = fl.selection ∨ fl'.selection = some fl.running) :
    Waiting fl' selected := by
  intro hsel c hc
  have htarget : fl'.target = fl.target := congrArg Partition.other hrunning
  rw [htarget] at hsel ⊢
  rw [happ]
  rcases hselection with hs | hs <;> rw [hs] at hsel
  · exact h hsel c hc
  · exact absurd (Option.some.inj hsel).symm (Partition.other_ne _)

end Frames

end PowerMonitor.Runtime
