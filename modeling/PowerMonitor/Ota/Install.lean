import PowerMonitor.Ota.Checkpoint
import PowerMonitor.Ota.Manifest

/-!
# Installing, validating and cancelling an image

The flash an OTA works on, with the bootloader's view of it (`OtaFlash`), and the three calls of
`pm_ota.c` that change it as machines whose steps are the source's own: every NVS write, every
erase, every programmed chunk and every boot selection is a step of its own, so that another task
may run or power may be lost between any two of them.

* `Install.step` is `pm_ota_install`, `Cancel.step` is `pm_ota_cancel_pending_boot` and
  `Validate.step` is `pm_ota_post_boot_validate`.
* `OtaEnv` is what the calls into ESP-IDF answer in one step.
* `OtaFlash.boot` is the bootloader: a newly selected image boots once in `PENDING_VERIFY`, and the
  previous image comes back when the device resets before it was marked valid.
-/

namespace PowerMonitor.Ota

open CMemory AbStore

/-- The two app partitions of `partitions.csv`. -/
inductive Partition
  | ota0
  | ota1
  deriving DecidableEq, Repr

/-- `esp_ota_get_next_update_partition`, from the running partition. -/
def Partition.other : Partition → Partition
  | ota0 => ota1
  | ota1 => ota0

@[simp] theorem Partition.other_ne (p : Partition) : p.other ≠ p := by
  cases p <;> simp [Partition.other]

@[simp] theorem Partition.other_other (p : Partition) : p.other.other = p := by cases p <;> rfl

theorem Partition.eq_other_of_ne {p q : Partition} (h : p ≠ q) : p = q.other := by
  cases p <;> cases q <;> simp_all [Partition.other]

/-- The bytes of an app partition. -/
abbrev AppImage := ℕ → UInt8

namespace AppImage

/-- The sectors of the first `size` bytes erased. -/
def erase (image : AppImage) (size : ℕ) : AppImage := fun k =>
  if k < (size + 4095) / 4096 * 4096 then 0xff else image k

/-- `data` programmed at `offset`; programming a flash only clears bits. -/
def program (image : AppImage) (offset : ℕ) (data : List UInt8) : AppImage := fun k =>
  if offset ≤ k then image k &&& (data[k - offset]?).getD 0xff else image k

/-- The first `n` bytes. -/
def read (image : AppImage) (n : ℕ) : List UInt8 := (List.range n).map image

end AppImage

/-- Whether the running image still has to be verified: it is settled, in its first boot after it
was selected, or in a boot after the running partition was selected again. -/
inductive Verification
  | settled
  | firstBoot
  | again
  deriving DecidableEq, Repr

/-- The flash the OTA works on. -/
structure OtaFlash where
  /-- The slots of the NVS namespace `pm_ota`. -/
  checkpoints : Slots Checkpoint
  app : Partition → AppImage
  running : Partition
  verification : Verification
  /-- The partition of the last `esp_ota_set_boot_partition` since the last boot. -/
  selection : Option Partition

/-- The size of each app partition. -/
def partitionSize : ℕ := 0x780000

namespace OtaFlash

/-- The running image is in `PENDING_VERIFY`. -/
def pending (fl : OtaFlash) : Bool := fl.verification ≠ .settled

/-- `esp_ota_set_boot_partition`. -/
def select (fl : OtaFlash) (p : Partition) : OtaFlash := { fl with selection := some p }

/-- The partition an update goes to. -/
def target (fl : OtaFlash) : Partition := fl.running.other

def setApp (fl : OtaFlash) (p : Partition) (image : AppImage) : OtaFlash :=
  { fl with app := Function.update fl.app p image }

/-- `esp_ota_mark_app_valid_cancel_rollback`. -/
def markValid (fl : OtaFlash) : OtaFlash := { fl with verification := .settled }

end OtaFlash

/-- A device as it leaves the factory: the image in `ota_0` runs, and nothing was selected. -/
def factoryFlash : OtaFlash := ⟨Slots.empty, fun _ _ => 0xff, .ota0, .settled, none⟩

/-- What the bootloader decides at a reset where its contract leaves it open: whether a newly
selected image passes its check, and which image starts, and whether in `PENDING_VERIFY`, once the
running partition was selected again. -/
structure BootEnv where
  imageOk : Bool := true
  image : Partition := .ota0
  verify : Bool := false

/-- The bootloader. -/
def OtaFlash.boot (fl : OtaFlash) (env : BootEnv) : OtaFlash :=
  let start (p : Partition) (v : Verification) : OtaFlash :=
    { fl with running := p, verification := v, selection := none }
  let free := start env.image (if env.verify then .again else .settled)
  match fl.selection with
  | some p => if p = fl.running then free else if env.imageOk then start p .firstBoot else free
  | none =>
    match fl.verification with
    | .settled => start fl.running .settled
    | .firstBoot => start fl.running.other .settled
    | .again => free

/-- What the calls into ESP-IDF answer in one step. -/
structure OtaEnv where
  persist : PersistFaults := {}
  load : LoadFaults := {}
  /-- The first call of the step that fails. -/
  answer : Option Failure := none
  /-- Whether a failed erase, program or selection took effect all the same. -/
  landed : Bool := false
  /-- `esp_http_client_init` returns `NULL`. -/
  noClient : Bool := false
  /-- What `esp_http_client_read` returns; `none` is a negative count. -/
  chunk : Option (List UInt8) := none
  /-- The five conditions of `pm_ota_post_boot_validate`. -/
  healthy : Bool := true
  boot : BootEnv := {}

/-- One step of a call: where the call stands, `none` when the device resets under it, the flash,
and the checkpoint of a persist that returned `ESP_OK`. -/
structure StepEnd (σ : Type) where
  next : Option σ
  flash : OtaFlash
  wrote : Option Checkpoint := none

/-! ## `pm_ota_install` -/

/-- Where `pm_ota_install` stands. -/
inductive InstallPc
  | checking
  | firstPersist
  | reportFirst
  | beginning
  | opening
  | persistDownloading
  | reading
  | reportProgress (received : ℕ)
  | persistProgress
  | finishing
  | persistVerified
  | reportVerified
  | selecting
  | persistSelected
  | reselecting (e : EspErr)
  | reportSelected
  | failing (e : EspErr)
  | reportFailed (e : EspErr)
  | returned (e : EspErr)
  deriving DecidableEq

/-- The local state of `pm_ota_install`: its checkpoint and the bytes hashed so far. -/
structure Install where
  pc : InstallPc
  checkpoint : Checkpoint
  received : List UInt8

namespace Install

/-- The checkpoint `pm_ota_install` starts from: a fresh one, of generation zero. -/
def firstCheckpoint (m : Manifest) : Checkpoint :=
  { Checkpoint.zero with
    stage := .manifestVerified, imageSize := m.imageSize, imageSha256 := m.imageSha256 }

def start (m : Manifest) : Install := ⟨.checking, firstCheckpoint m, []⟩

/-- Go on to `pc`. -/
def goto (s : Install) (pc : InstallPc) : Install := { s with pc := pc }

/-- `persist_checkpoint (&checkpoint)`, going on to `ok` or `err`. -/
def persist (s : Install) (fl : OtaFlash) (c : Checkpoint) (f : PersistFaults) (ok : InstallPc)
    (err : EspErr → InstallPc) : StepEnd Install :=
  let p := persistCheckpoint c fl.checkpoints f
  { next := p.result.map fun e =>
      { s with checkpoint := p.checkpoint, pc := if e = .ok then ok else err e }
    flash := { fl with checkpoints := p.slots }
    wrote := p.wrote }

/-- The progress callback of a step that reports: percentage and stage. -/
def report? (m : Manifest) (s : Install) : Option (ℕ × OtaStage) :=
  match s.pc with
  | .reportFirst => some (0, s.checkpoint.stage)
  | .reportProgress _ => some (s.checkpoint.bytesWritten * 90 / m.imageSize, .downloading)
  | .reportVerified => some (95, s.checkpoint.stage)
  | .reportSelected => some (100, s.checkpoint.stage)
  | .reportFailed _ => some (0, s.checkpoint.stage)
  | _ => none

variable [Sha256]

/-- One step of `pm_ota_install`. The steps that report only go on: the callback is the caller's. -/
def step (m : Manifest) (s : Install) (fl : OtaFlash) (env : OtaEnv) : StepEnd Install :=
  let stay (pc : InstallPc) : StepEnd Install := ⟨some (s.goto pc), fl, none⟩
  match s.pc with
  | .checking =>
    -- `pm_ota_verify_manifest`, the arguments and `pm_sign_request`
    match env.answer with
    | some e => stay (.returned e.1)
    | none => stay .firstPersist
  | .firstPersist => s.persist fl s.checkpoint env.persist .reportFirst .returned
  | .reportFirst => stay .beginning
  | .beginning =>
    if partitionSize < m.imageSize then stay (.returned .invalidSize)
    else
      let erased := fl.setApp fl.target ((fl.app fl.target).erase m.imageSize)
      match env.answer with
      | some e => ⟨some (s.goto (.returned e.1)), if env.landed then erased else fl, none⟩
      | none => ⟨some (s.goto .opening), erased, none⟩
  | .opening =>
    -- the HTTP request up to its validated headers, the buffer and `psa_hash_setup`
    if env.noClient then stay (.returned .noMem)
    else
      match env.answer with
      | some e => stay (.failing e.1)
      | none => stay .persistDownloading
  | .persistDownloading =>
    s.persist fl { s.checkpoint with stage := .downloading } env.persist .reading .failing
  | .reading =>
    if s.checkpoint.bytesWritten < m.imageSize then
      match env.chunk with
      | none => stay (.failing .httpIncompleteData)
      | some chunk =>
        let data := chunk.take 4096
        if data = [] then stay (.failing .invalidSize)
        else if m.imageSize < s.checkpoint.bytesWritten + data.length then
          stay (.failing .httpIncompleteData)
        else
          let programmed :=
            fl.setApp fl.target ((fl.app fl.target).program s.received.length data)
          match env.answer with
          | some _ =>
            ⟨some (s.goto (.failing .fail)), if env.landed then programmed else fl, none⟩
          | none =>
            ⟨some
              { pc := .reportProgress data.length
                checkpoint := { s.checkpoint with
                  bytesWritten := s.checkpoint.bytesWritten + data.length }
                received := s.received ++ data }, programmed, none⟩
    else stay .finishing
  | .reportProgress received =>
    stay (if s.checkpoint.bytesWritten % 65536 < received then .persistProgress else .reading)
  | .persistProgress => s.persist fl s.checkpoint env.persist .reading .failing
  | .finishing =>
    if sha256 s.received ≠ m.imageSha256 then stay (.failing .invalidCrc)
    else
      -- the response signature, `esp_ota_end` and the description of the new image
      match env.answer with
      | some e => stay (.failing e.1)
      | none => stay .persistVerified
  | .persistVerified =>
    s.persist fl { s.checkpoint with stage := .imageVerified } env.persist .reportVerified .failing
  | .reportVerified => stay .selecting
  | .selecting =>
    match env.answer with
    | some e =>
      ⟨some (s.goto (.failing e.1)), if env.landed then fl.select fl.target else fl, none⟩
    | none => ⟨some (s.goto .persistSelected), fl.select fl.target, none⟩
  | .persistSelected =>
    s.persist fl { s.checkpoint with stage := .bootSelected } env.persist .reportSelected
      .reselecting
  | .reselecting e =>
    ⟨some (s.goto (.failing e)),
      if env.answer = none ∨ env.landed then fl.select fl.running else fl, none⟩
  | .reportSelected => stay (.returned .ok)
  | .failing e =>
    let failed := { s.checkpoint with stage := .failed, lastError := e.code }
    -- an error of the last persist takes the place of the one that led here
    s.persist fl failed env.persist (.reportFailed e) .reportFailed
  | .reportFailed e => stay (.returned e)
  | .returned _ => ⟨some s, fl, none⟩

end Install

/-! ## `pm_ota_cancel_pending_boot` -/

/-- Where `pm_ota_cancel_pending_boot` stands. -/
inductive Cancel
  | selecting
  | loading
  | persisting (c : Checkpoint)
  | returned (e : EspErr)
  deriving DecidableEq

/-- The step after a load: an error is returned, and `next` goes on with the checkpoint. -/
def afterLoad {σ : Type} (fl : OtaFlash) (f : LoadFaults) (returned : EspErr → σ)
    (next : Checkpoint → σ) : StepEnd σ :=
  let l := pmOtaLoadCheckpoint fl.checkpoints f
  { next := l.result.map fun e => if e = .ok then next l.checkpoint else returned e
    flash := { fl with checkpoints := l.slots }
    wrote := l.wrote }

/-- The step of a persist whose result decides where the call goes on. -/
def afterPersist {σ : Type} (fl : OtaFlash) (c : Checkpoint) (f : PersistFaults)
    (next : EspErr → σ) : StepEnd σ :=
  let p := persistCheckpoint c fl.checkpoints f
  { next := p.result.map next, flash := { fl with checkpoints := p.slots }, wrote := p.wrote }

/-- One step of `pm_ota_cancel_pending_boot (reason)`. -/
def Cancel.step (reason : EspErr) (s : Cancel) (fl : OtaFlash) (env : OtaEnv) : StepEnd Cancel :=
  match s with
  | .selecting =>
    match env.answer with
    | some e => ⟨some (.returned e.1), if env.landed then fl.select fl.running else fl, none⟩
    | none => ⟨some .loading, fl.select fl.running, none⟩
  | .loading => afterLoad fl env.load .returned .persisting
  | .persisting c =>
    afterPersist fl { c with
      stage := .failed
      lastError := (if reason = .ok then EspErr.invalidState else reason).code } env.persist
      .returned
  | .returned e => ⟨some (.returned e), fl, none⟩

/-! ## `pm_ota_post_boot_validate` -/

/-- Where `pm_ota_post_boot_validate` stands; the flag is whether its conditions hold. -/
inductive Validate
  | checking
  | loading (healthy : Bool)
  | persisting (healthy : Bool) (c : Checkpoint)
  | marking (healthy : Bool)
  | returned (e : EspErr)
  deriving DecidableEq

/-- One step of `pm_ota_post_boot_validate`. -/
def Validate.step (s : Validate) (fl : OtaFlash) (env : OtaEnv) : StepEnd Validate :=
  match s with
  | .checking =>
    -- an image whose state cannot be read is taken for one that is not in `PENDING_VERIFY`
    match env.answer with
    | some _ => ⟨some (.returned .ok), fl, none⟩
    | none => ⟨some (if fl.pending then .loading env.healthy else .returned .ok), fl, none⟩
  | .loading healthy => afterLoad fl env.load .returned (.persisting healthy)
  | .persisting healthy c =>
    afterPersist fl { c with
      stage := if healthy then .valid else .rolledBack
      lastError := (if healthy then EspErr.ok else .invalidState).code } env.persist fun e =>
        if e = .ok then .marking healthy else .returned e
  | .marking true =>
    match env.answer with
    | some e => ⟨some (.returned e.1), if env.landed then fl.markValid else fl, none⟩
    | none => ⟨some (.returned .ok), fl.markValid, none⟩
  | .marking false =>
    -- `esp_ota_mark_app_invalid_rollback_and_reboot` does not return when it succeeds
    match env.answer with
    | some e => ⟨some (.returned e.1), fl, none⟩
    | none => ⟨none, fl, none⟩
  | .returned e => ⟨some (.returned e), fl, none⟩

end PowerMonitor.Ota
