import PowerMonitor.Ota.Install

/-!
# What a step of an installation can do

`Install.step_move` lists it once: a step goes on without a trace (`Goes`), stores its checkpoint
(`Persists`), writes the target partition or changes the boot selection. What holds of the flash and
of the checkpoint during an installation is proved from this list.
-/

namespace PowerMonitor.Ota

variable [Sha256]

namespace Install

/-- Where an installation goes on to without writing anything. -/
inductive Goes (m : Manifest) (s : Install) : InstallPc → Prop
  | check (h : s.pc = .checking) : Goes m s .firstPersist
  | start (h : s.pc = .reportFirst) : Goes m s .beginning
  | download (h : s.pc = .opening) : Goes m s .persistDownloading
  | finish (h : s.pc = .reading) (hall : m.imageSize ≤ s.checkpoint.bytesWritten) :
    Goes m s .finishing
  | record {n : ℕ} (h : s.pc = .reportProgress n) : Goes m s .persistProgress
  | read {n : ℕ} (h : s.pc = .reportProgress n) : Goes m s .reading
  | verify (h : s.pc = .finishing) (hsha : sha256 s.received = m.imageSha256) :
    Goes m s .persistVerified
  | select (h : s.pc = .reportVerified) : Goes m s .selecting
  | fail (e : EspErr) (h : s.pc = .opening ∨ s.pc = .reading ∨ s.pc = .finishing ∨
    s.pc = .selecting ∨ s.pc = .reselecting e) : Goes m s (.failing e)
  | quit (e : EspErr) (h : s.pc = .checking ∨ s.pc = .beginning ∨ s.pc = .opening ∨
    s.pc = .reportSelected ∨ s.pc = .reportFailed e ∨ s.pc = .returned e) : Goes m s (.returned e)

/-- The checkpoints an installation stores, and where it goes on to. -/
inductive Persists (s : Install) : Checkpoint → InstallPc → (EspErr → InstallPc) → Prop
  | first (h : s.pc = .firstPersist) : Persists s s.checkpoint .reportFirst .returned
  | downloading (h : s.pc = .persistDownloading) :
    Persists s { s.checkpoint with stage := .downloading } .reading .failing
  | progress (h : s.pc = .persistProgress) : Persists s s.checkpoint .reading .failing
  | verified (h : s.pc = .persistVerified) :
    Persists s { s.checkpoint with stage := .imageVerified } .reportVerified .failing
  | selected (h : s.pc = .persistSelected) :
    Persists s { s.checkpoint with stage := .bootSelected } .reportSelected .reselecting
  | failed {e : EspErr} (h : s.pc = .failing e) :
    Persists s { s.checkpoint with stage := .failed, lastError := e.code } (.reportFailed e)
      .reportFailed

/-- **The moves of an installation.** A write that fails may have taken effect all the same. -/
inductive Move (m : Manifest) (s : Install) (fl : OtaFlash) (env : OtaEnv) : StepEnd Install → Prop
  | goes {pc : InstallPc} (h : s.Goes m pc) : Move m s fl env ⟨some (s.goto pc), fl, none⟩
  | persists {c : Checkpoint} {ok : InstallPc} {err : EspErr → InstallPc}
    (h : s.Persists c ok err) : Move m s fl env (s.persist fl c env.persist ok err)
  | erases {pc : InstallPc} (h : s.pc = .beginning) (hpc : pc = .opening ∨ ∃ e, pc = .returned e) :
    Move m s fl env ⟨some (s.goto pc),
      fl.setApp fl.target ((fl.app fl.target).erase m.imageSize), none⟩
  | programs (data : List UInt8) (h : s.pc = .reading)
    (hle : s.checkpoint.bytesWritten + data.length ≤ m.imageSize) :
    Move m s fl env ⟨some
      { pc := .reportProgress data.length
        checkpoint := { s.checkpoint with
          bytesWritten := s.checkpoint.bytesWritten + data.length }
        received := s.received ++ data },
      fl.setApp fl.target ((fl.app fl.target).program s.received.length data), none⟩
  | spoils (data : List UInt8) (h : s.pc = .reading) :
    Move m s fl env ⟨some (s.goto (.failing .fail)),
      fl.setApp fl.target ((fl.app fl.target).program s.received.length data), none⟩
  | selects {pc : InstallPc} (h : s.pc = .selecting)
    (hpc : pc = .persistSelected ∨ ∃ e, pc = .failing e) :
    Move m s fl env ⟨some (s.goto pc), fl.select fl.target, none⟩
  | reselects {e : EspErr} (h : s.pc = .reselecting e) :
    Move m s fl env ⟨some (s.goto (.failing e)), fl.select fl.running, none⟩

theorem step_move (m : Manifest) (s : Install) (fl : OtaFlash) (env : OtaEnv) :
    s.Move m fl env (s.step m fl env) := by
  unfold Install.step
  cases hpc : s.pc <;> dsimp only
  case checking =>
    split
    · exact .goes (.quit _ (by simp [hpc]))
    · exact .goes (.check hpc)
  case firstPersist => exact .persists (.first hpc)
  case reportFirst => exact .goes (.start hpc)
  case beginning =>
    split
    · exact .goes (.quit _ (by simp [hpc]))
    split
    next e _ =>
      split
      · exact .erases hpc (.inr ⟨e.1, rfl⟩)
      · exact .goes (.quit _ (by simp [hpc]))
    · exact .erases hpc (.inl rfl)
  case opening =>
    split
    · exact .goes (.quit _ (by simp [hpc]))
    split
    · exact .goes (.fail _ (by simp [hpc]))
    · exact .goes (.download hpc)
  case persistDownloading => exact .persists (.downloading hpc)
  case reading =>
    split
    next hlt =>
      split
      · exact .goes (.fail _ (by simp [hpc]))
      split
      · exact .goes (.fail _ (by simp [hpc]))
      split
      · exact .goes (.fail _ (by simp [hpc]))
      next hle =>
      split
      · split
        · exact .spoils _ hpc
        · exact .goes (.fail _ (by simp [hpc]))
      · exact .programs _ hpc (not_lt.1 hle)
    next hge => exact .goes (.finish hpc (not_lt.1 hge))
  case reportProgress n =>
    split
    · exact .goes (.record hpc)
    · exact .goes (.read hpc)
  case persistProgress => exact .persists (.progress hpc)
  case finishing =>
    split
    · exact .goes (.fail _ (by simp [hpc]))
    next hsha =>
    split
    · exact .goes (.fail _ (by simp [hpc]))
    · exact .goes (.verify hpc (not_not.1 hsha))
  case persistVerified => exact .persists (.verified hpc)
  case reportVerified => exact .goes (.select hpc)
  case selecting =>
    split
    next e _ =>
      split
      · exact .selects hpc (.inr ⟨e.1, rfl⟩)
      · exact .goes (.fail _ (by simp [hpc]))
    · exact .selects hpc (.inl rfl)
  case persistSelected => exact .persists (.selected hpc)
  case reselecting e =>
    split
    · exact .reselects hpc
    · exact .goes (.fail e (by simp [hpc]))
  case reportSelected => exact .goes (.quit _ (by simp [hpc]))
  case failing e => exact .persists (.failed hpc)
  case reportFailed e => exact .goes (.quit e (by simp [hpc]))
  case returned e =>
    have hmove : s.Move m fl env ⟨some (s.goto (.returned e)), fl, none⟩ :=
      .goes (.quit e (by simp [hpc]))
    rwa [goto, ← hpc] at hmove

end Install

end PowerMonitor.Ota
