import PowerMonitor.Ota.Moves

/-!
# What an installation writes

`pm_ota_install` erases the target partition, programs the chunks it receives one after the other
and compares the digest of what it received. `Content` says what the target partition holds at each
point of the call, `install_content` that every step keeps it, and `Content.image` what follows once
the call selects the partition: its first bytes are an image with the digest of the manifest.
-/

namespace PowerMonitor.Ota

open CMemory AbStore

namespace AppImage

/-- The first `n` bytes are `data` and erased bytes after it. -/
def Holding (image : AppImage) (n : ℕ) (data : List UInt8) : Prop :=
  ∀ k < n, image k = (data[k]?).getD 0xff

variable {image : AppImage} {n : ℕ} {data : List UInt8}

theorem holding_erase (image : AppImage) (n : ℕ) : (image.erase n).Holding n [] := by
  intro k hk
  have : k < (n + 4095) / 4096 * 4096 := by omega
  simp [erase, this]

/-- Programming erased bytes writes them. -/
theorem Holding.program (h : image.Holding n data) (chunk : List UInt8) :
    (image.program data.length chunk).Holding n (data ++ chunk) := by
  intro k hk
  unfold AppImage.program
  split
  next hle =>
    rw [h k hk, List.getElem?_eq_none hle, List.getElem?_append_right hle]
    exact UInt8.neg_one_and
  next hlt => rw [h k hk, List.getElem?_append_left (not_le.1 hlt)]

theorem Holding.read (h : image.Holding n data) (hlen : data.length = n) : image.read n = data := by
  refine List.ext_getElem (by simp [AppImage.read, hlen]) fun k hk hk' => ?_
  simp only [AppImage.read, List.getElem_map, List.getElem_range]
  rw [h k (hlen ▸ hk'), List.getElem?_eq_getElem hk']
  rfl

end AppImage

/-- The installation writes to a partition that is not selected, and has written what it
received. -/
structure Writing (m : Manifest) (s : Install) (fl : OtaFlash) : Prop where
  count : s.checkpoint.bytesWritten = s.received.length
  le : s.received.length ≤ m.imageSize
  holding : (fl.app fl.target).Holding m.imageSize s.received
  unselected : fl.selection ≠ some fl.target

/-- The installation has written the whole image. -/
structure Written (m : Manifest) (s : Install) (fl : OtaFlash) : Prop extends Writing m s fl where
  whole : s.received.length = m.imageSize

/-- What an installation has done to its partition. -/
inductive InstallPhase
  | ahead
  | writing
  | written
  | verified
  | done

def InstallPc.phase : InstallPc → InstallPhase
  | checking | firstPersist | reportFirst | beginning => .ahead
  | opening | persistDownloading | reading | reportProgress _ | persistProgress => .writing
  | finishing => .written
  | persistVerified | reportVerified | selecting => .verified
  | _ => .done

variable [Sha256]

/-- What the target partition holds, by where the installation stands. -/
def Content (m : Manifest) (s : Install) (fl : OtaFlash) : Prop :=
  match s.pc.phase with
  | .ahead => s.received = [] ∧ s.checkpoint.bytesWritten = 0
  | .writing => Writing m s fl
  | .written => Written m s fl
  | .verified => Written m s fl ∧ sha256 s.received = m.imageSha256
  | .done => True

theorem content_start (m : Manifest) (fl : OtaFlash) : Content m (.start m) fl := ⟨rfl, rfl⟩

omit [Sha256] in
theorem Writing.of_eq {m : Manifest} {s s' : Install} {fl fl' : OtaFlash} (h : Writing m s fl)
    (hcount : s'.checkpoint.bytesWritten = s.checkpoint.bytesWritten)
    (hreceived : s'.received = s.received) (happ : fl'.app = fl.app)
    (hrunning : fl'.running = fl.running) (hselection : fl'.selection = fl.selection) :
    Writing m s' fl' := by
  have htarget : fl'.target = fl.target := congrArg Partition.other hrunning
  constructor
  · rw [hcount, hreceived, h.count]
  · exact hreceived ▸ h.le
  · rw [happ, htarget, hreceived]
    exact h.holding
  · rw [hselection, htarget]
    exact h.unselected

/-- The content stays as long as the local state, the partitions and the selection do. -/
theorem Content.of_eq {m : Manifest} {s s' : Install} {fl fl' : OtaFlash} (h : Content m s fl)
    (hphase : s'.pc.phase = s.pc.phase ∨ s'.pc.phase = .done)
    (hcount : s'.checkpoint.bytesWritten = s.checkpoint.bytesWritten)
    (hreceived : s'.received = s.received) (happ : fl'.app = fl.app)
    (hrunning : fl'.running = fl.running) (hselection : fl'.selection = fl.selection) :
    Content m s' fl' := by
  have hwriting : Writing m s fl → Writing m s' fl' := fun hw =>
    hw.of_eq hcount hreceived happ hrunning hselection
  rcases hphase with hphase | hphase
  · unfold Content at h ⊢
    rw [hphase, hcount, hreceived]
    cases hp : s.pc.phase <;> simp only [hp] at h ⊢
    case ahead => exact h
    case writing => exact hwriting h
    case written => exact ⟨hwriting h.toWriting, hreceived ▸ h.whole⟩
    case verified => exact ⟨⟨hwriting h.1.toWriting, hreceived ▸ h.1.whole⟩, h.2⟩
  · rw [Content, hphase]
    trivial

/-- **What is selected is the image of the manifest.** -/
theorem Content.image {m : Manifest} {s : Install} {fl : OtaFlash} (h : Content m s fl)
    (hpc : s.pc = .selecting) : sha256 ((fl.app fl.target).read m.imageSize) = m.imageSha256 := by
  rw [Content, hpc] at h
  rw [h.1.holding.read h.1.whole]
  exact h.2

/-- **What one step does to the flash**: the partition it runs from stays, the boot selection
changes in two places, and the app partitions change in two others; the running image never does. -/
structure InstallFrame (s : Install) (fl fl' : OtaFlash) : Prop where
  running : fl'.running = fl.running
  selection : fl'.selection = fl.selection ∨ s.pc = .selecting ∨ fl'.selection = some fl.running
  app : fl'.app = fl.app ∨ s.pc = .beginning ∨ s.pc = .reading
  image : fl'.app fl.running = fl.app fl.running

omit [Sha256] in
/-- Writing the target partition leaves the running image alone. -/
theorem setApp_target_running (fl : OtaFlash) (image : AppImage) :
    (fl.setApp fl.target image).app fl.running = fl.app fl.running :=
  Function.update_of_ne (Partition.other_ne fl.running).symm _ _

theorem install_frame (m : Manifest) (s : Install) (fl : OtaFlash) (env : OtaEnv) :
    InstallFrame s fl (s.step m fl env).flash := by
  have hmove := s.step_move m fl env
  generalize s.step m fl env = r at hmove ⊢
  cases hmove with
  | goes _ | persists _ => exact ⟨rfl, .inl rfl, .inl rfl, rfl⟩
  | erases h _ => exact ⟨rfl, .inl rfl, .inr (.inl h), setApp_target_running fl _⟩
  | programs data h _ | spoils data h =>
    exact ⟨rfl, .inl rfl, .inr (.inr h), setApp_target_running fl _⟩
  | selects h _ => exact ⟨rfl, .inr (.inl h), .inl rfl, rfl⟩
  | reselects h => exact ⟨rfl, .inr (.inr rfl), .inl rfl, rfl⟩

omit [Sha256] in
theorem persist_bytesWritten (c : Checkpoint) (slots : Slots Checkpoint) (f : PersistFaults) :
    (persistCheckpoint c slots f).checkpoint.bytesWritten = c.bytesWritten := by
  rcases persistCheckpoint_cases c slots f with ⟨-, h⟩ | ⟨e, -, h | h⟩
  · rw [h]
    rfl
  all_goals rw [h]

section Step

variable {m : Manifest} {s : Install} {fl : OtaFlash}

theorem content_of_done {s : Install} (h : s.pc.phase = .done) : Content m s fl := by
  rw [Content, h]
  trivial

/-- Going on without a trace. -/
theorem content_goes (h : Content m s fl) {pc : InstallPc} (hgo : s.Goes m pc) :
    Content m (s.goto pc) fl := by
  have hstay : pc.phase = s.pc.phase → Content m (s.goto pc) fl := fun hp =>
    h.of_eq (.inl hp) rfl rfl rfl rfl rfl
  cases hgo with
  | check hpc | start hpc | download hpc | record hpc | read hpc | select hpc =>
    exact hstay (by rw [hpc]; rfl)
  | finish hpc hall =>
    rw [Content, hpc] at h
    refine ⟨h.of_eq rfl rfl rfl rfl rfl, ?_⟩
    have hcount := h.count
    have hle := h.le
    simp only [Install.goto]
    omega
  | verify hpc hsha =>
    rw [Content, hpc] at h
    exact ⟨⟨h.toWriting.of_eq rfl rfl rfl rfl rfl, h.whole⟩, hsha⟩
  | fail e _ | quit e _ => exact content_of_done rfl

omit [Sha256] in
/-- A checkpoint is stored within a phase. -/
theorem phase_of_persists {c : Checkpoint} {ok : InstallPc} {err : EspErr → InstallPc}
    (h : s.Persists c ok err) :
    c.bytesWritten = s.checkpoint.bytesWritten ∧ ok.phase = s.pc.phase ∧
      ∀ e, (err e).phase = .done := by
  cases h <;> rename_i h <;> exact ⟨rfl, by rw [h]; rfl, fun _ => rfl⟩

theorem content_persists (h : Content m s fl) {c : Checkpoint} {ok : InstallPc}
    {err : EspErr → InstallPc} (hp : s.Persists c ok err) (f : PersistFaults) :
    ∀ s', (s.persist fl c f ok err).next = some s' → Content m s' (s.persist fl c f ok err).flash := by
  intro s' hs'
  obtain ⟨hbytes, hok, herr⟩ := phase_of_persists hp
  obtain ⟨e, -, rfl⟩ := Option.map_eq_some_iff.1 hs'
  refine h.of_eq ?_ ((persist_bytesWritten c _ f).trans hbytes) rfl rfl rfl rfl
  dsimp only
  split
  · exact .inl hok
  · exact .inr (herr e)

/-- The target partition is erased. -/
theorem content_erases (h : Content m s fl) (hpc : s.pc = .beginning)
    (hsel : fl.selection ≠ some fl.target) :
    Content m (s.goto .opening)
      (fl.setApp fl.target ((fl.app fl.target).erase m.imageSize)) := by
  rw [Content, hpc] at h
  have hcount : s.checkpoint.bytesWritten = s.received.length := by rw [h.1, h.2]; rfl
  refine ⟨hcount, by rw [Install.goto, h.1]; exact Nat.zero_le _, ?_, hsel⟩
  rw [Install.goto, h.1]
  simp only [OtaFlash.setApp, OtaFlash.target, Function.update_self]
  exact AppImage.holding_erase _ _

/-- **Every step keeps the content**, provided that a partition that is selected is not erased. -/
theorem install_content (h : Content m s fl) (env : OtaEnv)
    (hbegin : s.pc = .beginning → fl.selection ≠ some fl.target) :
    ∀ s', (s.step m fl env).next = some s' → Content m s' (s.step m fl env).flash := by
  have hmove := s.step_move m fl env
  generalize s.step m fl env = r at hmove ⊢
  cases hmove with
  | goes hgo =>
    rintro s' ⟨⟩
    exact content_goes h hgo
  | persists hp => exact content_persists h hp env.persist
  | erases hpc hnext =>
    rintro s' ⟨⟩
    rcases hnext with rfl | ⟨e, rfl⟩
    · exact content_erases h hpc (hbegin hpc)
    · exact content_of_done rfl
  | programs data hpc hle =>
    rintro s' ⟨⟩
    rw [Content, hpc] at h
    have hcount := h.count
    refine ⟨?_, ?_, ?_, h.unselected⟩
    · simp only [List.length_append]
      omega
    · simp only [List.length_append]
      omega
    · simp only [OtaFlash.setApp, OtaFlash.target, Function.update_self]
      exact h.holding.program _
  | spoils data hpc =>
    rintro s' ⟨⟩
    exact content_of_done rfl
  | selects hpc hnext =>
    rintro s' ⟨⟩
    rcases hnext with rfl | ⟨e, rfl⟩ <;> exact content_of_done rfl
  | reselects hpc =>
    rintro s' ⟨⟩
    exact content_of_done rfl

end Step

omit [Sha256] in
/-- **Cancelling** selects at most the running partition, and writes to no app partition. -/
theorem cancel_frame (reason : EspErr) (s : Cancel) (fl : OtaFlash) (env : OtaEnv) :
    (s.step reason fl env).flash.running = fl.running ∧
      (s.step reason fl env).flash.app = fl.app ∧
      ((s.step reason fl env).flash.selection = fl.selection ∨
        (s.step reason fl env).flash.selection = some fl.running) := by
  unfold Cancel.step
  cases s with
  | selecting =>
    dsimp only
    split
    · dsimp only
      split
      · exact ⟨rfl, rfl, .inr rfl⟩
      · exact ⟨rfl, rfl, .inl rfl⟩
    · exact ⟨rfl, rfl, .inr rfl⟩
  | _ => exact ⟨rfl, rfl, .inl rfl⟩

omit [Sha256] in
/-- **Validating** writes no app partition and selects none, and settles the running image at
most. -/
theorem validate_frame (s : Validate) (fl : OtaFlash) (env : OtaEnv) :
    (s.step fl env).flash.running = fl.running ∧ (s.step fl env).flash.app = fl.app ∧
      (s.step fl env).flash.selection = fl.selection := by
  unfold Validate.step
  cases s with
  | marking healthy =>
    cases healthy with
    | true =>
      dsimp only
      split
      · dsimp only
        split <;> exact ⟨rfl, rfl, rfl⟩
      · exact ⟨rfl, rfl, rfl⟩
    | false =>
      dsimp only
      split <;> exact ⟨rfl, rfl, rfl⟩
  | checking =>
    dsimp only
    split <;> exact ⟨rfl, rfl, rfl⟩
  | _ => exact ⟨rfl, rfl, rfl⟩

omit [Sha256] in
/-- **A validation that returns `ESP_OK`** leaves a settled image, unless the state of the image
could not be read: there was nothing to verify, or the image was marked valid. -/
theorem validate_settles {s : Validate} {fl : OtaFlash} {env : OtaEnv}
    (hs : ∀ e, s ≠ .returned e) (hread : s = .checking → env.answer = none)
    (h : (s.step fl env).next = some (.returned .ok)) :
    (s.step fl env).flash.verification = .settled := by
  unfold Validate.step at h ⊢
  cases s with
  | checking =>
    rw [hread rfl] at h ⊢
    dsimp only at h ⊢
    split at h
    · cases h
    next hp => simpa [OtaFlash.pending] using hp
  | loading healthy =>
    simp only [afterLoad, Option.map_eq_some_iff] at h
    obtain ⟨e, -, h⟩ := h
    split at h
    · cases h
    next he => exact absurd (Validate.returned.inj h) he
  | persisting healthy c =>
    simp only [afterPersist, Option.map_eq_some_iff] at h
    obtain ⟨e, -, h⟩ := h
    split at h
    · cases h
    next he => exact absurd (Validate.returned.inj h) he
  | marking healthy =>
    cases healthy with
    | true =>
      dsimp only at h ⊢
      split at h
      next e he => exact absurd (Validate.returned.inj (Option.some.inj h)) e.2
      next hnone => rfl
    | false =>
      dsimp only at h
      split at h
      next e he => exact absurd (Validate.returned.inj (Option.some.inj h)) e.2
      · cases h
  | returned e => exact absurd rfl (hs e)

end PowerMonitor.Ota
