import PowerMonitor.Ota.Earned

/-!
# The calls refine the steps of an installation

`Install.step` takes several calls of `pm_ota_install` as one step with one answer: the checks
before the first checkpoint, the request up to its headers, and what is verified of a whole image.
`InstallCall.install` says where the call stands in these terms. Each call then is one step of
`Install.step`, with answers of the ESP-IDF that it allows, or leaves everything where it was
(`call_refines_install`), so that what holds of every installation holds of the function.
-/

namespace PowerMonitor.Ota

open CMemory AbStore Protocol Runs

/-- The step of the installation that a call belongs to; `none` once power is lost. -/
def CallPc.place : CallPc → Option InstallPc
  | verifying | signing => some .checking
  | persistFirst => some .firstPersist
  | reportFirst => some .reportFirst
  | sizing | beginning => some .beginning
  | client | requesting | opening | validating | allocating | hashing => some .opening
  | persistDownloading => some .persistDownloading
  | reading => some .reading
  | reportProgress received => some (.reportProgress received)
  | persistProgress => some .persistProgress
  | finishing | completing | verifyingResponse | ending | describing => some .finishing
  | persistVerified => some .persistVerified
  | reportVerified => some .reportVerified
  | selecting => some .selecting
  | persistSelected => some .persistSelected
  | reselecting e => some (.reselecting e)
  | reportSelected => some .reportSelected
  | cleanup e => some (.failing e)
  | reportFailed e => some (.reportFailed e)
  | returned e => some (.returned e)
  | lost => none

/-- The installation a call is part of. -/
def InstallCall.install (s : InstallCall) : Option Install :=
  s.pc.place.map fun pc => ⟨pc, s.checkpoint, s.hashed⟩

variable [Sha256]

/-- The installation goes from the one of `s` to the one of `s'`, with some answers. -/
def Follows (m : Manifest) (fl : OtaFlash) (s s' : InstallCall) : Prop :=
  ∃ pc env, s.pc.place = some pc ∧
    (Install.step m ⟨pc, s.checkpoint, s.hashed⟩ fl env).next = s'.install ∧
    (Install.step m ⟨pc, s.checkpoint, s.hashed⟩ fl env).flash.checkpoints = s'.slots

/-- The installation stays where it is. -/
def Stays (s s' : InstallCall) : Prop := s'.install = s.install ∧ s'.slots = s.slots

section Refinement

variable [Base64] {args : InstallArgs} {s : InstallCall} {fl : OtaFlash}

omit [Sha256] [Base64] in
theorem stays_goto {calls : List EspCall} {pc : CallPc} (h : pc.place = s.pc.place) :
    Stays s (s.goto calls pc) := by
  refine ⟨?_, rfl⟩
  rw [InstallCall.install, InstallCall.install]
  simp [InstallCall.goto, h]

omit [Base64] in
/-- A step that leaves the checkpoint and its slots alone. -/
theorem follows_goto {m : Manifest} {pc : CallPc} {ipc ipc' : InstallPc} {calls : List EspCall}
    (env : OtaEnv) (hfl : fl.checkpoints = s.slots) (hpc : s.pc.place = some ipc)
    (hpc' : pc.place = some ipc')
    (hnext : (Install.step m ⟨ipc, s.checkpoint, s.hashed⟩ fl env).next =
      some ⟨ipc', s.checkpoint, s.hashed⟩)
    (hflash : (Install.step m ⟨ipc, s.checkpoint, s.hashed⟩ fl env).flash.checkpoints =
      fl.checkpoints) : Follows m fl s (s.goto calls pc) := by
  refine ⟨ipc, env, hpc, ?_, hflash.trans hfl⟩
  rw [hnext, InstallCall.install]
  simp [InstallCall.goto, hpc']

omit [Sha256] [Base64] in
theorem install_persist {c : Checkpoint} {f : PersistFaults} {ok : CallPc} {err : EspErr → CallPc}
    {iok : InstallPc} {ierr : EspErr → InstallPc} {pc : InstallPc} (hfl : fl.checkpoints = s.slots)
    (hok : ok.place = some iok) (herr : ∀ e, (err e).place = some (ierr e)) :
    (Install.persist ⟨pc, s.checkpoint, s.hashed⟩ fl c f iok ierr).next =
        (s.persist c f ok err).install ∧
      (Install.persist ⟨pc, s.checkpoint, s.hashed⟩ fl c f iok ierr).flash.checkpoints =
        (s.persist c f ok err).slots := by
  simp only [Install.persist, InstallCall.persist, InstallCall.install, hfl]
  refine ⟨?_, trivial⟩
  cases (persistCheckpoint c s.slots f).result with
  | none => rfl
  | some e =>
    by_cases he : e = .ok
    · simp [he, hok]
    · simp [he, herr]

omit [Base64] in
/-- The function gives up before the request. -/
theorem follows_checking {m : Manifest} (hfl : fl.checkpoints = s.slots)
    (hpc : s.pc.place = some .checking) {e : EspErr} (he : e ≠ .ok) (calls : List EspCall) :
    Follows m fl s (s.goto calls (.returned e)) :=
  follows_goto { answer := some ⟨e, he⟩ } hfl hpc rfl rfl rfl

omit [Base64] in
/-- The request fails. -/
theorem follows_opening {m : Manifest} (hfl : fl.checkpoints = s.slots)
    (hpc : s.pc.place = some .opening) {e : EspErr} (he : e ≠ .ok) (calls : List EspCall) :
    Follows m fl s (s.goto calls (.cleanup e)) :=
  follows_goto { answer := some ⟨e, he⟩ } hfl hpc rfl rfl rfl

omit [Base64] in
/-- The image, its response or its description are not what they should be. -/
theorem follows_finishing {m : Manifest} (hfl : fl.checkpoints = s.slots)
    (hpc : s.pc.place = some .finishing) (hdigest : sha256 s.hashed = m.imageSha256) {e : EspErr}
    (he : e ≠ .ok) (calls : List EspCall) : Follows m fl s (s.goto calls (.cleanup e)) := by
  refine follows_goto { answer := some ⟨e, he⟩ } hfl hpc rfl ?_ ?_
  all_goals simp [Install.step, hdigest, Install.goto]

/-- A step only adds to the log. -/
theorem step_log (args : InstallArgs) (s : InstallCall) (env : CallEnv) :
    ∃ calls, (s.step args env).log = s.log ++ calls := by
  cases hpc : s.pc <;> simp only [InstallCall.step, hpc]
  case reading =>
    split
    · unfold InstallCall.read
      repeat' split
      all_goals exact ⟨_, rfl⟩
    · exact ⟨_, rfl⟩
  case cleanup => exact ⟨_, List.append_assoc ..⟩
  case returned | lost => exact ⟨[], (List.append_nil _).symm⟩
  all_goals
    repeat' split
    all_goals exact ⟨_, rfl⟩

/-- One turn of the download. -/
theorem follows_read (env : CallEnv) (h : Inv args s) (hfl : fl.checkpoints = s.slots)
    (hpc : s.pc = .reading) (hmore : s.checkpoint.bytesWritten < args.manifest.imageSize) :
    Follows args.manifest fl s (s.read args.manifest env) := by
  obtain ⟨size, hsize, -, hfits⟩ := h.known .fits (by rw [hpc]; decide)
  have hplace : s.pc.place = some .reading := by rw [hpc]; rfl
  unfold InstallCall.read
  split
  · refine follows_goto {} hfl hplace rfl ?_ ?_
    all_goals simp [Install.step, hmore, Install.goto]
  next data hdata _ =>
    have hsum : (s.checkpoint.bytesWritten + data.length) % 2 ^ 32 =
        s.checkpoint.bytesWritten + data.length := Nat.mod_eq_of_lt (by omega)
    have htake : data.take 4096 = data := List.take_of_length_le hdata
    rw [hsum]
    split
    next hnil =>
      have hnil := List.length_eq_zero_iff.1 hnil
      refine follows_goto { chunk := some data } hfl hplace rfl ?_ ?_
      all_goals simp [Install.step, hmore, Install.goto, hnil]
    next hne =>
      have hne : data ≠ [] := fun hnil => hne (by rw [hnil]; rfl)
      split
      next hover =>
        refine follows_goto { chunk := some data } hfl hplace rfl ?_ ?_
        all_goals simp [Install.step, hmore, Install.goto, htake, hne, hover]
      next hroom =>
        split
        · refine follows_goto { chunk := some data, answer := some .generic } hfl hplace
            rfl ?_ ?_
          all_goals simp [Install.step, hmore, Install.goto, htake, hne, hroom]
        split
        · refine follows_goto { chunk := some data, answer := some .generic } hfl hplace
            rfl ?_ ?_
          all_goals simp [Install.step, hmore, Install.goto, htake, hne, hroom]
        · refine ⟨.reading, { chunk := some data }, hplace, ?_, ?_⟩
          · simp [Install.step, hmore, htake, hne, hroom, InstallCall.install, CallPc.place]
          · simp [Install.step, hmore, htake, hne, hroom, OtaFlash.setApp, hfl]

omit [Base64] in
/-- A persist, which is a step of both. -/
theorem follows_persist (oenv : OtaEnv) {pc : InstallPc} {m : Manifest} {c : Checkpoint}
    {f : PersistFaults} {ok : CallPc} {err : EspErr → CallPc} {iok : InstallPc}
    {ierr : EspErr → InstallPc} (hfl : fl.checkpoints = s.slots) (hpc : s.pc.place = some pc)
    (hstep : Install.step m ⟨pc, s.checkpoint, s.hashed⟩ fl oenv =
      Install.persist ⟨pc, s.checkpoint, s.hashed⟩ fl c f iok ierr)
    (hok : ok.place = some iok) (herr : ∀ e, (err e).place = some (ierr e)) :
    Follows m fl s (s.persist c f ok err) := by
  obtain ⟨hnext, hslots⟩ := install_persist hfl hok herr
  exact ⟨pc, oenv, hpc, by rw [hstep, hnext], by rw [hstep, hslots]⟩

/-- The checks before the first checkpoint are one step, which fails with the first of them. -/
theorem refines_checking (env : CallEnv) (hfl : fl.checkpoints = s.slots)
    (hpc : s.pc = .verifying ∨ s.pc = .signing) :
    Stays s (s.step args env) ∨ Follows args.manifest fl s (s.step args env) := by
  rcases hpc with hpc | hpc
  all_goals
    have hplace : s.pc.place = some .checking := by rw [hpc]; rfl
    simp only [InstallCall.step, hpc]
    split
  case inl.isTrue =>
    refine .inr (follows_checking hfl hplace ?_ _)
    split
    · decide
    · assumption
  case inl.isFalse => exact .inl (stays_goto hplace.symm)
  case inr.isTrue herror => exact .inr (follows_checking hfl hplace herror _)
  case inr.isFalse => exact .inr (follows_goto {} hfl hplace rfl rfl rfl)

/-- So is the preparation of the partition. -/
theorem refines_beginning (env : CallEnv) (hfl : fl.checkpoints = s.slots)
    (hpc : s.pc = .sizing ∨
      s.pc = .beginning ∧ args.manifest.imageSize ≤ partitionSize) :
    Stays s (s.step args env) ∨ Follows args.manifest fl s (s.step args env) := by
  rcases hpc with hpc | ⟨hpc, hsize⟩
  · have hplace : s.pc.place = some .beginning := by rw [hpc]; rfl
    have hquit (calls : List EspCall) :
        Follows args.manifest fl s (s.goto calls (.returned .invalidSize)) := by
      refine follows_goto { answer := some ⟨.invalidSize, by decide⟩ } hfl hplace rfl ?_ ?_
      all_goals
        by_cases hlarge : partitionSize < args.manifest.imageSize <;>
          simp [Install.step, hlarge, Install.goto]
    simp only [InstallCall.step, hpc]
    split
    · exact .inr (hquit [])
    · split
      · exact .inr (hquit _)
      · exact .inl (stays_goto hplace.symm)
  · have hplace : s.pc.place = some .beginning := by rw [hpc]; rfl
    have hfits := not_lt.2 hsize
    simp only [InstallCall.step, hpc]
    split
    next herror =>
      refine .inr (follows_goto { answer := some ⟨env.result, herror⟩ } hfl hplace rfl ?_ ?_)
      all_goals simp [Install.step, hfits, Install.goto]
    · refine .inr ⟨.beginning, {}, hplace, ?_, ?_⟩
      · simp [Install.step, hfits, Install.goto, InstallCall.install, InstallCall.goto, CallPc.place]
      · simp [Install.step, hfits, OtaFlash.setApp, InstallCall.goto, hfl]

/-- So is the request up to its headers. -/
theorem refines_opening (env : CallEnv) (hfl : fl.checkpoints = s.slots)
    (hplace : s.pc.place = some .opening) :
    Stays s (s.step args env) ∨ Follows args.manifest fl s (s.step args env) := by
  have hgone {e : EspErr} (he : e ≠ .ok) (calls : List EspCall) :
      Stays s (s.goto calls (.cleanup e)) ∨ Follows args.manifest fl s (s.goto calls (.cleanup e)) :=
    .inr (follows_opening hfl hplace he calls)
  cases hpc : s.pc <;> rw [hpc] at hplace <;> try cases hplace
  all_goals
    have hplace : s.pc.place = some .opening := by rw [hpc]; rfl
    simp only [InstallCall.step, hpc]
  case client =>
    split
    · exact .inr (follows_goto { noClient := true } hfl hplace rfl rfl rfl)
    · exact .inl (stays_goto hplace.symm)
  case requesting =>
    split
    next herror => exact hgone herror _
    · exact .inl (stays_goto hplace.symm)
  case opening =>
    split
    next herror => exact hgone herror _
    split
    · exact hgone (e := .invalidResponse) (by decide)
        [.fetchHeaders env.contentLength env.statusCode]
    · exact .inl ⟨by rw [InstallCall.install, InstallCall.install, hpc]; rfl, rfl⟩
  case validating | allocating =>
    split
    · exact hgone (by decide) _
    · exact .inl (stays_goto hplace.symm)
  case hashing =>
    split
    · exact hgone (by decide) _
    · exact .inr (follows_goto {} hfl hplace rfl rfl rfl)

/-- Each turn of the download is a step. -/
theorem refines_reading (env : CallEnv) (h : Inv args s) (hfl : fl.checkpoints = s.slots)
    (hpc : s.pc = .reading ∨ ∃ received, s.pc = .reportProgress received) :
    Follows args.manifest fl s (s.step args env) := by
  rcases hpc with hpc | ⟨received, hpc⟩
  · simp only [InstallCall.step, hpc]
    split
    next hmore => exact follows_read env h hfl hpc hmore
    next hall =>
      refine follows_goto {} hfl (by rw [hpc]; rfl) rfl ?_ ?_
      all_goals simp [Install.step, hall, Install.goto]
  · have hplace : s.pc.place = some (.reportProgress received) := by rw [hpc]; rfl
    simp only [InstallCall.step, hpc]
    split
    next hrecord =>
      refine follows_goto {} hfl hplace rfl ?_ ?_
      all_goals simp [Install.step, hrecord, Install.goto]
    next hskip =>
      refine follows_goto {} hfl hplace rfl ?_ ?_
      all_goals simp [Install.step, hskip, Install.goto]

/-- What is verified of a whole image is one step. Past the comparison of the digests, the digest is
the one of the manifest. -/
theorem refines_finishing (env : CallEnv) (h : Inv args s) (hfl : fl.checkpoints = s.slots)
    (hplace : s.pc.place = some .finishing) :
    Stays s (s.step args env) ∨ Follows args.manifest fl s (s.step args env) := by
  have hknown := h.known
  cases hpc : s.pc <;> rw [hpc] at hplace hknown <;> try cases hplace
  all_goals
    have hplace : s.pc.place = some .finishing := by rw [hpc]; rfl
    simp only [InstallCall.step, hpc]
  case finishing =>
    split
    · refine .inr ?_
      by_cases hdigest : sha256 s.hashed = args.manifest.imageSha256
      · exact follows_finishing hfl hplace hdigest (by decide) _
      · refine follows_goto {} hfl hplace rfl ?_ ?_
        all_goals simp [Install.step, hdigest, Install.goto]
    · exact .inl (stays_goto hplace.symm)
  all_goals have hdigest : sha256 s.hashed = args.manifest.imageSha256 := hknown .digest (by decide)
  case completing =>
    split
    · exact .inr (follows_finishing hfl hplace hdigest (by decide) _)
    · exact .inl (stays_goto hplace.symm)
  case verifyingResponse =>
    split
    next herror => exact .inr (follows_finishing hfl hplace hdigest herror _)
    · exact .inl (stays_goto hplace.symm)
  case ending =>
    split
    next herror =>
      exact .inr (follows_finishing hfl hplace hdigest herror [.otaEnd env.result])
    · exact .inl ⟨by rw [InstallCall.install, InstallCall.install, hpc]; rfl, rfl⟩
  case describing =>
    refine .inr ?_
    split
    · exact follows_finishing hfl hplace hdigest (by decide) _
    split
    · exact follows_finishing hfl hplace hdigest (by decide) _
    · refine follows_goto {} hfl hplace rfl ?_ ?_
      all_goals simp [Install.step, hdigest, Install.goto]

/-- The selection, and the way back from it. -/
theorem refines_selecting (env : CallEnv) (hfl : fl.checkpoints = s.slots)
    (hpc : s.pc = .selecting ∨ ∃ e, s.pc = .reselecting e) :
    Follows args.manifest fl s (s.step args env) := by
  rcases hpc with hpc | ⟨e, hpc⟩
  · have hplace : s.pc.place = some .selecting := by rw [hpc]; rfl
    simp only [InstallCall.step, hpc]
    split
    next herror => exact follows_goto { answer := some ⟨env.result, herror⟩ } hfl hplace rfl rfl rfl
    · exact follows_goto {} hfl hplace rfl rfl rfl
  · have hplace : s.pc.place = some (.reselecting e) := by rw [hpc]; rfl
    simp only [InstallCall.step, hpc]
    split
    · refine follows_goto { answer := some .generic } hfl hplace rfl rfl ?_
      simp [Install.step]
    · exact follows_goto {} hfl hplace rfl rfl rfl

/-- The cleanup aborts what is open and persists the failure. -/
theorem refines_cleanup (env : CallEnv) {e : EspErr} (hfl : fl.checkpoints = s.slots)
    (hpc : s.pc = .cleanup e) : Follows args.manifest fl s (s.step args env) := by
  simp only [InstallCall.step, hpc]
  obtain ⟨pc, oenv, hplace, hnext, hslots⟩ := @follows_persist _
    (s.goto (if s.ota then [.otaAbort] else []) (.cleanup e)) fl { persist := env.persist }
    (.failing e) args.manifest { s.checkpoint with stage := .failed, lastError := e.code }
    env.persist (.reportFailed e) .reportFailed (.reportFailed e) .reportFailed hfl rfl rfl rfl
    fun e => rfl
  exact ⟨pc, oenv, by rw [hpc]; exact hplace, hnext, hslots⟩

/-- **The calls refine the installation.** -/
theorem call_refines_install (env : CallEnv) (h : Inv args s) (hfl : fl.checkpoints = s.slots)
    (hpartition : ∀ size, .updatePartition size ∈ (s.step args env).log → size = partitionSize) :
    Stays s (s.step args env) ∨ Follows args.manifest fl s (s.step args env) := by
  cases hpc : s.pc with
  | verifying => exact refines_checking env hfl (.inl hpc)
  | signing => exact refines_checking env hfl (.inr hpc)
  | sizing => exact refines_beginning env hfl (.inl hpc)
  | beginning =>
    obtain ⟨size, -, hmem, hfits⟩ := h.known .fits (by rw [hpc]; decide)
    obtain ⟨calls, hlog⟩ := step_log args s env
    rw [hpartition size (by rw [hlog]; exact List.mem_append_left _ hmem)] at hfits
    exact refines_beginning env hfl (.inr ⟨hpc, hfits⟩)
  | client | requesting | opening | validating | allocating | hashing =>
    exact refines_opening env hfl (by rw [hpc]; rfl)
  | reading => exact .inr (refines_reading env h hfl (.inl hpc))
  | reportProgress received => exact .inr (refines_reading env h hfl (.inr ⟨received, hpc⟩))
  | finishing | completing | verifyingResponse | ending | describing =>
    exact refines_finishing env h hfl (by rw [hpc]; rfl)
  | selecting => exact .inr (refines_selecting env hfl (.inl hpc))
  | reselecting e => exact .inr (refines_selecting env hfl (.inr ⟨e, hpc⟩))
  | cleanup e => exact .inr (refines_cleanup env hfl hpc)
  | persistFirst | persistDownloading | persistProgress | persistVerified | persistSelected =>
    simp only [InstallCall.step, hpc]
    exact .inr (follows_persist { persist := env.persist } hfl (by rw [hpc]; rfl) rfl rfl
      fun e => rfl)
  | reportFirst | reportVerified | reportSelected | reportFailed =>
    simp only [InstallCall.step, hpc]
    exact .inr (follows_goto {} hfl (by rw [hpc]; rfl) rfl rfl rfl)
  | returned e =>
    simp only [InstallCall.step, hpc]
    exact .inl ⟨rfl, rfl⟩
  | lost =>
    simp only [InstallCall.step, hpc]
    exact .inl ⟨rfl, rfl⟩

/-- One step of an installation with the flash it works on. -/
def Install.stepFlash (m : Manifest) (t : Option Install × OtaFlash) (env : OtaEnv) :
    Option Install × OtaFlash :=
  match t with
  | (none, fl) => (none, fl)
  | (some s, fl) => ((s.step m fl env).next, (s.step m fl env).flash)

/-- The log of a run only grows. -/
theorem run_log (args : InstallArgs) (s : InstallCall) (envs : List CallEnv) :
    ∃ calls, (run (InstallCall.step args) s envs).log = s.log ++ calls := by
  induction envs generalizing s with
  | nil => exact ⟨[], (List.append_nil _).symm⟩
  | cons env envs ih =>
    obtain ⟨first, hfirst⟩ := step_log args s env
    obtain ⟨rest, hrest⟩ := ih (s.step args env)
    exact ⟨first ++ rest, by rw [run_cons, hrest, hfirst, List.append_assoc]⟩

/-- **Every run of the calls is a run of the installation**, on partitions of the size that the
device has. -/
theorem run_refines_install (args : InstallArgs) (envs : List CallEnv) (h : Inv args s)
    (hfl : fl.checkpoints = s.slots)
    (hpartition : ∀ size, .updatePartition size ∈ (run (InstallCall.step args) s envs).log →
      size = partitionSize) :
    ∃ oenvs fl', run (Install.stepFlash args.manifest) (s.install, fl) oenvs =
        ((run (InstallCall.step args) s envs).install, fl') ∧
      fl'.checkpoints = (run (InstallCall.step args) s envs).slots := by
  induction envs generalizing s fl with
  | nil => exact ⟨[], fl, rfl, hfl⟩
  | cons env envs ih =>
    have hfirst : ∀ size, .updatePartition size ∈ (s.step args env).log →
        size = partitionSize := by
      obtain ⟨calls, hlog⟩ := run_log args (s.step args env) envs
      intro size hmem
      refine hpartition size ?_
      rw [run_cons, hlog]
      exact List.mem_append_left _ hmem
    obtain ⟨hinstall, hslots⟩ | ⟨pc, oenv, hplace, hnext, hslots⟩ :=
      call_refines_install env h hfl hfirst
    · rw [← hinstall]
      exact ih (inv_step env h) (hfl.trans hslots.symm) hpartition
    · have hinstall : s.install = some ⟨pc, s.checkpoint, s.hashed⟩ := by
        rw [InstallCall.install, hplace, Option.map_some]
      obtain ⟨oenvs, fl', hrun, hend⟩ := ih (inv_step env h) hslots hpartition
      refine ⟨oenv :: oenvs, fl', ?_, hend⟩
      rw [run_cons, hinstall, Install.stepFlash, hnext]
      exact hrun

/-- What the calls of `pm_ota_install` leave in flash, an installation from its start leaves. -/
theorem after_refines_install (args : InstallArgs) (fl : OtaFlash) (envs : List CallEnv)
    (hpartition : ∀ size, .updatePartition size ∈
      (InstallCall.after args fl.checkpoints envs).log → size = partitionSize) :
    ∃ oenvs fl', run (Install.stepFlash args.manifest) (some (.start args.manifest), fl) oenvs =
        ((InstallCall.after args fl.checkpoints envs).install, fl') ∧
      fl'.checkpoints = (InstallCall.after args fl.checkpoints envs).slots :=
  run_refines_install args envs (inv_start args fl.checkpoints) rfl hpartition

end Refinement

end PowerMonitor.Ota
