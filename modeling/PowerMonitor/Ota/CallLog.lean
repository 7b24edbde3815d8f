import PowerMonitor.Ota.Calls

/-!
# What the log of an installation says

What holds of the log of `pm_ota_install` after any number of its calls, whatever they answer.

* `Earned` is what has to come before the new partition is selected, and `Check` its parts in the
  order in which the function makes sure of them: where the call stands tells how many of them hold
  (`CallPc.rank`).
* `Outcome` is what the log says about the selection, by where the call stands.
* `Inv` puts these together with the counts of the download. `Inv.extend` is the rule for the calls
  that say nothing about any of it, `Inv.advance` the one for the way to the selection and
  `Inv.persist` the one for a checkpoint.
-/

namespace PowerMonitor.Ota

open CMemory AbStore Protocol

/-! ## What the log says -/

/-- What one call wrote to the partition. -/
def EspCall.written : EspCall → List UInt8
  | .otaWrite data result => if result = .ok then data else []
  | _ => []

/-- The bytes written, in order. -/
def written (log : List EspCall) : List UInt8 := log.flatMap EspCall.written

/-- The percentage of one report of the download. -/
def EspCall.progress : EspCall → Option ℕ
  | .report percent .downloading => some percent
  | _ => none

/-- The percentages of the download, in the order in which they were reported. -/
def progress (log : List EspCall) : List ℕ := log.filterMap EspCall.progress

/-- The new partition was selected. -/
def Selected (log : List EspCall) : Prop := .setBootPartition .update .ok ∈ log

/-- The checkpoint `PM_OTA_BOOT_SELECTED` was persisted. -/
def Stored (log : List EspCall) : Prop :=
  ∃ c : Checkpoint, c.stage = .bootSelected ∧ .persist c (some .ok) ∈ log

/-- After the selection, the running partition was selected again. -/
def Reselected (log : List EspCall) : Prop :=
  ∃ before after result, log = before ++ .setBootPartition .running result :: after ∧
    Selected before

variable [Sha256] [Base64]

/-- The HMAC of the manifest and the upgrade were verified. -/
def ManifestVerified (args : InstallArgs) (log : List EspCall) : Prop :=
  ∃ key version canonical, args.serverToDeviceKey = some key ∧
    .verifyManifest (some version) .ok ∈ log ∧
    pmOtaManifestCanonical args.manifest 1024 = .ok canonical ∧
    args.manifest.signature = hmacSha256 key.bytes canonical ∧
    pmOtaVersionRequireUpgrade version args.manifest.version = .ok

/-- The headers were verified: their status and length, those that are captured, and the ETag. -/
def HeadersVerified (m : Manifest) (capture : ResponseCapture) (log : List EspCall) : Prop :=
  .validateHeaders capture .ok ∈ log ∧ capture.etag.str = InstallCall.expectedEtag m

/-- The signature of the response over the digest of the manifest was verified. -/
def ResponseVerified (args : InstallArgs) (headers : ResponseAuthHeaders) (log : List EspCall) :
    Prop :=
  ∃ key now, args.serverToDeviceKey = some key ∧
    .verifyResponse headers now (hexLower args.manifest.imageSha256.bytes) .ok ∈ log ∧
    (verifyResponseDigest (InstallCall.responseCall args key now headers)
      (hexLower args.manifest.imageSha256.bytes) .zero).1 = .ok

/-- **What has to come before the new partition is selected.** -/
structure Earned (args : InstallArgs) (log : List EspCall) : Prop where
  manifest : ManifestVerified args log
  /-- As many bytes as the manifest says were written. -/
  whole : (written log).length = args.manifest.imageSize
  digest : sha256 (written log) = args.manifest.imageSha256
  status : .fetchHeaders args.manifest.imageSize 200 ∈ log
  /-- The headers and the signature of the response were verified. -/
  response : ∃ capture, HeadersVerified args.manifest capture log ∧
    ResponseVerified args capture.auth log
  ended : .otaEnd .ok ∈ log
  /-- The project and the version of the image are those of the manifest. -/
  described : .partitionDescription args.manifest.projectName args.manifest.version ∈ log

/-! ## The invariant -/

/-- What the function makes sure of, in this order. -/
inductive Check
  | manifest | fits | status | headers | whole | digest | response | ended | described

/-- How many checks come before a check. -/
def Check.index : Check → ℕ
  | manifest => 0 | fits => 1 | status => 2 | headers => 3 | whole => 4 | digest => 5
  | response => 6 | ended => 7 | described => 8

/-- A check was made. -/
def Check.Holds (args : InstallArgs) (s : InstallCall) : Check → Prop
  | .manifest => ManifestVerified args s.log
  | .fits => ∃ size ≤ 2 ^ 31, .updatePartition size ∈ s.log ∧ args.manifest.imageSize ≤ size
  | .status => .fetchHeaders args.manifest.imageSize 200 ∈ s.log
  | .headers => HeadersVerified args.manifest s.capture s.log
  | .whole => s.hashed.length = args.manifest.imageSize
  | .digest => sha256 s.hashed = args.manifest.imageSha256
  | .response => ResponseVerified args s.capture.auth s.log
  | .ended => .otaEnd .ok ∈ s.log
  | .described =>
    .partitionDescription args.manifest.projectName args.manifest.version ∈ s.log

/-- How many checks the function has made. -/
def CallPc.rank : CallPc → ℕ
  | signing | persistFirst | reportFirst | sizing => 1
  | beginning | client | requesting | opening => 2
  | validating => 3
  | allocating | hashing | persistDownloading | reading | reportProgress _ | persistProgress => 4
  | finishing => 5
  | completing | verifyingResponse => 6
  | ending => 7
  | describing => 8
  | persistVerified | reportVerified | selecting => 9
  | _ => 0

/-- The first checks were made. -/
def Known (args : InstallArgs) (s : InstallCall) (n : ℕ) : Prop :=
  ∀ c : Check, c.index < n → c.Holds args s

/-- The partition was not selected, or it was and the running one after it, if there is one. -/
def Failed (log : List EspCall) : Prop :=
  ¬Stored log ∧ (Selected log → Reselected log ∨ .runningPartition false ∈ log)

/-- What the log says about the selection. -/
def Outcome (log : List EspCall) : CallPc → Prop
  | .persistSelected => Selected log ∧ ¬Stored log
  | .reselecting e => e ≠ .ok ∧ Selected log ∧ ¬Stored log
  | .reportSelected => Selected log ∧ Stored log
  | .cleanup e | .reportFailed e => e ≠ .ok ∧ Failed log
  | .returned e => (e = .ok ∧ Selected log ∧ Stored log) ∨ (e ≠ .ok ∧ Failed log)
  | .lost => True
  | _ => ¬Selected log ∧ ¬Stored log

/-- The stage of the checkpoint where it is reported. -/
def Staged (stage : OtaStage) : CallPc → Prop
  | .verifying | .signing | .persistFirst | .reportFirst => stage = .manifestVerified
  | .reading | .reportProgress _ | .persistProgress => stage = .downloading
  | .reportVerified => stage = .imageVerified
  | .reportSelected => stage = .bootSelected
  | .reportFailed _ => stage = .failed
  | _ => True

/-- What holds after any number of calls. -/
structure Inv (args : InstallArgs) (s : InstallCall) : Prop where
  hashed : written s.log = s.hashed
  count : s.checkpoint.bytesWritten = s.hashed.length
  le : s.hashed.length ≤ args.manifest.imageSize
  size : s.checkpoint.imageSize = args.manifest.imageSize
  persisted : ∀ c r, .persist c r ∈ s.log → c.bytesWritten ≤ c.imageSize
  monotone : (progress s.log).Pairwise (· ≤ ·)
  bounded : ∀ p ∈ progress s.log, p ≤ s.hashed.length * 90 / args.manifest.imageSize
  selected : ∀ before after result, s.log = before ++ .setBootPartition .update result :: after →
    Earned args before
  stage : Staged s.checkpoint.stage s.pc
  known : Known args s s.pc.rank
  outcome : Outcome s.log s.pc

/-- A call that says nothing about the selection or the download. -/
def EspCall.Quiet : EspCall → Prop
  | .otaWrite _ result => result ≠ .ok
  | .report _ stage => stage ≠ .downloading
  | .persist c result => c.bytesWritten ≤ c.imageSize ∧ (c.stage = .bootSelected → result ≠ some .ok)
  | .setBootPartition _ _ => False
  | _ => True

/-! ## Quiet calls -/

section Quiet

variable {log calls : List EspCall}

omit [Sha256] [Base64]

theorem written_append (log calls : List EspCall) :
    written (log ++ calls) = written log ++ written calls :=
  List.flatMap_append

theorem progress_append (log calls : List EspCall) :
    progress (log ++ calls) = progress log ++ progress calls := List.filterMap_append

theorem progress_append_write (log : List EspCall) (data : List UInt8) (result : EspErr) :
    progress (log ++ [.otaWrite data result]) = progress log :=
  (progress_append _ _).trans (List.append_nil _)

theorem progress_append_report (log : List EspCall) (percent : ℕ) :
    progress (log ++ [.report percent .downloading]) = progress log ++ [percent] :=
  progress_append _ _

theorem written_append_report (log : List EspCall) (percent : ℕ) (stage : OtaStage) :
    written (log ++ [.report percent stage]) = written log :=
  (written_append _ _).trans (List.append_nil _)

theorem written_quiet (h : ∀ c ∈ calls, c.Quiet) : written calls = [] := by
  refine List.flatMap_eq_nil_iff.2 fun c hc => ?_
  have hquiet := h c hc
  cases c <;> simp_all [EspCall.Quiet, EspCall.written]

theorem progress_quiet (h : ∀ c ∈ calls, c.Quiet) : progress calls = [] := by
  refine List.filterMap_eq_nil_iff.2 fun c hc => ?_
  have hquiet := h c hc
  cases c with
  | report percent stage => cases stage <;> simp_all [EspCall.Quiet, EspCall.progress]
  | _ => rfl

theorem not_mem_setBoot_quiet (h : ∀ c ∈ calls, c.Quiet) (choice : BootChoice) (result : EspErr) :
    .setBootPartition choice result ∉ calls := fun hmem => h _ hmem

theorem selected_append (h : ∀ c ∈ calls, c.Quiet) : Selected (log ++ calls) ↔ Selected log := by
  unfold Selected
  rw [List.mem_append, or_iff_left (not_mem_setBoot_quiet h _ _)]

theorem stored_append (h : ∀ c ∈ calls, c.Quiet) : Stored (log ++ calls) ↔ Stored log := by
  constructor
  · rintro ⟨c, hstage, hmem⟩
    rcases List.mem_append.1 hmem with hmem | hmem
    · exact ⟨c, hstage, hmem⟩
    · exact absurd rfl ((h _ hmem).2 hstage)
  · rintro ⟨c, hstage, hmem⟩
    exact ⟨c, hstage, List.mem_append_left _ hmem⟩

theorem Reselected.append (h : Reselected log) (calls : List EspCall) :
    Reselected (log ++ calls) := by
  obtain ⟨before, after, result, rfl, hselected⟩ := h
  exact ⟨before, after ++ calls, result, by simp, hselected⟩

theorem Failed.append (hfailed : Failed log) (h : ∀ c ∈ calls, c.Quiet) : Failed (log ++ calls) := by
  refine ⟨mt (stored_append h).1 hfailed.1, fun hselected => ?_⟩
  rcases hfailed.2 ((selected_append h).1 hselected) with hre | hnone
  · exact .inl (hre.append calls)
  · exact .inr (List.mem_append_left _ hnone)

/-- A selection in the longer log is one in the shorter, if the calls added are no selection. -/
theorem split_of_not_mem {before after : List EspCall} {result : EspErr}
    (h : .setBootPartition .update result ∉ calls)
    (heq : log ++ calls = before ++ .setBootPartition .update result :: after) :
    ∃ after', log = before ++ .setBootPartition .update result :: after' := by
  rcases List.append_eq_append_iff.1 heq with ⟨as, -, hcalls⟩ | ⟨bs, hlog, hrest⟩
  · exact absurd (hcalls ▸ by simp) h
  · cases bs with
    | nil =>
      rw [List.nil_append] at hrest
      exact absurd (hrest ▸ List.mem_cons_self ..) h
    | cons b bs =>
      obtain ⟨rfl, -⟩ := List.cons.inj hrest
      exact ⟨bs, hlog⟩

end Quiet

/-! ## The rules -/

section Rules

variable {args : InstallArgs} {s s' : InstallCall} {calls : List EspCall}

omit [Base64] in
theorem ManifestVerified.append {log : List EspCall} (h : ManifestVerified args log)
    (calls : List EspCall) : ManifestVerified args (log ++ calls) := by
  obtain ⟨key, version, canonical, hkey, hmem, hrest⟩ := h
  exact ⟨key, version, canonical, hkey, List.mem_append_left _ hmem, hrest⟩

/-- The checks that were made stay made. -/
theorem Known.extend {n : ℕ} (h : Known args s n) (hlog : s'.log = s.log ++ calls)
    (hhashed : s'.hashed = s.hashed ∨ n ≤ 4) (hcapture : s'.capture = s.capture ∨ n ≤ 3) :
    Known args s' n := by
  intro c hc
  have hold := h c hc
  cases c with
  | manifest =>
    rw [Check.Holds, hlog]
    exact hold.append calls
  | fits =>
    obtain ⟨size, hsize, hmem, hfits⟩ := hold
    rw [Check.Holds, hlog]
    exact ⟨size, hsize, List.mem_append_left _ hmem, hfits⟩
  | status =>
    rw [Check.Holds, hlog]
    exact List.mem_append_left _ hold
  | headers =>
    rcases hcapture with hcapture | hn
    · rw [Check.Holds, hcapture, hlog]
      exact ⟨List.mem_append_left _ hold.1, hold.2⟩
    · exact absurd hc (by simp only [Check.index]; omega)
  | whole =>
    rcases hhashed with hhashed | hn
    · rw [Check.Holds, hhashed]
      exact hold
    · exact absurd hc (by simp only [Check.index]; omega)
  | digest =>
    rcases hhashed with hhashed | hn
    · rw [Check.Holds, hhashed]
      exact hold
    · exact absurd hc (by simp only [Check.index]; omega)
  | response =>
    rcases hcapture with hcapture | hn
    · obtain ⟨key, now, hkey, hmem, hverify⟩ := hold
      rw [Check.Holds, hcapture, hlog]
      exact ⟨key, now, hkey, List.mem_append_left _ hmem, hverify⟩
    · exact absurd hc (by simp only [Check.index]; omega)
  | ended =>
    rw [Check.Holds, hlog]
    exact List.mem_append_left _ hold
  | described =>
    rw [Check.Holds, hlog]
    exact List.mem_append_left _ hold

omit [Sha256] [Base64] in
theorem Check.index_injective : Function.Injective Check.index := by
  intro c d h
  cases c <;> cases d <;> first | rfl | simp [Check.index] at h

/-- One more check was made. -/
theorem Known.succ {n : ℕ} (h : Known args s n) {c : Check} (hc : c.Holds args s)
    (hindex : c.index = n) : Known args s (n + 1) := by
  intro d hd
  rcases Nat.lt_succ_iff_lt_or_eq.1 hd with hd | hd
  · exact h d hd
  · exact Check.index_injective (hd.trans hindex.symm) ▸ hc

theorem known_zero (args : InstallArgs) (s : InstallCall) : Known args s 0 :=
  fun _ h => absurd h (Nat.not_lt_zero _)

/-- Calls that write nothing and report no download. -/
theorem Inv.append (h : Inv args s) (hlog : s'.log = s.log ++ calls) (hwritten : written calls = [])
    (hprogress : progress calls = [])
    (hpersist : ∀ c r, .persist c r ∈ calls → c.bytesWritten ≤ c.imageSize)
    (hselect : ∀ before after result, s'.log = before ++ .setBootPartition .update result :: after →
      Earned args before)
    (hbytes : s'.checkpoint.bytesWritten = s.checkpoint.bytesWritten)
    (hsize : s'.checkpoint.imageSize = s.checkpoint.imageSize) (hhashed : s'.hashed = s.hashed)
    (hstage : Staged s'.checkpoint.stage s'.pc) (hknown : Known args s' s'.pc.rank)
    (houtcome : Outcome s'.log s'.pc) : Inv args s' where
  hashed := by rw [hlog, written_append, hwritten, List.append_nil, hhashed, h.hashed]
  count := by rw [hbytes, hhashed, h.count]
  le := hhashed ▸ h.le
  size := hsize.trans h.size
  persisted := by
    intro c r hmem
    rw [hlog, List.mem_append] at hmem
    rcases hmem with hmem | hmem
    · exact h.persisted c r hmem
    · exact hpersist c r hmem
  monotone := by
    rw [hlog, progress_append, hprogress, List.append_nil]
    exact h.monotone
  bounded := by
    rw [hlog, progress_append, hprogress, List.append_nil, hhashed]
    exact h.bounded
  selected := hselect
  stage := hstage
  known := hknown
  outcome := houtcome

/-- Calls among which there is no selection leave the selections as they are. -/
theorem Inv.selected_of_append (h : Inv args s) (hlog : s'.log = s.log ++ calls)
    (hcalls : ∀ result, .setBootPartition .update result ∉ calls) :
    ∀ before after result, s'.log = before ++ .setBootPartition .update result :: after →
      Earned args before := by
  intro before after result heq
  rw [hlog] at heq
  obtain ⟨after', hsplit⟩ := split_of_not_mem (hcalls result) heq
  exact h.selected before after' result hsplit

/-- **Calls that say nothing** keep the invariant, as far as it is not about where the call
stands. -/
theorem Inv.extend (h : Inv args s) (hlog : s'.log = s.log ++ calls) (hquiet : ∀ c ∈ calls, c.Quiet)
    (hbytes : s'.checkpoint.bytesWritten = s.checkpoint.bytesWritten)
    (hsize : s'.checkpoint.imageSize = s.checkpoint.imageSize) (hhashed : s'.hashed = s.hashed)
    (hstage : Staged s'.checkpoint.stage s'.pc) (hknown : Known args s' s'.pc.rank)
    (houtcome : Outcome s'.log s'.pc) : Inv args s' :=
  h.append hlog (written_quiet hquiet) (progress_quiet hquiet) (fun _ _ hmem => (hquiet _ hmem).1)
    (h.selected_of_append hlog fun result => not_mem_setBoot_quiet hquiet .update result) hbytes hsize
    hhashed hstage hknown houtcome

/-- The function has not come to the selection. -/
def CallPc.early : CallPc → Bool
  | persistSelected | reselecting _ | reportSelected | cleanup _ | reportFailed _ | returned _
  | lost => false
  | _ => true

/-- The function gives up, or the device does. -/
def CallPc.Exits (pc : CallPc) : Prop :=
  pc = .lost ∨ ∃ e, e ≠ EspErr.ok ∧ (pc = .cleanup e ∨ pc = .returned e)

omit [Sha256] [Base64] in
theorem outcome_early {log : List EspCall} {pc : CallPc} (h : pc.early = true) :
    Outcome log pc ↔ ¬Selected log ∧ ¬Stored log := by
  cases pc <;> first | rfl | cases h

omit [Sha256] [Base64] in
theorem outcome_exits {log : List EspCall} {pc : CallPc} (h : pc.Exits) (hselected : ¬Selected log)
    (hstored : ¬Stored log) : Outcome log pc := by
  have hfailed : Failed log := ⟨hstored, fun h => absurd h hselected⟩
  rcases h with rfl | ⟨e, he, rfl | rfl⟩
  · trivial
  · exact ⟨he, hfailed⟩
  · exact .inr ⟨he, hfailed⟩

omit [Sha256] [Base64] in
theorem CallPc.Exits.rank {pc : CallPc} (h : pc.Exits) : pc.rank = 0 := by
  rcases h with rfl | ⟨e, -, rfl | rfl⟩ <;> rfl

omit [Sha256] [Base64] in
theorem CallPc.Exits.staged {pc : CallPc} (h : pc.Exits) (stage : OtaStage) : Staged stage pc := by
  rcases h with rfl | ⟨e, -, rfl | rfl⟩ <;> trivial

/-- **The way to the selection**: the function gives up, stays at its rank or makes one more
check. -/
theorem Inv.advance (h : Inv args s) (hearly : s.pc.early = true) (hlog : s'.log = s.log ++ calls)
    (hquiet : ∀ c ∈ calls, c.Quiet)
    (hbytes : s'.checkpoint.bytesWritten = s.checkpoint.bytesWritten)
    (hsize : s'.checkpoint.imageSize = s.checkpoint.imageSize) (hhashed : s'.hashed = s.hashed)
    (hcapture : s'.capture = s.capture ∨ s.pc.rank ≤ 3) (hstage : Staged s'.checkpoint.stage s'.pc)
    (hpc : s'.pc.Exits ∨ s'.pc.early = true ∧ (s'.pc.rank = s.pc.rank ∨
      ∃ c : Check, c.Holds args s' ∧ c.index = s.pc.rank ∧ s'.pc.rank = s.pc.rank + 1)) :
    Inv args s' := by
  obtain ⟨hselected, hstored⟩ := (outcome_early hearly).1 h.outcome
  have hselected' : ¬Selected s'.log := by rwa [hlog, selected_append hquiet]
  have hstored' : ¬Stored s'.log := by rwa [hlog, stored_append hquiet]
  have hknown := h.known.extend hlog (.inl hhashed) hcapture
  refine h.extend hlog hquiet hbytes hsize hhashed hstage ?_ ?_
  · rcases hpc with hpc | ⟨-, hrank | ⟨c, hc, hindex, hrank⟩⟩
    · rw [hpc.rank]
      exact known_zero args s'
    · rwa [hrank]
    · rw [hrank]
      exact hknown.succ hc hindex
  · rcases hpc with hpc | ⟨hpc, -⟩
    · exact outcome_exits hpc hselected' hstored'
    · exact (outcome_early hpc).2 ⟨hselected', hstored'⟩

omit [Sha256] [Base64] in
theorem exits_cleanup {e : EspErr} (h : e ≠ .ok) : (CallPc.cleanup e).Exits :=
  .inr ⟨e, h, .inl rfl⟩

omit [Sha256] [Base64] in
theorem exits_returned {e : EspErr} (h : e ≠ .ok) : (CallPc.returned e).Exits :=
  .inr ⟨e, h, .inr rfl⟩

/-- A persist, with what is left to say about where the call goes on. -/
theorem Inv.persist (h : Inv args s) {c : Checkpoint} {f : PersistFaults} {ok : CallPc}
    {err : EspErr → CallPc} (hbytes : c.bytesWritten = s.checkpoint.bytesWritten)
    (hsize : c.imageSize = s.checkpoint.imageSize) (hstage : Staged c.stage (s.persist c f ok err).pc)
    (hknown : Known args (s.persist c f ok err) (s.persist c f ok err).pc.rank)
    (houtcome : Outcome (s.persist c f ok err).log (s.persist c f ok err).pc) :
    Inv args (s.persist c f ok err) := by
  have hle : c.bytesWritten ≤ c.imageSize := by
    rw [hbytes, hsize, h.count, h.size]
    exact h.le
  obtain ⟨-, hsize', hbytes', hstage'⟩ := persistCheckpoint_fields c s.slots f
  refine h.append rfl rfl rfl ?_ (h.selected_of_append rfl (by simp)) (hbytes'.trans hbytes)
    (hsize'.trans hsize) rfl (hstage' ▸ hstage) hknown houtcome
  intro d r hmem
  obtain ⟨rfl, -⟩ : d = nextCheckpoint c ∧ _ := by simpa using hmem
  exact hle

/-- A persist on the way to the selection. -/
theorem Inv.store (h : Inv args s) (hearly : s.pc.early = true) {c : Checkpoint} {f : PersistFaults}
    {ok : CallPc} {err : EspErr → CallPc} (hbytes : c.bytesWritten = s.checkpoint.bytesWritten)
    (hsize : c.imageSize = s.checkpoint.imageSize) (hstage : c.stage ≠ .bootSelected)
    (hok : ok.early = true ∧ ok.rank = s.pc.rank ∧ Staged c.stage ok)
    (herr : ∀ e, e ≠ .ok → (err e).Exits) : Inv args (s.persist c f ok err) := by
  obtain ⟨hselected, hstored⟩ := (outcome_early hearly).1 h.outcome
  have hnext : (s.persist c f ok err).pc.Exits ∨ (s.persist c f ok err).pc = ok := by
    simp only [InstallCall.persist]
    split
    · exact .inl (.inl rfl)
    · split
      · exact .inr rfl
      next he => exact .inl (herr _ he)
  have hselected' : ¬Selected (s.persist c f ok err).log := by
    simpa [Selected, InstallCall.persist] using hselected
  have hstored' : ¬Stored (s.persist c f ok err).log := by
    rintro ⟨d, hd, hmem⟩
    rcases List.mem_append.1 hmem with hmem | hmem
    · exact hstored ⟨d, hd, hmem⟩
    · obtain ⟨rfl, -⟩ : d = nextCheckpoint c ∧ _ := by simpa using hmem
      exact hstage hd
  refine h.persist hbytes hsize ?_ ?_ ?_
  · rcases hnext with hnext | hnext
    · exact hnext.staged _
    · rw [hnext]
      exact hok.2.2
  · rcases hnext with hnext | hnext
    · rw [hnext.rank]
      exact known_zero _ _
    · rw [hnext, hok.2.1]
      exact h.known.extend rfl (.inl rfl) (.inl rfl)
  · rcases hnext with hnext | hnext
    · exact outcome_exits hnext hselected' hstored'
    · rw [hnext]
      exact (outcome_early hok.1).2 ⟨hselected', hstored'⟩

end Rules

end PowerMonitor.Ota
