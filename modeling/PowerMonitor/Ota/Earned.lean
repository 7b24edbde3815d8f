import PowerMonitor.Foundations.Runs
import PowerMonitor.Ota.CallLog

/-!
# The selection of an image is earned

Every step of `pm_ota_install` keeps the invariant of its log (`inv_step`), so it holds after every
run. A run ends: each chunk that is written leaves less to write (`remaining_step`).
-/

namespace PowerMonitor.Ota

open CMemory AbStore CJson Protocol Runs

variable [Sha256] [Base64]

/-! ## One step -/

section Step

variable {args : InstallArgs} {s : InstallCall} (env : CallEnv)

omit [Base64] in
/-- What `pm_ota_verify_manifest` has verified when it returns `ESP_OK`. -/
theorem manifestVerified_of_ok {log : List EspCall}
    (h : InstallCall.verifyManifest args env = .ok)
    (hmem : .verifyManifest env.running .ok ∈ log) : ManifestVerified args log := by
  unfold InstallCall.verifyManifest at h
  split at h
  · cases h
  next key hkey =>
    unfold pmOtaVerifyManifest at h
    split at h
    · cases h
    split at h
    next e hcanonical =>
      subst h
      unfold pmOtaManifestCanonical at hcanonical
      split at hcanonical
      · cases hcanonical
      · split at hcanonical <;> cases hcanonical
    next canonical hcanonical =>
      dsimp only at h
      split at h
      · cases h
      split at h
      · cases h
      next hmac =>
        have hequal : (hmacSha256 key.bytes canonical).bytes = args.manifest.signature.bytes := by
          rw [Bool.not_eq_true, Bool.not_eq_false'] at hmac
          exact (constantTimeEqual_iff (by rw [Bytes.size, Bytes.size])).1 hmac
        split at h
        · cases h
        next version hversion =>
          split at h
          next hupgrade =>
            exact ⟨key, version, canonical, hkey, hversion ▸ hmem, hcanonical,
              Bytes.ext hequal.symm, hupgrade⟩
          · cases h

theorem inv_verifying (h : Inv args s) (hpc : s.pc = .verifying) : Inv args (s.step args env) := by
  have hearly : s.pc.early = true := by rw [hpc]; rfl
  have hstage := h.stage
  rw [hpc] at hstage
  simp only [InstallCall.step, hpc]
  split
  next herror =>
    refine h.advance hearly rfl (by simp [EspCall.Quiet]) rfl rfl rfl (.inl rfl) trivial
      (.inl (exits_returned ?_))
    split
    · decide
    · assumption
  next herror =>
    rw [not_or, not_not] at herror
    refine h.advance hearly rfl (by simp [EspCall.Quiet]) rfl rfl rfl (.inl rfl) hstage
      (.inr ⟨rfl, .inr ⟨.manifest, ?_, by rw [hpc]; rfl, by rw [hpc]; rfl⟩⟩)
    exact manifestVerified_of_ok env herror.1 (by simp [InstallCall.goto, herror.1])

/-- A step that asks for one thing and goes on or gives up. -/
theorem inv_ask (h : Inv args s) {pc pc' : CallPc} (hpc : s.pc = pc) (hearly : pc.early = true)
    {calls : List EspCall} (hquiet : ∀ c ∈ calls, c.Quiet) (hstage : Staged s.checkpoint.stage pc')
    (hnext : pc'.Exits ∨ pc'.early = true ∧ (pc'.rank = pc.rank ∨
      ∃ c : Check, c.Holds args (s.goto calls pc') ∧ c.index = pc.rank ∧ pc'.rank = pc.rank + 1)) :
    Inv args (s.goto calls pc') := by
  subst hpc
  exact h.advance hearly rfl hquiet rfl rfl rfl (.inl rfl) hstage hnext

theorem inv_sizing (h : Inv args s) (hpc : s.pc = .sizing) : Inv args (s.step args env) := by
  simp only [InstallCall.step, hpc]
  split
  · exact inv_ask h hpc rfl (by simp) trivial (.inl (exits_returned (by decide)))
  next partition _ =>
    split
    · exact inv_ask h hpc rfl (by simp [EspCall.Quiet]) trivial (.inl (exits_returned (by decide)))
    next hfits =>
      refine inv_ask h hpc rfl (by simp [EspCall.Quiet]) trivial
        (.inr ⟨rfl, .inr ⟨.fits, ?_, rfl, rfl⟩⟩)
      exact ⟨partition.size, partition.le, by simp [InstallCall.goto], not_lt.1 hfits⟩

theorem inv_beginning (h : Inv args s) (hpc : s.pc = .beginning) : Inv args (s.step args env) := by
  simp only [InstallCall.step, hpc]
  split
  next herror =>
    exact inv_ask h hpc rfl (by simp [EspCall.Quiet]) trivial (.inl (exits_returned herror))
  · refine h.advance (by rw [hpc]; rfl) rfl (by simp [EspCall.Quiet]) rfl rfl rfl (.inl rfl) trivial
      (.inr ⟨rfl, .inl (by rw [hpc]; rfl)⟩)

theorem inv_opening (h : Inv args s) (hpc : s.pc = .opening) : Inv args (s.step args env) := by
  simp only [InstallCall.step, hpc]
  split
  next herror => exact inv_ask h hpc rfl (by simp) trivial (.inl (exits_cleanup herror))
  · refine h.advance (by rw [hpc]; rfl) rfl (by simp [EspCall.Quiet]) rfl rfl rfl
      (.inr (by rw [hpc]; decide)) ?_ ?_
    · simp only [InstallCall.goto]
      split <;> trivial
    simp only [InstallCall.goto]
    split
    · exact .inl (exits_cleanup (by decide))
    next hstatus =>
      rw [not_or, not_not, not_not] at hstatus
      refine .inr ⟨rfl, .inr ⟨.status, ?_, by rw [hpc]; rfl, by rw [hpc]; rfl⟩⟩
      simp [Check.Holds, hstatus.1, hstatus.2]

theorem inv_validating (h : Inv args s) (hpc : s.pc = .validating) :
    Inv args (s.step args env) := by
  simp only [InstallCall.step, hpc]
  split
  · exact inv_ask h hpc rfl (by simp [EspCall.Quiet]) trivial (.inl (exits_cleanup (by decide)))
  next hvalid =>
    rw [not_or, not_not, not_not] at hvalid
    refine inv_ask h hpc rfl (by simp [EspCall.Quiet]) trivial
      (.inr ⟨rfl, .inr ⟨.headers, ?_, rfl, rfl⟩⟩)
    exact ⟨by simp [InstallCall.goto, hvalid.1], hvalid.2⟩

/-- A chunk that was written is counted. -/
theorem inv_write (h : Inv args s) (hpc : s.pc = .reading) {data : List UInt8}
    (hle : s.checkpoint.bytesWritten + data.length ≤ args.manifest.imageSize) :
    Inv args { s with
      checkpoint := { s.checkpoint with bytesWritten := s.checkpoint.bytesWritten + data.length }
      hashed := s.hashed ++ data
      log := s.log ++ [.otaWrite data .ok]
      pc := .reportProgress data.length } := by
  have hknown := h.known
  have hstage := h.stage
  rw [hpc] at hstage
  obtain ⟨hselected, hstored⟩ := (outcome_early (by rw [hpc]; rfl)).1 h.outcome
  rw [h.count] at hle
  constructor
  · simp [written, EspCall.written, ← h.hashed]
  · simp [h.count]
  · simpa using hle
  · exact h.size
  · intro c r hmem
    exact h.persisted c r (by simpa using hmem)
  · rw [progress_append_write]
    exact h.monotone
  · intro p hp
    rw [progress_append_write] at hp
    have hold := h.bounded p hp
    refine le_trans hold (Nat.div_le_div_right ?_)
    simp only [List.length_append]
    omega
  · exact h.selected_of_append rfl (by simp)
  · exact hstage
  · rw [hpc] at hknown
    exact hknown.extend rfl (.inr (by decide)) (.inl rfl)
  · exact (outcome_early rfl).2 ⟨by simpa [Selected] using hselected, by simpa [Stored] using hstored⟩

/-- On the way to the whole image nothing overflows: the counts are below `2 ^ 31`. -/
theorem inv_reading (h : Inv args s) (hpc : s.pc = .reading) : Inv args (s.step args env) := by
  obtain ⟨size, hsize, -, hfits⟩ := h.known .fits (by rw [hpc]; decide)
  have hle := h.le
  have hcount := h.count
  simp only [InstallCall.step, hpc]
  split
  · unfold InstallCall.read
    split
    · exact inv_ask h hpc rfl (by simp) trivial (.inl (exits_cleanup (by decide)))
    next data hdata _ =>
      have hsum : (s.checkpoint.bytesWritten + data.length) % 2 ^ 32 =
          s.checkpoint.bytesWritten + data.length := Nat.mod_eq_of_lt (by omega)
      rw [hsum]
      split
      · exact inv_ask h hpc rfl (by simp) trivial (.inl (exits_cleanup (by decide)))
      split
      · exact inv_ask h hpc rfl (by simp) trivial (.inl (exits_cleanup (by decide)))
      next hroom =>
      split
      · exact inv_ask h hpc rfl (by simp) trivial (.inl (exits_cleanup (by decide)))
      split
      next herror =>
        exact inv_ask h hpc rfl (by simpa [EspCall.Quiet] using herror) trivial
          (.inl (exits_cleanup (by decide)))
      · exact inv_write h hpc (not_lt.1 hroom)
  · refine inv_ask h hpc rfl (by simp) trivial (.inr ⟨rfl, .inr ⟨.whole, ?_, rfl, rfl⟩⟩)
    simp only [Check.Holds, InstallCall.goto]
    omega

omit [Sha256] [Base64] in
/-- A part of the image is at most 90 percent. -/
theorem percent_le {n size : ℕ} (h : n ≤ size) : n * 90 / size ≤ 90 :=
  Nat.div_le_of_le_mul (Nat.mul_le_mul_right _ h)

/-- What is reported is at least what was before. -/
theorem inv_reportProgress (h : Inv args s) {received : ℕ} (hpc : s.pc = .reportProgress received) :
    Inv args (s.step args env) := by
  have hknown := h.known
  have hpercent : s.percent args.manifest = s.hashed.length * 90 / args.manifest.imageSize := by
    unfold InstallCall.percent
    rw [h.count]
    exact Nat.mod_eq_of_lt (lt_of_le_of_lt (percent_le h.le) (by decide))
  obtain ⟨hselected, hstored⟩ := (outcome_early (by rw [hpc]; rfl)).1 h.outcome
  have hstage := h.stage
  simp only [InstallCall.step, hpc, hpercent]
  rw [hpc] at hknown hstage
  generalize hnext : (if s.checkpoint.bytesWritten % 65536 < received then CallPc.persistProgress
    else CallPc.reading) = pc
  have hpc' : pc.early = true ∧ pc.rank = 4 ∧ Staged s.checkpoint.stage pc := by
    subst hnext
    split <;> exact ⟨rfl, rfl, hstage⟩
  constructor
  · exact (written_append_report ..).trans h.hashed
  · exact h.count
  · exact h.le
  · exact h.size
  · intro c r hmem
    exact h.persisted c r (by simpa [InstallCall.goto] using hmem)
  · simp only [InstallCall.goto, progress_append_report]
    exact List.pairwise_append.2 ⟨h.monotone, List.pairwise_singleton .., fun p hp q hq => by
      obtain rfl := List.mem_singleton.1 hq
      exact h.bounded p hp⟩
  · intro p hp
    simp only [InstallCall.goto, progress_append_report, List.mem_append, List.mem_singleton] at hp
    rcases hp with hp | rfl
    · exact h.bounded p hp
    · exact le_refl _
  · exact h.selected_of_append rfl (by simp)
  · exact hpc'.2.2
  · have hrank : (s.goto [.report (s.hashed.length * 90 / args.manifest.imageSize) .downloading]
      pc).pc.rank = 4 := hpc'.2.1
    rw [hrank]
    exact hknown.extend rfl (.inl rfl) (.inl rfl)
  · exact (outcome_early hpc'.1).2 ⟨by simpa [Selected, InstallCall.goto] using hselected,
      by simpa [Stored, InstallCall.goto] using hstored⟩

theorem inv_finishing (h : Inv args s) (hpc : s.pc = .finishing) : Inv args (s.step args env) := by
  simp only [InstallCall.step, hpc]
  split
  · exact inv_ask h hpc rfl (by simp) trivial (.inl (exits_cleanup (by decide)))
  next hdigest =>
    simp only [not_or, Bool.not_eq_true, Bool.not_eq_false'] at hdigest
    refine inv_ask h hpc rfl (by simp [EspCall.Quiet]) trivial
      (.inr ⟨rfl, .inr ⟨.digest, ?_, rfl, rfl⟩⟩)
    have hbytes := (constantTimeEqual_iff (by rw [Bytes.size, Bytes.size])).1 hdigest.2
    exact Bytes.ext hbytes

theorem inv_verifyingResponse (h : Inv args s) (hpc : s.pc = .verifyingResponse) :
    Inv args (s.step args env) := by
  have hdigest : sha256 s.hashed = args.manifest.imageSha256 := h.known .digest (by rw [hpc]; decide)
  simp only [InstallCall.step, hpc]
  split
  next herror =>
    exact inv_ask h hpc rfl (by simp [EspCall.Quiet]) trivial (.inl (exits_cleanup herror))
  next hok =>
    rw [not_not] at hok
    have hverify := hok
    refine inv_ask h hpc rfl (by simp [EspCall.Quiet]) trivial
      (.inr ⟨rfl, .inr ⟨.response, ?_, rfl, rfl⟩⟩)
    simp only [InstallCall.verifyResponse] at hverify
    split at hverify
    · cases hverify
    next key hkey =>
      split at hverify
      · cases hverify
      · rw [hdigest] at hverify
        refine ⟨key, InstallCall.responseNowUtcMs args env, hkey, ?_, hverify⟩
        rw [← hdigest, hok]
        simp [InstallCall.goto]

theorem inv_ending (h : Inv args s) (hpc : s.pc = .ending) : Inv args (s.step args env) := by
  simp only [InstallCall.step, hpc]
  refine h.advance (by rw [hpc]; rfl) rfl (by simp [EspCall.Quiet]) rfl rfl rfl (.inl rfl) ?_ ?_
  · simp only [InstallCall.goto]
    split <;> trivial
  simp only [InstallCall.goto]
  split
  next herror => exact .inl (exits_cleanup herror)
  next hok =>
    rw [not_not] at hok
    refine .inr ⟨rfl, .inr ⟨.ended, ?_, by rw [hpc]; rfl, by rw [hpc]; rfl⟩⟩
    simp [Check.Holds, hok]

theorem inv_describing (h : Inv args s) (hpc : s.pc = .describing) :
    Inv args (s.step args env) := by
  simp only [InstallCall.step, hpc]
  split
  · exact inv_ask h hpc rfl (by simp) trivial (.inl (exits_cleanup (by decide)))
  split
  · exact inv_ask h hpc rfl (by simp [EspCall.Quiet]) trivial (.inl (exits_cleanup (by decide)))
  next hmatch =>
    rw [not_or, not_not, not_not] at hmatch
    refine inv_ask h hpc rfl (by simp [EspCall.Quiet]) trivial
      (.inr ⟨rfl, .inr ⟨.described, ?_, rfl, rfl⟩⟩)
    simp [Check.Holds, InstallCall.goto, hmatch.1, hmatch.2]

/-- **The selection is earned.** -/
theorem earned_selecting (h : Inv args s) (hpc : s.pc = .selecting) : Earned args s.log := by
  have hknown : ∀ c : Check, c.Holds args s := fun c => h.known c (by
    rw [hpc]
    cases c <;> decide)
  refine ⟨hknown .manifest, ?_, ?_, hknown .status, ⟨s.capture, hknown .headers, hknown .response⟩,
    hknown .ended, hknown .described⟩
  · rw [h.hashed]
    exact hknown .whole
  · rw [h.hashed]
    exact hknown .digest

theorem inv_selecting (h : Inv args s) (hpc : s.pc = .selecting) : Inv args (s.step args env) := by
  have hearned := earned_selecting h hpc
  obtain ⟨hselected, hstored⟩ := (outcome_early (by rw [hpc]; rfl)).1 h.outcome
  simp only [InstallCall.step, hpc]
  refine h.append rfl rfl rfl (by simp) ?_ rfl rfl rfl ?_ ?_ ?_
  · intro before after result heq
    -- this selection, or an earlier one
    rcases List.append_eq_append_iff.1 heq with ⟨as, hbefore, hcalls⟩ | ⟨bs, hlog, hrest⟩
    · cases as with
      | nil =>
        rw [List.append_nil] at hbefore
        exact hbefore ▸ hearned
      | cons a as => simp at hcalls
    · cases bs with
      | nil =>
        rw [List.append_nil] at hlog
        exact hlog ▸ hearned
      | cons b bs =>
        obtain ⟨rfl, -⟩ := List.cons.inj hrest
        exact h.selected before bs result hlog
  · simp only [InstallCall.goto]
    split <;> trivial
  · simp only [InstallCall.goto]
    split <;> exact known_zero _ _
  · simp only [InstallCall.goto]
    split
    next herror =>
      refine outcome_exits (exits_cleanup herror) ?_ ?_
      · simp only [Selected, List.mem_append, List.mem_singleton, not_or]
        exact ⟨hselected, by simpa using Ne.symm herror⟩
      · simpa [Stored] using hstored
    next hok =>
      rw [not_not] at hok
      exact ⟨by simp [Selected, hok], by simpa [Stored] using hstored⟩

end Step

/-! ## After the selection -/

section Late

variable {args : InstallArgs} {s : InstallCall} (env : CallEnv)

theorem inv_persistSelected (h : Inv args s) (hpc : s.pc = .persistSelected) :
    Inv args (s.step args env) := by
  have houtcome := h.outcome
  rw [hpc] at houtcome
  obtain ⟨hselected, hstored⟩ := houtcome
  simp only [InstallCall.step, hpc]
  have hselected' : ∀ c : EspCall, Selected (s.log ++ [c]) := fun c =>
    List.mem_append_left _ hselected
  refine h.persist rfl rfl ?_ ?_ ?_
  · simp only [InstallCall.persist]
    split
    · trivial
    · split <;> trivial
  · simp only [InstallCall.persist]
    split
    · exact known_zero _ _
    · split <;> exact known_zero _ _
  · simp only [InstallCall.persist]
    split
    · trivial
    next e he =>
      split
      next hok =>
        refine ⟨hselected' _, nextCheckpoint { s.checkpoint with stage := .bootSelected }, rfl, ?_⟩
        simp [he, hok]
      next hne =>
        refine ⟨hne, hselected' _, ?_⟩
        rintro ⟨c, hc, hmem⟩
        rcases List.mem_append.1 hmem with hmem | hmem
        · exact hstored ⟨c, hc, hmem⟩
        · have hresult := (EspCall.persist.inj (List.mem_singleton.1 hmem)).2
          exact hne (Option.some.inj (he.symm.trans hresult.symm))

theorem inv_reselecting (h : Inv args s) {e : EspErr} (hpc : s.pc = .reselecting e) :
    Inv args (s.step args env) := by
  have houtcome := h.outcome
  rw [hpc] at houtcome
  obtain ⟨he, hselected, hstored⟩ := houtcome
  simp only [InstallCall.step, hpc]
  split
  · refine h.append rfl rfl rfl (by simp) (h.selected_of_append rfl (by simp)) rfl rfl rfl
      trivial (known_zero _ _) ⟨he, ?_, fun _ => .inr (by simp [InstallCall.goto])⟩
    simpa [Stored, InstallCall.goto] using hstored
  · refine h.append rfl rfl rfl (by simp) (h.selected_of_append rfl (by simp)) rfl rfl rfl
      trivial (known_zero _ _) ⟨he, ?_, fun _ => .inl ?_⟩
    · simpa [Stored, InstallCall.goto] using hstored
    · exact ⟨s.log ++ [.runningPartition true], [], env.result, by simp [InstallCall.goto],
        List.mem_append_left _ hselected⟩

/-- A report after the selection. -/
theorem inv_reportLate (h : Inv args s) {percent : ℕ} {e : EspErr}
    (hstage : s.checkpoint.stage ≠ .downloading)
    (houtcome : (e = .ok ∧ Selected s.log ∧ Stored s.log) ∨ (e ≠ .ok ∧ Failed s.log)) :
    Inv args (s.goto [.report percent s.checkpoint.stage] (.returned e)) := by
  have hquiet : ∀ c ∈ [EspCall.report percent s.checkpoint.stage], c.Quiet := by
    simpa [EspCall.Quiet] using hstage
  refine h.extend rfl hquiet rfl rfl rfl trivial (known_zero _ _) ?_
  rcases houtcome with ⟨hok, hselected, hstored⟩ | ⟨he, hfailed⟩
  · exact .inl ⟨hok, (selected_append hquiet).2 hselected, (stored_append hquiet).2 hstored⟩
  · exact .inr ⟨he, hfailed.append hquiet⟩

theorem inv_cleanup (h : Inv args s) {e : EspErr} (hpc : s.pc = .cleanup e) :
    Inv args (s.step args env) := by
  have houtcome := h.outcome
  rw [hpc] at houtcome
  obtain ⟨he, hfailed⟩ := houtcome
  have hquiet : ∀ c ∈ (if s.ota then [EspCall.otaAbort] else []), c.Quiet := by
    split <;> simp [EspCall.Quiet]
  have habort : Inv args (s.goto (if s.ota then [.otaAbort] else []) s.pc) := by
    refine h.extend rfl hquiet rfl rfl rfl h.stage ?_ ?_
    · simp only [InstallCall.goto, hpc]
      exact known_zero _ _
    · simp only [InstallCall.goto, hpc]
      exact ⟨he, hfailed.append hquiet⟩
  simp only [InstallCall.step, hpc]
  rw [hpc] at habort
  generalize hs : s.goto (if s.ota then [EspCall.otaAbort] else []) (.cleanup e) = t at habort
  have hfailed' : Failed t.log := hs ▸ hfailed.append hquiet
  have hcheckpoint : s.checkpoint = t.checkpoint := by rw [← hs]; rfl
  rw [hcheckpoint]
  refine habort.persist rfl rfl ?_ ?_ ?_
  · simp only [InstallCall.persist]
    split
    · trivial
    · split <;> rfl
  · simp only [InstallCall.persist]
    split
    · exact known_zero _ _
    · split <;> exact known_zero _ _
  · have hlater : Failed (t.persist { t.checkpoint with stage := .failed, lastError := e.code }
        env.persist (.reportFailed e) .reportFailed).log := by
      refine hfailed'.append fun c hc => ?_
      obtain rfl := List.mem_singleton.1 hc
      refine ⟨?_, fun hstage => ?_⟩
      · change t.checkpoint.bytesWritten ≤ t.checkpoint.imageSize
        rw [habort.count, habort.size]
        exact habort.le
      · exact absurd hstage (by simp [nextCheckpoint])
    simp only [InstallCall.persist] at hlater ⊢
    split
    · trivial
    · split
      · exact ⟨he, hlater⟩
      next hne => exact ⟨hne, hlater⟩

/-- **Every step keeps the invariant.** -/
theorem inv_step (h : Inv args s) : Inv args (s.step args env) := by
  have hstage := h.stage
  have houtcome := h.outcome
  cases hpc : s.pc with
  | verifying => exact inv_verifying env h hpc
  | signing =>
    rw [hpc] at hstage
    simp only [InstallCall.step, hpc]
    split
    next herror => exact inv_ask h hpc rfl (by simp) trivial (.inl (exits_returned herror))
    · exact inv_ask h hpc rfl (by simp) hstage (.inr ⟨rfl, .inl rfl⟩)
  | persistFirst =>
    rw [hpc] at hstage
    simp only [InstallCall.step, hpc]
    refine h.store (by rw [hpc]; rfl) rfl rfl ?_ ⟨rfl, by rw [hpc]; rfl, hstage⟩
      fun e he => exits_returned he
    rw [hstage]
    decide
  | reportFirst =>
    rw [hpc] at hstage
    simp only [InstallCall.step, hpc]
    refine inv_ask h hpc rfl ?_ trivial (.inr ⟨rfl, .inl rfl⟩)
    simp [EspCall.Quiet, show s.checkpoint.stage = .manifestVerified from hstage]
  | sizing => exact inv_sizing env h hpc
  | beginning => exact inv_beginning env h hpc
  | client =>
    simp only [InstallCall.step, hpc]
    split
    · exact inv_ask h hpc rfl (by simp [EspCall.Quiet]) trivial (.inl (exits_returned (by decide)))
    · exact inv_ask h hpc rfl (by simp) trivial (.inr ⟨rfl, .inl rfl⟩)
  | requesting =>
    simp only [InstallCall.step, hpc]
    split
    next herror => exact inv_ask h hpc rfl (by simp) trivial (.inl (exits_cleanup herror))
    · exact inv_ask h hpc rfl (by simp) trivial (.inr ⟨rfl, .inl rfl⟩)
  | opening => exact inv_opening env h hpc
  | validating => exact inv_validating env h hpc
  | allocating | hashing | completing =>
    simp only [InstallCall.step, hpc]
    split
    · exact inv_ask h hpc rfl (by simp) trivial (.inl (exits_cleanup (by decide)))
    · exact inv_ask h hpc rfl (by simp) trivial (.inr ⟨rfl, .inl rfl⟩)
  | persistDownloading | persistVerified =>
    simp only [InstallCall.step, hpc]
    exact h.store (by rw [hpc]; rfl) rfl rfl (by simp) ⟨rfl, by rw [hpc]; rfl, rfl⟩
      fun e he => exits_cleanup he
  | reading => exact inv_reading env h hpc
  | reportProgress received => exact inv_reportProgress env h hpc
  | persistProgress =>
    rw [hpc] at hstage
    simp only [InstallCall.step, hpc]
    refine h.store (by rw [hpc]; rfl) rfl rfl ?_ ⟨rfl, by rw [hpc]; rfl, hstage⟩
      fun e he => exits_cleanup he
    rw [hstage]
    decide
  | finishing => exact inv_finishing env h hpc
  | verifyingResponse => exact inv_verifyingResponse env h hpc
  | ending => exact inv_ending env h hpc
  | describing => exact inv_describing env h hpc
  | reportVerified =>
    rw [hpc] at hstage
    simp only [InstallCall.step, hpc]
    refine inv_ask h hpc rfl ?_ trivial (.inr ⟨rfl, .inl rfl⟩)
    simp [EspCall.Quiet, show s.checkpoint.stage = .imageVerified from hstage]
  | selecting => exact inv_selecting env h hpc
  | persistSelected => exact inv_persistSelected env h hpc
  | reselecting e => exact inv_reselecting env h hpc
  | reportSelected =>
    rw [hpc] at hstage houtcome
    simp only [InstallCall.step, hpc]
    refine inv_reportLate h ?_ (.inl ⟨rfl, houtcome⟩)
    simp [show s.checkpoint.stage = .bootSelected from hstage]
  | cleanup e => exact inv_cleanup env h hpc
  | reportFailed e =>
    rw [hpc] at hstage houtcome
    simp only [InstallCall.step, hpc]
    refine inv_reportLate h ?_ (.inr houtcome)
    simp [show s.checkpoint.stage = .failed from hstage]
  | returned | lost => simpa only [InstallCall.step, hpc] using h

end Late

/-! ## Every run -/

theorem inv_start (args : InstallArgs) (slots : Slots Checkpoint) :
    Inv args (InstallCall.start args slots) where
  hashed := rfl
  count := rfl
  le := Nat.zero_le _
  size := rfl
  persisted := by simp [InstallCall.start]
  monotone := List.Pairwise.nil
  bounded := by simp [InstallCall.start, progress]
  selected := by simp [InstallCall.start]
  stage := rfl
  known := known_zero _ _
  outcome := ⟨by simp [Selected, InstallCall.start], by simp [Stored, InstallCall.start]⟩

/-- The call after the steps with the answers `envs`. -/
def InstallCall.after (args : InstallArgs) (slots : Slots Checkpoint) (envs : List CallEnv) :
    InstallCall := run (InstallCall.step args) (InstallCall.start args slots) envs

theorem inv_after (args : InstallArgs) (slots : Slots Checkpoint) (envs : List CallEnv) :
    Inv args (.after args slots envs) :=
  run_invariant (fun _ env h => inv_step env h) (inv_start args slots) envs

/-! ## Runs end -/

section Ending

variable {args : InstallArgs} {s : InstallCall}

/-- How far a place of the function is from its end, apart from the chunks still to be read. -/
def CallPc.weight : CallPc → ℕ
  | verifying => 29 | signing => 28 | persistFirst => 27 | reportFirst => 26 | sizing => 25
  | beginning => 24 | client => 23 | requesting => 22 | opening => 21 | validating => 20
  | allocating => 19 | hashing => 18 | persistDownloading => 17 | reportProgress _ => 16
  | persistProgress => 15 | reading => 14 | finishing => 13 | completing => 12
  | verifyingResponse => 11 | ending => 10 | describing => 9 | persistVerified => 8
  | reportVerified => 7 | selecting => 6 | persistSelected => 5 | reselecting _ => 4
  | reportSelected => 4 | cleanup _ => 2 | reportFailed _ => 1 | returned _ => 0 | lost => 0

/-- The function has returned, or power was lost. -/
def CallPc.Ended (pc : CallPc) : Prop := pc = .lost ∨ ∃ e, pc = .returned e

/-- What remains to be done. -/
def remaining (args : InstallArgs) (s : InstallCall) : ℕ :=
  3 * (args.manifest.imageSize - s.checkpoint.bytesWritten) + s.pc.weight

section

omit [Sha256] [Base64]

theorem remaining_goto {calls : List EspCall} {pc : CallPc} (h : pc.weight < s.pc.weight) :
    remaining args (s.goto calls pc) < remaining args s := by
  simp only [remaining, InstallCall.goto]
  omega

theorem remaining_persist {c : Checkpoint} {f : PersistFaults} {ok : CallPc}
    {err : EspErr → CallPc} (hbytes : c.bytesWritten = s.checkpoint.bytesWritten)
    (hok : ok.weight < s.pc.weight) (herr : ∀ e, (err e).weight < s.pc.weight) :
    remaining args (s.persist c f ok err) < remaining args s := by
  have hpc : (s.persist c f ok err).pc.weight < s.pc.weight := by
    simp only [InstallCall.persist]
    split
    · exact lt_of_le_of_lt (Nat.zero_le _) hok
    · split
      · exact hok
      · exact herr _
  have hsame : (s.persist c f ok err).checkpoint.bytesWritten = s.checkpoint.bytesWritten :=
    (persistCheckpoint_fields c s.slots f).2.2.1.trans hbytes
  simp only [remaining, hsame]
  omega

theorem ended_of_weight {pc : CallPc} (h : pc.weight = 0) : pc.Ended := by
  cases pc <;> first | exact .inl rfl | exact .inr ⟨_, rfl⟩ | cases h

end

theorem remaining_read (env : CallEnv) (h : Inv args s) (hpc : s.pc = .reading)
    (hmore : s.checkpoint.bytesWritten < args.manifest.imageSize) :
    remaining args (s.read args.manifest env) < remaining args s := by
  obtain ⟨size, hsize, -, hfits⟩ := h.known .fits (by rw [hpc]; decide)
  unfold InstallCall.read
  split
  · exact remaining_goto (by rw [hpc]; decide)
  next data hdata _ =>
    have hsum : (s.checkpoint.bytesWritten + data.length) % 2 ^ 32 =
        s.checkpoint.bytesWritten + data.length := Nat.mod_eq_of_lt (by omega)
    rw [hsum]
    split
    · exact remaining_goto (by rw [hpc]; decide)
    split
    · exact remaining_goto (by rw [hpc]; decide)
    split
    · exact remaining_goto (by rw [hpc]; decide)
    split
    · exact remaining_goto (by rw [hpc]; decide)
    · simp only [remaining, hpc, CallPc.weight]
      omega

/-- **Every step comes closer to the end.** -/
theorem remaining_step (env : CallEnv) (h : Inv args s) (hpc : s.pc.weight ≠ 0) :
    remaining args (s.step args env) < remaining args s := by
  cases hs : s.pc <;> simp only [InstallCall.step, hs]
  case verifying | signing | sizing | client | requesting | validating | allocating | hashing |
      reportProgress | finishing | completing | verifyingResponse | describing | selecting |
      reselecting =>
    repeat' split
    all_goals exact remaining_goto (by simp [hs, CallPc.weight])
  case reportFirst | reportVerified | reportSelected | reportFailed =>
    exact remaining_goto (by simp [hs, CallPc.weight])
  case beginning | opening | ending =>
    repeat' split
    all_goals
      simp only [remaining, InstallCall.goto, hs, CallPc.weight]
      omega
  case persistFirst | persistDownloading | persistProgress | persistVerified | persistSelected =>
    exact remaining_persist rfl (by simp [hs, CallPc.weight]) fun e => by simp [hs, CallPc.weight]
  case reading =>
    split
    next hmore => exact remaining_read env h hs hmore
    · exact remaining_goto (by rw [hs]; decide)
  case cleanup e =>
    have habort : remaining args (s.goto (if s.ota then [.otaAbort] else []) (.cleanup e)) =
        remaining args s := by
      simp only [remaining, InstallCall.goto, hs]
    rw [← habort]
    exact remaining_persist rfl (by simp [InstallCall.goto, CallPc.weight]) fun e => by
      simp [InstallCall.goto, CallPc.weight]
  case returned | lost => simp [hs, CallPc.weight] at hpc

theorem run_of_weight {envs : List CallEnv} (h : s.pc.weight = 0) :
    run (InstallCall.step args) s envs = s := by
  have hfix : ∀ env, s.step args env = s := by
    intro env
    rcases ended_of_weight h with hpc | ⟨e, hpc⟩ <;> simp only [InstallCall.step, hpc]
  induction envs with
  | nil => rfl
  | cons env envs ih => rw [run_cons, hfix, ih]

theorem ended_or_remaining (h : Inv args s) (envs : List CallEnv) :
    (run (InstallCall.step args) s envs).pc.weight = 0 ∨
      remaining args (run (InstallCall.step args) s envs) + envs.length ≤ remaining args s := by
  induction envs generalizing s with
  | nil => exact .inr (le_refl _)
  | cons env envs ih =>
    by_cases hpc : s.pc.weight = 0
    · rw [run_of_weight hpc]
      exact .inl hpc
    · have hstep := remaining_step env h hpc
      rcases ih (inv_step env h) with hended | hrest
      · exact .inl hended
      · refine .inr ?_
        rw [run_cons, List.length_cons]
        omega

/-- A run of this length has come to its end. -/
theorem run_ends (args : InstallArgs) (slots : Slots Checkpoint) {envs : List CallEnv}
    (h : 3 * args.manifest.imageSize + 30 ≤ envs.length) :
    (InstallCall.after args slots envs).pc.Ended := by
  rcases ended_or_remaining (inv_start args slots) envs with hended | hrest
  · exact ended_of_weight hended
  · have hstart : remaining args (InstallCall.start args slots) =
        3 * args.manifest.imageSize + 29 := rfl
    omega

end Ending

/-! ## The claim of the selection -/

/-- **The selection of an image is earned.** After any calls, whatever they answered: the new
partition was selected only after all of `Earned`; a call that has returned returned `ESP_OK`
exactly when the partition was selected and `PM_OTA_BOOT_SELECTED` persisted, and where it returned
an error after the selection, it asked for the running partition again if there was one; no
checkpoint counts more bytes than the image has; and the progress of the download never goes back
and stays within 90 percent. A call of `3 * image_size + 30` steps has returned, unless power was
lost. -/
theorem selection_is_earned (args : InstallArgs) (slots : Slots Checkpoint) (envs : List CallEnv) :
    (∀ before after result, (InstallCall.after args slots envs).log =
      before ++ .setBootPartition .update result :: after → Earned args before) ∧
    (∀ e, (InstallCall.after args slots envs).pc = .returned e →
      (e = .ok ↔ Selected (InstallCall.after args slots envs).log ∧
        Stored (InstallCall.after args slots envs).log) ∧
      (e ≠ .ok → Selected (InstallCall.after args slots envs).log →
        Reselected (InstallCall.after args slots envs).log ∨
          .runningPartition false ∈ (InstallCall.after args slots envs).log)) ∧
    (∀ c result, .persist c result ∈ (InstallCall.after args slots envs).log →
      c.bytesWritten ≤ c.imageSize) ∧
    (progress (InstallCall.after args slots envs).log).Pairwise (· ≤ ·) ∧
    (∀ p ∈ progress (InstallCall.after args slots envs).log, p ≤ 90) ∧
    (3 * args.manifest.imageSize + 30 ≤ envs.length →
      (InstallCall.after args slots envs).pc.Ended) := by
  have h := inv_after args slots envs
  refine ⟨h.selected, fun e hpc => ?_, h.persisted, h.monotone, fun p hp => ?_, run_ends args slots⟩
  · have houtcome := h.outcome
    rw [hpc] at houtcome
    rcases houtcome with ⟨hok, hselected, hstored⟩ | ⟨he, hfailed⟩
    · exact ⟨⟨fun _ => ⟨hselected, hstored⟩, fun _ => hok⟩, fun he => absurd hok he⟩
    · exact ⟨⟨fun hok => absurd hok he, fun hboth => absurd hboth.2 hfailed.1⟩,
        fun _ => hfailed.2⟩
  · exact le_trans (h.bounded p hp) (percent_le h.le)

/-! ## Without a running partition -/

omit [Sha256] [Base64]

/-- A selection for boot, with its result. -/
def EspCall.selection : EspCall → Option (BootChoice × EspErr)
  | .setBootPartition choice result => some (choice, result)
  | _ => none

/-- An image of one byte for a device that runs version 0.1.0. -/
def strandedManifest : Manifest where
  schema := otaSchema
  deviceId := ascii "00000000-0000-4000-8000-000000000001"
  deploymentId := ascii "00000000-0000-4000-8000-000000000002"
  releaseId := ascii "00000000-0000-4000-8000-000000000003"
  version := ascii "0.2.0"
  buildNumber := 7
  projectName := ascii "power-monitor-sensor-headless"
  targetChip := ascii "esp32s3"
  boardProfile := boardProfile
  minimumBootVersion := 1
  minimumConfigVersion := 1
  minimumProtocol := protocolId
  imageSize := 1
  imageSha256 := Sha2.digest [0xe9]
  downloadPath := ascii "/api/v1/device/firmware/00000000-0000-4000-8000-000000000003"
  downloadUrl :=
    ascii "https://server/api/v1/device/firmware/00000000-0000-4000-8000-000000000003"
  manifestNonce := ⟨[0, 1, 2, 3, 4, 5, 6, 7, 8, 9, 10, 11, 12, 13, 14, 15], rfl⟩
  signature := ⟨[0x07, 0x22, 0x68, 0xc3, 0xb6, 0x98, 0x31, 0x68, 0x09, 0x18, 0xc7, 0x7b, 0xff, 0x30,
    0xe3, 0x2e, 0x46, 0x2a, 0x17, 0x9d, 0xb6, 0xda, 0x1d, 0x91, 0x8c, 0x9c, 0x8d, 0x47, 0x26, 0x6a,
    0xb7, 0xd3], rfl⟩

/-- The call for this image, with keys of zeros. -/
def strandedArgs : InstallArgs where
  manifest := strandedManifest
  caPem := some (ascii "CA")
  deviceToServerKey := some (Bytes.zero 32)
  serverToDeviceKey := some (Bytes.zero 32)
  requestUtcMs := 1704067200000

/-- The headers of the server. -/
def strandedHeaders : List (Option (List UInt8) × Option (List UInt8)) :=
  [(some (ascii "X-PM-Protocol"), some protocolId),
   (some (ascii "X-PM-Device-ID"), some strandedManifest.deviceId),
   (some (ascii "X-PM-Timestamp"), some (ascii "1704067200")),
   (some (ascii "X-PM-Nonce"), some (ascii "00112233445566778899aabbccddeeff")),
   (some (ascii "X-PM-Content-SHA256"), some (hexLower (Sha2.digest [0xe9]).bytes)),
   (some (ascii "X-PM-Signature"), some (ascii "38uDQQoMX5caJk5jV9DEvBPh0Xkg25PeouRTtKnoELM=")),
   (some (ascii "ETag"), some (InstallCall.expectedEtag strandedManifest))]

/-- Everything succeeds up to the selection. The checkpoint after it cannot be written, and there is
no running partition to go back to. -/
def strandedEnvs : List CallEnv :=
  [{ running := some (ascii "0.1.0") }, {}, {}, {}, { partition := some ⟨0x780000, by decide⟩ }, {},
   {}, {}, { contentLength := 1, statusCode := 200, headers := strandedHeaders }, {}, {}, {}, {},
   { read := some ⟨[0xe9], by decide⟩ }, {}, {}, {}, {}, {}, {},
   { image := (strandedManifest.projectName, strandedManifest.version) }, {}, {}, {},
   { persist := { write := .writeFails .generic false } }, { fails := true }, {}, {}]

/-- The call after these answers. -/
def strandedCall : InstallCall :=
  @InstallCall.after .standard .standard strandedArgs Slots.empty strandedEnvs

/-- An error is returned after the selection, and the running partition was not asked for. -/
theorem stranded_without_running : strandedCall.pc = .returned .fail ∧ Selected strandedCall.log ∧
    ¬Reselected strandedCall.log := by
  have hrun : strandedCall.pc = .returned .fail ∧
      strandedCall.log.filterMap EspCall.selection = [(.update, .ok)] := by decide +kernel
  have hmem : ∀ choice result, .setBootPartition choice result ∈ strandedCall.log ↔
      choice = .update ∧ result = .ok := by
    intro choice result
    rw [← Prod.mk.injEq, ← List.mem_singleton, ← hrun.2, List.mem_filterMap]
    constructor
    · intro h
      exact ⟨_, h, rfl⟩
    · rintro ⟨call, hcall, hselection⟩
      cases call <;> simp only [EspCall.selection, reduceCtorEq] at hselection
      obtain ⟨rfl, rfl⟩ := Prod.mk.inj (Option.some.inj hselection)
      exact hcall
  refine ⟨hrun.1, (hmem .update .ok).2 ⟨rfl, rfl⟩, ?_⟩
  rintro ⟨before, after, result, hlog, -⟩
  have hrunning := (hmem .running result).1 (by rw [hlog]; simp)
  cases hrunning.1

end PowerMonitor.Ota
