import PowerMonitor.Telemetry.NetworkTask

/-!
# One response per sample

What the network task does with a response depends on the response naming the sample that is in
flight. Samples are handed to the task in the order of their sequences, one at a time, and every
return of `send_current_telemetry` completes the one it took; so a response is applied to one sample
only, and none comes through that was made for an earlier one.

`Paired` is the invariant: the sample in flight is the one the task is sending, and the responses
applied before belong to completed samples. `one_response_per_sample` and `latest_value_slot` are
the results, over every interleaving of the tasks and every order of responses.
-/

namespace PowerMonitor.Telemetry

open AbStore CJson Commands Runs

variable [Parser] [Sha256]

/-! ## Completing a send -/

namespace Node

variable (s : Node) (error : EspErr) (telemetrySeconds : ℕ) (env : NetEnv)

@[simp] theorem finish_telemetry :
    (s.finish error telemetrySeconds env).telemetry = s.telemetry := rfl

@[simp] theorem finish_applied : (s.finish error telemetrySeconds env).applied = s.applied := rfl

@[simp] theorem finish_bootId : (s.finish error telemetrySeconds env).bootId = s.bootId := rfl

@[simp] theorem finish_pc : (s.finish error telemetrySeconds env).pc = .looping := rfl

theorem finish_period (h : error ≠ .ok) :
    (s.finish error telemetrySeconds env).scheduler.telemetryPeriodUs =
      s.scheduler.telemetryPeriodUs := by
  simp only [finish, healthUpdate, NetworkScheduler.telemetryComplete, h, false_and, if_false]
  split <;> rfl

end Node

/-- What a response can change: the ledger, the acknowledgements, the commands handed on and the
cadence. -/
def Node.outcome (s : Node) : Ledger × Slots Ledger × List (List UInt8) × List EntryIndex × ℤ :=
  (s.ledger, s.nvs, s.acked, s.received, s.scheduler.telemetryPeriodUs)

/-! ## The invariant -/

/-- The sample in flight is the one the task is sending, and the responses applied before answered
samples that are completed. -/
structure Paired (s : Node) : Prop where
  custody : Custody s.telemetry
  flight : s.telemetry.slot.flying = s.pc.sample?.toList
  completed : ∀ c ∈ s.applied, c.sample ∈ s.telemetry.completed ∨ s.pc.checked? = some c
  current : ∀ c, s.pc.checked? = some c → s.applied.getLast? = some c
  increasing : (s.applied.map fun c => c.sample.sampleSequence).Pairwise (· < ·)
  boot : ∀ c ∈ s.applied, c.bootId = s.bootId

omit [Sha256] in
theorem Paired.start (deviceIdText bootId : List UInt8) (ledger : Ledger) (nvs : Slots Ledger)
    (nowUs : ℤ) (telemetrySeconds : ℕ) :
    Paired (.start deviceIdText bootId ledger nvs nowUs telemetrySeconds) where
  custody := .start
  flight := rfl
  completed c hc := by cases hc
  current c hc := by cases hc
  increasing := .nil
  boot c hc := by cases hc

variable {s : Node}

omit [Sha256] in
/-- What keeps the slot, the responses and the place of the task keeps the invariant. -/
theorem Paired.frame {s' : Node} (h : Paired s) (htelemetry : s'.telemetry = s.telemetry)
    (happlied : s'.applied = s.applied) (hboot : s'.bootId = s.bootId)
    (hsample : s'.pc.sample? = s.pc.sample?) (hchecked : s'.pc.checked? = s.pc.checked?) :
    Paired s' where
  custody := htelemetry ▸ h.custody
  flight := by rw [htelemetry, hsample, h.flight]
  completed := by rw [htelemetry, happlied, hchecked]; exact h.completed
  current := by rw [happlied, hchecked]; exact h.current
  increasing := happlied ▸ h.increasing
  boot := by rw [happlied, hboot]; exact h.boot

omit [Sha256] in
theorem Paired.flying_of_checked (h : Paired s) {c : Checked} (hc : s.pc.checked? = some c) :
    s.telemetry.slot.flying = [c.sample] := by
  rw [h.flight, TaskPc.sample_of_checked hc]
  rfl

omit [Sha256] in
/-- The sample of an applied response was handed to the task. -/
theorem Paired.mem_handed (h : Paired s) {c : Checked} (hc : c ∈ s.applied) :
    c.sample ∈ s.telemetry.handed := by
  rw [h.custody.handed]
  rcases h.completed c hc with hold | hnow
  · exact List.mem_append_left _ hold
  · rw [h.flying_of_checked hnow]
    exact List.mem_append_right _ List.mem_cons_self

omit [Sha256] in
theorem Paired.publish (h : Paired s) (m : Option MeterSample) :
    Paired { s with telemetry := s.telemetry.step (.offer m) } where
  custody := h.custody.step (.offer m)
  flight := (History.offer_flying s.telemetry m).trans h.flight
  completed := h.completed
  current := h.current
  increasing := h.increasing
  boot := h.boot

/-- The second critical section completes the sample the task was sending. -/
theorem Paired.complete (h : Paired s) {sample : TelemetrySample} (hpc : s.pc.sample? = some sample)
    (hchecked : ∀ c, s.pc.checked? = some c → c.sample = sample) (error : EspErr)
    (telemetrySeconds : ℕ) (env : NetEnv) : Paired (s.complete sample error telemetrySeconds env) := by
  have hflying : s.telemetry.slot.flying = [sample] := by
    rw [h.flight, hpc]
    rfl
  obtain ⟨-, hempty, hcompleted⟩ := h.custody.completeSend_flying hflying (error = .ok)
  constructor
  · exact h.custody.step (.completeSend sample.sampleSequence (error = .ok))
  · exact hempty
  · intro c hc
    refine .inl ?_
    change c.sample ∈ (s.telemetry.step (.completeSend sample.sampleSequence (error = .ok))).completed
    rw [hcompleted]
    rcases h.completed c hc with hold | hnow
    · exact List.mem_append_left _ hold
    · rw [hchecked c hnow]
      exact List.mem_append_right _ List.mem_cons_self
  · intro c hc
    cases hc
  · exact h.increasing
  · exact h.boot

omit [Sha256] in
/-- A response that passes is the first for its sample, and later than all before it. -/
theorem Paired.pass (h : Paired s) {checked : Checked} {body : List UInt8}
    (hpc : s.pc = .validating checked.sample body checked.response)
    (hboot : checked.bootId = s.bootId) :
    Paired { s with pc := .notifying checked (reportedIds body),
                    applied := s.applied ++ [checked] } := by
  have hflying : s.telemetry.slot.flying = [checked.sample] := by
    rw [h.flight, hpc]
    rfl
  have hbefore : ∀ c ∈ s.applied, c.sample ∈ s.telemetry.completed := by
    intro c hc
    rcases h.completed c hc with hold | hnow
    · exact hold
    · rw [hpc] at hnow
      cases hnow
  constructor
  · exact h.custody
  · exact hflying
  · intro c hc
    rcases List.mem_append.1 hc with hc | hc
    · exact .inl (hbefore c hc)
    · rw [List.mem_singleton] at hc
      exact .inr (by rw [hc]; rfl)
  · intro c hc
    cases hc
    exact List.getLast?_concat
  · rw [List.map_append, List.pairwise_append]
    refine ⟨h.increasing, List.pairwise_singleton _ _, ?_⟩
    intro n hn m hm
    obtain ⟨c, hc, rfl⟩ := List.mem_map.1 hn
    simp only [List.map_cons, List.map_nil, List.mem_singleton] at hm
    rw [hm]
    have hordered := (List.pairwise_append.1 h.custody.increasing).1
    rw [h.custody.handed, hflying, List.pairwise_append] at hordered
    exact hordered.2.2 _ (hbefore c hc) _ List.mem_cons_self
  · intro c hc
    rcases List.mem_append.1 hc with hc | hc
    · exact h.boot c hc
    · rw [List.mem_singleton] at hc
      rw [hc]
      exact hboot

section

variable [Printer]

theorem Paired.network (h : Paired s) (env : NetEnv) : Paired (s.stepNetwork env) := by
  have hmove := s.stepNetwork_moves env
  generalize s.stepNetwork env = s' at hmove ⊢
  cases hmove with
  | quiet hq => exact h.frame hq.telemetry hq.applied hq.bootId hq.sample hq.checked
  | reconnect hr =>
    obtain ⟨hpc, -, -, hwifi⟩ := hr
    rw [Node.connect, hwifi]
    exact h.frame rfl rfl rfl (by rw [hpc]; rfl) (by rw [hpc]; rfl)
  | starve hpc hout =>
    exact h.frame (History.beginSend_none hout) rfl rfl (by rw [hpc]; rfl) (by rw [hpc]; rfl)
  | begin sample hpc hout =>
    refine ⟨h.custody.step (.beginSend false), History.beginSend_flying hout, ?_, ?_, h.increasing,
      h.boot⟩
    · intro c hc
      rcases h.completed c hc with hold | hnow
      · exact .inl hold
      · rw [hpc] at hnow
        cases hnow
    · intro c hc
      cases hc
  | pass checked body hpc _ hboot => exact h.pass hpc hboot
  | ack checked id ids hpc =>
    exact h.frame rfl rfl rfl (by rw [hpc]; rfl) (by rw [hpc]; rfl)
  | accept checked item items hpc =>
    unfold Node.acceptItem
    dsimp only
    split <;> exact h.frame rfl rfl rfl (by rw [hpc]; rfl) (by rw [hpc]; rfl)
  | fail sample e hpc =>
    exact h.complete (by rw [hpc]; rfl) (fun c hc => by rw [hpc] at hc; cases hc) _ _ env
  | succeed checked hpc =>
    exact h.complete (by rw [hpc]; rfl) (fun c hc => by rw [hpc] at hc; cases hc; rfl) _ _ env

theorem Paired.step (h : Paired s) (a : NodeAction) : Paired (s.step a) := by
  cases a with
  | publish m => exact h.publish m
  | others ledger nvs => exact h.frame rfl rfl rfl rfl rfl
  | configure deviceIdText => exact h.frame rfl rfl rfl rfl rfl
  | network env => exact h.network env

theorem paired_run (s₀ : Node) (h : Paired s₀) (acts : List NodeAction) :
    Paired (run Node.step s₀ acts) :=
  run_invariant (fun _ a hs => hs.step a) h acts

/-! ## Applying a response -/

omit [Sha256] [Printer] in
theorem Quiet.outcome {s' : Node} (h : Quiet s s') : s'.outcome = s.outcome := by
  rw [Node.outcome, Node.outcome, h.ledger, h.nvs, h.acked, h.received, h.period]

/-- A step that is not applying a response changes neither the ledger nor the acknowledgements nor
the cadence. -/
theorem outcome_of_unchecked (s : Node) (env : NetEnv) (h : s.pc.checked? = none) :
    (s.stepNetwork env).outcome = s.outcome := by
  have hmove := s.stepNetwork_moves env
  generalize s.stepNetwork env = s' at hmove ⊢
  cases hmove with
  | quiet hq => exact hq.outcome
  | reconnect hr =>
    rw [Node.connect, hr.2.2.2]
    rfl
  | starve hpc hout =>
    rw [Node.outcome, Node.finish_period _ _ _ _ (by decide)]
    rfl
  | begin sample hpc hout => rfl
  | pass checked body hpc _ _ => rfl
  | ack checked id ids hpc =>
    rw [hpc] at h
    cases h
  | accept checked item items hpc =>
    rw [hpc] at h
    cases h
  | fail sample e hpc =>
    have herror : (if e.1 = .ok then
        (s.telemetry.slot.completeSend sample.sampleSequence (e.1 = .ok)).1 else e.1) = e.1 :=
      if_neg e.2
    rw [Node.complete, herror, Node.outcome, Node.finish_period _ _ _ _ e.2]
    rfl
  | succeed checked hpc =>
    rw [hpc] at h
    cases h

/-- The response names the sample, by the identity of the device at the time of the check. -/
def Checked.Names (c : Checked) : Prop :=
  c.sample.sampleSequence < 2 ^ 53 →
    responseIdentity c.response = some ⟨c.deviceIdText, c.bootId, c.sample.sampleSequence⟩

omit [Sha256] [Printer] in
theorem Checked.names (c : Checked) : c.Names := by
  intro hlt
  rw [identity_of_valid c.valid, doubleOfU64_of_lt hlt]

/-- What a step does with a response. -/
structure AppliesNamed (s : Node) (a : NodeAction) : Prop where
  /-- The network task changes the ledger, the acknowledgements or the cadence only for the response
  it is applying, which names the sample in flight. -/
  named : ∀ env, a = .network env → (s.step a).outcome ≠ s.outcome →
    ∃ c, s.pc.checked? = some c ∧ s.applied.getLast? = some c ∧
      s.telemetry.slot.flying = [c.sample] ∧ c.bootId = s.bootId ∧ c.Names
  /-- A response starts to be applied when it is checked against the sample in flight and the
  identity of the device. -/
  entered : ∀ c, (s.step a).applied = s.applied ++ [c] →
    s.telemetry.slot.flying = [c.sample] ∧ c.deviceIdText = s.deviceIdText ∧ c.bootId = s.bootId

theorem Paired.appliesNamed (h : Paired s) (a : NodeAction) : AppliesNamed s a := by
  constructor
  · rintro env rfl hchanged
    cases hc : s.pc.checked? with
    | none => exact absurd (outcome_of_unchecked s env hc) hchanged
    | some c =>
      have hcurrent := h.current c hc
      exact ⟨c, rfl, hcurrent, h.flying_of_checked hc, h.boot c (List.mem_of_getLast? hcurrent),
        c.names⟩
  · intro c hc
    have hne : ∀ l : List Checked, l ≠ l ++ [c] := fun l hl => by
      have := congrArg List.length hl
      simp at this
    cases a with
    | publish m => exact absurd hc (hne _)
    | others ledger nvs => exact absurd hc (hne _)
    | configure deviceIdText => exact absurd hc (hne _)
    | network env =>
      have hmove := s.stepNetwork_moves env
      change (s.stepNetwork env).applied = _ at hc
      generalize s.stepNetwork env = s' at hmove hc
      cases hmove with
      | quiet hq => exact absurd (hq.applied.symm.trans hc) (hne _)
      | reconnect hr =>
        rw [Node.connect, hr.2.2.2] at hc
        exact absurd hc (hne _)
      | starve hpc hout => exact absurd hc (hne _)
      | begin sample hpc hout => exact absurd hc (hne _)
      | pass checked body hpc hdevice hboot =>
        obtain rfl : checked = c := by simpa using hc
        refine ⟨?_, hdevice, hboot⟩
        rw [h.flight, hpc]
        rfl
      | ack checked id ids hpc => exact absurd hc (hne _)
      | accept checked item items hpc =>
        have hkeep : (s.acceptItem checked item items env).applied = s.applied := by
          unfold Node.acceptItem
          dsimp only
          split <;> rfl
        exact absurd (hkeep.symm.trans hc) (hne _)
      | fail sample e hpc => exact absurd hc (hne _)
      | succeed checked hpc => exact absurd hc (hne _)

/-- A request or a response that fails a check leaves the ledger, the acknowledgements and the
cadence as they are, up to the return of `send_current_telemetry`, whatever other tasks do in
between. -/
structure RejectionKeeps (s : Node) (env : NetEnv) : Prop where
  fails : ∀ sample body response e, s.pc = .validating sample body response →
    validateTelemetryResponse s.deviceIdText s.bootId sample response = .error e →
    (s.stepNetwork env).pc = .failing sample e
  keeps : ∀ sample e, (s.stepNetwork env).pc = .failing sample e →
    (s.stepNetwork env).outcome = s.outcome ∧
      ∀ between, (∀ a ∈ between, ∀ env', a ≠ .network env') → ∀ env',
        let s' := run Node.step (s.stepNetwork env) between
        s'.pc = .failing sample e ∧ (s'.stepNetwork env').outcome = s'.outcome ∧
          (s'.stepNetwork env').pc = .looping

/-- Other tasks do not move the network task. -/
theorem run_pc (s : Node) (acts : List NodeAction) (h : ∀ a ∈ acts, ∀ env, a ≠ .network env) :
    (run Node.step s acts).pc = s.pc := by
  induction acts generalizing s with
  | nil => rfl
  | cons a acts ih =>
    rw [run_cons, ih _ fun b hb => h b (List.mem_cons_of_mem _ hb)]
    cases a with
    | network env => exact absurd rfl (h _ List.mem_cons_self env)
    | publish m => rfl
    | others ledger nvs => rfl
    | configure deviceIdText => rfl

/-- A task that goes on to fail was not applying a response. -/
theorem unchecked_of_failing (s : Node) (env : NetEnv) {sample : TelemetrySample} {e : Failure}
    (h : (s.stepNetwork env).pc = .failing sample e) : s.pc.checked? = none := by
  have hmove := s.stepNetwork_moves env
  generalize s.stepNetwork env = s' at hmove h
  cases hmove with
  | quiet hq =>
    rw [← hq.checked, h]
    rfl
  | reconnect hr => rw [hr.1]; rfl
  | starve hpc hout => rw [hpc]; rfl
  | begin sample hpc hout => rw [hpc]; rfl
  | pass checked body hpc _ _ => rw [hpc]; rfl
  | ack checked id ids hpc => cases h
  | accept checked item items hpc =>
    unfold Node.acceptItem at h
    dsimp only at h
    split at h <;> cases h
  | fail sample e hpc => rw [hpc]; rfl
  | succeed checked hpc => cases h

theorem rejectionKeeps (s : Node) (env : NetEnv) : RejectionKeeps s env := by
  constructor
  · intro sample body response e hpc herror
    unfold Node.stepNetwork
    rw [hpc]
    dsimp only
    split
    next e' herror' =>
      rw [herror] at herror'
      cases herror'
      rfl
    next seconds hok =>
      rw [herror] at hok
      cases hok
  · intro sample e hfailing
    refine ⟨outcome_of_unchecked s env (unchecked_of_failing s env hfailing), ?_⟩
    intro between hothers env' s'
    have hpc : s'.pc = .failing sample e := (run_pc _ between hothers).trans hfailing
    refine ⟨hpc, outcome_of_unchecked s' env' (by rw [hpc]; rfl), ?_⟩
    unfold Node.stepNetwork
    rw [hpc]
    rfl

/-! ## The results -/

/-- **One response per sample.** In every interleaving of the tasks, and whatever responses arrive
in whatever order, the network task changes the ledger, the acknowledgements and the cadence only
for a response that names the sample then in flight; the samples answered by the applied responses
come in the order of their sequences, without repetition, so that no response is applied twice; and
a response that fails a check changes none of them. -/
theorem one_response_per_sample (deviceIdText bootId : List UInt8) (ledger : Ledger)
    (nvs : Slots Ledger) (nowUs : ℤ) (telemetrySeconds : ℕ) (acts : List NodeAction) :
    let s₀ := Node.start deviceIdText bootId ledger nvs nowUs telemetrySeconds
    let s := run Node.step s₀ acts
    Along Node.step AppliesNamed s₀ acts ∧
      (s.applied.map fun c => c.sample.sampleSequence).Pairwise (· < ·) ∧
      (s.telemetry.slot.nextSequence ≤ 2 ^ 53 → (s.applied.map Checked.response).Nodup) ∧
      ∀ env, RejectionKeeps s env := by
  intro s₀ s
  have hstart : Paired s₀ := .start deviceIdText bootId ledger nvs nowUs telemetrySeconds
  have hs : Paired s := paired_run s₀ hstart acts
  refine ⟨.of_invariant (fun _ a h => h.step a) (fun _ a h => h.appliesNamed a) hstart acts,
    hs.increasing, fun hsmall => ?_, rejectionKeeps s⟩
  -- equal responses would name two samples
  have hbound : ∀ c ∈ s.applied, c.sample.sampleSequence < 2 ^ 53 := fun c hc =>
    (hs.custody.sequence_lt (hs.custody.mem_offered (hs.mem_handed hc))).trans_le hsmall
  refine List.pairwise_map.2 ((List.pairwise_map.1 hs.increasing).imp_of_mem ?_)
  intro c d hc hd hlt heq
  have hid := (c.names (hbound c hc)).symm.trans ((congrArg responseIdentity heq).trans
    (d.names (hbound d hd)))
  have hseq : (c.sample.sampleSequence : ℚ) = d.sample.sampleSequence :=
    congrArg Identity.sampleSequence (Option.some.inj hid)
  exact absurd (Nat.cast_injective hseq) hlt.ne

/-- **The latest-value slot.** After any calls in any order every sample offered is replaced,
pending, in flight or completed, in one of these ways only, and the counters of the slot account for
all of them; a failing call changes nothing and an offer does not touch the sample in flight. And
whenever the network task is outside `send_current_telemetry`, no sample is in flight. -/
theorem latest_value_slot :
    (∀ calls, LatestValue (run History.step .start calls) ∧
      Along History.step CallKeeps .start calls) ∧
    ∀ (deviceIdText bootId : List UInt8) (ledger : Ledger) (nvs : Slots Ledger) (nowUs : ℤ)
      (telemetrySeconds : ℕ) (acts : List NodeAction),
      let s := run Node.step
        (Node.start deviceIdText bootId ledger nvs nowUs telemetrySeconds) acts
      LatestValue s.telemetry ∧
        (s.pc.sample? = none → s.telemetry.slot.inFlightPresent = false) := by
  refine ⟨fun calls => ⟨(custody_run calls).latestValue, .of_forall callKeeps _ calls⟩, ?_⟩
  intro deviceIdText bootId ledger nvs nowUs telemetrySeconds acts s
  have hs : Paired s := paired_run _ (.start ..) acts
  refine ⟨hs.custody.latestValue, fun houtside => ?_⟩
  have hempty := hs.flight
  rw [houtside, TelemetrySlot.flying] at hempty
  split at hempty
  · cases hempty
  next hp => simpa using hp

end

end PowerMonitor.Telemetry
