import PowerMonitor.Telemetry.NetworkTask

/-!
# What clears the server backoff

After a failed exchange the network task waits longer and longer before the next one, and reports
the server as unavailable, until the server answers or Wi-Fi is connected anew. The loop however
takes `ESP_ERR_NOT_FOUND` for a success, which is what `send_current_telemetry` returns when there
is no sample to send: an attempt that contacts nobody clears the backoff and the report.

`backoff_kept_iff` says that this is the only way: along every run the backoff is kept exactly if no
attempt of that kind is made while there is something to clear.
-/

namespace PowerMonitor.Telemetry

open AbStore CJson Commands Runs

section

variable [Parser] [Sha256]

/-- The step ends an iteration whose request was answered by a verified response that passed every
check. -/
def Node.served (s : Node) : Prop := ∃ c, s.pc = .succeeding c

/-- The step ends an attempt with `ESP_ERR_NOT_FOUND`: there is no sample to send, or a call of the
request returned that code. -/
def Node.emptyHanded (s : Node) : Prop :=
  s.pc = .sending ∧ (s.telemetry.slot.beginSend false).out = none ∨
    ∃ sample e, s.pc = .failing sample e ∧ e.1 = .notFound

/-- Unless Wi-Fi is connected anew or the server has answered, the count of failures does not
decrease and the server stays reported as unavailable. -/
def BackoffKept [Printer] (s : Node) (a : NodeAction) : Prop :=
  ∀ env, a = .network env → ¬s.reconnects env → ¬s.served →
    s.scheduler.serverBackoff.failures ≤ (s.step a).scheduler.serverBackoff.failures ∧
      (s.health .serverUnavailable = true → (s.step a).health .serverUnavailable = true)

/-- No attempt ends empty-handed while there is a failure to remember. -/
def NothingToClear (s : Node) (a : NodeAction) : Prop :=
  ∀ env, a = .network env → s.emptyHanded →
    s.scheduler.serverBackoff.failures = 0 ∧ s.health .serverUnavailable = false

/-! ## The end of an iteration -/

namespace Node

variable (s : Node) {error : EspErr} (telemetrySeconds : ℕ) (env : NetEnv)

/-- A success clears the backoff and the report. -/
theorem finish_success (h : error = .ok ∨ error = .notFound) :
    (s.finish error telemetrySeconds env).scheduler.serverBackoff.failures = 0 ∧
      (s.finish error telemetrySeconds env).health .serverUnavailable = false := by
  simp [finish, healthUpdate, NetworkScheduler.telemetryComplete, h]

/-- A failure is counted and reported. -/
theorem finish_failure (h : ¬(error = .ok ∨ error = .notFound)) :
    s.scheduler.serverBackoff.failures ≤
        (s.finish error telemetrySeconds env).scheduler.serverBackoff.failures ∧
      (s.finish error telemetrySeconds env).health .serverUnavailable = true := by
  simp only [finish, healthUpdate, NetworkScheduler.telemetryComplete, h, decide_false,
    Bool.false_eq_true, if_false, Bool.not_false, Function.update_self, and_true]
  exact s.scheduler.serverBackoff.le_fail_failures _ _

end Node

variable [Printer] {s : Node} (env : NetEnv)

/-- An attempt that ends empty-handed clears the backoff and the report. -/
theorem cleared_of_emptyHanded (h : s.emptyHanded) :
    (s.stepNetwork env).scheduler.serverBackoff.failures = 0 ∧
      (s.stepNetwork env).health .serverUnavailable = false := by
  rcases h with ⟨hpc, hout⟩ | ⟨sample, e, hpc, he⟩
  · have hstep : s.stepNetwork env = Node.finish
        { s with telemetry := s.telemetry.step (.beginSend false) } .notFound s.currentSeconds env := by
      unfold Node.stepNetwork
      rw [hpc]
      dsimp only
      rw [hout]
    rw [hstep]
    exact Node.finish_success _ _ _ (.inr rfl)
  · have hstep : s.stepNetwork env = s.complete sample e.1 s.currentSeconds env := by
      unfold Node.stepNetwork
      rw [hpc]
    rw [hstep, Node.complete, if_neg e.2]
    exact Node.finish_success _ _ _ (.inr he)

/-- Every other step keeps them. -/
theorem kept_of_not_emptyHanded (hempty : ¬s.emptyHanded) (hreconnect : ¬s.reconnects env)
    (hserved : ¬s.served) :
    s.scheduler.serverBackoff.failures ≤ (s.stepNetwork env).scheduler.serverBackoff.failures ∧
      (s.health .serverUnavailable = true →
        (s.stepNetwork env).health .serverUnavailable = true) := by
  have hmove := s.stepNetwork_moves env
  generalize s.stepNetwork env = s' at hmove ⊢
  cases hmove with
  | quiet hq => rw [hq.serverBackoff, hq.serverUnavailable]; exact ⟨le_rfl, id⟩
  | reconnect hr => exact absurd hr hreconnect
  | starve hpc hout => exact absurd (.inl ⟨hpc, hout⟩) hempty
  | begin sample hpc hout => exact ⟨le_rfl, id⟩
  | pass checked body hpc _ _ => exact ⟨le_rfl, id⟩
  | ack checked reported ids hpc => exact ⟨le_rfl, id⟩
  | accept checked item items hpc =>
    unfold Node.acceptItem
    dsimp only
    split <;> exact ⟨le_rfl, id⟩
  | fail sample e hpc =>
    have hnot : ¬(e.1 = .ok ∨ e.1 = .notFound) := by
      rintro (hok | hnotFound)
      · exact e.2 hok
      · exact hempty (.inr ⟨sample, e, hpc, hnotFound⟩)
    rw [Node.complete, if_neg e.2]
    obtain ⟨hcount, hreport⟩ := Node.finish_failure
      { s with telemetry := s.telemetry.step (.completeSend sample.sampleSequence (e.1 = .ok)) }
      s.currentSeconds env hnot
    exact ⟨hcount, fun _ => hreport⟩
  | succeed checked hpc => exact absurd ⟨checked, hpc⟩ hserved

theorem backoffKept_iff (s : Node) (a : NodeAction) : BackoffKept s a ↔ NothingToClear s a := by
  constructor
  · rintro h env rfl hempty
    have hreconnect : ¬s.reconnects env := by
      rintro ⟨hpc, -⟩
      rcases hempty with ⟨hpc', -⟩ | ⟨sample, e, hpc', -⟩ <;> rw [hpc] at hpc' <;> cases hpc'
    have hserved : ¬s.served := by
      rintro ⟨c, hpc⟩
      rcases hempty with ⟨hpc', -⟩ | ⟨sample, e, hpc', -⟩ <;> rw [hpc] at hpc' <;> cases hpc'
    obtain ⟨hcount, hreport⟩ := h env rfl hreconnect hserved
    change _ ≤ (s.stepNetwork env).scheduler.serverBackoff.failures at hcount
    change _ → (s.stepNetwork env).health .serverUnavailable = true at hreport
    obtain ⟨hzero, hclear⟩ := cleared_of_emptyHanded env hempty
    rw [hzero] at hcount
    rw [hclear] at hreport
    exact ⟨Nat.le_zero.1 hcount, by simpa using hreport⟩
  · rintro h env rfl hreconnect hserved
    by_cases hempty : s.emptyHanded
    · obtain ⟨hzero, hclear⟩ := h env rfl hempty
      rw [hzero, hclear]
      exact ⟨Nat.zero_le _, fun hf => by cases hf⟩
    · exact kept_of_not_emptyHanded env hempty hreconnect hserved

/-- **What clears the server backoff.** Along every run of the network task, between two connections
of Wi-Fi, the count of failures never decreases and the server stays reported as unavailable except
by an iteration with a verified response, exactly if no attempt ends empty-handed while there is a
failure to remember. -/
theorem backoff_kept_iff (deviceIdText bootId : List UInt8) (ledger : Ledger) (nvs : Slots Ledger)
    (nowUs : ℤ) (telemetrySeconds : ℕ) (acts : List NodeAction) :
    Along Node.step BackoffKept
        (.start deviceIdText bootId ledger nvs nowUs telemetrySeconds) acts ↔
      Along Node.step NothingToClear
        (.start deviceIdText bootId ledger nvs nowUs telemetrySeconds) acts :=
  Along.iff_of_invariant (I := fun _ => True) (fun _ _ _ _ => trivial)
    (fun s a _ => backoffKept_iff s a) trivial acts

end

/-! ## A backoff that is cleared without the server -/

namespace BackoffRun

variable [Parser] [Sha256]

/-- A step at `t` microseconds, with the link up and no answer from the server. -/
def env (t : ℤ) : NetEnv where
  nowUs _ := t
  random := 0
  wifi := none
  linkUp := true
  body := .ok []
  reply := .error .generic
  tlsFailure := none
  nowUtcMs := 0
  mallocOk := true
  fault := .none

/-- Wi-Fi is connected, a sample is offered and sent, and the request fails. -/
def failedAttempt : List NodeAction :=
  [.network (env 0), .publish (some .zero), .network (env 0), .network (env 0), .network (env 0),
    .network (env 0), .network (env 0)]

/-- Two seconds later the next attempt is due. -/
def nextAttempt : List NodeAction := [.network (env 2000000), .network (env 2000000)]

/-- It finds no sample. -/
def emptyAttempt : NodeAction := .network (env 2000000)

/-- The device at the start. -/
def start : Node := .start [] [] Ledger.zero Slots.empty 0 5

end BackoffRun

open BackoffRun in
/-- An attempt that finds no sample clears the failure of the one before it. Nothing is parsed or
printed in the run. -/
theorem empty_attempt_clears :
    ¬Along (@Node.step ⟨fun _ => none⟩ ⟨fun _ => none⟩ .standard)
      (@BackoffKept ⟨fun _ => none⟩ .standard ⟨fun _ => none⟩) (@start ⟨fun _ => none⟩)
      (@failedAttempt .standard ++ @nextAttempt .standard ++ [@emptyAttempt .standard]) := by
  intro h
  rw [along_append] at h
  have hkept := h.2.1 (@env .standard 2000000) rfl (by rintro ⟨hpc, -⟩; cases hpc)
    (by rintro ⟨c, hpc⟩; cases hpc)
  exact absurd hkept.1 (by decide)

end PowerMonitor.Telemetry
