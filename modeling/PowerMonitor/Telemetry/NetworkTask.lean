import PowerMonitor.Commands.Calls
import PowerMonitor.Telemetry.Response
import PowerMonitor.Telemetry.Scheduler

/-!
# The network task

The loop of `network_task` and the telemetry exchange inside it, as one machine. An action is one
step of the task, from one access to shared data to the next, or what another task does in between:
the meter task offers a sample, some task changes the command ledger, or the configuration is
replaced. What the network, the clock and the ledger's NVS answer is part of the step (`NetEnv`); in
particular a request can be answered by any text at all, an earlier response included.

A response that passed `validate_telemetry_response` is a `Checked`, and the steps that apply a
response carry one: there is no other way to reach them. The `applied` field of `Node` records them
for the statements; no step reads it.
-/

namespace PowerMonitor.Telemetry

open CMemory AbStore CJson Commands Runs

/-- `pm_network_health_flag_t`. -/
inductive HealthFlag
  | tlsValidationFailure | wifiRepeatedFailure | serverUnavailable | otaFailed | otaRolledBack
  deriving DecidableEq

variable [Parser]

/-- A response that was found to answer the sample. -/
structure Checked where
  deviceIdText : List UInt8
  bootId : List UInt8
  sample : TelemetrySample
  response : List UInt8
  seconds : ℕ
  valid : validateTelemetryResponse deviceIdText bootId sample response = .ok seconds

/-- Where the network task stands. From `serializing` to `completing` it is inside
`send_current_telemetry`, past its first critical section; power can be lost under an accept. -/
inductive TaskPc
  | looping
  | linked
  | sending
  | serializing (sample : TelemetrySample)
  | requesting (sample : TelemetrySample) (body : List UInt8)
  | validating (sample : TelemetrySample) (body response : List UInt8)
  | notifying (checked : Checked) (ids : List (List UInt8))
  | parsing (checked : Checked) (items : List CommandItem)
  | failing (sample : TelemetrySample) (e : Failure)
  | succeeding (checked : Checked)
  | off (checked : Checked)

namespace TaskPc

/-- The sample that is being sent. -/
def sample? : TaskPc → Option TelemetrySample
  | serializing x | requesting x _ | validating x _ _ | failing x _ => some x
  | notifying c _ | parsing c _ | succeeding c | off c => some c.sample
  | looping | linked | sending => none

/-- The response that is being applied. -/
def checked? : TaskPc → Option Checked
  | notifying c _ | parsing c _ | succeeding c | off c => some c
  | _ => none

theorem sample_of_checked {pc : TaskPc} {c : Checked} (h : pc.checked? = some c) :
    pc.sample? = some c.sample := by
  cases pc <;> cases h <;> rfl

end TaskPc

/-- The state the network task works on. -/
structure Node where
  /-- The telemetry slot, with its history. -/
  telemetry : History
  deviceIdText : List UInt8
  bootId : List UInt8
  /-- The flags of the health word, each on its own: an update of the word is taken as atomic. -/
  health : HealthFlag → Bool
  ledger : Ledger
  nvs : Slots Ledger
  /-- The calls of the result callback. -/
  acked : List (List UInt8)
  /-- The calls of the command callback. -/
  received : List EntryIndex
  scheduler : NetworkScheduler
  wifiBackoff : TelemetryBackoff
  connected : Bool
  pc : TaskPc
  /-- The responses that were applied, oldest first. -/
  applied : List Checked

variable [Printer] [Sha256]

/-- What a step of the network task meets. -/
structure NetEnv where
  /-- `esp_timer_get_time ()`, at each of the calls a step makes. -/
  nowUs : ℕ → ℤ
  /-- `esp_random ()`. -/
  random : ℕ
  /-- `connect_wifi_bounded ()`. -/
  wifi : Option Failure
  /-- `PM_WIFI_CONNECTED_BIT`. -/
  linkUp : Bool
  /-- The telemetry body, or why there is none. -/
  body : Except Failure (List UInt8)
  /-- The verified response, or why there is none. -/
  reply : Except Failure (List UInt8)
  /-- What `signed_request` makes of `PM_HEALTH_TLS_VALIDATION_FAILURE`, if it gets that far. -/
  tlsFailure : Option Bool
  /-- `time (NULL) * 1000`. -/
  nowUtcMs : ℤ
  mallocOk : Bool
  /-- What the `persist` of an accept meets. -/
  fault : LedgerFault

/-- Who does what. -/
inductive NodeAction
  /-- `pm_network_publish_live`. -/
  | publish (sample : Option MeterSample)
  /-- Other tasks change the command ledger. -/
  | others (ledger : Ledger) (nvs : Slots Ledger)
  /-- `pm_network_apply_runtime_config`. -/
  | configure (deviceIdText : List UInt8)
  | network (env : NetEnv)

namespace Node

/-- The network task starts on an initialised slot. -/
def start (deviceIdText bootId : List UInt8) (ledger : Ledger) (nvs : Slots Ledger) (nowUs : ℤ)
    (telemetrySeconds : ℕ) : Node where
  telemetry := .start
  deviceIdText := deviceIdText
  bootId := bootId
  health _ := false
  ledger := ledger
  nvs := nvs
  acked := []
  received := []
  scheduler := .init nowUs telemetrySeconds
  wifiBackoff := .reset nowUs
  connected := false
  pc := .looping
  applied := []

/-- `pm_network_health_update`. -/
def healthUpdate (s : Node) (flag : HealthFlag) (active : Bool) : Node :=
  { s with health := Function.update s.health flag active }

omit [Printer] [Sha256] in
theorem healthUpdate_of_ne (s : Node) {flag other : HealthFlag} (active : Bool) (h : other ≠ flag) :
    (s.healthUpdate flag active).health other = s.health other := Function.update_of_ne h _ _

/-- `connect_wifi_bounded` and what follows it, at the top of the loop. -/
def connect (s : Node) (env : NetEnv) : Node :=
  match env.wifi with
  | some _ =>
    let wifiBackoff := s.wifiBackoff.fail (env.nowUs 1) env.random
    healthUpdate { s with wifiBackoff := wifiBackoff } .wifiRepeatedFailure
      (3 ≤ wifiBackoff.failures)
  | none =>
    healthUpdate
      { s with
        connected := true
        wifiBackoff := .reset (env.nowUs 1)
        scheduler := { s.scheduler with
          serverBackoff := .reset (env.nowUs 2)
          nextTelemetryUs := env.nowUs 3 }
        pc := .linked }
      .wifiRepeatedFailure false

/-- The end of an iteration of the loop in which `send_current_telemetry` returned `error` and left
`telemetrySeconds` in its variable. -/
def finish (s : Node) (error : EspErr) (telemetrySeconds : ℕ) (env : NetEnv) : Node :=
  let period : ℤ := if error = .ok ∧ 2 ≤ telemetrySeconds ∧ telemetrySeconds ≤ 60 then
    telemetrySeconds * 1000000 else s.scheduler.telemetryPeriodUs
  let success : Bool := error = .ok ∨ error = .notFound
  healthUpdate
    { s with
      scheduler := NetworkScheduler.telemetryComplete
        { s.scheduler with telemetryPeriodUs := period } (env.nowUs 1) success env.random
      pc := .looping }
    .serverUnavailable (!success)

/-- The value `telemetry_seconds` has before `send_current_telemetry`. -/
def currentSeconds (s : Node) : ℕ := (s.scheduler.telemetryPeriodUs.tdiv 1000000 % 2 ^ 32).toNat

/-- The second critical section of `send_current_telemetry`, and its return. -/
def complete (s : Node) (sample : TelemetrySample) (error : EspErr) (telemetrySeconds : ℕ)
    (env : NetEnv) : Node :=
  let accepted : Bool := error = .ok
  let completeError := (s.telemetry.slot.completeSend sample.sampleSequence accepted).1
  finish { s with telemetry := s.telemetry.step (.completeSend sample.sampleSequence accepted) }
    (if error = .ok then completeError else error) telemetrySeconds env

/-- `parse_commands` for one item whose time has come: `pm_command_accept`, and the command callback
when it stores a new command. -/
def acceptItem (s : Node) (checked : Checked) (item : CommandItem) (items : List CommandItem)
    (env : NetEnv) : Node :=
  let a := commandAccept s.ledger (parsedCommand item env.nowUtcMs) env.nowUtcMs env.mallocOk s.nvs
    env.fault
  match a.outcome.result with
  | none => { s with nvs := a.outcome.nvs, pc := .off checked }
  | some e =>
    { s with
      ledger := a.outcome.ledger
      nvs := a.outcome.nvs
      received := if e = .ok ∧ a.duplicate = false then s.received ++ a.stored.toList else s.received
      pc := .parsing checked items }

/-- One step of `network_task`. -/
def stepNetwork (s : Node) (env : NetEnv) : Node :=
  match s.pc with
  | .looping =>
    if s.connected then { s with pc := .linked }
    else if s.wifiBackoff.due (env.nowUs 0) then s.connect env
    else s
  | .linked =>
    if !env.linkUp then { s with connected := false, pc := .looping }
    else if s.scheduler.telemetryDue (env.nowUs 1) then
      { s with scheduler := { s.scheduler with requestInProgress := true }, pc := .sending }
    else { s with pc := .looping }
  | .sending =>
    match (s.telemetry.slot.beginSend false).out with
    | none =>
      finish { s with telemetry := s.telemetry.step (.beginSend false) } .notFound s.currentSeconds
        env
    | some sample =>
      { s with telemetry := s.telemetry.step (.beginSend false), pc := .serializing sample }
  | .serializing sample =>
    match env.body with
    | .error e => { s with pc := .failing sample e }
    | .ok body => { s with pc := .requesting sample body }
  | .requesting sample body =>
    let s := match env.tlsFailure with
      | none => s
      | some active => s.healthUpdate .tlsValidationFailure active
    match env.reply with
    | .error e => { s with pc := .failing sample e }
    | .ok response => { s with pc := .validating sample body response }
  | .validating sample body response =>
    match h : validateTelemetryResponse s.deviceIdText s.bootId sample response with
    | .error e => { s with pc := .failing sample e }
    | .ok seconds =>
      let checked : Checked := ⟨s.deviceIdText, s.bootId, sample, response, seconds, h⟩
      { s with pc := .notifying checked (reportedIds body), applied := s.applied ++ [checked] }
  | .notifying checked ids =>
    match ids with
    | [] => { s with pc := .parsing checked (responseCommands checked.response) }
    | id :: ids => { s with acked := s.acked ++ [id], pc := .notifying checked ids }
  | .parsing checked items =>
    match items with
    | [] => { s with pc := .succeeding checked }
    | item :: items =>
      if item.notBeforeUtcMs ≤ env.nowUtcMs then s.acceptItem checked item items env
      else { s with pc := .parsing checked items }
  | .failing sample e => s.complete sample e.1 s.currentSeconds env
  | .succeeding checked => s.complete checked.sample .ok checked.seconds env
  | .off _ => s

/-- One action. -/
def step (s : Node) : NodeAction → Node
  | .publish sample => { s with telemetry := s.telemetry.step (.offer sample) }
  | .others ledger nvs => { s with ledger := ledger, nvs := nvs }
  | .configure deviceIdText => { s with deviceIdText := deviceIdText }
  | .network env => s.stepNetwork env

end Node

/-! ## What a step does -/

/-- Nothing that the statements speak about changes, except where the task stands. -/
structure Quiet (s s' : Node) : Prop where
  telemetry : s'.telemetry = s.telemetry
  bootId : s'.bootId = s.bootId
  ledger : s'.ledger = s.ledger
  nvs : s'.nvs = s.nvs
  acked : s'.acked = s.acked
  received : s'.received = s.received
  applied : s'.applied = s.applied
  serverBackoff : s'.scheduler.serverBackoff = s.scheduler.serverBackoff
  period : s'.scheduler.telemetryPeriodUs = s.scheduler.telemetryPeriodUs
  serverUnavailable : s'.health .serverUnavailable = s.health .serverUnavailable
  sample : s'.pc.sample? = s.pc.sample?
  checked : s'.pc.checked? = s.pc.checked?

/-- The task stands at the top of the loop, not connected, and `connect_wifi_bounded` succeeds. -/
def Node.reconnects (s : Node) (env : NetEnv) : Prop :=
  s.pc = .looping ∧ s.connected = false ∧ s.wifiBackoff.due (env.nowUs 0) = true ∧ env.wifi = none

/-- What one step of the network task does. -/
inductive NetMove (s : Node) (env : NetEnv) : Node → Prop
  | quiet {s' : Node} (h : Quiet s s') : NetMove s env s'
  | reconnect (h : s.reconnects env) : NetMove s env (s.connect env)
  | starve (hpc : s.pc = .sending) (hout : (s.telemetry.slot.beginSend false).out = none) :
      NetMove s env (Node.finish { s with telemetry := s.telemetry.step (.beginSend false) }
        .notFound s.currentSeconds env)
  | begin (sample : TelemetrySample) (hpc : s.pc = .sending)
      (hout : (s.telemetry.slot.beginSend false).out = some sample) :
      NetMove s env
        { s with telemetry := s.telemetry.step (.beginSend false), pc := .serializing sample }
  | pass (checked : Checked) (body : List UInt8)
      (hpc : s.pc = .validating checked.sample body checked.response)
      (hdevice : checked.deviceIdText = s.deviceIdText) (hboot : checked.bootId = s.bootId) :
      NetMove s env
        { s with pc := .notifying checked (reportedIds body), applied := s.applied ++ [checked] }
  | ack (checked : Checked) (id : List UInt8) (ids : List (List UInt8))
      (hpc : s.pc = .notifying checked (id :: ids)) :
      NetMove s env { s with acked := s.acked ++ [id], pc := .notifying checked ids }
  | accept (checked : Checked) (item : CommandItem) (items : List CommandItem)
      (hpc : s.pc = .parsing checked (item :: items)) :
      NetMove s env (s.acceptItem checked item items env)
  | fail (sample : TelemetrySample) (e : Failure) (hpc : s.pc = .failing sample e) :
      NetMove s env (s.complete sample e.1 s.currentSeconds env)
  | succeed (checked : Checked) (hpc : s.pc = .succeeding checked) :
      NetMove s env (s.complete checked.sample .ok checked.seconds env)

section

variable {s : Node} {env : NetEnv}

omit [Printer] in
/-- A step that only moves the task on. -/
theorem NetMove.goto {pc : TaskPc} (hsample : pc.sample? = s.pc.sample?)
    (hchecked : pc.checked? = s.pc.checked?) : NetMove s env { s with pc := pc } :=
  .quiet ⟨rfl, rfl, rfl, rfl, rfl, rfl, rfl, rfl, rfl, rfl, hsample, hchecked⟩

omit [Printer] in
/-- `signed_request` leaves nothing but the TLS flag behind. -/
theorem NetMove.request {sample : TelemetrySample} {body : List UInt8} {pc : TaskPc}
    (hpc : s.pc = .requesting sample body) (hsample : pc.sample? = some sample)
    (hchecked : pc.checked? = none) (tlsFailure : Option Bool) :
    NetMove s env { (match tlsFailure with
      | none => s
      | some active => s.healthUpdate .tlsValidationFailure active) with pc := pc } := by
  have hs : s.pc.sample? = some sample ∧ s.pc.checked? = none := by
    rw [hpc]
    exact ⟨rfl, rfl⟩
  cases tlsFailure with
  | none => exact .goto (hsample.trans hs.1.symm) (hchecked.trans hs.2.symm)
  | some active =>
    have hserver : (s.healthUpdate .tlsValidationFailure active).health .serverUnavailable =
        s.health .serverUnavailable := s.healthUpdate_of_ne active (by decide)
    exact .quiet ⟨rfl, rfl, rfl, rfl, rfl, rfl, rfl, rfl, rfl, hserver,
      hsample.trans hs.1.symm, hchecked.trans hs.2.symm⟩

theorem Node.stepNetwork_moves (s : Node) (env : NetEnv) : NetMove s env (s.stepNetwork env) := by
  unfold stepNetwork
  split
  next hpc =>
    -- the top of the loop
    split
    · exact .goto (by rw [hpc]; rfl) (by rw [hpc]; rfl)
    next hconnected =>
      split
      next hdue =>
        cases hwifi : env.wifi with
        | none => exact .reconnect ⟨hpc, by simpa using hconnected, hdue, hwifi⟩
        | some e =>
          simp only [connect, hwifi]
          exact .quiet ⟨rfl, rfl, rfl, rfl, rfl, rfl, rfl, rfl, rfl,
            healthUpdate_of_ne _ _ (by decide), rfl, rfl⟩
      · exact .quiet ⟨rfl, rfl, rfl, rfl, rfl, rfl, rfl, rfl, rfl, rfl, rfl, rfl⟩
  next hpc =>
    -- connected: the event bits and the deadlines
    split
    · exact .quiet ⟨rfl, rfl, rfl, rfl, rfl, rfl, rfl, rfl, rfl, rfl, by rw [hpc]; rfl,
        by rw [hpc]; rfl⟩
    split
    · exact .quiet ⟨rfl, rfl, rfl, rfl, rfl, rfl, rfl, rfl, rfl, rfl, by rw [hpc]; rfl,
        by rw [hpc]; rfl⟩
    · exact .goto (by rw [hpc]; rfl) (by rw [hpc]; rfl)
  next hpc =>
    split
    next hout => exact .starve hpc hout
    next sample hout => exact .begin sample hpc hout
  next sample hpc =>
    split <;> exact .goto (by rw [hpc]; rfl) (by rw [hpc]; rfl)
  next sample body hpc =>
    dsimp only
    split
    · exact .request hpc rfl rfl env.tlsFailure
    · exact .request hpc rfl rfl env.tlsFailure
  next sample body response hpc =>
    split
    · exact .goto (by rw [hpc]; rfl) (by rw [hpc]; rfl)
    next seconds hvalid =>
      exact .pass ⟨s.deviceIdText, s.bootId, sample, response, seconds, hvalid⟩ body hpc rfl rfl
  next checked ids hpc =>
    split
    · exact .goto (by rw [hpc]; rfl) (by rw [hpc]; rfl)
    next id ids => exact .ack checked id ids hpc
  next checked items hpc =>
    split
    · exact .goto (by rw [hpc]; rfl) (by rw [hpc]; rfl)
    next item items =>
      split
      · exact .accept checked item items hpc
      · exact .goto (by rw [hpc]; rfl) (by rw [hpc]; rfl)
  next sample e hpc => exact .fail sample e hpc
  next checked hpc => exact .succeed checked hpc
  · exact .quiet ⟨rfl, rfl, rfl, rfl, rfl, rfl, rfl, rfl, rfl, rfl, rfl, rfl⟩

end

end PowerMonitor.Telemetry
