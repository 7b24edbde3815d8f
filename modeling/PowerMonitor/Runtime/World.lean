import PowerMonitor.Commands.Frame
import PowerMonitor.Foundations.Runs
import PowerMonitor.Ota.Install

/-!
# The running firmware

`app_main_stateless.c` and the telemetry exchange of `pm_network_v2.c` as one machine. Four kinds of
task share the command ledger: `app_main`, which loads and reconciles it; the control task, which
executes commands; the network task, which reports results and accepts commands; and the OTA tasks
the control task creates. Each of them is a program counter of its own, and an action moves one of
them by one step or cuts the power.

A step is as long as the source keeps others out: a call into the ledger happens under the command
mutex and is one step, `execute_command` and `reconcile_interrupted_commands` hold that mutex over
several, and everything else is one call. What calls into ESP-IDF answer is part of the action
(`Env`), so every failure and every interleaving is the run of some list of actions.

The last four fields of `World` record the past for the statements about it; no step reads them.
-/

namespace PowerMonitor.Runtime

open CMemory AbStore CJson Commands Ota

/-- An item of the command queue: the pointer to an entry. The command it was queued for is kept
beside it for the statements. -/
structure Queued where
  index : EntryIndex
  command : Command

/-- Results of commands: the identity and the state of each. -/
abbrev Results := List (List UInt8 × CommandState)

/-- The results of a telemetry body: the identity and the state of each command, where either is
missing when cJSON had no memory to add it. -/
abbrev Body := List (Option (List UInt8) × Option CommandState)

/-- The results that a body carries whole. -/
def Body.carried (body : Body) : Results :=
  body.filterMap fun r => r.1.bind fun id => r.2.map fun state => (id, state)

/-- The identities that `notify_result_acceptance` reads in a body. -/
def Body.ids (body : Body) : List (List UInt8) :=
  (body.filterMap Prod.fst).filter fun id => id.length = 36

/-- A telemetry request. What its body was made of is kept beside it for the statements: the ledger,
the entries whose identity and state could be added, and the commands that its response has stored
since. -/
structure Sent where
  body : Body
  ledger : Ledger
  added : EntryIndex → Bool
  stored : List (List UInt8)

/-- The results that the request carried, without those of commands stored since. -/
def Sent.answered (sent : Sent) : Results := sent.body.carried.filter fun r => r.1 ∉ sent.stored

/-! ## Program counters -/

/-- Where `app_main` stands. -/
inductive MainPc
  | booting
  | starting
  | validating (s : Validate)
  | loading
  | locking (c : Checkpoint)
  | reconciling (c : Checkpoint) (i : ℕ)
  | restarting
  | started
  | halted

/-- Where the control task stands; from `starting` on it is in `execute_command`. -/
inductive ControlPc
  | stopped
  | polling
  | acking
  | receiving
  | starting (i : EntryIndex)
  | running (i : EntryIndex)
  | claiming (i : EntryIndex)
  | spawning (i : EntryIndex)
  | releasing (i : EntryIndex) (result : EspErr) (claimed : Bool)
  | finishing (i : EntryIndex) (result : EspErr)
  | restarting (i : EntryIndex)

/-- Where the network task stands in `send_current_telemetry`, with the request it sent. -/
inductive NetworkPc
  | stopped
  | idle
  | awaiting (sent : Sent)
  | notifying (answered : Sent) (ids : List (List UInt8)) (items : List CommandItem)
  | parsing (answered : Sent) (items : List CommandItem)
  | delivering (answered : Sent) (q : Queued) (items : List CommandItem)

/-- Where an OTA task stands. -/
inductive TaskPc
  | parsing
  | installing (m : Manifest) (s : Install)
  | announcing
  | restarting
  | cancelling (e : EspErr) (s : Cancel)
  | settling (e : EspErr)
  | releasing

/-- An OTA task and the entry of its command. -/
structure OtaTask where
  index : EntryIndex
  pc : TaskPc

/-- The command mutex is held by `app_main`. -/
def MainPc.locked : MainPc → Bool
  | reconciling _ _ => true
  | _ => false

/-- The command mutex is held by the control task. -/
def ControlPc.locked : ControlPc → Bool
  | acking | running _ | claiming _ | spawning _ | releasing _ _ _ | finishing _ _ => true
  | _ => false

/-! ## The state -/

/-- The flash and the RAM of the device. -/
structure World where
  /-- The slots of the NVS namespace `pm_commands`. -/
  nvs : Slots Ledger
  flash : OtaFlash
  ledger : Ledger
  queue : List Queued
  acks : List (List UInt8)
  otaActive : Bool
  main : MainPc
  control : ControlPc
  network : NetworkPc
  tasks : List OtaTask
  /-- How often the command in an entry was received from the queue since it was accepted, in this
  boot. -/
  dequeued : EntryIndex → ℕ
  /-- The reboot commands that have restarted the device since they were accepted. -/
  rebooted : List (List UInt8)
  /-- The results a verified response has answered since their command was accepted. -/
  delivered : Results
  /-- The command whose OTA task was the last to select the image it installed. -/
  selected : Option Command

/-- The depth of the command queue and of the acknowledgement queue. -/
abbrev queueDepth : ℕ := ledgerSize

namespace World

/-- A device that starts on the given flash. -/
def start (nvs : Slots Ledger) (flash : OtaFlash) : World where
  nvs := nvs
  flash := flash
  ledger := Ledger.zero
  queue := []
  acks := []
  otaActive := false
  main := .booting
  control := .stopped
  network := .stopped
  tasks := []
  dequeued _ := 0
  rebooted := []
  delivered := []
  selected := none

/-- A reset: the bootloader chooses an image, and RAM is gone. -/
def reset (w : World) (env : BootEnv) : World :=
  { start w.nvs (w.flash.boot env) with
    rebooted := w.rebooted, delivered := w.delivered, selected := w.selected }

/-- Some task holds the command mutex. -/
def locked (w : World) : Bool := w.main.locked || w.control.locked

end World

variable [Sha256]

/-- What the environment answers in one step. -/
structure Env where
  /-- What the `persist` of a ledger call meets. -/
  fault : LedgerFault := .none
  mallocOk : Bool := true
  /-- The first other call of the step that fails. -/
  answer : Option Failure := none
  /-- The tasks of the runtime report ready in time. -/
  ready : Bool := true
  ota : OtaEnv := {}
  /-- The text a self test reports. -/
  text : List UInt8 := []
  /-- Whether cJSON has the memory to add the results to a body, and the identity and the state to
  the result of an entry. -/
  addsResults : Bool := true
  addsId : EntryIndex → Bool := fun _ => true
  addsState : EntryIndex → Bool := fun _ => true
  /-- Whether cJSON has the memory to parse that body again. -/
  reparsed : Bool := true
  /-- The commands of a verified response. -/
  items : List CommandItem := []
  /-- `time (NULL) * 1000`. -/
  now : ℤ := 0
  /-- The server origin and the device identity of the authentication snapshot. -/
  serverOrigin : List UInt8 := []
  deviceId : List UInt8 := []

/-- Who moves. -/
inductive Actor
  | main
  | control
  | network
  | ota (k : ℕ)
  | power
  deriving DecidableEq

structure Action where
  actor : Actor
  env : Env := {}

namespace World

/-- One ledger call under the mutex, continued by `k` with its result. -/
def call (w : World) (c : Call) (env : Env) (k : EspErr → World → World) : World :=
  let o := c.perform w.ledger w.nvs env.fault
  match o.result with
  | none => reset { w with nvs := o.nvs } env.ota.boot
  | some e => k e { w with ledger := o.ledger, nvs := o.nvs }

/-- `snprintf (command->result_text, ...)`. -/
def writeText (w : World) (i : EntryIndex) (text : List UInt8) : World :=
  { w with ledger := w.ledger.setEntry i { w.ledger.entries i with
      resultText := (w.ledger.entries i).resultText.print text } }

/-! ## The control task -/

/-- `execute_command` once the command is running: what its type asks for. -/
def execute (w : World) (i : EntryIndex) (env : Env) : World :=
  match (w.ledger.entries i).type with
  | .reboot =>
    w.call (.transition i .awaitingReboot 100 EspErr.ok.code env.mallocOk) env fun e w =>
      { w with control := if e = .ok then .restarting i else .finishing i e }
  | .diagnosticsSnapshot => { w.writeText i env.text with control := .finishing i .ok }
  | .networkSelfTest =>
    { w.writeText i (ascii "outbound_telemetry_retry_active") with control := .finishing i .ok }
  | .meterSelfTest =>
    { w.writeText i env.text with
      control := .finishing i ((env.answer.map Subtype.val).getD .ok) }
  | .otaInstall => { w with control := .claiming i }
  | _ => { w with control := .finishing i .notSupported }

/-- `control_task` and `execute_command`. -/
def stepControl (w : World) (env : Env) : World :=
  match w.control with
  | .stopped => w
  | .polling => if w.main.locked then w else { w with control := .acking }
  | .acking =>
    match w.acks with
    | [] => { w with control := .receiving }
    | id :: acks =>
      call { w with acks := acks } (.acknowledgeResult id) env fun _ w => w
  | .receiving =>
    match w.queue with
    | [] => { w with control := .polling }
    | q :: queue =>
      { w with
        queue := queue
        control := .starting q.index
        dequeued := Function.update w.dequeued q.index (w.dequeued q.index + 1) }
  | .starting i =>
    if w.main.locked then w
    else w.call (.transition i .running 1 EspErr.ok.code env.mallocOk) env fun _ w =>
      { w with control := .running i }
  | .running i => w.execute i env
  | .claiming i =>
    -- `claim_ota_task`
    if w.otaActive then { w with control := .releasing i .invalidState false }
    else { w with otaActive := true, control := .spawning i }
  | .spawning i =>
    -- the context, the authentication snapshot and `xTaskCreate`
    match env.answer with
    | some e => { w with control := .releasing i e.1 true }
    | none => { w with tasks := w.tasks ++ [⟨i, .parsing⟩], control := .polling }
  | .releasing i e _ => { w with otaActive := false, control := .finishing i e }
  | .finishing i e =>
    w.call (.transition i (if e = .ok then .succeeded else .failed)
      (if e = .ok then 100 else (w.ledger.entries i).progressPercent) e.code env.mallocOk) env
      fun _ w => { w with control := .polling }
  | .restarting i =>
    reset { w with rebooted := (w.ledger.entries i).commandId.str :: w.rebooted } env.ota.boot

/-! ## The network task -/

/-- `command_result_state`: the states a telemetry body reports. -/
def resultState : CommandState → Bool
  | .accepted | .running | .succeeded | .failed | .awaitingReboot | .rolledBack => true
  | _ => false

/-- The entries of the ledger that `append_command_results` reports. -/
def reportable (l : Ledger) : List EntryIndex :=
  (List.finRange ledgerSize).filter fun i =>
    (l.entries i).commandId.str.length = 36 ∧ resultState (l.entries i).state

/-- The identities and states of the reported commands. -/
def commandResults (l : Ledger) : Results :=
  (reportable l).map fun i => ((l.entries i).commandId.str, (l.entries i).state)

/-- `append_command_results`, and the addition of the results to the body. -/
def serializedResults (l : Ledger) (env : Env) : Body :=
  if env.addsResults then (reportable l).map fun i =>
    (if env.addsId i then some (l.entries i).commandId.str else none,
      if env.addsState i then some (l.entries i).state else none)
  else []

/-- The request of `send_current_telemetry`. -/
def serialize (l : Ledger) (env : Env) : Sent where
  body := serializedResults l env
  ledger := l
  added i := env.addsResults && env.addsId i && env.addsState i
  stored := []

/-- The results without those of the command `id`. -/
def without (r : Results) (id : List UInt8) : Results := r.filter fun x => x.1 ≠ id

/-- `parse_commands` for one item: `pm_command_accept`, under the mutex. -/
def acceptItem (w : World) (answered : Sent) (item : CommandItem) (items : List CommandItem)
    (env : Env) : World :=
  let incoming := parsedCommand item env.now
  let a := commandAccept w.ledger incoming env.now env.mallocOk w.nvs env.fault
  -- what was known of a command of this identity is about another acceptance from now on
  let stored := (Call.accept incoming env.now env.mallocOk).proceeds w.ledger
  let answered := if stored then { answered with stored := item.commandId :: answered.stored }
    else answered
  let w := { w with
    nvs := a.outcome.nvs
    delivered := if stored then without w.delivered item.commandId else w.delivered }
  match a.outcome.result with
  | none => w.reset env.ota.boot
  | some e =>
    let w := { w with ledger := a.outcome.ledger }
    match a.stored with
    | some i =>
      if e = .ok ∧ a.duplicate = false then
        { w with
          network := .delivering answered ⟨i, a.outcome.ledger.entries i⟩ items
          dequeued := Function.update w.dequeued i 0
          rebooted := w.rebooted.filter (· ≠ item.commandId) }
      else { w with network := .parsing answered items }
    | none => { w with network := .parsing answered items }

/-- `send_current_telemetry`. -/
def stepNetwork (w : World) (env : Env) : World :=
  match w.network with
  | .stopped => w
  | .idle =>
    if w.locked then w
    else
      match env.answer with
      | some _ => w
      | none => { w with network := .awaiting (serialize w.ledger env) }
  | .awaiting sent =>
    match env.answer with
    | some _ => { w with network := .idle }
    | none =>
      { w with
        delivered := sent.body.carried ++ w.delivered
        network := .notifying sent (if env.reparsed then sent.body.ids else []) env.items }
  | .notifying answered ids items =>
    match ids with
    | [] => { w with network := .parsing answered items }
    | id :: ids =>
      { w with
        acks := if w.acks.length < queueDepth then w.acks ++ [id] else w.acks
        network := .notifying answered ids items }
  | .parsing answered items =>
    match items with
    | [] => { w with network := .idle }
    | item :: items =>
      if env.now < item.notBeforeUtcMs then { w with network := .parsing answered items }
      else if w.locked then w
      else w.acceptItem answered item items env
  | .delivering answered q items =>
    -- `command_received`: an item that finds no room is dropped
    { w with
      queue := if w.queue.length < queueDepth then w.queue ++ [q] else w.queue
      network := .parsing answered items }

/-! ## `app_main` -/

/-- What an OTA command is reconciled to: `reconcile_interrupted_commands` on
`PM_COMMAND_BOOT_RECONCILE_OTA`. -/
def otaOutcome (c : Checkpoint) : CommandState × ℤ × List UInt8 :=
  let code := if c.lastError = EspErr.ok.code then EspErr.invalidState.code else c.lastError
  match c.stage with
  | .valid => (.succeeded, EspErr.ok.code, ascii "ota_post_boot_valid")
  | .rolledBack => (.rolledBack, code, ascii "ota_rolled_back")
  | _ => (.failed, code, ascii "ota_outcome_unavailable")

/-- What boot reconciliation moves an entry to, unless it is ignored or queued again. -/
def bootOutcome (c : Checkpoint) : BootAction → Option (CommandState × ℤ × List UInt8)
  | .failInterrupted =>
    some (.failed, EspErr.invalidState.code, ascii "interrupted_by_reboot")
  | .completeReboot => some (.succeeded, EspErr.ok.code, ascii "reboot_observed")
  | .reconcileOta => some (otaOutcome c)
  | .requeue | .ignore => none

/-- One round of the loop of `reconcile_interrupted_commands`. -/
def reconcileEntry (w : World) (c : Checkpoint) (i : EntryIndex) (env : Env) : World :=
  let next := MainPc.reconciling c (i.val + 1)
  let command := w.ledger.entries i
  if !command.occupied then { w with main := next }
  else
    match bootOutcome c (commandBootAction command) with
    | some (state, code, text) =>
      w.call (.reconcileBoot i state code text env.mallocOk) env fun e w =>
        { w with main := if e = .ok then next else .restarting }
    | none =>
      if commandBootAction command = .requeue then
        if w.queue.length < queueDepth then
          { w with queue := w.queue ++ [⟨i, command⟩], main := next }
        else { w with main := .restarting }
      else { w with main := next }

/-- `app_main`. -/
def stepMain (w : World) (env : Env) : World :=
  match w.main with
  | .booting =>
    match env.answer with
    | some _ => { w with main := .halted }
    | none =>
      let l := pmCommandsLoad w.nvs env.fault
      match l.result with
      | none => reset { w with nvs := l.nvs } env.ota.boot
      | some e =>
        if e = .ok then { w with nvs := l.nvs, ledger := l.ledger, main := .starting }
        else { w with nvs := l.nvs, main := .halted }
  | .starting =>
    match env.answer with
    | some _ => { w with main := .halted }
    | none =>
      { w with
        main := if env.ready then .validating .checking else .restarting
        control := .polling }
  | .validating (.returned e) => { w with main := if e = .ok then .loading else .restarting }
  | .validating s =>
    let r := s.step w.flash env.ota
    match r.next with
    | none => reset { w with flash := r.flash } env.ota.boot
    | some s => { w with flash := r.flash, main := .validating s }
  | .loading =>
    let l := pmOtaLoadCheckpoint w.flash.checkpoints env.ota.load
    let w := { w with flash := { w.flash with checkpoints := l.slots } }
    match l.result with
    | none => w.reset env.ota.boot
    | some e => { w with main := if e = .ok then .locking l.checkpoint else .restarting }
  | .locking c => if w.control.locked then w else { w with main := .reconciling c 0 }
  | .reconciling c i =>
    if h : i < ledgerSize then w.reconcileEntry c ⟨i, h⟩ env
    else { w with main := .started, network := .idle }
  | .restarting => w.reset env.ota.boot
  | .started | .halted => w

/-! ## The OTA tasks -/

/-- The task at position `k` goes on to `pc`. -/
def setTask (w : World) (k : ℕ) (t : OtaTask) (pc : TaskPc) : World :=
  { w with tasks := w.tasks.set k { t with pc := pc } }

/-- `ota_progress`, when the step of the install reports. -/
def progress (w : World) (i : EntryIndex) (report : Option (ℕ × OtaStage)) (env : Env)
    (k : World → World) : World :=
  match report with
  | none => k w
  | some (percent, stage) =>
    (w.writeText i (ascii s!"ota_stage={stage.value}")).call
      (.transition i .running percent EspErr.ok.code env.mallocOk) env fun _ w => k w

variable [Parser] [Base64]

/-- `ota_task`. -/
def stepTask (w : World) (k : ℕ) (env : Env) : World :=
  match w.tasks[k]? with
  | none => w
  | some t =>
    let i := t.index
    match t.pc with
    | .parsing =>
      match pmOtaManifestParsePayload (w.ledger.entries i).payload.str env.serverOrigin
          env.deviceId with
      | .error e => w.setTask k t (.cancelling e .selecting)
      | .ok m =>
        -- `pm_time_now`
        match env.answer with
        | some _ => w.setTask k t (.cancelling .invalidState .selecting)
        | none => w.setTask k t (.installing m (.start m))
    | .installing m s =>
      match s.pc with
      | .returned e =>
        w.setTask k t (if e = .ok then .announcing else .cancelling e .selecting)
      | _ =>
        if (s.report? m).isSome ∧ w.locked then w
        else w.progress i (s.report? m) env fun w =>
          let r := s.step m w.flash env.ota
          let w := { w with
            flash := r.flash
            selected := if s.pc = InstallPc.selecting then some (w.ledger.entries i) else w.selected }
          match r.next with
          | none => w.reset env.ota.boot
          | some s => w.setTask k t (.installing m s)
    | .announcing =>
      if w.locked then w
      else w.call (.transition i .awaitingReboot 100 EspErr.ok.code env.mallocOk) env fun e w =>
        w.setTask k t (if e = .ok then .restarting else .cancelling e .selecting)
    | .restarting => w.reset env.ota.boot
    | .cancelling e (.returned _) => w.setTask k t (.settling e)
    | .cancelling e s =>
      let r := s.step e w.flash env.ota
      match r.next with
      | none => reset { w with flash := r.flash } env.ota.boot
      | some s => setTask { w with flash := r.flash } k t (.cancelling e s)
    | .settling e =>
      if w.locked then w
      else w.call (.transition i .failed (w.ledger.entries i).progressPercent e.code
        env.mallocOk) env fun _ w => w.setTask k t .releasing
    | .releasing => { w with otaActive := false, tasks := w.tasks.eraseIdx k }

/-- One step. -/
def step (w : World) (a : Action) : World :=
  match a.actor with
  | .main => w.stepMain a.env
  | .control => w.stepControl a.env
  | .network => w.stepNetwork a.env
  | .ota k => w.stepTask k a.env
  | .power => w.reset a.env.ota.boot

end World

/-! ## Runs that stay away from the manifest -/

/-- The actions of a boot without faults: `app_main` from the load of the ledger to the start of the
network task. -/
def bootActions : List Action := List.replicate 15 { actor := .main }

/-- The network task moves on `n` times without faults; what is answered brings the commands `items`
at time `now`. -/
def networkActions (items : List CommandItem) (now : ℤ) (n : ℕ) : List Action :=
  List.replicate n { actor := .network, env := { items := items, now := now } }

/-- A telemetry exchange without faults that reports `reported` commands and brings `items`. -/
def exchange (items : List CommandItem) (now : ℤ) (reported : ℕ) : List Action :=
  networkActions items now (2 + reported + 1 + 2 * items.length + 1)

/-- The control task moves on `n` times without faults. -/
def controlActions (n : ℕ) : List Action := List.replicate n { actor := .control }

end PowerMonitor.Runtime
