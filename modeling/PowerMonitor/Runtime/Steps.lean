import PowerMonitor.Runtime.World

/-!
# What a step leaves alone

Frame lemmas for the tasks of the firmware. A step either resets the device, which is the same
whoever caused it, or it changes the parts of the state its task works on; the lemmas say which
parts these are. `World.call_ind` is the rule for the steps that make a ledger call.
-/

namespace PowerMonitor.Runtime

open AbStore CJson Commands Ota

/-! ## Who holds an entry -/

/-- The item the network task is about to send. -/
def NetworkPc.held : NetworkPc → List Queued
  | delivering _ q _ => [q]
  | _ => []

/-- The entry the control task executes. -/
def ControlPc.held : ControlPc → List EntryIndex
  | starting i | running i | claiming i | spawning i | releasing i _ _ | finishing i _
  | restarting i => [i]
  | _ => []

/-- The entry of an OTA task, until its last write to it. -/
def OtaTask.held (t : OtaTask) : List EntryIndex :=
  match t.pc with
  | .releasing => []
  | _ => [t.index]

/-- The control task is between the claim of the OTA flag and its release. -/
def ControlPc.installing : ControlPc → Bool
  | claiming _ | spawning _ | releasing _ _ _ => true
  | _ => false

namespace World

/-- The items that are sent or about to be sent. -/
def items (w : World) : List Queued := w.queue ++ w.network.held

/-- The entries the tasks execute. -/
def executing (w : World) : List EntryIndex := w.control.held ++ w.tasks.flatMap OtaTask.held

/-- Every entry that is held, once for each holder. -/
def holders (w : World) : List EntryIndex := w.items.map Queued.index ++ w.executing

end World

variable [Sha256]

namespace World

/-- What holds after a reset and after every end of a ledger call holds after the call. -/
theorem call_ind {P : World → Prop} {w : World} {c : Call} {env : Env}
    {k : EspErr → World → World}
    (hreset : P (reset { w with nvs := (c.perform w.ledger w.nvs env.fault).nvs } env.ota.boot))
    (hk : ∀ e, (c.perform w.ledger w.nvs env.fault).result = some e → P (k e { w with
      ledger := (c.perform w.ledger w.nvs env.fault).ledger
      nvs := (c.perform w.ledger w.nvs env.fault).nvs })) : P (w.call c env k) := by
  unfold call
  dsimp only
  split
  · exact hreset
  next e he => exact hk e he

omit [Sha256] in
/-- Writing the result text is an edit. -/
theorem edits_writeText (w : World) (i : EntryIndex) (text : List UInt8) (state : CommandState) :
    Edits i state w.ledger (w.writeText i text).ledger where
  rest j hj := by simp [writeText, Function.update_of_ne hj]
  commandId := by simp [writeText]
  type := by simp [writeText]
  payload := by simp [writeText]
  moved := .inl (by simp [writeText])

/-- What holds after a reset and of the world that goes on with an edit of the entry holds after a
report. -/
theorem progress_ind {P : World → Prop} {w : World} {i : EntryIndex}
    {report : Option (ℕ × OtaStage)} {env : Env} {k : World → World}
    (hreset : ∀ nvs, P (reset { w with nvs := nvs } env.ota.boot))
    (hk : ∀ nvs ledger, Edits i .running w.ledger ledger →
      P (k { w with nvs := nvs, ledger := ledger })) : P (w.progress i report env k) := by
  unfold progress
  split
  · exact hk w.nvs w.ledger (.refl _ _ _)
  · refine call_ind (hreset _) fun e _ => hk _ _ ?_
    exact (edits_writeText w i _ _).trans (edits_transition _ i .running _ _ _ _ _)

/-- What the network task leaves alone. -/
structure NetworkFrame (w w' : World) : Prop where
  flash : w'.flash = w.flash
  otaActive : w'.otaActive = w.otaActive
  main : w'.main = w.main
  control : w'.control = w.control
  tasks : w'.tasks = w.tasks
  selected : w'.selected = w.selected

theorem acceptItem_frame (w : World) (answered : Sent) (item : CommandItem)
    (items : List CommandItem) (env : Env) :
    (∃ nvs delivered, w.acceptItem answered item items env =
      reset { w with nvs := nvs, delivered := delivered } env.ota.boot) ∨
      NetworkFrame w (w.acceptItem answered item items env) := by
  unfold acceptItem
  dsimp only
  split
  · exact .inl ⟨_, _, rfl⟩
  split
  · split <;> exact .inr ⟨rfl, rfl, rfl, rfl, rfl, rfl⟩
  · exact .inr ⟨rfl, rfl, rfl, rfl, rfl, rfl⟩

/-- **The network task** resets the device only when power is lost under an accept, and otherwise
works on the ledger and the queues. -/
theorem stepNetwork_frame (w : World) (env : Env) :
    (∃ nvs delivered, w.stepNetwork env =
      reset { w with nvs := nvs, delivered := delivered } env.ota.boot) ∨
      NetworkFrame w (w.stepNetwork env) := by
  unfold stepNetwork
  split
  · exact .inr ⟨rfl, rfl, rfl, rfl, rfl, rfl⟩
  · split
    · exact .inr ⟨rfl, rfl, rfl, rfl, rfl, rfl⟩
    split <;> exact .inr ⟨rfl, rfl, rfl, rfl, rfl, rfl⟩
  · split <;> exact .inr ⟨rfl, rfl, rfl, rfl, rfl, rfl⟩
  · split <;> exact .inr ⟨rfl, rfl, rfl, rfl, rfl, rfl⟩
  · split
    · exact .inr ⟨rfl, rfl, rfl, rfl, rfl, rfl⟩
    split
    · exact .inr ⟨rfl, rfl, rfl, rfl, rfl, rfl⟩
    split
    · exact .inr ⟨rfl, rfl, rfl, rfl, rfl, rfl⟩
    · exact acceptItem_frame w _ _ _ env
  · exact .inr ⟨rfl, rfl, rfl, rfl, rfl, rfl⟩

/-- What `app_main` leaves alone; it starts the control task and the network task. -/
structure MainFrame (w w' : World) : Prop where
  acks : w'.acks = w.acks
  otaActive : w'.otaActive = w.otaActive
  tasks : w'.tasks = w.tasks
  dequeued : w'.dequeued = w.dequeued
  rebooted : w'.rebooted = w.rebooted
  delivered : w'.delivered = w.delivered
  selected : w'.selected = w.selected
  control : w'.control = w.control ∨ w'.control = .polling
  network : w'.network = w.network ∨ w'.network = .idle

omit [Sha256] in
theorem MainFrame.refl (w : World) : MainFrame w w :=
  ⟨rfl, rfl, rfl, rfl, rfl, rfl, rfl, .inl rfl, .inl rfl⟩

theorem reconcileEntry_frame (w : World) (c : Checkpoint) (i : EntryIndex) (env : Env) :
    (∃ nvs, w.reconcileEntry c i env = reset { w with nvs := nvs } env.ota.boot) ∨
      MainFrame w (w.reconcileEntry c i env) := by
  unfold reconcileEntry
  dsimp only
  split
  · exact .inr ⟨rfl, rfl, rfl, rfl, rfl, rfl, rfl, .inl rfl, .inl rfl⟩
  split
  · exact call_ind (P := fun w' => (∃ nvs, w' = reset { w with nvs := nvs } env.ota.boot) ∨
      MainFrame w w') (.inl ⟨_, rfl⟩)
      fun e _ => .inr ⟨rfl, rfl, rfl, rfl, rfl, rfl, rfl, .inl rfl, .inl rfl⟩
  split
  · split <;> exact .inr ⟨rfl, rfl, rfl, rfl, rfl, rfl, rfl, .inl rfl, .inl rfl⟩
  · exact .inr ⟨rfl, rfl, rfl, rfl, rfl, rfl, rfl, .inl rfl, .inl rfl⟩

/-- **`app_main`** resets the device, or works on the flash, the ledger and the command queue. -/
theorem stepMain_frame (w : World) (env : Env) :
    (∃ nvs flash, w.stepMain env =
      reset { w with nvs := nvs, flash := flash } env.ota.boot) ∨
      MainFrame w (w.stepMain env) := by
  unfold stepMain
  split
  · split
    · exact .inr ⟨rfl, rfl, rfl, rfl, rfl, rfl, rfl, .inl rfl, .inl rfl⟩
    · dsimp only
      split
      · exact .inl ⟨_, w.flash, rfl⟩
      split <;> exact .inr ⟨rfl, rfl, rfl, rfl, rfl, rfl, rfl, .inl rfl, .inl rfl⟩
  · split
    · exact .inr ⟨rfl, rfl, rfl, rfl, rfl, rfl, rfl, .inl rfl, .inl rfl⟩
    · exact .inr ⟨rfl, rfl, rfl, rfl, rfl, rfl, rfl, .inr rfl, .inl rfl⟩
  · exact .inr ⟨rfl, rfl, rfl, rfl, rfl, rfl, rfl, .inl rfl, .inl rfl⟩
  · dsimp only
    split
    · exact .inl ⟨w.nvs, _, rfl⟩
    · exact .inr ⟨rfl, rfl, rfl, rfl, rfl, rfl, rfl, .inl rfl, .inl rfl⟩
  · dsimp only
    split
    · exact .inl ⟨w.nvs, _, rfl⟩
    · exact .inr ⟨rfl, rfl, rfl, rfl, rfl, rfl, rfl, .inl rfl, .inl rfl⟩
  · split <;> exact .inr ⟨rfl, rfl, rfl, rfl, rfl, rfl, rfl, .inl rfl, .inl rfl⟩
  · split
    · rcases reconcileEntry_frame w _ _ env with ⟨nvs, h⟩ | h
      · exact .inl ⟨nvs, w.flash, h⟩
      · exact .inr h
    · exact .inr ⟨rfl, rfl, rfl, rfl, rfl, rfl, rfl, .inl rfl, .inr rfl⟩
  · exact .inl ⟨w.nvs, w.flash, rfl⟩
  · exact .inr (.refl w)
  · exact .inr (.refl w)

/-- What the control task does: it edits the entry it holds, moves on with it or with the next item
of the queue, and creates OTA tasks. -/
structure ControlFrame (w w' : World) (env : Env) : Prop where
  flash : w'.flash = w.flash
  main : w'.main = w.main
  network : w'.network = w.network
  rebooted : w'.rebooted = w.rebooted
  delivered : w'.delivered = w.delivered
  selected : w'.selected = w.selected
  ledger : SameCommands (· ∈ w.control.held) w.ledger w'.ledger
  tasks : w'.tasks = w.tasks ∨
    ∃ i, w.control = .spawning i ∧ env.answer = none ∧ w'.tasks = w.tasks ++ [⟨i, .parsing⟩]
  held : w'.items.map Queued.index ++ w'.control.held ⊆ w.items.map Queued.index ++ w.control.held
  installing : w'.control.installing = true → w.control.installing = true ∨
    ∃ i, w.control = .running i ∧ (w.ledger.entries i).type = .otaInstall

/-- What a step of the control task comes to: a reset, for a reboot command or when power is lost
under a ledger call, or work on the ledger, the queues and the OTA tasks. -/
def ControlEnds (w : World) (env : Env) (w' : World) : Prop :=
  (∃ nvs rebooted, w.rebooted ⊆ rebooted ∧
    w' = reset { w with nvs := nvs, rebooted := rebooted } env.ota.boot) ∨ ControlFrame w w' env

namespace ControlEnds

variable {w : World} {env : Env}

theorem lost (nvs : Slots Ledger) :
    ControlEnds w env (reset { w with nvs := nvs } env.ota.boot) :=
  .inl ⟨nvs, w.rebooted, List.Subset.refl _, rfl⟩

/-- The task goes on with the entry it holds or without one. -/
theorem goto {nvs : Slots Ledger} {ledger : Ledger} {acks : List (List UInt8)} {active : Bool}
    {pc : ControlPc} (hledger : SameCommands (· ∈ w.control.held) w.ledger ledger)
    (hheld : pc.held ⊆ w.control.held)
    (hin : pc.installing = true → w.control.installing = true ∨
      ∃ i, w.control = .running i ∧ (w.ledger.entries i).type = .otaInstall) :
    ControlEnds w env { w with
      nvs := nvs, ledger := ledger, acks := acks, otaActive := active, control := pc } :=
  .inr ⟨rfl, rfl, rfl, rfl, rfl, rfl, hledger, .inl rfl,
    List.append_subset.2 ⟨List.subset_append_left _ _,
      List.Subset.trans hheld (List.subset_append_right _ _)⟩, hin⟩

theorem stay : ControlEnds w env w := goto (.refl _ _) (List.Subset.refl _) .inl

theorem idle {pc : ControlPc} (hheld : pc.held = []) (hin : pc.installing = false) :
    ControlEnds w env { w with control := pc } := by
  refine goto (.refl _ _) ?_ fun h => ?_
  · rw [hheld]
    exact List.nil_subset _
  · rw [hin] at h
    cases h

theorem next {i : EntryIndex} {pc : ControlPc} {active : Bool} (hheld : w.control.held = [i])
    (hpc : pc.held = [i]) (hin : pc.installing = true → w.control.installing = true) :
    ControlEnds w env { w with otaActive := active, control := pc } := by
  refine goto (.refl _ _) ?_ fun h => .inl (hin h)
  rw [hpc, hheld]
  exact List.Subset.refl _

theorem transition {i : EntryIndex} (state : CommandState) (progress : ℕ) (code : ℤ)
    {pc : EspErr → ControlPc} (hheld : w.control.held = [i]) (hnext : ∀ e, (pc e).held ⊆ [i])
    (hin : ∀ e, (pc e).installing = false) :
    ControlEnds w env (w.call (.transition i state progress code env.mallocOk) env fun e w =>
      { w with control := pc e }) := by
  refine call_ind (lost _) fun e _ => goto ?_ (hheld ▸ hnext e) fun h => ?_
  · exact (edits_transition w.ledger i state progress code _ _ _).sameCommands (by simp [hheld])
  · rw [hin e] at h
    cases h

theorem text {i : EntryIndex} (text : List UInt8) {pc : ControlPc} (hheld : w.control.held = [i])
    (hpc : pc.held = [i]) (hin : pc.installing = false) :
    ControlEnds w env { w.writeText i text with control := pc } := by
  refine @goto _ w env w.nvs _ w.acks w.otaActive pc ?_ ?_ fun h => ?_
  · exact (edits_writeText w i text .running).sameCommands (by simp [hheld])
  · rw [hpc, hheld]
    exact List.Subset.refl _
  · rw [hin] at h
    cases h

/-- `execute_command`, once the command is running. -/
theorem execute {i : EntryIndex} (hpc : w.control = .running i) :
    ControlEnds w env (w.execute i env) := by
  have hheld : w.control.held = [i] := by rw [hpc]; rfl
  unfold World.execute
  split
  · refine transition _ _ _ hheld (fun e => ?_) fun e => ?_
    · split <;> exact List.Subset.refl _
    · split <;> rfl
  · exact text _ hheld rfl rfl
  · exact text _ hheld rfl rfl
  · exact text _ hheld rfl rfl
  next htype =>
    refine goto (.refl _ _) ?_ fun _ => .inr ⟨i, hpc, htype⟩
    rw [hheld]
    exact List.Subset.refl _
  · exact next hheld rfl fun h => by cases h

end ControlEnds

/-- **The control task**, step by step. -/
theorem stepControl_frame (w : World) (env : Env) : ControlEnds w env (w.stepControl env) := by
  unfold stepControl
  split
  next hpc => exact .stay
  next hpc =>
    split
    · exact .stay
    · exact .idle rfl rfl
  next hpc =>
    split
    · exact .idle rfl rfl
    next id acks _ =>
      refine call_ind (.lost _) fun e _ => ?_
      exact .goto (sameCommands_acknowledge _ _ id _ _) (List.Subset.refl _) .inl
  next hpc =>
    split
    · exact .idle rfl rfl
    next q queue hqueue =>
      refine .inr ⟨rfl, rfl, rfl, rfl, rfl, rfl, .refl _ _, .inl rfl, fun i hi => ?_,
        fun h => by cases h⟩
      have hi : i ∈ (queue ++ w.network.held).map Queued.index ++ [q.index] := hi
      simp only [items, hqueue, List.map_append, List.map_cons, List.cons_append, List.mem_cons,
        List.mem_append, List.not_mem_nil, or_false] at hi ⊢
      tauto
  next i hpc =>
    split
    · exact .stay
    · exact .transition _ _ _ (by rw [hpc]; rfl) (fun _ => List.Subset.refl _) fun _ => rfl
  next i hpc => exact .execute hpc
  next i hpc =>
    have hheld : w.control.held = [i] := by rw [hpc]; rfl
    have hin : w.control.installing = true := by rw [hpc]; rfl
    split <;> exact .next hheld rfl fun _ => hin
  next i hpc =>
    have hheld : w.control.held = [i] := by rw [hpc]; rfl
    have hin : w.control.installing = true := by rw [hpc]; rfl
    split
    · exact .next hheld rfl fun _ => hin
    next hans =>
      refine .inr ⟨rfl, rfl, rfl, rfl, rfl, rfl, .refl _ _, .inr ⟨i, hpc, hans, rfl⟩, ?_,
        fun h => by cases h⟩
      exact List.append_subset.2 ⟨List.subset_append_left _ _, List.nil_subset _⟩
  next i e claimed hpc =>
    have hheld : w.control.held = [i] := by rw [hpc]; rfl
    exact .next hheld rfl fun h => by cases h
  next i e hpc =>
    exact .transition _ _ _ (by rw [hpc]; rfl) (fun _ => List.nil_subset _) fun _ => rfl
  next i hpc => exact .inl ⟨w.nvs, _, List.subset_cons_self _ _, rfl⟩

/-- What the OTA tasks leave alone. -/
structure TaskFrame (w w' : World) : Prop where
  queue : w'.queue = w.queue
  acks : w'.acks = w.acks
  main : w'.main = w.main
  control : w'.control = w.control
  network : w'.network = w.network
  dequeued : w'.dequeued = w.dequeued
  rebooted : w'.rebooted = w.rebooted
  delivered : w'.delivered = w.delivered

/-- What a step of task `k` does to the tasks: nothing, or it moves on and edits its entry, or it
ends and releases the flag. Only the last edit before the end makes the entry terminal. -/
inductive TaskMove (w w' : World) (k : ℕ) : Prop
  | stays (htasks : w'.tasks = w.tasks) (hactive : w'.otaActive = w.otaActive)
      (hledger : w'.ledger = w.ledger)
  | moves (t : OtaTask) (pc : TaskPc) (state : CommandState) (ht : w.tasks[k]? = some t)
      (hpc : t.pc ≠ .releasing)
      (htasks : w'.tasks = w.tasks.set k { t with pc := pc }) (hactive : w'.otaActive = w.otaActive)
      (hedit : Edits t.index state w.ledger w'.ledger)
      (hstate : state.terminal = false ∨ ((∃ e, t.pc = .settling e) ∧ pc = .releasing))
  | ends (t : OtaTask) (ht : w.tasks[k]? = some t) (hpc : t.pc = .releasing)
      (htasks : w'.tasks = w.tasks.eraseIdx k) (hactive : w'.otaActive = false)
      (hledger : w'.ledger = w.ledger)

variable [Parser] [Base64]

/-- **An OTA task** resets the device, or works on the flash and its own entry. -/
theorem stepTask_frame (w : World) (k : ℕ) (env : Env) :
    (∃ nvs flash selected, w.stepTask k env =
      reset { w with nvs := nvs, flash := flash, selected := selected } env.ota.boot) ∨
      (TaskFrame w (w.stepTask k env) ∧ TaskMove w (w.stepTask k env) k) := by
  unfold stepTask
  split
  · exact .inr ⟨⟨rfl, rfl, rfl, rfl, rfl, rfl, rfl, rfl⟩, .stays rfl rfl rfl⟩
  next t ht =>
  let P : World → Prop := fun w' =>
    (∃ nvs flash selected, w' =
      reset { w with nvs := nvs, flash := flash, selected := selected } env.ota.boot) ∨
      (TaskFrame w w' ∧ TaskMove w w' k)
  -- the task goes on to `pc`, with an edit of its entry to `state`
  have hmove : ∀ (nvs : Slots Ledger) (flash : OtaFlash) (selected : Option Command)
      (ledger : Ledger) (pc : TaskPc) (state : CommandState), t.pc ≠ .releasing →
      Edits t.index state w.ledger ledger →
      (state.terminal = false ∨ ((∃ e, t.pc = .settling e) ∧ pc = .releasing)) →
      P (setTask { w with nvs := nvs, flash := flash, selected := selected, ledger := ledger } k t
        pc) :=
    fun _ _ _ _ pc state hpc he hs => .inr ⟨⟨rfl, rfl, rfl, rfl, rfl, rfl, rfl, rfl⟩,
      .moves t pc state ht hpc rfl rfl he hs⟩
  have hgo : t.pc ≠ .releasing → ∀ (flash : OtaFlash) (pc : TaskPc),
      P (setTask { w with flash := flash } k t pc) :=
    fun hpc flash pc => hmove w.nvs flash w.selected w.ledger pc .running hpc (.refl _ _ _) (.inl rfl)
  have hstay : P w := .inr ⟨⟨rfl, rfl, rfl, rfl, rfl, rfl, rfl, rfl⟩, .stays rfl rfl rfl⟩
  -- a transition of the entry
  have hcall : ∀ (state : CommandState) (progress : ℕ) (code : ℤ) (kont : EspErr → World → World),
      (∀ e nvs ledger, Edits t.index state w.ledger ledger →
        P (kont e { w with nvs := nvs, ledger := ledger })) →
      P (w.call (.transition t.index state progress code env.mallocOk) env kont) :=
    fun state progress code kont h => call_ind (.inl ⟨_, w.flash, w.selected, rfl⟩) fun e _ =>
      h e _ _ (edits_transition w.ledger t.index state progress code _ _ _)
  cases hpc : t.pc with
  | parsing =>
    have hgo := hgo (by simp [hpc])
    dsimp only
    split
    · exact hgo _ _
    split <;> exact hgo _ _
  | installing m s =>
    have hgo := hgo (by simp [hpc])
    dsimp only
    split
    · exact hgo _ _
    split
    · exact hstay
    refine progress_ind (P := P) (fun nvs => .inl ⟨nvs, w.flash, w.selected, rfl⟩)
      fun nvs ledger he => ?_
    dsimp only
    split
    · exact .inl ⟨_, _, _, rfl⟩
    · exact hmove _ _ _ _ _ .running (by simp [hpc]) he (.inl rfl)
  | announcing =>
    dsimp only
    split
    · exact hstay
    · exact hcall .awaitingReboot _ _ _ fun e nvs ledger he =>
        hmove nvs w.flash w.selected ledger _ .awaitingReboot (by simp [hpc]) he (.inl rfl)
  | restarting => exact .inl ⟨w.nvs, w.flash, w.selected, rfl⟩
  | cancelling e s =>
    have hgo := hgo (by simp [hpc])
    cases s with
    | returned e' => exact hgo _ _
    | _ =>
      dsimp only
      split
      · exact .inl ⟨w.nvs, _, w.selected, rfl⟩
      · exact hgo _ _
  | settling e =>
    dsimp only
    split
    · exact hstay
    · exact hcall .failed _ _ _ fun _ nvs ledger he =>
        hmove nvs w.flash w.selected ledger _ .failed (by simp [hpc]) he (.inr ⟨⟨e, hpc⟩, rfl⟩)
  | releasing =>
    exact .inr ⟨⟨rfl, rfl, rfl, rfl, rfl, rfl, rfl, rfl⟩, .ends t ht hpc rfl rfl rfl⟩

end World

end PowerMonitor.Runtime
