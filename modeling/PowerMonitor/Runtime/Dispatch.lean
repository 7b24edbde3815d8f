import PowerMonitor.Runtime.Dispatch.Boot
import PowerMonitor.Runtime.Dispatch.Network
import PowerMonitor.Runtime.Dispatch.Tasks

/-!
# Dispatching commands

An accept never stores a command in an entry that is held, the queue never runs full because it
holds distinct entries, and what is dequeued is what was queued. `dispatch_safe` and
`no_reboot_loop` are the results; both follow from the invariant `DispatchInv`, which every step
keeps.
-/

namespace PowerMonitor.Runtime

open AbStore CJson Commands Ota Runs

variable [Sha256] [Parser] [Base64]

/-- **One step** keeps the invariant. -/
theorem dispatch_step (w : World) (a : Action) (hi : DispatchInv w) : DispatchInv (w.step a) := by
  unfold World.step
  cases a.actor with
  | main => exact dispatch_main hi a.env
  | control => exact dispatch_control hi a.env
  | network => exact dispatch_network hi a.env
  | ota k => exact dispatch_task hi k a.env
  | power => exact DispatchInv.reset w hi.rebooted _

theorem dispatch_run (nvs : Slots Ledger) (flash : OtaFlash) (acts : List Action) :
    DispatchInv (run World.step (World.start nvs flash) acts) :=
  run_invariant dispatch_step (DispatchInv.start nvs flash) acts

/-- **Command dispatch safety**: in every state of every run from any flash, there is room in the
queue for the command that is sent next, the entry a queued pointer points at holds the command it
was queued for, and no command has been received twice since it was accepted. -/
theorem dispatch_safe (nvs : Slots Ledger) (flash : OtaFlash) (acts : List Action) :
    DispatchSafe (run World.step (World.start nvs flash) acts) :=
  (dispatch_run nvs flash acts).safe

/-- What a step of `app_main` adds to the queue neither restarts the device nor installs an
image. -/
def RequeuesHarmless (w : World) (a : Action) : Prop :=
  a.actor = .main → ∀ q ∈ (w.step a).queue, q ∈ w.queue ∨
    (q.command.type ≠ .reboot ∧ q.command.type ≠ .otaInstall)

theorem requeues_harmless (w : World) (a : Action) : RequeuesHarmless w a := by
  intro ha q hq
  rw [World.step, ha] at hq
  dsimp only at hq
  rcases stepMain_queue w a.env with h | h | ⟨r, hr, h⟩ <;> rw [h] at hq
  · exact .inl hq
  · cases hq
  · rcases List.mem_append.1 hq with hq | hq
    · exact .inl hq
    · obtain rfl := List.mem_singleton.1 hq
      exact .inr (requeue_spec hr).2

/-- A command that has restarted the device counts as such until it is accepted anew, which does not
happen while it is in the ledger. -/
def RemembersRestarts (w : World) (a : Action) : Prop :=
  ∀ id ∈ w.rebooted, id ∈ (w.step a).rebooted ∨ ∀ i, (w.ledger.entries i).commandId.str ≠ id

omit [Parser] [Base64] in
theorem stepNetwork_rebooted (w : World) (env : Env) {id : List UInt8} (hid : id ∈ w.rebooted) :
    id ∈ (w.stepNetwork env).rebooted ∨ ∀ i, (w.ledger.entries i).commandId.str ≠ id := by
  have haccept : ∀ answered item items, id ∈ (w.acceptItem answered item items env).rebooted ∨
      ∀ i, (w.ledger.entries i).commandId.str ≠ id := by
    intro answered item items
    have hend := accept_end w.ledger (parsedCommand item env.now) env.now env.mallocOk
      w.nvs env.fault
    unfold World.acceptItem
    dsimp only
    generalize commandAccept w.ledger (parsedCommand item env.now) env.now env.mallocOk
      w.nvs env.fault = a at hend
    split
    · exact .inl hid
    next e he =>
    split
    · split
      next hsent =>
        cases hend with
        | stored i _ _ _ _ hdup _ _ _ _ =>
          by_cases h : id = item.commandId
          · refine .inr fun j hj => (findDuplicate_none hdup j).1 ?_
            rw [hj, h]
            exact (parsedCommand_commandId_str item env.now).symm
          · exact .inl (List.mem_filter.2 ⟨hid, by simpa using h⟩)
        | unchanged _ hnot =>
          rw [hsent.1] at he
          rw [hnot he] at hsent
          exact absurd hsent.2 (by decide)
      · exact .inl hid
    · exact .inl hid
  unfold World.stepNetwork
  split
  · exact .inl hid
  · split
    · exact .inl hid
    split <;> exact .inl hid
  · split <;> exact .inl hid
  · split <;> exact .inl hid
  · split
    · exact .inl hid
    split
    · exact .inl hid
    split
    · exact .inl hid
    · exact haccept _ _ _
  · exact .inl hid

theorem remembers_restarts (w : World) (a : Action) : RemembersRestarts w a := by
  intro id hid
  unfold World.step
  cases a.actor with
  | main =>
    rcases w.stepMain_frame a.env with ⟨_, _, h⟩ | hf <;> refine .inl ?_
    · rw [h]
      exact hid
    · exact hf.rebooted ▸ hid
  | control =>
    rcases w.stepControl_frame a.env with ⟨_, _, hsub, h⟩ | hf <;> refine .inl ?_
    · rw [h]
      exact hsub hid
    · exact hf.rebooted ▸ hid
  | network => exact stepNetwork_rebooted w a.env hid
  | ota k =>
    dsimp only
    rcases w.stepTask_frame k a.env with ⟨_, _, _, h⟩ | ⟨hf, -⟩ <;> refine .inl ?_
    · rw [h]
      exact hid
    · exact hf.rebooted ▸ hid
  | power => exact .inl hid

/-- **No reboot loop**: over all boots of a run, no reboot command restarts the device twice since
it was accepted, where it is not accepted anew while it is in the ledger; and no boot queues a
reboot or an OTA installation again. -/
theorem no_reboot_loop (nvs : Slots Ledger) (flash : OtaFlash) (acts : List Action) :
    (run World.step (World.start nvs flash) acts).rebooted.Nodup ∧
      Along World.step RemembersRestarts (World.start nvs flash) acts ∧
      Along World.step RequeuesHarmless (World.start nvs flash) acts :=
  ⟨(dispatch_run nvs flash acts).rebooted, .of_forall remembers_restarts _ _,
    .of_forall requeues_harmless _ _⟩

end PowerMonitor.Runtime
