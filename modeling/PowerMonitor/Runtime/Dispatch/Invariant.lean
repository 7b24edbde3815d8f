import PowerMonitor.Runtime.Steps
import Mathlib.Data.List.Nodup
import Mathlib.Data.Fintype.Card

/-!
# The invariant of the dispatch

A command that was accepted is sent to the control task as a pointer to its ledger entry, through a
queue of eight places. The pointer is held by one party at a time: the network task before it sends,
the queue, the control task while it executes, an OTA task from then on. `World.holders` lists the
entries that are held.

`DispatchInv` is the invariant: no entry is held twice, and a held entry is occupied and not
terminal. `DispatchInv.keep`, `DispatchInv.edit` and `DispatchInv.send` are the ways a step keeps
it: it changes nothing that is held, it edits the entry it holds, or it sends an entry nobody holds.
-/

namespace PowerMonitor.Runtime

open AbStore CJson Commands Ota

/-- The entry holds a command that is not terminal. -/
def unfinished (c : Command) : Bool := c.occupied && !c.state.terminal

/-! ## The invariant -/

/-- What boot leaves to `app_main`: nothing is held before it reconciles, and while it does only
entries it has passed. -/
def BootPhase (w : World) : Prop :=
  match w.main with
  | .started | .restarting | .halted => True
  | .reconciling _ k => (∀ i ∈ w.holders, i.val < k) ∧ ∀ i : EntryIndex, k ≤ i.val → w.dequeued i = 0
  | _ => w.holders = [] ∧ ∀ i, w.dequeued i = 0

/-- The network task runs once `app_main` has started it. -/
def NetworkPhase (w : World) : Prop :=
  match w.main with
  | .started => True
  | _ => w.network = .stopped

theorem BootPhase.started {w : World} (h : w.main = .started) : BootPhase w := by
  rw [BootPhase, h]
  trivial

theorem NetworkPhase.started {w : World} (h : w.main = .started) : NetworkPhase w := by
  rw [NetworkPhase, h]
  trivial

/-- The network task has not started. -/
theorem NetworkPhase.stopped {w : World} (h : w.network = .stopped) : NetworkPhase w := by
  unfold NetworkPhase
  split
  · trivial
  · exact h

/-- The invariant of the dispatch. -/
structure DispatchInv (w : World) : Prop where
  nodup : w.holders.Nodup
  live : ∀ i ∈ w.holders, unfinished (w.ledger.entries i) = true
  same : ∀ q ∈ w.items, (w.ledger.entries q.index).bare = q.command.bare
  fresh : ∀ q ∈ w.items, w.dequeued q.index = 0
  once : ∀ i, w.dequeued i ≤ 1
  network : NetworkPhase w
  boot : BootPhase w
  rebooted : w.rebooted.Nodup
  /-- A reboot command on its way has not restarted the device yet. -/
  unspent : ∀ i ∈ w.items.map Queued.index ++ w.control.held,
    (w.ledger.entries i).type = .reboot → (w.ledger.entries i).commandId.str ∉ w.rebooted
  restart : ∀ i, w.control = .restarting i → (w.ledger.entries i).type = .reboot

/-- **Dispatch safety**: there is room for whatever is sent next, every queued pointer still points
at the command it was queued for, and no command was received twice. -/
structure DispatchSafe (w : World) : Prop where
  room : ∀ answered q items, w.network = .delivering answered q items →
    w.queue.length < queueDepth
  room_boot : ∀ c (i : EntryIndex), w.main = .reconciling c i →
    (w.ledger.entries i).occupied = true →
    commandBootAction (w.ledger.entries i) = .requeue → w.queue.length < queueDepth
  same : ∀ q ∈ w.queue, (w.ledger.entries q.index).bare = q.command.bare
  once : ∀ i, w.dequeued i ≤ 1

namespace DispatchInv

variable {w w' : World}

theorem start (nvs : Slots Ledger) (flash : OtaFlash) : DispatchInv (World.start nvs flash) where
  nodup := List.nodup_nil
  live i hi := by cases hi
  same q hq := by cases hq
  fresh q hq := by cases hq
  once i := Nat.zero_le 1
  network := rfl
  boot := ⟨rfl, fun _ => rfl⟩
  rebooted := List.nodup_nil
  unspent i hi := by cases hi
  restart i hi := by cases hi

/-- A reset empties everything; what is left is that no command has restarted the device twice. -/
theorem reset (w : World) (h : w.rebooted.Nodup) (env : BootEnv) : DispatchInv (w.reset env) where
  nodup := List.nodup_nil
  live i hi := by cases hi
  same q hq := by cases hq
  fresh q hq := by cases hq
  once i := Nat.zero_le 1
  network := rfl
  boot := ⟨rfl, fun _ => rfl⟩
  rebooted := h
  unspent i hi := by cases hi
  restart i hi := by cases hi

theorem safe (hi : DispatchInv w) : DispatchSafe w where
  room answered q items hn := by
    have hlen := (hi.nodup.sublist (List.sublist_append_left _ _)).length_le_card
    simp only [World.items, hn, NetworkPc.held, List.map_append, List.length_append, List.length_map,
      Fintype.card_fin, List.map_cons, List.map_nil, List.length_cons, List.length_nil] at hlen
    exact hlen
  room_boot c i hm _ _ := by
    have hboot := hi.boot
    rw [BootPhase, hm] at hboot
    have hsub : (i :: w.queue.map Queued.index).Nodup := by
      refine List.nodup_cons.2 ⟨fun hmem => ?_, ?_⟩
      · have := hboot.1 i (List.mem_append_left _ (by simp [World.items, hmem]))
        exact absurd this (lt_irrefl _)
      · have := hi.nodup.sublist (List.sublist_append_left _ _)
        rw [World.items, List.map_append] at this
        exact this.sublist (List.sublist_append_left _ _)
    have hlen := hsub.length_le_card
    simp only [List.length_cons, List.length_map, Fintype.card_fin] at hlen
    exact hlen
  same q hq := hi.same q (List.mem_append_left _ hq)
  once := hi.once

/-- An item that is sent is not executed. -/
theorem not_executing (hi : DispatchInv w) {q : Queued} (hq : q ∈ w.items) :
    q.index ∉ w.executing := fun h =>
  (List.nodup_append.1 hi.nodup).2.2 q.index (List.mem_map_of_mem hq) q.index h rfl

/-- An accept never stores its command in an entry that is held. -/
theorem free_of_selectEntry (hi : DispatchInv w) {i : EntryIndex}
    (hsel : selectEntry w.ledger = some i) : i ∉ w.holders := by
  intro hmem
  have hlive := hi.live i hmem
  have hre := reusable_of_selectEntry hsel
  simp only [unfinished, reusable, Bool.and_eq_true, Bool.or_eq_true, Bool.not_eq_true'] at hlive hre
  rcases hre with h | h
  · rw [h] at hlive
    exact absurd hlive.1 (by decide)
  · rw [h.1] at hlive
    exact absurd hlive.2 (by decide)

/-- **The frame rule of the dispatch**: a step that sends and receives nothing, holds nothing new
and changes no command that is held. -/
theorem frame (hi : DispatchInv w) (hitems : w'.items = w.items)
    (hcount : ∀ i, w'.executing.count i ≤ w.executing.count i)
    (hcontrol : ∀ i ∈ w'.control.held, i ∈ w.control.held)
    (hrestart : ∀ i, w'.control = .restarting i → (w.ledger.entries i).type = .reboot)
    (hlive : ∀ i ∈ w'.holders, unfinished (w.ledger.entries i) = true →
      unfinished (w'.ledger.entries i) = true)
    (hsame : ∀ i, i ∉ w.executing → i ∈ w.holders →
      (w'.ledger.entries i).bare = (w.ledger.entries i).bare)
    (hcommand : ∀ i, (w'.ledger.entries i).commandId = (w.ledger.entries i).commandId ∧
      (w'.ledger.entries i).type = (w.ledger.entries i).type)
    (hdequeued : w'.dequeued = w.dequeued) (hrebooted : w'.rebooted = w.rebooted)
    (hmain : w'.main = w.main) (hnetwork : NetworkPhase w') : DispatchInv w' := by
  have hholders : ∀ i, w'.holders.count i ≤ w.holders.count i := by
    intro i
    simp only [World.holders, hitems, List.count_append]
    have := hcount i
    omega
  have hmem : ∀ i ∈ w'.holders, i ∈ w.holders := fun i h =>
    List.count_pos_iff.1 (lt_of_lt_of_le (List.count_pos_iff.2 h) (hholders i))
  constructor
  case nodup =>
    refine List.nodup_iff_count_le_one.2 fun i => (hholders i).trans ?_
    exact List.nodup_iff_count_le_one.1 hi.nodup i
  case live => exact fun i h => hlive i h (hi.live i (hmem i h))
  case same =>
    intro q hq
    rw [hitems] at hq
    have hq' : q.index ∈ w.holders := List.mem_append_left _ (List.mem_map_of_mem hq)
    rw [hsame q.index (hi.not_executing hq) hq']
    exact hi.same q hq
  case fresh =>
    intro q hq
    rw [hitems] at hq
    rw [hdequeued]
    exact hi.fresh q hq
  case once => exact hdequeued ▸ hi.once
  case network => exact hnetwork
  case boot =>
    have hboot := hi.boot
    unfold BootPhase at hboot ⊢
    rw [hmain, hdequeued]
    cases hm : w.main <;> simp only [hm] at hboot ⊢
    case reconciling c k => exact ⟨fun i h => hboot.1 i (hmem i h), hboot.2⟩
    all_goals
      refine ⟨List.eq_nil_iff_forall_not_mem.2 fun i h => ?_, hboot.2⟩
      have := hmem i h
      rw [hboot.1] at this
      cases this
  case rebooted => exact hrebooted ▸ hi.rebooted
  case unspent =>
    intro i h ht
    rw [hrebooted, (hcommand i).1]
    rw [(hcommand i).2] at ht
    refine hi.unspent i ?_ ht
    rw [hitems] at h
    rcases List.mem_append.1 h with h | h
    · exact List.mem_append_left _ h
    · exact List.mem_append_right _ (hcontrol i h)
  case restart => exact fun i h => (hcommand i).2.trans (hrestart i h)

/-- A step that leaves the ledger alone. -/
theorem keep (hi : DispatchInv w) (hledger : w'.ledger = w.ledger) (hitems : w'.items = w.items)
    (hcount : ∀ i, w'.executing.count i ≤ w.executing.count i)
    (hcontrol : ∀ i ∈ w'.control.held, i ∈ w.control.held)
    (hrestart : ∀ i, w'.control = .restarting i → (w.ledger.entries i).type = .reboot)
    (hdequeued : w'.dequeued = w.dequeued) (hrebooted : w'.rebooted = w.rebooted)
    (hmain : w'.main = w.main) (hnetwork : NetworkPhase w') : DispatchInv w' := by
  refine hi.frame hitems hcount hcontrol hrestart (fun i _ h => ?_) (fun i _ _ => ?_) (fun i => ?_)
    hdequeued hrebooted hmain hnetwork <;> rw [hledger]
  · exact h
  · exact ⟨rfl, rfl⟩

/-- A step of a task that edits the entry it executes; a task that makes it terminal gives it up. -/
theorem edit (hi : DispatchInv w) {i : EntryIndex} {state : CommandState}
    (he : Edits i state w.ledger w'.ledger) (hexec : i ∈ w.executing)
    (hstate : state.terminal = false ∨ i ∉ w'.executing) (hitems : w'.items = w.items)
    (hcount : ∀ i, w'.executing.count i ≤ w.executing.count i)
    (hcontrol : ∀ i ∈ w'.control.held, i ∈ w.control.held)
    (hrestart : ∀ i, w'.control = .restarting i → (w.ledger.entries i).type = .reboot)
    (hdequeued : w'.dequeued = w.dequeued) (hrebooted : w'.rebooted = w.rebooted)
    (hmain : w'.main = w.main) (hnetwork : NetworkPhase w') : DispatchInv w' := by
  refine hi.frame hitems hcount hcontrol hrestart (fun j hj hlive => ?_) (fun j hj _ => ?_)
    (fun j => ⟨(he.command j).1, (he.command j).2.1⟩) hdequeued hrebooted hmain hnetwork
  · by_cases hji : j = i
    · subst hji
      simp only [unfinished, Command.occupied, Bool.and_eq_true, Bool.not_eq_true'] at hlive ⊢
      refine ⟨he.commandId ▸ hlive.1, ?_⟩
      rcases he.moved with hs | hs <;> rw [hs]
      · exact hlive.2
      · rcases hstate with h | h
        · exact h
        · -- given up by its task, and not among the items
          rcases List.mem_append.1 hj with hq | hx
          · obtain ⟨q, hq, hqj⟩ := List.mem_map.1 hq
            rw [hitems] at hq
            exact absurd (hqj ▸ hexec) (hi.not_executing hq)
          · exact absurd hx h
    · have hb := he.rest j hji
      simp only [unfinished, Command.occupied_of_bare hb, Command.state_of_bare hb]
      exact hlive
  · have hji : j ≠ i := fun h => hj (h ▸ hexec)
    exact he.rest j hji

/-- An entry can be sent. -/
structure Sendable (w : World) (i : EntryIndex) : Prop where
  unfinished : unfinished (w.ledger.entries i) = true
  fresh : w.dequeued i = 0
  unspent : (w.ledger.entries i).type = .reboot → (w.ledger.entries i).commandId.str ∉ w.rebooted

/-- A step that changes no entry that is held, and perhaps sends one that is not. -/
theorem send (hi : DispatchInv w)
    (hbare : ∀ j ∈ w.holders, (w'.ledger.entries j).bare = (w.ledger.entries j).bare)
    (hexec : w'.executing = w.executing) (hheld : w'.control.held = w.control.held)
    (hrestart : ∀ i, w'.control = .restarting i → w.control = .restarting i)
    (hitems : w'.items = w.items ∨ ∃ i, i ∉ w.holders ∧ Sendable w' i ∧
      w'.items = w.items ++ [⟨i, w'.ledger.entries i⟩])
    (hdequeued : ∀ j ∈ w.holders, w'.dequeued j = w.dequeued j) (honce : ∀ j, w'.dequeued j ≤ 1)
    (hrebooted : w'.rebooted.Sublist w.rebooted) (hnetwork : NetworkPhase w')
    (hboot : BootPhase w') : DispatchInv w' := by
  have hitem : ∀ q ∈ w'.items, q ∈ w.items ∨
      (q.command = w'.ledger.entries q.index ∧ Sendable w' q.index) := by
    intro q hq
    rcases hitems with h | ⟨i, -, hnew, h⟩ <;> rw [h] at hq
    · exact .inl hq
    · rcases List.mem_append.1 hq with hq | hq
      · exact .inl hq
      · obtain rfl := List.mem_singleton.1 hq
        exact .inr ⟨rfl, hnew⟩
  have hold : ∀ q ∈ w.items, q.index ∈ w.holders := fun q hq =>
    List.mem_append_left _ (List.mem_map_of_mem hq)
  have hlive : ∀ j ∈ w.holders, Runtime.unfinished (w'.ledger.entries j) = true := by
    intro j hj
    have hb := hbare j hj
    rw [Runtime.unfinished, Command.occupied_of_bare hb, Command.state_of_bare hb]
    exact hi.live j hj
  have hspent : ∀ j ∈ w.items.map Queued.index ++ w.control.held,
      (w'.ledger.entries j).type = .reboot →
        (w'.ledger.entries j).commandId.str ∉ w'.rebooted := by
    intro j hj ht hmem
    have hj' : j ∈ w.holders := by
      rcases List.mem_append.1 hj with h | h
      · exact List.mem_append_left _ h
      · exact List.mem_append_right _ (List.mem_append_left _ h)
    have hb := hbare j hj'
    rw [Command.type_of_bare hb] at ht
    rw [Command.commandId_of_bare hb] at hmem
    exact hi.unspent j hj ht (hrebooted.subset hmem)
  constructor
  case nodup =>
    rw [World.holders, hexec]
    rcases hitems with h | ⟨i, hfree, -, h⟩ <;> rw [h]
    · exact hi.nodup
    · have hperm : ((w.items ++ [(⟨i, w'.ledger.entries i⟩ : Queued)]).map Queued.index ++
          w.executing).Perm (i :: w.holders) := by
        simp only [List.map_append, List.map_cons, List.map_nil, List.append_assoc,
          List.cons_append, List.nil_append]
        exact List.perm_middle
      exact hperm.nodup_iff.2 (List.nodup_cons.2 ⟨hfree, hi.nodup⟩)
  case live =>
    intro j hj
    rcases List.mem_append.1 hj with h | h
    · obtain ⟨q, hq, rfl⟩ := List.mem_map.1 h
      rcases hitem q hq with hq | ⟨-, hnew⟩
      · exact hlive _ (hold q hq)
      · exact hnew.unfinished
    · exact hlive j (List.mem_append_right _ (hexec ▸ h))
  case same =>
    intro q hq
    rcases hitem q hq with hq | ⟨h, -⟩
    · rw [hbare _ (hold q hq)]
      exact hi.same q hq
    · rw [h]
  case fresh =>
    intro q hq
    rcases hitem q hq with hq | ⟨-, hnew⟩
    · rw [hdequeued _ (hold q hq)]
      exact hi.fresh q hq
    · exact hnew.fresh
  case once => exact honce
  case network => exact hnetwork
  case boot => exact hboot
  case rebooted => exact hi.rebooted.sublist hrebooted
  case unspent =>
    intro j hj
    rw [hheld] at hj
    rcases List.mem_append.1 hj with h | h
    · obtain ⟨q, hq, rfl⟩ := List.mem_map.1 h
      rcases hitem q hq with hq | ⟨-, hnew⟩
      · exact hspent _ (List.mem_append_left _ (List.mem_map_of_mem hq))
      · exact hnew.unspent
    · exact hspent j (List.mem_append_right _ h)
  case restart =>
    intro j hj
    have hj := hrestart j hj
    have hmem : j ∈ w.holders :=
      List.mem_append_right _ (List.mem_append_left _ (by simp [hj, ControlPc.held]))
    rw [Command.type_of_bare (hbare j hmem)]
    exact hi.restart j hj

end DispatchInv

end PowerMonitor.Runtime
