import PowerMonitor.Runtime.Dispatch.Invariant

/-!
# Executing a command

The control task and the OTA tasks keep the dispatch invariant. An OTA task holds its entry until
its last write to it; the control task takes entries from the queue and hands those of `ota_install`
commands on.
-/

namespace PowerMonitor.Runtime

open AbStore CJson Commands Ota

/-! ## The OTA tasks -/

/-- Replacing one element of a list, in the count of what its elements hold. -/
theorem count_flatMap_set {α β : Type} [DecidableEq β] (f : α → List β) (b : β) (l : List α) (k : ℕ)
    (a a' : α) (ha : l[k]? = some a) :
    ((l.set k a').flatMap f).count b + (f a).count b = (l.flatMap f).count b + (f a').count b := by
  induction l generalizing k with
  | nil => cases ha
  | cons x l ih =>
    cases k with
    | zero =>
      obtain rfl : x = a := by simpa using ha
      simp only [List.set_cons_zero, List.flatMap_cons, List.count_append]
      omega
    | succ k =>
      have := ih k (by simpa using ha)
      simp only [List.set_cons_succ, List.flatMap_cons, List.count_append]
      omega

variable [Sha256] [Parser] [Base64]

theorem dispatch_task {w : World} (hi : DispatchInv w) (k : ℕ) (env : Env) :
    DispatchInv (w.stepTask k env) := by
  rcases w.stepTask_frame k env with ⟨nvs, flash, ledger, h⟩ | ⟨hf, hm⟩
  · rw [h]
    refine DispatchInv.reset _ ?_ _
    exact hi.rebooted
  have hitems : (w.stepTask k env).items = w.items := by
    rw [World.items, hf.queue, hf.network, World.items]
  have hnetwork : NetworkPhase (w.stepTask k env) := by
    have := hi.network
    unfold NetworkPhase at this ⊢
    rwa [hf.main, hf.network]
  have hcontrol : ∀ i ∈ (w.stepTask k env).control.held, i ∈ w.control.held := by
    rw [hf.control]
    exact fun _ h => h
  have hrestart : ∀ i, (w.stepTask k env).control = .restarting i →
      (w.ledger.entries i).type = .reboot := by
    rw [hf.control]
    exact hi.restart
  cases hm with
  | stays htasks _ hledger =>
    refine hi.keep hledger hitems (fun i => ?_) hcontrol hrestart hf.dequeued hf.rebooted hf.main hnetwork
    rw [World.executing, hf.control, htasks, World.executing]
  | moves t pc state ht hpc htasks _ hedit hstate =>
    have hheld : t.held = [t.index] := by
      cases h : t.pc <;> simp_all [OtaTask.held]
    have hset : ∀ i, (w.stepTask k env).executing.count i + (t.held).count i =
        w.executing.count i + (OtaTask.held { t with pc := pc }).count i := by
      intro i
      have := count_flatMap_set OtaTask.held i w.tasks k t { t with pc := pc } ht
      simp only [World.executing, hf.control, htasks, List.count_append]
      omega
    have hnew : ∀ i, (OtaTask.held { t with pc := pc }).count i ≤ t.held.count i := by
      intro i
      rw [hheld]
      cases pc <;> simp [OtaTask.held]
    have hexec : t.index ∈ w.executing :=
      List.mem_append_right _ (List.mem_flatMap.2 ⟨t, List.mem_of_getElem? ht, by simp [hheld]⟩)
    refine hi.edit hedit hexec ?_ hitems (fun i => ?_) hcontrol hrestart hf.dequeued hf.rebooted hf.main
      hnetwork
    · refine hstate.imp_right fun h => ?_
      obtain ⟨-, rfl⟩ := h
      have h₁ := hset t.index
      have h₂ := List.nodup_iff_count_le_one.1 hi.nodup t.index
      simp only [World.holders, List.count_append] at h₂
      rw [hheld] at h₁
      simp only [OtaTask.held, List.count_nil, List.count_singleton_self] at h₁
      rw [← List.count_eq_zero]
      omega
    · have h₁ := hset i
      have h₂ := hnew i
      omega
  | ends t ht hpc htasks _ hledger =>
    refine hi.keep hledger hitems (fun i => ?_) hcontrol hrestart hf.dequeued hf.rebooted hf.main hnetwork
    simp only [World.executing, hf.control, htasks, List.count_append]
    have := ((List.eraseIdx_sublist w.tasks k).flatMap OtaTask.held).count_le i
    omega

/-! ## The control task -/

section Control

omit [Parser] [Base64]

variable {w : World}

/-- A transition the control task makes on the entry it executes. -/
theorem dispatch_transition (hi : DispatchInv w) {i : EntryIndex} {state : CommandState}
    {progress : ℕ} {code : ℤ} {env : Env} {k : EspErr → World → World}
    (hheld : w.control.held = [i])
    (hk : ∀ e w₂, (k e w₂) = { w₂ with control := (k e w₂).control })
    (hnext : ∀ e w₂, (k e w₂).control.held = [] ∨
      ((k e w₂).control.held = [i] ∧ state.terminal = false))
    (hrestart : ∀ e w₂ j, (k e w₂).control = .restarting j →
      (w.ledger.entries j).type = .reboot) :
    DispatchInv (w.call (.transition i state progress code env.mallocOk) env k) := by
  have hexec : i ∈ w.executing := List.mem_append_left _ (by simp [hheld])
  refine World.call_ind ?_ fun e _ => ?_
  · refine DispatchInv.reset _ ?_ _
    exact hi.rebooted
  generalize hw₂ : ({ w with
    ledger := ((Call.transition i state progress code env.mallocOk).perform w.ledger w.nvs
      env.fault).ledger
    nvs := ((Call.transition i state progress code env.mallocOk).perform w.ledger w.nvs
      env.fault).nvs } : World) = w₂
  have hnext := hnext e w₂
  have hedit : Edits i state w.ledger w₂.ledger := by
    rw [← hw₂]
    exact edits_transition w.ledger i state progress code _ _ _
  rw [hk e w₂]
  have hrestart := hrestart e w₂
  generalize (k e w₂).control = pc at hnext hrestart
  subst hw₂
  have hcount : ∀ j, (pc.held ++ w.tasks.flatMap OtaTask.held).count j ≤ w.executing.count j := by
    intro j
    rcases hnext with h | ⟨h, -⟩
    · simp only [World.executing, h, hheld, List.count_append, List.count_nil]
      omega
    · simp only [World.executing, h, hheld, le_refl]
  refine hi.edit hedit hexec ?_ rfl hcount (fun j hj => ?_) hrestart rfl rfl rfl hi.network
  · rcases hnext with h | ⟨-, h⟩
    · -- given up: no OTA task holds it either
      refine .inr fun hmem => ?_
      have h₁ := List.nodup_iff_count_le_one.1 hi.nodup i
      simp only [World.holders, World.executing, hheld, List.count_append,
        List.count_singleton_self] at h₁
      simp only [World.executing, h, List.nil_append] at hmem
      have h₂ := List.count_pos_iff.2 hmem
      omega
    · exact .inl h
  · rcases hnext with h | ⟨h, -⟩
    · rw [h] at hj
      cases hj
    · rwa [hheld, ← h]

omit [Sha256] in
/-- The control task goes on with the entry it executes. -/
theorem dispatch_goto (hi : DispatchInv w) {pc : ControlPc} {i : EntryIndex}
    (hheld : w.control.held = [i]) (hnext : pc.held = [i]) (hpc : ∀ j, pc ≠ .restarting j)
    (active : Bool) (ledger : Ledger) (hedit : Edits i .running w.ledger ledger) :
    DispatchInv { w with ledger := ledger, otaActive := active, control := pc } := by
  have hexec : i ∈ w.executing := List.mem_append_left _ (by simp [hheld])
  refine hi.edit hedit hexec (.inl rfl) rfl (fun j => ?_) (fun j hj => ?_)
    (fun j h => absurd h (hpc j)) rfl rfl rfl hi.network
  · simp [World.executing, hnext, hheld]
  · rwa [hheld, ← hnext]

theorem dispatch_execute (hi : DispatchInv w) {i : EntryIndex} (hpc : w.control = .running i)
    (env : Env) : DispatchInv (w.execute i env) := by
  have hheld : w.control.held = [i] := by rw [hpc]; rfl
  unfold World.execute
  split
  next ht =>
    refine dispatch_transition hi hheld (fun _ _ => rfl) (fun e w₂ => .inr ?_) fun e w₂ j hj => ?_
    · dsimp only
      split <;> exact ⟨rfl, rfl⟩
    · dsimp only at hj
      split at hj
      · obtain rfl := ControlPc.restarting.inj hj
        exact ht
      · cases hj
  · exact dispatch_goto hi hheld rfl (fun _ h => by cases h) w.otaActive _ (w.edits_writeText i _ _)
  · exact dispatch_goto hi hheld rfl (fun _ h => by cases h) w.otaActive _ (w.edits_writeText i _ _)
  · exact dispatch_goto hi hheld rfl (fun _ h => by cases h) w.otaActive _ (w.edits_writeText i _ _)
  all_goals exact dispatch_goto hi hheld rfl (fun _ h => by cases h) w.otaActive w.ledger (.refl _ _ _)

omit [Sha256] in
/-- The loop of the control task goes on without an entry. -/
theorem dispatch_turn (hi : DispatchInv w) {pc : ControlPc} (hheld : w.control.held = [])
    (hnext : pc.held = []) : DispatchInv { w with control := pc } := by
  refine hi.keep rfl rfl (fun j => ?_) (fun j hj => ?_) (fun j h => ?_) rfl rfl rfl hi.network
  · simp [World.executing, hnext, hheld]
  · rwa [hheld, ← hnext]
  · dsimp only at h
    rw [h] at hnext
    cases hnext

/-- An acknowledgement is about a command that has succeeded, and such a command is not held. -/
theorem dispatch_acknowledge (hi : DispatchInv w) (id : List UInt8) (acks : List (List UInt8))
    (env : Env) :
    DispatchInv (World.call { w with acks := acks } (.acknowledgeResult id) env fun _ w => w) := by
  refine World.call_ind ?_ fun e _ => ?_
  · refine DispatchInv.reset _ ?_ _
    exact hi.rebooted
  have hack := acknowledge_frame w.ledger id w.nvs env.fault
  generalize hl : (commandAcknowledgeResult w.ledger id w.nvs env.fault) = o at hack
  have hlive : ∀ j, unfinished (w.ledger.entries j) = true →
      (o.ledger.entries j).bare = (w.ledger.entries j).bare := by
    intro j hj
    rcases hack j with h | ⟨h, -⟩
    · exact h
    · simp [unfinished, h, CommandState.terminal] at hj
  refine hi.frame rfl (fun _ => le_rfl) (fun _ h => h) hi.restart (fun j _ h => ?_) (fun j _ h => ?_)
    (fun j => ?_) rfl rfl rfl hi.network <;> dsimp only [Call.perform] <;> rw [hl]
  · have hb := hlive j h
    rwa [unfinished, Command.occupied_of_bare hb, Command.state_of_bare hb]
  · exact hlive j (hi.live j h)
  · rcases hack j with hb | ⟨-, hb⟩
    · exact ⟨Command.commandId_of_bare hb, Command.type_of_bare hb⟩
    · have hid := Command.commandId_of_bare hb
      have htype := Command.type_of_bare hb
      exact ⟨hid, htype⟩

omit [Sha256] in
/-- The control task receives an item: it holds the entry that the queue held. -/
theorem dispatch_receive (hi : DispatchInv w) {q : Queued} {queue : List Queued}
    (hheld : w.control.held = []) (hqueue : w.queue = q :: queue) :
    DispatchInv { w with
      queue := queue
      control := .starting q.index
      dequeued := Function.update w.dequeued q.index (w.dequeued q.index + 1) } := by
  generalize hw' : ({ w with
    queue := queue
    control := .starting q.index
    dequeued := Function.update w.dequeued q.index (w.dequeued q.index + 1) } : World) = w'
  have hq : q ∈ w.items := List.mem_append_left _ (by simp [hqueue])
  have hitems : w.items = q :: w'.items := by simp [← hw', World.items, hqueue]
  have hperm : w'.holders.Perm w.holders := by
    simp only [World.holders, hitems, World.executing, hheld, List.map_cons, List.nil_append,
      List.cons_append]
    subst hw'
    exact List.perm_middle
  have hother : ∀ p ∈ w'.items, p.index ≠ q.index := by
    intro p hp h
    have hnd := hi.nodup.sublist (List.sublist_append_left _ _)
    rw [hitems, List.map_cons, List.nodup_cons] at hnd
    exact hnd.1 (h ▸ List.mem_map_of_mem hp)
  have hheld' : w'.control.held = [q.index] := by rw [← hw']; rfl
  have hledger : w'.ledger = w.ledger := by rw [← hw']
  have hdeq : w'.dequeued = Function.update w.dequeued q.index 1 := by
    rw [← hw', hi.fresh q hq]
  constructor
  case nodup => exact hperm.nodup_iff.2 hi.nodup
  case live => exact fun i h => hledger ▸ hi.live i (hperm.mem_iff.1 h)
  case same => exact fun p hp => hledger ▸ hi.same p (hitems ▸ List.mem_cons_of_mem _ hp)
  case fresh =>
    intro p hp
    rw [hdeq, Function.update_of_ne (hother p hp)]
    exact hi.fresh p (hitems ▸ List.mem_cons_of_mem _ hp)
  case once =>
    intro i
    rw [hdeq]
    by_cases h : i = q.index
    · simp [h]
    · rw [Function.update_of_ne h]
      exact hi.once i
  case network => rw [← hw']; exact hi.network
  case boot =>
    have hboot := hi.boot
    have hmem : q.index ∈ w.holders := List.mem_append_left _ (List.mem_map_of_mem hq)
    have hmain : w'.main = w.main := by rw [← hw']
    unfold BootPhase at hboot ⊢
    rw [hmain]
    cases hm : w.main <;> simp only [hm] at hboot ⊢
    case reconciling c k =>
      refine ⟨fun i h => hboot.1 i (hperm.mem_iff.1 h), fun i h => ?_⟩
      have hne : i ≠ q.index := by
        rintro rfl
        exact absurd (hboot.1 _ hmem) (Nat.not_lt.2 h)
      rw [hdeq, Function.update_of_ne hne]
      exact hboot.2 i h
    all_goals
      rw [hboot.1] at hmem
      cases hmem
  case rebooted => rw [← hw']; exact hi.rebooted
  case unspent =>
    intro i h
    have hmem : i ∈ w.items.map Queued.index ++ w.control.held := by
      rw [hheld'] at h
      rw [hitems, hheld]
      simp only [List.map_cons, List.append_nil, List.mem_cons, List.mem_append,
        List.not_mem_nil, or_false] at h ⊢
      exact h.symm
    have hreb : w'.rebooted = w.rebooted := by rw [← hw']
    rw [hledger, hreb]
    exact hi.unspent i hmem
  case restart =>
    intro i h
    rw [← hw'] at h
    cases h

omit [Sha256] in
/-- `xTaskCreate`: the new OTA task holds the entry that the control task held. -/
theorem dispatch_spawn (hi : DispatchInv w) {i : EntryIndex} (hheld : w.control.held = [i]) :
    DispatchInv { w with tasks := w.tasks ++ [⟨i, .parsing⟩], control := .polling } := by
  refine hi.keep rfl rfl (fun j => ?_) (fun j hj => ?_) (fun j h => ?_) rfl rfl rfl hi.network
  · have hnew : ControlPc.polling.held = [] := rfl
    have htask : OtaTask.held ⟨i, .parsing⟩ = [i] := rfl
    simp only [World.executing, hheld, hnew, htask, List.flatMap_append, List.count_append,
      List.flatMap_cons, List.flatMap_nil, List.append_nil, List.nil_append]
    omega
  · cases hj
  · cases h

theorem dispatch_control (hi : DispatchInv w) (env : Env) : DispatchInv (w.stepControl env) := by
  unfold World.stepControl
  split
  · exact hi
  next hpc =>
    split
    · exact hi
    · exact dispatch_turn hi (by rw [hpc]; rfl) rfl
  next hpc =>
    split
    · exact dispatch_turn hi (by rw [hpc]; rfl) rfl
    · exact dispatch_acknowledge hi _ _ env
  next hpc =>
    split
    · exact dispatch_turn hi (by rw [hpc]; rfl) rfl
    next q queue hqueue => exact dispatch_receive hi (by rw [hpc]; rfl) hqueue
  · split
    · exact hi
    next i hpc _ =>
    have hheld : w.control.held = [i] := by rw [hpc]; rfl
    exact dispatch_transition hi hheld (fun _ _ => rfl) (fun _ _ => .inr ⟨rfl, rfl⟩)
      fun _ _ _ h => by cases h
  next i hpc => exact dispatch_execute hi hpc env
  next i hpc =>
    have hheld : w.control.held = [i] := by rw [hpc]; rfl
    split
    · exact dispatch_goto hi hheld rfl (fun _ h => by cases h) w.otaActive w.ledger (.refl _ _ _)
    · exact dispatch_goto hi hheld rfl (fun _ h => by cases h) true w.ledger (.refl _ _ _)
  next i hpc =>
    have hheld : w.control.held = [i] := by rw [hpc]; rfl
    split
    · exact dispatch_goto hi hheld rfl (fun _ h => by cases h) w.otaActive w.ledger (.refl _ _ _)
    · exact dispatch_spawn hi hheld
  next i e _ hpc =>
    have hheld : w.control.held = [i] := by rw [hpc]; rfl
    exact dispatch_goto hi hheld rfl (fun _ h => by cases h) false w.ledger (.refl _ _ _)
  next i e hpc =>
    have hheld : w.control.held = [i] := by rw [hpc]; rfl
    exact dispatch_transition hi hheld (fun _ _ => rfl) (fun _ _ => .inl rfl) fun _ _ _ h => by cases h
  next i hpc =>
    refine DispatchInv.reset _ ?_ _
    refine List.nodup_cons.2 ⟨hi.unspent i ?_ (hi.restart i hpc), hi.rebooted⟩
    exact List.mem_append_right _ (by simp [hpc, ControlPc.held])

end Control

end PowerMonitor.Runtime
