import PowerMonitor.Runtime.Dispatch.Invariant

/-!
# Reconciling commands

`app_main` keeps the dispatch invariant: nothing is held before it reconciles, and what it queues
again is held by nobody.
-/

namespace PowerMonitor.Runtime

open AbStore CJson Commands Ota

variable [Sha256] {w : World}

omit [Sha256] in
/-- `app_main` goes on without touching a command. -/
theorem dispatch_main_turn (hi : DispatchInv w) (nvs : Slots Ledger) (flash : OtaFlash)
    (pc : MainPc) (hnetwork : NetworkPhase { w with main := pc })
    (hboot : BootPhase { w with main := pc }) :
    DispatchInv { w with nvs := nvs, flash := flash, main := pc } :=
  hi.send (fun _ _ => rfl) rfl rfl (fun _ h => h) (.inl rfl) (fun _ _ => rfl) hi.once
    (List.Sublist.refl _) hnetwork hboot

omit [Sha256] in
/-- What is queued again at boot is not terminal, and neither restarts the device nor installs an
image. -/
theorem requeue_spec {c : Command} (h : commandBootAction c = .requeue) :
    c.state.terminal = false ∧ c.type ≠ .reboot ∧ c.type ≠ .otaInstall := by
  unfold commandBootAction at h
  cases hs : c.state <;> cases ht : c.type <;>
    simp_all [CommandState.terminal, CommandType.inRange]

theorem dispatch_reconcileEntry (hi : DispatchInv w) {c : Checkpoint} (i : EntryIndex)
    (hpc : w.main = .reconciling c i) (env : Env) : DispatchInv (w.reconcileEntry c i env) := by
  have hboot := hi.boot
  rw [BootPhase, hpc] at hboot
  have hnetwork : w.network = .stopped := by
    have := hi.network
    rwa [NetworkPhase, hpc] at this
  have hfree : i ∉ w.holders := fun h => absurd (hboot.1 i h) (lt_irrefl _)
  -- the loop goes on, or the boot is given up
  have hnext : ∀ w' : World, (∀ j ∈ w'.holders, j ∈ w.holders ∨ j = i) → w'.dequeued = w.dequeued →
      (w'.main = .reconciling c (i.val + 1) ∨ w'.main = .restarting) → BootPhase w' := by
    intro w' hmem hdeq hm
    rcases hm with hm | hm <;> rw [BootPhase, hm]
    · refine ⟨fun j hj => ?_, fun j hj => ?_⟩
      · rcases hmem j hj with h | rfl
        · exact Nat.lt_succ_of_lt (hboot.1 j h)
        · exact Nat.lt_succ_self _
      · rw [hdeq]
        exact hboot.2 j (Nat.le_of_succ_le hj)
    · trivial
  have hstop : ∀ w' : World, w'.network = w.network →
      (w'.main = .reconciling c (i.val + 1) ∨ w'.main = .restarting) → NetworkPhase w' := by
    exact fun w' hn _ => .stopped (hn.trans hnetwork)
  have hskip : ∀ pc, (pc = .reconciling c (i.val + 1) ∨ pc = .restarting) →
      DispatchInv { w with main := pc } := fun pc h =>
    dispatch_main_turn hi w.nvs w.flash pc (hstop _ rfl h) (hnext _ (fun _ h => .inl h) rfl h)
  unfold World.reconcileEntry
  dsimp only
  split
  · exact hskip _ (.inl rfl)
  next hocc =>
  split
  next state code text _ =>
    refine World.call_ind ?_ fun e _ => ?_
    · refine DispatchInv.reset _ ?_ _
      exact hi.rebooted
    have hch := changed_reconcile w.ledger i state code text env.mallocOk w.nvs env.fault
    have hm : (if e = EspErr.ok then MainPc.reconciling c (i.val + 1) else .restarting) =
        .reconciling c (i.val + 1) ∨
        (if e = EspErr.ok then MainPc.reconciling c (i.val + 1) else .restarting) =
          .restarting := by
      split
      · exact .inl rfl
      · exact .inr rfl
    refine hi.send (fun j hj => ?_) rfl rfl (fun _ h => h) (.inl rfl) (fun _ _ => rfl) hi.once
      (List.Sublist.refl _) (hstop _ rfl hm) (hnext _ (fun _ h => .inl h) rfl hm)
    exact hch.rest j fun h => hfree (h ▸ hj)
  · split
    next hre =>
      split
      · have hspec := requeue_spec hre
        have hheld : w.network.held = [] := by rw [hnetwork]; rfl
        refine hi.send (fun _ _ => rfl) rfl rfl (fun _ h => h)
          (.inr ⟨i, hfree, ⟨?_, hboot.2 i le_rfl, fun h => absurd h hspec.2.1⟩, ?_⟩)
          (fun _ _ => rfl) hi.once (List.Sublist.refl _) (hstop _ rfl (.inl rfl))
          (hnext _ (fun j hj => ?_) rfl (.inl rfl))
        · rw [Bool.not_eq_true, Bool.not_eq_false'] at hocc
          simp [unfinished, hocc, hspec.1]
        · simp only [World.items, hheld, List.append_nil]
        · simp only [World.holders, World.items, World.executing, hheld, List.append_nil,
            List.map_append, List.map_cons, List.map_nil, List.mem_append, List.mem_singleton] at hj ⊢
          tauto
      · exact hskip _ (.inr rfl)
    · exact hskip _ (.inl rfl)

omit [Sha256] in
/-- Nothing is held before boot reconciles. -/
theorem dispatch_early (hi : DispatchInv w) {pc : MainPc} (hpc : w.main = pc)
    (hearly : pc = .booting ∨ pc = .starting ∨ (∃ s, pc = .validating s) ∨ pc = .loading ∨
      ∃ c, pc = .locking c) :
    w.network = .stopped ∧ w.holders = [] ∧ ∀ i, w.dequeued i = 0 := by
  have hboot := hi.boot
  have hnetwork := hi.network
  rw [BootPhase, hpc] at hboot
  rw [NetworkPhase, hpc] at hnetwork
  obtain rfl | rfl | ⟨s, rfl⟩ | rfl | ⟨c, rfl⟩ := hearly <;> exact ⟨hnetwork, hboot⟩

theorem dispatch_main (hi : DispatchInv w) (env : Env) : DispatchInv (w.stepMain env) := by
  have hreset : ∀ nvs flash, DispatchInv
      (World.reset { w with nvs := nvs, flash := flash } env.ota.boot) := by
    intro nvs flash
    refine DispatchInv.reset _ ?_ _
    exact hi.rebooted
  unfold World.stepMain
  split
  next hpc =>
    obtain ⟨hn, hh, hd⟩ := dispatch_early hi hpc (.inl rfl)
    split
    · exact dispatch_main_turn hi w.nvs w.flash _ (.stopped hn) trivial
    dsimp only
    split
    · exact hreset _ w.flash
    split
    · refine hi.send (fun j hj => ?_) rfl rfl (fun _ h => h) (.inl rfl) (fun _ _ => rfl) hi.once
        (List.Sublist.refl _) (.stopped hn) ⟨hh, hd⟩
      rw [hh] at hj
      cases hj
    · exact dispatch_main_turn hi _ w.flash _ (.stopped hn) trivial
  next hpc =>
    obtain ⟨hn, hh, hd⟩ := dispatch_early hi hpc (.inr (.inl rfl))
    split
    · exact dispatch_main_turn hi w.nvs w.flash _ (.stopped hn) trivial
    · -- the control task starts with nothing to execute
      have hidle : w.control.held = [] := (List.append_eq_nil_iff.1 (List.append_eq_nil_iff.1 hh).2).1
      have hexec : ControlPc.polling.held ++ w.tasks.flatMap OtaTask.held = w.executing := by
        rw [World.executing, hidle]
        rfl
      refine hi.send (fun _ _ => rfl) hexec hidle.symm (fun _ h => by cases h) (.inl rfl)
        (fun _ _ => rfl) hi.once (List.Sublist.refl _) (.stopped hn) ?_
      split
      · have hnone : w.items.map Queued.index ++
            (ControlPc.polling.held ++ w.tasks.flatMap OtaTask.held) = [] := by
          rw [hexec]
          exact hh
        exact ⟨hnone, hd⟩
      · trivial
  next e hpc =>
    obtain ⟨hn, hh, hd⟩ := dispatch_early hi hpc (.inr (.inr (.inl ⟨_, rfl⟩)))
    refine dispatch_main_turn hi w.nvs w.flash _ (.stopped hn) ?_
    split
    · exact ⟨hh, hd⟩
    · trivial
  next s _ hpc =>
    obtain ⟨hn, hh, hd⟩ := dispatch_early hi hpc (.inr (.inr (.inl ⟨_, rfl⟩)))
    dsimp only
    split
    · exact hreset w.nvs _
    · exact dispatch_main_turn hi w.nvs _ _ (.stopped hn) ⟨hh, hd⟩
  next hpc =>
    obtain ⟨hn, hh, hd⟩ := dispatch_early hi hpc (.inr (.inr (.inr (.inl rfl))))
    dsimp only
    split
    · exact hreset w.nvs _
    · refine dispatch_main_turn hi w.nvs _ _ (.stopped hn) ?_
      split
      · exact ⟨hh, hd⟩
      · trivial
  next c hpc =>
    obtain ⟨hn, hh, hd⟩ := dispatch_early hi hpc (.inr (.inr (.inr (.inr ⟨c, rfl⟩))))
    split
    · exact hi
    · refine dispatch_main_turn hi w.nvs w.flash _ (.stopped hn) ⟨fun i hi => ?_, fun i _ => hd i⟩
      have hi : i ∈ w.holders := hi
      rw [hh] at hi
      cases hi
  next c i hpc =>
    split
    · exact dispatch_reconcileEntry hi _ hpc env
    · have hn : w.network = .stopped := by
        have := hi.network
        rwa [NetworkPhase, hpc] at this
      refine hi.send (fun _ _ => rfl) rfl rfl (fun _ h => h) (.inl ?_) (fun _ _ => rfl) hi.once
        (List.Sublist.refl _) (.started rfl) (.started rfl)
      rw [World.items, World.items, hn]
      rfl
  · exact hreset w.nvs w.flash
  · exact hi
  · exact hi

/-- `app_main` sends a command only when it reconciles, and then one of the types that are queued
again. -/
theorem stepMain_queue (w : World) (env : Env) :
    (w.stepMain env).queue = w.queue ∨ (w.stepMain env).queue = [] ∨
      ∃ q : Queued, commandBootAction q.command = .requeue ∧
        (w.stepMain env).queue = w.queue ++ [q] := by
  let P : World → Prop := fun w' => w'.queue = w.queue ∨ w'.queue = [] ∨
    ∃ q : Queued, commandBootAction q.command = .requeue ∧ w'.queue = w.queue ++ [q]
  have hentry : ∀ c i, P (w.reconcileEntry c i env) := by
    intro c i
    unfold World.reconcileEntry
    dsimp only
    split
    · exact .inl rfl
    split
    · exact World.call_ind (.inr (.inl rfl)) fun _ _ => .inl rfl
    split
    next hre =>
      split
      · exact .inr (.inr ⟨_, hre, rfl⟩)
      · exact .inl rfl
    · exact .inl rfl
  show P (w.stepMain env)
  unfold World.stepMain
  split
  · split
    · exact .inl rfl
    dsimp only
    split
    · exact .inr (.inl rfl)
    split <;> exact .inl rfl
  · split <;> exact .inl rfl
  · exact .inl rfl
  · dsimp only
    split
    · exact .inr (.inl rfl)
    · exact .inl rfl
  · dsimp only
    split
    · exact .inr (.inl rfl)
    · exact .inl rfl
  · split <;> exact .inl rfl
  · split
    · exact hentry _ _
    · exact .inl rfl
  · exact .inr (.inl rfl)
  · exact .inl rfl
  · exact .inl rfl

end PowerMonitor.Runtime
