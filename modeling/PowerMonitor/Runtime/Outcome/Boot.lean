import PowerMonitor.Runtime.Outcome.Invariant

/-!
# `app_main` keeps the outcome invariant

From the load of the ledger to the reconciliation: the open commands agree with the running image,
or the checkpoint that is loaded does not say `VALID`. Nothing that `app_main` does on its way makes
a command open, and it settles nothing before the image is marked valid.
-/

namespace PowerMonitor.Runtime

open AbStore CJson Commands Ota

variable [Sha256] [Parser] {w : World}

/-- What `app_main` keeps before it has started the network task. -/
structure BootInv (w : World) : Prop where
  tasks : w.tasks = []
  early : w.main ≠ .started → Early w
  waiting : Waiting w.flash w.selected
  boot : BootOk w

theorem BootInv.reset (hi : OutcomeInv w) {flash : OtaFlash} (hw : Waiting flash w.selected)
    (nvs : Slots Ledger) (env : BootEnv) :
    BootInv (World.reset { w with nvs := nvs, flash := flash } env) := by
  have h : OutcomeInv (World.reset { w with nvs := nvs, flash := flash } env) := by
    refine OutcomeInv.reset ?_ ?_ _
    exacts [hi.dispatch.rebooted, hw]
  exact ⟨rfl, h.early, h.waiting, h.boot⟩

/-- `app_main` goes on, with the same commands on their way. -/
theorem BootInv.goto (he : Early w) {flash : OtaFlash} (hw : Waiting flash w.selected)
    (nvs : Slots Ledger) (pc : MainPc) (hboot : BootOk { w with flash := flash, main := pc }) :
    BootInv { w with nvs := nvs, flash := flash, main := pc } :=
  ⟨he.tasks, fun _ => ⟨he.tasks, he.held, he.idle⟩, hw, hboot⟩

theorem boot_load (hi : OutcomeInv w) {owner : Option Command}
    (howner : ∀ c ∈ owner, Names c (w.flash.app w.flash.running)) (hpc : w.main = .booting)
    (env : Env) (hown : BootsOwn ⟨w, owner⟩ ⟨.main, env⟩) : BootInv (w.stepMain env) := by
  have hmain : w.main ≠ .started := by rw [hpc]; exact fun h => by cases h
  have he := hi.early hmain
  obtain ⟨-, hh, -⟩ := dispatch_early hi.dispatch hpc (.inl rfl)
  rw [World.stepMain, hpc]
  dsimp only
  split
  · exact .goto he hi.waiting w.nvs _ trivial
  split
  · exact .reset hi hi.waiting _ _
  next e hres =>
  split
  next hok =>
    subst hok
    have hown := hown rfl (by simp only [hpc]; rfl) hres
    refine ⟨he.tasks, fun _ => ⟨he.tasks, fun i hi' => ?_, he.idle⟩, hi.waiting, ?_⟩
    · -- nothing is held yet
      have hmem : i ∈ w.holders := by
        rcases List.mem_append.1 hi' with h | h
        · exact List.mem_append_left _ h
        · exact List.mem_append_right _ (List.mem_append_left _ h)
      rw [hh] at hmem
      cases hmem
    · by_cases hquiet : Quiet w.flash
      · exact .inr hquiet
      refine .inl fun i hopen => ?_
      obtain ⟨d, hd, -, hpay⟩ := (hown i hopen).resolve_right hquiet
      exact (names_congr hpay _).2 (howner d hd)
  · exact .goto he hi.waiting _ _ trivial

/-- The partitions and the commands are the same, and so is the image they name. -/
theorem ImageOk.flash (h : ImageOk w) {flash : OtaFlash} (happ : flash.app = w.flash.app)
    (hrunning : flash.running = w.flash.running) (pc : MainPc) :
    ImageOk { w with flash := flash, main := pc } :=
  h.opens (.refl rfl) happ hrunning

theorem Settles.goto (h : Settles w) (slots : Slots Checkpoint) (pc : MainPc) :
    Settles { w with flash := { w.flash with checkpoints := slots }, main := pc } :=
  h.opens (.refl rfl) rfl rfl rfl

/-- A quiet flash, or one whose image the open commands name, once it is settled. -/
theorem settles_or_unvalidated (h : ImageOk w ∨ Quiet w.flash)
    (hsettled : w.flash.verification = .settled) : Settles w ∨ Unvalidated w.flash :=
  h.imp (fun himage => settles_of_imageOk himage hsettled) And.right

theorem boot_validate (hi : OutcomeInv w) {s : Validate} (hpc : w.main = .validating s) (env : Env)
    (hread : ReadsState w ⟨.main, env⟩) : BootInv (w.stepMain env) := by
  have hmain : w.main ≠ .started := by rw [hpc]; exact fun h => by cases h
  have he := hi.early hmain
  have hboot := hi.boot
  rw [BootOk, hpc] at hboot
  rw [World.stepMain, hpc]
  by_cases hret : ∃ e, s = .returned e
  · obtain ⟨e, rfl⟩ := hret
    refine .goto he hi.waiting w.nvs _ ?_
    split
    next hok => exact (hboot hok).imp_left fun h => h.goto _ _
    · trivial
  have hs : ∀ e, s ≠ .returned e := fun e h => hret ⟨e, h⟩
  obtain ⟨hrun, happ, hsel⟩ := validate_frame s w.flash env.ota
  have hw : Waiting (s.step w.flash env.ota).flash w.selected :=
    hi.waiting.of_eq hrun happ (.inl hsel)
  have hnext : ∀ s', (s.step w.flash env.ota).next = some s' →
      BootOk { w with flash := (s.step w.flash env.ota).flash, main := .validating s' } := by
    intro s' hs'
    by_cases hchecking : s = .checking
    · -- the only step that a quiet flash reaches, and it returns at once
      subst hchecking
      have hreturned : Settles w ∨ Unvalidated w.flash →
          BootOk { w with main := .validating (.returned .ok) } := fun h _ =>
        h.imp_left fun h => h.goto _ _
      rw [Validate.step] at hs' ⊢
      cases hanswer : env.ota.answer with
      | some e =>
        rw [hanswer] at hs'
        cases hs'
        refine hreturned ?_
        by_cases hpending : w.flash.pending = true
        · have hcond := hread rfl (by rw [hpc]; rfl) (by rw [hanswer]; simp) hpending
          rcases hcond with hvalid | hnone
          · exact .inr hvalid
          · exact .inl fun i hopen => by rw [hnone i] at hopen; cases hopen
        · exact settles_or_unvalidated hboot (by simpa [OtaFlash.pending] using hpending)
      | none =>
        rw [hanswer] at hs'
        dsimp only at hs' ⊢
        split at hs'
        next hpending =>
          cases hs'
          have himage : ImageOk w := hboot.resolve_right fun hq => by
            simp [OtaFlash.pending, hq.1] at hpending
          exact himage.flash rfl rfl _
        next hsettled =>
          cases hs'
          exact hreturned
            (settles_or_unvalidated hboot (by simpa [OtaFlash.pending] using hsettled))
    · have himage : ImageOk w := by
        cases s with
        | checking => exact absurd rfl hchecking
        | returned e => exact absurd rfl (hs e)
        | _ => exact hboot
      have himage := himage.flash happ hrun (.validating s')
      cases s' with
      | returned e =>
        rintro rfl
        exact .inl (settles_of_imageOk himage (validate_settles hs (absurd · hchecking) hs'))
      | checking => exact .inl himage
      | _ => exact himage
  cases s with
  | returned e => exact absurd rfl (hs e)
  | _ =>
    dsimp only
    split
    · exact .reset hi hw w.nvs _
    next s' hs' => exact .goto he hw w.nvs _ (hnext s' hs')

omit [Sha256] [Parser] in
/-- What boot reconciliation moves a command to is terminal. -/
theorem bootOutcome_terminal {c : Checkpoint} {a : BootAction} {state : CommandState} {code : ℤ}
    {text : List UInt8} (h : World.bootOutcome c a = some (state, code, text)) :
    state.terminal = true := by
  cases a with
  | failInterrupted | completeReboot =>
    cases h
    rfl
  | reconcileOta =>
    simp only [World.bootOutcome, World.otaOutcome, Option.some.injEq] at h
    split at h <;> cases h <;> rfl
  | requeue | ignore => cases h

theorem boot_reconcile (hi : OutcomeInv w) {c : Checkpoint} (i : EntryIndex)
    (hpc : w.main = .reconciling c i) (env : Env) : BootInv (w.reconcileEntry c i env) := by
  have hmain : w.main ≠ .started := by rw [hpc]; exact fun h => by cases h
  have he := hi.early hmain
  have hboot := hi.boot
  rw [BootOk, hpc] at hboot
  have hskip : ∀ pc, (pc = .reconciling c (i.val + 1) ∨ pc = .restarting) →
      BootInv { w with main := pc } := by
    intro pc hp
    refine .goto he hi.waiting w.nvs pc ?_
    rcases hp with rfl | rfl
    · exact hboot.imp_left fun h => h.goto _ _
    · trivial
  unfold World.reconcileEntry
  dsimp only
  split
  · exact hskip _ (.inl rfl)
  split
  next state code text hout =>
    refine World.call_ind (.reset hi hi.waiting _ _) fun e hres => ?_
    have hch := changed_reconcile w.ledger i state code text env.mallocOk w.nvs env.fault
    have hl := sameCommands_reconcile w.ledger i state code text env.mallocOk w.nvs env.fault
    refine ⟨he.tasks, fun _ => ⟨he.tasks, fun j hj => ?_, he.idle⟩, hi.waiting, ?_⟩
    · exact (hl.type j).trans_ne (he.held j hj)
    · by_cases hok : e = .ok
      · subst hok
        -- the entry is settled
        have hstate : ∀ j, j = i → ((commandReconcileBoot w.ledger i state code text env.mallocOk
            w.nvs env.fault).ledger.entries j).state.terminal = true := by
          rintro j rfl
          rw [Command.state_of_bare (hch.done hres)]
          exact bootOutcome_terminal hout
        exact hboot.imp_left fun h =>
          h.opens (.of_same hl fun j hj => .inr (hstate j hj)) rfl rfl rfl
      · dsimp only
        rw [if_neg hok]
        trivial
  · split
    next hre =>
      split
      · refine ⟨he.tasks, fun _ => ⟨he.tasks, fun j hj => ?_, he.idle⟩, hi.waiting, ?_⟩
        · simp only [World.items, List.map_append, List.map_cons, List.map_nil, List.mem_append,
            List.mem_singleton] at hj
          have hheld := he.held j
          simp only [World.items, List.map_append, List.mem_append] at hheld
          rcases hj with ((hj | rfl) | hj) | hj
          · exact hheld (.inl (.inl hj))
          · exact (requeue_spec hre).2.2
          · exact hheld (.inl (.inr hj))
          · exact hheld (.inr hj)
        · exact hboot.imp_left fun h => h.opens (.refl rfl) rfl rfl rfl
      · exact hskip _ (.inr rfl)
    · exact hskip _ (.inl rfl)

/-- The checkpoint that is loaded says `VALID` only when the newest one does. -/
theorem boot_checkpoint (hi : OutcomeInv w) (hpc : w.main = .loading) (env : Env) :
    BootInv (w.stepMain env) := by
  have hmain : w.main ≠ .started := by rw [hpc]; exact fun h => by cases h
  have he := hi.early hmain
  have hboot := hi.boot
  rw [BootOk, hpc] at hboot
  rw [World.stepMain, hpc]
  dsimp only
  have hw : ∀ slots, Waiting { w.flash with checkpoints := slots } w.selected := fun slots =>
    hi.waiting.of_eq rfl rfl (.inl rfl)
  split
  · exact .reset hi (hw _) w.nvs _
  next e hres =>
    refine .goto he (hw _) w.nvs _ ?_
    split
    next hok =>
      subst hok
      rcases hboot with hsettles | hnone
      · exact .inl (hsettles.goto _ _)
      · right
        rcases newest_of_load hres with hn | hidle
        · rw [Unvalidated, hn] at hnone
          exact fun h => hnone (congrArg some h)
        · rw [hidle]
          exact fun h => by cases h
    · trivial

theorem outcome_main (hi : OutcomeInv w) {owner : Option Command}
    (howner : ∀ c ∈ owner, Names c (w.flash.app w.flash.running)) (env : Env)
    (hown : BootsOwn ⟨w, owner⟩ ⟨.main, env⟩) (hread : ReadsState w ⟨.main, env⟩) :
    OutcomeInv (w.stepMain env) := by
  by_cases hmain : w.main = .started
  · rw [World.stepMain, hmain]
    exact hi
  have he := hi.early hmain
  suffices h : BootInv (w.stepMain env) by
    refine ⟨dispatch_main hi.dispatch env, h.early, ?_, fun t ht => ?_, h.waiting, h.boot⟩
    · rw [h.tasks]
      exact Nat.zero_le 1
    · rw [h.tasks] at ht
      cases ht
  have hboot := hi.boot
  cases hpc : w.main with
  | booting => exact boot_load hi howner hpc env hown
  | starting =>
    rw [BootOk, hpc] at hboot
    rw [World.stepMain, hpc]
    dsimp only
    split
    · exact .goto he hi.waiting w.nvs _ trivial
    · refine ⟨he.tasks, fun _ => ⟨he.tasks, fun i hi' => ?_, rfl⟩, hi.waiting, ?_⟩
      · have hi' : i ∈ w.items.map Queued.index ++ [] := hi'
        rw [List.append_nil] at hi'
        exact he.held i (List.mem_append_left _ hi')
      · have hnext : ImageOk w ∨ Quiet w.flash →
            BootOk { w with main := .validating .checking, control := .polling } :=
          Or.imp_left fun h => h.opens (.refl rfl) rfl rfl
        split
        · exact hnext hboot
        · trivial
  | validating s => exact boot_validate hi hpc env hread
  | loading => exact boot_checkpoint hi hpc env
  | locking c =>
    rw [BootOk, hpc] at hboot
    rw [World.stepMain, hpc]
    dsimp only
    split
    · exact ⟨he.tasks, hi.early, hi.waiting, hi.boot⟩
    · exact .goto he hi.waiting w.nvs _ (hboot.imp_left fun h => h.goto _ _)
  | reconciling c k =>
    rw [World.stepMain, hpc]
    dsimp only
    split
    next hk => exact boot_reconcile hi ⟨k, hk⟩ hpc env
    · exact ⟨he.tasks, fun h => absurd rfl h, hi.waiting, trivial⟩
  | restarting =>
    rw [World.stepMain, hpc]
    exact .reset hi hi.waiting w.nvs _
  | started => exact absurd hpc hmain
  | halted =>
    rw [World.stepMain, hpc]
    exact ⟨he.tasks, hi.early, hi.waiting, hi.boot⟩

end PowerMonitor.Runtime
