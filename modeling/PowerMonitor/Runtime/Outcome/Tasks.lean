import PowerMonitor.Runtime.Outcome.Invariant

/-!
# The tasks keep the outcome invariant

The network task and the control task leave the flash alone. An OTA task changes it in the steps of
`pm_ota_install` and `pm_ota_cancel_pending_boot`; `task_ends` says what its steps come to.
-/

namespace PowerMonitor.Runtime

open AbStore CJson Commands Ota

variable [Sha256] [Parser]

/-! ## The network task -/

theorem outcome_network {w : World} (hi : OutcomeInv w) (env : Env) :
    OutcomeInv (w.stepNetwork env) := by
  by_cases hstarted : w.main = .started
  swap
  · have hstop : w.network = .stopped := by
      have := hi.dispatch.network
      unfold NetworkPhase at this
      split at this
      · contradiction
      · exact this
    rw [World.stepNetwork, hstop]
    exact hi
  have hd := dispatch_network hi.dispatch env
  have hreset : ∀ nvs delivered, OutcomeInv
      (World.reset { w with nvs := nvs, delivered := delivered } env.ota.boot) := by
    intro nvs delivered
    refine OutcomeInv.reset ?_ ?_ _
    exacts [hi.dispatch.rebooted, hi.waiting]
  rcases stepNetwork_held hi.dispatch env with ⟨nvs, delivered, h⟩ | hheld
  · rw [h]
    exact hreset nvs delivered
  rcases w.stepNetwork_frame env with ⟨nvs, delivered, h⟩ | hf
  · rw [h]
    exact hreset nvs delivered
  constructor
  case dispatch => exact hd
  case early => exact fun h => absurd (hf.main.trans hstarted) h
  case single => exact hf.tasks ▸ hi.single
  case install =>
    intro t ht
    rw [hf.tasks] at ht
    refine (hi.install t ht).of_eq (fun hh => ?_) ?_ ?_ ?_
    · have hmem : t.index ∈ w.holders := List.mem_append_right _
        (List.mem_append_right _ (List.mem_flatMap.2 ⟨t, ht, by simp [hh]⟩))
      exact Command.payload_of_bare (hheld _ hmem)
    all_goals rw [hf.flash]
  case waiting =>
    rw [hf.flash, hf.selected]
    exact hi.waiting
  case boot => exact .started (hf.main.trans hstarted)

/-! ## The control task -/

theorem outcome_control {w : World} (hi : OutcomeInv w) (env : Env)
    (hspawn : w.control.spawns = true → env.answer = none → w.tasks = []) :
    OutcomeInv (w.stepControl env) := by
  rcases w.stepControl_frame env with ⟨nvs, rebooted, -, h⟩ | hf
  · have hd := dispatch_control hi.dispatch env
    rw [h] at hd ⊢
    refine OutcomeInv.reset ?_ ?_ _
    exacts [hd.rebooted, hi.waiting]
  have hopens : w.main ≠ .started → OpensNone w (w.stepControl env) := fun hmain =>
    .of_same hf.ledger fun i hheld => .inl ((hi.early hmain).held i (List.mem_append_right _ hheld))
  constructor
  case dispatch => exact dispatch_control hi.dispatch env
  case early =>
    intro hmain
    rw [hf.main] at hmain
    have he := hi.early hmain
    refine ⟨?_, fun i hi' => ?_, ?_⟩
    · rcases hf.tasks with h | ⟨i, hpc, -⟩
      · exact h.trans he.tasks
      · have := he.idle
        rw [hpc] at this
        cases this
    · rw [hf.ledger.type]
      exact he.held i (hf.held hi')
    · rw [← Bool.not_eq_true]
      intro hin
      rcases hf.installing hin with h | ⟨i, hpc, ht⟩
      · rw [he.idle] at h
        cases h
      · exact he.held i (List.mem_append_right _ (by simp [hpc, ControlPc.held])) ht
  case single =>
    rcases hf.tasks with h | ⟨i, hpc, hans, h⟩ <;> rw [h]
    · exact hi.single
    · rw [hspawn (by rw [hpc]; rfl) hans]
      exact le_rfl
  case install =>
    have hold : ∀ t ∈ w.tasks, InstallOk (w.stepControl env) t := fun t ht =>
      (hi.install t ht).of_eq (fun _ => hf.ledger.payload _) (by rw [hf.flash]) (by rw [hf.flash])
        (by rw [hf.flash])
    intro t ht
    rcases hf.tasks with h | ⟨i, -, -, h⟩ <;> rw [h] at ht
    · exact hold t ht
    · rcases List.mem_append.1 ht with ht | ht
      · exact hold t ht
      · obtain rfl := List.mem_singleton.1 ht
        trivial
  case waiting =>
    rw [hf.flash, hf.selected]
    exact hi.waiting
  case boot =>
    by_cases hmain : w.main = .started
    · exact .started (hf.main.trans hmain)
    · exact hi.boot.of_eq hf.main hf.flash hf.selected (hopens hmain)

/-! ## The OTA tasks -/

/-- A step of `pm_ota_install` in an OTA task: what waits is the image of the command that selected
it. -/
theorem waiting_install {fl : OtaFlash} {selected : Option Command} (h : Waiting fl selected)
    {m : Manifest} {s : Install} {c : Command}
    (hcommand : payloadImage c.payload.str = some (m.imageSize, m.imageSha256))
    (hcontent : Content m s fl) (hbegin : s.pc = .beginning → fl.selection ≠ some fl.target)
    (env : OtaEnv) :
    Waiting (s.step m fl env).flash (if s.pc = .selecting then some c else selected) := by
  have hf := install_frame m s fl env
  by_cases hpc : s.pc = .selecting
  · rw [if_pos hpc]
    rintro - d hd
    obtain rfl := Option.mem_some_iff.1 hd
    have happ : (s.step m fl env).flash.app = fl.app := by
      rcases hf.app with h | h | h
      · exact h
      all_goals
        rw [hpc] at h
        cases h
    refine ⟨_, hcommand, ?_⟩
    rw [happ, OtaFlash.target, hf.running]
    exact hcontent.image hpc
  · rw [if_neg hpc]
    have hselection := hf.selection
    simp only [hpc, false_or] at hselection
    rcases hf.app with happ | hb | hr
    · exact h.of_eq hf.running happ hselection
    all_goals
      -- the partition that is written is not selected
      intro hsel
      have hun : fl.selection ≠ some fl.target := by
        first
        | exact hbegin hb
        | (rw [Content, hr] at hcontent; exact hcontent.unselected)
      rw [OtaFlash.target, hf.running] at hsel
      rcases hselection with hs | hs <;> rw [hs] at hsel
      · exact absurd hsel hun
      · exact absurd (Option.some.inj hsel).symm (Partition.other_ne _)

variable [Base64]

/-- What a step of an OTA task comes to: a reset over a flash on which what waits is in order, or a
state in which `app_main` stands where it stood and every OTA task works for its command. -/
def TaskEnds (w : World) (env : Env) (w' : World) : Prop :=
  (∃ nvs flash selected, w' =
    World.reset { w with nvs := nvs, flash := flash, selected := selected } env.ota.boot ∧
      Waiting flash selected) ∨
    (w'.main = w.main ∧ w'.tasks.length ≤ 1 ∧ Waiting w'.flash w'.selected ∧
      ∀ u ∈ w'.tasks, InstallOk w' u)

namespace TaskEnds

variable {w : World} (hi : OutcomeInv w) {k : ℕ} {t : OtaTask} (ht : w.tasks[k]? = some t)
  (env : Env)

include hi

omit [Base64] in
theorem stay : TaskEnds w env w := .inr ⟨rfl, hi.single, hi.waiting, hi.install⟩

omit [Base64] in
theorem lost (nvs : Slots Ledger) :
    TaskEnds w env (World.reset { w with nvs := nvs } env.ota.boot) :=
  .inl ⟨nvs, w.flash, w.selected, rfl, hi.waiting⟩

include ht

omit [Base64] in
/-- There is no other task. -/
theorem eq_of_mem_set {u v : OtaTask} (hu : u ∈ w.tasks.set k v) : u = v := by
  obtain ⟨hk, -⟩ := List.getElem?_eq_some_iff.1 ht
  have hlen := hi.single
  obtain ⟨x, hx⟩ : ∃ x, w.tasks = [x] := List.length_eq_one_iff.1 (by omega)
  have hk0 : k = 0 := by rw [hx] at hk; simpa using hk
  rw [hx, hk0] at hu
  simpa using hu

omit [Base64] in
theorem goto {nvs : Slots Ledger} {flash : OtaFlash} {selected : Option Command} {ledger : Ledger}
    {pc : TaskPc} (hw : Waiting flash selected)
    (hin : InstallOk { w with nvs := nvs, flash := flash, selected := selected, ledger := ledger }
      { t with pc := pc }) :
    TaskEnds w env (World.setTask { w with
      nvs := nvs, flash := flash, selected := selected, ledger := ledger } k t pc) := by
  refine .inr ⟨rfl, ?_, hw, fun u hu => ?_⟩
  · rw [World.setTask, List.length_set]
    exact hi.single
  · obtain rfl := eq_of_mem_set hi ht hu
    exact hin

omit [Base64] in
/-- A step outside `pm_ota_install` that leaves the partitions alone. -/
theorem plain {nvs : Slots Ledger} {flash : OtaFlash} {ledger : Ledger} {pc : TaskPc}
    (hw : Waiting flash w.selected) (hpc : ∀ m s, pc ≠ .installing m s) :
    TaskEnds w env (World.setTask { w with nvs := nvs, flash := flash, ledger := ledger } k t pc) := by
  refine goto hi ht env hw ?_
  unfold InstallOk
  split
  next m s h => exact absurd h (hpc m s)
  · trivial

omit [Base64] in
theorem call (state : CommandState) (progress : ℕ) (code : ℤ) {next : EspErr → TaskPc}
    (hnext : ∀ e m s, next e ≠ .installing m s) :
    TaskEnds w env (w.call (.transition t.index state progress code env.mallocOk) env fun e w =>
      w.setTask k t (next e)) :=
  World.call_ind (lost hi env _) fun e _ => plain hi ht env hi.waiting (hnext e)

omit [Base64] in
/-- A step of `pm_ota_install`. -/
theorem install {m : Manifest} {s : Install} (hpc : t.pc = .installing m s)
    (hbegin : s.pc = .beginning → w.flash.selection ≠ some w.flash.target)
    {nvs : Slots Ledger} {ledger : Ledger}
    (hpay : (ledger.entries t.index).payload = (w.ledger.entries t.index).payload) :
    TaskEnds w env (match (s.step m w.flash env.ota).next with
      | none => World.reset { w with
          nvs := nvs, ledger := ledger, flash := (s.step m w.flash env.ota).flash
          selected := if s.pc = .selecting then some (ledger.entries t.index) else w.selected }
          env.ota.boot
      | some s' => World.setTask { w with
          nvs := nvs, ledger := ledger, flash := (s.step m w.flash env.ota).flash
          selected := if s.pc = .selecting then some (ledger.entries t.index) else w.selected }
          k t (.installing m s')) := by
  have hok := hi.install t (List.mem_of_getElem? ht)
  rw [InstallOk, hpc] at hok
  have hcommand : payloadImage (ledger.entries t.index).payload.str =
      some (m.imageSize, m.imageSha256) := by
    rw [hpay]
    exact hok.1
  have hw := waiting_install hi.waiting hcommand hok.2 hbegin env.ota
  split
  · exact .inl ⟨_, _, _, rfl, hw⟩
  next s' hs' =>
    exact goto hi ht env hw ⟨hcommand, install_content hok.2 env.ota hbegin s' hs'⟩

end TaskEnds

/-- **A step of an OTA task**, provided that it erases no partition that is selected. -/
theorem task_ends {w : World} (hi : OutcomeInv w) {k : ℕ} {t : OtaTask}
    (ht : w.tasks[k]? = some t) (env : Env)
    (herase : t.erases = true → w.flash.selection ≠ some w.flash.target) :
    TaskEnds w env (w.stepTask k env) := by
  unfold World.stepTask
  rw [ht]
  dsimp only
  cases hpc : t.pc with
  | parsing =>
    dsimp only
    split
    · exact .plain hi ht env hi.waiting fun _ _ h => by cases h
    next m hparse =>
      split
      · exact .plain hi ht env hi.waiting fun _ _ h => by cases h
      · exact .goto hi ht env hi.waiting ⟨payloadImage_of_parse hparse, content_start m w.flash⟩
  | installing m s =>
    have hbegin : s.pc = .beginning → w.flash.selection ≠ some w.flash.target := by
      intro h
      refine herase ?_
      rw [OtaTask.erases, hpc]
      simpa using h
    dsimp only
    split
    · refine .plain hi ht env hi.waiting fun _ _ h => ?_
      split at h <;> cases h
    split
    · exact .stay hi env
    exact World.progress_ind (fun nvs => .lost hi env nvs) fun nvs ledger he =>
      .install hi ht env hpc hbegin he.payload
  | announcing =>
    dsimp only
    split
    · exact .stay hi env
    · refine .call hi ht env _ _ _ fun e m s h => ?_
      split at h <;> cases h
  | restarting => exact .lost hi env w.nvs
  | cancelling e s =>
    have hf := cancel_frame e s w.flash env.ota
    have hw : Waiting (s.step e w.flash env.ota).flash w.selected :=
      hi.waiting.of_eq hf.1 hf.2.1 hf.2.2
    cases s with
    | returned e' => exact .plain hi ht env hi.waiting fun _ _ h => by cases h
    | _ =>
      dsimp only
      split
      · exact .inl ⟨w.nvs, _, w.selected, rfl, hw⟩
      · exact .plain hi ht env hw fun _ _ h => by cases h
  | settling e =>
    dsimp only
    split
    · exact .stay hi env
    · exact .call hi ht env _ _ _ fun _ _ _ h => by cases h
  | releasing =>
    have hsub := List.eraseIdx_sublist w.tasks k
    refine .inr ⟨rfl, hsub.length_le.trans hi.single, hi.waiting, fun u hu => ?_⟩
    exact hi.install u (hsub.subset hu)

theorem outcome_task {w : World} (hi : OutcomeInv w) (k : ℕ) (env : Env)
    (herase : ∀ t, w.tasks[k]? = some t → t.erases = true →
      w.flash.selection ≠ some w.flash.target) : OutcomeInv (w.stepTask k env) := by
  cases ht : w.tasks[k]? with
  | none =>
    rw [World.stepTask, ht]
    exact hi
  | some t =>
    have hstarted : w.main = .started := by
      by_contra h
      rw [(hi.early h).tasks] at ht
      cases ht
    rcases task_ends hi ht env (herase t ht) with ⟨nvs, flash, selected, h, hw⟩ |
      ⟨hmain, hlen, hw, hin⟩
    · rw [h]
      refine OutcomeInv.reset ?_ ?_ _
      exacts [hi.dispatch.rebooted, hw]
    · have hmain := hmain.trans hstarted
      exact ⟨dispatch_task hi.dispatch k env, fun h => absurd hmain h, hlen, hin, hw,
        .started hmain⟩

end PowerMonitor.Runtime
