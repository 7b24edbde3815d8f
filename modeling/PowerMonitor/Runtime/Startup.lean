import Mathlib.Data.List.GetD
import PowerMonitor.Esp
import PowerMonitor.Foundations.Streak

/-!
# Startup

Two functions of `app_main` before the tasks run.

* `waitForPhysicalRecoveryRequest` reads the recovery button until the window closes. It opens USB
  provisioning on a provisioned device, so `recovery_requested_iff` says exactly when it answers
  yes: the button was low on five readings in a row before the deadline.
* `pmRuntimeCreateTaskSet` of `runtime_startup.c` creates all tasks of a set, or deletes those it
  has created in reverse order: `task_set_all_or_nothing`.
-/

namespace PowerMonitor.Runtime

/-! ## The recovery button -/

/-- One pass of the loop: the clock and whether the button is low. -/
structure Reading where
  nowUs : ℤ
  low : Bool
  deriving DecidableEq

/-- `PM_RECOVERY_WINDOW_MS`. -/
def recoveryWindowMs : ℤ := 3000

/-- `PM_RECOVERY_DEBOUNCE_SAMPLES`. -/
def recoveryDebounceSamples : ℕ := 5

/-- The loop of `wait_for_physical_recovery_request`. There is no answer while the readings have
neither reached the deadline nor requested recovery. -/
def waitLoop (deadline : ℤ) : ℕ → List Reading → Option Bool
  | _, [] => none
  | lowSamples, r :: readings =>
    if r.nowUs < deadline then
      let lowSamples := if r.low then lowSamples + 1 else 0
      if recoveryDebounceSamples ≤ lowSamples then some true
      else waitLoop deadline lowSamples readings
    else some false

/-- `wait_for_physical_recovery_request`, from the clock at its start. -/
def waitForPhysicalRecoveryRequest (provisioned gpioConfigured : Bool) (startUs : ℤ)
    (readings : List Reading) : Option Bool :=
  if !gpioConfigured || !provisioned then some false
  else waitLoop (startUs + recoveryWindowMs * 1000) 0 readings

/-- The readings before the deadline. -/
def inWindow (deadline : ℤ) (readings : List Reading) : List Reading :=
  readings.takeWhile fun r => r.nowUs < deadline

theorem waitLoop_eq (deadline : ℤ) (lowSamples : ℕ) (readings : List Reading) :
    waitLoop deadline lowSamples readings =
      if Streak.reaches Reading.low recoveryDebounceSamples lowSamples (inWindow deadline readings) then
        some true
      else if ∃ r ∈ readings, deadline ≤ r.nowUs then some false
      else none := by
  induction readings generalizing lowSamples with
  | nil => simp [waitLoop, inWindow, Streak.reaches]
  | cons r readings ih =>
    by_cases hr : r.nowUs < deadline
    · have hwindow : inWindow deadline (r :: readings) = r :: inWindow deadline readings := by
        simp [inWindow, hr]
      have hpast : (∃ r' ∈ r :: readings, deadline ≤ r'.nowUs) ↔
          ∃ r' ∈ readings, deadline ≤ r'.nowUs := by
        simp [Int.not_le.2 hr]
      rw [waitLoop, if_pos hr, hwindow, Streak.reaches]
      dsimp only
      by_cases hreached : recoveryDebounceSamples ≤ if r.low = true then lowSamples + 1 else 0
      · rw [if_pos hreached, if_pos hreached, if_pos rfl]
      · rw [if_neg hreached, if_neg hreached, ih]
        simp only [hpast]
    · have hwindow : inWindow deadline (r :: readings) = [] := by simp [inWindow, hr]
      rw [waitLoop, if_neg hr, hwindow, Streak.reaches, if_neg Bool.false_ne_true,
        if_pos ⟨r, List.mem_cons_self, Int.not_lt.1 hr⟩]

/-- **Recovery is requested by five low readings in a row** before the deadline, on a provisioned
device whose button was configured; otherwise the answer is no as soon as the deadline has
passed. -/
theorem recovery_requested_iff (provisioned gpioConfigured : Bool) (startUs : ℤ)
    (readings : List Reading) :
    let asked := ∃ s, s <:+: inWindow (startUs + 3000000) readings ∧ s.length = 5 ∧
      ∀ r ∈ s, r.low = true
    let usable := provisioned = true ∧ gpioConfigured = true
    (waitForPhysicalRecoveryRequest provisioned gpioConfigured startUs readings = some true ↔
        usable ∧ asked) ∧
      (waitForPhysicalRecoveryRequest provisioned gpioConfigured startUs readings = some false ↔
        usable → ¬ asked ∧ ∃ r ∈ readings, startUs + 3000000 ≤ r.nowUs) := by
  intro asked usable
  have hasked : Streak.reaches Reading.low recoveryDebounceSamples 0
      (inWindow (startUs + 3000000) readings) = true ↔ asked := Streak.reaches_zero_iff (by decide) _
  unfold waitForPhysicalRecoveryRequest
  by_cases husable : usable
  · have hgate : (!gpioConfigured || !provisioned) = false := by
      obtain ⟨hprovisioned, hgpio⟩ := husable
      simp [hprovisioned, hgpio]
    have hdeadline : startUs + recoveryWindowMs * 1000 = startUs + 3000000 := rfl
    rw [hgate, if_neg Bool.false_ne_true, hdeadline, waitLoop_eq]
    by_cases h : asked
    · rw [if_pos (hasked.2 h)]
      simp [h, husable]
    · rw [if_neg fun hreaches => h (hasked.1 hreaches)]
      split_ifs with hpast
      · simp [h, hpast]
      · simp [h, hpast, husable]
  · have hgate : (!gpioConfigured || !provisioned) = true := by
      by_contra hgate
      simp only [Bool.or_eq_true, Bool.not_eq_true', not_or, Bool.not_eq_false] at hgate
      exact husable hgate.symm
    rw [if_pos hgate]
    simp [husable]

/-! ## The task set -/

/-- `pm_runtime_task_spec_t`; a pointer is an address, and `none` if it is null. -/
structure TaskSpec where
  function : Option ℕ
  name : Option String
  stackDepth : ℕ
  argument : Option ℕ
  priority : ℕ
  handle : Option ℕ
  deriving DecidableEq

/-- A task that exists, and what it was created from. -/
structure RunningTask where
  task : ℕ
  spec : TaskSpec
  deriving DecidableEq

/-- The tasks of FreeRTOS and the handles in memory. The tasks that were deleted are kept for the
statements. -/
structure Kernel where
  handles : ℕ → Option ℕ
  live : List RunningTask
  next : ℕ
  deleted : List ℕ

/-- `*handle = value`. -/
def Kernel.setHandle (k : Kernel) (handle : ℕ) (value : Option ℕ) : Kernel :=
  { k with handles := Function.update k.handles handle value }

/-- `xTaskCreate`, when it succeeds. -/
def Kernel.create (k : Kernel) (spec : TaskSpec) (handle : ℕ) : Kernel where
  handles := Function.update k.handles handle (some k.next)
  live := k.live ++ [⟨k.next, spec⟩]
  next := k.next + 1
  deleted := k.deleted

/-- `vTaskDelete`. -/
def Kernel.delete (k : Kernel) (task : ℕ) : Kernel :=
  { k with live := k.live.filter (·.task ≠ task), deleted := k.deleted ++ [task] }

/-- One pass of the loop of `pm_runtime_delete_task_set`. -/
def deleteTask (spec : TaskSpec) (k : Kernel) : Kernel :=
  match spec.handle with
  | none => k
  | some handle =>
    match k.handles handle with
    | none => k
    | some task => (k.delete task).setHandle handle none

/-- `pm_runtime_delete_task_set`: the first `count` specs, from the last one to the first. -/
def pmRuntimeDeleteTaskSet (specs : List TaskSpec) (count : ℕ) (k : Kernel) : Kernel :=
  (specs.take count).foldr deleteTask k

/-- The loop of `pm_runtime_create_task_set` from the index `i` on. `passes` says which calls of
`xTaskCreate` succeed. -/
def createLoop (specs : List TaskSpec) (passes : ℕ → Bool) :
    List TaskSpec → ℕ → Kernel → EspErr × Kernel
  | [], _, k => (.ok, k)
  | spec :: rest, i, k =>
    match spec.function, spec.name, spec.handle with
    | some _, some _, some handle =>
      let k := k.setHandle handle none
      if passes i then createLoop specs passes rest (i + 1) (k.create spec handle)
      else (.noMem, pmRuntimeDeleteTaskSet specs (i + 1) k)
    | _, _, _ => (.invalidArg, pmRuntimeDeleteTaskSet specs i k)

/-- `pm_runtime_create_task_set`. -/
def pmRuntimeCreateTaskSet (specs : List TaskSpec) (passes : ℕ → Bool) (k : Kernel) :
    EspErr × Kernel :=
  if specs = [] then (.invalidArg, k) else createLoop specs passes specs 0 k

/-! ## Creating and deleting -/

/-- No pointer of a spec is null. -/
def TaskSpec.wellFormed (spec : TaskSpec) : Prop :=
  spec.function.isSome ∧ spec.name.isSome ∧ spec.handle.isSome

/-- The handles of a set. -/
def handlesOf (specs : List TaskSpec) : List ℕ := specs.filterMap TaskSpec.handle

/-- One pass of the loop that creates its task. -/
def Kernel.start (k : Kernel) (spec : TaskSpec) : Kernel :=
  match spec.handle with
  | none => k
  | some handle => (k.setHandle handle none).create spec handle

/-- The tasks `ts` were created from the specs, one each, and their handles are set. -/
def Started (k : Kernel) : List TaskSpec → List ℕ → Prop :=
  List.Forall₂ fun spec task => ∃ handle, spec.handle = some handle ∧ k.handles handle = some task

/-- Another handle is set. -/
theorem Started.setHandle {k : Kernel} {specs : List TaskSpec} {tasks : List ℕ}
    (h : Started k specs tasks) {handle : ℕ} (hfree : handle ∉ handlesOf specs) {value : Option ℕ} :
    Started (k.setHandle handle value) specs tasks := by
  induction h with
  | nil => exact .nil
  | @cons spec task specs tasks hhead htail ih =>
    obtain ⟨handle', hhandle, htask⟩ := hhead
    have hcons : handlesOf (spec :: specs) = handle' :: handlesOf specs :=
      List.filterMap_cons_some hhandle
    rw [hcons, List.mem_cons, not_or] at hfree
    exact .cons ⟨handle', hhandle, (Function.update_of_ne (Ne.symm hfree.1) _ _).trans htask⟩
      (ih hfree.2)

/-- Deleting a set whose tasks were created. -/
theorem foldr_deleteTask {specs : List TaskSpec} {tasks : List ℕ} {k : Kernel}
    (hstarted : Started k specs tasks) (hdistinct : (handlesOf specs).Nodup) :
    specs.foldr deleteTask k =
      { handles := fun h => if h ∈ handlesOf specs then none else k.handles h
        live := k.live.filter fun r => decide (r.task ∉ tasks)
        next := k.next
        deleted := k.deleted ++ tasks.reverse } := by
  induction hstarted with
  | nil => simp [handlesOf]
  | @cons spec task specs tasks hhead htail ih =>
    obtain ⟨handle, hhandle, htask⟩ := hhead
    have hcons : handlesOf (spec :: specs) = handle :: handlesOf specs :=
      List.filterMap_cons_some hhandle
    rw [hcons, List.nodup_cons] at hdistinct
    rw [List.foldr_cons, ih hdistinct.2, deleteTask, hhandle, hcons]
    simp only [if_neg hdistinct.1, htask, Kernel.delete, Kernel.setHandle]
    congr 1
    · funext h
      by_cases hh : h = handle
      · simp [hh]
      · simp [hh]
    · rw [List.filter_filter]
      congr 1
      funext r
      simp [not_or]
    · rw [List.reverse_cons, List.append_assoc]

/-- Creating a set. -/
theorem foldl_start {specs : List TaskSpec} (k : Kernel) (hhandles : ∀ s ∈ specs, s.handle.isSome)
    (hdistinct : (handlesOf specs).Nodup) :
    (specs.foldl Kernel.start k).next = k.next + specs.length ∧
      (specs.foldl Kernel.start k).live =
        k.live ++ (specs.zipIdx k.next).map (fun s => ⟨s.2, s.1⟩) ∧
      (specs.foldl Kernel.start k).deleted = k.deleted ∧
      (∀ h, h ∉ handlesOf specs → (specs.foldl Kernel.start k).handles h = k.handles h) ∧
      Started (specs.foldl Kernel.start k) specs (List.range' k.next specs.length) := by
  induction specs generalizing k with
  | nil => exact ⟨rfl, by simp, rfl, fun _ _ => rfl, .nil⟩
  | cons spec specs ih =>
    obtain ⟨hhead, htail⟩ := List.forall_mem_cons.1 hhandles
    obtain ⟨handle, hhandle⟩ := Option.isSome_iff_exists.1 hhead
    have hcons : handlesOf (spec :: specs) = handle :: handlesOf specs :=
      List.filterMap_cons_some hhandle
    rw [hcons, List.nodup_cons] at hdistinct
    obtain ⟨hnext, hlive, hdeleted, hframe, hstarted⟩ := ih (k.start spec) htail hdistinct.2
    have hstart : k.start spec = (k.setHandle handle none).create spec handle := by
      rw [Kernel.start, hhandle]
    have hone : (k.start spec).next = k.next + 1 := by rw [hstart]; rfl
    have hset : (k.start spec).handles handle = some k.next := by
      rw [hstart]
      exact Function.update_self _ _ _
    rw [hone] at hnext hlive hstarted
    rw [List.foldl_cons, hcons]
    refine ⟨?_, ?_, ?_, fun h hh => ?_, .cons ⟨handle, hhandle, ?_⟩ hstarted⟩
    · rw [hnext, List.length_cons]
      omega
    · rw [hlive, hstart, List.zipIdx_cons, List.map_cons]
      exact List.append_assoc _ _ _
    · rw [hdeleted, hstart]
      rfl
    · rw [List.mem_cons, not_or] at hh
      rw [hframe h hh.2, hstart]
      exact (Function.update_of_ne hh.1 _ _).trans (Function.update_of_ne hh.1 _ _)
    · rw [hframe handle hdistinct.1, hset]

/-- The task of the spec at `i` is created. -/
def Creates (passes : ℕ → Bool) (i : ℕ) (spec : TaskSpec) : Prop :=
  spec.wellFormed ∧ passes i = true

section

variable {specs : List TaskSpec} {passes : ℕ → Bool} {k : Kernel}

/-- **One pass** of the loop, which goes on, or gives up and deletes what was created. -/
theorem createLoop_cons (specs : List TaskSpec) (passes : ℕ → Bool) (spec : TaskSpec)
    (rest : List TaskSpec) (i : ℕ) (k : Kernel) :
    (Creates passes i spec ∧ createLoop specs passes (spec :: rest) i k =
      createLoop specs passes rest (i + 1) (k.start spec)) ∨
    (¬ Creates passes i spec ∧
      (createLoop specs passes (spec :: rest) i k =
        (.invalidArg, pmRuntimeDeleteTaskSet specs i k) ∨
      ∃ handle, spec.handle = some handle ∧ createLoop specs passes (spec :: rest) i k =
        (.noMem, pmRuntimeDeleteTaskSet specs (i + 1) (k.setHandle handle none)))) := by
  cases hfunction : spec.function with
  | none =>
    refine .inr ⟨fun hcreates => ?_, .inl (by rw [createLoop, hfunction])⟩
    simp [Creates, TaskSpec.wellFormed, hfunction] at hcreates
  | some function =>
    cases hname : spec.name with
    | none =>
      refine .inr ⟨fun hcreates => ?_, .inl (by rw [createLoop, hfunction, hname])⟩
      simp [Creates, TaskSpec.wellFormed, hname] at hcreates
    | some name =>
      cases hhandle : spec.handle with
      | none =>
        refine .inr ⟨fun hcreates => ?_, .inl (by rw [createLoop, hfunction, hname, hhandle])⟩
        simp [Creates, TaskSpec.wellFormed, hhandle] at hcreates
      | some handle =>
        have hwell : spec.wellFormed := by simp [TaskSpec.wellFormed, hfunction, hname, hhandle]
        cases hpasses : passes i with
        | true =>
          refine .inl ⟨⟨hwell, hpasses⟩, ?_⟩
          rw [createLoop, hfunction, hname, hhandle, Kernel.start, hhandle]
          exact if_pos hpasses
        | false =>
          refine .inr ⟨fun hcreates => ?_, .inr ⟨handle, rfl, ?_⟩⟩
          · rw [hcreates.2] at hpasses
            cases hpasses
          · rw [createLoop, hfunction, hname, hhandle]
            exact if_neg (by rw [hpasses]; exact Bool.false_ne_true)

/-- What the loop leaves, after it has created the tasks of the specs that it passed. -/
theorem createLoop_eq (passes : ℕ → Bool) (passed rest : List TaskSpec) (k : Kernel)
    (hpassed : ∀ i s, passed[i]? = some s → Creates passes i s) :
    (createLoop (passed ++ rest) passes rest passed.length (passed.foldl Kernel.start k) =
        (.ok, (passed ++ rest).foldl Kernel.start k) ∧
      ∀ i s, (passed ++ rest)[i]? = some s → Creates passes i s) ∨
    ∃ made spec later, passed ++ rest = made ++ spec :: later ∧
      (∀ i s, made[i]? = some s → Creates passes i s) ∧ ¬ Creates passes made.length spec ∧
      (createLoop (passed ++ rest) passes rest passed.length (passed.foldl Kernel.start k) =
        (.invalidArg, made.foldr deleteTask (made.foldl Kernel.start k)) ∨
      ∃ handle, spec.handle = some handle ∧
        createLoop (passed ++ rest) passes rest passed.length (passed.foldl Kernel.start k) =
          (.noMem, (made ++ [spec]).foldr deleteTask
            ((made.foldl Kernel.start k).setHandle handle none))) := by
  induction rest generalizing passed with
  | nil =>
    rw [List.append_nil]
    exact .inl ⟨rfl, hpassed⟩
  | cons spec rest ih =>
    rcases createLoop_cons (passed ++ spec :: rest) passes spec rest passed.length
      (passed.foldl Kernel.start k) with ⟨hcreates, hloop⟩ | ⟨hnot, hloop⟩
    · have hnext := ih (passed ++ [spec]) fun i s hs => by
        rcases Nat.lt_or_ge i passed.length with hi | hi
        · rw [List.getElem?_append_left hi] at hs
          exact hpassed i s hs
        · rw [List.getElem?_append_right hi, List.getElem?_singleton] at hs
          split_ifs at hs with hzero
          obtain rfl := Option.some.inj hs
          obtain rfl : i = passed.length := by omega
          exact hcreates
      rw [List.append_assoc, List.singleton_append, List.length_append, List.length_singleton,
        List.foldl_append, List.foldl_cons, List.foldl_nil] at hnext
      rwa [hloop]
    · refine .inr ⟨passed, spec, rest, rfl, hpassed, hnot, ?_⟩
      rcases hloop with hloop | ⟨handle, hhandle, hloop⟩
      · refine .inl (hloop.trans ?_)
        rw [pmRuntimeDeleteTaskSet, List.take_left]
      · refine .inr ⟨handle, hhandle, hloop.trans ?_⟩
        have htake : (passed ++ spec :: rest).take (passed.length + 1) = passed ++ [spec] := by
          rw [List.take_append, List.take_of_length_le (Nat.le_succ _), Nat.add_sub_cancel_left]
          rfl
        rw [pmRuntimeDeleteTaskSet, htake]

/-- The tasks of a set of specs, numbered from `n`. -/
def newTasks (specs : List TaskSpec) (n : ℕ) : List RunningTask :=
  (specs.zipIdx n).map fun s => ⟨s.2, s.1⟩

/-- The tasks that were there before are those whose numbers are not new. -/
theorem filter_live (hlive : ∀ r ∈ k.live, r.task < k.next) (made : List TaskSpec) :
    (k.live ++ newTasks made k.next).filter
      (fun r => decide (r.task ∉ List.range' k.next made.length)) = k.live := by
  rw [List.filter_append, List.filter_eq_self.2, List.filter_eq_nil_iff.2, List.append_nil]
  · intro r hr
    obtain ⟨s, hs, rfl⟩ := List.mem_map.1 hr
    obtain ⟨hle, hlt, -⟩ := List.mem_zipIdx hs
    simp [List.mem_range'_1, hle, hlt]
  · intro r hr
    have hlt := hlive r hr
    simp only [List.mem_range'_1, decide_eq_true_eq]
    omega

/-- A kernel after a set was created in part and then deleted. -/
structure RolledBack (k k' : Kernel) (made : List TaskSpec) : Prop where
  live : k'.live = k.live
  deleted : k'.deleted = k.deleted ++ (List.range' k.next made.length).reverse
  cleared : ∀ h ∈ handlesOf made, k'.handles h = none
  handles : ∀ h, k'.handles h = none ∨ k'.handles h = k.handles h

theorem rolledBack_of_started {made : List TaskSpec} {k' : Kernel}
    (hlive : ∀ r ∈ k.live, r.task < k.next) (hnew : k'.live = k.live ++ newTasks made k.next)
    (hdeleted : k'.deleted = k.deleted)
    (hframe : ∀ h, h ∉ handlesOf made → k'.handles h = none ∨ k'.handles h = k.handles h)
    (hstarted : Started k' made (List.range' k.next made.length))
    (hdistinct : (handlesOf made).Nodup) : RolledBack k (made.foldr deleteTask k') made := by
  rw [foldr_deleteTask hstarted hdistinct]
  constructor
  · exact (congrArg _ hnew).trans (filter_live hlive made)
  · exact congrArg (· ++ _) hdeleted
  · exact fun h hh => if_pos hh
  · intro h
    dsimp only
    split_ifs with hh
    · exact .inl rfl
    · exact hframe h hh

theorem invalidArg_ne_ok : EspErr.invalidArg ≠ EspErr.ok := by decide

theorem noMem_ne_ok : EspErr.noMem ≠ EspErr.ok := by decide

/-- **All or nothing.** The tasks of a set are created, in order, and their handles set; or none is
left, after the first spec whose task is not created: those before it are deleted in reverse order,
and no handle is left to a deleted task. -/
theorem task_set_all_or_nothing (specs : List TaskSpec) (passes : ℕ → Bool) (k : Kernel)
    (hdistinct : (handlesOf specs).Nodup) (hlive : ∀ r ∈ k.live, r.task < k.next) :
    let r := pmRuntimeCreateTaskSet specs passes k
    (r.1 = .ok ∧ specs ≠ [] ∧ (∀ i s, specs[i]? = some s → Creates passes i s) ∧
      r.2.live = k.live ++ newTasks specs k.next ∧ r.2.deleted = k.deleted ∧
      Started r.2 specs (List.range' k.next specs.length)) ∨
    (r.1 ≠ .ok ∧ ∃ made, RolledBack k r.2 made ∧ (∀ i s, made[i]? = some s → Creates passes i s) ∧
      (specs = [] ∨ ∃ spec later, specs = made ++ spec :: later ∧ ¬ Creates passes made.length spec)) := by
  intro r
  by_cases hempty : specs = []
  · have hr : r = (.invalidArg, k) := if_pos hempty
    rw [hr]
    refine .inr ⟨invalidArg_ne_ok, [], ⟨rfl, by simp, by simp [handlesOf], fun _ => .inr rfl⟩,
      by simp, ?_⟩
    exact .inl hempty
  have hr : r = createLoop specs passes specs 0 k := if_neg hempty
  have hhandles {made : List TaskSpec} (hmade : ∀ i s, made[i]? = some s → Creates passes i s) :
      ∀ s ∈ made, s.handle.isSome := by
    intro s hs
    obtain ⟨i, hi⟩ := List.mem_iff_getElem?.1 hs
    exact (hmade i s hi).1.2.2
  rcases createLoop_eq passes [] specs k (by simp) with
    ⟨hloop, hcreates⟩ | ⟨made, spec, later, hspecs, hmade, hnot, hloop⟩
  · rw [List.nil_append] at hloop hcreates
    have hr := hr.trans hloop
    obtain ⟨-, hnew, hdeleted, -, hstarted⟩ := foldl_start k (hhandles hcreates) hdistinct
    rw [hr]
    exact .inl ⟨rfl, hempty, hcreates, hnew, hdeleted, hstarted⟩
  · rw [List.nil_append] at hspecs hloop
    have hnodup : (handlesOf made ++ handlesOf (spec :: later)).Nodup := by
      rwa [handlesOf, handlesOf, ← List.filterMap_append, ← hspecs]
    obtain ⟨hmadeNodup, -, hapart⟩ := List.nodup_append.1 hnodup
    obtain ⟨-, hnew, hdeleted, hframe, hstarted⟩ := foldl_start k (hhandles hmade) hmadeNodup
    rcases hloop with hloop | ⟨handle, hhandle, hloop⟩
    · rw [hr.trans hloop]
      refine .inr ⟨invalidArg_ne_ok, made, ?_, hmade, .inr ⟨spec, later, hspecs, hnot⟩⟩
      exact rolledBack_of_started hlive hnew hdeleted (fun h hh => .inr (hframe h hh)) hstarted hmadeNodup
    · rw [hr.trans hloop]
      refine .inr ⟨noMem_ne_ok, made, ?_, hmade, .inr ⟨spec, later, hspecs, hnot⟩⟩
      -- the handle of the task that was not created is null
      have hskip (k' : Kernel) :
          deleteTask spec (k'.setHandle handle none) = k'.setHandle handle none := by
        rw [deleteTask, hhandle]
        simp [Kernel.setHandle]
      have hfresh : handle ∉ handlesOf made := fun hmem => by
        refine hapart handle hmem handle ?_ rfl
        rw [handlesOf, List.filterMap_cons_some hhandle]
        exact List.mem_cons_self
      rw [List.foldr_append, List.foldr_cons, List.foldr_nil, hskip]
      refine rolledBack_of_started hlive hnew hdeleted (fun h hh => ?_) ?_ hmadeNodup
      · by_cases hh' : h = handle
        · subst hh'
          exact .inl (Function.update_self _ _ _)
        · exact .inr ((Function.update_of_ne hh' _ _).trans (hframe h hh))
      · exact hstarted.setHandle hfresh

/-- The tasks of `app_main`, with some addresses for its functions and handles. -/
def runtimeTasks : List TaskSpec :=
  [⟨some 1, some "pm_measurement", 4096, none, 12, some 1⟩,
    ⟨some 2, some "pm_control", 6144, none, 6, some 2⟩,
    ⟨some 3, some "pm_supervisor", 4096, none, 5, some 3⟩]

/-- The kernel while only `app_main` runs. -/
def startingKernel : Kernel := ⟨fun _ => none, [⟨0, ⟨some 0, some "main", 3584, none, 1, none⟩⟩], 1, []⟩

theorem task_set_all_or_nothing_second :
    (pmRuntimeCreateTaskSet runtimeTasks (fun i => i ≠ 1) startingKernel).2.live =
      startingKernel.live := by
  have hlive : ∀ r ∈ startingKernel.live, r.task < startingKernel.next := by
    intro r hr
    obtain rfl := List.mem_singleton.1 hr
    exact Nat.zero_lt_one
  rcases task_set_all_or_nothing runtimeTasks (fun i => i ≠ 1) startingKernel (by decide) hlive with
    ⟨-, -, hcreates, -⟩ | ⟨-, made, hrolled, -⟩
  · exact absurd (hcreates 1 _ rfl).2 (by decide)
  · exact hrolled.live

end

end PowerMonitor.Runtime
