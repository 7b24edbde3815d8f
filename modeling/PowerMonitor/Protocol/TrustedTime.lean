import Mathlib.Data.Int.Order.Basic
import PowerMonitor.Foundations.Runs
import PowerMonitor.Esp
import PowerMonitor.Config.Crc32

/-!
# Trusted time

`pm_time.c`: the time state of one boot and its checkpoint in the NVS namespace `pm_time`, kept in
two slots. Times are integers, as the `int64_t` arithmetic is for arguments that do not overflow it.

* `pmTimeInit`, `pmTimeLoadCheckpoint`, `pmTimeObserve` and `pmTimeNow` are the functions of the
  source, over the slots and with what their NVS calls meet.
* `Clock` is a device over its boots: power may be lost between any two calls and in a write. It
  carries the values returned in this boot and those ever persisted with `ESP_OK`.
* `Clock.Inv` is the invariant: what was persisted with `ESP_OK` is covered by the newest valid
  slot, whichever slot a later write left behind, and by the running state.
* `trusted_time_never_goes_back` is the result.
-/

namespace PowerMonitor.Protocol

open CMemory AbStore Config Runs

/-! ## The checkpoint -/

/-- `time_checkpoint_t`. -/
structure TimeCheckpoint where
  utcMs : ℤ
  generation : ℕ
  crc32 : UInt32
  deriving DecidableEq

/-- The memory of a checkpoint before its `crc32`. -/
def TimeCheckpoint.memory (c : TimeCheckpoint) : List UInt8 := leInt 8 c.utcMs ++ le 4 c.generation

/-- The checksum of a checkpoint; `crc32_ieee` is the function of `pm_config.c`. -/
def timeCrc (c : TimeCheckpoint) : UInt32 := pmCrc32Ieee c.memory

/-- 2024-01-01, in milliseconds. -/
def earliestMs : ℤ := 1704067200000

/-- 2100-01-01, in milliseconds. -/
def latestMs : ℤ := 4102444800000

/-- `valid`. -/
def timeValid (c : TimeCheckpoint) : Bool :=
  decide (earliestMs ≤ c.utcMs) && decide (c.utcMs < latestMs) && c.crc32 = timeCrc c

/-- The slots of the namespace. -/
abbrev TimeSlots := Slots TimeCheckpoint

/-- What `nvs_get_blob` finds in a slot, if it succeeds on it and the checkpoint is valid. A failed
read leaves the zeroed checkpoint, which is not. -/
def readTime (s : TimeSlots) (reads : Side → Bool) (side : Side) : Option TimeCheckpoint :=
  if reads side then (s.get side).filter (timeValid ·) else none

/-! ## The functions of the source -/

/-- `pm_time_source_t`; `other` is a value outside the enumeration. -/
inductive TimeSource
  | untrusted | persistedCheckpoint | sntp | serverCorroborated
  | other (value : ℕ)
  deriving DecidableEq, Repr

/-- `source < PM_TIME_SNTP || source > PM_TIME_SERVER_CORROBORATED`, negated. -/
def TimeSource.observable : TimeSource → Bool
  | .sntp | .serverCorroborated => true
  | _ => false

/-- `pm_time_state_t`. -/
structure TimeState where
  source : TimeSource
  utcCheckpointMs : ℤ
  monotonicCheckpointUs : ℤ
  lastReturnedUtcMs : ℤ
  maximumBackwardStepMs : ℤ
  trusted : Bool
  deriving DecidableEq

/-- `pm_time_init`. -/
def pmTimeInit (monotonicUs : ℤ) : TimeState where
  source := .untrusted
  utcCheckpointMs := 0
  monotonicCheckpointUs := monotonicUs
  lastReturnedUtcMs := 0
  maximumBackwardStepMs := 300000
  trusted := false

/-- What the NVS calls of `pm_time_load_checkpoint` meet. -/
structure TimeLoadEnv where
  /-- The error of `nvs_open`, if it fails. -/
  opened : Option Failure
  reads : Side → Bool

/-- The checkpoint `pm_time_load_checkpoint` selects: slot A unless slot B is valid and newer. -/
def selectedCheckpoint (s : TimeSlots) (reads : Side → Bool) : Option TimeCheckpoint :=
  match readTime s reads .a, readTime s reads .b with
  | some a, none => some a
  | some a, some b => if b.generation ≤ a.generation then some a else some b
  | none, b => b

/-- `pm_time_load_checkpoint`. -/
def pmTimeLoadCheckpoint (st : TimeState) (s : TimeSlots) (monotonicUs : ℤ) (env : TimeLoadEnv) :
    EspErr × TimeState :=
  match env.opened, selectedCheckpoint s env.reads with
  | some e, _ => (e.1, st)
  | none, none => (.notFound, st)
  | none, some selected => (.ok, { st with
      source := .persistedCheckpoint
      utcCheckpointMs := selected.utcMs
      lastReturnedUtcMs := selected.utcMs
      monotonicCheckpointUs := monotonicUs
      trusted := true })

/-- What the NVS calls of `persist` meet. -/
structure TimePersistEnv where
  reads : Side → Bool
  write : WriteFault Failure timeValid

/-- The generation `persist` writes. -/
def nextGeneration (s : TimeSlots) (reads : Side → Bool) : ℕ :=
  let newest := match readTime s reads .a, readTime s reads .b with
    | some a, some b => if b.generation < a.generation then a.generation else b.generation
    | some a, none => a.generation
    | none, some b => b.generation
    | none, none => 0
  (newest + 1) % 2 ^ 32

/-- The checkpoint `persist` writes. -/
def newCheckpoint (utcMs : ℤ) (generation : ℕ) : TimeCheckpoint :=
  let c : TimeCheckpoint := ⟨utcMs, generation, 0⟩
  { c with crc32 := timeCrc c }

/-- `persist`. -/
def persistTime (s : TimeSlots) (utcMs : ℤ) (env : TimePersistEnv) : WriteEnd Failure × TimeSlots :=
  let generation := nextGeneration s env.reads
  writeBlob env.write (sideOf generation) (newCheckpoint utcMs generation) s

/-- The time a state stands for at `monotonicUs`. -/
def TimeState.projected (st : TimeState) (monotonicUs : ℤ) : ℤ :=
  st.utcCheckpointMs + (monotonicUs - st.monotonicCheckpointUs).tdiv 1000

/-- The checks of `pm_time_observe`: the error it returns, before the state changes. -/
def observeError (st : TimeState) (source : TimeSource) (utcMs monotonicUs : ℤ) : Option EspErr :=
  if !source.observable || decide (utcMs < earliestMs) || decide (latestMs ≤ utcMs) then
    some .invalidArg
  else if st.trusted && decide (utcMs + st.maximumBackwardStepMs < st.projected monotonicUs) then
    some .invalidState
  else none

/-- The state after an accepted observation. -/
def TimeState.observed (st : TimeState) (source : TimeSource) (utcMs monotonicUs : ℤ) : TimeState :=
  { st with
    source := source
    utcCheckpointMs := utcMs
    monotonicCheckpointUs := monotonicUs
    lastReturnedUtcMs :=
      if st.lastReturnedUtcMs < utcMs then utcMs else st.lastReturnedUtcMs
    trusted := true }

/-- One call of `pm_time_observe`. -/
structure Observed where
  result : CallEnd
  state : TimeState
  slots : TimeSlots
  /-- The value it passed to `persist`. -/
  persisted : Option ℤ

/-- The return value of a write sequence. -/
def endResult : WriteEnd Failure → CallEnd
  | .success => some .ok
  | .failure e => some e.1
  | .lost => none

/-- `pm_time_observe`. -/
def pmTimeObserve (st : TimeState) (s : TimeSlots) (source : TimeSource) (utcMs monotonicUs : ℤ)
    (env : TimePersistEnv) : Observed :=
  match observeError st source utcMs monotonicUs with
  | some e => ⟨some e, st, s, none⟩
  | none =>
    let st := st.observed source utcMs monotonicUs
    let p := persistTime s st.lastReturnedUtcMs env
    ⟨endResult p.1, st, p.2, some st.lastReturnedUtcMs⟩

/-- `pm_time_now`: the time it returns, and the state after it. -/
def pmTimeNow (st : TimeState) (monotonicUs : ℤ) : Option ℤ × TimeState :=
  if !st.trusted || decide (monotonicUs < st.monotonicCheckpointUs) then (none, st)
  else
    let utcMs := if st.projected monotonicUs < st.lastReturnedUtcMs then st.lastReturnedUtcMs
      else st.projected monotonicUs
    (some utcMs, { st with lastReturnedUtcMs := utcMs })

/-! ## A device over its boots -/

/-- A device: its flash, the time state while it runs, and what happened so far. -/
structure Clock where
  slots : TimeSlots
  running : Option TimeState
  /-- The calls of `persist`, ever. -/
  persists : ℕ
  /-- The values persisted with `ESP_OK`, ever. -/
  kept : List ℤ
  /-- The values `pm_time_now` returned in this boot. -/
  returned : List ℤ
  deriving DecidableEq

/-- A device that was never booted. -/
def Clock.new : Clock := ⟨Slots.empty, none, 0, [], []⟩

/-- What can happen to a device. A boot may come at any time: power was lost before it. -/
inductive ClockAct
  | boot (initUs loadUs : ℤ) (env : TimeLoadEnv)
  | observe (source : TimeSource) (utcMs monotonicUs : ℤ) (env : TimePersistEnv)
  | now (monotonicUs : ℤ)

/-- One step of a device. An observation in whose write power is lost leaves it off. -/
def Clock.step (w : Clock) : ClockAct → Clock
  | .boot initUs loadUs env =>
    { w with
      running := some (pmTimeLoadCheckpoint (pmTimeInit initUs) w.slots loadUs env).2
      returned := [] }
  | .observe source utcMs monotonicUs env =>
    match w.running with
    | none => w
    | some st =>
      let o := pmTimeObserve st w.slots source utcMs monotonicUs env
      { w with
        slots := o.slots
        running := if o.result = none then none else some o.state
        persists := w.persists + if o.persisted.isSome then 1 else 0
        kept := if o.result = some .ok then o.persisted.toList ++ w.kept else w.kept }
  | .now monotonicUs =>
    match w.running with
    | none => w
    | some st =>
      { w with
        running := some (pmTimeNow st monotonicUs).2
        returned := (pmTimeNow st monotonicUs).1.toList ++ w.returned }

/-- What `pm_time_now` returns on a device. -/
def Clock.reading (w : Clock) (monotonicUs : ℤ) : Option ℤ :=
  w.running.bind fun st => (pmTimeNow st monotonicUs).1

/-- Reads of a slot succeed once it was written. -/
def ReadsWritten (s : TimeSlots) (reads : Side → Bool) : Prop :=
  ∀ side, s.get side ≠ none → reads side = true

/-- **What is assumed of a step**: NVS reads succeed once written, there are fewer than `2 ^ 32 - 1`
persists, and the time returned is before 2100. -/
def Clock.Assumed (w : Clock) : ClockAct → Prop
  | .boot _ _ env => (w.slots ≠ Slots.empty → env.opened = none) ∧ ReadsWritten w.slots env.reads
  | .observe source utcMs monotonicUs env => ReadsWritten w.slots env.reads ∧
      (w.step (.observe source utcMs monotonicUs env)).persists < 2 ^ 32 - 1
  | .now monotonicUs => ∀ v, w.reading monotonicUs = some v → v < latestMs

/-- **Time does not go back**: a value returned is at least every one returned in this boot, and
every one ever persisted with `ESP_OK`. -/
def Clock.Steady (w : Clock) : ClockAct → Prop
  | .now monotonicUs => ∀ v, w.reading monotonicUs = some v →
      (∀ u ∈ w.returned, u ≤ v) ∧ ∀ u ∈ w.kept, u ≤ v
  | _ => True

/-! ## The slots -/

/-- The newest valid checkpoint. -/
abbrev newestTime (s : TimeSlots) : Option TimeCheckpoint :=
  best timeValid TimeCheckpoint.generation s

section Slots

variable {s : TimeSlots} {reads : Side → Bool}

theorem readTime_eq (h : ReadsWritten s reads) (side : Side) :
    readTime s reads side = (s.get side).filter (timeValid ·) := by
  unfold readTime
  split
  · rfl
  next hr =>
    have hnone : s.get side = none := by
      by_contra hne
      exact hr (h side hne)
    rw [hnone]
    rfl

theorem selectedCheckpoint_eq (h : ReadsWritten s reads) :
    selectedCheckpoint s reads = newestTime s := by
  have ha : readTime s reads .a = s.a.filter (timeValid ·) := readTime_eq h .a
  have hb : readTime s reads .b = s.b.filter (timeValid ·) := readTime_eq h .b
  unfold selectedCheckpoint newestTime best
  rw [ha, hb]
  rcases s.a.filter (timeValid ·) with _ | x <;> rcases s.b.filter (timeValid ·) with _ | y <;> rfl

theorem nextGeneration_eq (h : ReadsWritten s reads) :
    nextGeneration s reads = (((newestTime s).map (·.generation)).getD 0 + 1) % 2 ^ 32 := by
  have ha : readTime s reads .a = s.a.filter (timeValid ·) := readTime_eq h .a
  have hb : readTime s reads .b = s.b.filter (timeValid ·) := readTime_eq h .b
  unfold nextGeneration newestTime best
  rw [ha, hb]
  rcases s.a.filter (timeValid ·) with _ | x <;> rcases s.b.filter (timeValid ·) with _ | y
  · rfl
  · rfl
  · rfl
  · dsimp only
    split_ifs with h₁ h₂ h₂
    · rfl
    · omega
    · simp only [Option.map_some, Option.getD_some]
      omega
    · rfl

theorem newCheckpoint_valid {utcMs : ℤ} (h₁ : earliestMs ≤ utcMs) (h₂ : utcMs < latestMs)
    (generation : ℕ) : timeValid (newCheckpoint utcMs generation) = true := by
  unfold timeValid
  simp only [Bool.and_eq_true, decide_eq_true_eq]
  exact ⟨⟨h₁, h₂⟩, rfl⟩

/-- **What a persist leaves** while the generation does not wrap. -/
theorem persistTime_spec (hp : InPlace timeValid (·.generation) s) {env : TimePersistEnv}
    (hr : ReadsWritten s env.reads) {utcMs : ℤ} (h₁ : earliestMs ≤ utcMs) (h₂ : utcMs < latestMs)
    {bound : ℕ} (hbound : ∀ x, newestTime s = some x → x.generation ≤ bound)
    (hwrap : bound + 1 < 2 ^ 32) :
    ∃ x, x.utcMs = utcMs ∧ x.generation ≤ bound + 1 ∧
      InPlace timeValid (·.generation) (persistTime s utcMs env).2 ∧
      ((persistTime s utcMs env).1 = .success →
        newestTime (persistTime s utcMs env).2 = some x) ∧
      (newestTime (persistTime s utcMs env).2 = newestTime s ∨
        newestTime (persistTime s utcMs env).2 = some x) := by
  have hnewest : ((newestTime s).map (·.generation)).getD 0 ≤ bound := by
    cases hn : newestTime s with
    | none => exact Nat.zero_le _
    | some x => exact hbound x hn
  have hgen : nextGeneration s env.reads = ((newestTime s).map (·.generation)).getD 0 + 1 := by
    rw [nextGeneration_eq hr]
    exact Nat.mod_eq_of_lt (by omega)
  obtain ⟨hok, hor⟩ := hp.best_writeBlob
    (x := newCheckpoint utcMs (nextGeneration s env.reads)) (newCheckpoint_valid h₁ h₂ _)
    hgen env.write
  refine ⟨newCheckpoint utcMs (nextGeneration s env.reads), rfl, ?_, ?_, hok, hor⟩
  swap
  · exact hp.writeBlob (x := newCheckpoint utcMs (nextGeneration s env.reads)) env.write
  change nextGeneration s env.reads ≤ bound + 1
  omega

end Slots

/-! ## The invariant -/

/-- What the running state knows. -/
structure Clock.StateInv (w : Clock) (st : TimeState) : Prop where
  kept : ∀ v ∈ w.kept, v ≤ st.lastReturnedUtcMs
  returned : ∀ v ∈ w.returned, v ≤ st.lastReturnedUtcMs
  before : st.lastReturnedUtcMs < latestMs

/-- The invariant of a device. -/
structure Clock.Inv (w : Clock) : Prop where
  inPlace : InPlace timeValid (·.generation) w.slots
  bounded : ∀ x, newestTime w.slots = some x → x.generation ≤ w.persists
  covered : ∀ v ∈ w.kept, ∃ x, newestTime w.slots = some x ∧ v ≤ x.utcMs
  state : ∀ st, w.running = some st → w.StateInv st

theorem Clock.new_inv : Clock.new.Inv where
  inPlace := inPlace_empty
  bounded x hx := by cases hx
  covered v hv := by cases hv
  state st hst := by cases hst

section Steps

variable {w : Clock}

/-- **A boot** finds in the newest slot a time that covers what was kept. -/
theorem Clock.Inv.boot (h : w.Inv) {initUs loadUs : ℤ} {env : TimeLoadEnv}
    (ha : w.Assumed (.boot initUs loadUs env)) : (w.step (.boot initUs loadUs env)).Inv := by
  refine ⟨h.inPlace, h.bounded, h.covered, ?_⟩
  rintro st hst
  obtain rfl := Option.some.inj hst
  obtain ⟨hopen, hreads⟩ := ha
  -- with nothing to load, nothing was kept
  have hfresh : newestTime w.slots = none → w.kept = [] := by
    intro hnone
    rw [List.eq_nil_iff_forall_not_mem]
    intro v hv
    obtain ⟨x, hx, -⟩ := h.covered v hv
    rw [hnone] at hx
    cases hx
  have huntrusted : w.kept = [] →
      (w.step (.boot initUs loadUs env)).StateInv (pmTimeInit initUs) := by
    intro hnil
    refine ⟨fun v hv => ?_, fun v hv => ?_, ?_⟩
    · rw [show (w.step (.boot initUs loadUs env)).kept = w.kept from rfl, hnil] at hv
      cases hv
    · cases hv
    · exact (by decide : (0 : ℤ) < latestMs)
  unfold pmTimeLoadCheckpoint
  rw [selectedCheckpoint_eq hreads]
  split
  next e heq =>
    refine huntrusted (hfresh ?_)
    by_contra hne
    have hslots : w.slots ≠ Slots.empty := by
      intro hempty
      rw [hempty] at hne
      exact hne rfl
    rw [hopen hslots] at heq
    cases heq
  next hnone => exact huntrusted (hfresh hnone)
  next x hx =>
    refine ⟨fun v hv => ?_, (fun v hv => by cases hv), ?_⟩
    · obtain ⟨y, hy, hle⟩ := h.covered v hv
      rw [hx] at hy
      exact (Option.some.inj hy) ▸ hle
    · have hv := (best_mem hx).1
      simp only [timeValid, Bool.and_eq_true, decide_eq_true_eq] at hv
      exact hv.1.2

theorem observed_le (st : TimeState) (source : TimeSource) (utcMs monotonicUs : ℤ) :
    st.lastReturnedUtcMs ≤ (st.observed source utcMs monotonicUs).lastReturnedUtcMs ∧
      utcMs ≤ (st.observed source utcMs monotonicUs).lastReturnedUtcMs := by
  simp only [TimeState.observed]
  split_ifs <;> omega

theorem observed_lt {st : TimeState} (source : TimeSource) {utcMs : ℤ} (monotonicUs : ℤ)
    (h : st.lastReturnedUtcMs < latestMs) (hu : utcMs < latestMs) :
    (st.observed source utcMs monotonicUs).lastReturnedUtcMs < latestMs := by
  simp only [TimeState.observed]
  split_ifs
  · exact hu
  · exact h

/-- An observation passes the checks when its time is in range. -/
theorem range_of_observeError {st : TimeState} {source : TimeSource} {utcMs monotonicUs : ℤ}
    (h : observeError st source utcMs monotonicUs = none) : earliestMs ≤ utcMs ∧ utcMs < latestMs := by
  unfold observeError at h
  split at h
  · cases h
  next hrange =>
    simp only [Bool.or_eq_true, Bool.not_eq_true', decide_eq_true_eq, not_or, not_lt, not_le] at hrange
    exact ⟨hrange.1.2, hrange.2⟩

/-- A value that counts as kept after a persist is the persisted one, or was kept before. -/
theorem kept_cases {e : WriteEnd Failure} {u v : ℤ} {kept : List ℤ}
    (hv : v ∈ if endResult e = some .ok then (some u).toList ++ kept else kept) :
    (v = u ∧ e = .success) ∨ v ∈ kept := by
  split at hv
  next hend =>
    simp only [Option.toList_some, List.cons_append, List.nil_append, List.mem_cons] at hv
    refine hv.imp_left fun hv => ⟨hv, ?_⟩
    cases e with
    | success => rfl
    | failure e => exact absurd (Option.some.inj hend) e.2
    | lost => cases hend
  · exact .inr hv

/-- **An observation** persists the running maximum, so whichever slot is newest afterwards covers
what was kept. -/
theorem Clock.Inv.observe (h : w.Inv) {source : TimeSource} {utcMs monotonicUs : ℤ}
    {env : TimePersistEnv} (ha : w.Assumed (.observe source utcMs monotonicUs env)) :
    (w.step (.observe source utcMs monotonicUs env)).Inv := by
  obtain ⟨hreads, hcount⟩ := ha
  unfold Clock.step at hcount ⊢
  cases hrun : w.running with
  | none => exact h
  | some st =>
    have hst := h.state st hrun
    simp only [hrun] at hcount
    dsimp only
    unfold pmTimeObserve at hcount ⊢
    cases herr : observeError st source utcMs monotonicUs with
    | some e =>
      refine ⟨h.inPlace, h.bounded, fun v hv => h.covered v (by simpa using hv), fun st' hst' => ?_⟩
      obtain rfl : st = st' := by simpa using hst'
      exact ⟨fun v hv => hst.kept v (by simpa using hv), hst.returned, hst.before⟩
    | none =>
      obtain ⟨hearly, hlate⟩ := range_of_observeError herr
      obtain ⟨hle, hu⟩ := observed_le st source utcMs monotonicUs
      have hbefore := observed_lt source monotonicUs hst.before hlate
      simp only [herr, Option.isSome_some, if_true] at hcount
      obtain ⟨x, hx, hgen, hplace, hok, hnewest⟩ := persistTime_spec h.inPlace hreads
        (hearly.trans hu) hbefore h.bounded (by omega)
      dsimp only
      generalize st.observed source utcMs monotonicUs = st₁ at hle hbefore hx hplace hok hnewest ⊢
      refine ⟨hplace, fun y hy => ?_, fun v hv => ?_, fun st₂ hst₂ => ?_⟩
      · dsimp only at hy ⊢
        simp only [Option.isSome_some, if_true]
        rcases hnewest with heq | heq
        · exact (h.bounded y (heq ▸ hy)).trans (Nat.le_succ _)
        · obtain rfl := Option.some.inj (heq.symm.trans hy)
          exact hgen
      · dsimp only at hv ⊢
        rcases kept_cases hv with ⟨rfl, hsucc⟩ | hv
        · exact ⟨x, hok hsucc, hx.ge⟩
        · rcases hnewest with heq | heq
          · rw [heq]
            exact h.covered v hv
          · exact ⟨x, heq, hx ▸ (hst.kept v hv).trans hle⟩
      · obtain rfl : st₁ = st₂ := by
          dsimp only at hst₂
          split at hst₂
          · cases hst₂
          · exact Option.some.inj hst₂
        refine ⟨fun v hv => ?_, fun v hv => (hst.returned v hv).trans hle, hbefore⟩
        rcases kept_cases hv with ⟨rfl, -⟩ | hv
        · exact le_rfl
        · exact (hst.kept v hv).trans hle

/-- What `pm_time_now` returns is the last time it returned or was told, or later. -/
theorem pmTimeNow_spec {st : TimeState} {monotonicUs v : ℤ}
    (h : (pmTimeNow st monotonicUs).1 = some v) :
    st.lastReturnedUtcMs ≤ v ∧ (pmTimeNow st monotonicUs).2.lastReturnedUtcMs = v := by
  unfold pmTimeNow at h ⊢
  split at h
  · cases h
  next hcond =>
    rw [if_neg hcond]
    have hv := Option.some.inj h
    refine ⟨?_, hv⟩
    split_ifs at hv <;> omega

theorem pmTimeNow_none {st : TimeState} {monotonicUs : ℤ} (h : (pmTimeNow st monotonicUs).1 = none) :
    (pmTimeNow st monotonicUs).2 = st := by
  unfold pmTimeNow at h ⊢
  split at h
  next hcond => rw [if_pos hcond]
  · cases h

theorem Clock.Inv.now (h : w.Inv) {monotonicUs : ℤ} (ha : w.Assumed (.now monotonicUs)) :
    (w.step (.now monotonicUs)).Inv := by
  unfold Clock.step
  cases hrun : w.running with
  | none => exact h
  | some st =>
    have hst := h.state st hrun
    refine ⟨h.inPlace, h.bounded, h.covered, fun st' hst' => ?_⟩
    obtain rfl := Option.some.inj hst'
    cases hv : (pmTimeNow st monotonicUs).1 with
    | none =>
      rw [pmTimeNow_none hv]
      refine ⟨hst.kept, fun u hu => hst.returned u ?_, hst.before⟩
      simpa [hv] using hu
    | some v =>
      obtain ⟨hle, heq⟩ := pmTimeNow_spec hv
      refine ⟨fun u hu => ?_, fun u hu => ?_, ?_⟩
      · rw [heq]
        exact (hst.kept u hu).trans hle
      · rw [heq]
        obtain rfl | hu : u = v ∨ u ∈ w.returned := by simpa [hv] using hu
        · exact le_rfl
        · exact (hst.returned u hu).trans hle
      · rw [heq]
        exact ha v (by simp [Clock.reading, hrun, hv])

theorem Clock.Inv.step (h : w.Inv) {a : ClockAct} (ha : w.Assumed a) : (w.step a).Inv := by
  cases a with
  | boot initUs loadUs env => exact h.boot ha
  | observe source utcMs monotonicUs env => exact h.observe ha
  | now monotonicUs => exact h.now ha

theorem Clock.Inv.steady (h : w.Inv) (a : ClockAct) : w.Steady a := by
  cases a with
  | boot initUs loadUs env => trivial
  | observe source utcMs monotonicUs env => trivial
  | now monotonicUs =>
    intro v hv
    obtain ⟨st, hrun, hnow⟩ := Option.bind_eq_some_iff.1 hv
    have hle := (pmTimeNow_spec hnow).1
    have hst := h.state st hrun
    exact ⟨fun u hu => (hst.returned u hu).trans hle, fun u hu => (hst.kept u hu).trans hle⟩

end Steps

/-- **Trusted time never goes back**, within a boot and across boots. -/
theorem trusted_time_never_goes_back {acts : List ClockAct}
    (h : Along Clock.step Clock.Assumed Clock.new acts) :
    Along Clock.step Clock.Steady Clock.new acts :=
  Along.imp_of_invariant (I := Clock.Inv) (fun _ _ hi ha => hi.step ha)
    (fun _ a hi _ => hi.steady a) Clock.new_inv h

/-- Two observations, the second one three minutes back and torn by a power loss, and the boot after
it. -/
def tornHistory : List ClockAct :=
  let reads : Side → Bool := fun _ => true
  [.boot 0 5 ⟨none, reads⟩, .observe .sntp 1800000000000 1000000 ⟨reads, .none⟩, .now 3000000,
    .observe .sntp 1799999820000 4000000
      ⟨reads, .powerLoss (.torn ⟨0, 2, 0⟩ (by decide))⟩,
    .boot 0 5 ⟨none, reads⟩, .now 1000005]

/-- The boot goes on from the first observation, the value that was persisted. -/
theorem trusted_time_after_torn_write :
    Along Clock.step Clock.Steady Clock.new tornHistory ∧
      (run Clock.step Clock.new tornHistory).returned = [1800000001000] ∧
      (run Clock.step Clock.new tornHistory).kept = [1800000000000] := by
  refine ⟨trusted_time_never_goes_back ?_, by decide +kernel, by decide⟩
  refine ⟨⟨fun _ => rfl, fun _ _ => rfl⟩, ⟨fun _ _ => rfl, by decide⟩, ?_,
    ⟨fun _ _ => rfl, by decide⟩, ⟨fun _ => rfl, fun _ _ => rfl⟩, ?_, trivial⟩
  · show ∀ v ∈ Clock.reading _ _, v < latestMs
    decide
  · show ∀ v ∈ Clock.reading _ _, v < latestMs
    decide +kernel

end PowerMonitor.Protocol
