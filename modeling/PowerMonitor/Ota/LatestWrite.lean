import PowerMonitor.Foundations.Runs
import PowerMonitor.Ota.Moves

/-!
# The checkpoint that was written last

The histories of the checkpoint store: loads, installs, validations and cancellations, one call at a
time, with any NVS failure, any reboot and any number of deployments. The question is whether a load
made right after a persist that returned `ESP_OK` returns what that persist wrote.

The slot that is written follows from the generation in the caller's checkpoint, the slot that is
read from the generations in NVS. `Current` ties the two: the caller's generation is stored in its
own slot, so the next one goes to the other slot and is the greater. Every caller that loads first
has it, and `pm_ota_install` has it from its second persist on. Its first persist starts from
generation zero whatever is stored, and `latestWins_iff` says exactly when that does no harm.
-/

namespace PowerMonitor.Ota

open AbStore CMemory Runs

/-! ## Histories -/

/-- A call of `pm_ota.c` in progress. -/
inductive OtaCall
  | install (m : Manifest) (s : Install)
  | cancel (reason : EspErr) (s : Cancel)
  | validate (s : Validate)

/-- The call has returned. -/
def OtaCall.returned : OtaCall → Bool
  | install _ ⟨.returned _, _, _⟩ => true
  | cancel _ (.returned _) => true
  | validate (.returned _) => true
  | _ => false

def StepEnd.map {σ τ : Type} (f : σ → τ) (s : StepEnd σ) : StepEnd τ :=
  ⟨s.next.map f, s.flash, s.wrote⟩

theorem afterLoad_map {σ τ : Type} (g : σ → τ) (fl : OtaFlash) (f : LoadFaults)
    (returned : EspErr → σ) (next : Checkpoint → σ) :
    (afterLoad fl f returned next).map g =
      afterLoad fl f (fun e => g (returned e)) fun c => g (next c) := by
  simp only [afterLoad, StepEnd.map, Option.map_map, StepEnd.mk.injEq, and_true]
  congr 1
  funext e
  dsimp only [Function.comp_apply]
  split <;> rfl

theorem afterPersist_map {σ τ : Type} (g : σ → τ) (fl : OtaFlash) (c : Checkpoint)
    (f : PersistFaults) (next : EspErr → σ) :
    (afterPersist fl c f next).map g = afterPersist fl c f fun e => g (next e) := by
  simp only [afterPersist, StepEnd.map, Option.map_map, StepEnd.mk.injEq, and_true]
  rfl

/-- One step of a call. -/
def OtaCall.step [Sha256] (c : OtaCall) (fl : OtaFlash) (env : OtaEnv) : StepEnd OtaCall :=
  match c with
  | install m s => (s.step m fl env).map (.install m)
  | cancel reason s => (s.step reason fl env).map (.cancel reason)
  | validate s => (s.step fl env).map .validate

/-- The flash, the call in progress, and the checkpoint of a persist that returned `ESP_OK` in the
last step. -/
structure CheckpointHistory where
  flash : OtaFlash
  call : Option OtaCall
  wrote : Option Checkpoint

/-- One step of a history. -/
inductive OtaAct
  | load (env : OtaEnv)
  | install (m : Manifest)
  | cancel (reason : EspErr)
  | validate
  | step (env : OtaEnv)
  | reboot (env : BootEnv)

namespace CheckpointHistory

/-- A device whose checkpoint keys were never written. -/
def start (fl : OtaFlash) : CheckpointHistory :=
  ⟨{ fl with checkpoints := Slots.empty }, none, none⟩

/-- The history after a step of a call; when the device resets under it, the call is gone. -/
def advance (s : StepEnd OtaCall) (env : BootEnv) : CheckpointHistory :=
  ⟨if s.next.isSome then s.flash else s.flash.boot env, s.next, s.wrote⟩

/-- One step. Calls are made one at a time. -/
def step [Sha256] (h : CheckpointHistory) : OtaAct → CheckpointHistory
  | .load env =>
    if h.call.isSome then { h with wrote := none }
    else
      let l := pmOtaLoadCheckpoint h.flash.checkpoints env.load
      let fl := { h.flash with checkpoints := l.slots }
      ⟨if l.result.isSome then fl else fl.boot env.boot, none, l.wrote⟩
  | .install m => { h with call := h.call <|> some (.install m (.start m)), wrote := none }
  | .cancel reason => { h with call := h.call <|> some (.cancel reason .selecting), wrote := none }
  | .validate => { h with call := h.call <|> some (.validate .checking), wrote := none }
  | .step env =>
    match h.call with
    | none => { h with wrote := none }
    | some c =>
      if c.returned then { h with call := none, wrote := none }
      else advance (c.step h.flash env) env.boot
  | .reboot env => ⟨h.flash.boot env, none, none⟩

/-- A load made now, without faults, returns exactly the checkpoint the last step wrote. -/
def LatestWins (h : CheckpointHistory) : Prop :=
  ∀ c, h.wrote = some c →
    pmOtaLoadCheckpoint h.flash.checkpoints {} = ⟨some .ok, c, h.flash.checkpoints, none⟩

instance (h : CheckpointHistory) : Decidable h.LatestWins :=
  match hw : h.wrote with
  | none => .isTrue fun c hc => by rw [hw] at hc; cases hc
  | some w => decidable_of_iff
      (pmOtaLoadCheckpoint h.flash.checkpoints {} = ⟨some .ok, w, h.flash.checkpoints, none⟩)
      ⟨fun hl c hc => by rw [hw, Option.some.injEq] at hc; exact hc ▸ hl, fun hl => hl w hw⟩

end CheckpointHistory

/-- The write and its read-back meet no fault. -/
def PersistFaults.Succeeds (f : PersistFaults) : Prop :=
  f.opened = .ok ∧ f.write.result = some .ok ∧ f.verify = .ok

/-- The first persist of `pm_ota_install`, when it succeeds, finds `slot_b` never written. -/
def FreshStart (h : CheckpointHistory) : OtaAct → Prop
  | .step env => ∀ m s, h.call = some (.install m s) → s.pc = .firstPersist →
      env.persist.Succeeds → h.flash.checkpoints.b = none
  | _ => True

/-! ## One write -/

section Write

/-- A checkpoint of generation `g` is stored in its own slot; the other slot may hold anything. -/
def Current (s : Slots Checkpoint) (g : ℕ) : Prop :=
  ∃ base : Checkpoint, base.generation = g ∧
    Holds checkpointValid Checkpoint.generation s base fun _ => True

theorem newest_of_holds {s : Slots Checkpoint} {c : Checkpoint}
    (h : Holds checkpointValid Checkpoint.generation s c fun _ => False) : newest s = some c :=
  h.best_eq

/-- On a consistent store the newest checkpoint is current. -/
theorem Consistent.holds_newest {s : Slots Checkpoint} (h : Consistent s) {c : Checkpoint}
    (hc : newest s = some c) :
    Holds checkpointValid Checkpoint.generation s c fun _ => False := by
  obtain ⟨a, b⟩ := s
  have key : ∀ side y, (Slots.mk a b).get side = some y → (Slots.mk a b).get side.other = none →
      Holds checkpointValid Checkpoint.generation ⟨a, b⟩ y fun _ => False := by
    intro side y hy ho
    obtain ⟨hv, hs, -⟩ := h side y hy
    exact ⟨by rw [hs, hy], hv, fun z hz => by rw [hs, ho] at hz; cases hz⟩
  cases a with
  | none =>
    cases b with
    | none => simp [newest, best] at hc
    | some y =>
      have hy := (h .b y rfl).1
      obtain rfl : y = c := by simpa [newest, best, Option.filter_some, hy] using hc
      exact key .b y rfl rfl
  | some x =>
    obtain ⟨hx, hxs, -⟩ := h .a x rfl
    cases b with
    | none =>
      obtain rfl : x = c := by simpa [newest, best, Option.filter_some, hx] using hc
      exact key .a x rfl rfl
    | some y =>
      obtain ⟨hy, hys, -⟩ := h .b y rfl
      have hne : x.generation ≠ y.generation := fun hxy => by
        have := hxs.symm.trans ((congrArg sideOf hxy).trans hys)
        cases this
      simp only [newest, best, Option.filter_some, hx, hy, if_true] at hc
      split at hc
      next hle =>
        obtain rfl := Option.some.inj hc
        refine ⟨by rw [hxs]; rfl, hx, fun z hz _ => .inl ?_⟩
        rw [hxs] at hz
        obtain rfl := Option.some.inj hz
        omega
      next hle =>
        obtain rfl := Option.some.inj hc
        refine ⟨by rw [hys]; rfl, hy, fun z hz _ => .inl ?_⟩
        rw [hys] at hz
        obtain rfl := Option.some.inj hz
        omega

theorem Consistent.current_newest {s : Slots Checkpoint} (h : Consistent s) {c : Checkpoint}
    (hc : newest s = some c) : Current s c.generation :=
  ⟨c, rfl, (h.holds_newest hc).mono fun _ h => h.elim⟩

variable {s : Slots Checkpoint} {c : Checkpoint}

/-- **A write over a current generation wins**, and its caller stays current whether it succeeds or
not. -/
theorem Current.persist (h : Current s c.generation) (hc : c.sane = true) (f : PersistFaults) :
    Current (persistCheckpoint c s f).slots (persistCheckpoint c s f).checkpoint.generation ∧
      ∀ w, (persistCheckpoint c s f).wrote = some w →
        newest (persistCheckpoint c s f).slots = some w := by
  obtain ⟨base, hg, hbase⟩ := h
  have hside : sideOf (nextCheckpoint c).generation = (sideOf base.generation).other := by
    rw [hg, nextCheckpoint_generation, sideOf_succ]
  have hlt : base.generation < (nextCheckpoint c).generation := by
    rw [hg, nextCheckpoint_generation]
    omega
  rcases persistCheckpoint_cases c s f with ⟨-, h'⟩ | ⟨e, -, h' | h'⟩ <;> rw [h']
  · have hnew := hbase.replace (by simpa using hc) hlt hside
    exact ⟨⟨nextCheckpoint c, rfl, hnew.mono fun _ h => h.elim⟩,
      fun w hw => Option.some.inj hw ▸ newest_of_holds hnew⟩
  · exact ⟨⟨base, hg, hbase⟩, fun w hw => by cases hw⟩
  · refine ⟨⟨base, hg, ?_⟩, fun w hw => by cases hw⟩
    exact (hbase.leave hlt hside (.new : Residue checkpointValid)).mono fun _ _ => trivial

/-- The store of a device that was never written. -/
theorem Current.first (f : PersistFaults) (w : Checkpoint)
    (hw : (persistCheckpoint Checkpoint.zero Slots.empty f).wrote = some w) :
    newest (persistCheckpoint Checkpoint.zero Slots.empty f).slots = some w := by
  rcases persistCheckpoint_cases Checkpoint.zero Slots.empty f with ⟨-, h'⟩ | ⟨e, -, h' | h'⟩ <;>
    rw [h'] at hw ⊢
  · obtain rfl := Option.some.inj hw
    have hv : checkpointValid (nextCheckpoint Checkpoint.zero) = true := by
      rw [nextCheckpoint_valid]
      rfl
    change newest ⟨some (nextCheckpoint Checkpoint.zero), none⟩ = _
    simp [newest, best, Option.filter_some, hv]
  all_goals cases hw

end Write

/-! ## The calls -/

/-- The checkpoint of an install: sane, of the size of the manifest, and current once its first
persist is done. -/
def InstallInv (m : Manifest) (slots : Slots Checkpoint) (s : Install) : Prop :=
  s.checkpoint.sane = true ∧ s.checkpoint.imageSize = m.imageSize ∧
    match s.pc with
    | .checking | .firstPersist => s.checkpoint.generation = 0
    | .returned _ => True
    | _ => Current slots s.checkpoint.generation

/-- What holds of a call in progress. -/
def CallInv (slots : Slots Checkpoint) : OtaCall → Prop
  | .install m s => InstallInv m slots s
  | .cancel _ (.persisting c) => c.sane = true ∧ Current slots c.generation
  | .validate (.persisting _ c) => c.sane = true ∧ Current slots c.generation
  | _ => True

/-- The invariant of a history. -/
structure CheckpointHistory.Inv (h : CheckpointHistory) : Prop where
  consistent : Consistent h.flash.checkpoints
  call : ∀ c, h.call = some c → CallInv h.flash.checkpoints c

/-- What one step of a call keeps. -/
structure Keeps (s : StepEnd OtaCall) : Prop where
  consistent : Consistent s.flash.checkpoints
  call : ∀ c, s.next = some c → CallInv s.flash.checkpoints c

/-- A checkpoint the step wrote is the newest. -/
def Wins (s : StepEnd OtaCall) : Prop :=
  ∀ w, s.wrote = some w → newest s.flash.checkpoints = some w

section

variable {m : Manifest} {fl : OtaFlash} {s : Install}

/-- A step that writes no checkpoint. -/
theorem keeps_quiet {fl fl' : OtaFlash} (hc : Consistent fl.checkpoints) (call : OtaCall)
    (hfl : fl'.checkpoints = fl.checkpoints) (hcall : CallInv fl.checkpoints call) :
    Keeps ⟨some call, fl', none⟩ ∧ Wins ⟨some call, fl', none⟩ := by
  refine ⟨⟨by rwa [hfl], fun c h => ?_⟩, fun w hw => by cases hw⟩
  obtain rfl := Option.some.inj h
  rwa [hfl]

theorem keeps_persist (hc : Consistent fl.checkpoints) {c : Checkpoint} (hs : c.sane = true)
    (hm : c.imageSize = m.imageSize) (hcur : Current fl.checkpoints c.generation)
    (f : PersistFaults) {ok : InstallPc} {err : EspErr → InstallPc}
    (hok : ok ≠ .checking ∧ ok ≠ .firstPersist)
    (herr : ∀ e, err e ≠ .checking ∧ err e ≠ .firstPersist) :
    Keeps ((s.persist fl c f ok err).map (.install m)) ∧
      Wins ((s.persist fl c f ok err).map (.install m)) := by
  obtain ⟨hcur', hwins⟩ := hcur.persist hs f
  obtain ⟨hs', hm', -⟩ := persistCheckpoint_fields c fl.checkpoints f
  refine ⟨⟨hc.persist hs f, fun call h => ?_⟩, hwins⟩
  simp only [StepEnd.map, Install.persist, Option.map_map, Option.map_eq_some_iff] at h
  obtain ⟨e, -, rfl⟩ := h
  refine ⟨hs'.trans hs, hm'.trans hm, ?_⟩
  have hpc : (if e = .ok then ok else err e) ≠ .checking ∧
      (if e = .ok then ok else err e) ≠ .firstPersist := by
    split
    exacts [hok, herr e]
  revert hpc
  dsimp only [Function.comp_apply]
  generalize (if e = EspErr.ok then ok else err e) = pc
  intro hpc
  cases pc with
  | checking => exact absurd rfl hpc.1
  | firstPersist => exact absurd rfl hpc.2
  | returned => trivial
  | _ => exact hcur'

/-- The persist of a checkpoint just loaded. -/
theorem keeps_afterPersist (hc : Consistent fl.checkpoints) {c : Checkpoint} (hs : c.sane = true)
    (hcur : Current fl.checkpoints c.generation) (f : PersistFaults) (next : EspErr → OtaCall)
    (hnext : ∀ e slots, CallInv slots (next e)) :
    Keeps (afterPersist fl c f next) ∧ Wins (afterPersist fl c f next) := by
  refine ⟨⟨hc.persist hs f, fun call h => ?_⟩, (hcur.persist hs f).2⟩
  obtain ⟨e, -, rfl⟩ := Option.map_eq_some_iff.1 h
  exact hnext e _

theorem Consistent.newest_sane {s : Slots Checkpoint} (h : Consistent s) {c : Checkpoint}
    (hc : newest s = some c) : c.sane = true := by
  have := (h _ c (h.holds_newest hc).stored).1
  simp only [checkpointValid, Bool.and_eq_true] at this
  exact this.1

theorem keeps_afterLoad (hc : Consistent fl.checkpoints) (f : LoadFaults)
    (returned : EspErr → OtaCall) (next : Checkpoint → OtaCall)
    (hret : ∀ e slots, CallInv slots (returned e))
    (hnext : ∀ c slots, c.sane = true → Current slots c.generation → CallInv slots (next c)) :
    Keeps (afterLoad fl f returned next) ∧ Wins (afterLoad fl f returned next) := by
  rcases pmOtaLoadCheckpoint_cases hc f with ⟨e, he, hl⟩ | ⟨c, hnew, hl⟩ | ⟨hempty, hl⟩
  · refine ⟨⟨by simpa [afterLoad, hl] using hc, fun call h => ?_⟩, fun w hw => ?_⟩
    · simp only [afterLoad, hl, Option.map_eq_some_iff] at h
      obtain ⟨e', rfl, rfl⟩ := h
      rw [if_neg (by simpa using he)]
      exact hret e' _
    · simp [afterLoad, hl] at hw
  · refine ⟨⟨by simpa [afterLoad, hl] using hc, fun call h => ?_⟩, fun w hw => ?_⟩
    · simp only [afterLoad, hl, Option.map_some, if_true, Option.some.injEq] at h ⊢
      subst h
      exact hnext c _ (hc.newest_sane hnew) (hc.current_newest hnew)
    · simp [afterLoad, hl] at hw
  · have hslots := hc.persist (c := Checkpoint.zero) rfl f.persist
    have hwins := Current.first f.persist
    rw [← hempty] at hwins
    refine ⟨⟨by simpa only [afterLoad, hl] using hslots, fun call h => ?_⟩,
      by simpa only [Wins, afterLoad, hl] using hwins⟩
    simp only [afterLoad, hl, Option.map_eq_some_iff] at h ⊢
    obtain ⟨e, he, rfl⟩ := h
    split
    next hok =>
      obtain ⟨-, hp⟩ := persistCheckpoint_ok (he.trans (congrArg some hok))
      have hnew := hwins _ (by rw [hp])
      rw [hp] at hnew hslots ⊢
      exact hnext _ _ (hslots.newest_sane hnew) (hslots.current_newest hnew)
    · exact hret e _

/-- A persist of a sane checkpoint below the last generation succeeds exactly when it meets no
fault. -/
theorem persistCheckpoint_wrote {c : Checkpoint} (hs : c.sane = true)
    (hmax : c.generation ≠ uint32Max) (slots : Slots Checkpoint) (f : PersistFaults) :
    (f.Succeeds ∧ persistCheckpoint c slots f = ⟨some .ok, nextCheckpoint c,
      slots.set (sideOf (c.generation + 1)) (some (nextCheckpoint c)), some (nextCheckpoint c)⟩) ∨
    (¬f.Succeeds ∧ (persistCheckpoint c slots f).wrote = none ∧
      (persistCheckpoint c slots f).result ≠ some .ok) := by
  by_cases hf : f.Succeeds
  · obtain ⟨hopen, hwrite, hverify⟩ := hf
    refine .inl ⟨⟨hopen, hwrite, hverify⟩, ?_⟩
    simp [persistCheckpoint, hmax, hopen, hwrite, hverify, NvsWrite.landed_of_ok hwrite,
      readCheckpoint, hs]
  · refine .inr ⟨hf, ?_⟩
    rcases persistCheckpoint_cases c slots f with ⟨-, h⟩ | ⟨e, he, h | h⟩
    · -- the result of each of the three calls is that of a call without fault
      exfalso
      apply hf
      have hres := congrArg CheckpointCall.result h
      simp only [persistCheckpoint, hmax, if_false] at hres
      cases hopen : f.opened with
      | powerLoss => simp [hopen] at hres
      | fails e => simp [hopen, e.2.1] at hres
      | ok =>
        simp only [hopen] at hres
        cases hw : f.write.result with
        | none => simp [hw] at hres
        | some e =>
          simp only [hw] at hres
          by_cases he : e = .ok
          · subst he
            cases hv : f.verify with
            | ok => exact ⟨hopen, hw, hv⟩
            | powerLoss => simp [hv, readCheckpoint] at hres
            | fails e => simp [hv, readCheckpoint, e.2.1] at hres
          · simp [he] at hres
    all_goals
      rw [h]
      exact ⟨rfl, he⟩

/-- **The first persist of an install** starts from generation zero: it wins exactly when `slot_b`
was never written. -/
theorem firstPersist_wins (hc : Consistent fl.checkpoints) (hs : s.checkpoint.sane = true)
    (hm : s.checkpoint.imageSize = m.imageSize) (hg : s.checkpoint.generation = 0)
    (f : PersistFaults) :
    Keeps ((s.persist fl s.checkpoint f .reportFirst .returned).map (.install m)) ∧
      (Wins ((s.persist fl s.checkpoint f .reportFirst .returned).map (.install m)) ↔
        (f.Succeeds → fl.checkpoints.b = none)) := by
  have hmax : s.checkpoint.generation ≠ uint32Max := by rw [hg]; decide
  have hside : sideOf (s.checkpoint.generation + 1) = .a := by rw [hg]; rfl
  have hvalid : checkpointValid (nextCheckpoint s.checkpoint) = true := by simpa using hs
  have hgen : (nextCheckpoint s.checkpoint).generation = 1 := by rw [nextCheckpoint_generation, hg]
  rcases persistCheckpoint_wrote hs hmax fl.checkpoints f with ⟨hf, hp⟩ | ⟨hf, hw, hres⟩
  · rw [hside] at hp
    have hb : ∀ y, fl.checkpoints.b = some y → 1 < y.generation ∧ sideOf y.generation = .b := by
      intro y hy
      obtain ⟨-, hpar, hpos⟩ := hc .b y hy
      refine ⟨?_, hpar⟩
      by_contra hle
      obtain hy1 : y.generation = 1 := by omega
      rw [hy1] at hpar
      cases hpar
    have hslots := hc.set hs
    rw [hside] at hslots
    refine ⟨⟨by simpa only [StepEnd.map, Install.persist, hp] using hslots, fun call h => ?_⟩, ?_⟩
    · simp only [StepEnd.map, Install.persist, hp, Option.map_some, if_true,
        Option.some.injEq] at h ⊢
      subst h
      refine ⟨by simpa using hs, by simpa [nextCheckpoint] using hm, nextCheckpoint s.checkpoint,
        rfl, by rw [hgen]; rfl, hvalid, fun y hy _ => .inr ⟨trivial, ?_⟩⟩
      rw [hgen] at hy ⊢
      exact hb y hy
    · simp only [Wins, StepEnd.map, Install.persist, hp, Option.some.injEq, forall_eq', hf,
        true_imp_iff]
      obtain ⟨a, b, hslot⟩ : ∃ a b, fl.checkpoints = ⟨a, b⟩ := ⟨_, _, rfl⟩
      rw [hslot] at hb hc ⊢
      cases b with
      | none => simp [Slots.set, newest, best, Option.filter_some, hvalid]
      | some y =>
        have hlt := (hb y rfl).1
        have hy := (hc .b y rfl).1
        have hne : y ≠ nextCheckpoint s.checkpoint := by
          rintro rfl
          omega
        simp only [Slots.set, newest, best, Option.filter_some, hvalid, hy, if_true, hgen]
        rw [if_neg (by omega)]
        simpa using hne
  · refine ⟨⟨hc.persist hs f, fun call h => ?_⟩, ?_⟩
    · obtain ⟨hs', hm', -⟩ := persistCheckpoint_fields s.checkpoint fl.checkpoints f
      simp only [StepEnd.map, Install.persist, Option.map_map, Option.map_eq_some_iff] at h
      obtain ⟨e, he, rfl⟩ := h
      have : e ≠ .ok := fun h => hres (he.trans (congrArg some h))
      exact ⟨hs'.trans hs, hm'.trans hm, by simp [this]⟩
    · simp [Wins, StepEnd.map, Install.persist, hw, hf]

end

/-- A checkpoint under a new stage and error. -/
theorem sane_outcome {c : Checkpoint} (hs : c.sane = true) {stage : OtaStage}
    (hstage : stage.inRange = true) (code : ℤ) :
    Checkpoint.sane { c with stage := stage, lastError := code } = true := by
  simp only [Checkpoint.sane, Bool.and_eq_true] at hs ⊢
  exact ⟨hstage, hs.2⟩

section Install

variable [Sha256] {m : Manifest} {fl : OtaFlash} {s : Install} {slots : Slots Checkpoint}

omit [Sha256] in
/-- Past the first persist, and not returned, the checkpoint is current. -/
theorem InstallInv.current (hi : InstallInv m slots s) (hpc : s.pc ≠ .checking)
    (hfirst : s.pc ≠ .firstPersist) (hret : ∀ e, s.pc ≠ .returned e) :
    Current slots s.checkpoint.generation := by
  have hpos := hi.2.2
  split at hpos
  next h => exact absurd h hpc
  next h => exact absurd h hfirst
  next e h => exact absurd h (hret e)
  · exact hpos

/-- Going on without a trace. -/
theorem InstallInv.goes (hi : InstallInv m slots s) {pc : InstallPc} (hgo : s.Goes m pc) :
    InstallInv m slots (s.goto pc) := by
  have hcur := hi.current
  obtain ⟨hs, hm, hpos⟩ := hi
  refine ⟨hs, hm, ?_⟩
  cases hgo with
  | check h =>
    rw [h] at hpos
    exact hpos
  | quit e _ => trivial
  | fail e h =>
    rcases h with h | h | h | h | h <;> exact hcur (by simp [h]) (by simp [h]) (by simp [h])
  | start h | download h | finish h _ | record h | read h | verify h _ | select h =>
    exact hcur (by simp [h]) (by simp [h]) (by simp [h])

omit [Sha256] in
/-- Storing a checkpoint after the first. -/
theorem keeps_persists (hc : Consistent fl.checkpoints) (hi : InstallInv m fl.checkpoints s)
    (hpc : s.pc ≠ .firstPersist) {c : Checkpoint} {ok : InstallPc} {err : EspErr → InstallPc}
    (hp : s.Persists c ok err) (f : PersistFaults) :
    Keeps ((s.persist fl c f ok err).map (.install m)) ∧
      Wins ((s.persist fl c f ok err).map (.install m)) := by
  have hcur := hi.current
  obtain ⟨hs, hm, -⟩ := hi
  cases hp with
  | first h => exact absurd h hpc
  | progress h =>
    exact keeps_persist hc hs hm (hcur (by simp [h]) hpc (by simp [h])) f (by simp) (by simp)
  | downloading h | verified h | selected h | failed h =>
    refine keeps_persist hc ?_ ?_ ?_ f ?_ ?_
    exacts [sane_outcome hs rfl _, hm, hcur (by simp [h]) hpc (by simp [h]), by simp, by simp]

/-- **One step of an install past its first persist** keeps its checkpoint current, and what it
writes is the newest. -/
theorem install_keeps (hc : Consistent fl.checkpoints) (hi : InstallInv m fl.checkpoints s)
    (hpc : s.pc ≠ .firstPersist) (env : OtaEnv) :
    Keeps ((s.step m fl env).map (.install m)) ∧ Wins ((s.step m fl env).map (.install m)) := by
  have hmove := s.step_move m fl env
  generalize s.step m fl env = r at hmove ⊢
  have hcur := hi.current
  obtain ⟨hs, hm, -⟩ := id hi
  cases hmove with
  | goes hgo => exact keeps_quiet hc _ rfl (hi.goes hgo)
  | persists hp => exact keeps_persists hc hi hpc hp env.persist
  | erases h hnext =>
    have hcur := hcur (by simp [h]) hpc (by simp [h])
    rcases hnext with rfl | ⟨e, rfl⟩
    · exact keeps_quiet hc (.install m (s.goto .opening)) rfl ⟨hs, hm, hcur⟩
    · exact keeps_quiet hc (.install m (s.goto (.returned e))) rfl ⟨hs, hm, trivial⟩
  | programs data h hle =>
    refine keeps_quiet hc _ rfl ⟨?_, hm, hcur (by simp [h]) hpc (by simp [h])⟩
    simp only [Checkpoint.sane, Bool.and_eq_true, decide_eq_true_eq] at hs ⊢
    exact ⟨hs.1, by omega⟩
  | spoils data h =>
    have hcur := hcur (by simp [h]) hpc (by simp [h])
    exact keeps_quiet hc (.install m (s.goto (.failing .fail))) rfl ⟨hs, hm, hcur⟩
  | selects h hnext =>
    have hcur := hcur (by simp [h]) hpc (by simp [h])
    rcases hnext with rfl | ⟨e, rfl⟩
    · exact keeps_quiet hc (.install m (s.goto .persistSelected)) rfl ⟨hs, hm, hcur⟩
    · exact keeps_quiet hc (.install m (s.goto (.failing e))) rfl ⟨hs, hm, hcur⟩
  | reselects h =>
    have hcur := hcur (by simp [h]) hpc (by simp [h])
    exact keeps_quiet hc (.install m (s.goto (.failing _))) rfl ⟨hs, hm, hcur⟩

end Install

theorem cancel_keeps {fl : OtaFlash} {reason : EspErr} {s : Cancel}
    (hc : Consistent fl.checkpoints) (hi : CallInv fl.checkpoints (.cancel reason s))
    (env : OtaEnv) :
    Keeps ((s.step reason fl env).map (.cancel reason)) ∧
      Wins ((s.step reason fl env).map (.cancel reason)) := by
  cases s with
  | selecting =>
    dsimp only [Cancel.step]
    cases env.answer with
    | some e =>
      exact keeps_quiet hc (.cancel reason (.returned e.1)) (by dsimp only; split <;> rfl) trivial
    | none => exact keeps_quiet hc (.cancel reason .loading) rfl trivial
  | loading =>
    dsimp only [Cancel.step]
    rw [afterLoad_map]
    exact keeps_afterLoad hc _ _ _ (fun _ _ => trivial) fun _ _ hs hcur => ⟨hs, hcur⟩
  | persisting c =>
    obtain ⟨hs, hcur⟩ := hi
    dsimp only [Cancel.step]
    rw [afterPersist_map]
    refine keeps_afterPersist hc ?_ ?_ _ _ fun _ _ => trivial
    exacts [sane_outcome hs rfl _, hcur]
  | returned e => exact keeps_quiet hc (.cancel reason (.returned e)) rfl trivial

theorem validate_keeps {fl : OtaFlash} {s : Validate} (hc : Consistent fl.checkpoints)
    (hi : CallInv fl.checkpoints (.validate s)) (env : OtaEnv) :
    Keeps ((s.step fl env).map .validate) ∧ Wins ((s.step fl env).map .validate) := by
  cases s with
  | checking =>
    dsimp only [Validate.step]
    split
    · exact keeps_quiet hc (.validate (.returned .ok)) rfl trivial
    split
    · exact keeps_quiet hc (.validate (.loading env.healthy)) rfl trivial
    · exact keeps_quiet hc (.validate (.returned .ok)) rfl trivial
  | loading healthy =>
    dsimp only [Validate.step]
    rw [afterLoad_map]
    exact keeps_afterLoad hc _ _ _ (fun _ _ => trivial) fun _ _ hs hcur => ⟨hs, hcur⟩
  | persisting healthy c =>
    obtain ⟨hs, hcur⟩ := hi
    dsimp only [Validate.step]
    rw [afterPersist_map]
    refine keeps_afterPersist hc ?_ ?_ _ _ fun e _ => ?_
    · exact sane_outcome hs (by split <;> rfl) _
    · exact hcur
    · split <;> trivial
  | marking healthy =>
    cases healthy <;> dsimp only [Validate.step] <;> rcases env.answer with _ | e
    · exact ⟨⟨hc, fun c h => by cases h⟩, fun w hw => by cases hw⟩
    · exact keeps_quiet hc (.validate (.returned e.1)) rfl trivial
    · exact keeps_quiet hc (.validate (.returned .ok)) rfl trivial
    · exact keeps_quiet hc (.validate (.returned e.1)) (by dsimp only; split <;> rfl) trivial
  | returned e => exact keeps_quiet hc (.validate (.returned e)) rfl trivial

/-! ## Histories, step by step -/

@[simp] theorem boot_checkpoints (fl : OtaFlash) (env : BootEnv) :
    (fl.boot env).checkpoints = fl.checkpoints := by
  unfold OtaFlash.boot
  dsimp only
  split <;> (try split) <;> (try split) <;> rfl

namespace CheckpointHistory

theorem start_inv (fl : OtaFlash) : Inv (start fl) :=
  ⟨consistent_empty, fun c h => by cases h⟩

variable {h : CheckpointHistory}

/-- What a step of a call keeps, the history keeps, also across a reset. -/
theorem advance_inv {s : StepEnd OtaCall} (hs : Keeps s) (env : BootEnv) : Inv (advance s env) := by
  have hslots : (advance s env).flash.checkpoints = s.flash.checkpoints := by
    dsimp only [advance]
    split
    · rfl
    · exact boot_checkpoints _ _
  exact ⟨hslots ▸ hs.consistent, fun c hc => hslots ▸ hs.call c hc⟩

theorem latestWins_iff_newest (hc : Consistent h.flash.checkpoints) :
    LatestWins h ↔ ∀ c, h.wrote = some c → newest h.flash.checkpoints = some c := by
  refine forall₂_congr fun c _ => ⟨fun hl => ?_, pmOtaLoadCheckpoint_eq hc⟩
  rcases pmOtaLoadCheckpoint_cases hc {} with ⟨e, he, h'⟩ | ⟨x, hx, h'⟩ | ⟨-, h'⟩
  · rw [hl] at h'
    exact absurd (congrArg CheckpointCall.result h').symm he
  · rw [hl] at h'
    exact hx.trans (congrArg some (congrArg CheckpointCall.checkpoint h').symm)
  · -- such a load writes the first checkpoint, so it is not the load of a written one
    rw [hl] at h'
    rcases persistCheckpoint_wrote (c := Checkpoint.zero) rfl (by decide) h.flash.checkpoints {} with
      ⟨-, hp⟩ | ⟨hf, -⟩
    · have := congrArg CheckpointCall.wrote (h'.trans hp)
      cases this
    · exact absurd ⟨rfl, rfl, rfl⟩ hf

theorem latestWins_of_wrote_none (hw : h.wrote = none) : LatestWins h := by
  intro c hc
  rw [hw] at hc
  cases hc

theorem advance_latestWins {s : StepEnd OtaCall} (hs : Keeps s) (env : BootEnv) :
    LatestWins (advance s env) ↔ Wins s := by
  have hslots : (advance s env).flash.checkpoints = s.flash.checkpoints := by
    dsimp only [advance]
    split
    · rfl
    · exact boot_checkpoints _ _
  rw [latestWins_iff_newest (hslots ▸ hs.consistent), hslots]
  rfl

/-- **One step of a history** keeps the invariant, and what it writes is what a load then returns
exactly when it is not the first persist of an install over a written `slot_b`. -/
theorem step_inv [Sha256] (hi : Inv h) (a : OtaAct) :
    Inv (h.step a) ∧ (LatestWins (h.step a) ↔ FreshStart h a) := by
  have hplain : ∀ call : Option OtaCall, (∀ c, call = some c → CallInv h.flash.checkpoints c) →
      Inv ⟨h.flash, call, none⟩ ∧ (LatestWins ⟨h.flash, call, none⟩ ↔ True) :=
    fun call hcall => ⟨⟨hi.consistent, hcall⟩, iff_of_true (latestWins_of_wrote_none rfl) trivial⟩
  have hbegin : ∀ c₀ : OtaCall, CallInv h.flash.checkpoints c₀ → ∀ c, (h.call <|> some c₀) = some c →
      CallInv h.flash.checkpoints c := by
    intro c₀ h₀ c hc
    cases hcall : h.call with
    | none =>
      rw [hcall] at hc
      obtain rfl := Option.some.inj hc
      exact h₀
    | some c' =>
      rw [hcall] at hc
      obtain rfl := Option.some.inj hc
      exact hi.call c' hcall
  cases a with
  | load env =>
    dsimp only [step]
    split
    · exact hplain h.call hi.call
    · have hk := keeps_afterLoad hi.consistent env.load (fun _ => .validate .checking)
        (fun _ => .validate .checking) (fun _ _ => trivial) fun _ _ _ _ => trivial
      have hslots : ∀ (b : Prop) [Decidable b] (fl : OtaFlash),
          (if b then fl else fl.boot env.boot).checkpoints = fl.checkpoints := by
        intro b _ fl
        split
        exacts [rfl, boot_checkpoints _ _]
      refine ⟨⟨by rw [hslots]; exact hk.1.consistent, fun c hc => by cases hc⟩, ?_⟩
      rw [latestWins_iff_newest (by rw [hslots]; exact hk.1.consistent), hslots]
      exact iff_of_true hk.2 trivial
  | install m => exact hplain _ (hbegin _ ⟨rfl, rfl, rfl⟩)
  | cancel reason => exact hplain _ (hbegin _ trivial)
  | validate => exact hplain _ (hbegin _ trivial)
  | reboot env =>
    refine ⟨⟨?_, fun c hc => by cases hc⟩, iff_of_true (latestWins_of_wrote_none rfl) trivial⟩
    exact (boot_checkpoints _ _).symm ▸ hi.consistent
  | step env =>
    dsimp only [step]
    cases hcall : h.call with
    | none =>
      refine ⟨⟨hi.consistent, fun c hc => by cases hc⟩, ?_⟩
      exact iff_of_true (latestWins_of_wrote_none rfl) fun m s hs => by rw [hcall] at hs; cases hs
    | some c =>
      dsimp only
      have hci := hi.call c hcall
      split
      next hret =>
        refine ⟨⟨hi.consistent, fun c hc => by cases hc⟩, ?_⟩
        refine iff_of_true (latestWins_of_wrote_none rfl) fun m s hs hpc => ?_
        rw [hcall, Option.some.injEq] at hs
        subst hs
        obtain ⟨pc, c, received⟩ := s
        dsimp only at hpc
        subst hpc
        cases hret
      next hret =>
        -- a step of a call: the first persist of an install is the one that may not win
        by_cases hfirst : ∃ m s, c = .install m s ∧ s.pc = .firstPersist
        · obtain ⟨m, s, rfl, hpc⟩ := hfirst
          have hstep : s.step m h.flash env =
              s.persist h.flash s.checkpoint env.persist .reportFirst .returned := by
            simp only [Install.step, hpc]
          obtain ⟨hs, hm, hg⟩ := hci
          rw [hpc] at hg
          have hk := firstPersist_wins (m := m) hi.consistent hs hm hg env.persist
          simp only [OtaCall.step, hstep]
          refine ⟨advance_inv hk.1 _, (advance_latestWins hk.1 _).trans (hk.2.trans ⟨?_, ?_⟩)⟩
          · intro hb m' s' hs' _
            exact hb
          · intro hf
            exact hf m s hcall hpc
        · have hk : Keeps (c.step h.flash env) ∧ Wins (c.step h.flash env) := by
            cases c with
            | install m s =>
              exact install_keeps hi.consistent hci (fun hpc => hfirst ⟨m, s, rfl, hpc⟩) env
            | cancel reason s => exact cancel_keeps hi.consistent hci env
            | validate s => exact validate_keeps hi.consistent hci env
          refine ⟨advance_inv hk.1 _, iff_of_true ((advance_latestWins hk.1 _).2 hk.2) ?_⟩
          intro m s hs hpc
          rw [hcall, Option.some.injEq] at hs
          exact absurd ⟨m, s, hs, hpc⟩ hfirst

/-- **The checkpoint store returns the last write**, along a whole history from a device whose keys
were never written, if and only if every install whose first persist succeeds finds `slot_b` never
written. -/
theorem latest_write_wins_iff [Sha256] (fl : OtaFlash) (acts : List OtaAct) :
    Along step (fun h a => LatestWins (h.step a)) (start fl) acts ↔
      Along step FreshStart (start fl) acts :=
  Along.iff_of_invariant (I := Inv) (fun _ a hi _ => (step_inv hi a).1)
    (fun _ a hi => (step_inv hi a).2) (start_inv fl) acts

/-- A manifest for an image of three bytes. -/
def smallManifest : Manifest where
  schema := otaSchema
  deviceId := []
  deploymentId := []
  releaseId := []
  version := []
  buildNumber := 1
  projectName := []
  targetChip := []
  boardProfile := []
  minimumBootVersion := 1
  minimumConfigVersion := 1
  minimumProtocol := []
  imageSize := 3
  imageSha256 := Sha2.digest [97, 98, 99]
  downloadPath := []
  downloadUrl := []
  manifestNonce := Bytes.zero 16
  signature := Bytes.zero 32

/-- Two installs: the first is given up while it downloads, after two more persists; the second
gets as far as its first persist. -/
def twoInstalls : List OtaAct :=
  .install smallManifest :: List.replicate 10 (.step {}) ++ .install smallManifest ::
    List.replicate 2 (.step {})

/-- The first checkpoint of the second install, of generation one, is hidden by the checkpoint of
generation two that the first install left in `slot_b`. -/
theorem second_install_hidden :
    ¬Along (@step .standard) (fun h a => LatestWins (@step .standard h a)) (start factoryFlash)
      twoInstalls := by
  decide +kernel

end CheckpointHistory

end PowerMonitor.Ota
