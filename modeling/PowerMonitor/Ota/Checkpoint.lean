import PowerMonitor.Esp
import PowerMonitor.Config.Crc32

/-!
# The OTA checkpoint

`pm_ota_checkpoint_t` and its store in the NVS namespace `pm_ota`: `persist_checkpoint`, which
writes the slot of the next generation and reads it back, and `pm_ota_load_checkpoint`, which takes
the slot with the greater generation.

`Consistent` is what every write keeps: each slot holds a valid checkpoint of the slot's own parity.
On a consistent store the loader is the reader `AbStore.best` (`pmOtaLoadCheckpoint_eq`), and
`persistCheckpoint_cases` lists what a persist can do.
-/

namespace PowerMonitor.Ota

open CMemory AbStore Config

/-- `pm_ota_stage_t`; `other` is a value outside the enumeration. -/
inductive OtaStage
  | idle | manifestVerified | downloading | imageVerified | bootSelected | pendingVerify | valid
  | rolledBack | failed
  | other (value : ℕ)
  deriving DecidableEq, Repr

namespace OtaStage

/-- The value of the enumerator. -/
def value : OtaStage → ℕ
  | idle => 0 | manifestVerified => 1 | downloading => 2 | imageVerified => 3
  | bootSelected => 4 | pendingVerify => 5 | valid => 6 | rolledBack => 7 | failed => 8
  | other v => v

/-- `stage <= PM_OTA_FAILED`. -/
def inRange : OtaStage → Bool
  | other _ => false
  | _ => true

end OtaStage

/-- `pm_ota_checkpoint_t`. -/
structure Checkpoint where
  stage : OtaStage
  bytesWritten : ℕ
  imageSize : ℕ
  imageSha256 : Bytes 32
  generation : ℕ
  lastError : ℤ
  crc32 : UInt32
  deriving DecidableEq

/-- `(pm_ota_checkpoint_t){0}`, whose stage is `PM_OTA_IDLE`. -/
def Checkpoint.zero : Checkpoint := ⟨.idle, 0, 0, Bytes.zero 32, 0, 0, 0⟩

/-- The memory of a checkpoint before its `crc32`. -/
def Checkpoint.memory (c : Checkpoint) : List UInt8 :=
  le 4 c.stage.value ++ le 4 c.bytesWritten ++ le 4 c.imageSize ++ c.imageSha256.bytes ++
    le 4 c.generation ++ leInt 4 c.lastError

/-- `checkpoint_crc`. -/
def checkpointCrc (c : Checkpoint) : UInt32 := pmCrc32Ieee c.memory

/-- The fields of `checkpoint_valid` other than the checksum. -/
def Checkpoint.sane (c : Checkpoint) : Bool :=
  c.stage.inRange && decide (c.bytesWritten ≤ c.imageSize)

/-- `checkpoint_valid`. -/
def checkpointValid (c : Checkpoint) : Bool := c.sane && c.crc32 = checkpointCrc c

/-! ## Writing -/

/-- `read_checkpoint` of a slot; `none` when power is lost under it. -/
def readCheckpoint (slot : Option Checkpoint) : NvsRead → Option (Except EspErr Checkpoint)
  | .powerLoss => none
  | .fails e => some (.error e.1)
  | .ok =>
    match slot with
    | none => some (.error .nvsNotFound)
    | some c => some (if checkpointValid c then .ok c else .error .invalidCrc)

/-- What the NVS calls of one `persist_checkpoint` meet. -/
structure PersistFaults where
  opened : NvsRead := .ok
  write : NvsWrite := .done
  verify : NvsRead := .ok

/-- One call of `persist_checkpoint` or `pm_ota_load_checkpoint`: its result, the caller's
checkpoint and the slots afterwards, and the checkpoint of a persist that returned `ESP_OK`. -/
structure CheckpointCall where
  result : CallEnd
  checkpoint : Checkpoint
  slots : Slots Checkpoint
  wrote : Option Checkpoint := none
  deriving DecidableEq

/-- The checkpoint `persist_checkpoint` writes for `c`: the next generation, with its checksum. -/
def nextCheckpoint (c : Checkpoint) : Checkpoint :=
  let bumped := { c with generation := c.generation + 1 }
  { bumped with crc32 := checkpointCrc bumped }

/-- `persist_checkpoint`. The caller's checkpoint is updated on success only. -/
def persistCheckpoint (c : Checkpoint) (s : Slots Checkpoint) (f : PersistFaults) :
    CheckpointCall :=
  if c.generation = uint32Max then ⟨some .invalidState, c, s, none⟩
  else
    let candidate := nextCheckpoint c
    let side := sideOf candidate.generation
    match f.opened with
    | .powerLoss => ⟨none, c, s, none⟩
    | .fails e => ⟨some e.1, c, s, none⟩
    | .ok =>
      let s' := if f.write.landed then s.set side (some candidate) else s
      match f.write.result with
      | none => ⟨none, c, s', none⟩
      | some e =>
        if e ≠ .ok then ⟨some e, c, s', none⟩
        else
          match readCheckpoint (s'.get side) f.verify with
          | none => ⟨none, c, s', none⟩
          | some (.error e) => ⟨some e, c, s', none⟩
          | some (.ok verified) =>
            if verified ≠ candidate then ⟨some .invalidState, c, s', none⟩
            else ⟨some .ok, candidate, s', some candidate⟩

@[simp] theorem nextCheckpoint_generation (c : Checkpoint) :
    (nextCheckpoint c).generation = c.generation + 1 := rfl

@[simp] theorem nextCheckpoint_sane (c : Checkpoint) : (nextCheckpoint c).sane = c.sane := rfl

@[simp] theorem nextCheckpoint_valid (c : Checkpoint) :
    checkpointValid (nextCheckpoint c) = c.sane := by
  have : (nextCheckpoint c).crc32 = checkpointCrc (nextCheckpoint c) := rfl
  simp [checkpointValid, this]

/-- **What a persist can do**: it returns `ESP_OK` and its slot holds the new checkpoint, or the
caller's checkpoint stays as it was and the slot does or does not hold the new one. -/
theorem persistCheckpoint_cases (c : Checkpoint) (s : Slots Checkpoint) (f : PersistFaults) :
    (c.sane = true ∧ persistCheckpoint c s f = ⟨some .ok, nextCheckpoint c,
      s.set (sideOf (c.generation + 1)) (some (nextCheckpoint c)), some (nextCheckpoint c)⟩) ∨
    (∃ e : CallEnd, e ≠ some .ok ∧ (persistCheckpoint c s f = ⟨e, c, s, none⟩ ∨
      persistCheckpoint c s f = ⟨e, c,
        s.set (sideOf (c.generation + 1)) (some (nextCheckpoint c)), none⟩)) := by
  by_cases hmax : c.generation = uint32Max
  · exact .inr ⟨some .invalidState, by decide, .inl (by simp [persistCheckpoint, hmax])⟩
  simp only [persistCheckpoint, hmax, if_false, nextCheckpoint_generation]
  cases f.opened with
  | powerLoss => exact .inr ⟨none, by simp, .inl rfl⟩
  | fails e => exact .inr ⟨some e.1, by simpa using e.2.1, .inl rfl⟩
  | ok =>
    have hslots : ∀ (e : CallEnd) (b : Bool),
        (⟨e, c, if b then s.set (sideOf (c.generation + 1)) (some (nextCheckpoint c)) else s, none⟩ :
          CheckpointCall) = ⟨e, c, s, none⟩ ∨
        (⟨e, c, if b then s.set (sideOf (c.generation + 1)) (some (nextCheckpoint c)) else s, none⟩ :
          CheckpointCall) =
            ⟨e, c, s.set (sideOf (c.generation + 1)) (some (nextCheckpoint c)), none⟩ := by
      intro e b
      cases b
      · exact .inl rfl
      · exact .inr rfl
    cases hw : f.write.result with
    | none => exact .inr ⟨none, by simp, hslots none _⟩
    | some e =>
      dsimp only
      by_cases he : e = .ok
      · subst he
        simp only [NvsWrite.landed_of_ok hw, if_true, ne_eq, not_true_eq_false, if_false,
          Slots.get_set_self]
        cases f.verify with
        | powerLoss => exact .inr ⟨none, by simp, .inr rfl⟩
        | fails e => exact .inr ⟨some e.1, by simpa using e.2.1, .inr rfl⟩
        | ok =>
          cases hs : c.sane with
          | false => exact .inr ⟨some .invalidCrc, by decide, .inr (by simp [readCheckpoint, hs])⟩
          | true => exact .inl ⟨rfl, by simp [readCheckpoint, hs]⟩
      · rw [if_pos he]
        exact .inr ⟨some e, by simpa using he, hslots (some e) _⟩

/-- A persist changes the generation and the checksum of the caller's checkpoint at most. -/
theorem persistCheckpoint_fields (c : Checkpoint) (s : Slots Checkpoint) (f : PersistFaults) :
    (persistCheckpoint c s f).checkpoint.sane = c.sane ∧
      (persistCheckpoint c s f).checkpoint.imageSize = c.imageSize ∧
      (persistCheckpoint c s f).checkpoint.bytesWritten = c.bytesWritten ∧
      (persistCheckpoint c s f).checkpoint.stage = c.stage := by
  rcases persistCheckpoint_cases c s f with ⟨-, h⟩ | ⟨e, -, h | h⟩ <;> rw [h] <;>
    exact ⟨rfl, rfl, rfl, rfl⟩

theorem persistCheckpoint_ok {c : Checkpoint} {s : Slots Checkpoint} {f : PersistFaults}
    (h : (persistCheckpoint c s f).result = some .ok) :
    c.sane = true ∧ persistCheckpoint c s f = ⟨some .ok, nextCheckpoint c,
      s.set (sideOf (c.generation + 1)) (some (nextCheckpoint c)), some (nextCheckpoint c)⟩ := by
  rcases persistCheckpoint_cases c s f with hok | ⟨e, he, h' | h'⟩
  · exact hok
  all_goals
    rw [h'] at h
    exact absurd h he

/-! ## Reading -/

/-- What the NVS calls of one `pm_ota_load_checkpoint` meet. -/
structure LoadFaults where
  opened : NvsRead := .ok
  readA : NvsRead := .ok
  readB : NvsRead := .ok
  persist : PersistFaults := {}

/-- `pm_ota_load_checkpoint`, into a zeroed checkpoint. -/
def pmOtaLoadCheckpoint (s : Slots Checkpoint) (f : LoadFaults) : CheckpointCall :=
  let refuse (e : EspErr) : CheckpointCall := ⟨some e, Checkpoint.zero, s, none⟩
  match f.opened with
  | .powerLoss => ⟨none, Checkpoint.zero, s, none⟩
  | .fails e => refuse e.1
  | .ok =>
    match readCheckpoint s.a f.readA, readCheckpoint s.b f.readB with
    | none, _ => ⟨none, Checkpoint.zero, s, none⟩
    | some _, none => ⟨none, Checkpoint.zero, s, none⟩
    | some (.error ea), some (.error eb) =>
      if ea ≠ .nvsNotFound ∨ eb ≠ .nvsNotFound then
        refuse (if ea ≠ .nvsNotFound then ea else eb)
      else persistCheckpoint Checkpoint.zero s f.persist
    | some (.error ea), some (.ok b) => if ea ≠ .nvsNotFound then refuse ea else ⟨some .ok, b, s, none⟩
    | some (.ok a), some (.error eb) => if eb ≠ .nvsNotFound then refuse eb else ⟨some .ok, a, s, none⟩
    | some (.ok a), some (.ok b) =>
      if a.generation = b.generation ∧ a ≠ b then refuse .invalidState
      else ⟨some .ok, if b.generation ≤ a.generation then a else b, s, none⟩

/-- The checkpoint the loader takes from the slots. -/
abbrev newest (s : Slots Checkpoint) : Option Checkpoint :=
  best checkpointValid Checkpoint.generation s

/-- Each slot holds a valid checkpoint of the slot's own parity. -/
def Consistent (s : Slots Checkpoint) : Prop :=
  ∀ side c, s.get side = some c → checkpointValid c = true ∧ sideOf c.generation = side ∧
    0 < c.generation

theorem consistent_empty : Consistent Slots.empty := by
  intro side c h
  cases side <;> cases h

theorem Consistent.set {s : Slots Checkpoint} (h : Consistent s) {c : Checkpoint}
    (hc : c.sane = true) :
    Consistent (s.set (sideOf (c.generation + 1)) (some (nextCheckpoint c))) := by
  intro side x hx
  by_cases hside : side = sideOf (c.generation + 1)
  · subst hside
    obtain rfl : nextCheckpoint c = x := by simpa using hx
    exact ⟨by simpa using hc, rfl, by simp⟩
  · rw [Slots.get_set_of_ne _ hside] at hx
    exact h side x hx

theorem Consistent.persist {s : Slots Checkpoint} (h : Consistent s) {c : Checkpoint}
    (hc : c.sane = true) (f : PersistFaults) : Consistent (persistCheckpoint c s f).slots := by
  rcases persistCheckpoint_cases c s f with ⟨-, h'⟩ | ⟨e, -, h' | h'⟩ <;> rw [h']
  exacts [h.set hc, h, h.set hc]

/-- The parities of the two slots differ, so their generations do. -/
theorem Consistent.generation_ne {x y : Checkpoint} (h : Consistent ⟨some x, some y⟩) :
    x.generation ≠ y.generation := by
  intro hxy
  have hside := (h .a x rfl).2.1.symm.trans ((congrArg sideOf hxy).trans (h .b y rfl).2.1)
  cases hside

/-- **What a load can do**: it fails and changes nothing, it returns the newest checkpoint, or both
slots are empty and it writes the first one. -/
theorem pmOtaLoadCheckpoint_cases {s : Slots Checkpoint} (h : Consistent s) (f : LoadFaults) :
    (∃ e : CallEnd, e ≠ some .ok ∧ pmOtaLoadCheckpoint s f = ⟨e, Checkpoint.zero, s, none⟩) ∨
    (∃ c, newest s = some c ∧ pmOtaLoadCheckpoint s f = ⟨some .ok, c, s, none⟩) ∨
    (s = Slots.empty ∧ pmOtaLoadCheckpoint s f = persistCheckpoint Checkpoint.zero s f.persist) := by
  unfold pmOtaLoadCheckpoint
  cases f.opened with
  | powerLoss => exact .inl ⟨none, by simp, rfl⟩
  | fails e => exact .inl ⟨some e.1, by simpa using e.2.1, rfl⟩
  | ok =>
    obtain ⟨a, b⟩ := s
    have ha : ∀ c, a = some c → checkpointValid c = true := fun c hc => (h .a c hc).1
    have hb : ∀ c, b = some c → checkpointValid c = true := fun c hc => (h .b c hc).1
    cases f.readA with
    | powerLoss => exact .inl ⟨none, by simp, rfl⟩
    | fails ea =>
      cases f.readB with
      | powerLoss => exact .inl ⟨none, by simp, rfl⟩
      | fails eb =>
        exact .inl ⟨some ea.1, by simpa using ea.2.1, by simp [readCheckpoint, ea.2.2]⟩
      | ok =>
        refine .inl ⟨some ea.1, by simpa using ea.2.1, ?_⟩
        cases b with
        | none => simp [readCheckpoint, ea.2.2]
        | some y => simp [readCheckpoint, hb y rfl, ea.2.2]
    | ok =>
      cases f.readB with
      | powerLoss =>
        refine .inl ⟨none, by simp, ?_⟩
        cases a <;> rfl
      | fails eb =>
        refine .inl ⟨some eb.1, by simpa using eb.2.1, ?_⟩
        cases a with
        | none => simp [readCheckpoint, eb.2.2]
        | some x => simp [readCheckpoint, ha x rfl, eb.2.2]
      | ok =>
        cases a with
        | none =>
          cases b with
          | none => exact .inr (.inr ⟨rfl, by simp [readCheckpoint]⟩)
          | some y =>
            refine .inr (.inl ⟨y, ?_, ?_⟩)
            · simp [newest, best, Option.filter_some, hb y rfl]
            · simp [readCheckpoint, hb y rfl]
        | some x =>
          cases b with
          | none =>
            refine .inr (.inl ⟨x, ?_, ?_⟩)
            · simp [newest, best, Option.filter_some, ha x rfl]
            · simp [readCheckpoint, ha x rfl]
          | some y =>
            have hne := h.generation_ne
            refine .inr (.inl ⟨if y.generation ≤ x.generation then x else y, ?_, ?_⟩)
            · simp only [newest, best, Option.filter_some, ha x rfl, hb y rfl, if_true]
              split <;> rfl
            · simp [readCheckpoint, ha x rfl, hb y rfl, hne]

/-- **A load without faults** returns the newest checkpoint. -/
theorem pmOtaLoadCheckpoint_eq {s : Slots Checkpoint} (h : Consistent s) {c : Checkpoint}
    (hc : newest s = some c) : pmOtaLoadCheckpoint s {} = ⟨some .ok, c, s, none⟩ := by
  obtain ⟨a, b⟩ := s
  cases a with
  | none =>
    cases b with
    | none => simp [newest, best] at hc
    | some y =>
      have hy := (h .b y rfl).1
      obtain rfl : y = c := by simpa [newest, best, Option.filter_some, hy] using hc
      simp [pmOtaLoadCheckpoint, readCheckpoint, hy]
  | some x =>
    have hx := (h .a x rfl).1
    cases b with
    | none =>
      obtain rfl : x = c := by simpa [newest, best, Option.filter_some, hx] using hc
      simp [pmOtaLoadCheckpoint, readCheckpoint, hx]
    | some y =>
      have hy := (h .b y rfl).1
      have hne := h.generation_ne
      have hc' : (if y.generation ≤ x.generation then x else y) = c := by
        simp only [newest, best, Option.filter_some, hx, hy, if_true] at hc
        split at hc
        next hle => rw [if_pos hle]; exact Option.some.inj hc
        next hle => rw [if_neg hle]; exact Option.some.inj hc
      simp [pmOtaLoadCheckpoint, readCheckpoint, hx, hy, hne, hc']

/-- A checkpoint that is read is a valid one. -/
theorem readCheckpoint_ok {slot : Option Checkpoint} {n : NvsRead} {c : Checkpoint}
    (h : readCheckpoint slot n = some (.ok c)) : slot.filter (checkpointValid ·) = some c := by
  cases n with
  | ok =>
    cases slot with
    | none => cases h
    | some x =>
      simp only [readCheckpoint] at h
      split at h
      next hvalid =>
        cases h
        exact filter_eq_some_of_valid rfl hvalid
      · cases h
  | _ => cases h

/-- A read that finds nothing is one of an empty slot. -/
theorem readCheckpoint_error {slot : Option Checkpoint} {n : NvsRead} {e : EspErr}
    (h : readCheckpoint slot n = some (.error e)) : e ≠ .ok ∧ (e = .nvsNotFound → slot = none) := by
  cases n with
  | ok =>
    cases slot with
    | none =>
      cases h
      exact ⟨by decide, fun _ => rfl⟩
    | some x =>
      simp only [readCheckpoint] at h
      split at h <;> cases h
      exact ⟨by decide, fun h => by cases h⟩
  | fails e =>
    cases h
    exact ⟨e.2.1, fun h => absurd h e.2.2⟩
  | powerLoss => cases h

/-- A load that succeeds returns the newest checkpoint, or the idle one it wrote first; whatever the
slots hold. -/
theorem newest_of_load {s : Slots Checkpoint} {f : LoadFaults}
    (h : (pmOtaLoadCheckpoint s f).result = some .ok) :
    newest s = some (pmOtaLoadCheckpoint s f).checkpoint ∨
      (pmOtaLoadCheckpoint s f).checkpoint.stage = .idle := by
  cases hop : f.opened with
  | powerLoss => simp [pmOtaLoadCheckpoint, hop] at h
  | fails e =>
    simp only [pmOtaLoadCheckpoint, hop, Option.some.injEq] at h
    exact absurd h e.2.1
  | ok =>
    rcases hra : readCheckpoint s.a f.readA with _ | ea | a <;>
      rcases hrb : readCheckpoint s.b f.readB with _ | eb | b <;>
      simp only [pmOtaLoadCheckpoint, hop, hra, hrb, reduceCtorEq] at h ⊢
    · split at h
      · simp only [Option.some.injEq] at h
        split at h
        · exact absurd h (readCheckpoint_error hra).1
        · exact absurd h (readCheckpoint_error hrb).1
      next hnone =>
        rw [if_neg hnone]
        obtain ⟨-, hp⟩ := persistCheckpoint_ok h
        rw [hp]
        exact .inr rfl
    · split at h
      · exact absurd (Option.some.inj h) (readCheckpoint_error hra).1
      next hne =>
        rw [if_neg hne]
        have ha := (readCheckpoint_error hra).2 (not_not.1 hne)
        exact .inl (by rw [newest, best, ha, readCheckpoint_ok hrb]; rfl)
    · split at h
      · exact absurd (Option.some.inj h) (readCheckpoint_error hrb).1
      next hne =>
        rw [if_neg hne]
        have hb := (readCheckpoint_error hrb).2 (not_not.1 hne)
        exact .inl (by rw [newest, best, hb, readCheckpoint_ok hra]; rfl)
    · split at h
      · cases h
      next hconf =>
        rw [if_neg hconf]
        refine .inl ?_
        rw [newest, best, readCheckpoint_ok hra, readCheckpoint_ok hrb]
        dsimp only
        split <;> rfl

end PowerMonitor.Ota
