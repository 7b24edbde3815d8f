import PowerMonitor.Commands.Ledger

/-!
# The ledger in NVS

`persist` writes the ledger to the slot its new generation names, and `commands_load_locked` reads
both slots, chooses one, reads both again and only then returns the chosen one. The loader is
modelled with every `nvs_get_blob` call as a separate answer (`BlobRead`), so its rescan and all its
error paths are there; `readSlots` is the NVS that answers each call with what the slot holds.

`persist_cases` lists everything a persist can do, `commandsLoadLocked_ledger` what the loader can
leave in RAM, and `pmCommandsLoad_of_holds` says what it returns on a store in use.
-/

namespace PowerMonitor.Commands

open CMemory AbStore

variable [Sha256]

/-- What the write sequence of one `persist` meets. A torn slot fails `ledger_valid`. -/
abbrev LedgerFault := WriteFault Failure ledgerValid

/-- The error code of a finished write sequence. -/
def endCode : WriteEnd Failure → CallEnd
  | .success => some .ok
  | .failure e => some e.1
  | .lost => none

omit [Sha256] in
theorem endCode_ne_ok {e : WriteEnd Failure} (h : e ≠ .success) : endCode e ≠ some .ok := by
  cases e with
  | success => exact absurd rfl h
  | failure e => simpa [endCode] using e.2
  | lost => simp [endCode]

/-- One call of `persist`: its result, the ledger it leaves in RAM and the slots, and the ledger it
handed to `nvs_set_blob`, if it got so far. -/
structure Persisted where
  result : CallEnd
  ledger : Ledger
  nvs : Slots Ledger
  written : Option Ledger

/-- `persist`. -/
def persist (l : Ledger) (nvs : Slots Ledger) (f : LedgerFault) : Persisted :=
  if l.generation = uint32Max then ⟨some .invalidState, l, nvs, none⟩
  else
    let stamped := stamp l
    let w := writeBlob f (sideOf stamped.generation) stamped nvs
    ⟨endCode w.1, stamped, w.2, if f.reaches then some stamped else none⟩

theorem persist_eq {l : Ledger} (hmax : l.generation ≠ uint32Max) (nvs : Slots Ledger)
    (f : LedgerFault) :
    persist l nvs f = ⟨endCode (writeBlob f (sideOf (l.generation + 1)) (stamp l) nvs).1, stamp l,
      (writeBlob f (sideOf (l.generation + 1)) (stamp l) nvs).2,
      if f.reaches then some (stamp l) else none⟩ := by
  rw [persist, if_neg hmax]
  rfl

/-- **What a persist can do.** -/
theorem persist_cases (l : Ledger) (nvs : Slots Ledger) (f : LedgerFault) :
    (l.generation = uint32Max ∧ persist l nvs f = ⟨some .invalidState, l, nvs, none⟩) ∨
    (persist l nvs f = ⟨some .ok, stamp l,
      nvs.set (sideOf (l.generation + 1)) (some (stamp l)), some (stamp l)⟩) ∨
    (∃ (e : CallEnd) (r : Residue ledgerValid), e ≠ some .ok ∧ persist l nvs f = ⟨e, stamp l,
      nvs.leave (sideOf (l.generation + 1)) (stamp l) r, some (stamp l)⟩) ∨
    (∃ e : EspErr, e ≠ .ok ∧ persist l nvs f = ⟨some e, stamp l, nvs, none⟩) := by
  by_cases hmax : l.generation = uint32Max
  · exact .inl ⟨hmax, by simp [persist, hmax]⟩
  right
  rw [persist_eq hmax]
  rcases writeBlob_cases f (sideOf (l.generation + 1)) (stamp l) nvs with
    ⟨hw, hr⟩ | ⟨e, r, rfl, hne, hr, hs⟩ | ⟨e, hw, hr⟩
  · left
    rw [hw, if_pos hr]
    rfl
  · refine .inr (.inl ⟨_, r, endCode_ne_ok hne, ?_⟩)
    rw [if_pos hr, hs]
  · refine .inr (.inr ⟨e.1, e.2, ?_⟩)
    rw [hw, hr]
    rfl

/-- A persist succeeds when there is a generation left and no fault. -/
theorem persist_ok_iff (l : Ledger) (nvs : Slots Ledger) (f : LedgerFault) :
    (persist l nvs f).result = some .ok ↔ l.generation ≠ uint32Max ∧ f = .none := by
  by_cases hmax : l.generation = uint32Max
  · rw [persist, if_pos hmax]
    simp [hmax, EspErr.invalidState, EspErr.ok]
  · rw [persist_eq hmax]
    cases f with
    | none => simp [writeBlob, endCode, hmax]
    | openFails e => simpa [writeBlob, endCode, hmax] using e.2
    | setFails e r => simpa [writeBlob, endCode, hmax] using e.2
    | commitFails e r => simpa [writeBlob, endCode, hmax] using e.2
    | powerLoss r => simp [writeBlob, endCode, hmax]

/-! ## Loading -/

/-- The answer of one `nvs_get_blob` call: no such key, another error, a blob whose length is not
that of a ledger, or a ledger. -/
inductive BlobRead
  | notFound
  | failed (e : Failure)
  | sized (bytes : List UInt8)
  | ledger (l : Ledger)

/-- `pm_ledger_slot_status_t`. -/
inductive SlotStatus
  | missing | invalid | valid
  deriving DecidableEq, Repr

/-- `pm_ledger_slot_meta_t`. -/
structure SlotMeta where
  status : SlotStatus
  size : ℕ
  generation : ℕ
  sha256 : Bytes 32
  deriving DecidableEq

/-- `sizeof (pm_command_ledger_t)`. -/
def ledgerBytes : ℕ := 18448

/-- The memory of a whole ledger. -/
def Ledger.image (l : Ledger) : List UInt8 := l.memory ++ le 4 l.crc32.toNat ++ le 4 0

/-- `inspect_slot`: the metadata of a slot and what the read left in the ledger buffer. -/
def inspectSlot : BlobRead → Except EspErr (SlotMeta × Ledger)
  | .notFound => .ok (⟨.missing, 0, 0, Bytes.zero 32⟩, Ledger.zero)
  | .failed e => .error e.1
  | .sized bytes => .ok (⟨.invalid, bytes.length, 0, sha256 (bytes.take ledgerBytes)⟩, Ledger.zero)
  | .ledger l =>
    .ok (⟨if ledgerValid l then .valid else .invalid, ledgerBytes, l.generation, sha256 l.image⟩, l)

/-- One call of `commands_load_locked`. -/
structure Loaded where
  result : CallEnd
  ledger : Ledger
  nvs : Slots Ledger
  written : Option Ledger

/-- `commands_load_locked`, after `nvs_open` answered `opened`. The calls of `nvs_get_blob` are
numbered in order, and `read` gives the answer of each. -/
def commandsLoadLocked (ledger : Ledger) (opened : Option Failure) (read : ℕ → Side → BlobRead)
    (nvs : Slots Ledger) (f : LedgerFault) : Loaded :=
  let refuse (e : EspErr) : Loaded := ⟨some e, Ledger.zero, nvs, none⟩
  match opened with
  | some e => ⟨some e.1, ledger, nvs, none⟩
  | none =>
    match inspectSlot (read 0 .a), inspectSlot (read 1 .b) with
    | .error e, _ => refuse e
    | .ok _, .error e => refuse e
    | .ok (a, _), .ok (b, _) =>
      if a.status = .missing ∧ b.status = .missing then
        let p := persist Ledger.zero nvs f
        ⟨p.result, p.ledger, p.nvs, p.written⟩
      else if a.status ≠ .valid ∧ b.status ≠ .valid then refuse .invalidCrc
      else if a.status = .valid ∧ b.status = .valid ∧ a.generation = b.generation ∧
          a.sha256 ≠ b.sha256 then refuse .invalidState
      else
        let selectA : Bool := a.status = .valid ∧ (b.status ≠ .valid ∨ b.generation ≤ a.generation)
        let key : Side := if selectA then .a else .b
        let initial := if selectA then a else b
        -- the rescan: both slots must still read as they did
        match inspectSlot (read 2 .a), inspectSlot (read 3 .b) with
        | .error e, _ => refuse e
        | .ok _, .error e => refuse e
        | .ok (a', _), .ok (b', _) =>
          if a = a' ∧ b = b' then
            match inspectSlot (read 4 key) with
            | .error e => refuse e
            | .ok (final, l) =>
              if final.status = .valid ∧ initial = final then ⟨some .ok, l, nvs, none⟩
              else refuse .invalidState
          else refuse .invalidState

/-- A valid slot was read as the ledger it holds. -/
theorem inspectSlot_valid {r : BlobRead} {m : SlotMeta} {l : Ledger}
    (h : inspectSlot r = .ok (m, l)) (hv : m.status = .valid) :
    r = .ledger l ∧ ledgerValid l = true := by
  cases r with
  | notFound => cases h; cases hv
  | failed e => cases h
  | sized bytes => cases h; cases hv
  | ledger l =>
    cases h
    refine ⟨rfl, ?_⟩
    by_contra hl
    simp [hl] at hv

/-- **What the loader leaves in RAM**, whatever the reads answer: what was there, nothing, the
ledger it initialised, or a valid ledger it read. -/
theorem commandsLoadLocked_ledger (ledger : Ledger) (opened : Option Failure)
    (read : ℕ → Side → BlobRead) (nvs : Slots Ledger) (f : LedgerFault) :
    let r := commandsLoadLocked ledger opened read nvs f
    ((r.ledger = ledger ∨ r.ledger = Ledger.zero) ∧ r.nvs = nvs) ∨
    (r.ledger = (persist Ledger.zero nvs f).ledger ∧ r.nvs = (persist Ledger.zero nvs f).nvs) ∨
    ((∃ side, read 4 side = .ledger r.ledger) ∧ ledgerValid r.ledger = true ∧ r.nvs = nvs) := by
  dsimp only
  unfold commandsLoadLocked
  split
  · exact .inl ⟨.inl rfl, rfl⟩
  dsimp only
  split
  · exact .inl ⟨.inr rfl, rfl⟩
  · exact .inl ⟨.inr rfl, rfl⟩
  split
  · exact .inr (.inl ⟨rfl, rfl⟩)
  split
  · exact .inl ⟨.inr rfl, rfl⟩
  split
  · exact .inl ⟨.inr rfl, rfl⟩
  split
  · exact .inl ⟨.inr rfl, rfl⟩
  · exact .inl ⟨.inr rfl, rfl⟩
  split
  · split
    · exact .inl ⟨.inr rfl, rfl⟩
    next final l hfinal =>
      split_ifs with hsel hv hv
      · obtain ⟨hread, hl⟩ := inspectSlot_valid hfinal hv.1
        exact .inr (.inr ⟨⟨_, hread⟩, hl, rfl⟩)
      · exact .inl ⟨.inr rfl, rfl⟩
      · obtain ⟨hread, hl⟩ := inspectSlot_valid hfinal hv.1
        exact .inr (.inr ⟨⟨_, hread⟩, hl, rfl⟩)
      · exact .inl ⟨.inr rfl, rfl⟩
  · exact .inl ⟨.inr rfl, rfl⟩

/-- The NVS that answers every read with what the slot holds. -/
def readSlots (nvs : Slots Ledger) : ℕ → Side → BlobRead := fun _ side =>
  match nvs.get side with
  | none => .notFound
  | some l => .ledger l

/-- `pm_commands_load` at boot, on a zeroed ledger, when every read succeeds. -/
def pmCommandsLoad (nvs : Slots Ledger) (f : LedgerFault) : Loaded :=
  commandsLoadLocked Ledger.zero none (readSlots nvs) nvs f

/-- The metadata `inspect_slot` finds in a slot. -/
def metaOf (o : Option Ledger) : SlotMeta :=
  match o with
  | none => ⟨.missing, 0, 0, Bytes.zero 32⟩
  | some l => ⟨if ledgerValid l then .valid else .invalid, ledgerBytes, l.generation, sha256 l.image⟩

theorem inspectSlot_readSlots (nvs : Slots Ledger) (k : ℕ) (side : Side) :
    inspectSlot (readSlots nvs k side) =
      .ok (metaOf (nvs.get side), (nvs.get side).getD Ledger.zero) := by
  unfold readSlots
  cases nvs.get side <;> rfl

theorem metaOf_valid_iff (o : Option Ledger) :
    (metaOf o).status = .valid ↔ ∃ l, o = some l ∧ ledgerValid l = true := by
  cases o with
  | none => simp [metaOf]
  | some l => by_cases h : ledgerValid l = true <;> simp [metaOf, h]

/-- The loader on NVS that answers every read: a slot is chosen once one of them is valid and the
two do not disagree under one generation. -/
theorem pmCommandsLoad_select {nvs : Slots Ledger} (f : LedgerFault)
    (hv : (metaOf nvs.a).status = .valid ∨ (metaOf nvs.b).status = .valid)
    (htie : (metaOf nvs.a).status = .valid → (metaOf nvs.b).status = .valid →
      (metaOf nvs.a).generation ≠ (metaOf nvs.b).generation) :
    pmCommandsLoad nvs f = ⟨some .ok,
      (if (metaOf nvs.a).status = .valid ∧ ((metaOf nvs.b).status ≠ .valid ∨
        (metaOf nvs.b).generation ≤ (metaOf nvs.a).generation) then nvs.a else nvs.b).getD
          Ledger.zero, nvs, none⟩ := by
  have hmiss : ¬((metaOf nvs.a).status = .missing ∧ (metaOf nvs.b).status = .missing) := by
    rintro ⟨ha, hb⟩
    rcases hv with h | h
    · rw [ha] at h; cases h
    · rw [hb] at h; cases h
  have hnone : ¬((metaOf nvs.a).status ≠ .valid ∧ (metaOf nvs.b).status ≠ .valid) :=
    fun h => hv.elim h.1 h.2
  have hconf : ¬((metaOf nvs.a).status = .valid ∧ (metaOf nvs.b).status = .valid ∧
      (metaOf nvs.a).generation = (metaOf nvs.b).generation ∧
      (metaOf nvs.a).sha256 ≠ (metaOf nvs.b).sha256) := fun h => htie h.1 h.2.1 h.2.2.1
  simp only [pmCommandsLoad, commandsLoadLocked, inspectSlot_readSlots, Slots.get]
  rw [if_neg hmiss, if_neg hnone, if_neg hconf, if_pos ⟨trivial, trivial⟩]
  by_cases hsel : (metaOf nvs.a).status = .valid ∧ ((metaOf nvs.b).status ≠ .valid ∨
      (metaOf nvs.b).generation ≤ (metaOf nvs.a).generation)
  · rw [decide_eq_true hsel, if_pos hsel]
    simp only [if_true, hsel.1, and_self]
  · have hb : (metaOf nvs.b).status = .valid := by
      rcases hv with ha | hb
      · by_contra hb
        exact hsel ⟨ha, .inl hb⟩
      · exact hb
    rw [decide_eq_false hsel, if_neg hsel]
    simp only [Bool.false_eq_true, if_true, if_false, hb, and_self]

/-- The loader's choice is the newest valid slot. -/
theorem select_eq_best {nvs : Slots Ledger} {l : Ledger}
    (h : best ledgerValid Ledger.generation nvs = some l) :
    (if (metaOf nvs.a).status = .valid ∧ ((metaOf nvs.b).status ≠ .valid ∨
      (metaOf nvs.b).generation ≤ (metaOf nvs.a).generation) then nvs.a else nvs.b) = some l := by
  obtain ⟨_ | x, _ | y⟩ := nvs
  · simp [best] at h
  · by_cases hy : ledgerValid y = true
    · simpa [best, metaOf, Option.filter_some, hy] using h
    · simp [best, Option.filter_some, hy] at h
  · by_cases hx : ledgerValid x = true
    · simpa [best, metaOf, Option.filter_some, hx] using h
    · simp [best, Option.filter_some, hx] at h
  · by_cases hx : ledgerValid x = true <;> by_cases hy : ledgerValid y = true
    · simpa [best, metaOf, Option.filter_some, hx, hy] using h
    · simpa [best, metaOf, Option.filter_some, hx, hy] using h
    · simpa [best, metaOf, Option.filter_some, hx, hy] using h
    · simp [best, Option.filter_some, hx, hy] at h

/-- **Loading a store in use** returns the newest valid slot. -/
theorem pmCommandsLoad_of_holds {nvs : Slots Ledger} {base : Ledger} {P : Ledger → Prop}
    (h : Holds ledgerValid Ledger.generation nvs base P) (f : LedgerFault) :
    ∃ l, best ledgerValid Ledger.generation nvs = some l ∧
      pmCommandsLoad nvs f = ⟨some .ok, l, nvs, none⟩ := by
  have hbase : (metaOf (nvs.get (sideOf base.generation))).status = .valid :=
    (metaOf_valid_iff _).2 ⟨base, h.stored, h.accepted⟩
  have hgen : (metaOf (nvs.get (sideOf base.generation))).generation = base.generation := by
    rw [h.stored]
    rfl
  have hother : (metaOf (nvs.get (sideOf base.generation).other)).status = .valid →
      (metaOf (nvs.get (sideOf base.generation).other)).generation ≠ base.generation := by
    intro hval
    obtain ⟨y, ho, hy⟩ := (metaOf_valid_iff _).1 hval
    rw [ho]
    rcases h.rest y ho hy with hlt | ⟨-, hlt, -⟩
    · exact hlt.ne
    · exact hlt.ne'
  obtain ⟨l, hl, -, -⟩ := h.best
  refine ⟨l, hl, ?_⟩
  rw [pmCommandsLoad_select f, select_eq_best hl]
  · rfl
  · cases hside : sideOf base.generation <;> rw [hside] at hbase
    · exact .inl hbase
    · exact .inr hbase
  · intro ha hb
    cases hside : sideOf base.generation <;> rw [hside] at hgen hother <;>
      simp only [Slots.get, Side.other] at hgen hother
    · rw [hgen]
      exact (hother hb).symm
    · rw [hgen]
      exact hother ha

/-- Loading a store whose other slot holds nothing newer. -/
theorem pmCommandsLoad_of_alone {nvs : Slots Ledger} {base : Ledger}
    (h : Holds ledgerValid Ledger.generation nvs base (fun _ => False)) (f : LedgerFault) :
    pmCommandsLoad nvs f = ⟨some .ok, base, nvs, none⟩ := by
  obtain ⟨l, hl, hload⟩ := pmCommandsLoad_of_holds h f
  obtain rfl := Option.some.inj (hl.symm.trans h.best_eq)
  exact hload

end PowerMonitor.Commands
