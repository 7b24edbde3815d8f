import Mathlib.Logic.Relation
import PowerMonitor.Foundations.Runs
import PowerMonitor.Commands.Calls

/-!
# Histories of the command ledger

The histories of the ledger: any sequence of ledger calls, each with the fault its `persist` meets,
power losses and loads, from the first load of an empty NVS. A `History` is the flash and the RAM
together with what the statements speak about: which ledgers were attempted, which were
acknowledged, which commands were redacted.

* `Inv` is the invariant: the newest acknowledged ledger sits in its slot, everything newer in the
  other slot was attempted since then, and the generation in RAM is ahead of the acknowledged one
  by the number of redactions that failed in between.
* `step_inv` needs two conditions: no write reaches NVS while that number is odd (`WritesEven`), and
  no command is stored that the loader refuses (`StoresLoadable`).
-/

namespace PowerMonitor.Commands

open CMemory AbStore Runs Relation

variable [Sha256]

/-! ## Histories -/

/-- The ledger in flash and in RAM, and its past. -/
structure History where
  nvs : Slots Ledger
  /-- The ledger in RAM; `none` from a power loss to the next load. -/
  ram : Option Ledger
  /-- The newest ledger that a `persist` or a load has returned `ESP_OK` for. -/
  acked : Ledger
  /-- The ledger of the last `persist` that returned `ESP_OK`. -/
  persisted : Ledger
  /-- Every ledger a `persist` has handed to `nvs_set_blob`. -/
  attempted : List Ledger
  /-- The ledgers attempted since `acked`. -/
  pending : List Ledger
  /-- Every ledger that was `acked`. -/
  completed : List Ledger
  /-- The redactions whose `persist` has failed since `acked`. -/
  failedRedactions : ℕ
  /-- The commands whose redaction returned `ESP_OK` and that were not stored anew since. -/
  redacted : List (List UInt8)

/-- One step of a history. -/
inductive Act
  | call (c : Call) (f : LedgerFault)
  | powerLoss
  | load (f : LedgerFault)

/-- Whether the step is a call of `pm_command_zeroize_payload`. -/
def Act.redacts : Act → Bool
  | call c _ => c.redacts
  | _ => false

/-- Whether the step stores a command with an acknowledgement due. -/
def Act.ackDue : Act → Bool
  | call c _ => c.ackDue
  | _ => false

namespace History

/-- Empty NVS followed by one successful `pm_commands_load`. -/
def start : History :=
  let loaded := pmCommandsLoad Slots.empty .none
  { nvs := loaded.nvs
    ram := some loaded.ledger
    acked := loaded.ledger
    persisted := loaded.ledger
    attempted := loaded.written.toList
    pending := []
    completed := [loaded.ledger]
    failedRedactions := 0
    redacted := [] }

/-- The commands that stay redacted when `p` is the persist of call `c`. -/
def stillRedacted (h : History) (c : Call) (p : Persisted) : List (List UInt8) :=
  if p.written.isSome then h.redacted.filter fun id => c.stores ≠ some id else h.redacted

/-- The history after the persist `p` of call `c` on ledger `l`. -/
def record (h : History) (c : Call) (l : Ledger) (p : Persisted) : History :=
  if p.result = some .ok then
    { h with
      acked := p.ledger
      persisted := p.ledger
      attempted := p.written.toList ++ h.attempted
      pending := []
      completed := p.ledger :: h.completed
      failedRedactions := 0
      redacted := (c.redactedIn l).toList ++ h.stillRedacted c p }
  else
    { h with
      attempted := p.written.toList ++ h.attempted
      pending := p.written.toList ++ h.pending
      failedRedactions := h.failedRedactions + c.redacts.toNat
      redacted := h.stillRedacted c p }

/-- One step. A call needs a loaded ledger; when power is lost under it, RAM is gone. -/
def step (h : History) : Act → History
  | .call c f =>
    match h.ram with
    | none => h
    | some l =>
      let o := c.perform l h.nvs f
      let h' := match o.persisted with
        | none => h
        | some p => h.record c l p
      { h' with nvs := o.nvs, ram := o.result.map fun _ => o.ledger }
  | .powerLoss => { h with ram := none }
  | .load f =>
    let loaded := pmCommandsLoad h.nvs f
    if loaded.result = some .ok then
      { h with
        nvs := loaded.nvs
        ram := some loaded.ledger
        acked := loaded.ledger
        attempted := loaded.written.toList ++ h.attempted
        pending := []
        completed := loaded.ledger :: h.completed
        failedRedactions := 0 }
    else
      { h with
        nvs := loaded.nvs
        ram := none
        attempted := loaded.written.toList ++ h.attempted }

/-- The slot the step writes, if it gets as far as `nvs_set_blob`. -/
def target (h : History) : Act → Option Side
  | .call c f =>
    match h.ram with
    | none => none
    | some l => ((c.perform l h.nvs f).persisted.bind (·.written)).map (sideOf ·.generation)
  | .powerLoss => none
  | .load f => (pmCommandsLoad h.nvs f).written.map (sideOf ·.generation)

/-- The step overwrites a slot that holds the newest acknowledged ledger. -/
def Overwrites (h : History) (a : Act) : Prop :=
  ∃ side, h.target a = some side ∧ h.nvs.get side = some h.acked

/-- `q` is what some call on `p` made of it and handed to NVS. -/
def Change (p q : Ledger) : Prop :=
  ∃ (c : Call) (nvs : Slots Ledger) (f : LedgerFault),
    ((c.perform p nvs f).persisted.map Persisted.ledger) = some q

/-- **Durability**: the next load succeeds with an attempted ledger, at least as recent as the last
persist that returned `ESP_OK`, in which every ledger acknowledged so far is continued and not
rolled back. -/
def Durable (h : History) : Prop :=
  ∀ f, ∃ l, pmCommandsLoad h.nvs f = ⟨some .ok, l, h.nvs, none⟩ ∧ l ∈ h.attempted ∧
    h.persisted.generation ≤ l.generation ∧ ∀ p ∈ h.completed, ReflTransGen Change p l

/-- **Redaction**: the next load returns no plaintext of a redacted command. -/
def StaysRedacted (h : History) : Prop :=
  ∀ f l, pmCommandsLoad h.nvs f = ⟨some .ok, l, h.nvs, none⟩ →
    ∀ id ∈ h.redacted, RedactedIn id l

/-- No write reaches NVS while an odd number of redactions has failed since the last
acknowledgement. -/
def WritesEven (h : History) : Act → Prop
  | .call c f =>
    ∀ l, h.ram = some l → l.generation ≠ uint32Max → c.proceeds l = true → f.reaches = true →
      h.failedRedactions % 2 = 0
  | _ => True

/-- No command with an acknowledgement due is stored: an accept of one fails its checks, or its
write meets a fault. -/
def StoresLoadable (h : History) : Act → Prop
  | .call c f =>
    ∀ l, h.ram = some l → l.generation ≠ uint32Max → c.proceeds l = true → f = .none →
      c.ackDue = false
  | _ => True

/-! ## The invariant -/

/-- The ledger in RAM: sound, and ahead of the acknowledged one by the failed redactions. -/
structure RamInv (h : History) (l : Ledger) : Prop where
  sound : LedgerSound l
  distinct : IdsDistinct l
  ahead : l.generation = uint32Max ∨
    (CrcsCurrent l ∧ l.generation = h.acked.generation + h.failedRedactions)
  continues : ReflTransGen Change h.acked l
  redacted : ∀ id ∈ h.redacted, RedactedIn id l

/-- The invariant of a history. -/
structure Inv (h : History) : Prop where
  store : Holds ledgerValid Ledger.generation h.nvs h.acked (· ∈ h.pending)
  acked_mem : h.acked ∈ h.attempted
  pending_mem : ∀ q ∈ h.pending, q ∈ h.attempted
  distinct : ∀ q ∈ h.attempted, IdsDistinct q
  persisted_le : h.persisted.generation ≤ h.acked.generation
  completed : ∀ p ∈ h.completed, ReflTransGen Change p h.acked
  pending : ∀ q ∈ h.pending, ReflTransGen Change h.acked q
  redacted : ∀ id ∈ h.redacted, RedactedIn id h.acked
  redacted_pending : ∀ id ∈ h.redacted, ∀ q ∈ h.pending, RedactedIn id q
  ram : ∀ l, h.ram = some l → RamInv h l

theorem start_eq : start =
    { nvs := ⟨some (stamp Ledger.zero), none⟩
      ram := some (stamp Ledger.zero)
      acked := stamp Ledger.zero
      persisted := stamp Ledger.zero
      attempted := [stamp Ledger.zero]
      pending := []
      completed := [stamp Ledger.zero]
      failedRedactions := 0
      redacted := [] } := rfl

theorem start_inv : Inv start where
  store := ⟨rfl, ledgerValid_stamp ledgerSound_zero, fun y hy => by cases hy⟩
  acked_mem := .head _
  pending_mem q hq := by cases hq
  distinct q hq := by
    obtain rfl : q = stamp Ledger.zero := by simpa [start_eq] using hq
    exact idsDistinct_zero.stamp
  persisted_le := le_rfl
  completed p hp := by
    obtain rfl : p = stamp Ledger.zero := by simpa [start_eq] using hp
    exact .refl
  pending q hq := by cases hq
  redacted id hid := by cases hid
  redacted_pending id hid := by cases hid
  ram l hl := by
    obtain rfl := Option.some.inj hl
    exact ⟨ledgerSound_zero.stamp, idsDistinct_zero.stamp, .inr ⟨crcsCurrent_stamp _, rfl⟩, .refl,
      fun id hid => by cases hid⟩

/-! ## One step -/

section Step

variable {h : History} {c : Call} {l l' : Ledger} {f : LedgerFault}

theorem change_of_performed {nvs : Slots Ledger} {o : Outcome} (hp : Performed c l l' nvs f o)
    (ho : o = c.perform l nvs f) : Change l (persist l' nvs f).ledger :=
  ⟨c, nvs, f, by rw [← ho, hp.persisted]; rfl⟩

theorem RamInv.settled (hr : RamInv h l) : Settled l :=
  hr.ahead.elim .inr fun h => .inl h.1

omit [Sha256] in
theorem mem_stillRedacted {p : Persisted} {id : List UInt8} (hid : id ∈ h.stillRedacted c p) :
    id ∈ h.redacted ∧ (p.written.isSome = true → c.stores ≠ some id) := by
  unfold stillRedacted at hid
  split at hid
  · have := List.mem_filter.1 hid
    exact ⟨this.1, fun _ => by simpa using this.2⟩
  next hw => exact ⟨hid, fun hw' => absurd hw' hw⟩

omit [Sha256] in
theorem stores_of_redacts (hc : c.redacts = true) (id : List UInt8) : c.stores ≠ some id := by
  cases c with
  | zeroizePayload i => simp [Call.stores]
  | _ => cases hc

/-- The ledger in RAM after a persist that failed: a redaction is kept, any other edit undone. -/
theorem RamInv.failed (hr : RamInv h l) (hp : Performed c l l' h.nvs f (c.perform l h.nvs f))
    (hfail : (persist l' h.nvs f).result ≠ some .ok) {g : History} (hacked : g.acked = h.acked)
    (hcount : g.failedRedactions = h.failedRedactions + c.redacts.toNat)
    (hred : ∀ id ∈ g.redacted, id ∈ h.redacted) :
    RamInv g (c.perform l h.nvs f).ledger := by
  cases hc : c.redacts with
  | false =>
    rw [hp.undone hfail hc hr.settled]
    rw [hc] at hcount
    exact ⟨hr.sound, hr.distinct, by rw [hacked, hcount]; exact hr.ahead, hacked ▸ hr.continues,
      fun id hid => hr.redacted id (hred id hid)⟩
  | true =>
    rw [hp.kept (.inr hc)]
    rw [hc] at hcount
    have hack := Call.ackDue_of_redacts hc
    have hcont := (hacked ▸ hr.continues).tail (change_of_performed hp rfl)
    have hred' : ∀ id ∈ g.redacted, RedactedIn id l' := fun id hid =>
      hp.edit.redacted id (stores_of_redacts hc id) (hr.redacted id (hred id hid))
    rcases persist_ledger l' h.nvs f with hl | ⟨hmax, hl⟩ <;> rw [hl] at hcont ⊢
    · refine ⟨(hp.edit.sound hack hr.sound).stamp, (hp.edit.distinct hr.distinct).stamp, ?_, hcont,
        fun id hid => (hred' id hid).stamp⟩
      rcases hr.ahead with hm | ⟨-, hg⟩
      · -- a redaction at the last generation is not stamped
        have : (persist l' h.nvs f).ledger = l' := by
          rw [persist, if_pos (hp.edit.generation.trans hm)]
        rw [← hl, this]
        exact .inl (hp.edit.generation.trans hm)
      · refine .inr ⟨crcsCurrent_stamp _, ?_⟩
        rw [stamp_generation, hp.edit.generation, hg, hacked, hcount]
        rfl
    · exact ⟨hp.edit.sound hack hr.sound, hp.edit.distinct hr.distinct, .inl hmax, hcont, hred'⟩

/-- The history after a persist that failed without writing. -/
theorem Inv.unwritten (hi : Inv h) (hr : RamInv h l)
    (hp : Performed c l l' h.nvs f (c.perform l h.nvs f)) {e : EspErr} {m : Ledger} (he : e ≠ .ok)
    (hpers : persist l' h.nvs f = ⟨some e, m, h.nvs, none⟩) :
    Inv { h.record c l (persist l' h.nvs f) with
      nvs := (c.perform l h.nvs f).nvs
      ram := (c.perform l h.nvs f).result.map fun _ => (c.perform l h.nvs f).ledger } := by
  have hfail : (persist l' h.nvs f).result ≠ some .ok := by
    rw [hpers]
    simpa using he
  have hstill : h.stillRedacted c (persist l' h.nvs f) = h.redacted := by
    simp [stillRedacted, hpers]
  have hram := hr.failed hp hfail (g := { h.record c l (persist l' h.nvs f) with
      nvs := (c.perform l h.nvs f).nvs
      ram := (c.perform l h.nvs f).result.map fun _ => (c.perform l h.nvs f).ledger })
    (by rw [record, if_neg hfail]) (by rw [record, if_neg hfail])
    (by rw [record, if_neg hfail]; intro id hid; exact (mem_stillRedacted hid).1)
  rw [record, if_neg hfail, hstill] at hram ⊢
  rw [hp.nvs_eq, hpers] at hram ⊢
  refine ⟨hi.store, hi.acked_mem, hi.pending_mem, hi.distinct, hi.persisted_le, hi.completed,
    hi.pending, hi.redacted, hi.redacted_pending, fun m hm => ?_⟩
  obtain ⟨_, -, rfl⟩ := Option.map_eq_some_iff.1 hm
  exact hram

/-- The generation a persist writes, when an even number of redactions has failed: newer than the
acknowledged one and in the other slot. -/
theorem RamInv.next_side (hr : RamInv h l) (hmax : l.generation ≠ uint32Max)
    (heven : h.failedRedactions % 2 = 0) {m : Ledger} (hg : m.generation = l.generation) :
    h.acked.generation < (stamp m).generation ∧
      sideOf (stamp m).generation = (sideOf h.acked.generation).other := by
  obtain ⟨-, ha⟩ := hr.ahead.resolve_left hmax
  rw [stamp_generation, hg, ha]
  refine ⟨by omega, ?_⟩
  rw [← sideOf_succ, sideOf_eq_iff]
  omega

/-- The history after a persist that failed and left a residue in its slot. -/
theorem Inv.residue (hi : Inv h) (hr : RamInv h l)
    (hp : Performed c l l' h.nvs f (c.perform l h.nvs f)) {e : CallEnd} {r : Residue ledgerValid}
    (he : e ≠ some .ok) (hmax : l.generation ≠ uint32Max) (heven : h.failedRedactions % 2 = 0)
    (hpers : persist l' h.nvs f = ⟨e, stamp l',
      h.nvs.leave (sideOf (l'.generation + 1)) (stamp l') r, some (stamp l')⟩) :
    Inv { h.record c l (persist l' h.nvs f) with
      nvs := (c.perform l h.nvs f).nvs
      ram := (c.perform l h.nvs f).result.map fun _ => (c.perform l h.nvs f).ledger } := by
  have hfail : (persist l' h.nvs f).result ≠ some .ok := by rwa [hpers]
  have hmem : ∀ id ∈ h.stillRedacted c (persist l' h.nvs f), RedactedIn id (stamp l') := by
    intro id hid
    have := mem_stillRedacted hid
    exact (hp.edit.redacted id (this.2 (by rw [hpers]; rfl)) (hr.redacted id this.1)).stamp
  have hram := hr.failed hp hfail (g := { h.record c l (persist l' h.nvs f) with
      nvs := (c.perform l h.nvs f).nvs
      ram := (c.perform l h.nvs f).result.map fun _ => (c.perform l h.nvs f).ledger })
    (by rw [record, if_neg hfail]) (by rw [record, if_neg hfail])
    (by rw [record, if_neg hfail]; intro id hid; exact (mem_stillRedacted hid).1)
  have hcont : ReflTransGen Change h.acked (stamp l') := by
    have := hr.continues.tail (change_of_performed hp rfl)
    rwa [hpers] at this
  obtain ⟨hlt, hside⟩ := hr.next_side hmax heven hp.edit.generation
  rw [record, if_neg hfail] at hram ⊢
  have hnvs : (c.perform l h.nvs f).nvs = h.nvs.leave (sideOf (stamp l').generation) (stamp l') r := by
    rw [hp.nvs_eq, hpers]
    rfl
  have hwritten : (persist l' h.nvs f).written = some (stamp l') := by rw [hpers]
  rw [hnvs, hwritten] at hram ⊢
  refine ⟨(hi.store.leave hlt hside r).mono ?_, .tail _ hi.acked_mem, ?_, ?_, hi.persisted_le,
    hi.completed, ?_, fun id hid => hi.redacted id (mem_stillRedacted hid).1, ?_, fun m hm => ?_⟩
  · rintro y (hy | rfl)
    · exact .tail _ hy
    · exact .head _
  · rintro q (_ | ⟨_, hq⟩)
    · exact .head _
    · exact .tail _ (hi.pending_mem q hq)
  · rintro q (_ | ⟨_, hq⟩)
    · exact (hp.edit.distinct hr.distinct).stamp
    · exact hi.distinct q hq
  · rintro q (_ | ⟨_, hq⟩)
    · exact hcont
    · exact hi.pending q hq
  · rintro id hid q (_ | ⟨_, hq⟩)
    · exact hmem id hid
    · exact hi.redacted_pending id (mem_stillRedacted hid).1 q hq
  · obtain ⟨_, -, rfl⟩ := Option.map_eq_some_iff.1 hm
    exact hram

/-- The history after a persist that succeeded. -/
theorem Inv.succeeded (hi : Inv h) (hr : RamInv h l)
    (hp : Performed c l l' h.nvs f (c.perform l h.nvs f)) (hmax : l.generation ≠ uint32Max)
    (heven : h.failedRedactions % 2 = 0) (hack : c.ackDue = false)
    (hpers : persist l' h.nvs f = ⟨some .ok, stamp l',
      h.nvs.set (sideOf (l'.generation + 1)) (some (stamp l')), some (stamp l')⟩) :
    Inv { h.record c l (persist l' h.nvs f) with
      nvs := (c.perform l h.nvs f).nvs
      ram := (c.perform l h.nvs f).result.map fun _ => (c.perform l h.nvs f).ledger } := by
  have hok : (persist l' h.nvs f).result = some .ok := by rw [hpers]
  have hsound := hp.edit.sound hack hr.sound
  have hcont : ReflTransGen Change h.acked (stamp l') := by
    have := hr.continues.tail (change_of_performed hp rfl)
    rwa [hpers] at this
  obtain ⟨hlt, hside⟩ := hr.next_side hmax heven hp.edit.generation
  have hred : ∀ id ∈ (c.redactedIn l).toList ++ h.stillRedacted c (persist l' h.nvs f),
      RedactedIn id (stamp l') := by
    intro id hid
    rcases List.mem_append.1 hid with hid | hid
    · exact (hp.cleared hr.sound hr.distinct id (by simpa using hid)).stamp
    · have := mem_stillRedacted hid
      exact (hp.edit.redacted id (this.2 (by rw [hpers]; rfl)) (hr.redacted id this.1)).stamp
  have hnvs : (c.perform l h.nvs f).nvs =
      h.nvs.set (sideOf (stamp l').generation) (some (stamp l')) := by
    rw [hp.nvs_eq, hpers]
    rfl
  rw [record, if_pos hok, hnvs, hp.kept (.inl hok)]
  rw [show (persist l' h.nvs f).ledger = stamp l' by rw [hpers],
    show (persist l' h.nvs f).written = some (stamp l') by rw [hpers]]
  refine ⟨(hi.store.replace (ledgerValid_stamp hsound) hlt hside).mono fun y hy => hy.elim,
    .head _, fun q hq => (by cases hq), ?_, le_rfl, ?_, fun q hq => (by cases hq), hred,
    fun _ _ q hq => (by cases hq), fun m hm => ?_⟩
  · rintro q (_ | ⟨_, hq⟩)
    · exact (hp.edit.distinct hr.distinct).stamp
    · exact hi.distinct q hq
  · rintro q (_ | ⟨_, hq⟩)
    · exact .refl
    · exact (hi.completed q hq).trans hcont
  · obtain ⟨_, -, rfl⟩ := Option.map_eq_some_iff.1 hm
    exact ⟨hsound.stamp, (hp.edit.distinct hr.distinct).stamp, .inr ⟨crcsCurrent_stamp _, rfl⟩,
      .refl, hred⟩

/-- The write sequence of a persist that wrote has reached its slot. -/
theorem reaches_of_written {nvs : Slots Ledger} {m : Ledger}
    (hw : (persist l' nvs f).written = some m) : f.reaches = true ∧ l'.generation ≠ uint32Max := by
  unfold persist at hw
  split at hw
  · cases hw
  next hmax =>
  dsimp only at hw
  split at hw
  next hr => exact ⟨hr, hmax⟩
  · cases hw

/-- **A call keeps the invariant** when it does not write while an odd number of redactions has
failed and stores no command that the loader refuses. -/
theorem Inv.call (hi : Inv h) (heven : h.WritesEven (.call c f))
    (hloadable : h.StoresLoadable (.call c f)) : Inv (h.step (.call c f)) := by
  unfold step
  cases hram : h.ram with
  | none => exact hi
  | some l =>
    have hr := hi.ram l hram
    dsimp only
    rcases c.perform_cases l h.nvs f with ⟨-, e, he⟩ | ⟨hpro, l', hp⟩
    · rw [he]
      refine { hi with ram := fun m hm => ?_ }
      obtain rfl := Option.some.inj hm
      exact ⟨hr.sound, hr.distinct, hr.ahead, hr.continues, hr.redacted⟩
    · rw [hp.persisted]
      have hwrite : ∀ m, (persist l' h.nvs f).written = some m →
          l.generation ≠ uint32Max ∧ h.failedRedactions % 2 = 0 := by
        intro m hm
        obtain ⟨hreach, hmax⟩ := reaches_of_written hm
        rw [hp.edit.generation] at hmax
        exact ⟨hmax, heven l hram hmax hpro hreach⟩
      rcases persist_cases l' h.nvs f with ⟨-, hpers⟩ | hpers | ⟨e, r, he, hpers⟩ | ⟨e, he, hpers⟩
      · exact hi.unwritten hr hp (by decide) hpers
      · obtain ⟨hmax, hev⟩ := hwrite _ (by rw [hpers])
        have hnone : f = .none := ((persist_ok_iff l' h.nvs f).1 (by rw [hpers])).2
        exact hi.succeeded hr hp hmax hev (hloadable l hram hmax hpro hnone) hpers
      · obtain ⟨hmax, hev⟩ := hwrite _ (by rw [hpers])
        exact hi.residue hr hp he hmax hev hpers
      · exact hi.unwritten hr hp he hpers

/-- What a load finds: the acknowledged ledger or one attempted since. -/
theorem Inv.load_eq (hi : Inv h) (f : LedgerFault) :
    ∃ l, pmCommandsLoad h.nvs f = ⟨some .ok, l, h.nvs, none⟩ ∧
      (l = h.acked ∨ (l ∈ h.pending ∧ h.acked.generation < l.generation)) ∧
      Holds ledgerValid Ledger.generation h.nvs l (fun _ => False) := by
  obtain ⟨l, hb, hload⟩ := pmCommandsLoad_of_holds hi.store f
  obtain ⟨x, hx, hcase, hh⟩ := hi.store.best
  obtain rfl := Option.some.inj (hb.symm.trans hx)
  exact ⟨l, hload, hcase, hh⟩

theorem step_load (hload : pmCommandsLoad h.nvs f = ⟨some .ok, l, h.nvs, none⟩) :
    h.step (.load f) =
      { h with
        ram := some l
        acked := l
        pending := []
        completed := l :: h.completed
        failedRedactions := 0 } := by
  simp only [step, hload, if_true]
  rfl

/-- **A load keeps the invariant**: what it returns is acknowledged from then on. -/
theorem Inv.load (hi : Inv h) (f : LedgerFault) : Inv (h.step (.load f)) := by
  obtain ⟨l, hload, hcase, hh⟩ := hi.load_eq f
  have hmem : l ∈ h.attempted := hcase.elim (· ▸ hi.acked_mem) fun hl => hi.pending_mem l hl.1
  have hcont : ReflTransGen Change h.acked l :=
    hcase.elim (· ▸ .refl) fun hl => hi.pending l hl.1
  have hred : ∀ id ∈ h.redacted, RedactedIn id l := fun id hid =>
    hcase.elim (· ▸ hi.redacted id hid) fun hl => hi.redacted_pending id hid l hl.1
  have hle : h.acked.generation ≤ l.generation := hcase.elim (· ▸ le_rfl) fun hl => hl.2.le
  obtain ⟨hsound, hcur⟩ := ledgerSound_of_valid hh.accepted
  rw [step_load hload]
  refine ⟨hh.mono fun y hy => hy.elim, hmem, fun q hq => (by cases hq), hi.distinct,
    hi.persisted_le.trans hle, ?_, fun q hq => (by cases hq), hred, fun _ _ q hq => (by cases hq),
    fun m hm => ?_⟩
  · rintro q (_ | ⟨_, hq⟩)
    · exact .refl
    · exact (hi.completed q hq).trans hcont
  · obtain rfl := Option.some.inj hm
    exact ⟨hsound, hi.distinct l hmem, .inr ⟨hcur, rfl⟩, .refl, hred⟩

/-- **Every step keeps the invariant** that meets the two conditions. -/
theorem step_inv (hi : Inv h) {a : Act} (heven : h.WritesEven a) (hloadable : h.StoresLoadable a) :
    Inv (h.step a) := by
  cases a with
  | call c f => exact hi.call heven hloadable
  | powerLoss => exact { hi with ram := fun m hm => by cases hm }
  | load f => exact hi.load f

end Step

end History

end PowerMonitor.Commands
