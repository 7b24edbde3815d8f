import PowerMonitor.Foundations.Runs
import PowerMonitor.Commands.Calls

/-!
# Failed calls and written blobs

Two consequences of what a ledger call can do.

* `error_leaves_ledger`: over a ledger whose checksums are current, a call that returns an error
  leaves the ledger in RAM as it found it, wherever it failed. Every operation but the redaction
  undoes its change by hand, and `persist` has changed more by then than the operation did: the
  generation, the checksum of the ledger and those of all its entries.
* `written_valid`: every blob that reaches `nvs_set_blob` is one the loader accepts. Here the
  checksums need not be current, because `result_text` is written under the lock without a persist;
  what carries the induction is that the commands stay sound.
-/

namespace PowerMonitor.Commands

open CMemory AbStore Runs

variable [Sha256]

/-! ## Errors -/

section

variable {l : Ledger} {nvs : Slots Ledger} {f : LedgerFault} {e : EspErr}

/-- A call behind `pm_commands_lock`, which answers `ESP_ERR_NO_MEM` when there is no mutex. -/
def locked (lockOk : Bool) (l : Ledger) (nvs : Slots Ledger) (o : Outcome) : Outcome :=
  if lockOk then o else refuse .noMem l nvs

omit [Sha256] in
theorem locked_ledger {lockOk : Bool} {o : Outcome} (ho : o.result = some e → o.ledger = l)
    (h : (locked lockOk l nvs o).result = some e) : (locked lockOk l nvs o).ledger = l := by
  cases lockOk with
  | false => rfl
  | true => exact ho h

theorem accept_error (hset : Settled l) {incoming : Command} {now : ℤ} {mallocOk : Bool}
    (he : e ≠ .ok) (hexpired : e ≠ .timeout ∨ now ≤ incoming.expiresUtcMs)
    (h : (commandAccept l incoming now mallocOk nvs f).outcome.result = some e) :
    (commandAccept l incoming now mallocOk nvs f).outcome.ledger = l := by
  have hcase := commandAccept_cases l incoming now mallocOk nvs f
  generalize commandAccept l incoming now mallocOk nvs f = a at hcase h ⊢
  cases hcase with
  | refused e _ _ => rfl
  | found i _ _ => rfl
  | stored i _ _ _ _ p _ _ =>
    -- the command was stored, so the only error left is that of an expired one
    have h := Option.some.inj h
    split at h
    next hstate =>
      rcases hexpired with ht | hle
      · exact absurd h.symm ht
      · simp [acceptedCommand, not_lt.2 hle] at hstate
    · exact absurd h.symm he
  | undone i _ _ _ _ p hp _ =>
    subst hp
    have hrest : ∀ j, j ≠ i →
        (storeCommand l i (acceptedCommand incoming now)).entries j = l.entries j :=
      fun j hj => Function.update_of_ne hj _ _
    exact restoreEntry_eq hrest (hset.persist_entries (m := storeCommand l i _) rfl nvs f)

/-- A call that stores no command and redacts none leaves the ledger as it was when it returns an
error. -/
theorem Call.error_ledger {c : Call} (hset : Settled l) (hc : c.redacts = false)
    (hstores : c.stores = none) (he : e ≠ .ok) (h : (c.perform l nvs f).result = some e) :
    (c.perform l nvs f).ledger = l := by
  rcases c.perform_cases l nvs f with ⟨-, e', ho⟩ | ⟨-, l', hp⟩
  · rw [ho]
    rfl
  · refine hp.undone (fun hok => he ?_) hc hset
    rw [hp.answer hstores, hok] at h
    exact (Option.some.inj h).symm

/-- **Failed ledger operations leave RAM intact.** -/
theorem error_leaves_ledger (hcrc : CrcsCurrent l) (lockOk mallocOk : Bool) (nvs : Slots Ledger)
    (f : LedgerFault) (he : e ≠ .ok) :
    (∀ incoming now, (e ≠ .timeout ∨ now ≤ incoming.expiresUtcMs) →
      (locked lockOk l nvs (commandAccept l incoming now mallocOk nvs f).outcome).result = some e →
      (locked lockOk l nvs (commandAccept l incoming now mallocOk nvs f).outcome).ledger = l) ∧
    (∀ i state progress code,
      (locked lockOk l nvs (commandTransition l i state progress code mallocOk nvs f)).result =
        some e →
      (locked lockOk l nvs (commandTransition l i state progress code mallocOk nvs f)).ledger =
        l) ∧
    (∀ id, (locked lockOk l nvs (commandAcknowledgeResult l id nvs f)).result = some e →
      (locked lockOk l nvs (commandAcknowledgeResult l id nvs f)).ledger = l) ∧
    (∀ i state code text,
      (locked lockOk l nvs (commandReconcileBoot l i state code text mallocOk nvs f)).result =
        some e →
      (locked lockOk l nvs (commandReconcileBoot l i state code text mallocOk nvs f)).ledger =
        l) := by
  have hset : Settled l := .inl hcrc
  refine ⟨fun incoming now hexp h => ?_, fun i state progress code h => ?_, fun id h => ?_,
    fun i state code text h => ?_⟩
  · exact locked_ledger (accept_error hset he hexp) h
  · exact locked_ledger
      (Call.error_ledger (c := .transition i state progress code mallocOk) hset rfl rfl he) h
  · exact locked_ledger (Call.error_ledger (c := .acknowledgeResult id) hset rfl rfl he) h
  · exact locked_ledger
      (Call.error_ledger (c := .reconcileBoot i state code text mallocOk) hset rfl rfl he) h

end

/-- The ledger after one command was accepted. -/
def oneAccepted : Ledger :=
  stamp (storeCommand Ledger.zero 0
    (@acceptedCommand .standard (parsedCommand (.sample .reboot (.refl true) 1 one_ne_nul) 0) 0))

omit [Sha256] in
/-- A transition whose `nvs_open` fails. -/
theorem transition_open_fails :
    let o := locked true oneAccepted Slots.empty
      (@commandTransition .standard oneAccepted 0 .running 10 0 true Slots.empty
        (.openFails .generic))
    o.result = some .fail ∧ o.ledger = oneAccepted :=
  have hfail : (@commandTransition .standard oneAccepted 0 .running 10 0 true Slots.empty
      (.openFails .generic)).result = some .fail := by decide
  ⟨hfail, (@error_leaves_ledger .standard _ .fail (crcsCurrent_stamp _) true true Slots.empty
    (.openFails .generic) (by decide)).2.1 0 .running 10 0 hfail⟩

/-! ## Written blobs -/

/-- One step on the ledger in RAM: a call, which accepts no command with an acknowledgement due, or
an edit of `result_text` under the lock. -/
inductive LedgerStep
  | call (c : Call) (f : LedgerFault) (fresh : c.ackDue = false)
  | writeResultText (i : EntryIndex) (text : Bytes 161)

/-- The ledger in RAM, the slots, and every blob `persist` has handed to NVS. -/
structure LedgerTrace where
  ledger : Ledger
  nvs : Slots Ledger
  handed : List Ledger

namespace LedgerTrace

/-- The empty ledger, over slots that may hold anything. -/
def start (nvs : Slots Ledger) : LedgerTrace := ⟨Ledger.zero, nvs, []⟩

/-- One step. When power is lost under a call, RAM is zeroed. -/
def step (t : LedgerTrace) : LedgerStep → LedgerTrace
  | .call c f _ =>
    let o := c.perform t.ledger t.nvs f
    ⟨if o.result.isSome then o.ledger else Ledger.zero, o.nvs,
      (o.persisted.bind Persisted.written).toList ++ t.handed⟩
  | .writeResultText i text =>
    { t with ledger := t.ledger.setEntry i { t.ledger.entries i with resultText := text } }

/-- The commands are sound, and what was handed to NVS is what the loader accepts. -/
structure Accepts (t : LedgerTrace) : Prop where
  sound : LedgerSound t.ledger
  valid : ∀ b ∈ t.handed, ledgerValid b = true

end LedgerTrace

theorem persist_sound {l : Ledger} (h : LedgerSound l) (nvs : Slots Ledger) (f : LedgerFault) :
    LedgerSound (persist l nvs f).ledger := by
  rcases persist_ledger l nvs f with hp | ⟨-, hp⟩ <;> rw [hp]
  · exact h.stamp
  · exact h

/-- A failed call leaves a sound ledger, also where outdated checksums keep it from restoring the
one it found. -/
theorem Performed.sound {c : Call} {l l' : Ledger} {nvs : Slots Ledger} {f : LedgerFault}
    {o : Outcome} (hp : Performed c l l' nvs f o) (hack : c.ackDue = false) (hl : LedgerSound l) :
    LedgerSound o.ledger := by
  have hpersist := persist_sound (hp.edit.sound hack hl) nvs f
  by_cases hkept : (persist l' nvs f).result = some .ok ∨ c.redacts = true
  · rw [hp.kept hkept]
    exact hpersist
  · obtain ⟨hfail, hc⟩ := not_or.1 hkept
    obtain ⟨i, -, ho⟩ := hp.restored hfail (by simpa using hc)
    rw [ho]
    refine ⟨hl.next_lt, fun j hj => ?_⟩
    by_cases hji : j = i
    · subst hji
      simp only [restoreEntry, Ledger.setEntry_entries, Function.update_self] at hj ⊢
      exact hl.sound j hj
    · simp only [restoreEntry, Ledger.setEntry_entries, Function.update_of_ne hji] at hj ⊢
      exact hpersist.sound j hj

/-- What a persist hands to NVS is the stamped ledger. -/
theorem written_eq_stamp {l b : Ledger} {nvs : Slots Ledger} {f : LedgerFault}
    (h : (persist l nvs f).written = some b) : b = stamp l := by
  rcases persist_cases l nvs f with ⟨-, hp⟩ | hp | ⟨e, r, -, hp⟩ | ⟨e, -, hp⟩ <;> rw [hp] at h
  · cases h
  · exact (Option.some.inj h).symm
  · exact (Option.some.inj h).symm
  · cases h

namespace LedgerTrace

theorem Accepts.step {t : LedgerTrace} (h : Accepts t) (a : LedgerStep) : Accepts (t.step a) := by
  cases a with
  | writeResultText i text =>
    refine ⟨h.sound.setEntry fun ho => ?_, h.valid⟩
    exact h.sound.sound i ho
  | call c f hack =>
    rcases c.perform_cases t.ledger t.nvs f with ⟨-, e, ho⟩ | ⟨-, l', hp⟩
    · rw [LedgerTrace.step, ho]
      exact ⟨h.sound, h.valid⟩
    · refine ⟨?_, fun b hb => ?_⟩ <;> dsimp only [LedgerTrace.step] at *
      · split
        · exact hp.sound hack h.sound
        · exact ledgerSound_zero
      · rw [hp.persisted, Option.bind_some, List.mem_append, Option.mem_toList] at hb
        rcases hb with hb | hb
        · rw [written_eq_stamp hb]
          exact ledgerValid_stamp (hp.edit.sound hack h.sound)
        · exact h.valid b hb

/-- **What the ledger writes, the loader accepts.** -/
theorem written_valid (nvs : Slots Ledger) (steps : List LedgerStep) :
    (run LedgerTrace.step (start nvs) steps).handed.all ledgerValid = true := by
  have hstart : Accepts (start nvs) := ⟨ledgerSound_zero, fun _ hb => by cases hb⟩
  exact List.all_eq_true.2 (run_invariant (fun _ a h => h.step a) hstart steps).valid

end LedgerTrace

end PowerMonitor.Commands
