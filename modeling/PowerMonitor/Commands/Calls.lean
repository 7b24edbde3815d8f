import PowerMonitor.Commands.Incoming
import PowerMonitor.Commands.Ops

/-!
# What a ledger call changes

The five mutators of the ledger as one type of calls, and one description of what any of them does.
A call is refused and changes nothing, or it hands an edited ledger to `persist`; when that persist
fails, `pm_command_zeroize_payload` keeps the edit in RAM and the other four put the ledger back as
it was.

* `Edit` collects what every edit keeps: the generation, soundness, the distinctness of the command
  identities, and the redaction of every command the call does not store.
* `Call.perform_cases` is the description; nothing after this module unfolds an operation.
-/

namespace PowerMonitor.Commands

open CMemory AbStore

/-- The calls that change the ledger. -/
inductive Call
  | accept (incoming : Command) (nowUtcMs : ℤ) (mallocOk : Bool)
  | transition (i : EntryIndex) (state : CommandState) (progressPercent : ℕ) (resultCode : ℤ)
      (mallocOk : Bool)
  | acknowledgeResult (commandId : List UInt8)
  | reconcileBoot (i : EntryIndex) (state : CommandState) (resultCode : ℤ)
      (resultText : List UInt8) (mallocOk : Bool)
  | zeroizePayload (i : EntryIndex)

/-- Whether the call is `pm_command_zeroize_payload`, which the active firmware never makes. -/
def Call.redacts : Call → Bool
  | zeroizePayload _ => true
  | _ => false

/-- The identity of the command the call stores anew. -/
def Call.stores : Call → Option (List UInt8)
  | accept incoming _ _ => some incoming.commandId.str
  | _ => none

/-- Whether the call stores a command with an acknowledgement due, as `parse_commands` never builds
one. `command_valid` refuses such a command before it has succeeded. -/
def Call.ackDue : Call → Bool
  | accept incoming _ _ => incoming.resultAckRequired
  | _ => false

theorem Call.ackDue_of_redacts {c : Call} (hc : c.redacts = true) : c.ackDue = false := by
  cases c with
  | zeroizePayload i => rfl
  | _ => cases hc

/-- The identity of the command the call redacts in `l`. -/
def Call.redactedIn (l : Ledger) : Call → Option (List UInt8)
  | zeroizePayload i => some (l.entries i).commandId.str
  | _ => none

section Invariants

/-- No two entries hold a command of one identity. -/
def IdsDistinct (l : Ledger) : Prop :=
  ∀ i j, (l.entries i).occupied = true → (l.entries j).occupied = true →
    (l.entries i).commandId.str = (l.entries j).commandId.str → i = j

/-- The ledger holds no plaintext payload of the command `id`. -/
def RedactedIn (id : List UInt8) (l : Ledger) : Prop :=
  ∀ i, (l.entries i).commandId.str = id → (l.entries i).payload.cleared = true

theorem occupied_iff_str_ne_nil (c : Command) : c.occupied = true ↔ c.commandId.str ≠ [] := by
  rw [Command.occupied, Bool.not_eq_true', Bool.eq_false_iff, not_iff_not]
  exact ⟨Bytes.str_eq_nil_of_firstIsNul, Bytes.firstIsNul_of_str_eq_nil⟩

theorem idsDistinct_zero : IdsDistinct Ledger.zero := by
  intro i _ hi
  have : (Ledger.zero.entries i).occupied = false := by
    change Command.zero.occupied = false
    decide
  rw [this] at hi
  cases hi

@[simp] theorem stamp_commandId (l : Ledger) (i : EntryIndex) :
    ((stamp l).entries i).commandId = (l.entries i).commandId := by
  rw [stamp_entries]
  split <;> rfl

@[simp] theorem stamp_payload (l : Ledger) (i : EntryIndex) :
    ((stamp l).entries i).payload = (l.entries i).payload := by
  rw [stamp_entries]
  split <;> rfl

theorem IdsDistinct.stamp {l : Ledger} (h : IdsDistinct l) : IdsDistinct (stamp l) := by
  intro i j hi hj hid
  rw [stamp_occupied] at hi hj
  rw [stamp_commandId, stamp_commandId] at hid
  exact h i j hi hj hid

theorem RedactedIn.stamp {id : List UInt8} {l : Ledger} (h : RedactedIn id l) :
    RedactedIn id (stamp l) := by
  intro i hi
  rw [stamp_commandId] at hi
  rw [stamp_payload]
  exact h i hi

end Invariants

variable [Sha256]

/-- The call, on the ledger in RAM and the slots, with the fault its `persist` meets. -/
def Call.perform (c : Call) (l : Ledger) (nvs : Slots Ledger) (f : LedgerFault) : Outcome :=
  match c with
  | accept incoming now mallocOk => (commandAccept l incoming now mallocOk nvs f).outcome
  | transition i state progress code mallocOk =>
    commandTransition l i state progress code mallocOk nvs f
  | acknowledgeResult id => commandAcknowledgeResult l id nvs f
  | reconcileBoot i state code text mallocOk =>
    commandReconcileBoot l i state code text mallocOk nvs f
  | zeroizePayload i => commandZeroizePayload l i nvs f

/-- The checks of the call pass, so that it gets as far as `persist`. -/
def Call.proceeds (c : Call) (l : Ledger) : Bool :=
  match c with
  | accept incoming _ mallocOk =>
    !acceptRefused incoming && (findDuplicate l incoming).isNone && (selectEntry l).isSome &&
      mallocOk
  | transition i state progress _ mallocOk =>
    (transitionRefused (l.entries i) state progress).isNone && mallocOk
  | acknowledgeResult id =>
    id.length = 36 &&
      match (List.finRange ledgerSize).find? fun i => (l.entries i).commandId.str = id with
      | none => false
      | some i => (l.entries i).state = .succeeded && (l.entries i).resultAckRequired
  | reconcileBoot i state _ text mallocOk =>
    !(decide (160 < text.length) || !reconcilable state || (l.entries i).state.terminal) && mallocOk
  | zeroizePayload i => (l.entries i).occupied

/-- The fields of a command that `pm_command_accept` compares; no other operation writes them. -/
def Command.identity (c : Command) : Bytes 37 × Bytes 101 × CommandType × Bytes 32 :=
  (c.commandId, c.idempotencyKey, c.type, c.payloadSha256)

/-- The ledgers hold the same commands, and a payload that is still there is the one that was. -/
structure SameIdentity (l l' : Ledger) : Prop where
  identity : ∀ j, (l'.entries j).identity = (l.entries j).identity
  payload : ∀ j, (l'.entries j).payloadRedacted = false →
    (l.entries j).payloadRedacted = false ∧ (l'.entries j).payload = (l.entries j).payload
  next : l'.next = l.next

omit [Sha256] in
theorem SameIdentity.refl (l : Ledger) : SameIdentity l l := ⟨fun _ => rfl, fun _ h => ⟨h, rfl⟩, rfl⟩

/-- What the ledger `l'` that the call hands to `persist` keeps of the ledger `l`. -/
structure Edit (c : Call) (l l' : Ledger) : Prop where
  generation : l'.generation = l.generation
  sound : c.ackDue = false → LedgerSound l → LedgerSound l'
  distinct : IdsDistinct l → IdsDistinct l'
  redacted : ∀ id, c.stores ≠ some id → RedactedIn id l → RedactedIn id l'
  same : c.stores = none → SameIdentity l l'
  progress : (∀ i, (l.entries i).progressPercent ≤ 100) → ∀ i, (l'.entries i).progressPercent ≤ 100

/-! ## Edits of one entry -/

section

variable {l : Ledger} {i : EntryIndex} {c : Command}

theorem LedgerSound.setEntry (h : LedgerSound l)
    (hc : c.occupied = true → Sound c = true) : LedgerSound (l.setEntry i c) := by
  refine ⟨h.next_lt, fun j hj => ?_⟩
  by_cases hij : j = i
  · subst hij
    simp only [Ledger.setEntry_entries, Function.update_self] at hj ⊢
    exact hc hj
  · simp only [Ledger.setEntry_entries, Function.update_of_ne hij] at hj ⊢
    exact h.sound j hj

/-- A change of one entry that keeps the identity, keeps the command sound and writes no payload. -/
theorem Edit.setEntry (call : Call) (hident : c.identity = (l.entries i).identity)
    (hsound : LedgerSound l → Sound (l.entries i) = true → Sound c = true)
    (hpay : (l.entries i).payload.cleared = true → c.payload.cleared = true)
    (hred : c.payloadRedacted = false →
      (l.entries i).payloadRedacted = false ∧ c.payload = (l.entries i).payload)
    (hprog : (l.entries i).progressPercent ≤ 100 → c.progressPercent ≤ 100) :
    Edit call l (l.setEntry i c) := by
  have hid : c.commandId = (l.entries i).commandId := congrArg Prod.fst hident
  refine ⟨rfl, fun _ h => ?_, fun h => ?_, fun id _ h => ?_,
    fun _ => ⟨fun j => ?_, fun j hj => ?_, rfl⟩, fun h j => ?_⟩
  · exact h.setEntry fun ho => hsound h (h.sound i (by simpa [Command.occupied, hid] using ho))
  · have key : ∀ j, ((l.setEntry i c).entries j).commandId = (l.entries j).commandId := by
      intro j
      by_cases hij : j = i
      · subst hij; simpa using hid
      · simp [Function.update_of_ne hij]
    intro j k hj hk hjk
    simp only [Command.occupied, key] at hj hk hjk
    exact h j k hj hk hjk
  · intro j hj
    by_cases hij : j = i
    · subst hij
      simp only [Ledger.setEntry_entries, Function.update_self] at hj ⊢
      rw [hid] at hj
      exact hpay (h j hj)
    · simp only [Ledger.setEntry_entries, Function.update_of_ne hij] at hj ⊢
      exact h j hj
  · by_cases hij : j = i
    · subst hij; simpa using hident
    · simp [Function.update_of_ne hij]
  · by_cases hij : j = i
    · subst hij
      simp only [Ledger.setEntry_entries, Function.update_self] at hj ⊢
      exact hred hj
    · simp only [Ledger.setEntry_entries, Function.update_of_ne hij] at hj ⊢
      exact ⟨hj, trivial⟩
  · by_cases hij : j = i
    · subst hij; simpa using hprog (h j)
    · simpa [Function.update_of_ne hij] using h j

end

/-! ## Undoing -/

/-- What `persist` leaves in RAM differs from what it was given in the checksums, the generation
and nothing else. -/
theorem persist_ledger (l : Ledger) (nvs : Slots Ledger) (f : LedgerFault) :
    (persist l nvs f).ledger = stamp l ∨
      (l.generation = uint32Max ∧ (persist l nvs f).ledger = l) := by
  rcases persist_cases l nvs f with ⟨hm, h⟩ | h | ⟨e, r, -, h⟩ | ⟨e, -, h⟩ <;> rw [h]
  · exact .inr ⟨hm, rfl⟩
  all_goals exact .inl rfl

/-- What a failed change of entry `i` puts back over `after`: the entry, the ring index, the
generation and the checksum. -/
def restoreEntry (before after : Ledger) (i : EntryIndex) : Ledger :=
  { after.setEntry i (before.entries i) with
    next := before.next, generation := before.generation, crc32 := before.crc32 }

omit [Sha256] in
/-- What is put back restores the ledger, unless an outdated checksum of another entry was brought
up to date in between. -/
theorem restoreEntry_eq {l l' m : Ledger} {i : EntryIndex}
    (hrest : ∀ j, j ≠ i → l'.entries j = l.entries j)
    (hm : (CrcsCurrent l ∧ m.entries = (stamp l').entries) ∨ m.entries = l'.entries) :
    restoreEntry l m i = l := by
  have hkept : ∀ j, j ≠ i → m.entries j = l.entries j := by
    intro j hj
    rcases hm with ⟨hcur, hm⟩ | hm <;> rw [hm]
    · rw [stamp_entries, hrest j hj]
      split
      · next ho => rw [← hcur j ho]
      · rfl
    · exact hrest j hj
  obtain ⟨entries, generation, next, crc32⟩ := l
  simp only [restoreEntry, Ledger.setEntry, Ledger.mk.injEq, and_true]
  funext j
  by_cases hj : j = i
  · subst hj; simp
  · rw [Function.update_of_ne hj]
    exact hkept j hj

/-- The checksums of the ledger in RAM are current, or it will never be written again. -/
def Settled (l : Ledger) : Prop := CrcsCurrent l ∨ l.generation = uint32Max

theorem Settled.persist_entries {l m : Ledger} (h : Settled l) (hg : m.generation = l.generation)
    (nvs : Slots Ledger) (f : LedgerFault) :
    (CrcsCurrent l ∧ (persist m nvs f).ledger.entries = (stamp m).entries) ∨
      (persist m nvs f).ledger.entries = m.entries := by
  rcases h with h | h
  · rcases persist_ledger m nvs f with hp | ⟨-, hp⟩ <;> rw [hp]
    · exact .inl ⟨h, rfl⟩
    · exact .inr rfl
  · rw [persist, if_pos (hg.trans h)]
    exact .inr rfl

theorem persist_next (l : Ledger) (nvs : Slots Ledger) (f : LedgerFault) :
    (persist l nvs f).ledger.next = l.next := by
  rcases persist_ledger l nvs f with h | ⟨-, h⟩ <;> rw [h]
  rfl

/-- The operations that do not move the ring index do not put it back either. -/
theorem undoEntry_eq_restoreEntry (l : Ledger) (i : EntryIndex) (c : Command) (nvs : Slots Ledger)
    (f : LedgerFault) :
    undoEntry l (persist (l.setEntry i c) nvs f).ledger i =
      restoreEntry l (persist (l.setEntry i c) nvs f).ledger i := by
  have hnext : (persist (l.setEntry i c) nvs f).ledger.next = l.next := persist_next _ nvs f
  simp only [undoEntry, restoreEntry, Ledger.mk.injEq, and_true, true_and]
  exact hnext

/-- The fields an acknowledgement puts back are all the fields it changed. -/
theorem undoAcknowledge_eq {l : Ledger} {i : EntryIndex}
    (h : (l.entries i).resultAckRequired = true) (nvs : Slots Ledger) (f : LedgerFault) :
    undoAcknowledge l
        (persist (l.setEntry i { l.entries i with resultAckRequired := false }) nvs f).ledger i =
      undoEntry l
        (persist (l.setEntry i { l.entries i with resultAckRequired := false }) nvs f).ledger i := by
  have hentry : ∀ m : Ledger, (m = stamp (l.setEntry i { l.entries i with resultAckRequired := false })
      ∨ m = l.setEntry i { l.entries i with resultAckRequired := false }) →
      ({ m.entries i with resultAckRequired := true, crc32 := (l.entries i).crc32 } : Command) =
        l.entries i := by
    rintro m (rfl | rfl)
    · rw [stamp_entries, Ledger.setEntry_entries, Function.update_self]
      split <;> rw [← h]
    · rw [Ledger.setEntry_entries, Function.update_self, ← h]
  rw [undoAcknowledge, undoEntry, hentry]
  exact (persist_ledger _ nvs f).imp_right And.right

/-- `pm_command_acknowledge_result` undoes its change like the other operations. -/
theorem acknowledge_eq_persistEntry {l : Ledger} {i : EntryIndex}
    (h : (l.entries i).resultAckRequired = true) (nvs : Slots Ledger) (f : LedgerFault) :
    let p := persist (l.setEntry i { l.entries i with resultAckRequired := false }) nvs f
    (⟨p.result, if p.result = some .ok then p.ledger else undoAcknowledge l p.ledger i, p.nvs,
        some p⟩ : Outcome) =
      persistEntry l i { l.entries i with resultAckRequired := false } nvs f := by
  dsimp only
  rw [undoAcknowledge_eq h]
  rfl

/-! ## The calls -/

/-- What a call whose `persist` was given `l'` does: its slots are those of the persist, and its
ledger is that of the persist, except that a failure other than that of a redaction puts back what
it changed of the ledger `l`. -/
structure Performed (c : Call) (l l' : Ledger) (nvs : Slots Ledger) (f : LedgerFault)
    (o : Outcome) : Prop where
  edit : Edit c l l'
  persisted : o.persisted = some (persist l' nvs f)
  nvs_eq : o.nvs = (persist l' nvs f).nvs
  lost : o.result = none ↔ (persist l' nvs f).result = none
  answer : c.stores = none → o.result = (persist l' nvs f).result
  kept : (persist l' nvs f).result = some .ok ∨ c.redacts = true →
    o.ledger = (persist l' nvs f).ledger
  restored : (persist l' nvs f).result ≠ some .ok → c.redacts = false →
    ∃ i, (∀ j, j ≠ i → l'.entries j = l.entries j) ∧
      o.ledger = restoreEntry l (persist l' nvs f).ledger i
  cleared : LedgerSound l → IdsDistinct l → ∀ id, c.redactedIn l = some id → RedactedIn id l'

/-- A call is refused and changes nothing, or its checks pass and it persists an edited ledger. -/
def Outline (c : Call) (l : Ledger) (nvs : Slots Ledger) (f : LedgerFault) (o : Outcome) : Prop :=
  (c.proceeds l = false ∧ ∃ e, o = refuse e l nvs) ∨
    (c.proceeds l = true ∧ ∃ l', Performed c l l' nvs f o)

/-- Over current checksums a failed call leaves the ledger as it was. -/
theorem Performed.undone {c : Call} {l l' : Ledger} {nvs : Slots Ledger} {f : LedgerFault}
    {o : Outcome} (hp : Performed c l l' nvs f o) (hfail : (persist l' nvs f).result ≠ some .ok)
    (hc : c.redacts = false) (hset : Settled l) : o.ledger = l := by
  obtain ⟨i, hrest, ho⟩ := hp.restored hfail hc
  rw [ho]
  exact restoreEntry_eq hrest (hset.persist_entries hp.edit.generation nvs f)

/-- A call that changes one entry and undoes the change on failure. -/
theorem Performed.entry {c : Call} {l : Ledger} {i : EntryIndex} {e : Command}
    (he : Edit c l (l.setEntry i e)) (hc : c.redacts = false) (nvs : Slots Ledger)
    (f : LedgerFault) : Performed c l (l.setEntry i e) nvs f (persistEntry l i e nvs f) where
  edit := he
  persisted := rfl
  nvs_eq := rfl
  lost := Iff.rfl
  answer _ := rfl
  kept h := by
    rcases h with h | h
    · exact if_pos h
    · rw [hc] at h; cases h
  restored h _ := by
    refine ⟨i, fun j hj => Function.update_of_ne hj _ _, ?_⟩
    rw [persistEntry, if_neg h]
    exact undoEntry_eq_restoreEntry l i e nvs f
  cleared _ _ id hid := by
    cases c with
    | zeroizePayload j => cases hc
    | _ => cases hid

theorem sound_accepted {incoming : Command} {now : ℤ} (h : acceptRefused incoming = false)
    (hack : incoming.resultAckRequired = false) : Sound (acceptedCommand incoming now) = true := by
  simp only [acceptRefused, Bool.or_eq_false_iff, Bool.not_eq_false'] at h
  obtain ⟨⟨⟨-, -⟩, htype⟩, hterm⟩ := h
  have hstate : ((if now > incoming.expiresUtcMs then CommandState.expired
      else .accepted).inRange) = true := by split <;> rfl
  simp [Sound, acceptedCommand, payloadValid, htype, hterm, hstate, hack]

/-- A stored command with an acknowledgement due is refused by the loader, whatever its checksum. -/
theorem not_sound_accepted {incoming : Command} {now : ℤ} (hack : incoming.resultAckRequired = true) :
    Sound (acceptedCommand incoming now) = false := by
  have hstate : (acceptedCommand incoming now).state ≠ .succeeded := by
    simp only [acceptedCommand]
    split <;> decide
  have hreq : (acceptedCommand incoming now).resultAckRequired = true := hack
  simp [Sound, hreq, hstate]

omit [Sha256] in
theorem findDuplicate_none {l : Ledger} {incoming : Command}
    (h : findDuplicate l incoming = none) (i : EntryIndex) :
    (l.entries i).commandId.str ≠ incoming.commandId.str ∧
      (l.entries i).idempotencyKey.str ≠ incoming.idempotencyKey.str := by
  have := List.find?_eq_none.1 h i (List.mem_finRange i)
  simpa [sameCommand] using this

/-- Storing a new command: it is sound unless an acknowledgement is due, and no entry has its
identity. -/
theorem Edit.storeCommand {l : Ledger} {incoming : Command} (now : ℤ) (mallocOk : Bool)
    (i : EntryIndex) (hok : acceptRefused incoming = false)
    (hdup : findDuplicate l incoming = none) :
    Edit (.accept incoming now mallocOk) l (storeCommand l i (acceptedCommand incoming now)) where
  generation := rfl
  sound hack h :=
    ⟨Nat.mod_lt _ (by decide), (h.setEntry fun _ => sound_accepted hok hack).sound⟩
  distinct h := by
    intro j k hj hk hjk
    by_cases hji : j = i <;> by_cases hki : k = i
    · rw [hji, hki]
    · subst hji
      simp only [Commands.storeCommand, Ledger.setEntry, Function.update_self,
        Function.update_of_ne hki] at hjk
      exact absurd hjk.symm (findDuplicate_none hdup k).1
    · subst hki
      simp only [Commands.storeCommand, Ledger.setEntry, Function.update_self,
        Function.update_of_ne hji] at hjk
      exact absurd hjk (findDuplicate_none hdup j).1
    · simp only [Commands.storeCommand, Ledger.setEntry, Function.update_of_ne hji,
        Function.update_of_ne hki] at hj hk hjk
      exact h j k hj hk hjk
  redacted id hid h := by
    intro j hj
    by_cases hji : j = i
    · subst hji
      simp only [Commands.storeCommand, Ledger.setEntry, Function.update_self] at hj
      exact absurd (congrArg some hj) hid
    · simp only [Commands.storeCommand, Ledger.setEntry, Function.update_of_ne hji] at hj ⊢
      exact h j hj
  same h := by cases h
  progress h j := by
    by_cases hji : j = i
    · subst hji
      simp [Commands.storeCommand, acceptedCommand]
    · simpa [Commands.storeCommand, Function.update_of_ne hji] using h j

/-- **What `pm_command_accept` can do**: it refuses the command, it finds it in the ledger, or it
persists it in the entry `selectEntry` chose and keeps it there if that succeeds. -/
inductive AcceptCase (l : Ledger) (incoming : Command) (now : ℤ) (mallocOk : Bool)
    (nvs : Slots Ledger) (f : LedgerFault) : Accepted → Prop
  | refused (e : EspErr) (he : e ≠ .ok)
      (hstop : (!acceptRefused incoming && (findDuplicate l incoming).isNone &&
        (selectEntry l).isSome && mallocOk) = false) :
      AcceptCase l incoming now mallocOk nvs f ⟨refuse e l nvs, none, false⟩
  | found (i : EntryIndex) (hok : acceptRefused incoming = false)
      (hdup : findDuplicate l incoming = some i) :
      AcceptCase l incoming now mallocOk nvs f ⟨refuse .ok l nvs, some i, true⟩
  | stored (i : EntryIndex) (hok : acceptRefused incoming = false)
      (hdup : findDuplicate l incoming = none) (hsel : selectEntry l = some i)
      (hm : mallocOk = true) (p : Persisted)
      (hp : persist (storeCommand l i (acceptedCommand incoming now)) nvs f = p)
      (hres : p.result = some .ok) :
      AcceptCase l incoming now mallocOk nvs f
        ⟨⟨some (if (acceptedCommand incoming now).state = .expired then .timeout else .ok),
          p.ledger, p.nvs, some p⟩, some i, false⟩
  | undone (i : EntryIndex) (hok : acceptRefused incoming = false)
      (hdup : findDuplicate l incoming = none) (hsel : selectEntry l = some i)
      (hm : mallocOk = true) (p : Persisted)
      (hp : persist (storeCommand l i (acceptedCommand incoming now)) nvs f = p)
      (hres : p.result ≠ some .ok) :
      AcceptCase l incoming now mallocOk nvs f
        ⟨⟨p.result, restoreEntry l p.ledger i, p.nvs, some p⟩, none, false⟩

theorem commandAccept_cases (l : Ledger) (incoming : Command) (now : ℤ) (mallocOk : Bool)
    (nvs : Slots Ledger) (f : LedgerFault) :
    AcceptCase l incoming now mallocOk nvs f (commandAccept l incoming now mallocOk nvs f) := by
  unfold commandAccept
  split
  next hok => exact .refused _ (by decide) (by simp [hok])
  next hok =>
  have hok : acceptRefused incoming = false := by simpa using hok
  split
  next j hdup =>
    split
    · exact .found j hok hdup
    · exact .refused _ (by decide) (by simp [hdup])
  next hdup =>
  split
  next hsel => exact .refused _ (by decide) (by simp [hsel])
  next i hsel =>
  split
  next hm => exact .refused _ (by decide) (by simpa [hok, hdup, hsel] using hm)
  next hm =>
  have hm : mallocOk = true := by simpa using hm
  dsimp only
  split
  next hres => exact .stored i hok hdup hsel hm _ rfl hres
  next hres => exact .undone i hok hdup hsel hm _ rfl hres

theorem accept_cases (l : Ledger) (incoming : Command) (now : ℤ) (mallocOk : Bool)
    (nvs : Slots Ledger) (f : LedgerFault) :
    Outline (.accept incoming now mallocOk) l nvs f
      (commandAccept l incoming now mallocOk nvs f).outcome := by
  have hcase := commandAccept_cases l incoming now mallocOk nvs f
  generalize commandAccept l incoming now mallocOk nvs f = a at hcase ⊢
  cases hcase with
  | refused e _ hstop => exact .inl ⟨hstop, e, rfl⟩
  | found i _ hdup => exact .inl ⟨by simp [Call.proceeds, hdup], _, rfl⟩
  | stored i hok hdup hsel hm p hp hres =>
    subst hp
    refine .inr ⟨by simp [Call.proceeds, hok, hdup, hsel, hm],
      storeCommand l i (acceptedCommand incoming now), ?_⟩
    exact ⟨Edit.storeCommand now mallocOk i hok hdup, rfl, rfl, by simp [hres],
      fun h => (by cases h), fun _ => rfl, fun h => absurd hres h, fun _ _ _ h => by cases h⟩
  | undone i hok hdup hsel hm p hp hres =>
    subst hp
    refine .inr ⟨by simp [Call.proceeds, hok, hdup, hsel, hm],
      storeCommand l i (acceptedCommand incoming now), ?_⟩
    refine ⟨Edit.storeCommand now mallocOk i hok hdup, rfl, rfl, Iff.rfl, fun _ => rfl, fun h => ?_,
      fun _ _ => ?_, fun _ _ _ h => by cases h⟩
    · rcases h with h | h
      · exact absurd h hres
      · cases h
    · exact ⟨i, fun j hj => Function.update_of_ne hj _ _, rfl⟩

/-- A command stays sound under a change of state once no acknowledgement is due. -/
theorem sound_of_state {c c' : Command} (hs : Sound c = true) (htype : c'.type = c.type)
    (hstate : c'.state.inRange = true) (hprog : c'.progressPercent ≤ 100)
    (hack : c'.resultAckRequired = true → c'.state = .succeeded)
    (hpay : payloadValid c' = payloadValid c) : Sound c' = true := by
  simp only [Sound, Bool.and_eq_true, Bool.or_eq_true, Bool.not_eq_true', decide_eq_true_eq] at hs ⊢
  refine ⟨⟨⟨⟨htype ▸ hs.1.1.1.1, hstate⟩, hprog⟩, ?_⟩, hpay ▸ hs.2⟩
  cases h : c'.resultAckRequired
  · exact .inl rfl
  · exact .inr (hack h)

/-- While an acknowledgement is due, the command has succeeded. -/
theorem succeeded_of_ackRequired {c : Command} (hs : Sound c = true)
    (h : c.resultAckRequired = true) : c.state = .succeeded := by
  simp only [Sound, Bool.and_eq_true, Bool.or_eq_true, Bool.not_eq_true', decide_eq_true_eq] at hs
  rcases hs.1.2 with h' | h'
  · rw [h] at h'; cases h'
  · exact h'

theorem transition_cases (l : Ledger) (i : EntryIndex) (state : CommandState) (progress : ℕ)
    (code : ℤ) (mallocOk : Bool) (nvs : Slots Ledger) (f : LedgerFault) :
    Outline (.transition i state progress code mallocOk) l nvs f
      (commandTransition l i state progress code mallocOk nvs f) := by
  unfold commandTransition
  split
  next e href => exact .inl ⟨by simp [Call.proceeds, href], _, rfl⟩
  next href =>
  split
  next hm => exact .inl ⟨by simpa [Call.proceeds, href] using hm, _, rfl⟩
  next hm =>
  refine .inr ⟨by simpa [Call.proceeds, href] using hm, _, Performed.entry ?_ rfl nvs f⟩
  simp only [transitionRefused, Bool.or_eq_true, Bool.and_eq_true, Bool.not_eq_true',
    decide_eq_true_eq] at href
  split at href
  · cases href
  next hargs =>
  push Not at hargs
  obtain ⟨⟨hrange, hle⟩, -⟩ := hargs
  split at href
  · cases href
  next hfin =>
  refine Edit.setEntry _ rfl (fun _ hs => ?_) (fun h => h) (fun h => ⟨h, rfl⟩) fun _ => hle
  refine sound_of_state hs rfl (by simpa using hrange) hle (fun hack => ?_) rfl
  -- an acknowledgement is due only in `succeeded`, which no transition leaves
  have hsucc := succeeded_of_ackRequired hs hack
  by_contra hne
  exact hfin ⟨by rw [hsucc]; rfl, by simpa [hsucc] using hne⟩

theorem acknowledge_cases (l : Ledger) (id : List UInt8) (nvs : Slots Ledger) (f : LedgerFault) :
    Outline (.acknowledgeResult id) l nvs f (commandAcknowledgeResult l id nvs f) := by
  unfold commandAcknowledgeResult
  split
  next hlen => exact .inl ⟨by simp [Call.proceeds, hlen], _, rfl⟩
  next hlen =>
  split
  next hfind => exact .inl ⟨by simp [Call.proceeds, hfind], _, rfl⟩
  next i hfind =>
  split
  next hs => exact .inl ⟨by simp [Call.proceeds, hfind, hs], _, rfl⟩
  next hs =>
  split
  next ha => exact .inl ⟨by simp [Call.proceeds, hfind, Bool.not_eq_true' _ ▸ ha], _, rfl⟩
  next ha =>
  have ha : (l.entries i).resultAckRequired = true := by simpa using ha
  rw [acknowledge_eq_persistEntry ha]
  refine .inr ⟨by simpa [Call.proceeds, hfind, not_not.1 hlen, not_not.1 hs] using ha, _,
    Performed.entry ?_ rfl nvs f⟩
  refine Edit.setEntry _ rfl (fun _ hs => ?_) (fun h => h) (fun h => ⟨h, rfl⟩) fun h => h
  simp only [Sound, Bool.and_eq_true, Bool.or_eq_true, decide_eq_true_eq] at hs ⊢
  exact ⟨⟨hs.1.1, .inl rfl⟩, hs.2⟩

theorem reconcile_cases (l : Ledger) (i : EntryIndex) (state : CommandState) (code : ℤ)
    (text : List UInt8) (mallocOk : Bool) (nvs : Slots Ledger) (f : LedgerFault) :
    Outline (.reconcileBoot i state code text mallocOk) l nvs f
      (commandReconcileBoot l i state code text mallocOk nvs f) := by
  unfold commandReconcileBoot
  split
  next hargs => exact .inl ⟨by simp only [Call.proceeds, hargs]; rfl, _, rfl⟩
  next hargs =>
  split
  next hm =>
    refine .inl ⟨?_, _, rfl⟩
    simp only [Call.proceeds, Bool.not_eq_true' _ ▸ hm, Bool.and_false]
  next hm =>
  have hm : mallocOk = true := by simpa using hm
  refine .inr ⟨by simp only [Call.proceeds, hargs, hm]; rfl, _, Performed.entry ?_ rfl nvs f⟩
  simp only [Bool.or_eq_true, not_or, Bool.not_eq_true', Bool.not_eq_false,
    Bool.not_eq_true] at hargs
  obtain ⟨⟨-, hrec⟩, hterm⟩ := hargs
  have hprog : (l.entries i).progressPercent ≤ 100 →
      (if state = .succeeded then 100 else (l.entries i).progressPercent) ≤ 100 := by
    intro h
    split
    · exact le_rfl
    · exact h
  refine Edit.setEntry _ rfl (fun _ hs => ?_) (fun h => h) (fun h => ⟨h, rfl⟩) hprog
  have hle : (l.entries i).progressPercent ≤ 100 := by
    simp only [Sound, Bool.and_eq_true, decide_eq_true_eq] at hs
    exact hs.1.1.2
  refine sound_of_state hs rfl ?_ (hprog hle) (fun hack => ?_) rfl
  · cases state <;> first | rfl | cases hrec
  · rw [succeeded_of_ackRequired hs hack] at hterm
    cases hterm

theorem zeroize_cases (l : Ledger) (i : EntryIndex) (nvs : Slots Ledger) (f : LedgerFault) :
    Outline (.zeroizePayload i) l nvs f (commandZeroizePayload l i nvs f) := by
  unfold commandZeroizePayload
  split
  next hocc => exact .inl ⟨by simpa [Call.proceeds] using hocc, _, rfl⟩
  next hocc =>
  simp only [Bool.not_eq_true', Bool.not_eq_false] at hocc
  refine .inr ⟨hocc, ?_⟩
  -- no other entry has the identity of entry `i`
  have hsole : IdsDistinct l → ∀ j, (l.entries j).commandId.str = (l.entries i).commandId.str →
      j = i := fun hd j hj => hd j i ((occupied_iff_str_ne_nil _).2
        (hj ▸ (occupied_iff_str_ne_nil _).1 hocc)) hocc hj
  have hperf : ∀ l', Edit (.zeroizePayload i) l l' →
      (LedgerSound l → IdsDistinct l → RedactedIn (l.entries i).commandId.str l') →
      Performed (.zeroizePayload i) l l' nvs f
        ⟨(persist l' nvs f).result, (persist l' nvs f).ledger, (persist l' nvs f).nvs,
          some (persist l' nvs f)⟩ := fun l' he hred =>
    ⟨he, rfl, rfl, Iff.rfl, fun _ => rfl, fun _ => rfl, fun _ h => (by cases h),
      fun hs hd id hid => Option.some.inj hid ▸ hred hs hd⟩
  split
  next hred =>
    refine ⟨l, hperf l ⟨rfl, fun _ h => h, id, fun _ _ h => h, fun _ => .refl l, id⟩
      fun hs hd j hj => ?_⟩
    obtain rfl := hsole hd j hj
    have := hs.sound j hocc
    simp only [Sound, payloadValid, Bool.and_eq_true, hred, if_true] at this
    exact this.2.2
  next hred =>
    refine ⟨_, hperf _ (Edit.setEntry _ rfl (fun _ hs => ?_) (fun _ => by simp) nofun fun h => h)
      fun _ hd j hj => ?_⟩
    · simp only [Sound, payloadValid, Bool.and_eq_true, if_true] at hs ⊢
      exact ⟨hs.1, by simp⟩
    · by_cases hji : j = i
      · subst hji; simp
      · simp only [Ledger.setEntry_entries, Function.update_of_ne hji] at hj
        exact absurd (hsole hd j hj) hji

/-- **What a ledger call can do.** -/
theorem Call.perform_cases (c : Call) (l : Ledger) (nvs : Slots Ledger) (f : LedgerFault) :
    Outline c l nvs f (c.perform l nvs f) := by
  cases c with
  | accept incoming now mallocOk => exact accept_cases l incoming now mallocOk nvs f
  | transition i state progress code mallocOk =>
    exact transition_cases l i state progress code mallocOk nvs f
  | acknowledgeResult id => exact acknowledge_cases l id nvs f
  | reconcileBoot i state code text mallocOk =>
    exact reconcile_cases l i state code text mallocOk nvs f
  | zeroizePayload i => exact zeroize_cases l i nvs f

end PowerMonitor.Commands
