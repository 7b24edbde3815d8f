import PowerMonitor.Commands.Calls

/-!
# What a ledger call does to the entries in RAM

Tasks hold pointers to entries while other tasks work on the ledger, so what matters to them is
which entries a call leaves alone. Every persist recomputes the checksums, and `result_text` is
written without one, so the statements are about entries without their checksum (`Command.bare`).

Each operation has one lemma: the entries it does not own keep their content, and its own entry has
the new content exactly when the operation returned `ESP_OK`.
-/

namespace PowerMonitor.Commands

open CMemory AbStore

/-- A command without its checksum. -/
def Command.bare (c : Command) : Command := { c with crc32 := 0 }

namespace Command

variable {c d : Command}

theorem eq_of_bare {α : Type} {f : Command → α} (hf : ∀ c : Command, f c.bare = f c)
    (h : c.bare = d.bare) : f c = f d := by
  rw [← hf c, h, hf]

theorem commandId_of_bare (h : c.bare = d.bare) : c.commandId = d.commandId :=
  eq_of_bare (fun _ => rfl) h

theorem type_of_bare (h : c.bare = d.bare) : c.type = d.type := eq_of_bare (fun _ => rfl) h

theorem state_of_bare (h : c.bare = d.bare) : c.state = d.state := eq_of_bare (fun _ => rfl) h

theorem payload_of_bare (h : c.bare = d.bare) : c.payload = d.payload := eq_of_bare (fun _ => rfl) h

theorem occupied_of_bare (h : c.bare = d.bare) : c.occupied = d.occupied := by
  rw [occupied, occupied, commandId_of_bare h]

end Command

@[simp] theorem stamp_bare (l : Ledger) (i : EntryIndex) :
    ((stamp l).entries i).bare = (l.entries i).bare := by
  rw [stamp_entries]
  split <;> rfl

/-- The ledgers agree on every entry but `i`. -/
def SameBut (i : EntryIndex) (l l' : Ledger) : Prop :=
  ∀ j, j ≠ i → (l'.entries j).bare = (l.entries j).bare

/-- The ledgers agree on every entry. -/
def SameEntries (l l' : Ledger) : Prop := ∀ j, (l'.entries j).bare = (l.entries j).bare

/-- The ledgers hold the same commands, and only entries in `p` may have changed their state. -/
structure SameCommands (p : EntryIndex → Prop) (l l' : Ledger) : Prop where
  commandId : ∀ j, (l'.entries j).commandId = (l.entries j).commandId
  type : ∀ j, (l'.entries j).type = (l.entries j).type
  payload : ∀ j, (l'.entries j).payload = (l.entries j).payload
  state : ∀ j, ¬p j → (l'.entries j).state = (l.entries j).state

theorem SameCommands.refl (p : EntryIndex → Prop) (l : Ledger) : SameCommands p l l :=
  ⟨fun _ => rfl, fun _ => rfl, fun _ => rfl, fun _ _ => rfl⟩

theorem SameEntries.refl (l : Ledger) : SameEntries l l := fun _ => rfl

variable [Sha256]

@[simp] theorem persist_bare (l : Ledger) (nvs : Slots Ledger) (f : LedgerFault) (i : EntryIndex) :
    ((persist l nvs f).ledger.entries i).bare = (l.entries i).bare := by
  rcases persist_ledger l nvs f with h | ⟨-, h⟩ <;> rw [h]
  exact stamp_bare l i

/-- A change of entry `i` to `c`: made when the call returned `ESP_OK`, and undone otherwise. -/
structure Changed (l : Ledger) (i : EntryIndex) (c : Command) (o : Outcome) : Prop where
  rest : SameBut i l o.ledger
  done : o.result = some .ok → (o.ledger.entries i).bare = c.bare
  undone : o.result ≠ some .ok → (o.ledger.entries i).bare = (l.entries i).bare

theorem changed_persistEntry (l : Ledger) (i : EntryIndex) (c : Command) (nvs : Slots Ledger)
    (f : LedgerFault) : Changed l i c (persistEntry l i c nvs f) := by
  have hset : ∀ j, ((persist (l.setEntry i c) nvs f).ledger.entries j).bare =
      ((l.setEntry i c).entries j).bare := persist_bare _ nvs f
  refine ⟨fun j hj => ?_, fun h => ?_, fun h => ?_⟩ <;> dsimp only [persistEntry] at *
  · split
    · rw [hset, Ledger.setEntry_entries, Function.update_of_ne hj]
    · simp only [undoEntry, Ledger.setEntry_entries, Function.update_of_ne hj, hset]
  · rw [if_pos h, hset]
    simp
  · rw [if_neg h]
    simp [undoEntry]

omit [Sha256] in
/-- A change that leaves the command the same one. -/
theorem Changed.sameCommands {l : Ledger} {i : EntryIndex} {c : Command} {o : Outcome}
    (h : Changed l i c o) (hid : c.commandId = (l.entries i).commandId)
    (htype : c.type = (l.entries i).type) (hpayload : c.payload = (l.entries i).payload) :
    SameCommands (· = i) l o.ledger := by
  have hkept : ∀ j, (o.ledger.entries j).commandId = (l.entries j).commandId ∧
      (o.ledger.entries j).type = (l.entries j).type ∧
      (o.ledger.entries j).payload = (l.entries j).payload := by
    intro j
    have hsame : ∀ {d : Command}, (o.ledger.entries j).bare = d.bare →
        (o.ledger.entries j).commandId = d.commandId ∧ (o.ledger.entries j).type = d.type ∧
          (o.ledger.entries j).payload = d.payload := fun hb =>
      ⟨Command.commandId_of_bare hb, Command.type_of_bare hb, Command.payload_of_bare hb⟩
    by_cases hj : j = i
    · subst hj
      by_cases hok : o.result = some .ok
      · obtain ⟨h₁, h₂, h₃⟩ := hsame (h.done hok)
        exact ⟨h₁.trans hid, h₂.trans htype, h₃.trans hpayload⟩
      · exact hsame (h.undone hok)
    · exact hsame (h.rest j hj)
  exact ⟨fun j => (hkept j).1, fun j => (hkept j).2.1, fun j => (hkept j).2.2,
    fun j hj => Command.state_of_bare (h.rest j hj)⟩

omit [Sha256] in
/-- A refused call is undone before it began. -/
theorem changed_refuse {l : Ledger} {e : EspErr} (he : e ≠ .ok) (i : EntryIndex) (c : Command)
    (nvs : Slots Ledger) : Changed l i c (refuse e l nvs) :=
  ⟨fun _ _ => rfl, fun h => absurd (Option.some.inj h) he, fun _ => rfl⟩

/-- The entry a transition writes. -/
def transitioned (c : Command) (state : CommandState) (progressPercent : ℕ) (resultCode : ℤ) :
    Command :=
  { c with state := state, progressPercent := progressPercent, resultCode := resultCode }

omit [Sha256] in
theorem transitionRefused_ne_ok {c : Command} {state : CommandState} {progress : ℕ} {e : EspErr}
    (h : transitionRefused c state progress = some e) : e ≠ .ok := by
  unfold transitionRefused at h
  split at h
  · obtain rfl := Option.some.inj h
    decide
  split at h
  · obtain rfl := Option.some.inj h
    decide
  · cases h

/-- **`pm_command_transition`** changes its own entry when it returns `ESP_OK`. -/
theorem changed_transition (l : Ledger) (i : EntryIndex) (state : CommandState) (progress : ℕ)
    (code : ℤ) (mallocOk : Bool) (nvs : Slots Ledger) (f : LedgerFault) :
    Changed l i (transitioned (l.entries i) state progress code)
      (commandTransition l i state progress code mallocOk nvs f) := by
  unfold commandTransition
  split
  next e he => exact changed_refuse (transitionRefused_ne_ok he) _ _ _
  split
  · exact changed_refuse (by decide) _ _ _
  · exact changed_persistEntry l i _ nvs f

/-- A change of entry `i` that leaves its command the same one: only its progress, its result and
its state change, and the state to `state` if at all. -/
structure Edits (i : EntryIndex) (state : CommandState) (l l' : Ledger) : Prop where
  rest : SameBut i l l'
  commandId : (l'.entries i).commandId = (l.entries i).commandId
  type : (l'.entries i).type = (l.entries i).type
  payload : (l'.entries i).payload = (l.entries i).payload
  moved : (l'.entries i).state = (l.entries i).state ∨ (l'.entries i).state = state

omit [Sha256] in
theorem Edits.refl (i : EntryIndex) (state : CommandState) (l : Ledger) : Edits i state l l :=
  ⟨fun _ _ => rfl, rfl, rfl, rfl, .inl rfl⟩

omit [Sha256] in
theorem Edits.trans {i : EntryIndex} {state : CommandState} {l₁ l₂ l₃ : Ledger}
    (h₁ : Edits i state l₁ l₂) (h₂ : Edits i state l₂ l₃) : Edits i state l₁ l₃ where
  rest j hj := (h₂.rest j hj).trans (h₁.rest j hj)
  commandId := h₂.commandId.trans h₁.commandId
  type := h₂.type.trans h₁.type
  payload := h₂.payload.trans h₁.payload
  moved := by
    rcases h₂.moved with h | h
    · exact h₁.moved.imp h.trans h.trans
    · exact .inr h

omit [Sha256] in
/-- An edit leaves every entry with its command. -/
theorem Edits.command {i : EntryIndex} {state : CommandState} {l l' : Ledger}
    (h : Edits i state l l') (j : EntryIndex) :
    (l'.entries j).commandId = (l.entries j).commandId ∧
      (l'.entries j).type = (l.entries j).type ∧ (l'.entries j).payload = (l.entries j).payload := by
  by_cases hj : j = i
  · subst hj
    exact ⟨h.commandId, h.type, h.payload⟩
  · have := h.rest j hj
    exact ⟨Command.commandId_of_bare this, Command.type_of_bare this, Command.payload_of_bare this⟩

omit [Sha256] in
theorem Edits.sameCommands {i : EntryIndex} {state : CommandState} {l l' : Ledger}
    (h : Edits i state l l') {p : EntryIndex → Prop} (hp : p i) : SameCommands p l l' :=
  ⟨fun j => (h.command j).1, fun j => (h.command j).2.1, fun j => (h.command j).2.2,
    fun j hj => Command.state_of_bare (h.rest j fun hji => hj (hji ▸ hp))⟩

theorem edits_transition (l : Ledger) (i : EntryIndex) (state : CommandState) (progress : ℕ)
    (code : ℤ) (mallocOk : Bool) (nvs : Slots Ledger) (f : LedgerFault) :
    Edits i state l (commandTransition l i state progress code mallocOk nvs f).ledger := by
  have h := changed_transition l i state progress code mallocOk nvs f
  by_cases hok : (commandTransition l i state progress code mallocOk nvs f).result = some .ok
  · have hid := Command.commandId_of_bare (h.done hok)
    have htype := Command.type_of_bare (h.done hok)
    have hpayload := Command.payload_of_bare (h.done hok)
    exact ⟨h.rest, hid, htype, hpayload, .inr (Command.state_of_bare (h.done hok))⟩
  · have he := h.undone hok
    exact ⟨h.rest, Command.commandId_of_bare he, Command.type_of_bare he,
      Command.payload_of_bare he, .inl (Command.state_of_bare he)⟩

/-- The entry boot reconciliation writes. -/
def reconciled (c : Command) (state : CommandState) (resultCode : ℤ) (resultText : List UInt8) :
    Command :=
  { c with
    state := state
    progressPercent := if state = .succeeded then 100 else c.progressPercent
    resultCode := resultCode
    resultText := c.resultText.print resultText
    evidenceJson := c.evidenceJson.clearFirst }

/-- **`pm_command_reconcile_boot`** changes its own entry when it returns `ESP_OK`. -/
theorem changed_reconcile (l : Ledger) (i : EntryIndex) (state : CommandState) (code : ℤ)
    (text : List UInt8) (mallocOk : Bool) (nvs : Slots Ledger) (f : LedgerFault) :
    Changed l i (reconciled (l.entries i) state code text)
      (commandReconcileBoot l i state code text mallocOk nvs f) := by
  unfold commandReconcileBoot
  split
  · exact changed_refuse (by decide) _ _ _
  split
  · exact changed_refuse (by decide) _ _ _
  · exact changed_persistEntry l i _ nvs f

theorem sameCommands_reconcile (l : Ledger) (i : EntryIndex) (state : CommandState) (code : ℤ)
    (text : List UInt8) (mallocOk : Bool) (nvs : Slots Ledger) (f : LedgerFault) :
    SameCommands (· = i) l (commandReconcileBoot l i state code text mallocOk nvs f).ledger :=
  (changed_reconcile l i state code text mallocOk nvs f).sameCommands rfl rfl rfl

/-- **`pm_command_acknowledge_result`** changes nothing but an acknowledgement that was due for a
command that has succeeded. -/
theorem acknowledge_frame (l : Ledger) (id : List UInt8) (nvs : Slots Ledger) (f : LedgerFault)
    (j : EntryIndex) :
    ((commandAcknowledgeResult l id nvs f).ledger.entries j).bare = (l.entries j).bare ∨
      ((l.entries j).state = .succeeded ∧
        ((commandAcknowledgeResult l id nvs f).ledger.entries j).bare =
          ({ l.entries j with resultAckRequired := false } : Command).bare) := by
  unfold commandAcknowledgeResult
  split
  · exact .inl rfl
  split
  · exact .inl rfl
  next i hfind =>
  split
  · exact .inl rfl
  next hs =>
  split
  · exact .inl rfl
  next ha =>
  rw [acknowledge_eq_persistEntry (by simpa using ha)]
  have hch := changed_persistEntry l i { l.entries i with resultAckRequired := false } nvs f
  by_cases hj : j = i
  · subst hj
    by_cases hok : (persistEntry l j { l.entries j with resultAckRequired := false } nvs f).result =
        some .ok
    · exact .inr ⟨not_not.1 hs, hch.done hok⟩
    · exact .inl (hch.undone hok)
  · exact .inl (hch.rest j hj)

theorem sameCommands_acknowledge (p : EntryIndex → Prop) (l : Ledger) (id : List UInt8)
    (nvs : Slots Ledger) (f : LedgerFault) :
    SameCommands p l (commandAcknowledgeResult l id nvs f).ledger := by
  have hack := acknowledge_frame l id nvs f
  refine ⟨fun j => ?_, fun j => ?_, fun j => ?_, fun j _ => ?_⟩ <;>
    rcases hack j with h | ⟨-, h⟩
  · exact Command.commandId_of_bare h
  · exact (Command.commandId_of_bare h).trans rfl
  · exact Command.type_of_bare h
  · exact (Command.type_of_bare h).trans rfl
  · exact Command.payload_of_bare h
  · exact (Command.payload_of_bare h).trans rfl
  · exact Command.state_of_bare h
  · exact (Command.state_of_bare h).trans rfl

/-- What `pm_command_accept` did: it stored the command in a reusable entry, or it changed no
entry. -/
inductive AcceptEnd (l : Ledger) (incoming : Command) (nowUtcMs : ℤ) (a : Accepted) : Prop
  | stored (i : EntryIndex) (hstored : a.stored = some i) (hnew : a.duplicate = false)
      (hsel : selectEntry l = some i) (hok : acceptRefused incoming = false)
      (hdup : findDuplicate l incoming = none)
      (hresult : a.outcome.result =
        some (if (acceptedCommand incoming nowUtcMs).state = .expired then .timeout else .ok))
      (hentry : (a.outcome.ledger.entries i).bare = (acceptedCommand incoming nowUtcMs).bare)
      (hwritten : ∃ p, a.outcome.persisted = some p ∧ p.result = some .ok)
      (hrest : SameBut i l a.outcome.ledger)
  | unchanged (hsame : SameEntries l a.outcome.ledger)
      (hnot : a.outcome.result = some .ok → a.duplicate = true)

/-- **What `pm_command_accept` can do** to the entries. -/
theorem accept_end (l : Ledger) (incoming : Command) (now : ℤ) (mallocOk : Bool)
    (nvs : Slots Ledger) (f : LedgerFault) :
    AcceptEnd l incoming now (commandAccept l incoming now mallocOk nvs f) := by
  have hset : ∀ i j, ((persist (storeCommand l i (acceptedCommand incoming now)) nvs
      f).ledger.entries j).bare = ((storeCommand l i (acceptedCommand incoming now)).entries j).bare :=
    fun i => persist_bare _ nvs f
  have hcase := commandAccept_cases l incoming now mallocOk nvs f
  generalize commandAccept l incoming now mallocOk nvs f = a at hcase ⊢
  cases hcase with
  | refused e he _ => exact .unchanged (fun _ => rfl) fun h => absurd (Option.some.inj h) he
  | found i _ _ => exact .unchanged (fun _ => rfl) fun _ => rfl
  | stored i hok hdup hsel _ p hp hres =>
    subst hp
    refine .stored i rfl rfl hsel hok hdup rfl ?_ ⟨_, rfl, hres⟩ fun j hj => ?_
    · rw [hset]
      simp [storeCommand]
    · rw [hset]
      simp [storeCommand, Function.update_of_ne hj]
  | undone i _ _ _ _ p hp hres =>
    subst hp
    refine .unchanged (fun j => ?_) fun h => absurd h hres
    by_cases hj : j = i
    · subst hj
      simp [restoreEntry]
    · simp only [restoreEntry, Ledger.setEntry_entries, Function.update_of_ne hj]
      rw [hset]
      simp [storeCommand, Function.update_of_ne hj]

omit [Sha256] in
/-- The entry an accepted command is stored in may be reused. -/
theorem reusable_of_selectEntry {l : Ledger} {i : EntryIndex} (h : selectEntry l = some i) :
    reusable (l.entries i) = true := by
  have := List.find?_some h
  simpa using this

end PowerMonitor.Commands
