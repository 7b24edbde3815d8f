import PowerMonitor.Foundations.Runs
import PowerMonitor.Commands.Calls

/-!
# Identity and retention

The ledger recognises a command that is delivered again by its identity or by its idempotency key,
and a new command only takes the place of one whose result is settled. Both are statements about
every ledger the firmware can come to hold: `LedgerState.step` runs any sequence of ledger
operations, resets and loads, with a fault at any NVS call.

* `Lasting` is a property of ledgers that every operation keeps; `LedgerState.run_inv` carries it to
  the ledger in RAM and to every slot the loader accepts.
* `Tidy` is such a property: no two commands share an identity or a key, an empty entry has no key,
  and the digest is that of the payload.
* `duplicate_of_first` says when a redelivery is answered as a duplicate: the first entry that has
  its identity or its key decides. `crossed_delivery_conflicts` is why it has to be the first one.
* `ledger_identity_and_retention` is the result.
-/

namespace PowerMonitor.Commands

open CMemory AbStore Runs

variable [Sha256]

/-! ## Events -/

/-- A command as a caller may pass it to `pm_command_accept`: its identity and its key are C
strings. -/
structure Delivery where
  command : Command
  commandId_terminated : command.commandId.terminated = true
  idempotencyKey_terminated : command.idempotencyKey.terminated = true

/-- The command of a response item. -/
def Delivery.ofItem (item : CommandItem) (issued : ℤ) : Delivery :=
  ⟨parsedCommand item issued, Bytes.terminated_print _ _, Bytes.terminated_print _ _⟩

/-- One event in the life of the ledger: an operation with the fault its `persist` meets, a reset,
or a load during which any read may fail. -/
inductive LedgerEvent
  | accept (delivery : Delivery) (nowUtcMs : ℤ) (mallocOk : Bool) (f : LedgerFault)
  | change (c : Call) (hc : c.stores = none) (f : LedgerFault)
  | reset
  | load (opened : Option Failure) (failing : ℕ → Option Failure) (f : LedgerFault)

/-- The ledger in RAM and the slots. -/
structure LedgerState where
  ledger : Ledger
  nvs : Slots Ledger

namespace LedgerState

/-- An empty ledger over empty NVS. -/
def start : LedgerState := ⟨Ledger.zero, Slots.empty⟩

/-- The state after an operation; when power is lost under it, RAM is zeroed. -/
def after (result : CallEnd) (l : Ledger) (nvs : Slots Ledger) : LedgerState :=
  ⟨if result.isSome then l else Ledger.zero, nvs⟩

/-- The reads of a load: what the slots hold, except where one fails. -/
def reads (nvs : Slots Ledger) (failing : ℕ → Option Failure) : ℕ → Side → BlobRead := fun k side =>
  match failing k with
  | some e => .failed e
  | none => readSlots nvs k side

/-- One event. -/
def step (s : LedgerState) : LedgerEvent → LedgerState
  | .accept delivery now mallocOk f =>
    let o := (commandAccept s.ledger delivery.command now mallocOk s.nvs f).outcome
    after o.result o.ledger o.nvs
  | .change c _ f =>
    let o := c.perform s.ledger s.nvs f
    after o.result o.ledger o.nvs
  | .reset => { s with ledger := Ledger.zero }
  | .load opened failing f =>
    let r := commandsLoadLocked s.ledger opened (reads s.nvs failing) s.nvs f
    after r.result r.ledger r.nvs

end LedgerState

/-! ## The invariant -/

/-- No two commands share an identity or an idempotency key, and the ring index is in range. -/
structure Unique (l : Ledger) : Prop where
  commandId : IdsDistinct l
  idempotencyKey : ∀ i j, (l.entries i).occupied = true → (l.entries j).occupied = true →
    (l.entries i).idempotencyKey.str = (l.entries j).idempotencyKey.str → i = j
  next_lt : l.next < ledgerSize

/-- The invariant of a ledger. -/
structure Tidy (l : Ledger) : Prop extends Unique l where
  empty : ∀ i, (l.entries i).occupied = false → (l.entries i).idempotencyKey.str = []
  digest : ∀ i, (l.entries i).occupied = true → (l.entries i).payloadRedacted = false →
    (l.entries i).payloadSha256 = sha256 (l.entries i).payload.str

section

variable {l l' : Ledger}

omit [Sha256] in
theorem SameIdentity.commandId (h : SameIdentity l l') (j : EntryIndex) :
    (l'.entries j).commandId = (l.entries j).commandId := congrArg Prod.fst (h.identity j)

omit [Sha256] in
theorem SameIdentity.occupied (h : SameIdentity l l') (j : EntryIndex) :
    (l'.entries j).occupied = (l.entries j).occupied := by
  rw [Command.occupied, Command.occupied, h.commandId]

omit [Sha256] in
theorem SameIdentity.idempotencyKey (h : SameIdentity l l') (j : EntryIndex) :
    (l'.entries j).idempotencyKey = (l.entries j).idempotencyKey :=
  congrArg (fun t => t.2.1) (h.identity j)

omit [Sha256] in
theorem SameIdentity.payloadSha256 (h : SameIdentity l l') (j : EntryIndex) :
    (l'.entries j).payloadSha256 = (l.entries j).payloadSha256 :=
  congrArg (fun t => t.2.2.2) (h.identity j)

omit [Sha256] in
theorem sameIdentity_stamp (l : Ledger) : SameIdentity l (stamp l) := by
  refine ⟨fun j => ?_, fun j hj => ?_, rfl⟩ <;> rw [stamp_entries] at *
  · split <;> rfl
  · split at hj
    next ho =>
      rw [if_pos ho]
      exact ⟨hj, rfl⟩
    next ho =>
      rw [if_neg ho]
      exact ⟨hj, rfl⟩

theorem Tidy.same (h : Tidy l) (hs : SameIdentity l l') : Tidy l' where
  commandId i j hi hj hij := by
    rw [hs.occupied] at hi hj
    rw [hs.commandId, hs.commandId] at hij
    exact h.commandId i j hi hj hij
  idempotencyKey i j hi hj hij := by
    rw [hs.occupied] at hi hj
    rw [hs.idempotencyKey, hs.idempotencyKey] at hij
    exact h.idempotencyKey i j hi hj hij
  next_lt := hs.next ▸ h.next_lt
  empty i hi := by
    rw [hs.occupied] at hi
    rw [hs.idempotencyKey]
    exact h.empty i hi
  digest i hi hred := by
    rw [hs.occupied] at hi
    obtain ⟨hred', hpay⟩ := hs.payload i hred
    rw [hs.payloadSha256, hpay]
    exact h.digest i hi hred'

theorem Tidy.zero : Tidy Ledger.zero where
  commandId := idsDistinct_zero
  idempotencyKey i _ hi := by
    change Command.zero.occupied = true at hi
    exact absurd hi (by decide)
  next_lt := by decide
  empty i _ := by
    change Command.zero.idempotencyKey.str = []
    decide
  digest i hi := by
    change Command.zero.occupied = true at hi
    exact absurd hi (by decide)

/-- A new command shares its identity and its key with no entry, empty ones included. -/
theorem Tidy.storeCommand (h : Tidy l) {incoming : Command} (now : ℤ) (i : EntryIndex)
    (hok : acceptRefused incoming = false) (hdup : findDuplicate l incoming = none) :
    Tidy (storeCommand l i (acceptedCommand incoming now)) := by
  have hself : (Commands.storeCommand l i (acceptedCommand incoming now)).entries i =
      acceptedCommand incoming now := Function.update_self _ _ _
  have hrest : ∀ j, j ≠ i →
      (Commands.storeCommand l i (acceptedCommand incoming now)).entries j = l.entries j :=
    fun j hj => Function.update_of_ne hj _ _
  have hocc : (acceptedCommand incoming now).occupied = true := by
    simp only [acceptRefused, Bool.or_eq_false_iff] at hok
    simpa [Command.occupied, acceptedCommand] using hok.1.1.1
  constructor
  · constructor
    · intro j k hj hk hjk
      by_cases hji : j = i <;> by_cases hki : k = i
      · rw [hji, hki]
      · rw [hji, hself, hrest k hki] at hjk
        exact absurd hjk.symm (findDuplicate_none hdup k).1
      · rw [hki, hself, hrest j hji] at hjk
        exact absurd hjk (findDuplicate_none hdup j).1
      · rw [hrest j hji] at hj hjk
        rw [hrest k hki] at hk hjk
        exact h.commandId j k hj hk hjk
    · intro j k hj hk hjk
      by_cases hji : j = i <;> by_cases hki : k = i
      · rw [hji, hki]
      · rw [hji, hself, hrest k hki] at hjk
        exact absurd hjk.symm (findDuplicate_none hdup k).2
      · rw [hki, hself, hrest j hji] at hjk
        exact absurd hjk (findDuplicate_none hdup j).2
      · rw [hrest j hji] at hj hjk
        rw [hrest k hki] at hk hjk
        exact h.idempotencyKey j k hj hk hjk
    · exact Nat.mod_lt _ (by decide)
  · intro j hj
    by_cases hji : j = i
    · rw [hji, hself, hocc] at hj
      cases hj
    · rw [hrest j hji] at hj ⊢
      exact h.empty j hj
  · intro j hj hred
    by_cases hji : j = i
    · rw [hji, hself]
      rfl
    · rw [hrest j hji] at hj hred ⊢
      exact h.digest j hj hred

end

theorem persist_allValid {P : Ledger → Prop} {l : Ledger} {nvs : Slots Ledger}
    (h : AllValid ledgerValid P nvs) (hP : P (stamp l)) (f : LedgerFault) :
    AllValid ledgerValid P (persist l nvs f).nvs := by
  by_cases hmax : l.generation = uint32Max
  · rw [persist, if_pos hmax]
    exact h
  · rw [persist_eq hmax]
    exact h.writeBlob f _ hP

theorem settled_persist (l : Ledger) (nvs : Slots Ledger) (f : LedgerFault) :
    Settled (persist l nvs f).ledger := by
  rcases persist_ledger l nvs f with hp | ⟨hmax, hp⟩ <;> rw [hp]
  · exact .inl (crcsCurrent_stamp l)
  · exact .inr hmax

omit [Sha256] in
theorem settled_zero : Settled Ledger.zero := by
  refine .inl fun i hi => ?_
  change Command.zero.occupied = true at hi
  exact absurd hi (by decide)

/-! ## Lasting properties -/

/-- A property of ledgers that every operation keeps. -/
structure Lasting (P : Ledger → Prop) : Prop where
  zero : P Ledger.zero
  stamp : ∀ {l}, P l → P (stamp l)
  store : ∀ {l incoming} (now : ℤ) (i : EntryIndex), P l → acceptRefused incoming = false →
    findDuplicate l incoming = none → P (storeCommand l i (acceptedCommand incoming now))
  edit : ∀ {l l' c}, P l → c.stores = none → Edit c l l' → P l'

theorem Lasting.persist {P : Ledger → Prop} (hP : Lasting P) {l : Ledger} (h : P l)
    (nvs : Slots Ledger) (f : LedgerFault) : P (persist l nvs f).ledger := by
  rcases persist_ledger l nvs f with hp | ⟨-, hp⟩ <;> rw [hp]
  · exact hP.stamp h
  · exact h

/-- The ledger in RAM has the property, and so has every slot the loader accepts. -/
structure LedgerState.Inv (P : Ledger → Prop) (s : LedgerState) : Prop where
  ram : P s.ledger
  settled : Settled s.ledger
  nvs : AllValid ledgerValid P s.nvs

namespace LedgerState

variable {P : Ledger → Prop} {s : LedgerState}

theorem Inv.start (hP : Lasting P) : Inv P start := by
  refine ⟨hP.zero, settled_zero, fun side x hx => ?_⟩
  cases side <;> cases hx

theorem Inv.after (hP : Lasting P) {l : Ledger} {nvs : Slots Ledger} (hl : P l) (hset : Settled l)
    (hn : AllValid ledgerValid P nvs) (result : CallEnd) : Inv P (after result l nvs) := by
  unfold LedgerState.after
  split
  · exact ⟨hl, hset, hn⟩
  · exact ⟨hP.zero, settled_zero, hn⟩

theorem Inv.accept (hP : Lasting P) (h : Inv P s) (incoming : Command) (now : ℤ) (mallocOk : Bool)
    (f : LedgerFault) :
    let o := (commandAccept s.ledger incoming now mallocOk s.nvs f).outcome
    Inv P (LedgerState.after o.result o.ledger o.nvs) := by
  have hcase := commandAccept_cases s.ledger incoming now mallocOk s.nvs f
  generalize commandAccept s.ledger incoming now mallocOk s.nvs f = a at hcase ⊢
  cases hcase with
  | refused e _ _ => exact .after hP h.ram h.settled h.nvs _
  | found i _ _ => exact .after hP h.ram h.settled h.nvs _
  | stored i hok hdup _ _ p hp _ =>
    subst hp
    have hl := hP.store now i h.ram hok hdup
    exact .after hP (hP.persist hl _ _) (settled_persist _ _ _)
      (persist_allValid h.nvs (hP.stamp hl) f) _
  | undone i hok hdup _ _ p hp _ =>
    subst hp
    have hl := hP.store now i h.ram hok hdup
    have hrest : ∀ j, j ≠ i → (storeCommand s.ledger i (acceptedCommand incoming now)).entries j =
        s.ledger.entries j := fun j hj => Function.update_of_ne hj _ _
    have heq := restoreEntry_eq hrest
      (h.settled.persist_entries (m := storeCommand s.ledger i _) rfl s.nvs f)
    refine .after hP ?_ ?_ (persist_allValid h.nvs (hP.stamp hl) f) _ <;> rw [heq]
    · exact h.ram
    · exact h.settled

theorem Inv.change (hP : Lasting P) (h : Inv P s) {c : Call} (hc : c.stores = none)
    (f : LedgerFault) :
    let o := c.perform s.ledger s.nvs f
    Inv P (LedgerState.after o.result o.ledger o.nvs) := by
  dsimp only
  rcases c.perform_cases s.ledger s.nvs f with ⟨-, e, ho⟩ | ⟨-, l', hp⟩
  · rw [ho]
    exact .after hP h.ram h.settled h.nvs _
  · have hl : P l' := hP.edit h.ram hc hp.edit
    have hn : AllValid ledgerValid P (c.perform s.ledger s.nvs f).nvs := by
      rw [hp.nvs_eq]
      exact persist_allValid h.nvs (hP.stamp hl) f
    by_cases hkept : (Commands.persist l' s.nvs f).result = some .ok ∨ c.redacts = true
    · rw [hp.kept hkept]
      exact .after hP (hP.persist hl _ _) (settled_persist _ _ _) hn _
    · obtain ⟨hfail, hred⟩ := not_or.1 hkept
      rw [hp.undone hfail (by simpa using hred) h.settled]
      exact .after hP h.ram h.settled hn _

theorem Inv.load (hP : Lasting P) (h : Inv P s) (opened : Option Failure)
    (failing : ℕ → Option Failure) (f : LedgerFault) :
    let r := commandsLoadLocked s.ledger opened (reads s.nvs failing) s.nvs f
    Inv P (LedgerState.after r.result r.ledger r.nvs) := by
  have hcase := commandsLoadLocked_ledger s.ledger opened (reads s.nvs failing) s.nvs f
  dsimp only at hcase ⊢
  generalize commandsLoadLocked s.ledger opened (reads s.nvs failing) s.nvs f = r at hcase ⊢
  rcases hcase with ⟨hl | hl, hn⟩ | ⟨hl, hn⟩ | ⟨⟨side, hread⟩, hv, hn⟩
  · rw [hl, hn]
    exact .after hP h.ram h.settled h.nvs _
  · rw [hl, hn]
    exact .after hP hP.zero settled_zero h.nvs _
  · rw [hl, hn]
    exact .after hP (hP.persist hP.zero _ _) (settled_persist _ _ _)
      (persist_allValid h.nvs (hP.stamp hP.zero) f) _
  · -- the ledger was read from a slot and passed the check
    have hslot : s.nvs.get side = some r.ledger := by
      unfold reads at hread
      split at hread
      · cases hread
      · unfold readSlots at hread
        split at hread
        · cases hread
        next hget => rw [hget, BlobRead.ledger.inj hread]
    rw [hn]
    exact .after hP (h.nvs side _ hslot hv) (.inl (ledgerSound_of_valid hv).2) h.nvs _

theorem Inv.step (hP : Lasting P) (h : Inv P s) (e : LedgerEvent) : Inv P (s.step e) := by
  cases e with
  | accept delivery now mallocOk f => exact h.accept hP delivery.command now mallocOk f
  | change c hc f => exact h.change hP hc f
  | reset => exact ⟨hP.zero, settled_zero, h.nvs⟩
  | load opened failing f => exact h.load hP opened failing f

/-- A lasting property holds of every ledger the firmware comes to hold. -/
theorem run_inv (hP : Lasting P) (events : List LedgerEvent) :
    Inv P (run LedgerState.step LedgerState.start events) :=
  run_invariant (fun _ e h => h.step hP e) (.start hP) events

end LedgerState

theorem lasting_tidy : Lasting Tidy where
  zero := Tidy.zero
  stamp h := h.same (sameIdentity_stamp _)
  store now i h hok hdup := h.storeCommand now i hok hdup
  edit h hc he := h.same (he.same hc)

/-! ## Accepting -/

/-- The entry has the type of the incoming command and the digest of its payload. -/
def sameContent (c incoming : Command) : Bool :=
  c.type = incoming.type && c.payloadSha256 = sha256 incoming.payload.str

/-- The incoming command is the one in the entry, delivered again: it has its identity or its key,
its type, and its payload. Of a redacted payload only the digest is left. -/
structure Redelivers (c incoming : Command) : Prop where
  same : sameCommand c incoming = true
  type : c.type = incoming.type
  payload : if c.payloadRedacted then c.payloadSha256 = sha256 incoming.payload.str
    else c.payload.str = incoming.payload.str

section

variable {l : Ledger} {incoming : Command} {i : EntryIndex}

theorem Redelivers.content (h : Redelivers (l.entries i) incoming) (hl : Tidy l)
    (hocc : (l.entries i).occupied = true) : sameContent (l.entries i) incoming = true := by
  have hdigest : (l.entries i).payloadSha256 = sha256 incoming.payload.str := by
    have hpay := h.payload
    cases hred : (l.entries i).payloadRedacted with
    | true =>
      rw [hred] at hpay
      exact hpay
    | false =>
      rw [hred] at hpay
      rw [hl.digest i hocc hred]
      exact congrArg sha256 hpay
  simp [sameContent, h.type, hdigest]

omit [Sha256] in
/-- The entry found for a command is the first that has its identity or its key. -/
theorem findDuplicate_of_same (h : sameCommand (l.entries i) incoming = true) :
    ∃ k, findDuplicate l incoming = some k ∧ k ≤ i ∧
      sameCommand (l.entries k) incoming = true := by
  cases hfind : findDuplicate l incoming with
  | none =>
    have := List.find?_eq_none.1 hfind i (List.mem_finRange i)
    exact absurd h this
  | some k =>
    obtain ⟨hk, n, hn, hget, hbefore⟩ := List.find?_eq_some_iff_getElem.1 hfind
    have hkn : k.val = n := by
      rw [← hget]
      simp
    have hfirst : ∀ j, j < k → sameCommand (l.entries j) incoming = false := by
      intro j hj
      have hjn : j.val < n := hkn ▸ hj
      simpa using hbefore j.val hjn
    refine ⟨k, rfl, not_lt.1 fun hik => ?_, hk⟩
    rw [hfirst i hik] at h
    cases h

section

variable (now : ℤ) (mallocOk : Bool) (nvs : Slots Ledger) (f : LedgerFault)

/-- A command that has the identity or the key of an entry changes nothing. -/
theorem accept_of_same (hsame : sameCommand (l.entries i) incoming = true) :
    (commandAccept l incoming now mallocOk nvs f).outcome.ledger = l ∧
      (commandAccept l incoming now mallocOk nvs f).outcome.nvs = nvs := by
  obtain ⟨k, hfind, -⟩ := findDuplicate_of_same hsame
  have hcase := commandAccept_cases l incoming now mallocOk nvs f
  generalize commandAccept l incoming now mallocOk nvs f = a at hcase ⊢
  cases hcase with
  | refused e _ _ => exact ⟨rfl, rfl⟩
  | found i _ _ => exact ⟨rfl, rfl⟩
  | stored i _ hdup => rw [hfind] at hdup; cases hdup
  | undone i _ hdup => rw [hfind] at hdup; cases hdup

/-- It is answered as a duplicate when the first entry that has its identity or its key has its
content too. -/
theorem duplicate_of_first (hok : acceptRefused incoming = false)
    (hsame : sameCommand (l.entries i) incoming = true)
    (hcontent : ∀ j, j ≤ i → sameCommand (l.entries j) incoming = true →
      sameContent (l.entries j) incoming = true) :
    ∃ k, commandAccept l incoming now mallocOk nvs f = ⟨refuse .ok l nvs, some k, true⟩ := by
  obtain ⟨k, hfind, hki, hk⟩ := findDuplicate_of_same hsame
  have hck := hcontent k hki hk
  simp only [sameContent, Bool.and_eq_true, decide_eq_true_eq] at hck
  refine ⟨k, ?_⟩
  rw [commandAccept, if_neg (by simp [hok]), hfind]
  exact if_pos hck

end

variable {now : ℤ} {mallocOk : Bool} {nvs : Slots Ledger} {f : LedgerFault}

omit [Sha256] in
theorem findDuplicate_eq_none (h : ∀ i, sameCommand (l.entries i) incoming = false) :
    findDuplicate l incoming = none :=
  List.find?_eq_none.2 fun i _ => by simp [h i]

omit [Sha256] in
/-- The search for an entry wraps around the whole ledger. -/
theorem selectEntry_eq_none_iff (hl : l.next < ledgerSize) :
    selectEntry l = none ↔ ∀ i, reusable (l.entries i) = false := by
  rw [selectEntry, List.find?_eq_none]
  constructor
  · intro h i
    have hmem : ringIndex l ((i.val + ledgerSize - l.next) % ledgerSize) = i := by
      apply Fin.ext
      have hi := i.isLt
      simp only [ringIndex, ledgerSize] at *
      omega
    have := h i (List.mem_map.2 ⟨_, List.mem_range.2 (Nat.mod_lt _ (by decide)), hmem⟩)
    simpa using this
  · intro h i _
    simp [h i]

/-- Without an entry to reuse, and only then, a new command is refused for lack of a slot. -/
theorem noMem_iff (hl : l.next < ledgerSize) (hok : acceptRefused incoming = false)
    (hnew : ∀ i, sameCommand (l.entries i) incoming = false) :
    (commandAccept l incoming now true nvs f).outcome = refuse .noMem l nvs ↔
      ∀ i, reusable (l.entries i) = false := by
  rw [← selectEntry_eq_none_iff hl, commandAccept, if_neg (by simp [hok]),
    findDuplicate_eq_none hnew]
  dsimp only
  cases hsel : selectEntry l with
  | none => exact ⟨fun _ => rfl, fun _ => rfl⟩
  | some i =>
    -- with an entry to reuse, the outcome records the persist that was made
    refine ⟨fun h => ?_, fun h => by cases h⟩
    have hp := congrArg Outcome.persisted h
    dsimp only [refuse] at hp
    split at hp
    · next hm => exact absurd hm (by decide)
    split at hp <;> cases hp

/-- A command that was stored took the place of one entry, and no other entry changed. -/
theorem stored_entries (hset : Settled l)
    (hres : (persist (storeCommand l i (acceptedCommand incoming now)) nvs f).result = some .ok) :
    (persist (storeCommand l i (acceptedCommand incoming now)) nvs f).ledger.entries =
      Function.update l.entries i (acceptedCommand incoming now) := by
  have hmax : l.generation ≠ uint32Max := by
    intro hmax
    rw [persist, if_pos (show (storeCommand l i _).generation = _ from hmax)] at hres
    cases hres
  have hcur : CrcsCurrent l := hset.resolve_right hmax
  rw [persist_eq (show (storeCommand l i _).generation ≠ _ from hmax)]
  funext j
  dsimp only
  rw [stamp_entries]
  by_cases hj : j = i
  · subst hj
    have hself : (storeCommand l j (acceptedCommand incoming now)).entries j =
        acceptedCommand incoming now := Function.update_self _ _ _
    rw [hself, Function.update_self]
    split <;> rfl
  · have hrest : (storeCommand l i (acceptedCommand incoming now)).entries j = l.entries j :=
      Function.update_of_ne hj _ _
    rw [hrest, Function.update_of_ne hj]
    split
    · next ho => rw [← hcur j ho]
    · rfl

/-- `pm_command_accept` leaves the ledger as it was or replaces one entry that may be reused. -/
theorem accept_replaces (hset : Settled l) :
    let a := commandAccept l incoming now mallocOk nvs f
    (a.outcome.ledger = l ∧ (a.duplicate = true ∨ a.outcome.result ≠ some .ok)) ∨
    ∃ i, reusable (l.entries i) = true ∧ a.stored = some i ∧ a.duplicate = false ∧
      (a.outcome.result = some .ok ∨ a.outcome.result = some .timeout) ∧
      a.outcome.ledger.entries = Function.update l.entries i (acceptedCommand incoming now) := by
  have hcase := commandAccept_cases l incoming now mallocOk nvs f
  dsimp only
  generalize commandAccept l incoming now mallocOk nvs f = a at hcase ⊢
  cases hcase with
  | refused e he _ => exact .inl ⟨rfl, .inr fun h => he (Option.some.inj h)⟩
  | found i _ _ => exact .inl ⟨rfl, .inl rfl⟩
  | stored i _ _ hsel _ p hp hres =>
    subst hp
    have hreuse : reusable (l.entries i) = true := by simpa using List.find?_some hsel
    refine .inr ⟨i, hreuse, rfl, rfl, ?_, stored_entries hset hres⟩
    dsimp only
    split
    · exact .inr rfl
    · exact .inl rfl
  | undone i _ _ _ _ p hp hres =>
    subst hp
    have hrest : ∀ j, j ≠ i →
        (storeCommand l i (acceptedCommand incoming now)).entries j = l.entries j :=
      fun j hj => Function.update_of_ne hj _ _
    exact .inl ⟨restoreEntry_eq hrest (hset.persist_entries (m := storeCommand l i _) rfl nvs f),
      .inr hres⟩

end

/-- **Ledger identity and retention.** -/
theorem ledger_identity_and_retention (events : List LedgerEvent) (delivery : Delivery) (now : ℤ)
    (mallocOk : Bool) (nvs : Slots Ledger) (f : LedgerFault) :
    let l := (run LedgerState.step LedgerState.start events).ledger
    let incoming := delivery.command
    let a := commandAccept l incoming now mallocOk nvs f
    Unique l ∧
    ((a.outcome.ledger = l ∧ (a.duplicate = true ∨ a.outcome.result ≠ some .ok)) ∨
      ∃ i, reusable (l.entries i) = true ∧ a.stored = some i ∧ a.duplicate = false ∧
        (a.outcome.result = some .ok ∨ a.outcome.result = some .timeout) ∧
        a.outcome.ledger.entries = Function.update l.entries i (acceptedCommand incoming now)) ∧
    (acceptRefused incoming = false → (∀ i, sameCommand (l.entries i) incoming = false) →
      ((commandAccept l incoming now true nvs f).outcome = refuse .noMem l nvs ↔
        ∀ i, reusable (l.entries i) = false)) ∧
    ∀ i, acceptRefused incoming = false → (l.entries i).occupied = true →
      Redelivers (l.entries i) incoming →
      a.outcome.ledger = l ∧ a.outcome.nvs = nvs ∧
      ((∀ j, j < i → sameCommand (l.entries j) incoming = true →
        sameContent (l.entries j) incoming = true) →
          a.outcome.result = some .ok ∧ a.duplicate = true) := by
  intro l incoming a
  have hinv := LedgerState.run_inv lasting_tidy events
  refine ⟨hinv.ram.toUnique, accept_replaces hinv.settled,
    fun hok hnew => noMem_iff hinv.ram.next_lt hok hnew, fun i hok hocc hre => ?_⟩
  obtain ⟨hledger, hnvs⟩ := accept_of_same now mallocOk nvs f hre.same
  refine ⟨hledger, hnvs, fun hfirst => ?_⟩
  have hcontent : ∀ j, j ≤ i → sameCommand (l.entries j) incoming = true →
      sameContent (l.entries j) incoming = true := by
    intro j hj hsame
    rcases hj.lt_or_eq with hlt | rfl
    · exact hfirst j hlt hsame
    · exact hre.content hinv.ram hocc
  obtain ⟨k, hk⟩ := duplicate_of_first now mallocOk nvs f hok hre.same hcontent
  change (commandAccept l incoming now mallocOk nvs f).outcome.result = _ ∧
    (commandAccept l incoming now mallocOk nvs f).duplicate = _
  rw [hk]
  exact ⟨rfl, rfl⟩

/-- An item with the identity of one sample and the key of another. -/
def crossedItem : CommandItem :=
  { CommandItem.sample .networkSelfTest (.refl true) 2 two_ne_nul with
    idempotencyKey := [1]
    idempotencyKey_length := by decide
    idempotencyKey_text := by decide }

/-- Two commands arrive. -/
def twoDelivered : List (@LedgerEvent .standard) :=
  [@LedgerEvent.accept .standard (.ofItem (.sample .reboot (.refl true) 1 one_ne_nul) 0) 0 true
      .none,
    @LedgerEvent.accept .standard
      (.ofItem (.sample .networkSelfTest (.refl true) 2 two_ne_nul) 0) 0 true .none]

omit [Sha256] in
/-- The second of two commands, delivered again under the key of the first, is a conflict. -/
theorem crossed_delivery_conflicts :
    ¬∀ (events : List (@LedgerEvent .standard)) (delivery : Delivery) (now : ℤ) (mallocOk : Bool)
      (nvs : Slots Ledger) (f : @LedgerFault .standard) (i : EntryIndex),
      acceptRefused delivery.command = false →
      ((run (@LedgerState.step .standard) .start events).ledger.entries i).occupied = true →
      @Redelivers .standard ((run (@LedgerState.step .standard) .start events).ledger.entries i)
        delivery.command →
      (@commandAccept .standard (run (@LedgerState.step .standard) .start events).ledger
        delivery.command now mallocOk nvs f).duplicate = true := by
  intro h
  have hre := @Redelivers.mk .standard
    ((run (@LedgerState.step .standard) .start twoDelivered).ledger.entries 1)
    (Delivery.ofItem crossedItem 0).command (by decide) (by decide)
    (by decide)
  have hdup := h twoDelivered (.ofItem crossedItem 0) 0 true Slots.empty .none 1 (by decide)
    (by decide) hre
  have hconflict : (@commandAccept .standard
      (run (@LedgerState.step .standard) .start twoDelivered).ledger
      (Delivery.ofItem crossedItem 0).command 0 true Slots.empty .none).duplicate = false := by decide
  rw [hconflict] at hdup
  cases hdup

end PowerMonitor.Commands
