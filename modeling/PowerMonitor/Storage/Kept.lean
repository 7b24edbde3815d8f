import PowerMonitor.Storage.Written

/-!
# What the calls of the storage task keep

`Kept` says that a call leaves the files as they should be, and that a record that a scan of them
found is still found unless its sequence is acknowledged. It is shown of the search for space, of
the sealing of `current.tmp`, of the appending of a record and of a start, however each of their
calls into the file system ends.
-/

namespace PowerMonitor.Storage

open CMemory

/-! ## Calls -/

/-- What a call keeps: the files are as they should be, and what was found is found, or
acknowledged. -/
structure Kept (deviceId cardId : Bytes 16) (offered : List JournalRecord) (card : Card) (w : Writer)
    (c : StorageCall) : Prop where
  sound : c.card.Sound deviceId cardId offered
  found : ∀ r, card.Finds deviceId cardId r →
    c.card.Finds deviceId cardId r ∨ r.sequence ≤ w.acknowledgedSequence
  acknowledged : c.writer.acknowledgedSequence = w.acknowledgedSequence

/-- A call after another one: what holds of the ends of both. -/
theorem StorageCall.andThen_rule {P : StorageCall → Prop} {c : StorageCall}
    {failed : EspErr → Writer → Writer} {next : Card → Writer → StorageCall}
    (hlost : c.result = none → P c)
    (hfailed : ∀ e, c.result = some e → P { c with writer := failed e c.writer })
    (hnext : c.result = some .ok → P (next c.card c.writer)) : P (c.andThen failed next) := by
  unfold StorageCall.andThen
  cases hresult : c.result with
  | none => exact hlost hresult
  | some e =>
    dsimp only
    split_ifs with hok
    · exact hnext (hok ▸ hresult)
    · simpa only [hresult] using hfailed e hresult

section

variable {deviceId cardId : Bytes 16} {offered : List JournalRecord} {card : Card} {w : Writer}
  {c : StorageCall}

/-- A call that leaves the card as it is. -/
theorem Kept.refl (hsound : card.Sound deviceId cardId offered) {e : CallEnd} {v : Writer}
    (hacknowledged : v.acknowledgedSequence = w.acknowledgedSequence) {appended : Bool} :
    Kept deviceId cardId offered card w ⟨e, card, v, appended⟩ :=
  ⟨hsound, fun _ hr => .inl hr, hacknowledged⟩

theorem Kept.trans (h : Kept deviceId cardId offered card w c) {d : StorageCall}
    (hd : Kept deviceId cardId offered c.card c.writer d) : Kept deviceId cardId offered card w d := by
  refine ⟨hd.sound, fun r hr => ?_, hd.acknowledged.trans h.acknowledged⟩
  rcases h.found r hr with hfound | hle
  · rw [← h.acknowledged]
    exact hd.found r hfound
  · exact .inr hle

theorem Kept.mono (h : Kept deviceId cardId offered card w c) {offered' : List JournalRecord}
    (hsub : offered ⊆ offered') : Kept deviceId cardId offered' card w c :=
  ⟨h.sound.mono hsub, h.found, h.acknowledged⟩

/-- A call of which only the result and the variables differ. -/
theorem Kept.congr (h : Kept deviceId cardId offered card w c) {d : StorageCall} (hcard : d.card = c.card)
    (hacknowledged : d.writer.acknowledgedSequence = c.writer.acknowledgedSequence) :
    Kept deviceId cardId offered card w d :=
  ⟨hcard ▸ h.sound, hcard ▸ h.found, hacknowledged.trans h.acknowledged⟩

/-- A write to `current.tmp`. -/
theorem Kept.write (hsound : card.Sound deviceId cardId offered) {offered' : List JournalRecord}
    (hsub : offered ⊆ offered') {f : List UInt8} (hcurrent : Current deviceId cardId offered' f)
    (hkept : ∀ g, card.current = some g → recordsIn deviceId cardId g ⊆ recordsIn deviceId cardId f)
    (hnew : ∀ r ∈ recordsIn deviceId cardId f, ∃ x ∈ offered', r = x.stored) {e : CallEnd} {v : Writer}
    (hacknowledged : v.acknowledgedSequence = w.acknowledgedSequence) {appended : Bool} :
    Kept deviceId cardId offered' card w ⟨e, { card with current := some f }, v, appended⟩ := by
  refine ⟨⟨hsound.segments, hsound.quarantine, fun g hg => ?_, ?_⟩, ?_, hacknowledged⟩
  · obtain rfl := Option.some.inj hg
    exact hcurrent
  · rintro r ⟨g, hg, hr⟩
    rcases Card.mem_files.1 hg with hseg | hquar | hg
    · exact (hsound.mono hsub).offered r ⟨g, Card.mem_files.2 (.inl hseg), hr⟩
    · exact (hsound.mono hsub).offered r ⟨g, Card.mem_files.2 (.inr (.inl hquar)), hr⟩
    · obtain rfl := Option.some.inj hg
      exact hnew r hr
  · rintro r ⟨g, hg, hr⟩
    rcases Card.mem_files.1 hg with hseg | hquar | hg
    · exact .inl ⟨g, Card.mem_files.2 (.inl hseg), hr⟩
    · exact .inl ⟨g, Card.mem_files.2 (.inr (.inl hquar)), hr⟩
    · exact .inl ⟨f, Card.mem_files.2 (.inr (.inr rfl)), hkept g hg hr⟩

/-- The renaming of `current.tmp`: its bytes are in another file. -/
theorem Kept.rename (hsound : card.Sound deviceId cardId offered) {d : Card}
    (hsegments : ∀ g ∈ d.segments, Whole deviceId cardId g.bytes ∧
      ∀ r ∈ recordsIn deviceId cardId g.bytes, r.sequence ≤ g.last)
    (hquarantine : ∀ f ∈ d.quarantine, Left deviceId cardId f) (hcurrent : d.current = none)
    (hfiles : ∀ f, f ∈ d.files ↔ f ∈ card.files) {e : CallEnd} {v : Writer}
    (hacknowledged : v.acknowledgedSequence = w.acknowledgedSequence) {appended : Bool} :
    Kept deviceId cardId offered card w ⟨e, d, v, appended⟩ := by
  refine ⟨⟨hsegments, hquarantine, fun f hf => ?_, ?_⟩, ?_, hacknowledged⟩
  · cases hcurrent.symm.trans hf
  · rintro r ⟨f, hf, hr⟩
    exact hsound.offered r ⟨f, (hfiles f).1 hf, hr⟩
  · rintro r ⟨f, hf, hr⟩
    exact .inl ⟨f, (hfiles f).2 hf, hr⟩

theorem updateCapacity_snd (capacity : Except Failure ℕ) (w : Writer) :
    ∃ free, (updateCapacity capacity w).2 = { w with bytesFree := free } := by
  cases capacity with
  | error e => exact ⟨w.bytesFree, rfl⟩
  | ok free => exact ⟨free, rfl⟩

theorem pmStorageRebuildIndex_snd (deviceId cardId : Bytes 16) (fault : Option Failure) (card : Card)
    (w : Writer) : ∃ complete inventory, (pmStorageRebuildIndex deviceId cardId fault card w).2 =
      { w with inventoryComplete := complete, inventory := inventory } := by
  unfold pmStorageRebuildIndex
  cases fault with
  | some e => exact ⟨false, w.inventory, rfl⟩
  | none =>
    dsimp only
    split_ifs
    · exact ⟨true, _, rfl⟩
    · exact ⟨false, w.inventory, rfl⟩

/-! ### Space -/

theorem oldestAcknowledged_eq_some {n : ℕ} {segments : List SealedSegment} {g : SealedSegment}
    (h : oldestAcknowledged n segments = some g) : g ∈ segments ∧ g.last ≤ n := by
  have hfold (l : List SealedSegment) (oldest : Option SealedSegment)
      (holdest : ∀ g, oldest = some g → g ∈ segments ∧ g.last ≤ n) (hl : ∀ g ∈ l, g ∈ segments)
      {g : SealedSegment} (hg : l.foldl (fun oldest s =>
        if s.last ≤ n ∧ s.first < (oldest.map SealedSegment.first).getD (2 ^ 64 - 1) then some s
        else oldest) oldest = some g) : g ∈ segments ∧ g.last ≤ n := by
    induction l generalizing oldest with
    | nil => exact holdest g hg
    | cons s l ih =>
      refine ih _ (fun g' hg' => ?_) (fun g' hg' => hl g' (List.mem_cons_of_mem s hg')) hg
      dsimp only at hg'
      split_ifs at hg' with hs
      · obtain rfl := Option.some.inj hg'
        exact ⟨hl s List.mem_cons_self, hs.1⟩
      · exact holdest g' hg'
  exact hfold segments none (fun _ hnone => by cases hnone) (fun _ hg => hg) h

/-- A segment is removed once its last sequence is acknowledged. -/
theorem Kept.remove (hsound : card.Sound deviceId cardId offered) {g : SealedSegment}
    (hg : g ∈ card.segments) (hlast : g.last ≤ w.acknowledgedSequence) {e : CallEnd} {v : Writer}
    (hacknowledged : v.acknowledgedSequence = w.acknowledgedSequence) :
    Kept deviceId cardId offered card w
      ⟨e, { card with segments := card.segments.erase g }, v, false⟩ := by
  refine ⟨⟨fun g' hg' => hsound.segments g' (List.mem_of_mem_erase hg'), hsound.quarantine,
    hsound.current, ?_⟩, ?_, hacknowledged⟩
  · rintro r ⟨f, hf, hr⟩
    refine hsound.offered r ⟨f, ?_, hr⟩
    rcases Card.mem_files.1 hf with ⟨g', hg', rfl⟩ | hf
    · exact Card.mem_files.2 (.inl ⟨g', List.mem_of_mem_erase hg', rfl⟩)
    · exact Card.mem_files.2 (.inr hf)
  · rintro r ⟨f, hf, hr⟩
    rcases Card.mem_files.1 hf with ⟨g', hg', rfl⟩ | hf
    · by_cases heq : g' = g
      · subst heq
        exact .inr (((hsound.segments g' hg).2 r hr).trans hlast)
      · exact .inl ⟨g'.bytes, Card.mem_files.2 (.inl ⟨g', (List.mem_erase_of_ne heq).2 hg', rfl⟩), hr⟩
    · exact .inl ⟨f, Card.mem_files.2 (.inr hf), hr⟩

/-- What the search for space leaves as it is. -/
structure Framed (card : Card) (w : Writer) (c : StorageCall) : Prop where
  quarantine : c.card.quarantine = card.quarantine
  current : c.card.current = card.current
  status : c.writer.status = w.status
  opened : c.writer.opened = w.opened
  appended : c.appended = false

theorem Framed.consistent (h : Framed card w c) (hconsistent : Consistent deviceId cardId card w) :
    Consistent deviceId cardId c.card c.writer :=
  hconsistent.congr h.quarantine h.current h.status h.opened

/-- The loop that looks for space. -/
theorem reclaimLoop_kept (passes : List ReclaimPass) (hsound : card.Sound deviceId cardId offered) :
    Kept deviceId cardId offered card w (reclaimLoop passes card w) ∧
      Framed card w (reclaimLoop passes card w) := by
  have hstop (e : CallEnd) : Kept deviceId cardId offered card w ⟨e, card, w, false⟩ ∧
      Framed card w ⟨e, card, w, false⟩ := ⟨.refl hsound rfl, rfl, rfl, rfl, rfl, rfl⟩
  induction passes generalizing card w with
  | nil => exact hstop _
  | cons pass passes ih =>
    rw [reclaimLoop]
    split_ifs
    · exact hstop _
    · exact hstop _
    cases holdest : oldestAcknowledged w.acknowledgedSequence card.segments with
    | none => exact hstop _
    | some g =>
      obtain ⟨hg, hlast⟩ := oldestAcknowledged_eq_some holdest
      dsimp only
      cases pass.unlink with
      | fails => exact hstop _
      | powerLoss landed =>
        cases landed with
        | true => exact ⟨.remove hsound hg hlast rfl, rfl, rfl, rfl, rfl, rfl⟩
        | false => exact hstop _
      | done =>
        obtain ⟨free, hcapacity⟩ := updateCapacity_snd pass.capacity w
        have hremoved (e : CallEnd) : Kept deviceId cardId offered card w
            ⟨e, { card with segments := card.segments.erase g }, { w with bytesFree := free }, false⟩ :=
          .remove hsound hg hlast rfl
        dsimp only
        rw [hcapacity]
        split_ifs
        · obtain ⟨hkept, hframed⟩ := ih (w := { w with bytesFree := free }) (hremoved (some .ok)).sound
            fun e => ⟨.refl (hremoved e).sound rfl, rfl, rfl, rfl, rfl, rfl⟩
          exact ⟨(hremoved (some .ok)).trans hkept, hframed.quarantine, hframed.current,
            hframed.status, hframed.opened, hframed.appended⟩
        · exact ⟨hremoved _, rfl, rfl, rfl, rfl, rfl⟩

/-- **Space is made** by removing segments that are acknowledged. -/
theorem reclaim_kept (env : ReclaimEnv) (hsound : card.Sound deviceId cardId offered) :
    Kept deviceId cardId offered card w (reclaimAcknowledgedSegments deviceId cardId env card w) ∧
      Framed card w (reclaimAcknowledgedSegments deviceId cardId env card w) := by
  obtain ⟨free, hcapacity⟩ := updateCapacity_snd env.capacity w
  unfold reclaimAcknowledgedSegments
  dsimp only
  rw [hcapacity]
  split_ifs
  · exact ⟨.refl hsound (by rfl), rfl, rfl, rfl, rfl, rfl⟩
  obtain ⟨hkept, hframed⟩ := reclaimLoop_kept (w := { w with bytesFree := free }) env.passes hsound
  generalize reclaimLoop env.passes card { w with bytesFree := free } = c at hkept hframed ⊢
  have hspace : Kept deviceId cardId offered card w c := ⟨hkept.sound, hkept.found, hkept.acknowledged⟩
  have hsame : Framed card w c := ⟨hframed.quarantine, hframed.current, hframed.status, hframed.opened,
    hframed.appended⟩
  refine StorageCall.andThen_rule (P := fun c => Kept deviceId cardId offered card w c ∧ Framed card w c)
    (fun _ => ⟨hspace, hsame⟩) (fun _ _ => ⟨hspace.congr rfl rfl, ?_⟩) fun _ => ?_
  · exact ⟨hsame.quarantine, hsame.current, hsame.status, hsame.opened, hsame.appended⟩
  · obtain ⟨complete, inventory, hindex⟩ := pmStorageRebuildIndex_snd deviceId cardId env.index c.card
      { c.writer with inventory := { c.writer.inventory with oldestSequence := 0, newestSequence := 0 } }
    rw [hindex]
    exact ⟨hspace.congr rfl rfl, hsame.quarantine, hsame.current, hsame.status, hsame.opened, rfl⟩

/-! ### Appending -/

/-- What a call that appends a record keeps, and what it has done when the record was
synchronised. -/
structure Appends (deviceId cardId : Bytes 16) (offered : List JournalRecord) (r : JournalRecord)
    (card : Card) (w : Writer) (c : StorageCall) : Prop where
  kept : Kept deviceId cardId (offered ++ [r]) card w c
  consistent : c.result ≠ none → Consistent deviceId cardId c.card c.writer
  found : c.appended = true → c.card.Finds deviceId cardId r.stored

/-- Storage is ready, and `current.tmp` is a whole file of records before `r`. -/
structure Open (deviceId cardId : Bytes 16) (r : JournalRecord) (card : Card) (w : Writer) : Prop where
  consistent : Consistent deviceId cardId card w
  ready : w.status = .ready
  current : ∃ f header records, card.current = some f ∧ Written deviceId cardId f header records [] ∧
    header.firstSequence ≤ r.sequence ∧ ∀ x ∈ records, x.sequence < r.sequence

variable {r : JournalRecord}

theorem Next.open (hr : Next deviceId offered r) (hsound : card.Sound deviceId cardId offered)
    (hconsistent : Consistent deviceId cardId card w) (hready : w.status = .ready) {f : List UInt8}
    (hf : card.current = some f) : Open deviceId cardId r card w := by
  refine ⟨hconsistent, hready, ?_⟩
  rcases hsound.current f hf with ⟨header, records, tail, hwritten, x, hx, hfirst⟩ | hshort
  · obtain rfl := hwritten.tail_eq_nil (hconsistent.whole hready f hf)
    refine ⟨f, header, records, hf, hwritten, hfirst.trans (hr.newer x hx).le, fun y hy => ?_⟩
    have hfound : y.stored ∈ recordsIn deviceId cardId f := by
      rw [(hwritten.scan none none).1]
      exact List.mem_map_of_mem hy
    obtain ⟨z, hz, heq⟩ := hsound.offered y.stored ⟨f, Card.mem_files.2 (.inr (.inr hf)), hfound⟩
    have hsequence : y.stored.sequence = z.stored.sequence := congrArg JournalRecord.sequence heq
    exact hsequence.trans_lt (hr.newer z hz)
  · exact absurd (hconsistent.header (.inl hready) f hf) (not_le.2 hshort)

theorem written_newHeader (cardId : Bytes 16) (hr : Next deviceId offered r) (segmentId : Bytes 16) :
    Written deviceId cardId (encodedHeader (newHeader deviceId cardId r segmentId)).bytes
      (newHeader deviceId cardId r segmentId) [] [] where
  fits := ⟨hr.fits.sequence, hr.fits.startUtcMs, hr.fits.startMonotonicUs⟩
  device := rfl
  card := rfl
  appended := ⟨List.forall_mem_nil _, List.forall_mem_nil _, List.forall_mem_nil _,
    List.forall_mem_nil _, List.Pairwise.nil⟩
  content := by simp [writtenSegment]
  short := by decide

/-- What is left of the header of a new segment. -/
theorem current_header (cardId : Bytes 16) (hr : Next deviceId offered r) (segmentId : Bytes 16)
    (b : BlockWrite) :
    let f := b.bytes (encodedHeader (newHeader deviceId cardId r segmentId)).bytes
    Current deviceId cardId (offered ++ [r]) f ∧ recordsIn deviceId cardId f = [] := by
  have hwritten := written_newHeader cardId hr segmentId
  have hsize : (encodedHeader (newHeader deviceId cardId r segmentId)).bytes.length =
    journalSegmentHeaderSize := (encodedHeader _).size
  have hwhole : Current deviceId cardId (offered ++ [r])
      (encodedHeader (newHeader deviceId cardId r segmentId)).bytes ∧
      recordsIn deviceId cardId (encodedHeader (newHeader deviceId cardId r segmentId)).bytes = [] :=
    ⟨.inl ⟨_, _, _, hwritten, r, by simp, le_rfl⟩, (hwritten.scan none none).1⟩
  have hpart (n : ℕ) : Current deviceId cardId (offered ++ [r])
      ((encodedHeader (newHeader deviceId cardId r segmentId)).bytes.take n) ∧
      recordsIn deviceId cardId
        ((encodedHeader (newHeader deviceId cardId r segmentId)).bytes.take n) = [] := by
    by_cases hn : journalSegmentHeaderSize ≤ n
    · rw [List.take_of_length_le (hsize.le.trans hn)]
      exact hwhole
    · have hshort : ((encodedHeader (newHeader deviceId cardId r segmentId)).bytes.take n).length <
          journalSegmentHeaderSize := by
        rw [List.length_take]
        omega
      exact ⟨.inr hshort, (recordsIn_of_short hshort).1⟩
  cases b with
  | done => exact hwhole
  | fails _ n => exact hpart n
  | powerLoss n => exact hpart n

/-- **`current.tmp` is opened**, and gets a header if it is new. -/
theorem openCurrent_kept (env : OpenEnv) (hsound : card.Sound deviceId cardId offered)
    (hconsistent : Consistent deviceId cardId card w) (hready : w.status = .ready)
    (hr : Next deviceId offered r) :
    let c := openCurrent deviceId cardId r env card w
    Kept deviceId cardId (offered ++ [r]) card w c ∧ c.appended = false ∧
      (c.writer.opened = true → c.card.current ≠ none) ∧
      (c.result = some .ok → Open deviceId cardId r c.card c.writer) := by
  have hsub : offered ⊆ offered ++ [r] := List.subset_append_left _ _
  have hsame {e : CallEnd} {v : Writer} (hv : v.acknowledgedSequence = w.acknowledgedSequence) :
      Kept deviceId cardId (offered ++ [r]) card w ⟨e, card, v, false⟩ := .refl (hsound.mono hsub) hv
  intro c
  unfold c openCurrent
  by_cases hopened : env.opened = true
  swap
  · rw [if_pos (by simpa using hopened)]
    exact ⟨hsame rfl, rfl, hconsistent.opened, fun h => by cases h⟩
  rw [if_neg (by simpa using hopened)]
  cases hcurrent : card.current with
  | some f =>
    have hcard : { card with current := some f } = card := by rw [← hcurrent]
    have hlength := hconsistent.header (.inl hready) f hcurrent
    have hpositive : f.length ≠ 0 := by
      have : 0 < journalSegmentHeaderSize := by decide
      omega
    dsimp only [Option.getD_some]
    rw [hcard, if_pos hpositive]
    split_ifs
    · exact ⟨hsame rfl, rfl, fun _ => by simp [hcurrent], fun h => by cases h⟩
    · refine ⟨hsame rfl, rfl, fun _ => by simp [hcurrent], fun _ => ?_⟩
      obtain ⟨-, -, hfile⟩ := hr.open hsound hconsistent hready hcurrent
      exact ⟨⟨hconsistent.quarantine, hconsistent.header, hconsistent.whole, fun _ => by simp [hcurrent]⟩,
        hready, hfile⟩
  | none =>
    have hnew {f : List UInt8} (hf : Current deviceId cardId (offered ++ [r]) f ∧
        recordsIn deviceId cardId f = []) {e : CallEnd} {v : Writer}
        (hv : v.acknowledgedSequence = w.acknowledgedSequence) : Kept deviceId cardId (offered ++ [r])
          card w ⟨e, { card with current := some f }, v, false⟩ := by
      refine .write hsound hsub hf.1 (fun g hg => ?_) (fun x hx => ?_) hv
      · cases hcurrent.symm.trans hg
      · rw [hf.2] at hx
        cases hx
    have hempty : ([] : List UInt8).length < journalSegmentHeaderSize := by decide
    have hheader := current_header cardId hr env.segmentId env.header
    dsimp only [Option.getD_none, List.length_nil]
    split_ifs
    · exact ⟨hnew ⟨.inr hempty, (recordsIn_of_short hempty).1⟩ rfl, rfl, by simp, fun h => by cases h⟩
    · exact absurd rfl ‹_›
    · cases henv : env.header with
      | fails _ _ =>
        rw [henv] at hheader
        exact ⟨hnew hheader rfl, rfl, by simp, fun h => by cases h⟩
      | powerLoss _ =>
        rw [henv] at hheader
        exact ⟨hnew hheader rfl, rfl, by simp, fun h => by cases h⟩
      | done =>
        rw [henv] at hheader
        have hwritten := written_newHeader cardId hr env.segmentId
        refine ⟨hnew hheader rfl, rfl, by simp, fun _ => ⟨?_, hready, _, _, [], rfl, hwritten, le_rfl,
          by simp⟩⟩
        exact consistent_of_current hconsistent.quarantine rfl ⟨_, _, hwritten⟩

/-- **`current.tmp` is sealed**: its records are in the new segment. -/
theorem rotateCurrent_kept (env : RotateEnv) (hsound : card.Sound deviceId cardId offered)
    (hconsistent : Consistent deviceId cardId card w) {f : List UInt8} (hcurrent : card.current = some f)
    (hwhole : Whole deviceId cardId f) (hlast : ∀ x ∈ recordsIn deviceId cardId f,
      x.sequence ≤ w.currentLast) :
    let c := rotateCurrent env card w
    Kept deviceId cardId offered card w c ∧ Consistent deviceId cardId c.card c.writer ∧
      ∀ g, g ∈ c.card.files ↔ g ∈ card.files := by
  have hsame {e : CallEnd} :
      Kept deviceId cardId offered card w ⟨e, card, { w with opened := false }, false⟩ ∧
      Consistent deviceId cardId card { w with opened := false } ∧
      ∀ g, g ∈ card.files ↔ g ∈ card.files :=
    ⟨.refl hsound (by rfl), ⟨hconsistent.quarantine, hconsistent.header, hconsistent.whole, nofun⟩,
      fun _ => Iff.rfl⟩
  let renamed : Card := ⟨none, card.segments ++ [⟨w.currentFirst, w.currentLast, f⟩], card.quarantine⟩
  have hrenamed {e : CallEnd} {v : Writer} (hack : v.acknowledgedSequence = w.acknowledgedSequence)
      (hstatus : v.status = w.status) (hopened : v.opened = false) :
      Kept deviceId cardId offered card w ⟨e, renamed, v, false⟩ ∧ Consistent deviceId cardId renamed v ∧
      ∀ g, g ∈ renamed.files ↔ g ∈ card.files := by
    have hfiles (g : List UInt8) : g ∈ renamed.files ↔ g ∈ card.files := by
      have hf : f = g ↔ card.current = some g := by rw [hcurrent, Option.some.injEq]
      simp only [Card.mem_files, renamed, List.mem_append, List.mem_singleton, or_and_right, exists_or,
        exists_eq_left, hf, reduceCtorEq, or_false]
      rw [or_assoc, or_comm (a := card.current = some g)]
    refine ⟨.rename (d := renamed) hsound (fun g hg => ?_) hsound.quarantine rfl hfiles hack,
      ⟨hstatus ▸ hconsistent.quarantine, nofun, nofun, by simp [hopened]⟩, hfiles⟩
    rcases List.mem_append.1 hg with hg | hg
    · exact hsound.segments g hg
    · obtain rfl := List.mem_singleton.1 hg
      exact ⟨hwhole, hlast⟩
  intro c
  have hclosed : Kept deviceId cardId offered card w ⟨some .ok, card, w, false⟩ ∧
      Consistent deviceId cardId card w ∧ ∀ g, g ∈ card.files ↔ g ∈ card.files :=
    ⟨.refl hsound rfl, hconsistent, fun _ => Iff.rfl⟩
  unfold c rotateCurrent
  rw [hcurrent]
  cases env with
  | syncFails =>
    dsimp only
    split_ifs
    · exact hclosed
    · exact hsame
  | rename op =>
    dsimp only [Option.getD_some]
    split_ifs
    · exact hclosed
    · exact hsame
    · exact hsame
    cases op with
    | done => exact hrenamed rfl rfl rfl
    | fails => exact hsame
    | powerLoss landed =>
      cases landed with
      | true => exact hrenamed rfl rfl rfl
      | false => exact hsame

/-- What a write of a record leaves of `current.tmp`. -/
theorem Open.write (hopen : Open deviceId cardId r card w) (hr : Next deviceId offered r)
    (hsound : card.Sound deviceId cardId (offered ++ [r])) (b : BlockWrite) :
    let f := card.current.getD [] ++ b.bytes (encodedRecord r).bytes
    (∀ (e : CallEnd) (v : Writer) (appended : Bool), v.acknowledgedSequence = w.acknowledgedSequence →
      Kept deviceId cardId (offered ++ [r]) card w ⟨e, { card with current := some f }, v, appended⟩) ∧
    journalSegmentHeaderSize ≤ f.length ∧
    (b = .done → Whole deviceId cardId f ∧ r.stored ∈ recordsIn deviceId cardId f ∧
      ∀ x ∈ recordsIn deviceId cardId f, x.sequence ≤ r.sequence) := by
  obtain ⟨-, -, old, header, records, hcurrent, hwritten, hfirst, holder⟩ := hopen
  have happend := hwritten.append hr hfirst holder b
  rw [hcurrent, Option.getD_some]
  intro f
  have hold : recordsIn deviceId cardId old = records.map JournalRecord.stored :=
    (hwritten.scan none none).1
  have hoffered : ∀ x ∈ recordsIn deviceId cardId old, ∃ y ∈ offered ++ [r], x = y.stored :=
    fun x hx => hsound.offered x ⟨old, Card.mem_files.2 (.inr (.inr hcurrent)), hx⟩
  have hnew : recordsIn deviceId cardId f = recordsIn deviceId cardId old ∨
      recordsIn deviceId cardId f = recordsIn deviceId cardId old ++ [r.stored] := by
    rcases happend with hwhole | ⟨-, tail, hcut⟩
    · exact .inr (by rw [(hwhole.scan none none).1, hold, List.map_append, List.map_singleton])
    · exact .inl (by rw [(hcut.scan none none).1, hold])
  have hfile : Current deviceId cardId (offered ++ [r]) f := by
    rcases happend with hwhole | ⟨-, tail, hcut⟩
    · exact .inl ⟨_, _, _, hwhole, r, by simp, hfirst⟩
    · exact .inl ⟨_, _, _, hcut, r, by simp, hfirst⟩
  refine ⟨fun e v appended hv => .write hsound (fun _ hx => hx) hfile (fun g hg x hx => ?_)
    (fun x hx => ?_) hv, ?_, fun hdone => ?_⟩
  · obtain rfl := Option.some.inj (hcurrent.symm.trans hg)
    rcases hnew with heq | heq
    · exact heq ▸ hx
    · exact heq ▸ List.mem_append_left _ hx
  · rcases hnew with heq | heq
    · exact hoffered x (heq ▸ hx)
    · rcases List.mem_append.1 (heq ▸ hx) with hx | hx
      · exact hoffered x hx
      · exact ⟨r, by simp, List.mem_singleton.1 hx⟩
  · rw [List.length_append]
    exact hwritten.header_le.trans (Nat.le_add_right _ _)
  · have hwhole := happend.resolve_right fun h => h.1 hdone
    have hscan : recordsIn deviceId cardId f = (records ++ [r]).map JournalRecord.stored :=
      (hwhole.scan none none).1
    refine ⟨⟨_, _, hwhole⟩, by rw [hscan]; simp, ?_⟩
    rw [hscan, List.forall_mem_map]
    intro x hx
    rcases List.mem_append.1 hx with hx | hx
    · exact (holder x hx).le
    · exact (List.mem_singleton.1 hx) ▸ le_rfl

/-- **A record is written** to the open file. -/
theorem appendBlock_appends (env : AppendEnv) (hr : Next deviceId offered r)
    (hsound : card.Sound deviceId cardId (offered ++ [r])) (hopen : Open deviceId cardId r card w) :
    Appends deviceId cardId offered r card w (appendBlock r env card w) := by
  obtain ⟨hkept, hheader, hdone⟩ := hopen.write hr hsound env.block
  have hquarantine := hopen.consistent.quarantine (.inl hopen.ready)
  unfold appendBlock
  generalize card.current.getD [] ++ env.block.bytes (encodedRecord r).bytes = f at *
  cases henv : env.block with
  | fails noSpace n =>
    refine ⟨hkept _ _ _ rfl, fun _ => ⟨fun _ => hquarantine, fun _ g hg => ?_, fun h => ?_, by simp⟩,
      by simp⟩
    · obtain rfl := Option.some.inj hg
      exact hheader
    · cases noSpace <;> cases h
  | powerLoss n => exact ⟨hkept _ _ _ rfl, fun h => absurd rfl h, by simp⟩
  | done =>
    obtain ⟨hwhole, hmem, hlast⟩ := hdone henv
    have hfound : ({ card with current := some f } : Card).Finds deviceId cardId r.stored :=
      ⟨f, Card.mem_files.2 (.inr (.inr rfl)), hmem⟩
    obtain ⟨free, hcapacity⟩ := updateCapacity_snd env.capacity { w with
      currentSize := w.currentSize + journalRecordSize
      currentLast := r.sequence
      inventory := w.inventory.see r.sequence }
    dsimp only
    rw [hcapacity]
    generalize hv : ({ w with
      currentSize := w.currentSize + journalRecordSize
      currentLast := r.sequence
      inventory := w.inventory.see r.sequence
      bytesFree := free } : Writer) = v
    have hack : v.acknowledgedSequence = w.acknowledgedSequence := by rw [← hv]
    have hsequence : v.currentLast = r.sequence := by rw [← hv]
    have hstep : Consistent deviceId cardId { card with current := some f } v :=
      consistent_of_current (fun _ => hquarantine) rfl hwhole
    split_ifs
    · obtain ⟨hrotated, hconsistent, hfiles⟩ := rotateCurrent_kept env.rotate
        (hkept (some .ok) v true hack).sound hstep rfl hwhole (hsequence ▸ hlast)
      refine ⟨(hkept (some .ok) v true hack).trans (hrotated.congr rfl rfl), fun _ => hconsistent,
        fun _ => ?_⟩
      obtain ⟨g, hg, hmem⟩ := hfound
      exact ⟨g, (hfiles g).2 hg, hmem⟩
    · exact ⟨hkept _ _ _ hack, fun _ => hstep, fun _ => hfound⟩

/-- **A record is appended**, or the call fails: all that was on the card is kept. -/
theorem appendRecord_appends (env : AppendEnv) (hr : Next deviceId offered r)
    (hsound : card.Sound deviceId cardId offered) (hconsistent : Consistent deviceId cardId card w) :
    Appends deviceId cardId offered r card w (appendRecord deviceId cardId r env card w) := by
  have hsub : offered ⊆ offered ++ [r] := List.subset_append_left _ _
  unfold appendRecord
  by_cases hready : w.status = .ready
  swap
  · rw [if_pos hready]
    exact ⟨.refl (hsound.mono hsub) rfl, fun _ => hconsistent, by simp⟩
  rw [if_neg (not_not.2 hready)]
  have hspace : ∀ c, c = (if w.bytesFree < storageEmergencyReserve then
        reclaimAcknowledgedSegments deviceId cardId env.reclaim card w
      else ⟨some .ok, card, w, false⟩) → Kept deviceId cardId offered card w c ∧ Framed card w c := by
    rintro c rfl
    split_ifs
    · exact reclaim_kept env.reclaim hsound
    · exact ⟨.refl hsound rfl, rfl, rfl, rfl, rfl, rfl⟩
  generalize (if w.bytesFree < storageEmergencyReserve then _ else _ : StorageCall) = c at hspace ⊢
  obtain ⟨hkept, hframed⟩ := hspace c rfl
  have hready' : c.writer.status = .ready := hframed.status.trans hready
  have hconsistent' := hframed.consistent hconsistent
  refine StorageCall.andThen_rule (P := Appends deviceId cardId offered r card w)
    (fun hlost => ⟨hkept.mono hsub, fun h => absurd hlost h, by simp [hframed.appended]⟩)
    (fun e _ => ⟨(hkept.mono hsub).congr rfl rfl, fun _ => ?_, by simp [hframed.appended]⟩) fun _ => ?_
  · split_ifs
    · exact hconsistent'.full hready'
    · exact consistent_of_status (by simp) (by simp) hconsistent'.opened
  have hfile : ∀ d, d = (if c.writer.opened then (⟨some .ok, c.card, c.writer, false⟩ : StorageCall)
        else openCurrent deviceId cardId r env.opened c.card c.writer) →
      Kept deviceId cardId (offered ++ [r]) c.card c.writer d ∧ d.appended = false ∧
        (d.writer.opened = true → d.card.current ≠ none) ∧
        (d.result = some .ok → Open deviceId cardId r d.card d.writer) := by
    rintro d rfl
    split_ifs with hopened
    · obtain ⟨f, hf⟩ := Option.ne_none_iff_exists'.1 (hconsistent'.opened hopened)
      exact ⟨.refl (hkept.sound.mono hsub) rfl, rfl, hconsistent'.opened,
        fun _ => hr.open hkept.sound hconsistent' hready' hf⟩
    · exact openCurrent_kept env.opened hkept.sound hconsistent' hready' hr
  generalize (if c.writer.opened then _ else _ : StorageCall) = d at hfile ⊢
  obtain ⟨hopen, happended, hopened, hfile⟩ := hfile d rfl
  have hboth := (hkept.mono hsub).trans hopen
  refine StorageCall.andThen_rule (P := Appends deviceId cardId offered r card w)
    (fun hlost => ⟨hboth, fun h => absurd hlost h, by simp [happended]⟩)
    (fun e _ => ⟨hboth.congr rfl rfl, fun _ => consistent_of_status (by simp) (by simp) hopened,
      by simp [happended]⟩) fun hok => ?_
  obtain ⟨hblock, hend, hfound⟩ := appendBlock_appends env hr hopen.sound (hfile hok)
  exact ⟨hboth.trans hblock, hend, hfound⟩

/-! ### Starting -/

/-- An index is built of files that are whole. -/
theorem scanInventory_ok {files : List (List UInt8)} {inventory : StorageHealth}
    (hok : (scanInventory deviceId cardId files inventory).1 = .ok) :
    ∀ f ∈ files, ∃ health, (scanSegment (wholeFile f) deviceId cardId none health).1 = .ok := by
  induction files generalizing inventory with
  | nil => exact List.forall_mem_nil _
  | cons f files ih =>
    rw [scanInventory] at hok
    dsimp only at hok
    split_ifs at hok with hscan
    · intro g hg
      rcases List.mem_cons.1 hg with rfl | hg
      · exact ⟨some inventory, hscan⟩
      · exact ih hok g hg
    · exact absurd hok hscan

theorem pmStorageRebuildIndex_ok {fault : Option Failure}
    (hok : (pmStorageRebuildIndex deviceId cardId fault card w).1 = .ok) :
    ∀ f ∈ card.files, ∃ health, (scanSegment (wholeFile f) deviceId cardId none health).1 = .ok := by
  unfold pmStorageRebuildIndex at hok
  cases fault with
  | some e => exact absurd hok e.2
  | none =>
    dsimp only at hok
    split_ifs at hok with hscan
    · exact scanInventory_ok hscan
    · exact absurd hok hscan

theorem refreshCapacity_snd (capacity : Except Failure ℕ) (w : Writer) :
    ∃ free, (refreshCapacity capacity w).2 = { w with bytesFree := free } ∨
      w.status = .full ∧
        (refreshCapacity capacity w).2 = { w with bytesFree := free, status := .ready } := by
  obtain ⟨free, hcapacity⟩ := updateCapacity_snd capacity w
  refine ⟨free, ?_⟩
  unfold refreshCapacity
  dsimp only
  rw [hcapacity]
  split_ifs with hfull
  · exact .inr ⟨hfull.2.1, rfl⟩
  · exact .inl rfl

/-- The part of the record at the end of `current.tmp` is cut off. -/
theorem Kept.cut (hsound : card.Sound deviceId cardId offered) {f : List UInt8}
    (hcurrent : card.current = some f) (hlength : journalSegmentHeaderSize ≤ f.length) {e : CallEnd} :
    Kept deviceId cardId offered card w
      ⟨e, { card with current := some (f.take (validEnd f)) }, w, false⟩ := by
  rcases hsound.current f hcurrent with ⟨header, records, tail, hwritten, hfirst⟩ | hshort
  · have hsame : recordsIn deviceId cardId (f.take (validEnd f)) = recordsIn deviceId cardId f :=
      (hwritten.cut.scan none none).1.trans (hwritten.scan none none).1.symm
    refine .write hsound (fun _ hx => hx) (.inl ⟨_, _, _, hwritten.cut, hfirst⟩) (fun g hg => ?_)
      (fun x hx => ?_) rfl
    · obtain rfl := Option.some.inj (hcurrent.symm.trans hg)
      rw [hsame]
      exact List.Subset.refl _
    · rw [hsame] at hx
      exact hsound.offered x ⟨f, Card.mem_files.2 (.inr (.inr hcurrent)), hx⟩
  · exact absurd hlength (not_le.2 hshort)

theorem quarantineCurrent_kept (op : FileOp) (hsound : card.Sound deviceId cardId offered) :
    Kept deviceId cardId offered card w (quarantineCurrent op card w) ∧
      (quarantineCurrent op card w).writer = w := by
  let renamed : Card := ⟨none, card.segments, card.quarantine ++ card.current.toList⟩
  have hrenamed {e : CallEnd} : Kept deviceId cardId offered card w ⟨e, renamed, w, false⟩ := by
    refine .rename (d := renamed) hsound hsound.segments (fun f hf => ?_) rfl (fun f => ?_) rfl
    · rcases List.mem_append.1 hf with hf | hf
      · exact hsound.quarantine f hf
      · exact (hsound.current f (Option.mem_toList.1 hf)).left
    · simp [Card.mem_files, renamed]
  cases op with
  | done => exact ⟨hrenamed, rfl⟩
  | fails => exact ⟨.refl hsound rfl, rfl⟩
  | powerLoss landed =>
    cases landed with
    | true => exact ⟨hrenamed, rfl⟩
    | false => exact ⟨.refl hsound rfl, rfl⟩

/-- Some variables of a start. -/
structure Starting (w v : Writer) : Prop where
  acknowledged : v.acknowledgedSequence = w.acknowledgedSequence
  status : v.status = w.status
  opened : v.opened = w.opened

theorem recoverRecords_kept (first : ℕ) (bytes : List UInt8) (env : RecoverEnv)
    (hsound : card.Sound deviceId cardId offered) :
    Kept deviceId cardId offered card w (recoverRecords deviceId first bytes env card w) ∧
      Starting w (recoverRecords deviceId first bytes env card w).writer := by
  unfold recoverRecords
  split_ifs
  · exact ⟨.refl hsound rfl, rfl, rfl, rfl⟩
  generalize recoverLoop deviceId ⟨bytes, env.readable⟩ (bytes.length + 1) journalSegmentHeaderSize
    w.currentLast = end'
  obtain ⟨how, last⟩ := end'
  cases how with
  | failed => exact ⟨.refl hsound (by rfl), rfl, rfl, rfl⟩
  | whole => exact ⟨.refl hsound (by rfl), rfl, rfl, rfl⟩
  | damaged =>
    obtain ⟨hkept, hwriter⟩ := quarantineCurrent_kept
      (w := { w with currentFirst := 0, currentLast := 0, currentSize := 0 }) env.rename hsound
    dsimp only
    rw [hwriter]
    exact ⟨⟨hkept.sound, hkept.found, hkept.acknowledged⟩, rfl, rfl, rfl⟩

theorem header_le_of_ownHeader {file : CardFile} {header : SegmentHeader}
    (h : ownHeader file deviceId cardId = some header) : journalSegmentHeaderSize ≤ file.bytes.length := by
  by_contra hshort
  have hread : file.read 0 journalSegmentHeaderSize = none := by
    refine if_neg fun hle => hshort ?_
    rw [Nat.zero_add] at hle
    exact hle.1
  unfold ownHeader at h
  rw [hread] at h
  cases h

/-- **A start keeps the records**: what is left of `current.tmp` is cut to whole records or put
aside. -/
theorem recoverCurrent_kept (env : RecoverEnv) (hsound : card.Sound deviceId cardId offered) :
    Kept deviceId cardId offered card w (recoverCurrent deviceId cardId env card w) ∧
      Starting w (recoverCurrent deviceId cardId env card w).writer := by
  have hsame {e : CallEnd} : Kept deviceId cardId offered card w ⟨e, card, w, false⟩ ∧ Starting w w :=
    ⟨.refl hsound rfl, rfl, rfl, rfl⟩
  unfold recoverCurrent
  cases hcurrent : card.current with
  | none => exact hsame
  | some bytes =>
    dsimp only
    by_cases hopened : env.opened = true
    swap
    · rw [if_pos (by simpa using hopened)]
      exact hsame
    rw [if_neg (by simpa using hopened)]
    cases hheader : ownHeader ⟨bytes, env.readable⟩ deviceId cardId with
    | none =>
      obtain ⟨hkept, hwriter⟩ := quarantineCurrent_kept (w := w) env.rename hsound
      exact ⟨hkept, by rw [hwriter], by rw [hwriter], by rw [hwriter]⟩
    | some header =>
      have hcut {e : CallEnd} := Kept.cut (w := w) (e := e) hsound hcurrent
        (header_le_of_ownHeader hheader)
      dsimp only
      split_ifs
      · exact hsame
      · exact recoverRecords_kept _ _ _ hsound
      · cases env.truncate with
        | fails => exact hsame
        | powerLoss landed =>
          cases landed with
          | true => exact ⟨hcut, rfl, rfl, rfl⟩
          | false => exact hsame
        | done =>
          obtain ⟨hkept, hstarting⟩ := recoverRecords_kept (w := w) header.firstSequence
            (bytes.take (validEnd bytes)) env (hcut (e := some .ok)).sound
          exact ⟨hcut.trans hkept, hstarting⟩

/-- A card whose files can be indexed. -/
theorem consistent_of_indexed (hsound : card.Sound deviceId cardId offered)
    (hindexed : ∀ f ∈ card.files, ∃ health,
      (scanSegment (wholeFile f) deviceId cardId none health).1 = .ok)
    (hopened : w.opened = false) : Consistent deviceId cardId card w := by
  have hquarantine : ∀ f ∈ card.quarantine, Whole deviceId cardId f := fun f hf => by
    obtain ⟨health, hscan⟩ := hindexed f (Card.mem_files.2 (.inr (.inl hf)))
    exact (hsound.quarantine f hf).whole hscan
  have hcurrent : ∀ f, card.current = some f → Whole deviceId cardId f := fun f hf => by
    obtain ⟨health, hscan⟩ := hindexed f (Card.mem_files.2 (.inr (.inr hf)))
    exact (hsound.current f hf).left.whole hscan
  exact ⟨fun _ => hquarantine, fun _ f hf => (hcurrent f hf).header_le,
    fun _ f hf => (hcurrent f hf).validEnd_eq, by simp [hopened]⟩

theorem pmStorageStart_kept (env : StartEnv) (hsound : card.Sound deviceId cardId offered) :
    let start := pmStorageStart deviceId cardId env card
    start.1.Sound deviceId cardId offered ∧
      (∀ r, card.Finds deviceId cardId r → start.1.Finds deviceId cardId r ∨ r.sequence ≤ 0) ∧
      ∀ w, start.2 = some w → w.acknowledgedSequence = 0 ∧ Consistent deviceId cardId start.1 w := by
  intro start
  unfold start pmStorageStart
  have hnothing : card.Sound deviceId cardId offered ∧ (∀ r, card.Finds deviceId cardId r →
      card.Finds deviceId cardId r ∨ r.sequence ≤ 0) ∧ ∀ w : Writer, none = some w →
        w.acknowledgedSequence = 0 ∧ Consistent deviceId cardId card w :=
    ⟨hsound, fun _ hr => .inl hr, nofun⟩
  cases env.mounted with
  | false => exact hnothing
  | true =>
  cases env.capacity with
  | error e => exact hnothing
  | ok free =>
    obtain ⟨hkept, hstarting⟩ := recoverCurrent_kept
      (w := { Writer.zero with status := .ready, bytesFree := free }) env.recover hsound
    dsimp only
    generalize recoverCurrent deviceId cardId env.recover card
      { Writer.zero with status := .ready, bytesFree := free } = c at hkept hstarting ⊢
    cases c.result with
    | none => exact ⟨hkept.sound, hkept.found, nofun⟩
    | some e =>
      refine ⟨hkept.sound, hkept.found, fun w hw => ?_⟩
      have hindex : ∀ p, p = (if e = .ok then
            pmStorageRebuildIndex deviceId cardId env.index c.card c.writer
          else (e, c.writer)) → Starting c.writer p.2 ∧ (p.1 = .ok → ∀ f ∈ c.card.files, ∃ health,
            (scanSegment (wholeFile f) deviceId cardId none health).1 = .ok) := by
        rintro p rfl
        split_ifs with hok
        · obtain ⟨complete, inventory, heq⟩ :=
            pmStorageRebuildIndex_snd deviceId cardId env.index c.card c.writer
          rw [heq]
          exact ⟨⟨rfl, rfl, rfl⟩, pmStorageRebuildIndex_ok⟩
        · exact ⟨⟨rfl, rfl, rfl⟩, fun h => absurd h hok⟩
      dsimp only at hw
      generalize (if e = .ok then _ else _ : EspErr × Writer) = p at hindex hw
      obtain ⟨hsame, hindexed⟩ := hindex p rfl
      have hack : p.2.acknowledgedSequence = 0 := hsame.acknowledged.trans hkept.acknowledged
      have hready : p.2.status = .ready := hsame.status.trans hstarting.status
      have hopened : p.2.opened = false := hsame.opened.trans hstarting.opened
      split_ifs at hw with htask hfailed hrefresh <;> obtain rfl := Option.some.inj hw
      · exact ⟨hack, consistent_of_status (by simp) (by simp) (by simp [hopened])⟩
      · obtain ⟨free', heq | ⟨hfull, -⟩⟩ := refreshCapacity_snd env.refreshed p.2
        · rw [heq]
          exact ⟨hack, consistent_of_status (by simp) (by simp) (by simp [hopened])⟩
        · cases hready.symm.trans hfull
      · obtain ⟨free', heq | ⟨hfull, -⟩⟩ := refreshCapacity_snd env.refreshed p.2
        · rw [heq]
          exact ⟨hack, consistent_of_indexed hkept.sound (hindexed (not_not.1 hfailed)) hopened⟩
        · cases hready.symm.trans hfull

end

end PowerMonitor.Storage
