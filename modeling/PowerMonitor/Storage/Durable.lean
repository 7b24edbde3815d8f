import Mathlib.Data.List.Pairwise
import PowerMonitor.Storage.Kept

/-!
# Records on the card are durable

What becomes of the records of the journal over every run of the storage task: over any starts,
failed calls, torn writes and losses of power.

* `Journal.Inv` is the invariant of the card and the variables, and `Journal.Inv.step` its step
  lemma.
* `appended_found`: a record that was written and synchronised is found by a scan of some file,
  until its sequence is acknowledged; and a scan finds only records that were to be appended.
* `batch_reads_appended`: while storage is ready, a batch holds the first of these records.
* `header_cut_disables`: when power is lost while a new segment gets its header, no start makes
  storage ready again.
-/

namespace PowerMonitor.Storage

open CMemory Runs

/-! ## Runs -/

/-- The condition on a run: records come in ascending order, and a write that was cut short for lack
of space leaves no part of a record in `current.tmp` when records are admitted again. -/
def Journal.Orderly (deviceId : Bytes 16) (s : Journal) : StorageAction → Prop
  | .append record _ => Next deviceId s.offered record
  | .refreshCapacity _ => ∀ w, s.writer = some w → w.status = .full →
      ∀ f, s.card.current = some f → validEnd f = f.length
  | _ => True

/-- The invariant of an orderly run. -/
structure Journal.Inv (deviceId cardId : Bytes 16) (s : Journal) : Prop where
  sound : s.card.Sound deviceId cardId s.offered
  ascending : s.offered.Pairwise (fun x y => x.sequence < y.sequence)
  offered : s.appended ⊆ s.offered
  found : ∀ r ∈ s.appended, s.card.Finds deviceId cardId r.stored ∨ ∃ n ∈ s.acknowledged, r.sequence ≤ n
  zero : 0 ∈ s.acknowledged
  acknowledged : ∀ w, s.writer = some w → w.acknowledgedSequence ∈ s.acknowledged
  consistent : ∀ w, s.writer = some w → Consistent deviceId cardId s.card w

section

variable {deviceId cardId : Bytes 16} {s : Journal}

theorem inv_blank : Journal.blank.Inv deviceId cardId where
  sound := ⟨List.forall_mem_nil _, List.forall_mem_nil _, nofun, fun r hr => by
    obtain ⟨f, hf, -⟩ := hr
    cases hf⟩
  ascending := List.Pairwise.nil
  offered := List.nil_subset _
  found := List.forall_mem_nil _
  zero := by simp [Journal.blank]
  acknowledged := nofun
  consistent := nofun

/-- A step that leaves the card and the records as they are. -/
theorem Journal.Inv.unchanged (h : s.Inv deviceId cardId) {writer : Option Writer}
    (hwriter : ∀ v, writer = some v → ∃ w, s.writer = some w ∧
      v.acknowledgedSequence = w.acknowledgedSequence ∧
      (Consistent deviceId cardId s.card w → Consistent deviceId cardId s.card v)) :
    ({ s with writer } : Journal).Inv deviceId cardId where
  sound := h.sound
  ascending := h.ascending
  offered := h.offered
  found := h.found
  zero := h.zero
  acknowledged v hv := by
    obtain ⟨w, hw, hack, -⟩ := hwriter v hv
    exact hack ▸ h.acknowledged w hw
  consistent v hv := by
    obtain ⟨w, hw, -, hconsistent⟩ := hwriter v hv
    exact hconsistent (h.consistent w hw)

theorem readBatchOwner_snd (deviceId cardId : Bytes 16) (directory : List (List UInt8)) (cursor : ℕ)
    (fault : Option Failure) (w : Writer) :
    (readBatchOwner deviceId cardId directory cursor fault w).2.2 = w ∨
      (readBatchOwner deviceId cardId directory cursor fault w).2.2 =
        { w with inventoryComplete := false, status := .ioError } := by
  unfold readBatchOwner
  split_ifs
  · exact .inl rfl
  cases fault with
  | some e => exact .inr rfl
  | none =>
    dsimp only
    split_ifs
    · exact .inl rfl
    · exact .inr rfl

theorem Journal.Inv.append (h : s.Inv deviceId cardId) {r : JournalRecord} (env : AppendEnv)
    (hr : Next deviceId s.offered r) :
    (s.step deviceId cardId (.append r env)).Inv deviceId cardId := by
  unfold Journal.step
  cases hwriter : s.writer with
  | none => exact h
  | some w =>
    obtain ⟨hkept, hconsistent, hfound⟩ := appendRecord_appends env hr h.sound (h.consistent w hwriter)
    dsimp only
    generalize appendRecord deviceId cardId r env s.card w = c at hkept hconsistent hfound ⊢
    have hback {v : Writer} (hv : (c.result.map fun _ => c.writer) = some v) :
        c.result ≠ none ∧ c.writer = v := by
      cases hresult : c.result with
      | none => simp [hresult] at hv
      | some e => exact ⟨by simp, by simpa [hresult] using hv⟩
    have hold : ∀ x ∈ s.appended, c.card.Finds deviceId cardId x.stored ∨
        ∃ n ∈ s.acknowledged, x.sequence ≤ n := by
      intro x hx
      rcases h.found x hx with hfinds | hacked
      · exact (hkept.found x.stored hfinds).imp id fun hle =>
          ⟨_, h.acknowledged w hwriter, hle⟩
      · exact .inr hacked
    refine ⟨hkept.sound, ?_, ?_, ?_, h.zero, fun v hv => ?_, fun v hv => ?_⟩
    · refine List.pairwise_append.2 ⟨h.ascending, List.pairwise_singleton _ _, fun x hx y hy => ?_⟩
      obtain rfl := List.mem_singleton.1 hy
      exact hr.newer x hx
    · dsimp only
      split_ifs
      · exact List.append_subset.2 ⟨fun x hx => List.mem_append_left _ (h.offered hx), by simp⟩
      · exact fun x hx => List.mem_append_left _ (h.offered hx)
    · dsimp only
      split_ifs with happended
      · intro x hx
        rcases List.mem_append.1 hx with hx | hx
        · exact hold x hx
        · obtain rfl := List.mem_singleton.1 hx
          exact .inl (hfound happended)
      · exact hold
    · obtain ⟨-, rfl⟩ := hback hv
      exact hkept.acknowledged ▸ h.acknowledged w hwriter
    · obtain ⟨hresult, rfl⟩ := hback hv
      exact hconsistent hresult

/-- **The invariant of a step**: one case for each action. -/
theorem Journal.Inv.step (h : s.Inv deviceId cardId) (a : StorageAction) (ha : s.Orderly deviceId a) :
    (s.step deviceId cardId a).Inv deviceId cardId := by
  cases a with
  | start env =>
    unfold Journal.step
    cases hwriter : s.writer with
    | some w => exact h
    | none =>
      obtain ⟨hsound, hfound, hstarted⟩ := pmStorageStart_kept env h.sound
      refine ⟨hsound, h.ascending, h.offered, fun r hr => ?_, h.zero, fun v hv => ?_, fun v hv => ?_⟩
      · rcases h.found r hr with hfinds | hacked
        · exact (hfound r.stored hfinds).imp id fun hle => ⟨0, h.zero, hle⟩
        · exact .inr hacked
      · obtain ⟨hzero, -⟩ := hstarted v hv
        exact hzero ▸ h.zero
      · exact (hstarted v hv).2
  | append record env => exact h.append env ha
  | readBatch directory cursor fault =>
    refine h.unchanged fun v hv => ?_
    obtain ⟨w, hw, rfl⟩ := Option.map_eq_some_iff.1 hv
    rcases readBatchOwner_snd deviceId cardId directory cursor fault w with heq | heq
    · rw [heq]
      exact ⟨w, hw, rfl, id⟩
    · rw [heq]
      exact ⟨w, hw, rfl, fun hconsistent => consistent_of_status (by simp) (by simp) hconsistent.opened⟩
  | refreshInventory fault =>
    refine h.unchanged fun v hv => ?_
    obtain ⟨w, hw, rfl⟩ := Option.map_eq_some_iff.1 hv
    obtain ⟨complete, inventory, heq⟩ := pmStorageRebuildIndex_snd deviceId cardId fault s.card w
    rw [heq]
    exact ⟨w, hw, rfl, fun hconsistent => hconsistent.congr rfl rfl rfl rfl⟩
  | refreshCapacity capacity =>
    refine h.unchanged fun v hv => ?_
    obtain ⟨w, hw, rfl⟩ := Option.map_eq_some_iff.1 hv
    obtain ⟨free, heq | ⟨hfull, heq⟩⟩ := refreshCapacity_snd capacity w
    · rw [heq]
      exact ⟨w, hw, rfl, fun hconsistent => hconsistent.congr rfl rfl rfl rfl⟩
    · rw [heq]
      exact ⟨w, hw, rfl, fun hconsistent => ⟨fun _ => hconsistent.quarantine (.inr hfull),
        fun _ => hconsistent.header (.inr hfull), fun _ => ha w hw hfull, hconsistent.opened⟩⟩
  | acknowledge sequence =>
    refine ⟨h.sound, h.ascending, h.offered, fun r hr => ?_, List.mem_append_left _ h.zero,
      fun v hv => ?_, fun v hv => ?_⟩
    · exact (h.found r hr).imp id fun hacked => by
        obtain ⟨n, hn, hle⟩ := hacked
        exact ⟨n, List.mem_append_left _ hn, hle⟩
    · obtain ⟨w, -, rfl⟩ := Option.map_eq_some_iff.1 hv
      exact List.mem_append_right _ List.mem_cons_self
    · obtain ⟨w, hw, rfl⟩ := Option.map_eq_some_iff.1 hv
      exact (h.consistent w hw).congr rfl rfl rfl rfl
  | powerLoss => exact h.unchanged nofun

theorem inv_run {acts : List StorageAction}
    (hacts : Along (Journal.step deviceId cardId) (Journal.Orderly deviceId) Journal.blank acts) :
    (run (Journal.step deviceId cardId) Journal.blank acts).Inv deviceId cardId :=
  Along.invariant (fun _ a h ha => h.step a ha) inv_blank hacts

/-- **Appended records are found**, over any run of starts, failed calls, torn writes and losses of
power: a record that was written and synchronised is in some file, with all that the format keeps of
it, until its sequence is acknowledged; and a scan finds only records that were to be appended. -/
theorem appended_found {acts : List StorageAction}
    (hacts : Along (Journal.step deviceId cardId) (Journal.Orderly deviceId) Journal.blank acts) :
    let s := run (Journal.step deviceId cardId) Journal.blank acts
    (∀ r ∈ s.appended, s.card.Finds deviceId cardId r.stored ∨ ∃ n ∈ s.acknowledged, r.sequence ≤ n) ∧
      ∀ r, s.card.Finds deviceId cardId r → ∃ x ∈ s.offered, r = x.stored :=
  ⟨(inv_run hacts).found, (inv_run hacts).sound.offered⟩

/-- A card with space, and no fault. -/
def calmStart : StartEnv :=
  ⟨true, .ok (2 ^ 24), ⟨true, fun _ => true, true, .done, true, .done⟩, none, .ok (2 ^ 24), true⟩

def calmAppend : AppendEnv :=
  ⟨⟨.ok (2 ^ 24), [], none⟩, ⟨true, true, Bytes.zero 16, .done⟩, .done, .ok (2 ^ 24), .rename .done⟩

/-- A record before `edgeRecord`. -/
def firstRecord : JournalRecord := { edgeRecord with sequence := 1 }

/-- A start, and two records after it. -/
def twoRecords : List StorageAction :=
  [.start calmStart, .append firstRecord calmAppend, .append edgeRecord calmAppend]

theorem orderly_twoRecords : Along (Journal.step (Bytes.zero 16) (Bytes.zero 16))
    (Journal.Orderly (Bytes.zero 16)) Journal.blank twoRecords := by
  refine ⟨trivial, ⟨by constructor <;> decide, by decide, rfl, List.forall_mem_nil _⟩,
    ⟨by constructor <;> decide, by decide, rfl, fun x hx => ?_⟩, trivial⟩
  have heq : x = firstRecord := List.mem_singleton.1 hx
  subst heq
  decide

theorem appended_found_two :
    let s := run (Journal.step (Bytes.zero 16) (Bytes.zero 16)) Journal.blank twoRecords
    (∀ r ∈ s.appended, s.card.Finds (Bytes.zero 16) (Bytes.zero 16) r.stored ∨
      ∃ n ∈ s.acknowledged, r.sequence ≤ n) ∧
      ∀ r, s.card.Finds (Bytes.zero 16) (Bytes.zero 16) r → ∃ x ∈ s.offered, r = x.stored :=
  appended_found orderly_twoRecords

/-! ### Batches -/

theorem Consistent.whole_files {offered : List JournalRecord} {card : Card} {w : Writer}
    (h : Consistent deviceId cardId card w) (hsound : card.Sound deviceId cardId offered)
    (hready : w.status = .ready) : ∀ f ∈ card.files, Whole deviceId cardId f := by
  intro f hf
  rcases Card.mem_files.1 hf with ⟨g, hg, rfl⟩ | hf | hf
  · exact (hsound.segments g hg).1
  · exact h.quarantine (.inl hready) f hf
  · rcases hsound.current f hf with ⟨header, records, tail, hwritten, -⟩ | hshort
    · obtain rfl := hwritten.tail_eq_nil (h.whole hready f hf)
      exact ⟨header, records, hwritten⟩
    · exact absurd (h.header (.inl hready) f hf) (not_le.2 hshort)

theorem scanBatch_eq {files : List (List UInt8)} (hwhole : ∀ f ∈ files, Whole deviceId cardId f)
    (batch : StorageBatch) : scanBatch deviceId cardId files batch =
      (.ok, (files.flatMap (recordsIn deviceId cardId)).foldl insertSorted batch) := by
  induction files generalizing batch with
  | nil => rfl
  | cons f files ih =>
    have hok := (hwhole f List.mem_cons_self).scan_ok (some batch) none
    have hbatch : (scanSegment (wholeFile f) deviceId cardId (some batch) none).2.batch =
        some ((recordsIn deviceId cardId f).foldl insertSorted batch) := scanSegment_batch batch none
    rw [scanBatch]
    dsimp only
    rw [if_pos hok, hbatch, Option.getD_some, ih fun g hg => hwhole g (List.mem_cons_of_mem f hg),
      List.flatMap_cons, List.foldl_append]

/-- **A batch holds the first appended records**: while storage is ready, in whatever order the
files of the directory are read, a batch has, in ascending order, what the format keeps of records
after the cursor that were to be appended. A record that was written and synchronised, and is not
acknowledged, is missing only if the batch is full of records before it, and then more are
announced. -/
theorem batch_reads_appended {acts : List StorageAction}
    (hacts : Along (Journal.step deviceId cardId) (Journal.Orderly deviceId) Journal.blank acts)
    {w : Writer} (hwriter : (run (Journal.step deviceId cardId) Journal.blank acts).writer = some w)
    (hready : w.status = .ready) (hcomplete : w.inventoryComplete = true)
    {directory : List (List UInt8)}
    (hdirectory : directory.Perm (run (Journal.step deviceId cardId) Journal.blank acts).card.files)
    (cursor : ℕ) :
    let s := run (Journal.step deviceId cardId) Journal.blank acts
    ∃ batch, readBatchOwner deviceId cardId directory cursor none w = (.ok, batch, w) ∧
      batch.records.Pairwise (fun x y => x.sequence < y.sequence) ∧
      (∀ x ∈ batch.records, cursor < x.sequence ∧ ∃ r ∈ s.offered, x = r.stored) ∧
      ∀ r ∈ s.appended, cursor < r.sequence → (∀ n ∈ s.acknowledged, n < r.sequence) →
        r.stored ∈ batch.records ∨
          batch.moreAvailable = true ∧ batch.records.length = storageBatchMax ∧
            ∀ x ∈ batch.records, x.sequence < r.sequence := by
  have hinv := inv_run hacts
  intro s
  have hsound : s.card.Sound deviceId cardId s.offered := hinv.sound
  have hwhole : ∀ f ∈ directory, Whole deviceId cardId f := fun f hf =>
    (hinv.consistent w hwriter).whole_files hsound hready f (hdirectory.mem_iff.1 hf)
  let journal := directory.flatMap (recordsIn deviceId cardId)
  have hjournal {x : JournalRecord} : x ∈ journal ↔ s.card.Finds deviceId cardId x := by
    simp only [journal, List.mem_flatMap, Card.Finds, hdirectory.mem_iff]
    rfl
  have hread : readBatchOwner deviceId cardId directory cursor none w =
      (.ok, readBatch journal cursor, w) := by
    unfold readBatchOwner
    rw [if_neg (by simp [hcomplete, hready])]
    dsimp only
    rw [scanBatch_eq hwhole]
    rfl
  obtain ⟨hsorted, htaken, hmissing, hmore⟩ := batch_keeps_first journal cursor
  have hstored : ∀ x ∈ (readBatch journal cursor).records,
      cursor < x.sequence ∧ ∃ r ∈ s.offered, x = r.stored := fun x hx => by
    obtain ⟨hcursor, hfind⟩ := htaken x hx
    exact ⟨hcursor, hsound.offered x (hjournal.1 (List.mem_of_find?_eq_some hfind))⟩
  refine ⟨readBatch journal cursor, hread, hsorted, hstored, fun r hr hcursor hunacked => ?_⟩
  have hmem : r.stored ∈ journal := by
    refine hjournal.2 ((hinv.found r hr).resolve_right fun hacked => ?_)
    obtain ⟨n, hn, hle⟩ := hacked
    exact absurd (hunacked n hn) (not_lt.2 hle)
  rcases hmissing r.stored hmem hcursor with ⟨x, hx, hsequence⟩ | ⟨hlength, hbefore⟩
  · -- two records of one sequence are one record, so the batch has this one
    obtain ⟨-, y, hy, rfl⟩ := hstored x hx
    have hsame : y = r := by
      by_contra hne
      have : Std.Symm fun a b : JournalRecord => a.sequence ≠ b.sequence := ⟨fun _ _ hab => hab.symm⟩
      have hdistinct : s.offered.Pairwise fun a b => a.sequence ≠ b.sequence :=
        hinv.ascending.imp fun hlt => hlt.ne
      exact hdistinct.forall hy (hinv.offered hr) hne hsequence
    exact .inl (hsame ▸ hx)
  · refine .inr ⟨hmore.2 ⟨r.stored, hmem, hcursor, fun x hx heq => ?_⟩, hlength, hbefore⟩
    exact absurd heq (hbefore x hx).ne

theorem batch_reads_appended_two :
    let s := run (Journal.step (Bytes.zero 16) (Bytes.zero 16)) Journal.blank twoRecords
    ∃ w batch, s.writer = some w ∧
      readBatchOwner (Bytes.zero 16) (Bytes.zero 16) s.card.files 0 none w = (.ok, batch, w) ∧
      (firstRecord.stored ∈ batch.records ∨ batch.moreAvailable = true ∧
        batch.records.length = storageBatchMax ∧ ∀ x ∈ batch.records, x.sequence < 1) := by
  obtain ⟨batch, hread, -, -, hfirst⟩ :=
    batch_reads_appended orderly_twoRecords rfl rfl rfl (List.Perm.refl _) 0
  exact ⟨_, batch, rfl, hread, hfirst firstRecord List.mem_cons_self (by decide) (by decide)⟩

/-! ### A header that is cut short -/

/-- A file without a header is in the directory, and is not removed. -/
def Card.Cut (c : Card) : Prop :=
  ∃ f, (f ∈ c.quarantine ∨ c.current = some f) ∧ f.length < journalSegmentHeaderSize

variable {card : Card} {w : Writer}

theorem cut_quarantineCurrent (h : card.Cut) (op : FileOp) (w : Writer) :
    (quarantineCurrent op card w).card.Cut := by
  obtain ⟨f, hf, hshort⟩ := h
  have hrenamed : f ∈ card.quarantine ++ card.current.toList := by
    rcases hf with hf | hf
    · exact List.mem_append_left _ hf
    · exact List.mem_append_right _ (Option.mem_toList.2 hf)
  cases op with
  | done => exact ⟨f, .inl hrenamed, hshort⟩
  | fails => exact ⟨f, hf, hshort⟩
  | powerLoss landed =>
    cases landed with
    | true => exact ⟨f, .inl hrenamed, hshort⟩
    | false => exact ⟨f, hf, hshort⟩

theorem cut_recoverRecords (h : card.Cut) (first : ℕ) (bytes : List UInt8) (env : RecoverEnv)
    (w : Writer) : (recoverRecords deviceId first bytes env card w).card.Cut := by
  unfold recoverRecords
  split_ifs
  · exact h
  generalize recoverLoop deviceId ⟨bytes, env.readable⟩ (bytes.length + 1) journalSegmentHeaderSize
    w.currentLast = p
  obtain ⟨how, last⟩ := p
  cases how with
  | failed => exact h
  | whole => exact h
  | damaged => exact cut_quarantineCurrent h env.rename _

/-- A start puts such a file aside at most. -/
theorem cut_recoverCurrent (deviceId cardId : Bytes 16) (h : card.Cut) (env : RecoverEnv) (w : Writer) :
    (recoverCurrent deviceId cardId env card w).card.Cut := by
  unfold recoverCurrent
  cases hcurrent : card.current with
  | none => exact h
  | some bytes =>
    dsimp only
    by_cases hopened : env.opened = true
    swap
    · rw [if_pos (by simpa using hopened)]
      exact h
    rw [if_neg (by simpa using hopened)]
    cases hheader : ownHeader ⟨bytes, env.readable⟩ deviceId cardId with
    | none => exact cut_quarantineCurrent h env.rename w
    | some header =>
      -- the file without a header is not this one
      have hkept (d : Card) (hd : d.quarantine = card.quarantine) : d.Cut := by
        obtain ⟨f, hf | hf, hshort⟩ := h
        · exact ⟨f, .inl (hd ▸ hf), hshort⟩
        · obtain rfl := Option.some.inj (hcurrent.symm.trans hf)
          exact absurd (header_le_of_ownHeader hheader) (not_le.2 hshort)
      dsimp only
      split_ifs
      · exact h
      · exact cut_recoverRecords h _ _ env w
      · cases env.truncate with
        | fails => exact h
        | powerLoss landed =>
          cases landed with
          | true => exact hkept _ rfl
          | false => exact h
        | done => exact cut_recoverRecords (hkept _ (by rfl)) _ _ env w

/-- The index is not built. -/
theorem cut_index (h : card.Cut) (fault : Option Failure) (w : Writer) :
    (pmStorageRebuildIndex deviceId cardId fault card w).1 ≠ .ok := by
  intro hok
  obtain ⟨f, hf, hshort⟩ := h
  obtain ⟨health, hscan⟩ := pmStorageRebuildIndex_ok hok f (Card.mem_files.2 (.inr hf))
  rw [(recordsIn_of_short hshort).2] at hscan
  exact absurd hscan (by decide)

theorem cut_start (deviceId cardId : Bytes 16) (h : card.Cut) (env : StartEnv) :
    (pmStorageStart deviceId cardId env card).1.Cut ∧
      ∀ w, (pmStorageStart deviceId cardId env card).2 = some w → w.status = .corrupt := by
  unfold pmStorageStart
  cases env.mounted with
  | false => exact ⟨h, nofun⟩
  | true =>
  cases env.capacity with
  | error e => exact ⟨h, nofun⟩
  | ok free =>
    have hcut := cut_recoverCurrent deviceId cardId h env.recover
      { Writer.zero with status := .ready, bytesFree := free }
    dsimp only
    generalize recoverCurrent deviceId cardId env.recover card
      { Writer.zero with status := .ready, bytesFree := free } = c at hcut ⊢
    cases c.result with
    | none => exact ⟨hcut, nofun⟩
    | some e =>
      have hindex : (if e = .ok then pmStorageRebuildIndex deviceId cardId env.index c.card c.writer
          else (e, c.writer)).1 ≠ .ok := by
        split_ifs with hok
        · exact cut_index hcut env.index c.writer
        · exact hok
      refine ⟨hcut, fun w hw => ?_⟩
      dsimp only at hw
      generalize (if e = .ok then _ else _ : EspErr × Writer) = p at hindex hw
      rw [if_pos hindex] at hw
      split_ifs at hw
      obtain rfl := Option.some.inj hw
      rfl

/-- Storage stays as it is: no record is appended. -/
structure Journal.Disabled (appended : List JournalRecord) (s : Journal) : Prop where
  cut : s.card.Cut
  status : ∀ w, s.writer = some w → w.status = .corrupt
  appended : s.appended = appended

theorem Journal.Disabled.step (deviceId cardId : Bytes 16) {appended : List JournalRecord}
    (h : s.Disabled appended) (a : StorageAction) : (s.step deviceId cardId a).Disabled appended := by
  have hsame {writer : Option Writer} (hwriter : ∀ v, writer = some v → ∃ w, s.writer = some w ∧
      (w.status = .corrupt → v.status = .corrupt)) : ({ s with writer } : Journal).Disabled appended := by
    refine ⟨h.cut, fun v hv => ?_, h.appended⟩
    obtain ⟨w, hw, himp⟩ := hwriter v hv
    exact himp (h.status w hw)
  cases a with
  | start env =>
    unfold Journal.step
    cases hwriter : s.writer with
    | some w => exact h
    | none =>
      obtain ⟨hcut, hstatus⟩ := cut_start deviceId cardId h.cut env
      exact ⟨hcut, hstatus, h.appended⟩
  | append record env =>
    unfold Journal.step
    cases hwriter : s.writer with
    | none => exact h
    | some w =>
      have hready : w.status ≠ .ready := by simp [h.status w hwriter]
      have hrefused : appendRecord deviceId cardId record env s.card w =
          ⟨some .invalidState, s.card, w, false⟩ := if_pos hready
      dsimp only
      rw [hrefused]
      refine ⟨h.cut, fun v hv => ?_, h.appended⟩
      obtain rfl := Option.some.inj hv
      exact h.status w hwriter
  | readBatch directory cursor fault =>
    refine hsame fun v hv => ?_
    obtain ⟨w, hw, rfl⟩ := Option.map_eq_some_iff.1 hv
    refine ⟨w, hw, fun hcorrupt => ?_⟩
    unfold readBatchOwner
    rw [if_pos (by simp [hcorrupt])]
    exact hcorrupt
  | refreshInventory fault =>
    refine hsame fun v hv => ?_
    obtain ⟨w, hw, rfl⟩ := Option.map_eq_some_iff.1 hv
    obtain ⟨complete, inventory, heq⟩ := pmStorageRebuildIndex_snd deviceId cardId fault s.card w
    rw [heq]
    exact ⟨w, hw, id⟩
  | refreshCapacity capacity =>
    refine hsame fun v hv => ?_
    obtain ⟨w, hw, rfl⟩ := Option.map_eq_some_iff.1 hv
    obtain ⟨free, heq | ⟨hfull, -⟩⟩ := refreshCapacity_snd capacity w
    · rw [heq]
      exact ⟨w, hw, id⟩
    · cases hfull.symm.trans (h.status w hw)
  | acknowledge sequence =>
    refine ⟨h.cut, fun v hv => ?_, h.appended⟩
    obtain ⟨w, hw, rfl⟩ := Option.map_eq_some_iff.1 hv
    exact h.status w hw
  | powerLoss => exact hsame nofun

/-- **A header that is cut short disables storage**: when power is lost while a new segment gets its
header, the storage task finds the card corrupt wherever it runs later, and no record is appended or
read in any later run. -/
theorem header_cut_disables (hwriter : s.writer = some w) (hready : w.status = .ready)
    (hspace : storageEmergencyReserve ≤ w.bytesFree) (hclosed : w.opened = false)
    (hnew : s.card.current = none) {record : JournalRecord} {env : AppendEnv}
    (hopened : env.opened.opened = true) (hpositioned : env.opened.positioned = true) {n : ℕ}
    (hheader : env.opened.header = .powerLoss n) (hn : n < journalSegmentHeaderSize)
    (acts : List StorageAction) :
    let s' := run (Journal.step deviceId cardId) (s.step deviceId cardId (.append record env)) acts
    s'.appended = s.appended ∧ ∀ v, s'.writer = some v → v.status = .corrupt ∧
      ∀ directory cursor fault,
        (readBatchOwner deviceId cardId directory cursor fault v).1 = .invalidState := by
  have hlost : (s.step deviceId cardId (.append record env)).Disabled s.appended := by
    unfold Journal.step
    rw [hwriter]
    dsimp only
    have hcall : (appendRecord deviceId cardId record env s.card w).result = none ∧
        (appendRecord deviceId cardId record env s.card w).appended = false ∧
        (appendRecord deviceId cardId record env s.card w).card.current =
          some ((encodedHeader (newHeader deviceId cardId record env.opened.segmentId)).bytes.take n) := by
      simp [appendRecord, openCurrent, StorageCall.andThen, hready, not_lt.2 hspace, hclosed, hnew,
        hopened, hpositioned, hheader, BlockWrite.bytes]
    obtain ⟨hresult, happended, hcurrent⟩ := hcall
    refine ⟨⟨_, .inr hcurrent, ?_⟩, ?_, ?_⟩
    · rw [List.length_take]
      omega
    · rw [hresult]
      exact nofun
    · rw [happended]
      rfl
  have hdisabled := run_invariant (I := Journal.Disabled s.appended)
    (fun _ a h => h.step deviceId cardId a) hlost acts
  refine ⟨hdisabled.appended, fun v hv => ⟨hdisabled.status v hv, fun directory cursor fault => ?_⟩⟩
  unfold readBatchOwner
  rw [if_pos (by simp [hdisabled.status v hv])]

theorem header_cut_disables_first :
    let s := run (Journal.step (Bytes.zero 16) (Bytes.zero 16)) Journal.blank [.start calmStart]
    let s' := run (Journal.step (Bytes.zero 16) (Bytes.zero 16))
      (s.step (Bytes.zero 16) (Bytes.zero 16) (.append firstRecord { calmAppend with
        opened := ⟨true, true, Bytes.zero 16, .powerLoss 40⟩ })) twoRecords
    s'.appended = s.appended ∧ ∀ v, s'.writer = some v → v.status = .corrupt ∧
      ∀ directory cursor fault, (readBatchOwner (Bytes.zero 16) (Bytes.zero 16) directory cursor fault
        v).1 = .invalidState :=
  header_cut_disables rfl rfl (by decide) rfl rfl rfl rfl rfl (by decide) twoRecords

end

end PowerMonitor.Storage
