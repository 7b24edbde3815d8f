import PowerMonitor.Foundations.Least
import PowerMonitor.Storage.Journal

/-!
# Batches of records

`pm_storage_read_batch` goes through the files of the journal in the order of the directory, and
`insert_sorted` keeps the records of the sixteen least sequences after a cursor.

* `insertSorted_eq_offer`: the array of the source is the bounded reader of `Least`.
* `batch_keeps_first`: what a batch holds after any records, and when it says that there are more.
* `deliver_in_order`: reading on from the last record that was sent of each batch sends every record
  once, in order.
-/

namespace PowerMonitor.Storage

open Least

/-- `PM_STORAGE_BATCH_MAX`. -/
def storageBatchMax : ℕ := 16

/-- `pm_storage_batch_t`: the records up to `count`. -/
structure StorageBatch where
  records : List JournalRecord
  afterSequence : ℕ
  moreAvailable : Bool
  deriving DecidableEq

/-- `(pm_storage_batch_t){.after_sequence = cursor}`. -/
def StorageBatch.after (cursor : ℕ) : StorageBatch := ⟨[], cursor, false⟩

/-- The loop of `insert_sorted` that looks for the position of a record. -/
def insertPosition (sequence : ℕ) : List JournalRecord → ℕ
  | [] => 0
  | r :: records => if r.sequence < sequence then insertPosition sequence records + 1 else 0

/-- `insert_sorted`. -/
def insertSorted (batch : StorageBatch) (record : JournalRecord) : StorageBatch :=
  if record.sequence ≤ batch.afterSequence then batch
  else
    let count := batch.records.length
    let position := insertPosition record.sequence batch.records
    if (batch.records[position]?).any (fun r => r.sequence = record.sequence) then batch
    else if count = storageBatchMax ∧ position = count then { batch with moreAvailable := true }
    else
      let last := if count < storageBatchMax then count else storageBatchMax - 1
      { batch with
        -- the records from the position on move up by one, up to the index `last`
        records := batch.records.take position ++
          record :: (batch.records.take last).drop position
        moreAvailable := if count < storageBatchMax then batch.moreAvailable else true }

/-- What a batch for a cursor is after the records of a journal, in the order in which they are
met. -/
def readBatch (journal : List JournalRecord) (cursor : ℕ) : StorageBatch :=
  journal.foldl insertSorted (StorageBatch.after cursor)

section

variable {r : JournalRecord} {records : List JournalRecord}

theorem insertPosition_le (sequence : ℕ) (records : List JournalRecord) :
    insertPosition sequence records ≤ records.length := by
  induction records with
  | nil => exact le_rfl
  | cons r records ih =>
    unfold insertPosition
    split
    · exact Nat.succ_le_succ ih
    · exact Nat.zero_le _

/-- A record whose sequence is at its position is there already. -/
theorem place_of_present (h : (records[insertPosition r.sequence records]?).any
    (fun x => x.sequence = r.sequence) = true) : place JournalRecord.sequence r records = records := by
  induction records with
  | nil => cases h
  | cons x records ih =>
    unfold insertPosition at h
    unfold place
    split at h
    next hlt =>
      rw [if_pos hlt]
      rw [List.getElem?_cons_succ] at h
      rw [ih h]
    next hge =>
      have heq : x.sequence = r.sequence := by simpa using h
      rw [if_neg hge, if_pos heq]

/-- Otherwise it goes to its position, before what is there. -/
theorem place_of_absent (h : (records[insertPosition r.sequence records]?).any
    (fun x => x.sequence = r.sequence) = false) : place JournalRecord.sequence r records =
      records.take (insertPosition r.sequence records) ++
        r :: records.drop (insertPosition r.sequence records) := by
  induction records with
  | nil => rfl
  | cons x records ih =>
    unfold insertPosition at h ⊢
    unfold place
    split at h
    next hlt =>
      rw [List.getElem?_cons_succ] at h
      rw [if_pos hlt, if_pos hlt, ih h, List.take_succ_cons, List.drop_succ_cons, List.cons_append]
    next hge =>
      have hne : x.sequence ≠ r.sequence := by simpa using h
      rw [if_neg hge, if_neg hge, if_neg hne, List.take_zero, List.drop_zero, List.nil_append]

/-- **The array of the source** is a bounded reader of the records after the cursor. -/
theorem insertSorted_eq_offer (batch : StorageBatch) (record : JournalRecord)
    (h : batch.records.length ≤ storageBatchMax) :
    insertSorted batch record = if record.sequence ≤ batch.afterSequence then batch
      else { batch with
        records := (offer JournalRecord.sequence storageBatchMax
          (batch.records, batch.moreAvailable) record).1
        moreAvailable := (offer JournalRecord.sequence storageBatchMax
          (batch.records, batch.moreAvailable) record).2 } := by
  unfold insertSorted
  split
  · rfl
  have hposition := insertPosition_le record.sequence batch.records
  simp only [offer]
  by_cases hpresent : (batch.records[insertPosition record.sequence batch.records]?).any
      (fun r => r.sequence = record.sequence) = true
  · rw [if_pos hpresent, place_of_present hpresent, List.take_of_length_le h]
    simp [not_lt.2 h]
  · rw [if_neg hpresent, place_of_absent (Bool.not_eq_true _ ▸ hpresent)]
    set position := insertPosition record.sequence batch.records with hdef
    have hlength : (batch.records.take position ++ record :: batch.records.drop position).length =
        batch.records.length + 1 := by
      simp only [List.length_append, List.length_take, List.length_cons, List.length_drop]
      omega
    rw [hlength]
    have htake : (batch.records.take position).length = position := List.length_take_of_le hposition
    split_ifs with hfull hroom
    · -- the record would come after all of a full batch
      obtain ⟨hcount, hend⟩ := hfull
      have hwhole : batch.records.take position = batch.records := by
        rw [hend, List.take_length]
      rw [hwhole, ← hcount, List.take_left]
      simp
    · have hmax : batch.records.length + 1 ≤ storageBatchMax := hroom
      rw [List.take_of_length_le (hlength.le.trans hmax), List.take_length]
      simp [not_lt.2 hmax]
    · -- the last record of a full batch falls out
      have hcount : batch.records.length = storageBatchMax := le_antisymm h (not_lt.1 hroom)
      have hlt : position < storageBatchMax := by omega
      have hrest : storageBatchMax - position = (storageBatchMax - 1 - position) + 1 := by omega
      have hkept : (batch.records.take position ++ record :: batch.records.drop position).take
          storageBatchMax = batch.records.take position ++
            record :: (batch.records.take (storageBatchMax - 1)).drop position := by
        rw [List.take_append, htake, List.take_of_length_le (htake.le.trans hlt.le), hrest,
          List.take_succ_cons, List.drop_take]
      rw [hkept, hcount]
      simp

end

/-- The records after a cursor, one for each sequence, in order. -/
def backlog (journal : List JournalRecord) (cursor : ℕ) : List JournalRecord :=
  least JournalRecord.sequence (journal.filter (fun r => decide (cursor < r.sequence)))

theorem foldl_insertSorted (journal : List JournalRecord) (batch : StorageBatch)
    (h : batch.records.length ≤ storageBatchMax) :
    let kept := (journal.filter (fun r => decide (batch.afterSequence < r.sequence))).foldl
      (offer JournalRecord.sequence storageBatchMax) (batch.records, batch.moreAvailable)
    journal.foldl insertSorted batch = ⟨kept.1, batch.afterSequence, kept.2⟩ := by
  induction journal generalizing batch with
  | nil => rfl
  | cons r journal ih =>
    rw [List.foldl_cons, insertSorted_eq_offer batch r h]
    by_cases hcursor : r.sequence ≤ batch.afterSequence
    · rw [if_pos hcursor, List.filter_cons_of_neg (by simpa using hcursor)]
      exact ih batch h
    · rw [if_neg hcursor, List.filter_cons_of_pos (by simpa using hcursor), List.foldl_cons]
      exact ih _ (List.length_take_le _ _)

theorem readBatch_eq (journal : List JournalRecord) (cursor : ℕ) :
    readBatch journal cursor = ⟨(backlog journal cursor).take storageBatchMax, cursor,
      decide (storageBatchMax < (backlog journal cursor).length)⟩ := by
  have hfold := foldl_insertSorted journal (.after cursor) (Nat.zero_le _)
  rw [StorageBatch.after] at hfold
  rw [readBatch, StorageBatch.after, hfold, foldl_offer]
  rfl

theorem mem_backlog {journal : List JournalRecord} {cursor : ℕ} {r : JournalRecord} :
    r ∈ backlog journal cursor ↔ cursor < r.sequence ∧
      journal.find? (fun x => decide (x.sequence = r.sequence)) = some r := by
  rw [backlog, least_filter (fun k => decide (cursor < k)), List.mem_filter, mem_least, and_comm,
    decide_eq_true_eq]

/-- **What a batch holds**: in ascending order, the first record that was met of each sequence after
the cursor. What is left out comes after sixteen records, and is announced. -/
theorem batch_keeps_first (journal : List JournalRecord) (cursor : ℕ) :
    let batch := readBatch journal cursor
    batch.records.Pairwise (fun x y => x.sequence < y.sequence) ∧
      (∀ r ∈ batch.records, cursor < r.sequence ∧
        journal.find? (fun x => decide (x.sequence = r.sequence)) = some r) ∧
      (∀ r ∈ journal, cursor < r.sequence → (∃ x ∈ batch.records, x.sequence = r.sequence) ∨
        batch.records.length = storageBatchMax ∧ ∀ x ∈ batch.records, x.sequence < r.sequence) ∧
      (batch.moreAvailable = true ↔ ∃ r ∈ journal, cursor < r.sequence ∧
        ∀ x ∈ batch.records, x.sequence ≠ r.sequence) := by
  intro batch
  have hbatch : batch = _ := readBatch_eq journal cursor
  have hsorted : (backlog journal cursor).Pairwise (fun x y => x.sequence < y.sequence) :=
    ascending_least _
  have hpresent : ∀ r ∈ journal, cursor < r.sequence →
      ∃ x ∈ backlog journal cursor, x.sequence = r.sequence := fun r hr hcursor =>
    key_mem_least.2 ⟨r, List.mem_filter.2 ⟨hr, by simpa using hcursor⟩, rfl⟩
  have hsplit := List.take_append_drop storageBatchMax (backlog journal cursor)
  rw [hbatch]
  refine ⟨hsorted.sublist (List.take_sublist _ _), fun r hr => ?_, fun r hr hcursor => ?_, ?_⟩
  · exact mem_backlog.1 (List.mem_of_mem_take hr)
  · obtain ⟨x, hx, heq⟩ := hpresent r hr hcursor
    rw [← hsplit] at hx hsorted
    rcases List.mem_append.1 hx with hx | hx
    · exact .inl ⟨x, hx, heq⟩
    · refine .inr ⟨?_, fun y hy => ?_⟩
      · rw [List.length_take, Nat.min_eq_left]
        have hlength := List.length_pos_of_mem hx
        rw [List.length_drop] at hlength
        omega
      · exact heq ▸ (List.pairwise_append.1 hsorted).2.2 y hy x hx
  · rw [decide_eq_true_eq]
    constructor
    · intro hmore
      obtain ⟨x, hx⟩ : ∃ x, x ∈ (backlog journal cursor).drop storageBatchMax := by
        apply List.exists_mem_of_ne_nil
        rw [Ne, List.drop_eq_nil_iff]
        exact not_le.2 hmore
      have hmem := mem_backlog.1 (List.mem_of_mem_drop hx)
      refine ⟨x, List.mem_of_find?_eq_some hmem.2, hmem.1, fun y hy => ?_⟩
      rw [← hsplit] at hsorted
      exact ((List.pairwise_append.1 hsorted).2.2 y hy x hx).ne
    · rintro ⟨r, hr, hcursor, hnot⟩
      by_contra hall
      obtain ⟨x, hx, heq⟩ := hpresent r hr hcursor
      refine hnot x ?_ heq
      rwa [List.take_of_length_le (not_lt.1 hall)]

/-! ## Reading on -/

/-- What is sent when each batch is read after the last record that was sent of the one before, and
`k + 1` records of it are sent, or all if there are fewer. -/
def deliver (journal : List JournalRecord) : ℕ → List ℕ → List JournalRecord
  | _, [] => []
  | cursor, k :: ks =>
    let sent := (readBatch journal cursor).records.take (k + 1)
    match sent.getLast? with
    | none => []
    | some last => sent ++ deliver journal last.sequence ks

/-- The records after one of the backlog. -/
theorem backlog_after {journal : List JournalRecord} {cursor : ℕ} {pre post : List JournalRecord}
    {last : JournalRecord} (h : backlog journal cursor = pre ++ last :: post) :
    backlog journal last.sequence = post := by
  have hcursor : cursor < last.sequence :=
    (mem_backlog.1 (h ▸ List.mem_append_right pre List.mem_cons_self)).1
  have hsorted : Ascending JournalRecord.sequence (pre ++ last :: post) := h ▸ ascending_least _
  have hlater : backlog journal last.sequence =
      (backlog journal cursor).filter (fun r => decide (last.sequence < r.sequence)) := by
    rw [backlog, backlog, ← least_filter (fun k => decide (last.sequence < k)), List.filter_filter]
    congr 1
    apply List.filter_congr
    intro r _
    by_cases hr : last.sequence < r.sequence
    · simp [hr, hcursor.trans hr]
    · simp [hr]
  rw [hlater, h, filter_of_ascending hsorted]

/-- **Nothing is skipped and nothing is sent twice**: whatever part of each batch is sent, the
records go out in order from the first after the cursor on, at least one for each batch. -/
theorem deliver_in_order (journal : List JournalRecord) (cursor : ℕ) (parts : List ℕ) :
    ∃ n, deliver journal cursor parts = (backlog journal cursor).take n ∧
      (parts.length ≤ n ∨ (backlog journal cursor).length ≤ n) := by
  induction parts generalizing cursor with
  | nil => exact ⟨0, rfl, .inl le_rfl⟩
  | cons k parts ih =>
    unfold deliver
    rw [readBatch_eq]
    dsimp only
    rw [List.take_take]
    set m := min (k + 1) storageBatchMax with hm
    have hpos : 0 < m := by
      rw [hm]
      exact Nat.lt_min.2 ⟨Nat.succ_pos k, by decide⟩
    rcases hlast : ((backlog journal cursor).take m).getLast? with _ | last
    · have hempty : (backlog journal cursor).take m = [] := List.getLast?_eq_none_iff.1 hlast
      have hnothing : backlog journal cursor = [] := by
        rcases List.take_eq_nil_iff.1 hempty with h | h
        · omega
        · exact h
      exact ⟨parts.length + 1, by rw [hnothing]; rfl, .inl le_rfl⟩
    · obtain ⟨pre, hpre⟩ := List.getLast?_eq_some_iff.1 hlast
      have hsplit : backlog journal cursor = pre ++ last :: (backlog journal cursor).drop m := by
        have happend := List.take_append_drop m (backlog journal cursor)
        rw [hpre, List.append_assoc] at happend
        exact happend.symm
      obtain ⟨n, hsent, hn⟩ := ih last.sequence
      rw [backlog_after hsplit] at hsent hn
      refine ⟨m + n, ?_, ?_⟩
      · dsimp only
        rw [hsent, List.take_add]
      · rw [List.length_drop] at hn
        rw [List.length_cons]
        omega

end PowerMonitor.Storage
