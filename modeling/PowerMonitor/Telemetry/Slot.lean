import Mathlib.Data.List.Nodup
import Mathlib.Data.List.Pairwise
import PowerMonitor.Esp
import PowerMonitor.Foundations.Runs

/-!
# The telemetry slot

`pm_telemetry.c` keeps at most two samples: the one being sent and the newest one measured since. A
sample that is still pending when the next one is offered is replaced. Offers come from the meter
task, the other calls from the network task, in any order and with any arguments.

`History` runs the calls and records what became of every sample, and `LatestValue` is what holds
after any number of them: every sample offered is in exactly one place, none is lost from the count
and none is kept twice.
-/

namespace PowerMonitor.Telemetry

open Runs

/-! ## Samples -/

/-- `pm_pzem_status_t`. -/
inductive PzemStatus
  | ok | timeout | shortFrame | badCrc | wrongSlave | wrongFunction | invalidRange | notVerified
  | uartError
  deriving DecidableEq, Repr

/-- `pm_meter_sample_t`. -/
structure MeterSample where
  voltageMv : ℤ
  currentMa : ℤ
  activePowerMw : ℤ
  frequencyMhz : ℤ
  powerFactorMilli : ℤ
  energyWh : ℕ
  alarmStatus : ℕ
  status : PzemStatus
  errorCode : ℕ
  sampleTimestampUtcMs : ℤ
  sampleMonotonicUs : ℤ
  timeTrusted : Bool
  simulated : Bool
  deriving DecidableEq, Repr

/-- The zeroed measurement. -/
def MeterSample.zero : MeterSample := ⟨0, 0, 0, 0, 0, 0, 0, .ok, 0, 0, 0, false, false⟩

/-- `pm_telemetry_sample_t`. -/
structure TelemetrySample where
  measurement : MeterSample
  sampleSequence : ℕ
  deriving DecidableEq, Repr

/-- The zeroed sample. -/
def TelemetrySample.zero : TelemetrySample := ⟨.zero, 0⟩

/-! ## The slot -/

/-- `UINT64_MAX`. -/
def uint64Max : ℕ := 2 ^ 64 - 1

/-- `pm_telemetry_slot_t`. -/
structure TelemetrySlot where
  inFlight : TelemetrySample
  pending : TelemetrySample
  nextSequence : ℕ
  replacedPending : ℕ
  failedTransmissions : ℕ
  inFlightPresent : Bool
  pendingPresent : Bool
  deriving DecidableEq

/-- What a call returns, the slot after it, and what it writes through its last pointer. -/
structure Returned (ρ ω : Type) where
  result : ρ
  slot : TelemetrySlot
  out : Option ω

namespace TelemetrySlot

/-- `pm_telemetry_slot_init`. -/
def init : TelemetrySlot := ⟨.zero, .zero, 1, 0, 0, false, false⟩

/-- `pm_telemetry_offer`, with `none` for a `NULL` measurement. -/
def offer (slot : TelemetrySlot) (measurement : Option MeterSample) : Returned EspErr ℕ :=
  match measurement with
  | none => ⟨.invalidArg, slot, none⟩
  | some m =>
    if slot.nextSequence = 0 ∨ slot.nextSequence = uint64Max then ⟨.invalidArg, slot, none⟩
    else
      { result := .ok
        slot := { slot with
          nextSequence := (slot.nextSequence + 1) % 2 ^ 64
          replacedPending := if slot.pendingPresent then (slot.replacedPending + 1) % 2 ^ 64
            else slot.replacedPending
          pending := ⟨m, slot.nextSequence⟩
          pendingPresent := true }
        out := some slot.nextSequence }

/-- `pm_telemetry_begin_send`, which fails on a `NULL` sample. -/
def beginSend (slot : TelemetrySlot) (sampleNull : Bool) : Returned Bool TelemetrySample :=
  if sampleNull || slot.inFlightPresent || !slot.pendingPresent then ⟨false, slot, none⟩
  else
    { result := true
      slot := { slot with
        inFlight := slot.pending
        inFlightPresent := true
        pending := .zero
        pendingPresent := false }
      out := some slot.pending }

/-- `pm_telemetry_complete_send`. -/
def completeSend (slot : TelemetrySlot) (sampleSequence : ℕ) (accepted : Bool) :
    EspErr × TelemetrySlot :=
  if !slot.inFlightPresent ∨ sampleSequence = 0 ∨ slot.inFlight.sampleSequence ≠ sampleSequence then
    (.invalidState, slot)
  else
    (.ok, { slot with
      failedTransmissions := if accepted then slot.failedTransmissions
        else (slot.failedTransmissions + 1) % 2 ^ 64
      inFlight := .zero
      inFlightPresent := false })

/-- `pm_telemetry_resident_samples`. -/
def residentSamples (slot : TelemetrySlot) : ℕ :=
  (if slot.inFlightPresent then 1 else 0) + (if slot.pendingPresent then 1 else 0)

/-- The sample in flight, as a list of at most one. -/
def flying (slot : TelemetrySlot) : List TelemetrySample :=
  if slot.inFlightPresent then [slot.inFlight] else []

/-- The pending sample, as a list of at most one. -/
def waiting (slot : TelemetrySlot) : List TelemetrySample :=
  if slot.pendingPresent then [slot.pending] else []

theorem residentSamples_eq (slot : TelemetrySlot) :
    slot.residentSamples = slot.flying.length + slot.waiting.length := by
  unfold residentSamples flying waiting
  split <;> split <;> rfl

/-- An offer is refused and changes nothing, or the sample becomes the pending one under the next
sequence. -/
theorem offer_cases (slot : TelemetrySlot) (measurement : Option MeterSample) :
    slot.offer measurement = ⟨.invalidArg, slot, none⟩ ∨
      ∃ m, measurement = some m ∧ slot.nextSequence ≠ uint64Max ∧
        slot.offer measurement = ⟨.ok, { slot with
          nextSequence := (slot.nextSequence + 1) % 2 ^ 64
          replacedPending := if slot.pendingPresent then (slot.replacedPending + 1) % 2 ^ 64
            else slot.replacedPending
          pending := ⟨m, slot.nextSequence⟩
          pendingPresent := true }, some slot.nextSequence⟩ := by
  cases measurement with
  | none => exact .inl rfl
  | some m =>
    unfold offer
    dsimp only
    split
    · exact .inl rfl
    next h => exact .inr ⟨m, rfl, fun hmax => h (.inr hmax), rfl⟩

/-- A send begins with the pending sample when none is in flight, and fails otherwise. -/
theorem beginSend_cases (slot : TelemetrySlot) (sampleNull : Bool) :
    slot.beginSend sampleNull = ⟨false, slot, none⟩ ∨
      slot.inFlightPresent = false ∧ slot.pendingPresent = true ∧
        slot.beginSend sampleNull = ⟨true, { slot with
          inFlight := slot.pending
          inFlightPresent := true
          pending := .zero
          pendingPresent := false }, some slot.pending⟩ := by
  unfold beginSend
  split
  · exact .inl rfl
  next h =>
    simp only [Bool.or_eq_true, Bool.not_eq_true', not_or, Bool.not_eq_true, Bool.not_eq_false] at h
    exact .inr ⟨h.1.2, h.2, rfl⟩

/-- A send is completed by the sequence of the sample in flight, and by no other. -/
theorem completeSend_cases (slot : TelemetrySlot) (sampleSequence : ℕ) (accepted : Bool) :
    slot.completeSend sampleSequence accepted = (.invalidState, slot) ∨
      slot.inFlightPresent = true ∧
        slot.completeSend sampleSequence accepted = (.ok, { slot with
          failedTransmissions := if accepted then slot.failedTransmissions
            else (slot.failedTransmissions + 1) % 2 ^ 64
          inFlight := .zero
          inFlightPresent := false }) := by
  unfold completeSend
  split
  · exact .inl rfl
  next h =>
    simp only [not_or] at h
    exact .inr ⟨by simpa using h.1, rfl⟩

end TelemetrySlot

/-! ## Calls and their history -/

/-- A call on the slot. -/
inductive SlotCall
  | offer (measurement : Option MeterSample)
  | beginSend (sampleNull : Bool)
  | completeSend (sampleSequence : ℕ) (accepted : Bool)

/-- The slot, the samples offered so far, those replaced while pending, those handed to a sender and
those whose send was completed. -/
structure History where
  slot : TelemetrySlot
  offered : List TelemetrySample
  replaced : List TelemetrySample
  handed : List TelemetrySample
  completed : List TelemetrySample

namespace History

/-- The history of a slot that was just initialised. -/
def start : History := ⟨.init, [], [], [], []⟩

/-- Whether the call succeeds. -/
def succeeds (h : History) : SlotCall → Bool
  | .offer m => (h.slot.offer m).result = .ok
  | .beginSend sampleNull => (h.slot.beginSend sampleNull).result
  | .completeSend n accepted => (h.slot.completeSend n accepted).1 = .ok

/-- One call, recorded. -/
def step (h : History) (c : SlotCall) : History :=
  match c with
  | .offer m =>
    let r := h.slot.offer m
    { h with
      slot := r.slot
      offered := h.offered ++ (m.bind fun m => r.out.map fun n => ⟨m, n⟩).toList
      replaced := if h.succeeds c then h.replaced ++ h.slot.waiting else h.replaced }
  | .beginSend sampleNull =>
    let r := h.slot.beginSend sampleNull
    { h with slot := r.slot, handed := h.handed ++ r.out.toList }
  | .completeSend n accepted =>
    { h with
      slot := (h.slot.completeSend n accepted).2
      completed := if h.succeeds c then h.completed ++ h.slot.flying else h.completed }

/-- Where an offered sample can be. -/
inductive Place
  | replaced | pending | inFlight | completed
  deriving DecidableEq

/-- The samples at a place. -/
def held (h : History) : Place → List TelemetrySample
  | .replaced => h.replaced
  | .pending => h.slot.waiting
  | .inFlight => h.slot.flying
  | .completed => h.completed

/-- A failing call changes nothing. -/
theorem step_of_fails (h : History) {c : SlotCall} (hfails : h.succeeds c = false) :
    h.step c = h := by
  cases c with
  | offer m =>
    rcases h.slot.offer_cases m with hr | ⟨m, rfl, -, hr⟩
    · cases m <;> simp [step, succeeds, hr, EspErr.ok, EspErr.invalidArg]
    · simp [succeeds, hr] at hfails
  | beginSend sampleNull =>
    rcases h.slot.beginSend_cases sampleNull with hr | ⟨-, -, hr⟩
    · simp [step, hr]
    · simp [succeeds, hr] at hfails
  | completeSend n accepted =>
    rcases h.slot.completeSend_cases n accepted with hr | ⟨-, hr⟩
    · simp [step, succeeds, hr, EspErr.ok, EspErr.invalidState]
    · simp [succeeds, hr] at hfails

end History

/-! ## Custody -/

open History (Place)

/-- The places, in the order in which `Custody` lists them. -/
def History.places : List Place := [.replaced, .pending, .completed, .inFlight]

/-- The invariant of the history: the offered samples are numbered from 1 and are those held at the
four places, and what was handed out and what is pending stand in the order of their sequences. -/
structure Custody (h : History) : Prop where
  sequences : h.offered.map TelemetrySample.sampleSequence = List.range' 1 h.offered.length
  next : h.slot.nextSequence = h.offered.length + 1
  bound : h.slot.nextSequence ≤ uint64Max
  placed : h.offered.Perm (History.places.flatMap h.held)
  handed : h.handed = h.completed ++ h.slot.flying
  newest : ∀ x ∈ h.slot.waiting, h.offered.getLast? = some x
  increasing : (h.handed ++ h.slot.waiting).Pairwise fun x y => x.sampleSequence < y.sampleSequence
  replacedPending : h.slot.replacedPending = h.replaced.length

section

variable {h : History}

theorem History.flatMap_held (h : History) :
    places.flatMap h.held = h.replaced ++ (h.slot.waiting ++ (h.completed ++ h.slot.flying)) := by
  simp [places, held]

theorem Custody.start : Custody .start where
  sequences := rfl
  next := rfl
  bound := by decide
  placed := by
    rw [History.flatMap_held]
    rfl
  handed := rfl
  newest x hx := by cases hx
  increasing := .nil
  replacedPending := rfl

/-- The sequences handed out so far are below the next one. -/
theorem Custody.sequence_lt (hc : Custody h) {x : TelemetrySample} (hx : x ∈ h.offered) :
    x.sampleSequence < h.slot.nextSequence := by
  have hmem := List.mem_map_of_mem (f := TelemetrySample.sampleSequence) hx
  rw [hc.sequences, List.mem_range'_1] at hmem
  rw [hc.next]
  omega

theorem Custody.mem_offered (hc : Custody h) {x : TelemetrySample} (hx : x ∈ h.handed) :
    x ∈ h.offered := by
  rw [hc.placed.mem_iff, h.flatMap_held]
  rw [hc.handed] at hx
  simp only [List.mem_append] at hx ⊢
  exact .inr (.inr hx)

/-- Every offer is accounted for. -/
theorem Custody.length_offered (hc : Custody h) :
    h.offered.length = h.replaced.length + (h.slot.waiting.length +
      (h.completed.length + h.slot.flying.length)) := by
  rw [hc.placed.length_eq, h.flatMap_held]
  simp only [List.length_append]

theorem Custody.nodup (hc : Custody h) : h.offered.Nodup := by
  have hnodup : (h.offered.map TelemetrySample.sampleSequence).Nodup := by
    rw [hc.sequences]
    exact List.nodup_range'
  exact List.Nodup.of_map _ hnodup

/-- A successful offer adds the new sample as the pending one. -/
theorem Custody.offer (hc : Custody h) (m : Option MeterSample) : Custody (h.step (.offer m)) := by
  rcases h.slot.offer_cases m with hrefused | ⟨m, rfl, hmax, hoffer⟩
  · rw [h.step_of_fails (by simp [History.succeeds, hrefused, EspErr.ok, EspErr.invalidArg])]
    exact hc
  have hlt : h.slot.nextSequence + 1 < 2 ^ 64 := by
    have := hc.bound
    simp only [uint64Max] at this hmax
    omega
  have hslot : (h.step (.offer (some m))).slot.waiting = [⟨m, h.slot.nextSequence⟩] ∧
      (h.step (.offer (some m))).slot.flying = h.slot.flying := by
    simp [History.step, hoffer, TelemetrySlot.waiting, TelemetrySlot.flying]
  have hoffered : (h.step (.offer (some m))).offered = h.offered ++ [⟨m, h.slot.nextSequence⟩] := by
    simp [History.step, hoffer]
  have hreplaced : (h.step (.offer (some m))).replaced = h.replaced ++ h.slot.waiting := by
    simp [History.step, History.succeeds, hoffer]
  have hcompleted : (h.step (.offer (some m))).completed = h.completed := rfl
  have hhanded : (h.step (.offer (some m))).handed = h.handed := rfl
  have hnext : (h.step (.offer (some m))).slot.nextSequence = h.slot.nextSequence + 1 := by
    simpa [History.step, hoffer] using Nat.mod_eq_of_lt hlt
  constructor
  · rw [hoffered, List.map_append, hc.sequences, List.length_append, hc.next]
    simp [List.range'_concat, Nat.add_comm]
  · rw [hnext, hoffered, hc.next]
    simp
  · rw [hnext]
    simp only [uint64Max]
    omega
  · rw [hoffered, History.flatMap_held, hslot.1, hslot.2, hreplaced, hcompleted]
    have hperm := hc.placed
    rw [h.flatMap_held, ← List.append_assoc] at hperm
    refine (hperm.append_right _).trans ?_
    rw [List.append_assoc]
    exact List.perm_append_comm.append_left _
  · rw [hhanded, hcompleted, hslot.2]
    exact hc.handed
  · intro x hx
    rw [hslot.1, List.mem_singleton] at hx
    rw [hoffered, hx]
    simp
  · rw [hhanded, hslot.1, List.pairwise_append]
    refine ⟨(List.pairwise_append.1 hc.increasing).1, List.pairwise_singleton _ _, ?_⟩
    intro x hx y hy
    rw [List.mem_singleton] at hy
    rw [hy]
    exact hc.sequence_lt (hc.mem_offered hx)
  · rw [hreplaced, List.length_append, ← hc.replacedPending]
    have hcount := hc.length_offered
    rw [hc.next] at hlt
    rw [← hc.replacedPending] at hcount
    simp only [History.step, hoffer, TelemetrySlot.waiting] at hcount ⊢
    split
    next hp =>
      rw [if_pos hp] at hcount
      rw [List.length_singleton] at hcount ⊢
      exact Nat.mod_eq_of_lt (by omega)
    · rfl

/-- A send that begins moves the pending sample into flight. -/
theorem Custody.beginSend (hc : Custody h) (sampleNull : Bool) :
    Custody (h.step (.beginSend sampleNull)) := by
  rcases h.slot.beginSend_cases sampleNull with hfails | ⟨hfree, hpending, hbegin⟩
  · rw [h.step_of_fails (by simp [History.succeeds, hfails])]
    exact hc
  have hwas : h.slot.flying = [] ∧ h.slot.waiting = [h.slot.pending] := by
    simp [TelemetrySlot.flying, TelemetrySlot.waiting, hfree, hpending]
  have hslot : (h.step (.beginSend sampleNull)).slot.flying = h.slot.waiting ∧
      (h.step (.beginSend sampleNull)).slot.waiting = [] := by
    rw [hwas.2]
    simp [History.step, hbegin, TelemetrySlot.waiting, TelemetrySlot.flying]
  have hhanded : (h.step (.beginSend sampleNull)).handed = h.handed ++ h.slot.waiting := by
    rw [hwas.2]
    simp [History.step, hbegin]
  constructor
  · exact hc.sequences
  · simpa [History.step, hbegin] using hc.next
  · simpa [History.step, hbegin] using hc.bound
  · have hperm := hc.placed
    rw [h.flatMap_held, hwas.1, List.append_nil] at hperm
    rw [History.flatMap_held, hslot.1, hslot.2]
    exact hperm.trans (List.perm_append_comm.append_left _)
  · rw [hhanded, hslot.1, hc.handed, hwas.1, List.append_nil]
    rfl
  · intro x hx
    rw [hslot.2] at hx
    cases hx
  · rw [hhanded, hslot.2, List.append_nil]
    exact hc.increasing
  · simpa [History.step, hbegin] using hc.replacedPending

/-- A send that is completed leaves nothing in flight. -/
theorem Custody.completeSend (hc : Custody h) (n : ℕ) (accepted : Bool) :
    Custody (h.step (.completeSend n accepted)) := by
  rcases h.slot.completeSend_cases n accepted with hfails | ⟨hflying, hcomplete⟩
  · rw [h.step_of_fails (by simp [History.succeeds, hfails, EspErr.ok, EspErr.invalidState])]
    exact hc
  have hslot : (h.step (.completeSend n accepted)).slot.flying = [] ∧
      (h.step (.completeSend n accepted)).slot.waiting = h.slot.waiting := by
    simp [History.step, hcomplete, TelemetrySlot.waiting, TelemetrySlot.flying]
  have hcompleted : (h.step (.completeSend n accepted)).completed =
      h.completed ++ h.slot.flying := by
    simp [History.step, History.succeeds, hcomplete]
  constructor
  · exact hc.sequences
  · simpa [History.step, hcomplete] using hc.next
  · simpa [History.step, hcomplete] using hc.bound
  · have hperm := hc.placed
    rw [h.flatMap_held] at hperm
    rw [History.flatMap_held, hslot.1, hslot.2, hcompleted, List.append_nil]
    exact hperm
  · rw [hcompleted, hslot.1, List.append_nil]
    exact hc.handed
  · rw [hslot.2]
    exact hc.newest
  · rw [hslot.2]
    exact hc.increasing
  · simpa [History.step, hcomplete] using hc.replacedPending

theorem Custody.step (hc : Custody h) (c : SlotCall) : Custody (h.step c) := by
  cases c with
  | offer m => exact hc.offer m
  | beginSend sampleNull => exact hc.beginSend sampleNull
  | completeSend n accepted => exact hc.completeSend n accepted

end

theorem custody_run (calls : List SlotCall) : Custody (run History.step .start calls) :=
  run_invariant (fun _ c hc => hc.step c) .start calls

/-! ## The latest value -/

/-- Every offered sample is in exactly one place, and the slot holds the newest one. -/
structure LatestValue (h : History) : Prop where
  /-- Every offered sample is in exactly one place. -/
  placed : ∀ x ∈ h.offered, ∃! p, x ∈ h.held p
  /-- No place holds a sample twice, and none holds a sample that was not offered. -/
  once : ∀ p, (h.held p).Nodup ∧ ∀ x ∈ h.held p, x ∈ h.offered
  /-- No two offers get the same sequence. -/
  distinct : (h.offered.map TelemetrySample.sampleSequence).Nodup
  accounted : h.offered.length =
    h.slot.replacedPending + h.completed.length + h.slot.residentSamples
  bounded : h.slot.residentSamples ≤ 2
  newest : h.slot.pendingPresent = true → h.offered.getLast? = some h.slot.pending ∧
    (h.slot.inFlightPresent = true →
      h.slot.inFlight.sampleSequence < h.slot.pending.sampleSequence)
  increasing : (h.handed.map TelemetrySample.sampleSequence).Pairwise (· < ·)

theorem Custody.latestValue {h : History} (hc : Custody h) : LatestValue h := by
  have hall : ∀ p, p ∈ History.places := by
    intro p
    cases p <;> decide
  have hnodup : (History.places.flatMap h.held).Nodup := hc.placed.nodup_iff.1 hc.nodup
  obtain ⟨heach, hapart⟩ := List.nodup_flatMap.1 hnodup
  have hsymm : Std.Symm (Function.onFun List.Disjoint h.held) := ⟨fun _ _ hd _ hx hy => hd hy hx⟩
  have hdisjoint : ∀ p q, p ≠ q → List.Disjoint (h.held p) (h.held q) := fun p q hpq =>
    hapart.forall (hall p) (hall q) hpq
  have hmem : ∀ x, x ∈ h.offered ↔ ∃ p, x ∈ h.held p := by
    intro x
    rw [hc.placed.mem_iff, List.mem_flatMap]
    exact ⟨fun ⟨p, _, hx⟩ => ⟨p, hx⟩, fun ⟨p, hx⟩ => ⟨p, hall p, hx⟩⟩
  constructor
  · intro x hx
    obtain ⟨p, hp⟩ := (hmem x).1 hx
    refine ⟨p, hp, fun q hq => ?_⟩
    by_contra hne
    exact hdisjoint q p hne hq hp
  · exact fun p => ⟨heach p (hall p), fun x hx => (hmem x).2 ⟨p, hx⟩⟩
  · rw [hc.sequences]
    exact List.nodup_range'
  · rw [hc.length_offered, hc.replacedPending, TelemetrySlot.residentSamples_eq]
    omega
  · unfold TelemetrySlot.residentSamples
    split <;> split <;> omega
  · intro hpending
    have hwaiting : h.slot.waiting = [h.slot.pending] := if_pos hpending
    refine ⟨hc.newest _ (by simp [hwaiting]), fun hflying => ?_⟩
    refine (List.pairwise_append.1 hc.increasing).2.2 _ ?_ _ (by simp [hwaiting])
    rw [hc.handed]
    simp [TelemetrySlot.flying, hflying]
  · exact List.pairwise_map.2 (List.pairwise_append.1 hc.increasing).1

/-- What one call leaves alone. -/
structure CallKeeps (h : History) (c : SlotCall) : Prop where
  /-- A failing call changes nothing. -/
  failing : h.succeeds c = false → h.step c = h
  /-- An offer does not touch the sample in flight. -/
  inFlight : ∀ m, c = .offer m → (h.step c).slot.inFlight = h.slot.inFlight ∧
    (h.step c).slot.inFlightPresent = h.slot.inFlightPresent

theorem callKeeps (h : History) (c : SlotCall) : CallKeeps h c := by
  constructor
  · exact h.step_of_fails
  · rintro m rfl
    rcases h.slot.offer_cases m with hr | ⟨m, rfl, -, hr⟩ <;> simp [History.step, hr]

/-! ## The sender -/

/-- An offer leaves the sample in flight alone. -/
theorem History.offer_flying (h : History) (m : Option MeterSample) :
    (h.step (.offer m)).slot.flying = h.slot.flying := by
  obtain ⟨hsample, hpresent⟩ := (callKeeps h (.offer m)).inFlight m rfl
  rw [TelemetrySlot.flying, TelemetrySlot.flying, hsample, hpresent]

/-- What is handed to the sender is in flight. -/
theorem History.beginSend_flying {h : History} {sample : TelemetrySample}
    (hout : (h.slot.beginSend false).out = some sample) :
    (h.step (.beginSend false)).slot.flying = [sample] := by
  rcases h.slot.beginSend_cases false with hr | ⟨-, -, hr⟩
  · rw [hr] at hout
    cases hout
  · rw [hr] at hout
    cases hout
    simp [History.step, hr, TelemetrySlot.flying]

/-- A send that gets no sample changes nothing. -/
theorem History.beginSend_none {h : History} (hout : (h.slot.beginSend false).out = none) :
    h.step (.beginSend false) = h := by
  refine h.step_of_fails ?_
  rcases h.slot.beginSend_cases false with hr | ⟨-, -, hr⟩
  · simp [succeeds, hr]
  · rw [hr] at hout
    cases hout

/-- The sequence of the sample in flight completes the send. -/
theorem Custody.completeSend_flying {h : History} (hc : Custody h) {sample : TelemetrySample}
    (hflying : h.slot.flying = [sample]) (accepted : Bool) :
    (h.slot.completeSend sample.sampleSequence accepted).1 = .ok ∧
      (h.step (.completeSend sample.sampleSequence accepted)).slot.flying = [] ∧
      (h.step (.completeSend sample.sampleSequence accepted)).completed =
        h.completed ++ [sample] := by
  have hpresent : h.slot.inFlightPresent = true ∧ h.slot.inFlight = sample := by
    unfold TelemetrySlot.flying at hflying
    split at hflying
    next hp => exact ⟨hp, (List.cons.inj hflying).1⟩
    · cases hflying
  have hmem : sample ∈ h.offered := by
    refine hc.mem_offered ?_
    rw [hc.handed, hflying]
    exact List.mem_append_right _ List.mem_cons_self
  have hpos : 0 < sample.sampleSequence := by
    have := List.mem_map_of_mem (f := TelemetrySample.sampleSequence) hmem
    rw [hc.sequences, List.mem_range'_1] at this
    omega
  have hok : h.slot.completeSend sample.sampleSequence accepted = (.ok, { h.slot with
      failedTransmissions := if accepted then h.slot.failedTransmissions
        else (h.slot.failedTransmissions + 1) % 2 ^ 64
      inFlight := .zero
      inFlightPresent := false }) := by
    refine if_neg ?_
    rw [hpresent.1, hpresent.2]
    simp only [Bool.not_true, Bool.false_eq_true, false_or, ne_eq, not_true, or_false]
    omega
  refine ⟨by rw [hok], ?_, ?_⟩
  · simp [History.step, hok, TelemetrySlot.flying]
  · simp [History.step, History.succeeds, hok, hflying]

end PowerMonitor.Telemetry
