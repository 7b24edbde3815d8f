import Mathlib.Algebra.GroupWithZero.Nat
import Mathlib.Data.List.Chain
import Mathlib.Data.Int.Notation
import PowerMonitor.Foundations.Runs

/-!
# The operating state

`pm_state.c`: the state that a device reports of itself, with a count of its changes, the time of
the last one and the health flags. Any task may send any event at any time, and a refused event
changes nothing.

* `Change` is a change that some event makes, and `change_iff` the table of them.
* `state_history`: the states of a run form a chain of such changes, and the machine holds the last
  of them, their number and the time of the last one.
* `health_last`: a health flag says what was last set for it.
-/

namespace PowerMonitor.Config

open Runs

/-- `pm_operating_state_t`. -/
inductive OperatingState
  | boot | selfTest | unprovisionedCom | connectingWifi | enrolling | running | degradedNetwork
  | degradedServer | degradedMeter | otaPending | otaInstalling | recoveryCom | safeReboot
  deriving DecidableEq, Repr

/-- `pm_state_event_t`; `other` is a value outside the enumeration. -/
inductive StateEvent
  | bootstrap | selfTestOk | selfTestFailed | configMissing | configValid | wifiConnected | wifiFailed
  | enrollmentRequired | enrolled | serverFailed | serverRecovered | meterFailed | meterRecovered
  | otaAvailable | otaStarted | otaFinished | physicalRecovery | safeReboot
  | other (value : ℕ)
  deriving DecidableEq, Repr

/-- `pm_health_flag_t`. -/
inductive HealthFlag
  | network | server | meter | time
  deriving DecidableEq, Repr

/-- The bit of a flag. -/
def HealthFlag.bit : HealthFlag → ℕ
  | network => 0
  | server => 1
  | meter => 2
  | time => 3

/-- `pm_state_machine_t`. -/
structure StateMachine where
  state : OperatingState
  healthFlags : BitVec 32
  transitionCount : ℕ
  enteredMonotonicUs : ℤ

/-- `pm_state_init`. -/
def pmStateInit (nowUs : ℤ) : StateMachine := ⟨.boot, 0, 0, nowUs⟩

/-- The machine after a change. -/
def StateMachine.enter (m : StateMachine) (next : OperatingState) (nowUs : ℤ) : StateMachine :=
  { m with
    state := next
    transitionCount := (m.transitionCount + 1) % 2 ^ 32
    enteredMonotonicUs := nowUs }

/-- `transition_to`. -/
def StateMachine.transitionTo (m : StateMachine) (next : OperatingState) (nowUs : ℤ) :
    Bool × StateMachine :=
  (true, if m.state ≠ next then m.enter next nowUs else m)

/-- `accepted && transition_to(machine, next, now_us)`. -/
def StateMachine.transitionIf (m : StateMachine) (accepted : Bool) (next : OperatingState) (nowUs : ℤ) :
    Bool × StateMachine :=
  if accepted then m.transitionTo next nowUs else (false, m)

/-- `pm_state_transition`. -/
def pmStateTransition (m : StateMachine) (event : StateEvent) (nowUs : ℤ) : Bool × StateMachine :=
  match event with
  | .bootstrap => m.transitionIf (m.state = .boot) .selfTest nowUs
  | .selfTestOk => m.transitionIf (m.state = .selfTest) .connectingWifi nowUs
  | .selfTestFailed => m.transitionIf (m.state = .selfTest) .recoveryCom nowUs
  | .configMissing =>
    m.transitionIf (m.state = .boot ∨ m.state = .selfTest) .unprovisionedCom nowUs
  | .configValid =>
    m.transitionIf (m.state = .boot ∨ m.state = .selfTest ∨ m.state = .recoveryCom ∨
      m.state = .unprovisionedCom) .connectingWifi nowUs
  | .wifiConnected =>
    m.transitionIf (m.state = .connectingWifi ∨ m.state = .degradedNetwork) .running nowUs
  | .wifiFailed => m.transitionTo .degradedNetwork nowUs
  | .enrollmentRequired => m.transitionTo .enrolling nowUs
  | .enrolled => m.transitionIf (m.state = .enrolling) .running nowUs
  | .serverFailed => m.transitionTo .degradedServer nowUs
  | .serverRecovered | .meterRecovered => m.transitionTo .running nowUs
  | .meterFailed => m.transitionTo .degradedMeter nowUs
  | .otaAvailable => m.transitionTo .otaPending nowUs
  | .otaStarted => m.transitionIf (m.state = .otaPending) .otaInstalling nowUs
  | .otaFinished => m.transitionIf (m.state = .otaInstalling) .safeReboot nowUs
  | .physicalRecovery => m.transitionTo .recoveryCom nowUs
  | .safeReboot => m.transitionTo .safeReboot nowUs
  | .other _ => (false, m)

/-- `pm_state_health_set`. -/
def pmStateHealthSet (m : StateMachine) (flag : HealthFlag) (healthy : Bool) : StateMachine :=
  let mask := 1#32 <<< flag.bit
  { m with healthFlags := if healthy then m.healthFlags ||| mask else m.healthFlags &&& ~~~mask }

/-! ## One step -/

/-- A change of the state that some event makes. -/
def Change (s t : OperatingState) : Prop :=
  s ≠ t ∧ ∃ (m : StateMachine) (e : StateEvent) (nowUs : ℤ),
    m.state = s ∧ (pmStateTransition m e nowUs).2.state = t

/-- The table of the changes: the states that are not entered from everywhere. -/
structure Enters (s t : OperatingState) : Prop where
  ne : s ≠ t
  boot : t ≠ .boot
  selfTest : t = .selfTest → s = .boot
  unprovisioned : t = .unprovisionedCom → s = .boot ∨ s = .selfTest
  connecting : t = .connectingWifi → s = .boot ∨ s = .selfTest ∨ s = .recoveryCom ∨
    s = .unprovisionedCom
  installing : t = .otaInstalling → s = .otaPending

theorem transitionTo_cases (m : StateMachine) (next : OperatingState) (nowUs : ℤ) :
    m.transitionTo next nowUs = (true, m) ∧ m.state = next ∨
      m.transitionTo next nowUs = (true, m.enter next nowUs) ∧ m.state ≠ next := by
  by_cases h : m.state = next
  · exact .inl ⟨by simp [StateMachine.transitionTo, h], h⟩
  · exact .inr ⟨by simp [StateMachine.transitionTo, h], h⟩

/-- What one event can do: it is refused, it finds the state there already, or it changes the
state. -/
theorem pmStateTransition_cases (m : StateMachine) (event : StateEvent) (nowUs : ℤ) :
    (pmStateTransition m event nowUs).2 = m ∨
      ∃ next, Enters m.state next ∧ pmStateTransition m event nowUs = (true, m.enter next nowUs) := by
  have hto (next : OperatingState) (hboot : next ≠ .boot) (hself : next ≠ .selfTest)
      (hcom : next ≠ .unprovisionedCom) (hwifi : next ≠ .connectingWifi)
      (hota : next ≠ .otaInstalling) : (m.transitionTo next nowUs).2 = m ∨
        ∃ t, Enters m.state t ∧ m.transitionTo next nowUs = (true, m.enter t nowUs) := by
    rcases transitionTo_cases m next nowUs with ⟨h, -⟩ | ⟨h, hne⟩
    · exact .inl (congrArg Prod.snd h)
    · exact .inr ⟨next, ⟨hne, hboot, fun h => absurd h hself, fun h => absurd h hcom,
        fun h => absurd h hwifi, fun h => absurd h hota⟩, h⟩
  have hif (accepted : Bool) (next : OperatingState)
      (hchange : accepted = true → m.state ≠ next → Enters m.state next) :
      (m.transitionIf accepted next nowUs).2 = m ∨
        ∃ t, Enters m.state t ∧ m.transitionIf accepted next nowUs = (true, m.enter t nowUs) := by
    cases accepted with
    | false => exact .inl rfl
    | true =>
      rcases transitionTo_cases m next nowUs with ⟨h, -⟩ | ⟨h, hne⟩
      · exact .inl (congrArg Prod.snd h)
      · exact .inr ⟨next, hchange rfl hne, h⟩
  cases event with
  | bootstrap =>
    exact hif _ _ fun h hne =>
      ⟨hne, by decide, fun _ => of_decide_eq_true h, by simp, by simp, by simp⟩
  | configMissing =>
    exact hif _ _ fun h hne =>
      ⟨hne, by decide, by simp, fun _ => of_decide_eq_true h, by simp, by simp⟩
  | selfTestOk =>
    exact hif _ _ fun h hne =>
      ⟨hne, by decide, by simp, by simp, fun _ => .inr (.inl (of_decide_eq_true h)), by simp⟩
  | configValid =>
    exact hif _ _ fun h hne =>
      ⟨hne, by decide, by simp, by simp, fun _ => of_decide_eq_true h, by simp⟩
  | otaStarted =>
    exact hif _ _ fun h hne =>
      ⟨hne, by decide, by simp, by simp, by simp, fun _ => of_decide_eq_true h⟩
  | selfTestFailed | wifiConnected | enrolled | otaFinished =>
    exact hif _ _ fun h hne => ⟨hne, by decide, by simp, by simp, by simp, by simp⟩
  | wifiFailed | enrollmentRequired | serverFailed | serverRecovered | meterRecovered | meterFailed
  | otaAvailable | physicalRecovery | safeReboot =>
    exact hto _ (by decide) (by decide) (by decide) (by decide) (by decide)
  | other value => exact .inl rfl

/-- An event that enters a state, from everywhere that it can be entered from. -/
def enteredBy : OperatingState → StateEvent
  | .boot => .other 0
  | .selfTest => .bootstrap
  | .unprovisionedCom => .configMissing
  | .connectingWifi => .configValid
  | .enrolling => .enrollmentRequired
  | .running => .serverRecovered
  | .degradedNetwork => .wifiFailed
  | .degradedServer => .serverFailed
  | .degradedMeter => .meterFailed
  | .otaPending => .otaAvailable
  | .otaInstalling => .otaStarted
  | .recoveryCom => .physicalRecovery
  | .safeReboot => .safeReboot

/-- **The table is that of `pm_state_transition`.** -/
theorem change_iff {s t : OperatingState} : Change s t ↔ Enters s t := by
  constructor
  · rintro ⟨hne, m, e, nowUs, rfl, rfl⟩
    rcases pmStateTransition_cases m e nowUs with h | ⟨next, henters, h⟩
    · rw [h] at hne
      exact absurd rfl hne
    · rw [h]
      exact henters
  · rintro ⟨hne, hboot, hself, hcom, hwifi, hota⟩
    refine ⟨hne, ⟨s, 0, 0, 0⟩, enteredBy t, 0, rfl, ?_⟩
    cases t with
    | boot => exact absurd rfl hboot
    | selfTest => rw [hself rfl]; rfl
    | unprovisionedCom => rcases hcom rfl with rfl | rfl <;> rfl
    | connectingWifi => rcases hwifi rfl with rfl | rfl | rfl | rfl <;> rfl
    | otaInstalling => rw [hota rfl]; rfl
    | _ => simp [pmStateTransition, enteredBy, StateMachine.transitionTo, StateMachine.enter, hne]

/-! ## Runs -/

/-- An event that some task sends, or a flag that it sets. -/
inductive StateAction
  | event (e : StateEvent) (nowUs : ℤ)
  | health (flag : HealthFlag) (healthy : Bool)

def StateMachine.step (m : StateMachine) : StateAction → StateMachine
  | .event e nowUs => (pmStateTransition m e nowUs).2
  | .health flag healthy => pmStateHealthSet m flag healthy

/-- The state that an action changes to, with the time of the action. -/
def visit (m : StateMachine) : StateAction → Option (OperatingState × ℤ)
  | .event e nowUs =>
    if (m.step (.event e nowUs)).state ≠ m.state then some ((m.step (.event e nowUs)).state, nowUs)
    else none
  | .health _ _ => none

/-- The states that a run changes to. -/
def visits (m : StateMachine) : List StateAction → List (OperatingState × ℤ)
  | [] => []
  | a :: acts => (visit m a).toList ++ visits (m.step a) acts

/-- What one action does to the state. -/
theorem step_cases (m : StateMachine) (a : StateAction) :
    (visit m a = none ∧ (m.step a).state = m.state ∧
      (m.step a).transitionCount = m.transitionCount ∧
      (m.step a).enteredMonotonicUs = m.enteredMonotonicUs) ∨
    ∃ next nowUs, visit m a = some (next, nowUs) ∧ Change m.state next ∧
      (m.step a).state = next ∧ (m.step a).transitionCount = (m.transitionCount + 1) % 2 ^ 32 ∧
      (m.step a).enteredMonotonicUs = nowUs := by
  cases a with
  | health flag healthy => exact .inl ⟨rfl, rfl, rfl, rfl⟩
  | event e nowUs =>
    rcases pmStateTransition_cases m e nowUs with h | ⟨next, hchange, h⟩
    · have hstep : m.step (.event e nowUs) = m := h
      exact .inl ⟨by simp [visit, hstep], by rw [hstep], by rw [hstep], by rw [hstep]⟩
    · have hstep : m.step (.event e nowUs) = m.enter next nowUs := congrArg Prod.snd h
      refine .inr ⟨next, nowUs, ?_, change_iff.2 hchange, by rw [hstep]; rfl, by rw [hstep]; rfl,
        by rw [hstep]; rfl⟩
      rw [visit, hstep]
      exact if_pos hchange.ne.symm

/-- The states of a run, from that of its start, are a chain of changes up to the state at its
end. -/
theorem chain_visits (m : StateMachine) (acts : List StateAction) :
    ((m.state, m.enteredMonotonicUs) :: visits m acts).IsChain (fun s t => Change s.1 t.1) ∧
      ((m.state, m.enteredMonotonicUs) :: visits m acts).getLast (List.cons_ne_nil _ _) =
        ((run StateMachine.step m acts).state,
          (run StateMachine.step m acts).enteredMonotonicUs) := by
  induction acts generalizing m with
  | nil => exact ⟨.singleton _, rfl⟩
  | cons a acts ih =>
    obtain ⟨hchain, hlast⟩ := ih (m.step a)
    rw [run_cons]
    rcases step_cases m a with ⟨hvisit, hstate, -, hentered⟩ |
      ⟨next, nowUs, hvisit, hchange, hstate, -, hentered⟩
    · have hnone : visits m (a :: acts) = visits (m.step a) acts := by
        rw [visits, hvisit, Option.toList_none, List.nil_append]
      simp only [hnone]
      rw [hstate, hentered] at hchain
      simp only [hstate, hentered] at hlast
      exact ⟨hchain, hlast⟩
    · have hsome : visits m (a :: acts) = (next, nowUs) :: visits (m.step a) acts := by
        rw [visits, hvisit, Option.toList_some, List.singleton_append]
      simp only [hsome]
      rw [hstate, hentered] at hchain
      simp only [hstate, hentered] at hlast
      exact ⟨.cons_cons hchange hchain, (List.getLast_cons (List.cons_ne_nil _ _)).trans hlast⟩

theorem count_visits (m : StateMachine) (hm : m.transitionCount < 2 ^ 32) (acts : List StateAction) :
    (run StateMachine.step m acts).transitionCount =
      (m.transitionCount + (visits m acts).length) % 2 ^ 32 := by
  induction acts generalizing m with
  | nil => exact (Nat.mod_eq_of_lt hm).symm
  | cons a acts ih =>
    rw [run_cons]
    rcases step_cases m a with ⟨hvisit, -, hcount, -⟩ | ⟨next, nowUs, hvisit, -, -, hcount, -⟩
    · rw [ih _ (hcount ▸ hm), hcount, visits, hvisit, Option.toList_none, List.nil_append]
    · have hlt : (m.step a).transitionCount < 2 ^ 32 := hcount ▸ Nat.mod_lt _ (by decide)
      rw [ih _ hlt, hcount, visits, hvisit, Option.toList_some, List.singleton_append,
        List.length_cons, Nat.mod_add_mod, Nat.add_assoc, Nat.add_comm 1]

/-- Where a state can stand in a chain of changes that starts at `boot`. -/
theorem position_of_chain {h : List (OperatingState × ℤ)} {startUs : ℤ}
    (hchain : ((OperatingState.boot, startUs) :: h).IsChain fun s t => Change s.1 t.1) {i : ℕ}
    {s : OperatingState × ℤ} (hs : ((OperatingState.boot, startUs) :: h)[i]? = some s) :
    (s.1 = .boot → i = 0) ∧ (s.1 = .selfTest → i = 1) ∧ (s.1 = .unprovisionedCom → i ≤ 2) ∧
      (s.1 = .otaInstalling → ∃ j t, i = j + 1 ∧
        ((OperatingState.boot, startUs) :: h)[j]? = some t ∧ t.1 = .otaPending) := by
  have hboot {i : ℕ} {s : OperatingState × ℤ}
      (hs : ((OperatingState.boot, startUs) :: h)[i]? = some s) : i = 0 ∧ s.1 = .boot ∨
      ∃ j t, i = j + 1 ∧ ((OperatingState.boot, startUs) :: h)[j]? = some t ∧ Change t.1 s.1 := by
    cases i with
    | zero =>
      obtain rfl := Option.some.inj hs
      exact .inl ⟨rfl, rfl⟩
    | succ j =>
      obtain ⟨hlt, rfl⟩ := List.getElem?_eq_some_iff.1 hs
      exact .inr ⟨j, _, rfl, List.getElem?_eq_getElem (Nat.lt_of_succ_lt hlt),
        List.isChain_iff_getElem.1 hchain j hlt⟩
  have hself {i : ℕ} {s : OperatingState × ℤ}
      (hs : ((OperatingState.boot, startUs) :: h)[i]? = some s) (hstate : s.1 = .selfTest) : i = 1 := by
    rcases hboot hs with ⟨-, hb⟩ | ⟨j, t, rfl, ht, hchange⟩
    · rw [hb] at hstate
      cases hstate
    · rcases hboot ht with ⟨rfl, -⟩ | ⟨_, _, _, _, hchange'⟩
      · rfl
      · exact absurd ((change_iff.1 hchange).selfTest hstate) (change_iff.1 hchange').boot
  refine ⟨fun hstate => ?_, hself hs, fun hstate => ?_, fun hstate => ?_⟩
  · rcases hboot hs with ⟨rfl, -⟩ | ⟨_, _, _, _, hchange⟩
    · rfl
    · exact absurd hstate (change_iff.1 hchange).boot
  · rcases hboot hs with ⟨rfl, -⟩ | ⟨j, t, rfl, ht, hchange⟩
    · exact Nat.zero_le 2
    rcases (change_iff.1 hchange).unprovisioned hstate with hb | hb
    · rcases hboot ht with ⟨rfl, -⟩ | ⟨_, _, _, _, hchange'⟩
      · exact Nat.le_succ 1
      · exact absurd hb (change_iff.1 hchange').boot
    · rw [hself ht hb]
  · rcases hboot hs with ⟨-, hb⟩ | ⟨j, t, rfl, ht, hchange⟩
    · rw [hb] at hstate
      cases hstate
    · exact ⟨j, t, rfl, ht, (change_iff.1 hchange).installing hstate⟩

/-- **The history of the operating state.** In every run from `pm_state_init`, the states that were
reached are a chain of changes, of which the machine holds the last one, its time and, up to the
width of the counter, their number. A device is never in `BOOT`, `SELF_TEST` or `UNPROVISIONED_COM`
again once it has gone on, and it installs nothing that was not pending. -/
theorem state_history (startUs : ℤ) (acts : List StateAction) :
    let m := run StateMachine.step (pmStateInit startUs) acts
    let h := (OperatingState.boot, startUs) :: visits (pmStateInit startUs) acts
    h.IsChain (fun s t => Change s.1 t.1) ∧ h.getLast? = some (m.state, m.enteredMonotonicUs) ∧
      m.transitionCount = (h.length - 1) % 2 ^ 32 ∧
      ∀ i s, h[i]? = some s → (s.1 = .boot → i = 0) ∧ (s.1 = .selfTest → i = 1) ∧
        (s.1 = .unprovisionedCom → i ≤ 2) ∧
        (s.1 = .otaInstalling → ∃ j t, i = j + 1 ∧ h[j]? = some t ∧ t.1 = .otaPending) := by
  intro m h
  obtain ⟨hchain, hlast⟩ := chain_visits (pmStateInit startUs) acts
  have hcount := count_visits (pmStateInit startUs) (Nat.two_pow_pos 32) acts
  refine ⟨hchain, ?_, ?_, fun i s hs => position_of_chain hchain hs⟩
  · rw [List.getLast?_eq_some_getLast (List.cons_ne_nil _ _)]
    exact congrArg some hlast
  · rw [List.length_cons, Nat.add_sub_cancel]
    exact hcount.trans (by rw [pmStateInit, Nat.zero_add])

/-! ## Health -/

/-- What was last set for a flag, which says `healthy` before. -/
def lastHealth (flag : HealthFlag) : Bool → List StateAction → Bool
  | healthy, [] => healthy
  | healthy, .health f value :: acts => lastHealth flag (if f = flag then value else healthy) acts
  | healthy, .event _ _ :: acts => lastHealth flag healthy acts

theorem bit_pmStateHealthSet (m : StateMachine) (f flag : HealthFlag) (healthy : Bool) :
    (pmStateHealthSet m f healthy).healthFlags.getLsbD flag.bit =
      if f = flag then healthy else m.healthFlags.getLsbD flag.bit := by
  cases healthy <;> cases f <;> cases flag <;> simp [pmStateHealthSet, HealthFlag.bit]

theorem healthFlags_pmStateTransition (m : StateMachine) (e : StateEvent) (nowUs : ℤ) :
    (pmStateTransition m e nowUs).2.healthFlags = m.healthFlags := by
  rcases pmStateTransition_cases m e nowUs with h | ⟨next, -, h⟩
  · rw [h]
  · rw [h]
    rfl

/-- A health flag says what was last set for it, whatever events and other flags came in between. -/
theorem health_last (flag : HealthFlag) (m : StateMachine) (acts : List StateAction) :
    (run StateMachine.step m acts).healthFlags.getLsbD flag.bit =
      lastHealth flag (m.healthFlags.getLsbD flag.bit) acts := by
  induction acts generalizing m with
  | nil => rfl
  | cons a acts ih =>
    rw [run_cons, ih]
    cases a with
    | event e nowUs => rw [lastHealth, StateMachine.step, healthFlags_pmStateTransition]
    | health f healthy => rw [lastHealth, StateMachine.step, bit_pmStateHealthSet]

end PowerMonitor.Config
