import PowerMonitor.Commands.Frame
import PowerMonitor.Commands.Identity

/-!
# Terminal states and progress

A command that has reached a terminal state should keep it, and its progress should never go back,
for as long as it occupies its entry. `Onward` says so of an entry before and after, and
`step_onward` is what one operation does to an entry it leaves to its command.

One transition is the exception. `command_terminal` counts `PM_COMMAND_SUPERSEDED` among the
terminal states and `command_transition_locked` does not, so a superseded command can be moved on.
`terminal_final_iff` shows that nothing else breaks the rule.
-/

namespace PowerMonitor.Commands

open CMemory AbStore Runs

/-- What may become of a command while it occupies its entry. -/
structure Onward (c c' : Command) : Prop where
  final : c.state.terminal = true → c'.state = c.state
  progress : c.progressPercent ≤ c'.progressPercent

theorem Onward.refl (c : Command) : Onward c c := ⟨fun _ => rfl, le_rfl⟩

theorem Onward.trans {c₁ c₂ c₃ : Command} (h₁ : Onward c₁ c₂) (h₂ : Onward c₂ c₃) : Onward c₁ c₃ where
  final h := by
    have h' := h₁.final h
    rw [h₂.final (by rw [h', h]), h']
  progress := h₁.progress.trans h₂.progress

theorem Onward.of_bare {c c' d : Command} (h : Onward c d) (hb : c'.bare = d.bare) : Onward c c' where
  final hc := (Command.state_of_bare hb).trans (h.final hc)
  progress := by
    have : c'.progressPercent = d.progressPercent := Command.eq_of_bare (fun _ => rfl) hb
    rw [this]
    exact h.progress

variable [Sha256]

/-! ## One operation -/

section

variable {l : Ledger} {nvs : Slots Ledger} {f : LedgerFault} {i : EntryIndex}

/-- When a transition returns `ESP_OK`. -/
theorem transition_ok_iff (state : CommandState) (progress : ℕ) (code : ℤ) (mallocOk : Bool) :
    (commandTransition l i state progress code mallocOk nvs f).result = some .ok ↔
      transitionRefused (l.entries i) state progress = none ∧ mallocOk = true ∧
        l.generation ≠ uint32Max ∧ f = .none := by
  unfold commandTransition
  cases href : transitionRefused (l.entries i) state progress with
  | some e =>
    have he := transitionRefused_ne_ok href
    simpa [refuse] using he
  | none =>
    cases mallocOk with
    | false => simp [refuse, EspErr.noMem, EspErr.ok]
    | true =>
      have := persist_ok_iff (l.setEntry i (transitioned (l.entries i) state progress code)) nvs f
      simpa [persistEntry, transitioned] using this

omit [Sha256] in
/-- A transition that is not refused moves the command onward, unless it moves it out of
`PM_COMMAND_SUPERSEDED`. -/
theorem onward_transitioned {c : Command} {state : CommandState} {progress : ℕ} (code : ℤ)
    (h : transitionRefused c state progress = none) (hsup : c.state = .superseded → state = .superseded) :
    Onward c (transitioned c state progress code) := by
  simp only [transitionRefused, Bool.or_eq_true, Bool.and_eq_true, Bool.not_eq_true',
    decide_eq_true_eq] at h
  split at h
  · cases h
  next hargs =>
  push Not at hargs
  split at h
  · cases h
  next hfin =>
  push Not at hfin
  refine ⟨fun hterm => ?_, hargs.2⟩
  by_cases hs : c.state = .superseded
  · exact (hsup hs).trans hs.symm
  · have hfinal : transitionFinal c.state = true := by
      generalize c.state = q at hterm hs
      cases q <;> first | rfl | exact absurd rfl hs | cases hterm
    have hstate : state = c.state := by simpa using hfin hfinal
    exact hstate

theorem onward_transition {state : CommandState} {progress : ℕ} {code : ℤ} {mallocOk : Bool}
    (k : EntryIndex)
    (hsup : (l.entries k).state = .superseded →
      transitionRefused (l.entries k) state progress = none → mallocOk = true →
      l.generation ≠ uint32Max → f = .none → state = .superseded) :
    Onward (l.entries i)
      ((commandTransition l k state progress code mallocOk nvs f).ledger.entries i) := by
  have hch := changed_transition l k state progress code mallocOk nvs f
  by_cases hik : i = k
  · subst hik
    by_cases hok : (commandTransition l i state progress code mallocOk nvs f).result = some .ok
    · obtain ⟨href, hm, hgen, hf⟩ := (transition_ok_iff state progress code mallocOk).1 hok
      exact (onward_transitioned code href fun hs => hsup hs href hm hgen hf).of_bare (hch.done hok)
    · exact (Onward.refl _).of_bare (hch.undone hok)
  · exact (Onward.refl _).of_bare (hch.rest i hik)

theorem onward_reconcile (hle : (l.entries i).progressPercent ≤ 100) (k : EntryIndex)
    (state : CommandState) (code : ℤ) (text : List UInt8) (mallocOk : Bool) :
    Onward (l.entries i)
      ((commandReconcileBoot l k state code text mallocOk nvs f).ledger.entries i) := by
  have hch := changed_reconcile l k state code text mallocOk nvs f
  by_cases hik : i = k
  · subst hik
    by_cases hok : (commandReconcileBoot l i state code text mallocOk nvs f).result = some .ok
    · refine Onward.of_bare ⟨fun hterm => ?_, ?_⟩ (hch.done hok)
      · -- a terminal command is refused
        rw [commandReconcileBoot, if_pos (by simp [hterm])] at hok
        cases hok
      · dsimp only [reconciled]
        split
        · exact hle
        · exact le_rfl
    · exact (Onward.refl _).of_bare (hch.undone hok)
  · exact (Onward.refl _).of_bare (hch.rest i hik)

theorem onward_acknowledge (id : List UInt8) :
    Onward (l.entries i) ((commandAcknowledgeResult l id nvs f).ledger.entries i) := by
  rcases acknowledge_frame l id nvs f i with h | ⟨-, h⟩
  · exact (Onward.refl _).of_bare h
  · refine Onward.of_bare ?_ h
    exact ⟨fun _ => rfl, le_rfl⟩

theorem onward_zeroize (k : EntryIndex) :
    Onward (l.entries i) ((commandZeroizePayload l k nvs f).ledger.entries i) := by
  unfold commandZeroizePayload
  split
  · exact Onward.refl _
  · refine Onward.of_bare ?_ (persist_bare _ nvs f i)
    split
    · exact Onward.refl _
    · by_cases hik : i = k
      · subst hik
        rw [Ledger.setEntry_entries, Function.update_self]
        exact ⟨fun _ => rfl, le_rfl⟩
      · rw [Ledger.setEntry_entries, Function.update_of_ne hik]
        exact Onward.refl _

end

/-! ## Runs -/

/-- The event is an operation that returns and leaves entry `i` to the command in it. -/
def LeavesEntry (i : EntryIndex) (s : LedgerState) : LedgerEvent → Prop
  | .accept delivery now mallocOk f =>
    let a := commandAccept s.ledger delivery.command now mallocOk s.nvs f
    a.outcome.result.isSome = true ∧ (a.duplicate = true ∨ a.stored ≠ some i)
  | .change c _ f => (c.perform s.ledger s.nvs f).result.isSome = true
  | .reset => False
  | .load _ _ _ => False

/-- No transition that passes its checks and is written takes a command out of
`PM_COMMAND_SUPERSEDED`. -/
def StaysSuperseded (s : LedgerState) : LedgerEvent → Prop
  | .change (.transition i state progress _ mallocOk) _ f =>
    (s.ledger.entries i).state = .superseded →
      transitionRefused (s.ledger.entries i) state progress = none → mallocOk = true →
      s.ledger.generation ≠ uint32Max → f = .none → state = .superseded
  | _ => True

/-- No progress is beyond 100. -/
def ProgressBounded (l : Ledger) : Prop := ∀ i, (l.entries i).progressPercent ≤ 100

theorem lasting_progressBounded : Lasting ProgressBounded where
  zero _ := Nat.zero_le _
  stamp h i := by
    rw [stamp_entries]
    split
    · exact h i
    · exact h i
  store now i h hok hdup j := by
    by_cases hj : j = i
    · subst hj
      simp [storeCommand, acceptedCommand]
    · simpa [storeCommand, Function.update_of_ne hj] using h j
  edit h _ he := he.progress h

/-- **What an event does to an entry it leaves to its command.** -/
theorem step_onward {s : LedgerState} {e : LedgerEvent} {i : EntryIndex}
    (hle : ProgressBounded s.ledger) (hsup : StaysSuperseded s e) (hleaves : LeavesEntry i s e) :
    Onward (s.ledger.entries i) ((s.step e).ledger.entries i) := by
  cases e with
  | accept delivery now mallocOk f =>
    obtain ⟨hsome, hother⟩ := hleaves
    simp only [LedgerState.step, LedgerState.after, hsome, if_true]
    refine (Onward.refl _).of_bare ?_
    cases accept_end s.ledger delivery.command now mallocOk s.nvs f with
    | stored k hstored hnew _ _ _ _ _ _ hrest =>
      rw [hnew, hstored] at hother
      refine hrest i fun hik => ?_
      rcases hother with h | h
      · cases h
      · exact h (congrArg some hik.symm)
    | unchanged hsame _ => exact hsame i
  | change c hc f =>
    have hsome : (c.perform s.ledger s.nvs f).result.isSome = true := hleaves
    simp only [LedgerState.step, LedgerState.after, hsome, if_true]
    cases c with
    | accept incoming now mallocOk => cases hc
    | transition k state progress code mallocOk => exact onward_transition k hsup
    | acknowledgeResult id => exact onward_acknowledge id
    | reconcileBoot k state code text mallocOk =>
      exact onward_reconcile (hle i) k state code text mallocOk
    | zeroizePayload k => exact onward_zeroize k
  | reset => exact hleaves.elim
  | load opened failing f => exact hleaves.elim

/-- Over a stretch of events that leave an entry to its command, the command only moves onward. -/
theorem run_onward {i : EntryIndex} (events : List LedgerEvent) {s : LedgerState}
    (hs : LedgerState.Inv ProgressBounded s) (hsup : Along LedgerState.step StaysSuperseded s events)
    (hleaves : Along LedgerState.step (LeavesEntry i) s events) :
    Onward (s.ledger.entries i) ((run LedgerState.step s events).ledger.entries i) := by
  induction events generalizing s with
  | nil => exact Onward.refl _
  | cons e events ih =>
    exact (step_onward hs.ram hsup.1 hleaves.1).trans
      (ih (hs.step lasting_progressBounded e) hsup.2 hleaves.2)

/-- In the run, every command moves onward for as long as it occupies its entry. -/
def CommandsMoveOnward (events : List LedgerEvent) : Prop :=
  ∀ i pre mid post, events = pre ++ mid ++ post →
    Along LedgerState.step (LeavesEntry i) (run LedgerState.step .start pre) mid →
    Onward ((run LedgerState.step .start pre).ledger.entries i)
      ((run LedgerState.step .start (pre ++ mid)).ledger.entries i)

/-- A transition out of `PM_COMMAND_SUPERSEDED` that is written takes effect. -/
theorem leaves_superseded {s : LedgerState} {i : EntryIndex} {state : CommandState} {progress : ℕ}
    {code : ℤ} (hc : (Call.transition i state progress code true).stores = none)
    (href : transitionRefused (s.ledger.entries i) state progress = none)
    (hgen : s.ledger.generation ≠ uint32Max) :
    let e := LedgerEvent.change (.transition i state progress code true) hc .none
    LeavesEntry i s e ∧ ((s.step e).ledger.entries i).state = state := by
  have hok : ((Call.transition i state progress code true).perform s.ledger s.nvs .none).result =
      some .ok := (transition_ok_iff state progress code true).2 ⟨href, rfl, hgen, rfl⟩
  refine ⟨by simp [LeavesEntry, hok], ?_⟩
  simp only [LedgerState.step, LedgerState.after, hok, Option.isSome_some, if_true]
  exact Command.state_of_bare
    ((changed_transition s.ledger i state progress code true s.nvs .none).done hok)

/-- **Terminal states are final and progress never goes back**, exactly when no transition leads out
of `PM_COMMAND_SUPERSEDED`. -/
theorem terminal_final_iff (events : List LedgerEvent) :
    CommandsMoveOnward events ↔ Along LedgerState.step StaysSuperseded .start events := by
  constructor
  · intro h
    rw [along_iff_forall]
    intro pre e post hevents
    cases e with
    | change c hc f =>
      cases c with
      | transition i state progress code mallocOk =>
        rintro hs href rfl hgen rfl
        obtain ⟨hleaves, hstate⟩ := leaves_superseded hc href hgen
        have honward := h i pre [_] post (by simpa using hevents) ⟨hleaves, trivial⟩
        rw [run_append, run_cons, run_nil] at honward
        have hkept := honward.final (by rw [hs]; rfl)
        rw [hstate, hs] at hkept
        exact hkept
      | _ => trivial
    | _ => trivial
  · rintro h i pre mid post rfl hleaves
    have hsup := ((along_append _ _ _ _ _).1 ((along_append _ _ _ _ _).1 h).1).2
    rw [run_append]
    exact run_onward mid (LedgerState.run_inv lasting_progressBounded pre) hsup hleaves

/-- One command arrives and is superseded. -/
def supersededEvents : List (@LedgerEvent .standard) :=
  [@LedgerEvent.accept .standard
      (.ofItem (.sample .networkSelfTest (.refl true) 1 one_ne_nul) 0) 0 true .none,
    @LedgerEvent.change .standard (.transition 0 .superseded 0 0 true) rfl .none]

/-- The superseded command is moved to `PM_COMMAND_RUNNING`. -/
def revivingEvent : @LedgerEvent .standard :=
  @LedgerEvent.change .standard (.transition 0 .running 10 0 true) rfl .none

omit [Sha256] in
/-- A superseded command runs again. -/
theorem superseded_command_revived :
    ¬@CommandsMoveOnward .standard (supersededEvents ++ [revivingEvent]) := by
  intro h
  have hreturns : ((@Call.perform .standard (.transition 0 .running 10 0 true)
      (run (@LedgerState.step .standard) .start supersededEvents).ledger
      (run (@LedgerState.step .standard) .start supersededEvents).nvs .none).result.isSome) = true := by
    decide
  have hleaves : Along (@LedgerState.step .standard) (@LeavesEntry .standard 0)
      (run (@LedgerState.step .standard) .start supersededEvents) [revivingEvent] :=
    ⟨hreturns, trivial⟩
  have honward := h 0 supersededEvents [revivingEvent] [] rfl hleaves
  have hstate := honward.final (by decide)
  exact absurd hstate (by decide)

end PowerMonitor.Commands
