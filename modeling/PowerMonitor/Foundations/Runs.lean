import Mathlib.Logic.Basic

/-!
# Runs of a deterministic machine

The components of the firmware are modelled as total step functions: an action carries every choice
the environment makes (which task moves, which call fails, where power is lost), so a run is the
fold of a list of actions and a statement about every run is a statement about every list.

* `run step s acts` is the state after the actions `acts`.
* `run_invariant` is the induction every safety result uses: what each step preserves holds after
  every run.
* `Along step C s acts` says that every action of the run meets the condition `C` in the state in
  which it is taken, and `Along.invariant` is the induction under such a condition.
-/

namespace PowerMonitor.Runs

variable {σ α : Type*}

/-- The state reached from `s` by the actions `acts`, in order. -/
def run (step : σ → α → σ) : σ → List α → σ
  | s, [] => s
  | s, a :: acts => run step (step s a) acts

@[simp] theorem run_nil (step : σ → α → σ) (s : σ) : run step s [] = s := rfl

@[simp] theorem run_cons (step : σ → α → σ) (s : σ) (a : α) (acts : List α) :
    run step s (a :: acts) = run step (step s a) acts := rfl

theorem run_append (step : σ → α → σ) (s : σ) (l₁ l₂ : List α) :
    run step s (l₁ ++ l₂) = run step (run step s l₁) l₂ := by
  induction l₁ generalizing s with
  | nil => rfl
  | cons a l₁ ih => exact ih (step s a)

/-- **The invariant rule**: what every step preserves holds after every run. -/
theorem run_invariant {step : σ → α → σ} {I : σ → Prop}
    (hstep : ∀ s a, I s → I (step s a)) {s : σ} (hs : I s) (acts : List α) :
    I (run step s acts) := by
  induction acts generalizing s with
  | nil => exact hs
  | cons a acts ih => exact ih (hstep s a hs)

/-- Every action of the run meets `C` in the state in which it is taken. -/
def Along (step : σ → α → σ) (C : σ → α → Prop) : σ → List α → Prop
  | _, [] => True
  | s, a :: acts => C s a ∧ Along step C (step s a) acts

instance Along.decidable (step : σ → α → σ) (C : σ → α → Prop) [∀ s a, Decidable (C s a)] :
    ∀ (s : σ) (acts : List α), Decidable (Along step C s acts)
  | _, [] => inferInstanceAs (Decidable True)
  | s, a :: acts =>
    have := Along.decidable step C (step s a) acts
    inferInstanceAs (Decidable (C s a ∧ Along step C (step s a) acts))

@[simp] theorem along_nil (step : σ → α → σ) (C : σ → α → Prop) (s : σ) : Along step C s [] :=
  trivial

@[simp] theorem along_cons (step : σ → α → σ) (C : σ → α → Prop) (s : σ) (a : α)
    (acts : List α) :
    Along step C s (a :: acts) ↔ C s a ∧ Along step C (step s a) acts := Iff.rfl

theorem along_append (step : σ → α → σ) (C : σ → α → Prop) (s : σ) (l₁ l₂ : List α) :
    Along step C s (l₁ ++ l₂) ↔ Along step C s l₁ ∧ Along step C (run step s l₁) l₂ := by
  induction l₁ generalizing s with
  | nil => simp
  | cons a l₁ ih => simp [ih, and_assoc]

/-- A condition holds along a run when it holds of every action in the state reached by then. -/
theorem along_iff_forall (step : σ → α → σ) (C : σ → α → Prop) (s : σ) (acts : List α) :
    Along step C s acts ↔
      ∀ pre a post, acts = pre ++ a :: post → C (run step s pre) a := by
  constructor
  · rintro h pre a post rfl
    exact ((along_append step C s pre (a :: post)).1 h).2.1
  · intro h
    induction acts generalizing s with
    | nil => trivial
    | cons a acts ih =>
      refine ⟨h [] a acts rfl, ih (step s a) fun pre b post hacts => ?_⟩
      exact h (a :: pre) b post (by rw [hacts, List.cons_append])

theorem Along.of_forall {step : σ → α → σ} {C : σ → α → Prop} (hC : ∀ s a, C s a) (s : σ)
    (acts : List α) : Along step C s acts := by
  induction acts generalizing s with
  | nil => trivial
  | cons a acts ih => exact ⟨hC s a, ih (step s a)⟩

/-- What holds of every step under an invariant holds along every run. -/
theorem Along.of_invariant {step : σ → α → σ} {I : σ → Prop} {C : σ → α → Prop}
    (hstep : ∀ s a, I s → I (step s a)) (hC : ∀ s a, I s → C s a) {s : σ} (hs : I s)
    (acts : List α) : Along step C s acts := by
  induction acts generalizing s with
  | nil => trivial
  | cons a acts ih => exact ⟨hC s a hs, ih (hstep s a hs)⟩

/-- Two conditions that agree on every step under an invariant, which the second one keeps, agree
along every run. -/
theorem Along.iff_of_invariant {step : σ → α → σ} {I : σ → Prop} {C D : σ → α → Prop}
    (hstep : ∀ s a, I s → D s a → I (step s a)) (hCD : ∀ s a, I s → (C s a ↔ D s a)) {s : σ}
    (hs : I s) (acts : List α) : Along step C s acts ↔ Along step D s acts := by
  induction acts generalizing s with
  | nil => exact Iff.rfl
  | cons a acts ih =>
    rw [along_cons, along_cons, hCD s a hs]
    exact and_congr_right fun hD => ih (hstep s a hs hD)

/-- A condition that gives another one on every step under an invariant, which it keeps, gives it
along every run. -/
theorem Along.imp_of_invariant {step : σ → α → σ} {I : σ → Prop} {C D : σ → α → Prop}
    (hstep : ∀ s a, I s → C s a → I (step s a)) (hCD : ∀ s a, I s → C s a → D s a) {s : σ}
    (hs : I s) {acts : List α} (h : Along step C s acts) : Along step D s acts := by
  induction acts generalizing s with
  | nil => trivial
  | cons a acts ih => exact ⟨hCD s a hs h.1, ih (hstep s a hs h.1) h.2⟩

theorem Along.imp {step : σ → α → σ} {C D : σ → α → Prop} (hCD : ∀ s a, C s a → D s a) {s : σ}
    {acts : List α} (h : Along step C s acts) : Along step D s acts := by
  induction acts generalizing s with
  | nil => trivial
  | cons a acts ih => exact ⟨hCD s a h.1, ih h.2⟩

/-- A machine whose states project to those of another one, step by step, runs with it. -/
theorem run_proj {τ : Type*} {step : σ → α → σ} {step' : τ → α → τ} {f : σ → τ}
    (hf : ∀ s a, f (step s a) = step' (f s) a) (s : σ) (acts : List α) :
    f (run step s acts) = run step' (f s) acts := by
  induction acts generalizing s with
  | nil => rfl
  | cons a acts ih => rw [run_cons, run_cons, ih, hf]

/-- A machine whose states project to those of another one meets the conditions of the other one
along the same actions. -/
theorem along_proj {τ : Type*} {step : σ → α → σ} {step' : τ → α → τ} {f : σ → τ}
    (hf : ∀ s a, f (step s a) = step' (f s) a) (C : τ → α → Prop) (s : σ) (acts : List α) :
    Along step (fun s a => C (f s) a) s acts ↔ Along step' C (f s) acts := by
  induction acts generalizing s with
  | nil => exact Iff.rfl
  | cons a acts ih => rw [along_cons, along_cons, ih, hf]

/-- **The conditional invariant rule**: what every step that meets `C` preserves holds after every
run all of whose steps meet `C`. -/
theorem Along.invariant {step : σ → α → σ} {C : σ → α → Prop} {I : σ → Prop}
    (hstep : ∀ s a, I s → C s a → I (step s a)) {s : σ} (hs : I s) {acts : List α}
    (h : Along step C s acts) : I (run step s acts) := by
  induction acts generalizing s with
  | nil => exact hs
  | cons a acts ih => exact ih (hstep s a hs h.1) h.2

end PowerMonitor.Runs
