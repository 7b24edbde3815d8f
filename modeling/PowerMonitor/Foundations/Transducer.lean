import Mathlib.Tactic.Common

/-!
# Transducers with lookahead

A machine that reads a text from left to right, writes some output for each symbol, and may look at
the text after it. At the end of the text it writes what its last state asks for.

* `run` is the whole output, and `drive` the output and the state at a point of a text.
* `run_append`: a machine that does not look beyond that point when it reads what is before it goes
  on from there by itself.
-/

namespace PowerMonitor

/-- A machine with states `σ`, which reads symbols `α` and writes `β`. -/
structure Transducer (σ α β : Type*) where
  step : σ → α → List α → List β × σ
  finish : σ → List β

namespace Transducer

variable {σ α β : Type*} (t : Transducer σ α β)

/-- The output for a text. -/
def run : σ → List α → List β
  | s, [] => t.finish s
  | s, a :: text => (t.step s a text).1 ++ run (t.step s a text).2 text

/-- The output for a text and the state after it. -/
def drive : σ → List α → List β × σ
  | s, [] => ([], s)
  | s, a :: text =>
    ((t.step s a text).1 ++ (drive (t.step s a text).2 text).1, (drive (t.step s a text).2 text).2)

/-- When the text is read, nothing depends on what follows it. -/
def Closed (tail : List α) : List α → Prop
  | [] => True
  | a :: text => (∀ s, t.step s a (text ++ tail) = t.step s a text) ∧ Closed tail text

@[simp] theorem run_nil (s : σ) : t.run s [] = t.finish s := rfl

@[simp] theorem run_cons (s : σ) (a : α) (text : List α) :
    t.run s (a :: text) = (t.step s a text).1 ++ t.run (t.step s a text).2 text := rfl

@[simp] theorem drive_nil (s : σ) : t.drive s [] = ([], s) := rfl

/-- **The machine goes on by itself** after a text that it reads without looking further. -/
theorem run_append {tail text : List α} (h : t.Closed tail text) (s : σ) :
    t.run s (text ++ tail) = (t.drive s text).1 ++ t.run (t.drive s text).2 tail := by
  induction text generalizing s with
  | nil => rfl
  | cons a text ih =>
    rw [List.cons_append, run_cons, h.1, ih h.2, drive, List.append_assoc]

/-- What every step keeps holds after a text. -/
theorem drive_invariant {I : σ → List α → Prop}
    (hstep : ∀ s a text, I s (a :: text) → I (t.step s a text).2 text) {s : σ} {text : List α}
    (h : I s text) : I (t.drive s text).2 [] := by
  induction text generalizing s with
  | nil => exact h
  | cons a text ih => exact ih (hstep s a text h)

end Transducer

end PowerMonitor
