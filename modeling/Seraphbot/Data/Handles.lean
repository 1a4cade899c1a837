import Mathlib.Computability.DFA
import Seraphbot.Data.Machine

/-!
# What is done to each handle

A machine operates on resources that it knows by a handle: it creates them, uses them
and gives them back.  The order in which this may be done to a single resource is an
automaton.  If the state of the machine tells in which state of the automaton every
resource is, then this can be checked step by step (`evalFrom_trace`).
-/

universe u v w x y

namespace Seraphbot

variable {η : Type u} {ο : Type v} [DecidableEq η]

/-- What is done to a handle, in order. -/
def doneTo (h : η) (ops : List (η × ο)) : List ο :=
  ops.filterMap fun op ↦ if op.1 = h then some op.2 else none

@[simp] theorem doneTo_nil (h : η) : doneTo h ([] : List (η × ο)) = [] := rfl

@[simp] theorem doneTo_self (h : η) (op : ο) (ops : List (η × ο)) :
    doneTo h ((h, op) :: ops) = op :: doneTo h ops := by
  simp [doneTo]

theorem doneTo_of_ne {h h' : η} (hne : h' ≠ h) (op : ο) (ops : List (η × ο)) :
    doneTo h ((h', op) :: ops) = doneTo h ops := by
  simp [doneTo, hne]

theorem doneTo_append (h : η) (ops ops' : List (η × ο)) :
    doneTo h (ops ++ ops') = doneTo h ops ++ doneTo h ops' :=
  List.filterMap_append

theorem doneTo_map_self (h : η) (ops : List ο) : doneTo h (ops.map (h, ·)) = ops := by
  induction ops with
  | nil => rfl
  | cons op ops ih => rw [List.map_cons, doneTo_self, ih]

theorem doneTo_map_of_ne {h h' : η} (hne : h' ≠ h) (ops : List ο) :
    doneTo h (ops.map (h', ·)) = [] := by
  induction ops with
  | nil => rfl
  | cons op ops ih => rw [List.map_cons, doneTo_of_ne hne, ih]

namespace Machine

variable {σ : Type w} {ε : Type x} {φ : Type y}

/-- A machine whose state tells the phase that a handle is in. -/
theorem evalFrom_trace {M : Machine σ ε (List (η × ο))} (D : DFA ο φ) {I : σ → Prop}
    {phase : σ → φ} {h : η} (hI : ∀ s e, I s → I (M.step s e).1)
    (hstep : ∀ s e, I s →
      D.evalFrom (phase s) (doneTo h (M.step s e).2) = phase (M.step s e).1)
    {s : σ} (hs : I s) (es : List ε) :
    D.evalFrom (phase s) (doneTo h (M.trace s es).flatten) = phase (M.run s es) := by
  induction es generalizing s with
  | nil => rfl
  | cons e es ih =>
      rw [trace_cons, List.flatten_cons, doneTo_append, DFA.evalFrom_of_append, hstep s e hs,
        ih (hI s e hs), run_cons]

end Machine

end Seraphbot
