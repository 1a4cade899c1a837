import Mathlib.Data.List.Induction
import Mathlib.Data.List.Basic

/-!
# Machines, runs and traces

A `Machine` takes a step on every event and emits something at every step.
Nondeterminism — a clock reading, an iteration order, the outcome of an awaited
operation — is part of the event, so the runs of a system are the event lists
of its machine.

A run is driven by a list of events from a starting state.  `run` is where it
ends, `trace` what it emitted, and `Along P` says that `P` holds of every event
in the state it is taken in.  All of them unfold at either end, which is what
the induction rules at the end of the file package: `run_invariant` for
properties of the state a run ends in, `visits_of_invariant` and
`visits_iff_along` for properties of every state on the way.
-/

universe u v w

namespace Seraphbot

/-- A deterministic machine over states `σ`, events `ε` and emissions `ω`. -/
structure Machine (σ : Type u) (ε : Type v) (ω : Type w) where
  /-- The state after an event and what is emitted on the way. -/
  step : σ → ε → σ × ω

namespace Machine

variable {σ : Type u} {ε : Type v} {ω : Type w} (M : Machine σ ε ω)

/-- The state a run ends in. -/
def run : σ → List ε → σ
  | s, [] => s
  | s, e :: es => run (M.step s e).1 es

/-- What a run emits, step by step. -/
def trace : σ → List ε → List ω
  | _, [] => []
  | s, e :: es => (M.step s e).2 :: trace (M.step s e).1 es

/-- `P` holds of every event of a run, in the state in which it is taken. -/
def Along (P : σ → ε → Prop) : σ → List ε → Prop
  | _, [] => True
  | s, e :: es => P s e ∧ Along P (M.step s e).1 es

/-- `Q` holds of every state a run goes through, its two ends included. -/
def Visits (Q : σ → Prop) : σ → List ε → Prop
  | s, [] => Q s
  | s, e :: es => Q s ∧ Visits Q (M.step s e).1 es

@[simp] theorem run_nil (s : σ) : M.run s [] = s := rfl
@[simp] theorem run_cons (s : σ) (e : ε) (es : List ε) :
    M.run s (e :: es) = M.run (M.step s e).1 es := rfl
@[simp] theorem trace_nil (s : σ) : M.trace s [] = [] := rfl
@[simp] theorem trace_cons (s : σ) (e : ε) (es : List ε) :
    M.trace s (e :: es) = (M.step s e).2 :: M.trace (M.step s e).1 es := rfl
@[simp] theorem along_nil (P : σ → ε → Prop) (s : σ) : M.Along P s [] := trivial
@[simp] theorem along_cons {P : σ → ε → Prop} {s : σ} {e : ε} {es : List ε} :
    M.Along P s (e :: es) ↔ P s e ∧ M.Along P (M.step s e).1 es := .rfl
@[simp] theorem visits_nil {Q : σ → Prop} {s : σ} : M.Visits Q s [] ↔ Q s := .rfl
@[simp] theorem visits_cons {Q : σ → Prop} {s : σ} {e : ε} {es : List ε} :
    M.Visits Q s (e :: es) ↔ Q s ∧ M.Visits Q (M.step s e).1 es := .rfl

/-! ## Runs one after the other -/

theorem run_append (s : σ) (es fs : List ε) :
    M.run s (es ++ fs) = M.run (M.run s es) fs := by
  induction es generalizing s with
  | nil => rfl
  | cons e es ih => exact ih _

theorem trace_append (s : σ) (es fs : List ε) :
    M.trace s (es ++ fs) = M.trace s es ++ M.trace (M.run s es) fs := by
  induction es generalizing s with
  | nil => rfl
  | cons e es ih => simp [ih]

theorem along_append {P : σ → ε → Prop} {s : σ} {es fs : List ε} :
    M.Along P s (es ++ fs) ↔ M.Along P s es ∧ M.Along P (M.run s es) fs := by
  induction es generalizing s with
  | nil => simp
  | cons e es ih => simp [ih, and_assoc]

theorem run_concat (s : σ) (es : List ε) (e : ε) :
    M.run s (es ++ [e]) = (M.step (M.run s es) e).1 := M.run_append s es [e]

theorem trace_concat (s : σ) (es : List ε) (e : ε) :
    M.trace s (es ++ [e]) = M.trace s es ++ [(M.step (M.run s es) e).2] :=
  M.trace_append s es [e]

theorem along_concat {P : σ → ε → Prop} {s : σ} {es : List ε} {e : ε} :
    M.Along P s (es ++ [e]) ↔ M.Along P s es ∧ P (M.run s es) e := by
  simp [along_append]

/-- A property of the events alone holds along a run when all its events have
it. -/
theorem along_of_forall {p : ε → Prop} {s : σ} {es : List ε} (h : ∀ e ∈ es, p e) :
    M.Along (fun _ e ↦ p e) s es := by
  induction es generalizing s with
  | nil => trivial
  | cons e es ih =>
      exact ⟨h e List.mem_cons_self, ih fun e' he' ↦ h e' (List.mem_cons_of_mem e he')⟩

/-! ## Induction along runs -/

variable {M}

/-- A property that every step of the run preserves holds where the run ends. -/
theorem run_invariant {I : σ → Prop} {P : σ → ε → Prop}
    (hstep : ∀ s e, I s → P s e → I (M.step s e).1) {s : σ} {es : List ε}
    (hs : I s) (hP : M.Along P s es) : I (M.run s es) := by
  induction es generalizing s with
  | nil => exact hs
  | cons e es ih => exact ih (hstep s e hs hP.1) hP.2

/-- The same for every state on the way. -/
theorem visits_of_invariant {I Q : σ → Prop} {P : σ → ε → Prop}
    (hstep : ∀ s e, I s → P s e → I (M.step s e).1) (hQ : ∀ s, I s → Q s) {s : σ}
    {es : List ε} (hs : I s) (hP : M.Along P s es) : M.Visits Q s es := by
  induction es generalizing s with
  | nil => exact hQ s hs
  | cons e es ih => exact ⟨hQ s hs, ih (hstep s e hs hP.1) hP.2⟩

/-- What an invariant of the run has to say about its steps. -/
theorem along_of_invariant {I : σ → Prop} {P R : σ → ε → Prop}
    (hstep : ∀ s e, I s → P s e → I (M.step s e).1) (hR : ∀ s e, I s → P s e → R s e) {s : σ}
    {es : List ε} (hs : I s) (hP : M.Along P s es) : M.Along R s es := by
  induction es generalizing s with
  | nil => trivial
  | cons e es ih => exact ⟨hR s e hs hP.1, ih (hstep s e hs hP.1) hP.2⟩

/-- A property that every step preserves, in whatever run. -/
theorem run_preserves {I : σ → Prop} (hstep : ∀ s e, I s → I (M.step s e).1) {s : σ} (hs : I s)
    (es : List ε) : I (M.run s es) :=
  run_invariant (P := fun _ _ ↦ True) (fun s e h _ ↦ hstep s e h) hs
    (M.along_of_forall fun _ _ ↦ trivial)

/-- A property of all steps whatsoever. -/
theorem along_of_step {R : σ → ε → Prop} (h : ∀ s e, R s e) (s : σ) (es : List ε) :
    M.Along R s es := by
  induction es generalizing s with
  | nil => trivial
  | cons e es ih => exact ⟨h s e, ih _⟩

theorem Visits.head {Q : σ → Prop} {s : σ} {es : List ε} (h : M.Visits Q s es) : Q s := by
  cases es with
  | nil => exact h
  | cons e es => exact h.1

/-- What is lost once is lost for good, so the end of a run tells about all of it. -/
theorem visits_iff_run {Q : σ → Prop} (hstep : ∀ s e, Q (M.step s e).1 → Q s) {s : σ}
    {es : List ε} : M.Visits Q s es ↔ Q (M.run s es) := by
  induction es generalizing s with
  | nil => exact .rfl
  | cons e es ih =>
      rw [visits_cons, run_cons, ih]
      refine ⟨And.right, fun h ↦ ⟨?_, h⟩⟩
      exact hstep s e (ih.mpr h).head

/-- When a step keeps `Q` exactly if `P` allows it, a run stays within `Q`
exactly if all its steps are allowed. -/
theorem visits_iff_along {I Q : σ → Prop} {P : σ → ε → Prop}
    (hI : ∀ s e, I s → I (M.step s e).1)
    (hstep : ∀ s e, I s → Q s → (Q (M.step s e).1 ↔ P s e)) {s : σ} {es : List ε}
    (hs : I s) (hQ : Q s) : M.Visits Q s es ↔ M.Along P s es := by
  induction es generalizing s with
  | nil => simp [hQ]
  | cons e es ih =>
      rw [visits_cons, along_cons]
      constructor
      · rintro ⟨-, h⟩
        exact ⟨(hstep s e hs hQ).mp h.head, (ih (hI s e hs) h.head).mp h⟩
      · rintro ⟨hp, h⟩
        have hq := (hstep s e hs hQ).mpr hp
        exact ⟨hQ, (ih (hI s e hs) hq).mpr h⟩

end Machine

end Seraphbot
