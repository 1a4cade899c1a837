import Mathlib.Data.List.Perm.Basic
import Seraphbot.Data.Machine

/-!
# Nothing lost and nothing made up

A machine takes things in, holds them for a while and gives them out again, in an
order of its own.  `gather` collects what the events of a run bring in, and
`perm_of_step` is the rule: if no step loses or duplicates anything, then what a
run has given out and what it still holds is a rearrangement of what it held at
the start and what has come in.

What a machine holds is often spread over a list of pending jobs, one of which is
changed or finished by a step.  The two lemmas about `filterMap` say what that does
to the things in the list.
-/

universe u v w x

namespace Seraphbot

namespace Machine

variable {σ : Type u} {ε : Type v} {ω : Type w} {α : Type x} (M : Machine σ ε ω)

/-- What `f` finds at the events of a run, each in the state in which it is
taken. -/
def gather (f : σ → ε → List α) : σ → List ε → List α
  | _, [] => []
  | s, e :: es => f s e ++ gather f (M.step s e).1 es

@[simp] theorem gather_nil (f : σ → ε → List α) (s : σ) : M.gather f s [] = [] := rfl
@[simp] theorem gather_cons (f : σ → ε → List α) (s : σ) (e : ε) (es : List ε) :
    M.gather f s (e :: es) = f s e ++ M.gather f (M.step s e).1 es := rfl

theorem gather_append (f : σ → ε → List α) (s : σ) (es fs : List ε) :
    M.gather f s (es ++ fs) = M.gather f s es ++ M.gather f (M.run s es) fs := by
  induction es generalizing s with
  | nil => rfl
  | cons e es ih => simp [ih]

theorem gather_concat (f : σ → ε → List α) (s : σ) (es : List ε) (e : ε) :
    M.gather f s (es ++ [e]) = M.gather f s es ++ f (M.run s es) e := by
  simp [gather_append]

/-- Two collections at once. -/
theorem gather_append_perm (f g : σ → ε → List α) (s : σ) (es : List ε) :
    (M.gather (fun s e ↦ f s e ++ g s e) s es).Perm (M.gather f s es ++ M.gather g s es) := by
  induction es generalizing s with
  | nil => exact .refl _
  | cons e es ih =>
      rw [gather_cons, gather_cons, gather_cons, List.append_assoc, List.append_assoc]
      refine .append_left _ ((ih _).append_left _ |>.trans ?_)
      rw [← List.append_assoc, ← List.append_assoc]
      exact List.perm_append_comm.append_right _

theorem gather_sublist {f g : σ → ε → List α} (h : ∀ s e, (f s e).Sublist (g s e)) (s : σ)
    (es : List ε) : (M.gather f s es).Sublist (M.gather g s es) := by
  induction es generalizing s with
  | nil => exact .refl _
  | cons e es ih => exact (h s e).append (ih _)

variable {M}

/-- A machine whose steps lose nothing and make nothing up. -/
theorem perm_of_step {held : σ → List α} {out : ω → List α} {f : σ → ε → List α}
    (hstep : ∀ s e, (out (M.step s e).2 ++ held (M.step s e).1).Perm (held s ++ f s e))
    (s : σ) (es : List ε) :
    ((M.trace s es).flatMap out ++ held (M.run s es)).Perm (held s ++ M.gather f s es) := by
  induction es generalizing s with
  | nil => simp
  | cons e es ih =>
      rw [trace_cons, run_cons, gather_cons, List.flatMap_cons, List.append_assoc]
      refine ((ih (M.step s e).1).append_left (out (M.step s e).2)).trans ?_
      rw [← List.append_assoc, ← List.append_assoc]
      exact (hstep s e).append_right _

end Machine

/-! ## Lists of jobs -/

section

variable {α : Type u} {β : Type v} (f : α → Option β) {l : List α} {i : Nat} {a : α}

theorem filterMap_cons_eq (a : α) (l : List α) :
    (a :: l).filterMap f = (f a).toList ++ l.filterMap f := by
  cases h : f a <;> simp [h]

/-- Finishing one job only takes away what that job holds. -/
theorem filterMap_eraseIdx_perm (h : l[i]? = some a) :
    ((f a).toList ++ (l.eraseIdx i).filterMap f).Perm (l.filterMap f) := by
  obtain ⟨hi, rfl⟩ := List.getElem?_eq_some_iff.mp h
  rw [← filterMap_cons_eq]
  exact (List.getElem_cons_eraseIdx_perm hi).filterMap f

/-- Changing one job only changes what that job holds. -/
theorem filterMap_set_perm (h : l[i]? = some a) (b : α) :
    ((f a).toList ++ (l.set i b).filterMap f).Perm ((f b).toList ++ l.filterMap f) := by
  obtain ⟨hi, rfl⟩ := List.getElem?_eq_some_iff.mp h
  have hset := (List.set_perm_cons_eraseIdx hi b).filterMap f
  rw [filterMap_cons_eq] at hset
  refine (hset.append_left _).trans (.trans ?_ ((filterMap_eraseIdx_perm f h).append_left _))
  rw [← List.append_assoc, ← List.append_assoc]
  exact List.perm_append_comm.append_right _

end

end Seraphbot
