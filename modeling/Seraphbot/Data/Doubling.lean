import Mathlib.Data.List.Basic

/-!
# A mark that is written twice

Where a symbol has a meaning of its own, it can often be written twice to stand for
itself.  `double` writes a text in this way, and `undouble` reads it, up to a mark that
stands alone.  The two are inverse to each other: what can be read is what was written
(`undouble_eq_some_iff`), and only a text without marks reads as itself
(`undouble_self_iff`).
-/

universe u

namespace Seraphbot

variable {α : Type u} [DecidableEq α] (mark : α)

/-- Write every mark twice. -/
def double : List α → List α
  | [] => []
  | a :: l => if a = mark then mark :: mark :: double l else a :: double l

/-- Read two marks as one, and fail at a mark that stands alone. -/
def undouble : List α → Option (List α)
  | [] => some []
  | [a] => if a = mark then none else some [a]
  | a :: b :: l =>
      if a = mark then if b = mark then (undouble l).map (mark :: ·) else none
      else (undouble (b :: l)).map (a :: ·)

variable {mark}

theorem undouble_cons_of_ne {a : α} (ha : a ≠ mark) (l : List α) :
    undouble mark (a :: l) = (undouble mark l).map (a :: ·) := by
  cases l with
  | nil => simp [undouble, ha]
  | cons b l => rw [undouble, if_neg ha]

variable (mark)

theorem undouble_double (s : List α) : undouble mark (double mark s) = some s := by
  induction s with
  | nil => rfl
  | cons a s ih =>
      by_cases ha : a = mark
      · simp [double, undouble, ha, ih]
      · rw [double, if_neg ha, undouble_cons_of_ne ha, ih]
        rfl

theorem double_of_undouble {l s : List α} (h : undouble mark l = some s) : double mark s = l := by
  fun_induction undouble mark l generalizing s with
  | case1 =>
      cases h
      rfl
  | case2 => cases h
  | case3 a ha =>
      cases h
      simp [double, ha]
  | case4 l ih =>
      obtain ⟨t, ht, rfl⟩ := Option.map_eq_some_iff.mp h
      rw [double, if_pos rfl, ih ht]
  | case5 => cases h
  | case6 a b l ha ih =>
      obtain ⟨t, ht, rfl⟩ := Option.map_eq_some_iff.mp h
      rw [double, if_neg ha, ih ht]

/-- What can be read is what was written. -/
theorem undouble_eq_some_iff {l s : List α} : undouble mark l = some s ↔ double mark s = l := by
  refine ⟨double_of_undouble mark, ?_⟩
  rintro rfl
  exact undouble_double mark s

theorem length_double (s : List α) : (double mark s).length = s.length + s.count mark := by
  induction s with
  | nil => rfl
  | cons a s ih =>
      by_cases ha : a = mark
      · simp only [double, ha, if_true, List.length_cons, List.count_cons_self, ih]
        omega
      · simp only [double, ha, if_false, List.length_cons, List.count_cons_of_ne ha, ih]
        omega

theorem double_of_notMem {s : List α} (h : mark ∉ s) : double mark s = s := by
  induction s with
  | nil => rfl
  | cons a s ih =>
      rw [List.mem_cons, not_or] at h
      rw [double, if_neg (Ne.symm h.1), ih h.2]

/-- Only a text without marks reads as itself. -/
theorem undouble_self_iff {l : List α} : undouble mark l = some l ↔ mark ∉ l := by
  rw [undouble_eq_some_iff]
  refine ⟨fun h ↦ ?_, double_of_notMem mark⟩
  have hlength := congrArg List.length h
  rw [length_double] at hlength
  exact List.count_eq_zero.mp (by omega)

end Seraphbot
