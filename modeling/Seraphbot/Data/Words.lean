import Mathlib.Data.List.Induction

/-!
# Words and the separators after them

A text can be given as a list of words, each followed by a separator.
`terminate s l` writes such a list down, and `words p t` reads a text at its
separators, where one separator at the very end is not followed by an empty word.
The two views of a text that matter here are equivalent: one text begins with
another exactly when its list of words begins with the other's
(`terminate_prefix_iff`), provided that both are written with a separator after
every word, the last one included (`terminate_words`).
-/

universe u

namespace Seraphbot

variable {α : Type u}

/-! ## Writing words down -/

/-- The words of `l`, each followed by the separator `s`. -/
def terminate (s : α) (l : List (List α)) : List α := l.flatMap (· ++ [s])

@[simp] theorem terminate_nil (s : α) : terminate s [] = [] := rfl

@[simp] theorem terminate_cons (s : α) (w : List α) (l : List (List α)) :
    terminate s (w :: l) = w ++ s :: terminate s l := by
  simp [terminate]

theorem terminate_concat (s : α) (l : List (List α)) (w : List α) :
    terminate s (l ++ [w]) = terminate s l ++ w ++ [s] := by
  simp [terminate]

/-- A text that starts with a word and its separator. -/
theorem append_cons_prefix_iff {s : α} {v w x y : List α} (hv : s ∉ v) (hw : s ∉ w) :
    v ++ s :: x <+: w ++ s :: y ↔ v = w ∧ x <+: y := by
  induction v generalizing w with
  | nil =>
      cases w with
      | nil => simp [List.cons_prefix_cons]
      | cons b w =>
          rw [List.mem_cons, not_or] at hw
          simp [List.cons_prefix_cons, hw.1]
  | cons a v ih =>
      rw [List.mem_cons, not_or] at hv
      cases w with
      | nil => simp [List.cons_prefix_cons, Ne.symm hv.1]
      | cons b w =>
          rw [List.mem_cons, not_or] at hw
          simp [List.cons_prefix_cons, ih hv.2 hw.2, and_assoc]

/-- When no word contains the separator, the texts compare as the lists of their
words do. -/
theorem terminate_prefix_iff {s : α} {l l' : List (List α)} (hl : ∀ w ∈ l, s ∉ w)
    (hl' : ∀ w ∈ l', s ∉ w) : terminate s l <+: terminate s l' ↔ l <+: l' := by
  induction l generalizing l' with
  | nil => simp
  | cons v l ih =>
      cases l' with
      | nil => simp
      | cons w l' =>
          rw [List.forall_mem_cons] at hl hl'
          rw [terminate_cons, terminate_cons, append_cons_prefix_iff hl.1 hl'.1,
            ih hl.2 hl'.2, List.cons_prefix_cons]

/-! ## Reading words -/

section

variable [DecidableEq α]

/-- The words of a text, which are separated by the elements that satisfy `p`.
One separator at the end of the text is ignored. -/
def words (p : α → Bool) (t : List α) : List (List α) :=
  if (t.splitOnP p).getLast? = some [] then (t.splitOnP p).dropLast else t.splitOnP p

/-- The text with a separator after its last word, if it has words and the
separator is not there yet. -/
def close (s : α) (t : List α) : List α :=
  if t ≠ [] ∧ t.getLast? ≠ some s then t ++ [s] else t

end

/-- The pieces between two separators are made of the other elements. -/
theorem of_mem_splitOnP {p : α → Bool} {t w : List α} (hw : w ∈ t.splitOnP p) :
    ∀ a ∈ w, a ∈ t ∧ p a = false := by
  induction t generalizing w with
  | nil => simp_all
  | cons b t ih =>
      have htail : ∀ v ∈ t.splitOnP p, ∀ a ∈ v, a ∈ b :: t ∧ p a = false := fun v hv a ha ↦
        ⟨List.mem_cons_of_mem b (ih hv a ha).1, (ih hv a ha).2⟩
      rw [List.splitOnP_cons_eq_if_modifyHead] at hw
      split at hw
      · rcases List.mem_cons.mp hw with rfl | hw
        · simp
        · exact htail w hw
      · rename_i hb
        cases hsplit : t.splitOnP p with
        | nil => simp [hsplit] at hw
        | cons v l =>
            rw [hsplit, List.modifyHead_cons] at hw
            rcases List.mem_cons.mp hw with rfl | hw
            · rw [List.forall_mem_cons]
              exact ⟨⟨List.mem_cons_self, by simpa using hb⟩, htail v (by simp [hsplit])⟩
            · exact htail w (by simp [hsplit, hw])

theorem eq_false_of_mem_splitOnP {p : α → Bool} {t w : List α} (hw : w ∈ t.splitOnP p) :
    ∀ a ∈ w, p a = false := fun a ha ↦ (of_mem_splitOnP hw a ha).2

/-- Writing the pieces of a text down with the separator `s` replaces its own
separators and adds one at the end. -/
theorem terminate_splitOnP (s : α) (p : α → Bool) (t : List α) :
    terminate s (t.splitOnP p) = (t.map fun a ↦ if p a then s else a) ++ [s] := by
  induction t with
  | nil => rfl
  | cons b t ih =>
      rw [List.splitOnP_cons_eq_if_modifyHead, List.map_cons, List.cons_append, ← ih]
      split
      · rw [terminate_cons, List.nil_append]
      · cases hsplit : t.splitOnP p with
        | nil => exact absurd hsplit (List.splitOnP_ne_nil p t)
        | cons v l => simp

theorem eq_false_of_mem_words [DecidableEq α] {p : α → Bool} {t w : List α}
    (hw : w ∈ words p t) : ∀ a ∈ w, p a = false := by
  unfold words at hw
  split at hw
  · exact eq_false_of_mem_splitOnP ((List.dropLast_sublist _).mem hw)
  · exact eq_false_of_mem_splitOnP hw

theorem close_terminate [DecidableEq α] (s : α) (l : List (List α)) :
    close s (terminate s l) = terminate s l := by
  induction l using List.reverseRecOn with
  | nil => rfl
  | append_singleton l w _ => simp [close, terminate_concat]

/-- The words of a text, written down with the separator `s`, are the text with
its separators replaced and closed by one if needed. -/
theorem terminate_words [DecidableEq α] {s : α} {p : α → Bool} (hs : p s = true) (t : List α) :
    terminate s (words p t) = close s (t.map fun a ↦ if p a then s else a) := by
  have hall := terminate_splitOnP s p t
  obtain hnil | ⟨l, w, hl⟩ := List.eq_nil_or_concat (t.splitOnP p)
  · exact absurd hnil (List.splitOnP_ne_nil p t)
  · rw [List.concat_eq_append] at hl
    rw [hl, terminate_concat, List.append_left_inj] at hall
    rw [← hall]
    cases w using List.reverseRecOn with
    | nil =>
        -- the text is empty or ends with a separator
        rw [words, hl, if_pos (by simp), List.dropLast_concat, List.append_nil, close_terminate]
    | append_singleton w a =>
        have ha : a ≠ s := by
          rintro rfl
          have hmem : w ++ [a] ∈ t.splitOnP p := by rw [hl]; simp
          have hfalse := eq_false_of_mem_splitOnP hmem a (by simp)
          rw [hs] at hfalse
          exact absurd hfalse (by simp)
        rw [words, hl, if_neg (by simp), terminate_concat, close, if_pos (by simp [ha])]

/-! ## Joining words -/

/-- Joining with a separator is the first piece, and the others with a separator
before them. -/
theorem intercalate_cons_eq_flatMap (sep w : List α) (l : List (List α)) :
    sep.intercalate (w :: l) = w ++ l.flatMap (sep ++ ·) := by
  induction l generalizing w with
  | nil => simp
  | cons v l ih =>
      rw [List.intercalate_cons_cons, ih, List.flatMap_cons, List.append_assoc,
        List.append_assoc]

/-- A separator after the last piece closes the text. -/
theorem intercalate_append_separator {s : α} {l : List (List α)} (h : l ≠ []) :
    [s].intercalate l ++ [s] = terminate s l := by
  induction l with
  | nil => exact absurd rfl h
  | cons w l ih =>
      cases l with
      | nil => simp
      | cons v l =>
          rw [List.intercalate_cons_cons, List.append_assoc, ih (by simp), terminate_cons]
          simp

/-- A further piece is joined by one more separator. -/
theorem intercalate_concat (sep w : List α) {l : List (List α)} (h : l ≠ []) :
    sep.intercalate (l ++ [w]) = sep.intercalate l ++ (sep ++ w) := by
  cases l with
  | nil => exact absurd rfl h
  | cons v l =>
      rw [List.cons_append, intercalate_cons_eq_flatMap, intercalate_cons_eq_flatMap,
        List.flatMap_append, List.flatMap_singleton, List.append_assoc]

end Seraphbot
