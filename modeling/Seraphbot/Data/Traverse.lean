import Mathlib.Data.List.Forall2

/-!
# Loops that may fail

A loop over a list whose body returns a value or fails, and which ends at the first
failure.
-/

universe u v

namespace Seraphbot

variable {ε α : Type u} {β : Type u} {f : α → Except ε β}

/-- The loop ends well if all its rounds do. -/
theorem mapM_eq_ok_iff {l : List α} {bs : List β} :
    l.mapM f = .ok bs ↔ List.Forall₂ (fun a b ↦ f a = .ok b) l bs := by
  induction l generalizing bs with
  | nil => simp [pure, Except.pure, eq_comm]
  | cons a l ih =>
      rw [List.mapM_cons, List.forall₂_cons_left_iff]
      cases hhead : f a with
      | error err => simp [bind, Except.bind]
      | ok b =>
          cases htail : l.mapM f with
          | error err => simp [bind, Except.bind, ← ih, htail]
          | ok rest => simp [bind, Except.bind, pure, Except.pure, ← ih, htail, eq_comm]

theorem exists_mapM_eq_ok_iff {l : List α} :
    (∃ bs, l.mapM f = .ok bs) ↔ ∀ a ∈ l, ∃ b, f a = .ok b := by
  simp only [mapM_eq_ok_iff]
  induction l with
  | nil => exact iff_of_true ⟨[], .nil⟩ (List.forall_mem_nil _)
  | cons a l ih =>
      rw [List.forall_mem_cons, ← ih]
      constructor
      · rintro ⟨bs, h⟩
        obtain ⟨b, rest, hb, hrest, -⟩ := List.forall₂_cons_left_iff.mp h
        exact ⟨⟨b, hb⟩, ⟨rest, hrest⟩⟩
      · rintro ⟨⟨b, hb⟩, rest, hrest⟩
        exact ⟨b :: rest, .cons hb hrest⟩

end Seraphbot
