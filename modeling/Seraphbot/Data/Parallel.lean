import Mathlib.Data.List.Forall2

/-!
# Two lists in parallel

Two lists that say different things about the same items, related item by item.  They
stay related when the same place of both is written or removed.
-/

universe u v

namespace Seraphbot

variable {α : Type u} {β : Type v} {R : α → β → Prop} {as : List α} {bs : List β}

theorem exists_getElem?_of_forall₂ (h : List.Forall₂ R as bs) {i : Nat} {b : β}
    (hb : bs[i]? = some b) : ∃ a, as[i]? = some a ∧ R a b := by
  obtain ⟨hi, hget⟩ := List.getElem?_eq_some_iff.mp hb
  have hi' : i < as.length := h.length_eq ▸ hi
  refine ⟨as[i], List.getElem?_eq_getElem hi', ?_⟩
  rw [← hget]
  exact h.get hi' hi

theorem forall₂_eraseIdx (h : List.Forall₂ R as bs) (i : Nat) :
    List.Forall₂ R (as.eraseIdx i) (bs.eraseIdx i) := by
  rw [List.eraseIdx_eq_take_drop_succ, List.eraseIdx_eq_take_drop_succ]
  exact List.rel_append (List.forall₂_take i h) (List.forall₂_drop (i + 1) h)

theorem forall₂_set (h : List.Forall₂ R as bs) (i : Nat) {a : α} {b : β} (hab : R a b) :
    List.Forall₂ R (as.set i a) (bs.set i b) := by
  induction h generalizing i with
  | nil => exact .nil
  | cons hhead htail ih =>
      cases i with
      | zero => exact .cons hab htail
      | succ i => exact .cons hhead (ih i)

end Seraphbot
