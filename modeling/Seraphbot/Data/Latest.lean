import Mathlib.Data.List.Induction
import Mathlib.Data.List.Pairwise
import Mathlib.Order.Basic

/-!
# The latest element of a list satisfying a test

A table that is only ever written by assignment remembers, for each key, the
*latest* write to that key; a register that is overwritten on every event
remembers the latest event.  `latest p l` is that element of a history `l`
listed oldest first, and this file collects how it behaves as the history
grows, one entry at a time or by a block of entries.

Nothing here mentions a key, a clock or a table.
-/

universe u v w

namespace Seraphbot

variable {α : Type u} {β : Type v}

/-- The last element of `l` that satisfies `p`. -/
def latest (p : α → Bool) (l : List α) : Option α := l.reverse.find? p

@[simp] theorem latest_nil (p : α → Bool) : latest p [] = none := rfl

/-- The latest element of a concatenation is looked for on the right first. -/
theorem latest_append (p : α → Bool) (l l' : List α) :
    latest p (l ++ l') = (latest p l').or (latest p l) := by
  simp [latest, List.find?_append]

/-- Appending one element either makes it the latest one or changes nothing. -/
theorem latest_concat (p : α → Bool) (l : List α) (a : α) :
    latest p (l ++ [a]) = if p a then some a else latest p l := by
  rw [latest_append]
  by_cases h : p a <;> simp [latest, h]

/-- An element in front is the latest one only when no other one is. -/
theorem latest_cons (p : α → Bool) (a : α) (l : List α) :
    latest p (a :: l) = (latest p l).or (if p a then some a else none) := by
  have hone : latest p [a] = if p a then some a else none := latest_concat p [] a
  rw [← hone, ← latest_append, List.singleton_append]

@[simp] theorem latest_eq_none {p : α → Bool} {l : List α} :
    latest p l = none ↔ ∀ a ∈ l, p a = false := by
  simp [latest]

theorem latest_mem {p : α → Bool} {l : List α} {a : α} (h : latest p l = some a) :
    a ∈ l := List.mem_reverse.mp (List.mem_of_find?_eq_some h)

theorem latest_sat {p : α → Bool} {l : List α} {a : α} (h : latest p l = some a) :
    p a = true := by
  simpa using List.find?_some h

/-- There is a latest element as soon as there is one at all. -/
theorem exists_latest {p : α → Bool} {l : List α} {a : α} (ha : a ∈ l) (hp : p a = true) :
    ∃ b, latest p l = some b := by
  cases h : latest p l with
  | some b => exact ⟨b, rfl⟩
  | none =>
      have := latest_eq_none.mp h a ha
      simp [hp] at this

/-- When all the elements that pass the test agree, the latest one is that
common element. -/
theorem latest_eq_some_of_forall {p : α → Bool} {l : List α} {a : α} (ha : a ∈ l)
    (hp : p a = true) (hall : ∀ b ∈ l, p b = true → b = a) : latest p l = some a := by
  obtain ⟨b, hb⟩ := exists_latest ha hp
  rw [hb, hall b (latest_mem hb) (latest_sat hb)]

/-- The latest element of an image. -/
theorem latest_map (p : β → Bool) (f : α → β) (l : List α) :
    latest p (l.map f) = (latest (p ∘ f) l).map f := by
  simp [latest, ← List.map_reverse, List.find?_map]

/-- In a history with non-decreasing stamps, a bound on the latest stamp is a
bound on all of them. -/
theorem forall_le_iff_latest {τ : Type w} [Preorder τ] {p : α → Bool} {stamp : α → τ}
    {l : List α} (hl : l.Pairwise fun a b ↦ stamp a ≤ stamp b) (t : τ) :
    (∀ a ∈ l, p a = true → stamp a ≤ t) ↔ ∀ a, latest p l = some a → stamp a ≤ t := by
  constructor
  · exact fun h a ha ↦ h a (latest_mem ha) (latest_sat ha)
  · induction l using List.reverseRecOn with
    | nil => simp
    | append_singleton l b ih =>
        intro h a ha hp
        obtain ⟨hl', -, hb⟩ := List.pairwise_append.mp hl
        rw [latest_concat] at h
        by_cases hpb : p b = true
        · have hbt : stamp b ≤ t := h b (by simp [hpb])
          rcases List.mem_append.mp ha with ha | ha
          · exact le_trans (hb a ha b (by simp)) hbt
          · rwa [List.mem_singleton.mp ha]
        · rcases List.mem_append.mp ha with ha | ha
          · exact ih hl' (by simpa [hpb] using h) a ha hp
          · rw [List.mem_singleton.mp ha] at hp
            exact absurd hp hpb

end Seraphbot
