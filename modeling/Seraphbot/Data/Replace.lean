import Mathlib.Data.List.Infix

/-!
# Filling in templates

All occurrences of a pattern in a list replaced by something else, from left to right.
If the replacement is made of other letters than a pattern, then no occurrence of that
pattern can reach into it: none appears that was not there before
(`infix_of_infix_replaceAll`), and of the pattern that is replaced none is left
(`not_infix_replaceAll`).
-/

universe u

namespace Seraphbot

variable {α : Type u} [DecidableEq α]

/-- Replace a pattern that is not empty.  The first `skip` letters have been replaced
already. -/
def replaceFrom (pattern new : List α) : ℕ → List α → List α
  | _, [] => []
  | skip + 1, _ :: l => replaceFrom pattern new skip l
  | 0, a :: l =>
      if pattern.isPrefixOf (a :: l) then new ++ replaceFrom pattern new (pattern.length - 1) l
      else a :: replaceFrom pattern new 0 l

/-- Replace the pattern wherever it is found. -/
def replaceAll (pattern new l : List α) : List α := replaceFrom pattern new 0 l

section

variable {pattern new q : List α}

theorem replaceFrom_of_found {a : α} {l : List α} (h : pattern <+: a :: l) :
    replaceFrom pattern new 0 (a :: l) =
      new ++ replaceFrom pattern new (pattern.length - 1) l :=
  if_pos (List.isPrefixOf_iff_prefix.mpr h)

theorem replaceFrom_of_not_found {a : α} {l : List α} (h : ¬ pattern <+: a :: l) :
    replaceFrom pattern new 0 (a :: l) = a :: replaceFrom pattern new 0 l :=
  if_neg fun hfound ↦ h (List.isPrefixOf_iff_prefix.mp hfound)

omit [DecidableEq α] in
/-- A list cannot start where its letters are not. -/
theorem infix_of_infix_append (hq : q ≠ []) (hnew : ∀ a ∈ new, a ∉ q) {l : List α}
    (h : q <:+: new ++ l) : q <:+: l := by
  induction new with
  | nil => exact h
  | cons a new ih =>
      rw [List.forall_mem_cons] at hnew
      rcases List.infix_cons_iff.mp h with hstart | hlater
      · obtain ⟨c, q, rfl⟩ := List.exists_cons_of_ne_nil hq
        obtain ⟨rfl, -⟩ := List.cons_prefix_cons.mp hstart
        exact absurd List.mem_cons_self hnew.1
      · exact ih hnew.2 hlater

theorem prefix_of_prefix_replaceFrom (hne : new ≠ []) (hnew : ∀ a ∈ new, a ∉ q) {skip : ℕ}
    {l : List α} (h : q <+: replaceFrom pattern new skip l) : q <+: l.drop skip := by
  induction l generalizing skip q with
  | nil => simpa [replaceFrom] using h
  | cons a l ih =>
      cases skip with
      | succ skip => exact ih hnew h
      | zero =>
          cases q with
          | nil => exact List.nil_prefix
          | cons c q =>
              by_cases hfound : pattern <+: a :: l
              · rw [replaceFrom_of_found hfound] at h
                obtain ⟨b, new, rfl⟩ := List.exists_cons_of_ne_nil hne
                obtain ⟨rfl, -⟩ := List.cons_prefix_cons.mp h
                exact absurd List.mem_cons_self (hnew c List.mem_cons_self)
              · rw [replaceFrom_of_not_found hfound] at h
                obtain ⟨rfl, hrest⟩ := List.cons_prefix_cons.mp h
                refine List.cons_prefix_cons.mpr ⟨rfl, ?_⟩
                exact ih (fun a ha hq ↦ hnew a ha (List.mem_cons_of_mem _ hq)) hrest

theorem infix_of_infix_replaceFrom (hne : new ≠ []) (hnew : ∀ a ∈ new, a ∉ q) (hq : q ≠ [])
    {skip : ℕ} {l : List α} (h : q <:+: replaceFrom pattern new skip l) : q <:+: l.drop skip := by
  induction l generalizing skip with
  | nil => simpa [replaceFrom] using h
  | cons a l ih =>
      cases skip with
      | succ skip => exact ih h
      | zero =>
          by_cases hfound : pattern <+: a :: l
          · rw [replaceFrom_of_found hfound] at h
            have hlater := ih (infix_of_infix_append hq hnew h)
            exact List.infix_cons (hlater.trans (List.drop_suffix _ l).isInfix)
          · rw [replaceFrom_of_not_found hfound] at h
            rcases List.infix_cons_iff.mp h with hstart | hlater
            · rw [← replaceFrom_of_not_found hfound] at hstart
              exact (prefix_of_prefix_replaceFrom hne hnew hstart).isInfix
            · exact List.infix_cons (ih hlater)

theorem not_infix_replaceFrom (hne : new ≠ []) (hnew : ∀ a ∈ new, a ∉ pattern)
    (hpattern : pattern ≠ []) (skip : ℕ) (l : List α) :
    ¬ pattern <:+: replaceFrom pattern new skip l := by
  induction l generalizing skip with
  | nil => simpa [replaceFrom] using hpattern
  | cons a l ih =>
      cases skip with
      | succ skip => exact ih skip
      | zero =>
          intro h
          by_cases hfound : pattern <+: a :: l
          · rw [replaceFrom_of_found hfound] at h
            exact ih _ (infix_of_infix_append hpattern hnew h)
          · rw [replaceFrom_of_not_found hfound] at h
            rcases List.infix_cons_iff.mp h with hstart | hlater
            · rw [← replaceFrom_of_not_found hfound] at hstart
              exact hfound (prefix_of_prefix_replaceFrom hne hnew hstart)
            · exact ih _ hlater

/-- What is put in makes nothing appear. -/
theorem infix_of_infix_replaceAll (hne : new ≠ []) (hnew : ∀ a ∈ new, a ∉ q) (hq : q ≠ [])
    {l : List α} (h : q <:+: replaceAll pattern new l) : q <:+: l :=
  infix_of_infix_replaceFrom hne hnew hq h

/-- What is replaced is gone. -/
theorem not_infix_replaceAll (hne : new ≠ []) (hnew : ∀ a ∈ new, a ∉ pattern)
    (hpattern : pattern ≠ []) (l : List α) : ¬ pattern <:+: replaceAll pattern new l :=
  not_infix_replaceFrom hne hnew hpattern 0 l

end

end Seraphbot
