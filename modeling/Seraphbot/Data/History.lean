import Mathlib.Algebra.Order.Group.Int
import Mathlib.Data.List.Infix
import Mathlib.Data.List.Count
import Seraphbot.Data.Latest

/-!
# Histories of uses

A resource that is throttled has a history: its uses, oldest first, interrupted
by resets of its quotas.  Each use takes time, from its `start` to its `stop`,
both read off a clock.  Two kinds of throttling are stated over such histories,
for the uses that satisfy a test `p`:

* a *gap*: the uses are `Spaced` when each one starts at least `gap` after every
  earlier one has stopped;
* a *quota*: the uses are `Capped` when no stretch without a reset has more than
  `n` of them.

Both are safety properties that hold as long as every single use is admitted
properly.  `Spaced.concat` and `Capped.concat` say what has to be checked when
the history grows by one use: that the past is `Quiet` for long enough, and that
there is room since the last reset.
-/

universe u

namespace Seraphbot

/-- An entry of a history. -/
inductive Mark (α : Type u) where
  | use (a : α)
  | reset
deriving DecidableEq

/-- A history, oldest entry first. -/
abbrev History (α : Type u) := List (Mark α)

namespace History

variable {α : Type u}

/-- The uses of a history. -/
def uses (h : History α) : List α :=
  h.filterMap fun
    | .use a => some a
    | .reset => none

/-- The uses since the last reset. -/
def sinceReset (h : History α) : List α :=
  h.foldl (fun acc mark ↦
    match mark with
    | .use a => acc ++ [a]
    | .reset => []) []

@[simp] theorem uses_nil : uses ([] : History α) = [] := rfl
@[simp] theorem uses_append (h h' : History α) : uses (h ++ h') = uses h ++ uses h' :=
  List.filterMap_append
@[simp] theorem uses_use (a : α) : uses [.use a] = [a] := rfl
@[simp] theorem uses_reset : uses ([.reset] : History α) = [] := rfl
@[simp] theorem sinceReset_nil : sinceReset ([] : History α) = [] := rfl
@[simp] theorem sinceReset_use (h : History α) (a : α) :
    sinceReset (h ++ [.use a]) = sinceReset h ++ [a] := by simp [sinceReset]
@[simp] theorem sinceReset_reset (h : History α) : sinceReset (h ++ [.reset]) = [] := by
  simp [sinceReset]

/-- A stretch without a reset adds all its uses. -/
theorem sinceReset_append {mid : History α} (hmid : .reset ∉ mid) (h : History α) :
    sinceReset (h ++ mid) = sinceReset h ++ uses mid := by
  induction mid using List.reverseRecOn with
  | nil => simp
  | append_singleton mid mark ih =>
      simp only [List.mem_append, List.mem_singleton, not_or] at hmid
      cases mark with
      | reset => exact absurd rfl hmid.2
      | use a => simp [← List.append_assoc, ih hmid.1]

/-- The uses since the last reset are those of the last stretch. -/
theorem exists_last_stretch (h : History α) :
    ∃ pre mid, h = pre ++ mid ∧ .reset ∉ mid ∧ uses mid = sinceReset h := by
  induction h using List.reverseRecOn with
  | nil => exact ⟨[], [], rfl, by simp, rfl⟩
  | append_singleton h mark ih =>
      cases mark with
      | reset => exact ⟨h ++ [.reset], [], by simp, by simp, by simp⟩
      | use a =>
          obtain ⟨pre, mid, rfl, hmid, heq⟩ := ih
          refine ⟨pre, mid ++ [.use a], by simp, by simpa using hmid, ?_⟩
          rw [uses_append, heq, uses_use, sinceReset_use]

theorem mem_uses_of_mem_sinceReset {h : History α} {a : α} (ha : a ∈ sinceReset h) :
    a ∈ uses h := by
  obtain ⟨pre, mid, rfl, -, hu⟩ := exists_last_stretch h
  rw [uses_append, hu]
  exact List.mem_append_right _ ha

/-! ## Gaps -/

section Gap

variable (p : α → Bool) (start stop : α → ℤ) (gap : ℤ)

/-- Every use that satisfies `p` has stopped at least `gap` before `t`. -/
def Quiet (t : ℤ) (h : History α) : Prop := ∀ a ∈ uses h, p a = true → stop a + gap ≤ t

/-- Any two uses that satisfy `p` are at least `gap` apart, from the stop of the
earlier to the start of the later. -/
def Spaced (h : History α) : Prop :=
  ((uses h).filter p).Pairwise fun a b ↦ stop a + gap ≤ start b

variable {p start stop gap}

@[simp] theorem Spaced.nil : Spaced p start stop gap ([] : History α) := List.Pairwise.nil

/-- Resets do not affect the spacing. -/
theorem Spaced.reset {h : History α} (hs : Spaced p start stop gap h) :
    Spaced p start stop gap (h ++ [.reset]) := by
  simpa [Spaced] using hs

/-- A use keeps the spacing when the past is quiet at its start. -/
theorem Spaced.concat {h : History α} {a : α} (hs : Spaced p start stop gap h)
    (ha : p a = true → Quiet p stop gap (start a) h) :
    Spaced p start stop gap (h ++ [.use a]) := by
  unfold Spaced at hs ⊢
  rw [uses_append, uses_use, List.filter_append, List.pairwise_append]
  refine ⟨hs, List.Pairwise.filter _ (List.pairwise_singleton _ _), ?_⟩
  intro b hb c hc
  obtain ⟨hbu, hbp⟩ := List.mem_filter.mp hb
  obtain ⟨hcu, hcp⟩ := List.mem_filter.mp hc
  obtain rfl := List.mem_singleton.mp hcu
  exact ha hcp b hbu hbp

/-- A summary that keeps only the latest stop decides whether the past is
quiet, provided uses stop in the order they are listed. -/
theorem quiet_iff_latest {h : History α} (hord : (uses h).Pairwise fun a b ↦ stop a ≤ stop b)
    (t : ℤ) : Quiet p stop gap t h ↔ ∀ a, latest p (uses h) = some a → stop a + gap ≤ t := by
  have hle := forall_le_iff_latest (p := p) hord (t - gap)
  have hshift : ∀ s : ℤ, s ≤ t - gap ↔ s + gap ≤ t := fun s ↦ by omega
  simp only [hshift] at hle
  exact hle

end Gap

/-! ## Quotas -/

section Quota

variable (p : α → Bool) (n : ℤ)

/-- No stretch without a reset has more than `n` uses that satisfy `p`. -/
def Capped (h : History α) : Prop :=
  ∀ pre mid post, h = pre ++ mid ++ post → .reset ∉ mid → ((uses mid).countP p : ℤ) ≤ n

variable {p n}

theorem Capped.nil (hn : 0 ≤ n) : Capped p n ([] : History α) := by
  intro pre mid post he _
  have hmid : mid = [] := by
    have := List.append_eq_nil_iff.mp he.symm
    exact (List.append_eq_nil_iff.mp this.1).2
  simpa [hmid] using hn

/-- The quota bounds the uses since the last reset. -/
theorem Capped.sinceReset_le {h : History α} (hc : Capped p n h) :
    ((sinceReset h).countP p : ℤ) ≤ n := by
  obtain ⟨pre, mid, he, hmid, hu⟩ := exists_last_stretch h
  rw [← hu]
  exact hc pre mid [] (by simpa using he) hmid

/-- A longer history is capped when the shorter one is and the last stretch is
within the quota. -/
theorem Capped.extend {h : History α} {mark : Mark α} (hc : Capped p n h)
    (hlast : ((sinceReset (h ++ [mark])).countP p : ℤ) ≤ n) : Capped p n (h ++ [mark]) := by
  intro pre mid post he hmid
  induction post using List.reverseRecOn with
  | nil =>
      -- the stretch ends the history, so it is a part of the last one
      rw [List.append_nil] at he
      rw [he, sinceReset_append hmid, List.countP_append] at hlast
      omega
  | append_singleton post mark' _ =>
      rw [← List.append_assoc] at he
      exact hc pre mid post (List.append_inj_left' he rfl) hmid

/-- A use keeps the quota when there is room for it since the last reset. -/
theorem Capped.concat {h : History α} {a : α} (hc : Capped p n h)
    (ha : p a = true → ((sinceReset h).countP p : ℤ) < n) : Capped p n (h ++ [.use a]) := by
  refine hc.extend ?_
  rw [sinceReset_use, List.countP_append, List.countP_singleton]
  by_cases hp : p a = true
  · have := ha hp
    rw [if_pos hp]
    omega
  · have := hc.sinceReset_le
    rw [if_neg hp]
    omega

/-- A reset opens a new stretch. -/
theorem Capped.reset {h : History α} (hn : 0 ≤ n) (hc : Capped p n h) :
    Capped p n (h ++ [.reset]) :=
  hc.extend (by simpa using hn)

end Quota

end History

end Seraphbot
