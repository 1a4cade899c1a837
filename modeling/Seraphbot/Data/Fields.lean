import Seraphbot.Data.Latest

/-!
# Header fields

A list of named values in which names are compared by a key, as header fields are
compared without regard to letter case.  `set` throws out what is there under the name
and appends the new value.  So whatever is set, in whatever order, every name has one
value at most, and it is the one that was set last (`valuesOf_setAll`).
-/

universe u v w

namespace Seraphbot.Fields

variable {α : Type u} {β : Type v} {κ : Type w} [DecidableEq κ] (key : α → κ)

/-- Set a field, in place of all of the same name. -/
def set (fields : List (α × β)) (field : α × β) : List (α × β) :=
  fields.filter (fun f ↦ key f.1 ≠ key field.1) ++ [field]

/-- Set fields one after the other. -/
def setAll (fields new : List (α × β)) : List (α × β) := new.foldl (set key) fields

/-- The values under a name. -/
def valuesOf (name : α) (fields : List (α × β)) : List β :=
  (fields.filter fun f ↦ key f.1 = key name).map Prod.snd

theorem valuesOf_set (name : α) (fields : List (α × β)) (field : α × β) :
    valuesOf key name (set key fields field) =
      if key field.1 = key name then [field.2] else valuesOf key name fields := by
  unfold valuesOf set
  rw [List.filter_append, List.filter_filter, List.map_append]
  split_ifs with h
  · have hnone : fields.filter (fun f ↦ decide (key f.1 = key name) &&
        decide (key f.1 ≠ key field.1)) = [] := by
      refine List.filter_eq_nil_iff.mpr fun f _ ↦ ?_
      simp +contextual [h]
    rw [hnone, List.filter_cons_of_pos (by simpa using h)]
    rfl
  · have hsame : fields.filter (fun f ↦ decide (key f.1 = key name) &&
        decide (key f.1 ≠ key field.1)) = fields.filter fun f ↦ key f.1 = key name := by
      refine List.filter_congr fun f _ ↦ ?_
      by_cases hf : key f.1 = key name <;> simp [hf, Ne.symm h]
    rw [hsame, List.filter_cons_of_neg (by simpa using h), List.filter_nil, List.map_nil,
      List.append_nil]

/-- A field has the value that was set last, if it was set at all. -/
theorem valuesOf_setAll (name : α) (fields new : List (α × β)) :
    valuesOf key name (setAll key fields new) =
      match latest (fun f ↦ key f.1 = key name) new with
      | some f => [f.2]
      | none => valuesOf key name fields := by
  induction new using List.reverseRecOn with
  | nil => rfl
  | append_singleton new field ih =>
      rw [setAll, List.foldl_append, List.foldl_cons, List.foldl_nil, valuesOf_set, latest_concat]
      by_cases h : key field.1 = key name
      · simp [h]
      · simpa [h, setAll] using ih

end Seraphbot.Fields
