import Mathlib.Data.List.AList
import Seraphbot.Data.Latest

/-!
# Unordered maps written by assignment

`std::unordered_map` is modelled by Mathlib's association lists with unique
keys.  Two things are added here.

* `assignAll l m` performs the assignments `l` one after the other.  A lookup
  afterwards sees the `latest` assignment to its key, or `m` when there is none
  (`lookup_assignAll`).
* A `Traversal` is one way of iterating: the language only promises that every
  entry is visited once, so an order is any rearrangement of the entries.  A
  statement about all `Traversal`s is a statement about all iteration orders.
-/

universe u v

namespace Seraphbot

/-- A finite map with an unspecified iteration order. -/
abbrev UnorderedMap (K : Type u) (V : Type v) := AList fun _ : K ↦ V

namespace UnorderedMap

variable {K : Type u} {V : Type v}

/-- `m.Owns v`: some key of `m` is bound to `v`. -/
def Owns [DecidableEq K] (m : UnorderedMap K V) (v : V) : Prop := ∃ k, m.lookup k = some v

theorem mem_iff_exists_lookup [DecidableEq K] {m : UnorderedMap K V} {k : K} :
    k ∈ m ↔ ∃ v, m.lookup k = some v := by
  rw [← AList.lookup_isSome, Option.isSome_iff_exists]

theorem lookup_insert_eq [DecidableEq K] (m : UnorderedMap K V) (k k' : K) (v : V) :
    (AList.insert k' v m).lookup k = if k' = k then some v else m.lookup k := by
  by_cases h : k' = k
  · subst h; simp
  · rw [if_neg h, AList.lookup_insert_ne (Ne.symm h)]

/-! ## Sequences of assignments -/

/-- The assignments `m[k] = v` for the pairs of `l`, in order. -/
def assignAll [DecidableEq K] (l : List (K × V)) (m : UnorderedMap K V) : UnorderedMap K V :=
  l.foldl (fun m kv ↦ AList.insert kv.1 kv.2 m) m

section

variable [DecidableEq K] (m : UnorderedMap K V)

@[simp] theorem assignAll_nil : assignAll [] m = m := rfl

@[simp] theorem assignAll_cons (kv : K × V) (l : List (K × V)) :
    assignAll (kv :: l) m = assignAll l (AList.insert kv.1 kv.2 m) := rfl

theorem assignAll_append (l l' : List (K × V)) :
    assignAll (l ++ l') m = assignAll l' (assignAll l m) := List.foldl_append

/-- After a sequence of assignments a key holds the latest value assigned to
it, and what it held before when it was never assigned. -/
theorem lookup_assignAll (l : List (K × V)) (k : K) :
    (assignAll l m).lookup k =
      ((latest (fun kv ↦ kv.1 = k) l).map Prod.snd).or (m.lookup k) := by
  induction l using List.reverseRecOn with
  | nil => simp
  | append_singleton l kv ih =>
      rw [assignAll_append, latest_concat, assignAll_cons, assignAll_nil, lookup_insert_eq, ih]
      by_cases h : kv.1 = k <;> simp [h]

/-- Binding several keys to one value. -/
theorem lookup_assignAll_const (ks : List K) (v : V) (k : K) [Decidable (k ∈ ks)] :
    (assignAll (ks.map fun k' ↦ (k', v)) m).lookup k =
      if k ∈ ks then some v else m.lookup k := by
  rw [lookup_assignAll, latest_map]
  by_cases hk : k ∈ ks
  · have hlast : latest ((fun kv : K × V ↦ decide (kv.1 = k)) ∘ fun k' ↦ (k', v)) ks = some k :=
      latest_eq_some_of_forall hk (by simp) fun b _ hb ↦ by simpa using hb
    simp [hlast, hk]
  · have hnone : latest ((fun kv : K × V ↦ decide (kv.1 = k)) ∘ fun k' ↦ (k', v)) ks = none := by
      rw [latest_eq_none]
      intro a ha
      simpa using fun h : a = k ↦ hk (h ▸ ha)
    simp [hnone, hk]

end

end UnorderedMap

/-! ## Iteration orders -/

/-- One way of iterating over maps: every entry is visited exactly once, in an
order the map is free to choose. -/
structure Traversal (K : Type u) (V : Type v) where
  /-- The entries in the order in which they are visited. -/
  order : UnorderedMap K V → List (Sigma fun _ : K ↦ V)
  /-- Nothing is skipped and nothing is visited twice. -/
  perm (m : UnorderedMap K V) : (order m).Perm m.entries

namespace Traversal

variable {K : Type u} {V : Type v}

/-- The entries in the order they are stored. -/
def stored : Traversal K V := ⟨fun m ↦ m.entries, fun _ ↦ .refl _⟩

/-- The entries in the opposite of the order they are stored. -/
def reversed : Traversal K V :=
  ⟨fun m ↦ m.entries.reverse, fun m ↦ m.entries.reverse_perm⟩

variable [DecidableEq K]

/-- A traversal visits exactly the bindings of the map. -/
theorem mem_order_iff (t : Traversal K V) {m : UnorderedMap K V} {k : K} {v : V} :
    (⟨k, v⟩ : Sigma fun _ : K ↦ V) ∈ t.order m ↔ m.lookup k = some v := by
  rw [(t.perm m).mem_iff, ← AList.mem_lookup_iff, Option.mem_def]

/-- The values visited are the values owned. -/
theorem exists_mem_order_iff (t : Traversal K V) {m : UnorderedMap K V} {v : V} :
    (∃ e ∈ t.order m, e.2 = v) ↔ m.Owns v := by
  constructor
  · rintro ⟨⟨k, w⟩, he, rfl⟩
    exact ⟨k, t.mem_order_iff.mp he⟩
  · rintro ⟨k, hk⟩
    exact ⟨⟨k, v⟩, t.mem_order_iff.mpr hk, rfl⟩

variable [DecidableEq V]

/-- The traversal that visits the entry `e` last, when there is one. -/
def last (e : Sigma fun _ : K ↦ V) : Traversal K V where
  order m := if e ∈ m.entries then m.entries.erase e ++ [e] else m.entries
  perm m := by
    split
    · rename_i h
      exact (List.perm_append_singleton e _).trans (List.perm_cons_erase h).symm
    · exact .refl _

/-- A match that is visited last is the latest match. -/
theorem latest_last {p : (Sigma fun _ : K ↦ V) → Bool} {e : Sigma fun _ : K ↦ V}
    {m : UnorderedMap K V} (h : m.lookup e.1 = some e.2) (hp : p e = true) :
    latest p ((last e).order m) = some e := by
  have he : e ∈ m.entries := AList.mem_lookup_iff.mp h
  have horder : (last e).order m = m.entries.erase e ++ [e] := by simp [last, he]
  rw [horder, latest_concat, if_pos hp]

end Traversal

end Seraphbot
