import Mathlib.Algebra.Order.Floor.Div
import Mathlib.Data.List.Range

/-!
# Cutting a list into pages

Two facts about showing a list page by page.

A page that is filled greedily holds the longest prefix of what is left that still
fits.  If whatever fits also does without its last items, there is only one such
prefix, and `Longest.eq_iff` recognises its length.

Pages that start at multiples of a fixed `stride` show everything once, in order,
only if each of them ends where the next one starts.  `tiles_iff` adds that every
page computes the number of pages from its own length: then they agree only if
there is a single page, or all of them are filled with `stride` items exactly.
-/

universe u

namespace Seraphbot

/-! ## The longest prefix that fits -/

section Longest

variable {α : Type u} (fits : List α → Prop)

/-- The first `k` items of `l` fit, and one more does not. -/
structure Longest (l : List α) (k : ℕ) : Prop where
  le : k ≤ l.length
  enough : fits (l.take k)
  stuck : k < l.length → ¬ fits (l.take (k + 1))

variable {fits}

/-- There is at most one longest prefix. -/
theorem Longest.le_of (hmono : ∀ l l', fits (l ++ l') → fits l) {l : List α} {j k : ℕ}
    (hj : Longest fits l j) (hk : Longest fits l k) : k ≤ j := by
  by_contra hlt
  rw [not_le] at hlt
  refine hj.stuck (hlt.trans_le hk.le) (hmono _ ((l.drop (j + 1)).take (k - (j + 1))) ?_)
  rw [← List.take_add, Nat.add_sub_cancel' hlt]
  exact hk.enough

theorem Longest.eq_iff (hmono : ∀ l l', fits (l ++ l') → fits l) {l : List α} {k : ℕ}
    (hk : Longest fits l k) (j : ℕ) : k = j ↔ Longest fits l j := by
  constructor
  · rintro rfl
    exact hk
  · intro hj
    exact le_antisymm (hj.le_of hmono hk) (hk.le_of hmono hj)

end Longest

/-! ## Windows -/

theorem range_append_range' (a n : ℕ) :
    List.range a ++ List.range' a n = List.range (a + n) := by
  have h := List.range'_append_1 (s := 0) (m := a) (n := n)
  rwa [Nat.zero_add, ← List.range_eq_range', ← List.range_eq_range'] at h

/-- A list that ends with a window is a range exactly if it reaches up to the
window. -/
theorem append_range'_eq_range_iff {l : List ℕ} {a n N : ℕ} (hn : 0 < n) :
    l ++ List.range' a n = List.range N ↔ l = List.range a ∧ N = a + n := by
  constructor
  · intro h
    have hlen : l.length + n = N := by simpa using congrArg List.length h
    rw [← hlen, ← range_append_range'] at h
    obtain ⟨hl, hw⟩ := List.append_inj h (by simp)
    obtain ⟨n, rfl⟩ : ∃ m, n = m + 1 := ⟨n - 1, by omega⟩
    rw [List.range'_succ, List.range'_succ, List.cons.injEq] at hw
    exact ⟨hw.1 ▸ hl, by omega⟩
  · rintro ⟨rfl, rfl⟩
    exact range_append_range' a n

/-- Windows at multiples of `stride` make up a range exactly if each of them but
the last one reaches up to the next one. -/
theorem flatMap_range'_eq_range_iff {stride : ℕ} {n : ℕ → ℕ} {T N : ℕ}
    (hn : ∀ p ≤ T, 0 < n p) :
    (List.range (T + 1)).flatMap (fun p ↦ List.range' (stride * p) (n p)) = List.range N ↔
      (∀ p < T, n p = stride) ∧ N = stride * T + n T := by
  induction T generalizing N with
  | zero =>
      have h := append_range'_eq_range_iff (l := []) (a := 0) (N := N) (hn 0 le_rfl)
      simpa using h
  | succ T ih =>
      have ih := ih (N := stride * (T + 1)) fun p hp ↦ hn p (hp.trans (Nat.le_succ T))
      rw [List.range_succ, List.flatMap_append, List.flatMap_singleton,
        append_range'_eq_range_iff (hn (T + 1) le_rfl), ih, Nat.mul_succ]
      constructor
      · rintro ⟨⟨hfull, hlast⟩, rfl⟩
        refine ⟨fun p hp ↦ ?_, rfl⟩
        rcases Nat.lt_succ_iff_lt_or_eq.mp hp with hp | rfl
        · exact hfull p hp
        · omega
      · rintro ⟨hfull, rfl⟩
        exact ⟨⟨fun p hp ↦ hfull p (hp.trans (Nat.lt_succ_self T)),
          by rw [hfull T (Nat.lt_succ_self T)]⟩, rfl⟩

/-! ## Counting pages -/

/-- How many pages `N` items make when each page has `n` of them; a page without
items does not say. -/
def pagesFor (N n : ℕ) : ℕ := if n = 0 then 1 else (N + n - 1) / n

theorem pagesFor_le_iff {N n T : ℕ} (hn : 0 < n) : pagesFor N n ≤ T ↔ N ≤ n * T := by
  rw [pagesFor, if_neg hn.ne', ← Nat.ceilDiv_eq_add_pred_div, ceilDiv_le_iff_le_mul hn]

theorem pagesFor_mul {n T : ℕ} (hn : 0 < n) : pagesFor (n * T) n = T := by
  refine le_antisymm ((pagesFor_le_iff hn).mpr le_rfl) ?_
  exact Nat.le_of_mul_le_mul_left ((pagesFor_le_iff hn).mp le_rfl) hn

theorem pagesFor_pos {N n : ℕ} (h : n ≤ N) : 0 < pagesFor N n := by
  rcases Nat.eq_zero_or_pos n with rfl | hn
  · exact Nat.one_pos
  · by_contra hzero
    have hN := (pagesFor_le_iff hn).mp (not_lt.mp hzero)
    omega

theorem pagesFor_self (N : ℕ) : pagesFor N N = 1 := by
  rcases Nat.eq_zero_or_pos N with rfl | hN
  · rfl
  · simpa using pagesFor_mul (T := 1) hN

/-- **When pages tile a list.**  Page `p` starts at `stride * p` and holds `n p`
items.  The pages show all of `N` items, once and in order, and each of them counts
as many pages as the first one, exactly if the first page holds everything, or every
page holds `stride` items and none is left over. -/
theorem tiles_iff {stride N : ℕ} (hs : 0 < stride) {n : ℕ → ℕ} (hfirst : n 0 ≤ N) :
    ((List.range (pagesFor N (n 0))).flatMap (fun p ↦ List.range' (stride * p) (n p)) =
        List.range N ∧
      ∀ p < pagesFor N (n 0), pagesFor N (n p) = pagesFor N (n 0)) ↔
    (n 0 = N ∨ ∃ T, 2 ≤ T ∧ N = stride * T ∧ ∀ p < T, n p = stride) := by
  constructor
  · rintro ⟨hall, hsame⟩
    rcases Nat.eq_or_lt_of_le (pagesFor_pos hfirst) with hT | hT
    · left
      rw [← hT] at hall
      simpa using congrArg List.length hall
    · right
      have hpos : ∀ p < pagesFor N (n 0), 0 < n p := by
        intro p hp
        rcases Nat.eq_zero_or_pos (n p) with hzero | hpos
        · have hpage := hsame p hp
          rw [hzero, pagesFor, if_pos rfl] at hpage
          omega
        · exact hpos
      generalize hgen : pagesFor N (n 0) = T at hall hsame hT hpos
      obtain ⟨T, rfl⟩ : ∃ t, T = t + 1 := ⟨T - 1, by omega⟩
      rw [flatMap_range'_eq_range_iff fun p hp ↦ hpos p (by omega)] at hall
      obtain ⟨hfull, hN⟩ := hall
      -- the first page is full, which bounds the last one from above
      have hle : n T ≤ stride := by
        have hbound := (pagesFor_le_iff (hpos 0 (by omega))).mp hgen.le
        rw [hfull 0 (by omega), hN, Nat.mul_succ] at hbound
        omega
      -- and the last one counts as many pages, which bounds it from below
      have hge : stride ≤ n T := by
        have hlast := (pagesFor_le_iff (hpos T (by omega))).mp (hsame T (by omega)).le
        rw [hN, Nat.mul_succ, Nat.add_le_add_iff_right] at hlast
        exact Nat.le_of_mul_le_mul_right hlast (by omega)
      have hT' : n T = stride := le_antisymm hle hge
      refine ⟨T + 1, hT, by rw [hN, hT', Nat.mul_succ], fun p hp ↦ ?_⟩
      rcases Nat.lt_succ_iff_lt_or_eq.mp hp with hp | rfl
      · exact hfull p hp
      · exact hT'
  · rintro (h | ⟨T, hT, rfl, hfull⟩)
    · subst h
      simp [pagesFor_self, List.range_eq_range']
    · have hcount : ∀ p < T, pagesFor (stride * T) (n p) = T := by
        intro p hp
        rw [hfull p hp, pagesFor_mul hs]
      rw [hcount 0 (by omega)]
      refine ⟨?_, hcount⟩
      obtain ⟨T, rfl⟩ : ∃ t, T = t + 1 := ⟨T - 1, by omega⟩
      rw [flatMap_range'_eq_range_iff fun p hp ↦ by rw [hfull p (by omega)]; exact hs]
      exact ⟨fun p hp ↦ hfull p (by omega), by rw [hfull T (by omega), Nat.mul_succ]⟩

end Seraphbot
