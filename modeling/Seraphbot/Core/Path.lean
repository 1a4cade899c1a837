import Mathlib.Data.List.Basic
import Mathlib.Data.List.Induction
import Mathlib.Data.List.TakeWhile
import Seraphbot.Core.Text
import Seraphbot.Data.Words

/-!
# Paths

The part of `std::filesystem::path` the bot uses, on POSIX: a path is a byte
string with components separated by `/`.
-/

namespace Seraphbot

/-- A `std::filesystem::path`. -/
abbrev Path := Bytes

namespace Path

/-- What follows the last separator. -/
def filename (p : Path) : Bytes := (p.reverse.takeWhile (· ≠ byte '/')).reverse

/-- The last dot of the file name and what follows it.  A file name that is
`.` or `..`, or whose only dot comes first, has no extension. -/
def extension (p : Path) : Bytes :=
  let name := filename p
  if name = bytes "." ∨ name = bytes ".." then []
  else match name.reverse.dropWhile (· ≠ byte '.') with
    | [] | [_] => []
    | _ => byte '.' :: (name.reverse.takeWhile (· ≠ byte '.')).reverse

/-- The file name without its extension. -/
def stem (p : Path) : Bytes :=
  let name := filename p
  if name = bytes "." ∨ name = bytes ".." then name
  else match name.reverse.dropWhile (· ≠ byte '.') with
    | [] | [_] => name
    | _ :: rest => rest.reverse

/-- Does the path start at the root? -/
def isAbsolute (p : Path) : Bool := p.head? = some (byte '/')

/-- `operator/`: an absolute path replaces the one on the left, any other is put
behind it, with a separator if there is a file name to separate it from. -/
def join (p q : Path) : Path :=
  if isAbsolute q then q
  else if filename p = [] then p ++ q
  else p ++ byte '/' :: q

/-- What precedes the last component, without the separators before it.  The root
is its own parent. -/
def parentPath (p : Path) : Path :=
  if p.all (· = byte '/') then p
  else
    let upToSeparator := p.reverse.dropWhile (· ≠ byte '/')
    match upToSeparator.dropWhile (· = byte '/') with
    | [] => upToSeparator.take 1
    | rest => rest.reverse

/-! ## The last component -/

theorem filename_append {q f : Bytes} (hq : filename q = []) (hf : byte '/' ∉ f) :
    filename (q ++ f) = f := by
  have hall : ∀ c ∈ f.reverse, decide (c ≠ byte '/') = true := by
    intro c hc
    simpa using fun h : c = byte '/' ↦ hf (h ▸ List.mem_reverse.mp hc)
  unfold filename at hq ⊢
  rw [List.reverse_eq_nil_iff] at hq
  rw [List.reverse_append, List.takeWhile_append_of_pos hall, hq, List.append_nil,
    List.reverse_reverse]

theorem filename_of_name {f : Bytes} (hf : byte '/' ∉ f) : filename f = f :=
  filename_append (q := []) rfl hf

@[simp] theorem filename_concat_separator (q : Path) : filename (q ++ [byte '/']) = [] := by
  simp [filename]

theorem isAbsolute_eq_false {f : Bytes} (hf : byte '/' ∉ f) : isAbsolute f = false := by
  cases f with
  | nil => rfl
  | cons c f => simpa [isAbsolute] using fun h : c = byte '/' ↦ hf (h ▸ List.mem_cons_self)

/-- A name put behind a path is the file name of the result. -/
theorem filename_join (p : Path) {f : Bytes} (hf : byte '/' ∉ f) : filename (join p f) = f := by
  unfold join
  rw [isAbsolute_eq_false hf, if_neg Bool.false_ne_true]
  split
  · rename_i hp
    exact filename_append hp hf
  · have hsep := filename_append (filename_concat_separator p) hf
    rwa [List.append_assoc, List.singleton_append] at hsep

theorem stem_congr {p q : Path} (h : filename p = filename q) : stem p = stem q := by
  unfold stem
  rw [h]

theorem extension_congr {p q : Path} (h : filename p = filename q) :
    extension p = extension q := by
  unfold extension
  rw [h]

/-! ## The directory of a path -/

theorem isAbsolute_append (q : Path) {e : Bytes} (he : byte '/' ∉ e) :
    isAbsolute (q ++ e) = isAbsolute q := by
  cases q with
  | nil => exact isAbsolute_eq_false he
  | cons c q => rfl

/-- What is appended to the last component is appended to the joined path. -/
theorem join_append (p q : Path) {e : Bytes} (he : byte '/' ∉ e) :
    join p (q ++ e) = join p q ++ e := by
  unfold join
  rw [isAbsolute_append q he]
  split
  · rfl
  · split <;> simp

theorem dropWhile_separator_append (q : Path) {e : Bytes} (he : byte '/' ∉ e) :
    (q ++ e).reverse.dropWhile (· ≠ byte '/') = q.reverse.dropWhile (· ≠ byte '/') := by
  rw [List.reverse_append, List.dropWhile_append_of_pos]
  intro c hc
  simpa using fun h : c = byte '/' ↦ he (h ▸ List.mem_reverse.mp hc)

/-- The directory of a path does not depend on its last component. -/
theorem parentPath_append_congr (q : Path) {e e' : Bytes} (he : byte '/' ∉ e) (he' : byte '/' ∉ e')
    (hne : e ≠ []) (hne' : e' ≠ []) : parentPath (q ++ e) = parentPath (q ++ e') := by
  have hall : ∀ {f : Bytes}, byte '/' ∉ f → f ≠ [] →
      ¬ (q ++ f).all (· = byte '/') = true := by
    intro f hf hfne h
    obtain ⟨c, hc⟩ := List.exists_mem_of_ne_nil f hfne
    have hcs : c = byte '/' := by simpa using List.all_eq_true.mp h c (by simp [hc])
    exact hf (hcs ▸ hc)
  unfold parentPath
  rw [if_neg (hall he hne), if_neg (hall he' hne'), dropWhile_separator_append q he,
    dropWhile_separator_append q he']

/-! ## The components of a path -/

/-- What precedes the last component, with the separators before it. -/
def dirPart (p : Path) : Path := (p.reverse.dropWhile (· ≠ byte '/')).reverse

/-- The components that lead somewhere: those that are neither empty nor a single
dot. -/
def names (p : Path) : List Bytes :=
  (p.splitOnP (· = byte '/')).filter fun c ↦ c ≠ [] && c ≠ bytes "."

theorem dirPart_append_filename (p : Path) : dirPart p ++ filename p = p := by
  rw [dirPart, filename, ← List.reverse_append, List.takeWhile_append_dropWhile,
    List.reverse_reverse]

theorem separator_notMem_filename (p : Path) : byte '/' ∉ filename p := by
  intro h
  simpa using List.mem_takeWhile_imp (List.mem_reverse.mp h)

theorem dirPart_append (q : Path) {e : Bytes} (he : byte '/' ∉ e) :
    dirPart (q ++ e) = dirPart q := by
  rw [dirPart, dropWhile_separator_append q he, dirPart]

theorem dirPart_separator (q r : Path) :
    dirPart (q ++ byte '/' :: r) = q ++ byte '/' :: dirPart r := by
  unfold dirPart
  rw [List.reverse_append, List.reverse_cons, List.append_assoc, List.dropWhile_append]
  split
  · rename_i hnil
    rw [List.isEmpty_iff.mp hnil]
    simp
  · simp

theorem filename_separator (q r : Path) : filename (q ++ byte '/' :: r) = filename r := by
  unfold filename
  rw [List.reverse_append, List.reverse_cons, List.append_assoc, List.takeWhile_append]
  split
  · rename_i hlen
    rw [(List.takeWhile_prefix _).eq_of_length hlen]
    simp
  · rfl

/-- The part before the last component is empty or ends with a separator. -/
theorem dirPart_eq (p : Path) : dirPart p = [] ∨ ∃ q, dirPart p = q ++ [byte '/'] := by
  unfold dirPart
  cases h : p.reverse.dropWhile (· ≠ byte '/') with
  | nil => exact .inl rfl
  | cons c r =>
      have hc := List.head_dropWhile_not (p := fun c : UInt8 ↦ decide (c ≠ byte '/'))
        (l := p.reverse) (by rw [h]; simp)
      simp only [h, List.head_cons] at hc
      refine .inr ⟨r.reverse, ?_⟩
      rw [List.reverse_cons, show c = byte '/' by simpa using hc]

theorem filename_eq_nil_iff {p : Path} :
    filename p = [] ↔ p = [] ∨ ∃ q, p = q ++ [byte '/'] := by
  constructor
  · intro h
    have hp := dirPart_append_filename p
    rw [h, List.append_nil] at hp
    rw [← hp]
    exact dirPart_eq p
  · rintro (rfl | ⟨q, rfl⟩)
    · rfl
    · exact filename_concat_separator q

theorem names_separator (q r : Path) : names (q ++ byte '/' :: r) = names q ++ names r := by
  rw [names, List.splitOnP_append_cons q r (by simp), List.filter_append]
  rfl

@[simp] theorem names_nil : names [] = [] := rfl

@[simp] theorem names_concat_separator (q : Path) : names (q ++ [byte '/']) = names q := by
  simpa using names_separator q []

/-- A path without separators has one component. -/
theorem names_of_name {f : Bytes} (hf : byte '/' ∉ f) :
    names f = if f = [] ∨ f = bytes "." then [] else [f] := by
  have hsplit : f.splitOnP (· = byte '/') = [f] := List.splitOnP_eq_singleton fun c hc ↦ by
    simpa using fun he : c = byte '/' ↦ hf (he ▸ hc)
  rw [names, hsplit]
  split_ifs with h
  · rcases h with rfl | rfl <;> rfl
  · rw [not_or] at h
    simp [h.1, h.2]

/-- The last component comes after the others. -/
theorem names_append (p : Path) {f : Bytes} (hp : filename p = []) :
    names (p ++ f) = names p ++ names f := by
  rcases filename_eq_nil_iff.mp hp with rfl | ⟨q, rfl⟩
  · rfl
  · rw [List.append_assoc, List.singleton_append, names_separator, names_concat_separator]

theorem filename_dirPart (p : Path) : filename (dirPart p) = [] :=
  filename_eq_nil_iff.mpr (dirPart_eq p)

theorem names_eq (p : Path) : names p = names (dirPart p) ++ names (filename p) := by
  rw [← names_append _ (filename_dirPart p), dirPart_append_filename]

theorem names_join (p : Path) {q : Path} (hq : isAbsolute q = false) :
    names (join p q) = names p ++ names q := by
  unfold join
  rw [hq, if_neg Bool.false_ne_true]
  split
  · rename_i hp
    exact names_append p hp
  · exact names_separator p q

theorem filename_join_eq (p q : Path) : filename (join p q) = filename q := by
  unfold join
  split_ifs with _ hp
  · rfl
  · rcases filename_eq_nil_iff.mp hp with rfl | ⟨r, rfl⟩
    · rfl
    · rw [List.append_assoc, List.singleton_append, filename_separator]
  · exact filename_separator p q

theorem isAbsolute_join {p q : Path} (hp : p ≠ []) (hq : isAbsolute q = false) :
    isAbsolute (join p q) = isAbsolute p := by
  unfold join
  rw [hq, if_neg Bool.false_ne_true]
  cases p with
  | nil => exact absurd rfl hp
  | cons c p => split <;> rfl

theorem mem_join {p q : Path} {c : UInt8} (h : c ∈ join p q) : c ∈ p ∨ c = byte '/' ∨ c ∈ q := by
  unfold join at h
  split_ifs at h
  · exact .inr (.inr h)
  · exact (List.mem_append.mp h).imp_right .inr
  · simpa using h

/-- Nothing put behind a path that is cut off is seen. -/
theorem cString_join {p q : Path} (hp : 0 ∈ p) (hq : isAbsolute q = false) :
    cString (join p q) = cString p := by
  unfold join
  rw [hq, if_neg Bool.false_ne_true]
  split <;> exact cString_append_of_mem hp _

theorem isAbsolute_cString (p : Path) : isAbsolute (cString p) = isAbsolute p := by
  cases p with
  | nil => rfl
  | cons c p =>
      by_cases hc : c = 0
      · subst hc
        rfl
      · simp [isAbsolute, cString, hc]

theorem cString_join_of_notMem {p : Path} (hp : 0 ∉ p) (q : Path) :
    cString (join p q) = join p (cString q) := by
  unfold join
  rw [isAbsolute_cString]
  split_ifs
  · rfl
  · exact cString_append_of_notMem hp q
  · rw [cString_append_of_notMem hp]
    rfl

theorem isAbsolute_dirPart (p : Path) : isAbsolute (dirPart p) = isAbsolute p := by
  have hp := isAbsolute_append (dirPart p) (separator_notMem_filename p)
  rw [dirPart_append_filename] at hp
  exact hp.symm

theorem dirPart_join (p q : Path) : dirPart (join p q) = join p (dirPart q) := by
  unfold join
  rw [isAbsolute_dirPart]
  split
  · rfl
  · split
    · rename_i hp
      rcases filename_eq_nil_iff.mp hp with rfl | ⟨r, rfl⟩
      · rfl
      · rw [List.append_assoc, List.append_assoc, List.singleton_append, List.singleton_append,
          dirPart_separator]
    · exact dirPart_separator p q

/-- The directory of a path is the part before its last component, without
separators at the end, but for the one that stands for the root. -/
theorem exists_dirPart_eq (p : Path) :
    ∃ seps : Bytes, (∀ c ∈ seps, c = byte '/') ∧ dirPart p = parentPath p ++ seps ∧
      (parentPath p = [] → dirPart p = []) := by
  unfold parentPath
  split_ifs with hall
  · refine ⟨[], by simp, ?_, ?_⟩
    · rw [List.append_nil]
      cases p using List.reverseRecOn with
      | nil => rfl
      | append_singleton q c =>
          have hc : c = byte '/' := by simpa using List.all_eq_true.mp hall c (by simp)
          rw [hc, dirPart_separator]
          rfl
    · rintro rfl
      rfl
  · unfold dirPart
    generalize p.reverse.dropWhile (· ≠ byte '/') = r
    dsimp only
    split
    · rename_i hnil
      have hseps : ∀ c ∈ r, c = byte '/' := by simpa using List.dropWhile_eq_nil_iff.mp hnil
      cases r with
      | nil => exact ⟨[], by simp, rfl, fun _ ↦ rfl⟩
      | cons c r =>
          rw [List.forall_mem_cons] at hseps
          obtain ⟨rfl, hr⟩ := hseps
          refine ⟨r, hr, ?_, nofun⟩
          rw [List.eq_replicate_of_mem hr]
          simp [← List.replicate_succ', List.replicate_succ]
    · rename_i hrest
      refine ⟨(r.takeWhile (· = byte '/')).reverse, ?_, ?_, fun hnil ↦ ?_⟩
      · intro c hc
        simpa using List.mem_takeWhile_imp (List.mem_reverse.mp hc)
      · rw [← List.reverse_append, List.takeWhile_append_dropWhile]
      · exact absurd (List.reverse_eq_nil_iff.mp hnil) hrest

theorem names_parentPath (p : Path) : names (parentPath p) = names (dirPart p) := by
  obtain ⟨seps, hseps, heq, -⟩ := exists_dirPart_eq p
  have hdrop : ∀ q : Path, names (q ++ seps) = names q := by
    rw [List.eq_replicate_of_mem hseps]
    generalize seps.length = n
    induction n with
    | zero => simp
    | succ n ih =>
        intro q
        rw [List.replicate_succ', ← List.append_assoc, names_concat_separator, ih]
  rw [heq, hdrop]

theorem isAbsolute_parentPath (p : Path) : isAbsolute (parentPath p) = isAbsolute p := by
  obtain ⟨seps, -, heq, hnil⟩ := exists_dirPart_eq p
  rw [← isAbsolute_dirPart p, heq]
  cases hparent : parentPath p with
  | cons c q => rfl
  | nil =>
      rw [heq, hparent, List.nil_append] at hnil
      rw [List.nil_append, hnil rfl]

/-- If a path is cut off before its last component, so is its directory, at the
same place. -/
theorem cString_parentPath {p : Path} (h : 0 ∈ dirPart p) : cString (parentPath p) = cString p := by
  obtain ⟨seps, hseps, heq, -⟩ := exists_dirPart_eq p
  have hmem : 0 ∈ parentPath p := by
    rw [heq] at h
    refine (List.mem_append.mp h).resolve_right fun h0 ↦ ?_
    exact absurd (hseps 0 h0) (by decide)
  have hp := dirPart_append_filename p
  rw [heq, List.append_assoc] at hp
  conv_rhs => rw [← hp]
  exact (cString_append_of_mem hmem _).symm

theorem nul_notMem_parentPath {p : Path} (h : 0 ∉ dirPart p) : 0 ∉ parentPath p := by
  obtain ⟨seps, -, heq, -⟩ := exists_dirPart_eq p
  rw [heq, List.mem_append, not_or] at h
  exact h.1

/-- A path that leads nowhere is made of dots and separators. -/
theorem nul_notMem_of_names {p : Path} (h : names p = []) : 0 ∉ p := by
  intro h0
  have hpieces : terminate (byte '/') (p.splitOnP (· = byte '/')) = p ++ [byte '/'] := by
    rw [terminate_splitOnP]
    congr 1
    exact List.map_id'' (fun c ↦ by simp [eq_comm]) p
  have hmem : 0 ∈ terminate (byte '/') (p.splitOnP (· = byte '/')) := by simp [hpieces, h0]
  obtain ⟨c, hc, h0c⟩ := List.mem_flatMap.mp hmem
  have hdots : c = [] ∨ c = bytes "." := by
    have hfilter := List.filter_eq_nil_iff.mp h c hc
    simpa [or_iff_not_imp_left] using hfilter
  rcases hdots with rfl | rfl <;> exact absurd h0c (by decide)

/-! ## Stem and extension -/

section LastDot

variable {a b : Bytes} (hb : byte '.' ∉ b)

include hb

theorem ne_dot_of_mem_reverse : ∀ c ∈ b.reverse, decide (c ≠ byte '.') = true := by
  intro c hc
  simpa using fun h : c = byte '.' ↦ hb (h ▸ List.mem_reverse.mp hc)

theorem dropWhile_lastDot :
    (a ++ byte '.' :: b).reverse.dropWhile (· ≠ byte '.') = byte '.' :: a.reverse := by
  rw [List.reverse_append, List.reverse_cons, List.append_assoc,
    List.dropWhile_append_of_pos (ne_dot_of_mem_reverse hb), List.singleton_append,
    List.dropWhile_cons_of_neg (by simp)]

theorem takeWhile_lastDot :
    (a ++ byte '.' :: b).reverse.takeWhile (· ≠ byte '.') = b.reverse := by
  rw [List.reverse_append, List.reverse_cons, List.append_assoc,
    List.takeWhile_append_of_pos (ne_dot_of_mem_reverse hb), List.singleton_append,
    List.takeWhile_cons_of_neg (by simp), List.append_nil]

/-- The last dot of a file name divides it into stem and extension, unless the
name starts with it. -/
theorem stem_extension_of_lastDot {p : Path} (hp : filename p = a ++ byte '.' :: b)
    (hdots : ¬ (filename p = bytes "." ∨ filename p = bytes "..")) :
    (a = [] → stem p = filename p ∧ extension p = []) ∧
      (a ≠ [] → stem p = a ∧ extension p = byte '.' :: b) := by
  unfold stem extension
  dsimp only
  rw [if_neg hdots, if_neg hdots, hp, dropWhile_lastDot hb, takeWhile_lastDot hb]
  constructor
  · rintro rfl
    exact ⟨rfl, rfl⟩
  · intro ha
    cases hrev : a.reverse with
    | nil => exact absurd (List.reverse_eq_nil_iff.mp hrev) ha
    | cons c l =>
        refine ⟨?_, by rw [List.reverse_reverse]⟩
        dsimp only
        rw [← hrev, List.reverse_reverse]

end LastDot

/-- A file name with an extension consists of its stem, which is not empty, and
the extension. -/
theorem filename_eq_of_extension {p : Path} (h : extension p ≠ []) :
    filename p = stem p ++ extension p ∧ stem p ≠ [] := by
  by_cases hdots : filename p = bytes "." ∨ filename p = bytes ".."
  · exact absurd (by simp [extension, hdots]) h
  by_cases hmem : byte '.' ∈ (filename p).reverse
  · obtain ⟨b, a, hrev, hb⟩ := List.eq_append_cons_of_mem hmem
    have hp : filename p = a.reverse ++ byte '.' :: b.reverse := by
      rw [← List.reverse_reverse (filename p), hrev]
      simp
    have hcases := stem_extension_of_lastDot (by simpa using hb) hp hdots
    by_cases ha : a.reverse = []
    · exact absurd (hcases.1 ha).2 h
    · obtain ⟨hstem, hext⟩ := hcases.2 ha
      rw [hstem, hext]
      exact ⟨hp, ha⟩
  · -- there is no dot at all
    have hnone : (filename p).reverse.dropWhile (· ≠ byte '.') = [] := by
      rw [List.dropWhile_eq_nil_iff]
      intro c hc
      simpa using fun he : c = byte '.' ↦ hmem (he ▸ hc)
    exact absurd (by simp only [extension, hnone, hdots, if_false]) h

/-- A name followed by a dot and a part without dots has the latter as its
extension. -/
theorem stem_extension_append {p : Path} {name e : Bytes} (hp : filename p = name ++ byte '.' :: e)
    (hname : name ≠ []) (he : e ≠ []) (hdot : byte '.' ∉ e) :
    stem p = name ∧ extension p = byte '.' :: e := by
  refine (stem_extension_of_lastDot hdot hp ?_).2 hname
  -- neither `.` nor `..` ends with another character than a dot
  rintro (h | h) <;>
  · have hlast := congrArg List.getLast? (hp.symm.trans h)
    rw [List.getLast?_append_of_ne_nil _ (by simp), List.getLast?_cons_of_ne_nil he] at hlast
    exact hdot (List.mem_of_getLast? hlast)

end Path

end Seraphbot
