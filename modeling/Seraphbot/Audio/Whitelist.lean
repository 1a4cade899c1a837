import Seraphbot.Audio.Hierarchy
import Seraphbot.Data.Words

/-!
# The whitelist of directories

The model of `DirectoryWhitelist` in `core/audio_system.cpp`.  A directory is
added as the string of its canonical path, closed by one separator, and a path is
allowed when its own string starts with one of these.

`isPathAllowed_iff_components` says what this string comparison amounts to: it
compares the components of the two paths, so a directory next to a whitelisted
one is not let in by the first letters of its name.  A backslash is a separator
here, since `normalizePath` makes it one.
-/

namespace Seraphbot

/-- `sbot::core::DirectoryWhitelist`. -/
structure DirectoryWhitelist where
  whitelistedPaths : List Bytes := []

namespace DirectoryWhitelist

/-! ## The operations -/

/-- The string of a path, with `/` for every backslash and a `/` at the end. -/
def normalizePath (path : Path) : Bytes :=
  let result := path.map fun c ↦ if c = byte '\\' then byte '/' else c
  if result ≠ [] ∧ result.getLast? ≠ some (byte '/') then result ++ [byte '/'] else result

variable (disk : Storage)

/-- Add a directory, unless it has no canonical path. -/
def addWhitelistedDirectory (w : DirectoryWhitelist) (directory : Path) : DirectoryWhitelist :=
  match disk.weaklyCanonical directory with
  | none => w
  | some canonical =>
      { w with whitelistedPaths := w.whitelistedPaths.insert (normalizePath canonical) }

/-- The whitelist after the calls of `addWhitelistedDirectory` for `directories`. -/
def addAll (directories : List Path) : DirectoryWhitelist :=
  directories.foldl (addWhitelistedDirectory disk) {}

/-- The whitelist as it is constructed. -/
def new : DirectoryWhitelist :=
  addAll disk [bytes "./sounds", bytes "./audio", bytes "./sfx"]

/-- Does the path lie in a whitelisted directory? -/
def isPathAllowed (w : DirectoryWhitelist) (path : Path) : Bool :=
  match disk.weaklyCanonical path with
  | none => false
  | some canonical =>
      w.whitelistedPaths.any fun whitelisted ↦ whitelisted.isPrefixOf (normalizePath canonical)

/-! ## Components -/

/-- What separates the components of a path: `/`, and the backslash. -/
def isSeparator (c : UInt8) : Bool := c = byte '/' || c = byte '\\'

/-- The components of a path.  A separator at the end is ignored, and two
separators in a row have an empty component between them. -/
def components (path : Path) : List Bytes := words isSeparator path

variable {disk}

/-- A normalised path is its components, each with a separator behind it. -/
theorem normalizePath_eq (path : Path) :
    normalizePath path = terminate (byte '/') (components path) := by
  have hmap : (fun c : UInt8 ↦ if isSeparator c then byte '/' else c) =
      fun c ↦ if c = byte '\\' then byte '/' else c := by
    funext c
    by_cases hc : c = byte '/' <;> simp [isSeparator, hc]
  rw [components, terminate_words (by simp [isSeparator]), hmap]
  rfl

/-- Comparing normalised paths is comparing lists of components. -/
theorem isPrefixOf_normalizePath (d p : Path) :
    (normalizePath d).isPrefixOf (normalizePath p) = true ↔ components d <+: components p := by
  have hfree : ∀ q : Path, ∀ w ∈ components q, byte '/' ∉ w := by
    intro q w hw hmem
    have := eq_false_of_mem_words hw _ hmem
    simp [isSeparator] at this
  rw [List.isPrefixOf_iff_prefix, normalizePath_eq, normalizePath_eq,
    terminate_prefix_iff (hfree d) (hfree p)]

/-- What is whitelisted after a sequence of calls. -/
theorem mem_addAll {directories : List Path} {s : Bytes} :
    s ∈ (addAll disk directories).whitelistedPaths ↔
      ∃ d ∈ directories, ∃ canonical, disk.weaklyCanonical d = some canonical ∧
        s = normalizePath canonical := by
  induction directories using List.reverseRecOn with
  | nil => simp [addAll]
  | append_singleton directories d ih =>
      unfold addAll at ih ⊢
      rw [List.foldl_append, List.foldl_cons, List.foldl_nil, addWhitelistedDirectory]
      cases hd : disk.weaklyCanonical d with
      | none => simp [ih, hd, or_and_right, exists_or]
      | some canonical => simp [ih, hd, or_and_right, exists_or, or_comm]

/-- A path is allowed exactly if its components start with those of a directory
that was added. -/
theorem isPathAllowed_addAll {directories : List Path} {p canonical : Path}
    (hp : disk.weaklyCanonical p = some canonical) :
    isPathAllowed disk (addAll disk directories) p = true ↔
      ∃ d ∈ directories, ∃ cd, disk.weaklyCanonical d = some cd ∧
        components cd <+: components canonical := by
  unfold isPathAllowed
  rw [hp]
  dsimp only
  rw [List.any_eq_true]
  constructor
  · rintro ⟨s, hs, hpre⟩
    obtain ⟨d, hd, cd, hcd, rfl⟩ := mem_addAll.mp hs
    exact ⟨d, hd, cd, hcd, (isPrefixOf_normalizePath cd canonical).mp hpre⟩
  · rintro ⟨d, hd, cd, hcd, hpre⟩
    exact ⟨_, mem_addAll.mpr ⟨d, hd, cd, hcd, rfl⟩,
      (isPrefixOf_normalizePath cd canonical).mpr hpre⟩

/-! ## Paths next to each other -/

/-- The path ends with a component, not with a separator. -/
def EndsInName (p : Path) : Prop := ∃ c, p.getLast? = some c ∧ isSeparator c = false

theorem normalizePath_of_endsInName {p : Path} (hp : EndsInName p) :
    normalizePath p = (p.map fun c ↦ if c = byte '\\' then byte '/' else c) ++ [byte '/'] := by
  obtain ⟨c, hlast, hc⟩ := hp
  have hne : p ≠ [] := by
    rintro rfl
    cases hlast
  have hc' : c ≠ byte '/' ∧ c ≠ byte '\\' := by simpa [isSeparator] using hc
  simp [normalizePath, hne, List.getLast?_map, hlast, hc'.1, hc'.2]

/-- A separator behind the last component changes nothing. -/
theorem components_concat {p : Path} (hp : EndsInName p) {s : UInt8}
    (hs : isSeparator s = true) : components (p ++ [s]) = components p := by
  have hs' : s = byte '/' ∨ s = byte '\\' := by simpa [isSeparator] using hs
  have hnorm : normalizePath (p ++ [s]) = normalizePath p := by
    rw [normalizePath_of_endsInName hp]
    rcases hs' with rfl | rfl <;> simp [normalizePath]
  have hle := (isPrefixOf_normalizePath (p ++ [s]) p).mp (by rw [hnorm]; simp)
  have hge := (isPrefixOf_normalizePath p (p ++ [s])).mp (by rw [hnorm]; simp)
  exact hle.eq_of_length_le hge.length_le

/-- A longer last component is another component. -/
theorem not_prefix_of_longer_name {p : Path} (hp : EndsInName p) {c : UInt8}
    (hc : isSeparator c = false) (rest : Bytes) :
    ¬ components p <+: components (p ++ c :: rest) := by
  have hc' : c ≠ byte '/' ∧ c ≠ byte '\\' := by simpa [isSeparator] using hc
  rw [← isPrefixOf_normalizePath, List.isPrefixOf_iff_prefix, normalizePath_of_endsInName hp]
  intro hpre
  have hstart : ∃ tail, normalizePath (p ++ c :: rest) =
      (p.map fun c ↦ if c = byte '\\' then byte '/' else c) ++ c :: tail := by
    unfold normalizePath
    dsimp only
    rw [List.map_append, List.map_cons, if_neg hc'.2]
    split
    · exact ⟨_, List.append_assoc _ _ _⟩
    · exact ⟨_, rfl⟩
  obtain ⟨tail, htail⟩ := hstart
  rw [htail, List.prefix_append_right_inj, List.cons_prefix_cons] at hpre
  exact hc'.1 hpre.1.symm

theorem root_prefix_components {p : Path} (hp : Path.isAbsolute p = true) :
    components [byte '/'] <+: components p := by
  rw [← isPrefixOf_normalizePath, List.isPrefixOf_iff_prefix]
  cases p with
  | nil => cases hp
  | cons c p =>
      have hc : c = byte '/' := by simpa [Path.isAbsolute] using hp
      have hstart : ∃ tail, normalizePath (c :: p) = byte '/' :: tail := by
        unfold normalizePath
        dsimp only
        rw [List.map_cons, hc, ite_self]
        split <;> exact ⟨_, rfl⟩
      obtain ⟨tail, htail⟩ := hstart
      rw [htail]
      exact ⟨tail, rfl⟩

/-- **The whitelist compares components.**  After any sequence of calls of
`addWhitelistedDirectory`, a path is allowed if and only if the components of its
canonical path start with those of a directory that was added.  In particular:

* a whitelisted directory itself is allowed, with or without a separator at the
  end;
* a path whose string continues the name of the one whitelisted directory is
  refused;
* the root directory allows everything. -/
theorem isPathAllowed_iff_components (disk : Storage) (directories : List Path)
    {p canonical : Path} (hp : disk.weaklyCanonical p = some canonical) :
    (isPathAllowed disk (addAll disk directories) p = true ↔
      ∃ d ∈ directories, ∃ cd, disk.weaklyCanonical d = some cd ∧
        components cd <+: components canonical) ∧
    (∀ d ∈ directories, ∀ cd, disk.weaklyCanonical d = some cd →
      (canonical = cd ∨
        (EndsInName cd ∧ ∃ s, isSeparator s = true ∧ canonical = cd ++ [s]) ∨
        (EndsInName canonical ∧ ∃ s, isSeparator s = true ∧ cd = canonical ++ [s])) →
      isPathAllowed disk (addAll disk directories) p = true) ∧
    (∀ d cd c rest, disk.weaklyCanonical d = some cd → EndsInName cd →
      isSeparator c = false → canonical = cd ++ c :: rest →
      isPathAllowed disk (addAll disk [d]) p = false) ∧
    ∀ d ∈ directories, disk.weaklyCanonical d = some [byte '/'] →
      isPathAllowed disk (addAll disk directories) p = true := by
  refine ⟨isPathAllowed_addAll hp, ?_, ?_, ?_⟩
  · intro d hd cd hcd hsame
    refine (isPathAllowed_addAll hp).mpr ⟨d, hd, cd, hcd, ?_⟩
    rcases hsame with rfl | ⟨hend, s, hs, rfl⟩ | ⟨hend, s, hs, rfl⟩
    · exact List.prefix_rfl
    · exact (components_concat hend hs).symm ▸ List.prefix_rfl
    · exact (components_concat hend hs).symm ▸ List.prefix_rfl
  · rintro d cd c rest hcd hend hc rfl
    rw [← Bool.not_eq_true, isPathAllowed_addAll hp]
    rintro ⟨d', hd', cd', hcd', hpre⟩
    obtain rfl := List.mem_singleton.mp hd'
    obtain rfl : cd = cd' := Option.some.inj (hcd.symm.trans hcd')
    exact not_prefix_of_longer_name hend hc rest hpre
  · intro d hd hroot
    exact (isPathAllowed_addAll hp).mpr
      ⟨d, hd, _, hroot, root_prefix_components (disk.absolute hp)⟩

/-- A bot that runs in `/bot`, next to a directory whose name goes on where
`sounds` ends. -/
def siblings : Storage :=
  tree [bytes "bot"]
    [[], [bytes "bot"], [bytes "bot", bytes "sounds"], [bytes "bot", bytes "sounds-private"]] []

/-- `sounds-private` is not reachable through `sounds`. -/
theorem isPathAllowed_siblings :
    isPathAllowed siblings (addAll siblings [bytes "./sounds"]) (bytes "sounds-private") = false :=
  have hp : siblings.weaklyCanonical (bytes "sounds-private") =
      some (bytes "/bot/sounds-private") := by decide
  (isPathAllowed_iff_components siblings [bytes "./sounds"] hp).2.2.1 (bytes "./sounds")
    (bytes "/bot/sounds") (byte '-') (bytes "private") (by decide) ⟨byte 's', by decide⟩
    (by decide) (by decide)

end DirectoryWhitelist

end Seraphbot
