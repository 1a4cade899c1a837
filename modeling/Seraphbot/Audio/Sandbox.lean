import Seraphbot.Audio.Lookup
import Seraphbot.Audio.Maze

/-!
# Where sounds are looked for

`findAudioFile` checks the directory it is given and then follows whatever path
the name makes of it.  `staysInside_iff` says when the file that is found lies where
`playSound` would accept it, in two ways:

* for one file system, one directory and one name, whatever is whitelisted: the name has
  to lead to the directory itself or below it;
* for one name, whatever the file system, the whitelist and the directory are: the name
  has to be local, that is a file name with at most dots and separators before it.

A name that is not local leads away in some file system, a maze that knows all its
components (`mazeFor`).
-/

namespace Seraphbot.AudioSystem

/-- A file that is found for the name lies in a whitelisted directory, so that
`playSound` does not refuse it as not whitelisted. -/
def StaysInside (disk : Storage) (a : AudioSystem) (directory : Path) (name : Bytes) : Prop :=
  ∀ p, a.findAudioFile disk name directory = some p → p ≠ [] →
    a.isPathAllowed disk (Path.parentPath p) = true ∧
    ∀ volume, a.playSound disk p volume ≠ .notWhitelisted

/-- The directory in which the files for a name are looked for.  The extension
does not matter. -/
def searched (directory : Path) (name : Bytes) : Path :=
  Path.parentPath (Path.join directory (name ++ bytes ".mp3"))

theorem parentPath_candidate (directory : Path) (name : Bytes) {ext : Bytes}
    (hext : ext ∈ getSupportedExtensions) :
    Path.parentPath (Path.join directory (name ++ ext)) = searched directory name := by
  have hmp3 : bytes ".mp3" ∈ getSupportedExtensions := by decide
  obtain ⟨hdot, -, -, hsep, -⟩ := supported_spec ext hext
  obtain ⟨hdot', -, -, hsep', -⟩ := supported_spec _ hmp3
  rw [searched, Path.join_append _ _ hsep, Path.join_append _ _ hsep']
  apply Path.parentPath_append_congr _ hsep hsep'
  · rw [hdot]
    simp
  · rw [hdot']
    simp

/-! ## One file system -/

section

variable {disk : Storage} {a : AudioSystem} {directory : Path} {name : Bytes}

theorem playSound_ne_notWhitelisted {p : Path}
    (h : a.isPathAllowed disk (Path.parentPath p) = true) (volume : Int) :
    a.playSound disk p volume ≠ .notWhitelisted := by
  unfold playSound
  rw [h, Bool.not_true, if_neg Bool.false_ne_true]
  split
  · simp
  · simp
  · split_ifs <;> simp

/-- A search stays inside when the directory it leads to is whitelisted. -/
theorem staysInside_of_searched
    (h : a.isPathAllowed disk directory = true → CanFind disk directory name →
      a.isPathAllowed disk (searched directory name) = true) :
    StaysInside disk a directory name := by
  intro p hfind hp
  obtain ⟨hallowed, hcan, ext, hext, rfl, -⟩ := canFind_of_findAudioFile hfind hp
  have hin := h hallowed hcan
  rw [← parentPath_candidate directory name hext] at hin
  exact ⟨hin, playSound_ne_notWhitelisted hin⟩

theorem isPathAllowed_searched (h : StaysInside disk a directory name)
    (hallowed : a.isPathAllowed disk directory = true) (hcan : CanFind disk directory name) :
    a.isPathAllowed disk (searched directory name) = true := by
  obtain ⟨p, hfind, hp⟩ := exists_findAudioFile_iff.mpr ⟨hallowed, hcan⟩
  have hin := (h p hfind hp).1
  obtain ⟨-, -, ext, hext, rfl, -⟩ := canFind_of_findAudioFile hfind hp
  rwa [parentPath_candidate directory name hext] at hin

open DirectoryWhitelist

variable (disk directory name) in
/-- The name leads to the directory itself or to one below it, links included. -/
def LeadsBelow : Prop :=
  ∀ cd, disk.weaklyCanonical directory = some cd →
    ∃ cs, disk.weaklyCanonical (searched directory name) = some cs ∧
      components cd <+: components cs

/-- What is allowed in a directory is allowed below it. -/
theorem isPathAllowed_of_prefix {w : DirectoryWhitelist} {p q cp cq : Path}
    (hp : disk.weaklyCanonical p = some cp) (hq : disk.weaklyCanonical q = some cq)
    (hpre : components cp <+: components cq) (h : w.isPathAllowed disk p = true) :
    w.isPathAllowed disk q = true := by
  unfold DirectoryWhitelist.isPathAllowed at h ⊢
  rw [hp] at h
  rw [hq]
  dsimp only at h ⊢
  obtain ⟨s, hs, hpre'⟩ := List.any_eq_true.mp h
  refine List.any_eq_true.mpr ⟨s, hs, ?_⟩
  rw [← isPrefixOf_normalizePath, List.isPrefixOf_iff_prefix] at hpre
  rw [List.isPrefixOf_iff_prefix] at hpre' ⊢
  exact hpre'.trans hpre

theorem exists_weaklyCanonical_of_isPathAllowed {w : DirectoryWhitelist} {p : Path}
    (h : w.isPathAllowed disk p = true) : ∃ cp, disk.weaklyCanonical p = some cp := by
  unfold DirectoryWhitelist.isPathAllowed at h
  split at h
  · cases h
  · rename_i cp hcp
    exact ⟨cp, hcp⟩

/-- Whatever is whitelisted, a search stays inside exactly if it finds nothing or the
name leads below the directory. -/
theorem forall_staysInside_iff :
    (∀ a, StaysInside disk a directory name) ↔
      (CanFind disk directory name → LeadsBelow disk directory name) := by
  constructor
  · intro h hcan cd hcd
    -- whitelist nothing but the directory
    have hallowed : (addAll disk [directory]).isPathAllowed disk directory = true :=
      (isPathAllowed_addAll hcd).mpr ⟨directory, by simp, cd, hcd, List.prefix_rfl⟩
    have hin := isPathAllowed_searched (h ⟨addAll disk [directory], ⟨true, fun _ _ ↦ true⟩⟩)
      hallowed hcan
    obtain ⟨cs, hcs⟩ := exists_weaklyCanonical_of_isPathAllowed hin
    obtain ⟨d, hd, cd', hcd', hpre⟩ := (isPathAllowed_addAll hcs).mp hin
    obtain rfl := List.mem_singleton.mp hd
    obtain rfl : cd = cd' := Option.some.inj (hcd.symm.trans hcd')
    exact ⟨cs, hcs, hpre⟩
  · intro h a
    apply staysInside_of_searched
    intro hallowed hcan
    obtain ⟨cd, hcd⟩ := exists_weaklyCanonical_of_isPathAllowed hallowed
    obtain ⟨cs, hcs, hpre⟩ := h hcan cd hcd
    exact isPathAllowed_of_prefix hcd hcs hpre hallowed

end

/-! ## Names that stay inside -/

/-- Before the last component of the name there are at most dots and separators, and it
does not start with one. -/
def IsLocal (name : Bytes) : Prop :=
  Path.isAbsolute name = false ∧ Path.names (Path.dirPart name) = []

instance (name : Bytes) : Decidable (IsLocal name) := inferInstanceAs (Decidable (_ ∧ _))

/-- The name is cut off by a null character where no file name can end: behind a
separator, or behind one dot or two. -/
def NamesNoFile (name : Bytes) : Prop :=
  0 ∈ name ∧ Path.filename (cString name) ∈ [[], bytes ".", bytes ".."]

instance (name : Bytes) : Decidable (NamesNoFile name) := inferInstanceAs (Decidable (_ ∧ _))

section

variable {h : Hierarchy} {directory : Path} {name ext : Bytes}

/-- Canonical paths are made of C strings. -/
theorem weaklyCanonical_congr {p q : Path} (hpq : cString p = cString q) :
    h.view.weaklyCanonical p = h.view.weaklyCanonical q := by
  change Option.map _ _ = Option.map _ _
  rw [hpq]

/-- Behind a null character in the directory, nothing is seen of the name. -/
theorem weaklyCanonical_searched_of_nul (hdir : 0 ∈ directory)
    (hrel : Path.isAbsolute name = false) :
    h.view.weaklyCanonical (searched directory name) = h.view.weaklyCanonical directory := by
  have hrel' : Path.isAbsolute (name ++ bytes ".mp3") = false := by
    rw [Path.isAbsolute_append name (by decide), hrel]
  apply weaklyCanonical_congr
  rw [searched, Path.cString_parentPath, Path.cString_join hdir hrel']
  rw [Path.dirPart_join]
  unfold Path.join
  split_ifs <;> simp_all [Path.isAbsolute_dirPart]

theorem dirPart_ext (name : Bytes) : Path.dirPart (name ++ bytes ".mp3") = Path.dirPart name :=
  Path.dirPart_append name (by decide)

/-- A local name leads nowhere. -/
theorem weaklyCanonical_searched_of_isLocal (hd : directory ≠ []) (hlocal : IsLocal name) :
    h.view.weaklyCanonical (searched directory name) = h.view.weaklyCanonical directory := by
  obtain ⟨hrel, hnames⟩ := hlocal
  by_cases hnul : 0 ∈ directory
  · exact weaklyCanonical_searched_of_nul hnul hrel
  have hpart : Path.dirPart (Path.join directory (name ++ bytes ".mp3")) =
      Path.join directory (Path.dirPart name) := by
    rw [Path.dirPart_join, dirPart_ext]
  have hfree : 0 ∉ Path.dirPart (Path.join directory (name ++ bytes ".mp3")) := by
    rw [hpart]
    intro h0
    rcases Path.mem_join h0 with h0 | h0 | h0
    · exact hnul h0
    · exact absurd h0 (by decide)
    · exact Path.nul_notMem_of_names hnames h0
  change Option.map _ _ = Option.map _ _
  rw [searched, cString_eq_self_iff.mpr (Path.nul_notMem_parentPath hfree),
    cString_eq_self_iff.mpr hnul, Path.names_parentPath, hpart,
    Path.names_join _ (by rwa [Path.isAbsolute_dirPart]), hnames, List.append_nil]
  unfold Hierarchy.origin
  rw [Path.isAbsolute_parentPath, Path.isAbsolute_join hd
    (by rw [Path.isAbsolute_append name (by decide), hrel])]

/-- A path that ends with a separator, a dot or two does not lead to a file. -/
theorem status_ne_regular_of_dots {p : Path}
    (hp : Path.filename (cString p) ∈ [[], bytes ".", bytes ".."]) :
    h.view.status p ≠ some .regular := by
  have hdir : ∀ n, h.resolve p = .node n → h.type n = .directory := by
    intro n hn
    unfold Hierarchy.resolve at hn
    dsimp only at hn
    split_ifs at hn
    split at hn
    · rename_i m hm
      split_ifs at hn with hfile
      cases hn
      by_contra hno
      -- only two dots are left, and they lead from a directory to its parent
      have hdots : Path.filename (cString p) = bytes ".." := by
        simp only [List.mem_cons, List.not_mem_nil, or_false] at hp
        rcases hp with hp | hp | hp
        · exact absurd ⟨.inl hp, hno⟩ hfile
        · exact absurd ⟨.inr hp, hno⟩ hfile
        · exact hp
      rw [Path.names_eq, hdots, Path.names_of_name (f := bytes "..") (by decide),
        if_neg (by decide)] at hm
      exact hno (Hierarchy.type_of_walk_dots hm)
    · rename_i hnone
      exact absurd hn (hnone n)
  intro hreg
  change h.statusOf (h.resolve p) = some .regular at hreg
  cases hres : h.resolve p with
  | node n =>
      rw [hres, Hierarchy.statusOf, hdir n hres] at hreg
      cases hreg
  | fails | missing =>
      rw [hres] at hreg
      cases hreg

/-- A name that is cut off where no file name can end finds a file only behind a
directory that is cut off itself. -/
theorem nul_mem_of_namesNoFile (hname : NamesNoFile name)
    (hcan : CanFind h.view directory name) :
    0 ∈ directory ∧ Path.isAbsolute name = false := by
  obtain ⟨ext, hext, hreg⟩ := hcan.regular
  have hcut : cString (name ++ ext) = cString name := cString_append_of_mem hname.1 ext
  by_contra hno
  refine status_ne_regular_of_dots ?_ hreg
  by_cases hnul : 0 ∈ directory
  · -- an absolute name replaces the directory
    have habs : Path.isAbsolute (name ++ ext) = true := by
      rw [Path.isAbsolute_append name (supported_spec ext hext).2.2.2.1]
      simpa using fun hrel ↦ hno ⟨hnul, hrel⟩
    rw [Path.join, if_pos habs, hcut]
    exact hname.2
  · rw [Path.cString_join_of_notMem hnul, Path.filename_join_eq, hcut]
    exact hname.2

/-- A name that is local or cut off stays inside, in every file system. -/
theorem staysInside_of_isLocal (hname : IsLocal name ∨ NamesNoFile name) (a : AudioSystem) :
    StaysInside h.view a directory name := by
  apply staysInside_of_searched
  intro hallowed hcan
  have hd : directory ≠ [] := by
    rintro rfl
    have hthere := hcan.isThere
    cases hthere
  have hsame : h.view.weaklyCanonical (searched directory name) =
      h.view.weaklyCanonical directory := by
    rcases hname with hlocal | hcut
    · exact weaklyCanonical_searched_of_isLocal hd hlocal
    · obtain ⟨hnul, hrel⟩ := nul_mem_of_namesNoFile hcut hcan
      exact weaklyCanonical_searched_of_nul hnul hrel
  change DirectoryWhitelist.isPathAllowed _ _ _ = true at hallowed ⊢
  unfold DirectoryWhitelist.isPathAllowed at hallowed ⊢
  rwa [hsame]

end

/-! ## Names that lead away -/

open Maze

/-- A name with its extension, as far as the system sees it. -/
def seen (name : Bytes) : Path := cString (name ++ bytes ".mp3")

theorem isAbsolute_seen (name : Bytes) : Path.isAbsolute (seen name) = Path.isAbsolute name := by
  rw [seen, Path.isAbsolute_cString, Path.isAbsolute_append name (by decide)]

theorem dirPart_dirPart (p : Path) : Path.dirPart (Path.dirPart p) = Path.dirPart p := by
  have h := Path.dirPart_append_filename (Path.dirPart p)
  rwa [Path.filename_dirPart, List.append_nil] at h

/-- Only the last component is cut off or gets an extension. -/
theorem dirPart_seen {name : Bytes} (h : 0 ∉ Path.dirPart name) :
    Path.dirPart (seen name) = Path.dirPart name := by
  have hsep : byte '/' ∉ cString (Path.filename name ++ bytes ".mp3") := by
    intro hmem
    rcases List.mem_append.mp ((List.takeWhile_prefix _).subset hmem) with h | h
    · exact Path.separator_notMem_filename name h
    · exact absurd h (by decide)
  have hseen : seen name = Path.dirPart name ++ cString (Path.filename name ++ bytes ".mp3") := by
    rw [← cString_append_of_notMem h, ← List.append_assoc, Path.dirPart_append_filename]
    rfl
  rw [hseen, Path.dirPart_append _ hsep, dirPart_dirPart]

theorem isName_filename_seen {name : Bytes} (h : ¬ NamesNoFile name) :
    IsName (Path.filename (seen name)) := by
  have hsub : ∀ {c : UInt8}, c ∈ Path.filename (seen name) → c ∈ seen name := fun hc ↦ by
    rw [← Path.dirPart_append_filename (seen name)]
    exact List.mem_append_right _ hc
  have hdots : Path.filename (seen name) ∉ [[], bytes ".", bytes ".."] := by
    by_cases hnul : 0 ∈ name
    · rw [seen, cString_append_of_mem hnul]
      exact fun hmem ↦ h ⟨hnul, hmem⟩
    · -- the extension is longer than any of them
      have hfree : 0 ∉ name ++ bytes ".mp3" := by
        rw [List.mem_append, not_or]
        exact ⟨hnul, by decide⟩
      have hfile : Path.filename (seen name) = Path.filename name ++ bytes ".mp3" := by
        have hsep : byte '/' ∉ Path.filename name ++ bytes ".mp3" := by
          rw [List.mem_append, not_or]
          exact ⟨Path.separator_notMem_filename name, by decide⟩
        have heq := Path.filename_append (Path.filename_dirPart name) hsep
        rwa [← List.append_assoc, Path.dirPart_append_filename,
          ← cString_eq_self_iff.mpr hfree] at heq
      intro hmem
      have hlen : ∀ c ∈ [[], bytes ".", bytes ".."], c.length < 4 := by decide
      have hlt := hlen _ hmem
      rw [hfile, List.length_append] at hlt
      exact absurd hlt (by simp [bytes])
  simp only [List.mem_cons, List.not_mem_nil, or_false, not_or] at hdots
  exact ⟨hdots.1, Path.separator_notMem_filename _,
    fun h0 ↦ nul_notMem_cString _ (hsub h0), hdots.2.1, hdots.2.2⟩

/-- The names before the last component. -/
def wayOf (name : Bytes) : List Bytes := Path.names (Path.dirPart (seen name))

/-- The name of a directory, and all components of the name. -/
def partsOf (name : Bytes) : List Bytes :=
  bytes "s" :: Path.filename (seen name) :: wayOf name

/-- A maze that knows them. -/
def mazeFor (name : Bytes) : Hierarchy :=
  maze (partsOf name) (wayOf name).length (2 + lookups (wayOf name))

/-- A place in it. -/
def placeIn (name : Bytes) (k : ℕ) : Node := place (partsOf name) k (wayOf name).length

section

variable {name : Bytes}

theorem directory_mem_partsOf (name : Bytes) : bytes "s" ∈ partsOf name := by simp [partsOf]

theorem filename_mem_partsOf (name : Bytes) : Path.filename (seen name) ∈ partsOf name := by
  simp [partsOf]

/-- Going by all names but the last. -/
theorem walk_wayOf (name : Bytes) :
    ∃ n, (mazeFor name).walk
        ((mazeFor name).origin (Path.join (bytes "s") (Path.dirPart (seen name))))
        (Path.names (Path.join (bytes "s") (Path.dirPart (seen name)))) = .node n ∧
      (mazeFor name).type n = .directory ∧
      next (partsOf name) n = 2 + lookups (wayOf name) ∧
      (∀ c ∈ n, IsPlain c) ∧
      (placeIn name 1 <+: n → Path.isAbsolute name = false ∧ wayOf name = []) := by
  have hway : IsWay (partsOf name) (wayOf name) := fun c hc ↦ .inr (by simp [partsOf, hc])
  have habs : Path.isAbsolute (Path.dirPart (seen name)) = Path.isAbsolute name := by
    rw [Path.isAbsolute_dirPart, isAbsolute_seen]
  have hjoin : (mazeFor name).walk
      ((mazeFor name).origin (Path.join (bytes "s") (Path.dirPart (seen name))))
      (Path.names (Path.join (bytes "s") (Path.dirPart (seen name)))) =
        (mazeFor name).walk (start (partsOf name) (wayOf name).length (Path.dirPart (seen name)))
          (wayOf name) := walk_join (directory_mem_partsOf name) (by omega) _
  have hend := walk_start hway le_rfl (le_refl (2 + lookups (wayOf name)))
    (Path.dirPart (seen name))
  rw [habs] at hend
  rw [hjoin]
  exact hend

/-- Going by all names leads to the file. -/
theorem walk_seen (hfile : IsName (Path.filename (seen name))) :
    (mazeFor name).walk ((mazeFor name).origin (Path.join (bytes "s") (seen name)))
      (Path.names (Path.join (bytes "s") (seen name))) =
        .node (placeIn name (2 + lookups (wayOf name))) := by
  obtain ⟨n, hwalk, htype, hnext, -⟩ := walk_wayOf name
  have hnames : Path.names (Path.join (bytes "s") (seen name)) =
      Path.names (Path.join (bytes "s") (Path.dirPart (seen name))) ++
        [Path.filename (seen name)] := by
    rw [Path.names_eq, Path.dirPart_join, Path.filename_join_eq, Path.names_of_name hfile.2.1,
      if_neg (not_or.mpr ⟨hfile.1, hfile.2.2.2.1⟩)]
  have horigin : (mazeFor name).origin (Path.join (bytes "s") (seen name)) =
      (mazeFor name).origin (Path.join (bytes "s") (Path.dirPart (seen name))) := by
    unfold Hierarchy.origin
    rw [← Path.isAbsolute_dirPart, Path.dirPart_join]
  have hstep := step_known htype hnext.le (filename_mem_partsOf name) hfile.2.2.2.2
  rw [hnames, horigin, Hierarchy.walk_append, hwalk]
  dsimp only
  rw [Hierarchy.walk]
  unfold mazeFor
  rw [hstep, hnext]
  rfl

/-- The path that is asked for. -/
theorem cString_asked (name : Bytes) :
    cString (Path.join (bytes "s") (name ++ bytes ".mp3")) = Path.join (bytes "s") (seen name) :=
  Path.cString_join_of_notMem (by decide) _

/-- The directory itself. -/
theorem walk_directory (name : Bytes) :
    (mazeFor name).walk ((mazeFor name).origin (cString (bytes "s")))
      (Path.names (cString (bytes "s"))) = .node (placeIn name 1) :=
  walk_first (directory_mem_partsOf name) (by omega)

theorem canFind_mazeFor (hcut : ¬ NamesNoFile name) :
    CanFind (mazeFor name).view (bytes "s") name where
  isThere := by
    have hstatus : (mazeFor name).view.status (bytes "s") = some .directory := by
      change (mazeFor name).statusOf _ = _
      rw [Hierarchy.resolve_of_isName (p := bytes "s") (by decide), walk_directory]
      exact congrArg some (type_place (by omega) le_rfl)
    simp [Storage.isThere, hstatus]
  asks ext _ := status_maze_ne_none _
  regular := by
    have hfile := isName_filename_seen hcut
    refine ⟨bytes ".mp3", by decide, ?_⟩
    change (mazeFor name).statusOf _ = _
    rw [Hierarchy.resolve_of_isName (by rwa [cString_asked, Path.filename_join_eq]),
      cString_asked, walk_seen hfile]
    exact congrArg some type_last

/-- The directory in which the file is looked for is another one. -/
theorem searched_mazeFor (hlocal : ¬ IsLocal name) (hcut : ¬ NamesNoFile name) :
    ∃ n, (mazeFor name).view.weaklyCanonical (searched (bytes "s") name) =
        some (Hierarchy.render n) ∧ (∀ c ∈ n, IsPlain c) ∧ ¬ placeIn name 1 <+: n := by
  by_cases hnul : 0 ∈ Path.dirPart name
  · -- the path is cut off before its last component, so that this is the file itself
    have hsame : cString (searched (bytes "s") name) = Path.join (bytes "s") (seen name) := by
      rw [searched, Path.cString_parentPath, cString_asked]
      rw [Path.dirPart_join, dirPart_ext]
      unfold Path.join
      split_ifs <;> simp [hnul]
    refine ⟨placeIn name (2 + lookups (wayOf name)), ?_, fun c hc ↦ isPlain_of_mem_place hc,
      fun h ↦ ?_⟩
    · change Option.map _ _ = _
      rw [hsame, Hierarchy.approach_of_walk (walk_seen (isName_filename_seen hcut))]
      rfl
    · have heq := (place_prefix_place.mp h).1
      omega
  · obtain ⟨n, hwalk, -, -, hplain, haway⟩ := walk_wayOf name
    have hpart : Path.dirPart (Path.join (bytes "s") (name ++ bytes ".mp3")) =
        Path.join (bytes "s") (Path.dirPart (seen name)) := by
      rw [Path.dirPart_join, dirPart_ext, dirPart_seen hnul]
    have hfree : 0 ∉ Path.dirPart (Path.join (bytes "s") (name ++ bytes ".mp3")) := by
      rw [hpart, dirPart_seen hnul]
      intro h0
      rcases Path.mem_join h0 with h0 | h0 | h0
      · exact absurd h0 (by decide)
      · exact absurd h0 (by decide)
      · exact hnul h0
    have horigin : (mazeFor name).origin (searched (bytes "s") name) =
        (mazeFor name).origin (Path.join (bytes "s") (Path.dirPart (seen name))) := by
      unfold Hierarchy.origin searched
      rw [Path.isAbsolute_parentPath, ← Path.isAbsolute_dirPart, hpart]
    refine ⟨n, ?_, hplain, fun h ↦ ?_⟩
    · change Option.map _ _ = _
      have huncut : cString (searched (bytes "s") name) = searched (bytes "s") name :=
        cString_eq_self_iff.mpr (Path.nul_notMem_parentPath hfree)
      rw [huncut, horigin, searched, Path.names_parentPath, hpart,
        Hierarchy.approach_of_walk hwalk]
      rfl
    · obtain ⟨hrel, hnil⟩ := haway h
      rw [wayOf, dirPart_seen hnul] at hnil
      exact hlocal ⟨hrel, hnil⟩

theorem not_leadsBelow_mazeFor (hlocal : ¬ IsLocal name) (hcut : ¬ NamesNoFile name) :
    ¬ LeadsBelow (mazeFor name).view (bytes "s") name := by
  intro hbelow
  have hfirst : (mazeFor name).view.weaklyCanonical (bytes "s") =
      some (Hierarchy.render (placeIn name 1)) := by
    change Option.map _ _ = _
    rw [Hierarchy.approach_of_walk (walk_directory name)]
    rfl
  obtain ⟨n, hn, hplain, haway⟩ := searched_mazeFor hlocal hcut
  obtain ⟨cs, hcs, hpre⟩ := hbelow _ hfirst
  obtain rfl : Hierarchy.render n = cs := Option.some.inj (hn.symm.trans hcs)
  exact haway (prefix_of_render (fun c hc ↦ isPlain_of_mem_place hc) hplain hpre)

end

/-! ## When a search stays inside -/

/-- **When a search stays inside.**  Whatever is found for a name lies in a whitelisted
directory

* in one file system and for one directory, whatever is whitelisted, if and only if
  nothing can be found or the name leads to the directory or below it;
* in every file system, for every directory and whatever is whitelisted, if and only if
  the name is local, or is cut off where no file name can end. -/
theorem staysInside_iff (name : Bytes) :
    (∀ (disk : Storage) (directory : Path),
      (∀ a, StaysInside disk a directory name) ↔
        (CanFind disk directory name → LeadsBelow disk directory name)) ∧
    ((∀ (h : Hierarchy) (a : AudioSystem) (directory : Path),
        StaysInside h.view a directory name) ↔
      IsLocal name ∨ NamesNoFile name) := by
  refine ⟨fun disk directory ↦ forall_staysInside_iff, fun h ↦ ?_, fun hname h a directory ↦
    staysInside_of_isLocal hname a⟩
  by_contra hno
  rw [not_or] at hno
  exact not_leadsBelow_mazeFor hno.1 hno.2
    (forall_staysInside_iff.mp (fun a ↦ h (mazeFor name) a (bytes "s")) (canFind_mazeFor hno.2))

/-- A bot in `/bot` with a file next to its directory of sounds. -/
def outside : Storage :=
  tree [bytes "bot"] [[bytes "bot", bytes "sounds"]] [[bytes "bot", bytes "secret.mp3"]]

/-- The name `../secret` leads to a file that is not in a whitelisted
directory. -/
theorem not_staysInside_secret :
    ¬ StaysInside outside (fresh outside) (bytes "sounds") (bytes "../secret") := by
  intro h
  have hin := (h (bytes "sounds/../secret.mp3") (by decide) (by decide)).1
  exact absurd hin (by decide)

end Seraphbot.AudioSystem
