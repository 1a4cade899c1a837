import Seraphbot.Audio.AudioSystem

/-!
# Listing and finding

`agrees_iff` compares the list of sounds with the search for one.  They are two
readings of "a supported sound".  A file whose extension is not written in lower case
is listed and not found, and so is one for which a name with another extension cannot
be asked for, being too long for instance.  A name with a null character is never
listed, but the file system stops reading at it, and the search may find a file.
-/

namespace Seraphbot.AudioSystem

variable (disk : Storage) (a : AudioSystem)

/-- The path is that of a regular file of the directory with the given stem. -/
def IsSoundFile (directory : Path) (name : Bytes) (p : Path) : Prop :=
  disk.status p = some .regular ∧ Path.stem p = name ∧
    ∃ f, IsName f ∧ p = Path.join directory f

/-- The name is in the list of sounds. -/
def Lists (directory : Path) (name : Bytes) : Prop :=
  ∃ sounds, a.listAudioFiles disk directory = some sounds ∧ name ∈ sounds

/-- A path is returned for the name that is not empty. -/
def Finds (directory : Path) (name : Bytes) : Prop :=
  ∃ p, a.findAudioFile disk name directory = some p ∧ p ≠ []

/-- The name is listed exactly if it is found, and what is found is a file of the
directory with this stem. -/
def Agrees (directory : Path) (name : Bytes) : Prop :=
  (Lists disk a directory name ↔ Finds disk a directory name) ∧
  ∀ p, a.findAudioFile disk name directory = some p → p ≠ [] → IsSoundFile disk directory name p

/-- A file for a sound of this name: a regular file of the directory with this stem and
an extension that is supported in some letter case. -/
structure Offers (directory : Path) (name f : Bytes) : Prop where
  entry : some (f, FileType.regular) ∈ disk.entries directory
  stem : Path.stem f = name
  supported : lower (Path.extension f) ∈ getSupportedExtensions

/-! ## What can go wrong -/

/-- There are files for the sound, and the extensions of all of them have capital
letters. -/
def OnlyCapitals (directory : Path) (name : Bytes) : Prop :=
  (∃ f, Offers disk directory name f) ∧
    ∀ f, Offers disk directory name f → lower (Path.extension f) ≠ Path.extension f

/-- There are files for the sound, and the file system does not let itself be asked for
the name with one of the extensions, which makes it too long, for instance. -/
def CannotAsk (directory : Path) (name : Bytes) : Prop :=
  (∃ f, Offers disk directory name f) ∧
    ∃ ext ∈ getSupportedExtensions, disk.status (Path.join directory (name ++ ext)) = none

/-- There are files for the sound, and the path of the directory is cut off by a null
character. -/
def CutDirectory (directory : Path) (name : Bytes) : Prop :=
  (∃ f, Offers disk directory name f) ∧ 0 ∈ directory

/-- The name is cut off by a null character, and what is left is a regular file. -/
def CutToFile (directory : Path) (name : Bytes) : Prop :=
  0 ∈ name ∧ disk.status (Path.join directory name) = some .regular

/-! ## Names and files -/

variable {disk a}

/-- The stem and the extension of a name that is put together. -/
theorem stem_extension_candidate (directory : Path) {name ext : Bytes}
    (hext : ext ∈ getSupportedExtensions) (hname : name ≠ []) (hsep : byte '/' ∉ name) :
    Path.stem (name ++ ext) = name ∧ Path.extension (name ++ ext) = ext ∧
      Path.stem (Path.join directory (name ++ ext)) = name ∧
      (0 ∉ name → IsName (name ++ ext)) := by
  obtain ⟨hdot, hne, hnodot, hsep', hnul, -⟩ := supported_spec ext hext
  have hfree : byte '/' ∉ name ++ ext := by
    rw [List.mem_append, not_or]
    exact ⟨hsep, hsep'⟩
  have hfile : Path.filename (name ++ ext) = name ++ byte '.' :: ext.tail := by
    rw [Path.filename_of_name hfree, ← hdot]
  obtain ⟨hstem, hextension⟩ := Path.stem_extension_append hfile hname hne hnodot
  have hjoin : Path.filename (Path.join directory (name ++ ext)) = Path.filename (name ++ ext) := by
    rw [Path.filename_join directory hfree, Path.filename_of_name hfree]
  refine ⟨hstem, hextension.trans hdot.symm, (Path.stem_congr hjoin).trans hstem, fun h0 ↦ ?_⟩
  refine ⟨by simp [hname], hfree, by simp [h0, hnul], ?_, ?_⟩ <;>
  · intro h
    rw [h] at hextension
    exact absurd hextension (by simp [Path.extension, Path.filename, bytes, byte])

/-- A file for the sound is its name with an extension. -/
theorem Offers.eq_append {directory : Path} {name f : Bytes} (h : Offers disk directory name f) :
    f = name ++ Path.extension f ∧ name ≠ [] := by
  have hne : Path.extension f ≠ [] := by
    intro hnil
    have hext := h.supported
    rw [hnil] at hext
    exact absurd hext (by decide)
  obtain ⟨hfile, hstem⟩ := Path.filename_eq_of_extension hne
  rw [Path.filename_of_name (disk.isName_of_mem h.entry).2.1] at hfile
  rw [h.stem] at hfile hstem
  exact ⟨hfile, hstem⟩

/-- Listed names are not empty, and contain neither separators nor null characters. -/
theorem name_of_lists {directory : Path} {name : Bytes} (h : Lists disk a directory name) :
    name ≠ [] ∧ byte '/' ∉ name ∧ 0 ∉ name := by
  obtain ⟨-, -, f, hf, hext, hstem⟩ := mem_listAudioFiles.mp h
  have hoffers : Offers disk directory name f := ⟨mem_entries_of_visited hf, hstem, hext⟩
  obtain ⟨hfile, hne⟩ := hoffers.eq_append
  obtain ⟨-, hsep, hnul, -⟩ := disk.isName_of_mem hoffers.entry
  rw [hfile, List.mem_append, not_or] at hsep hnul
  exact ⟨hne, hsep.1, hnul.1⟩

section

variable {directory : Path} {name : Bytes}

/-- What is found for a name without separators and null characters is a file of the
directory, and the name is its stem. -/
theorem isSoundFile_of_find (hname : name ≠ []) (hsep : byte '/' ∉ name) (hnul : 0 ∉ name)
    {p : Path} (h : a.findAudioFile disk name directory = some p) (hp : p ≠ []) :
    IsSoundFile disk directory name p := by
  obtain ⟨-, -, ext, hext, rfl, hreg⟩ := canFind_of_findAudioFile h hp
  obtain ⟨-, -, hstem, hisName⟩ := stem_extension_candidate directory hext hname hsep
  exact ⟨hreg, hstem, name ++ ext, hisName hnul, rfl⟩

/-- When no exception ends the loop over a directory, all of it is visited. -/
theorem mem_visited_iff (hall : none ∉ disk.entries directory) {e : Bytes × FileType} :
    e ∈ visited disk directory ↔ some e ∈ disk.entries directory := by
  have hloop : (disk.entries directory).takeWhile Option.isSome = disk.entries directory :=
    List.takeWhile_eq_self_iff.mpr fun x hx ↦ by
      cases x with
      | none => exact absurd hx hall
      | some e => rfl
  rw [visited, List.reduceOption_mem_iff, hloop]

/-- With a null character in the name, the extension is not seen. -/
theorem status_candidate_of_nul (hsep : byte '/' ∉ name) (hnul : 0 ∈ name) (ext : Bytes)
    (hext : byte '/' ∉ ext) :
    disk.status (Path.join directory (name ++ ext)) = disk.status (Path.join directory name) := by
  have hmem : 0 ∈ Path.join directory name := by
    unfold Path.join
    rw [Path.isAbsolute_eq_false hsep]
    split_ifs <;> simp_all
  rw [disk.status_cString, Path.join_append _ _ hext, cString_append_of_mem hmem,
    ← disk.status_cString]

theorem lists_iff (hallowed : a.isPathAllowed disk directory = true)
    (hdir : disk.status directory = some .directory) (hall : none ∉ disk.entries directory) :
    Lists disk a directory name ↔ ∃ f, Offers disk directory name f := by
  rw [Lists, mem_listAudioFiles]
  simp only [hallowed, hdir, mem_visited_iff hall, true_and]
  exact exists_congr fun f ↦ ⟨fun ⟨hf, hext, hstem⟩ ↦ ⟨hf, hstem, hext⟩,
    fun h ↦ ⟨h.entry, h.supported, h.stem⟩⟩

theorem finds_iff (hallowed : a.isPathAllowed disk directory = true) :
    Finds disk a directory name ↔ CanFind disk directory name := by
  rw [Finds, exists_findAudioFile_iff]
  exact and_iff_right hallowed

/-- A regular file that a supported extension leads to is a file for the sound. -/
theorem offers_candidate (hdir : disk.status directory = some .directory)
    (hall : none ∉ disk.entries directory) (hname : name ≠ []) (hsep : byte '/' ∉ name)
    (hnul : 0 ∉ name) {ext : Bytes} (hext : ext ∈ getSupportedExtensions)
    (hreg : disk.status (Path.join directory (name ++ ext)) = some .regular) :
    Offers disk directory name (name ++ ext) ∧
      lower (Path.extension (name ++ ext)) = Path.extension (name ++ ext) := by
  obtain ⟨hstem, hextension, -, hisName⟩ := stem_extension_candidate directory hext hname hsep
  have hlower : lower ext = ext := (supported_spec ext hext).2.2.2.2.2
  refine ⟨⟨disk.mem_of_regular hdir hall (hisName hnul) hreg, hstem, ?_⟩, ?_⟩
  · rwa [hextension, hlower]
  · rw [hextension, hlower]

/-- With a null character in the directory, no file in it is reached. -/
theorem status_ne_regular_of_nul (hdir : disk.status directory = some .directory)
    (hnul : 0 ∈ directory) {f : Bytes} (hsep : byte '/' ∉ f) :
    disk.status (Path.join directory f) ≠ some .regular := by
  rw [disk.status_cString, Path.cString_join hnul (Path.isAbsolute_eq_false hsep),
    ← disk.status_cString, hdir]
  decide

end

/-- An audio system with the directories whitelisted that are so by default. -/
def fresh (disk : Storage) : AudioSystem := ⟨.new disk, ⟨true, fun _ _ ↦ true⟩⟩

/-- A bot in `/bot` with one file in its directory of sounds. -/
def oneSound (file : Bytes) : Storage :=
  tree [bytes "bot"] [[bytes "bot", bytes "sounds"]] [[bytes "bot", bytes "sounds", file]]

end Seraphbot.AudioSystem
