import Mathlib.Data.List.ReduceOption
import Mathlib.Data.List.Sort
import Seraphbot.Audio.Whitelist

/-!
# The audio system

The model of `AudioSystem` in `core/audio_system.cpp`: listing the sounds of a
directory, finding the file of a sound, and playing a file.

The three functions ask the whitelist about different things.  Listing and
finding check the directory they are given, playing checks the directory of the
file.  They also decide differently what a sound is: listing takes every file
apart and compares its extension in lower case, finding puts the name and the
supported extensions together.
-/

namespace Seraphbot

/-- `sbot::core::MiniaudioPlayer`, as far as the audio system sees it. -/
structure MiniaudioPlayer where
  isInitialized : Bool
  /-- Does the sound library start to play the file? -/
  playSound : Path → Int → Bool

/-- `sbot::core::AudioSystem`. -/
structure AudioSystem where
  whitelist : DirectoryWhitelist
  player : MiniaudioPlayer

/-- How a call of `playSound` ends: with one of the errors it logs, with what the
player says, or with an exception. -/
inductive PlayEnd where
  | threw
  | doesNotExist
  | notWhitelisted
  | playerNotInitialized
  | player (ok : Bool)
deriving DecidableEq

/-- What `playSound` returns, `none` when it throws. -/
def PlayEnd.result : PlayEnd → Option Bool
  | .threw => none
  | .player ok => some ok
  | _ => some false

namespace AudioSystem

/-! ## The operations -/

/-- The hardcoded extensions. -/
def getSupportedExtensions : List Bytes :=
  [bytes ".mp3", bytes ".wav", bytes ".flac", bytes ".ogg"]

/-- Is the extension supported, in lower case? -/
def isSupportedAudioFile (path : Path) : Bool :=
  getSupportedExtensions.contains (lower (Path.extension path))

variable (disk : Storage) (a : AudioSystem)

def isPathAllowed (path : Path) : Bool := a.whitelist.isPathAllowed disk path

/-- The stem of an entry of a directory, if the entry is a sound. -/
def soundOf (directory : Path) (entry : Bytes × FileType) : Option Bytes :=
  let path := Path.join directory entry.1
  if entry.2 = .regular && isSupportedAudioFile path then some (Path.stem path) else none

/-- The entries of a directory that a loop visits, up to an exception. -/
def visited (directory : Path) : List (Bytes × FileType) :=
  ((disk.entries directory).takeWhile Option.isSome).reduceOption

/-- The sounds of a whitelisted directory.  They are sorted at the end of the loop, so
they are not when an exception ends it, which is caught.  An exception from the checks
before it is not: the result is `none`. -/
def listAudioFiles (directory : Path) : Option (List Bytes) :=
  if !a.isPathAllowed disk directory then some []
  else do
    if !(← disk.isThere directory) then return []
    if !(← disk.isDirectory directory) then return []
    let audioFiles := (visited disk directory).filterMap (soundOf directory)
    return if (disk.entries directory).all Option.isSome then audioFiles.insertionSort (· ≤ ·)
      else audioFiles

/-- The loop of `findAudioFile`: the paths that a name and an extension lead to, if
there is a regular file.  The result is `none` when asking for one of them throws. -/
def foundFiles (name : Bytes) (directory : Path) : List Bytes → Option (List Path)
  | [] => some []
  | ext :: exts => do
      let candidate := Path.join directory (name ++ ext)
      let isFile := (← disk.isThere candidate) && (← disk.isRegularFile candidate)
      let others ← foundFiles name directory exts
      return if isFile then candidate :: others else others

/-- The first file that a name and a supported extension lead to, empty if there is
none.  An exception in the loop is caught, and nothing is found, even if a file was. -/
def findAudioFile (name : Bytes) (directory : Path) : Option Bytes :=
  if !a.isPathAllowed disk directory then some []
  else do
    if !(← disk.isThere directory) then return []
    match foundFiles disk name directory getSupportedExtensions with
    | none => return []
    | some [] => return []
    | some (found :: _) => return found

/-- Play a file that lies in a whitelisted directory, at a volume between 0 and
100. -/
def playSound (filepath : Path) (volume : Int) : PlayEnd :=
  match disk.isThere filepath with
  | none => .threw
  | some false => .doesNotExist
  | some true =>
      if !a.isPathAllowed disk (Path.parentPath filepath) then .notWhitelisted
      else if !a.player.isInitialized then .playerNotInitialized
      else .player (a.player.playSound filepath (max 0 (min volume 100)))

/-! ## Extensions -/

/-- A supported extension is a dot and a part without dots and separators, in
lower case. -/
theorem supported_spec : ∀ ext ∈ getSupportedExtensions,
    ext = byte '.' :: ext.tail ∧ ext.tail ≠ [] ∧ byte '.' ∉ ext.tail ∧ byte '/' ∉ ext ∧
      0 ∉ ext ∧ lower ext = ext := by
  decide

/-! ## What is listed and what is found -/

variable {disk a}

theorem mem_entries_of_visited {directory : Path} {e : Bytes × FileType}
    (h : e ∈ visited disk directory) : some e ∈ disk.entries directory :=
  (List.takeWhile_prefix _).subset (List.reduceOption_mem_iff.mp h)

/-- A sound is listed exactly if some regular file of the directory has it as its
stem and an extension that is supported in lower case, and is visited before an
exception ends the loop. -/
theorem mem_listAudioFiles {directory : Path} {name : Bytes} :
    (∃ sounds, a.listAudioFiles disk directory = some sounds ∧ name ∈ sounds) ↔
      a.isPathAllowed disk directory = true ∧ disk.status directory = some .directory ∧
      ∃ f, (f, FileType.regular) ∈ visited disk directory ∧
        lower (Path.extension f) ∈ getSupportedExtensions ∧ Path.stem f = name := by
  have hsound : ∀ e ∈ visited disk directory, soundOf directory e = some name ↔
      e.2 = .regular ∧ lower (Path.extension e.1) ∈ getSupportedExtensions ∧
        Path.stem e.1 = name := by
    intro e he
    have hsep := (disk.isName_of_mem (mem_entries_of_visited he)).2.1
    have hfile : Path.filename (Path.join directory e.1) = Path.filename e.1 := by
      rw [Path.filename_join directory hsep, Path.filename_of_name hsep]
    simp [soundOf, isSupportedAudioFile, Path.stem_congr hfile, Path.extension_congr hfile,
      and_assoc]
  have hmem : name ∈ (visited disk directory).filterMap (soundOf directory) ↔
      ∃ f, (f, FileType.regular) ∈ visited disk directory ∧
        lower (Path.extension f) ∈ getSupportedExtensions ∧ Path.stem f = name := by
    rw [List.mem_filterMap]
    constructor
    · rintro ⟨⟨f, type⟩, he, hs⟩
      obtain ⟨rfl, hf⟩ := (hsound _ he).mp hs
      exact ⟨f, he, hf⟩
    · rintro ⟨f, he, hf⟩
      exact ⟨_, he, (hsound _ he).mpr ⟨rfl, hf⟩⟩
  rw [← hmem]
  unfold listAudioFiles
  cases a.isPathAllowed disk directory with
  | false => simp
  | true =>
      rcases hdir : disk.status directory with _ | type
      · simp [Storage.isThere, hdir]
      · cases type with
        | directory =>
            simp only [Storage.isThere, Storage.isDirectory, hdir]
            cases (disk.entries directory).all Option.isSome <;>
              simp [List.mem_insertionSort]
        | notFound | regular | other => simp [Storage.isThere, Storage.isDirectory, hdir]

section Search

variable {name : Bytes} {directory : Path}

/-- One round of the loop that asks for a file, when asking does not throw. -/
theorem foundFiles_cons {ext : Bytes} {exts : List Bytes} {type : FileType}
    (hs : disk.status (Path.join directory (name ++ ext)) = some type) :
    foundFiles disk name directory (ext :: exts) =
      (foundFiles disk name directory exts).map fun others ↦
        if type = .regular then Path.join directory (name ++ ext) :: others else others := by
  rw [foundFiles]
  cases foundFiles disk name directory exts with
  | none => simp [Storage.isThere, Storage.isRegularFile, hs]
  | some others => cases type <;> simp [Storage.isThere, Storage.isRegularFile, hs]

theorem foundFiles_eq_none {exts : List Bytes} :
    foundFiles disk name directory exts = none ↔
      ∃ ext ∈ exts, disk.status (Path.join directory (name ++ ext)) = none := by
  induction exts with
  | nil => simp [foundFiles]
  | cons ext exts ih =>
      rw [List.exists_mem_cons_iff, ← ih]
      cases hs : disk.status (Path.join directory (name ++ ext)) with
      | none => simp [foundFiles, Storage.isThere, hs]
      | some type => simp [foundFiles_cons hs]

theorem mem_foundFiles {exts : List Bytes} {found : List Path}
    (h : foundFiles disk name directory exts = some found) {p : Path} :
    p ∈ found ↔
      ∃ ext ∈ exts, p = Path.join directory (name ++ ext) ∧ disk.status p = some .regular := by
  induction exts generalizing found with
  | nil =>
      cases h
      simp
  | cons ext exts ih =>
      cases hs : disk.status (Path.join directory (name ++ ext)) with
      | none =>
          have hthrows : foundFiles disk name directory (ext :: exts) = none :=
            foundFiles_eq_none.mpr ⟨ext, List.mem_cons_self, hs⟩
          rw [hthrows] at h
          cases h
      | some type =>
          rw [foundFiles_cons hs] at h
          obtain ⟨others, hothers, rfl⟩ := Option.map_eq_some_iff.mp h
          rw [List.exists_mem_cons_iff, ← ih hothers]
          split_ifs with htype
          · subst htype
            rw [List.mem_cons]
            exact or_congr_left ⟨fun hp ↦ ⟨hp, hp ▸ hs⟩, And.left⟩
          · refine (or_iff_right ?_).symm
            rintro ⟨rfl, hreg⟩
            rw [hs] at hreg
            exact htype (Option.some.inj hreg)

/-- A path that ends with an extension is not empty. -/
theorem join_ext_ne_nil (directory : Path) (name : Bytes) {ext : Bytes}
    (hext : ext ∈ getSupportedExtensions) : Path.join directory (name ++ ext) ≠ [] := by
  obtain ⟨hdot, -, -, hsep, -⟩ := supported_spec ext hext
  rw [Path.join_append _ _ hsep, hdot]
  simp

variable (disk) in
/-- There is a file to be found for a name: the directory is there, asking for a file
does not throw for any of the extensions, and one of them leads to a regular file. -/
structure CanFind (directory : Path) (name : Bytes) : Prop where
  isThere : disk.isThere directory = some true
  asks : ∀ ext ∈ getSupportedExtensions, disk.status (Path.join directory (name ++ ext)) ≠ none
  regular : ∃ ext ∈ getSupportedExtensions,
    disk.status (Path.join directory (name ++ ext)) = some .regular

/-- What is found is a regular file, at the place a supported extension leads to. -/
theorem canFind_of_findAudioFile {p : Path} (h : a.findAudioFile disk name directory = some p)
    (hp : p ≠ []) :
    a.isPathAllowed disk directory = true ∧ CanFind disk directory name ∧
      ∃ ext ∈ getSupportedExtensions,
        p = Path.join directory (name ++ ext) ∧ disk.status p = some .regular := by
  have hnil : p ≠ [] → some [] ≠ some p := fun hp h ↦ hp (Option.some.inj h).symm
  unfold findAudioFile at h
  split_ifs at h with hallowed
  · exact absurd h (hnil hp)
  cases hthere : disk.isThere directory with
  | none => simp [hthere] at h
  | some there =>
      cases there with
      | false => simp [hthere, Ne.symm hp] at h
      | true =>
          cases hfound : foundFiles disk name directory getSupportedExtensions with
          | none => simp [hthere, hfound, Ne.symm hp] at h
          | some found =>
              cases found with
              | nil => simp [hthere, hfound, Ne.symm hp] at h
              | cons q found =>
                  obtain rfl : q = p := by simpa [hthere, hfound] using h
                  obtain ⟨ext, hext, hq, hreg⟩ :=
                    (mem_foundFiles hfound).mp List.mem_cons_self
                  refine ⟨by simpa using hallowed, ⟨hthere, fun e he hnone ↦ ?_, ext, hext, ?_⟩,
                    ext, hext, hq, hreg⟩
                  · have hthrows := foundFiles_eq_none.mpr ⟨e, he, hnone⟩
                    rw [hfound] at hthrows
                    cases hthrows
                  · rw [← hq, hreg]

/-- In a whitelisted directory, a file is found exactly if it can be. -/
theorem exists_findAudioFile_iff :
    (∃ p, a.findAudioFile disk name directory = some p ∧ p ≠ []) ↔
      a.isPathAllowed disk directory = true ∧ CanFind disk directory name := by
  constructor
  · rintro ⟨p, h, hp⟩
    obtain ⟨hallowed, hcan, -⟩ := canFind_of_findAudioFile h hp
    exact ⟨hallowed, hcan⟩
  · rintro ⟨hallowed, hthere, hasks, ext, hext, hreg⟩
    cases hfound : foundFiles disk name directory getSupportedExtensions with
    | none =>
        obtain ⟨e, he, hnone⟩ := foundFiles_eq_none.mp hfound
        exact absurd hnone (hasks e he)
    | some found =>
        have hmem := (mem_foundFiles hfound).mpr ⟨ext, hext, rfl, hreg⟩
        cases found with
        | nil => cases hmem
        | cons p found =>
            obtain ⟨e, he, rfl, -⟩ := (mem_foundFiles hfound).mp List.mem_cons_self
            exact ⟨_, by simp [findAudioFile, hallowed, hthere, hfound],
              join_ext_ne_nil directory name he⟩

end Search

end AudioSystem

end Seraphbot
