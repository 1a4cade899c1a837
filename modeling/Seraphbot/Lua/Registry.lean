import Seraphbot.Data.Machine
import Seraphbot.Lua.Loading

/-!
# The table of files and the table of metadata

The two tables of the engine live differently: a reload clears the table of files
and fills it again, while the table of metadata only ever grows, and both are
written key by key by files that share names.  They stay together all the same.
`registry_run` says so for every sequence of calls of the engine, with the files
changing in any way between two calls: under a key of the table of files there
is the metadata of the very load that wrote the key last, and no handler in the
parser has lost its metadata.

The engine does not remember its loads.  They are what the machine emits: a load
is a path together with the file system it was read from, which determine the
keys and the metadata it wrote.
-/

namespace Seraphbot.LuaCommandEngine

variable (sol : Sol)

/-! ## Loads -/

/-- A call of `loadLuaCommand` on an initialised engine: the path it is given,
and the files as they are at that moment. -/
structure Load where
  fs : FileSystem
  path : Path

/-- The keys the load binds in both tables, none if it fails. -/
def Load.names (l : Load) : List Bytes := namesOf sol l.fs l.path

/-- The metadata it binds them to. -/
def Load.metadata (l : Load) : Option CommandMetadata := metadataOf sol l.fs l.path

/-- The last of the loads that bound a key. -/
def lastWriter (k : Bytes) (loads : List Load) : Option Load :=
  latest (fun l ↦ (l.names sol).contains k) loads

/-- The loads of an operation that goes through the files `paths`. -/
def loadsOf (fs : FileSystem) (paths : List Path) (e : LuaCommandEngine) : List Load :=
  if e.initialized then paths.map (Load.mk fs) else []

/-! ## The calls of an engine -/

/-- A call of the engine, with the files it finds and the iteration order of the
map it walks over. -/
inductive Call where
  | initializeEngine
  | loadLuaCommand (fs : FileSystem) (path : Path)
  | loadCommandsFromDirectory (fs : FileSystem) (listing : Option (List DirectoryEntry))
  | registerWithParser (fs : FileSystem) (t : Traversal Bytes Path)
  | reloadAllCommands (fs : FileSystem) (t : Traversal Bytes Path)

/-- An engine and the parser it registers its commands with.  Each call emits the
loads it made. -/
def registry : Machine (LuaCommandEngine × CommandParser Handler) Call (List Load) where
  step s
    | .initializeEngine => ((initializeEngine s.1, s.2), [])
    | .loadLuaCommand fs path =>
        (((loadLuaCommand sol fs path s.1).2, s.2), loadsOf fs [path] s.1)
    | .loadCommandsFromDirectory fs listing =>
        (((loadCommandsFromDirectory sol fs listing s.1).2, s.2),
          loadsOf fs (luaFiles (listing.getD [])) s.1)
    | .registerWithParser fs t => ((s.1, registerWithParser sol fs t s.1 s.2), [])
    | .reloadAllCommands fs t =>
        ((reloadAllCommands sol fs t s.1, s.2), loadsOf fs (visited t s.1) s.1)

variable {sol}

theorem lastWriter_append (k : Bytes) (loads loads' : List Load) :
    lastWriter sol k (loads ++ loads') = (lastWriter sol k loads').or (lastWriter sol k loads) :=
  latest_append _ _ _

/-- A load that wrote a key also wrote metadata. -/
theorem exists_metadata_of_lastWriter {k : Bytes} {loads : List Load} {l : Load}
    (h : lastWriter sol k loads = some l) : ∃ m, l.metadata sol = some m := by
  have hk : k ∈ l.names sol := by simpa using latest_sat h
  exact metadataOf_isSome_of_mem hk

theorem lastWriter_loadsOf {fs : FileSystem} {e : LuaCommandEngine} (he : e.initialized = true)
    (paths : List Path) (k : Bytes) :
    lastWriter sol k (loadsOf fs paths e) = (ownerIn sol fs paths k).map (Load.mk fs) := by
  have hnames : (fun l : Load ↦ (l.names sol).contains k) ∘ Load.mk fs =
      fun path ↦ decide (k ∈ namesOf sol fs path) := by
    funext path
    exact List.contains_eq_mem k (namesOf sol fs path)
  rw [loadsOf, if_pos he, lastWriter, latest_map, hnames]
  rfl

/-- Loading does nothing to an engine that is not initialised. -/
theorem loadAll_of_not_initialized {fs : FileSystem} {e : LuaCommandEngine}
    (he : e.initialized = false) (paths : List Path) : loadAll sol fs paths e = e := by
  induction paths using List.reverseRecOn with
  | nil => rfl
  | append_singleton paths path ih => rw [loadAll_concat, ih]; simp [loadLuaCommand, he]

/-- The files after loading a list of files, in terms of the loads. -/
theorem lookup_commandFiles_loadsOf (fs : FileSystem) (paths : List Path) (e : LuaCommandEngine)
    (k : Bytes) :
    (loadAll sol fs paths e).commandFiles.lookup k =
      ((lastWriter sol k (loadsOf fs paths e)).map Load.path).or (e.commandFiles.lookup k) := by
  cases he : e.initialized with
  | false => simp [loadAll_of_not_initialized he, loadsOf, he, lastWriter]
  | true =>
      rw [lookup_commandFiles_loadAll sol fs he, lastWriter_loadsOf he, Option.map_map]
      cases ownerIn sol fs paths k <;> rfl

/-- The metadata after loading a list of files, in terms of the loads. -/
theorem lookup_commandMetadata_loadsOf (fs : FileSystem) (paths : List Path)
    (e : LuaCommandEngine) (k : Bytes) :
    (loadAll sol fs paths e).commandMetadata.lookup k =
      ((lastWriter sol k (loadsOf fs paths e)).bind (Load.metadata sol)).or
        (e.commandMetadata.lookup k) := by
  cases he : e.initialized with
  | false => simp [loadAll_of_not_initialized he, loadsOf, he, lastWriter]
  | true =>
      rw [lookup_commandMetadata_loadAll sol fs he, lastWriter_loadsOf he]
      cases ownerIn sol fs paths k <;> rfl

/-! ## Handlers in the parser -/

/-- A handler found after a registration was found before or comes from an entry
of the table of files. -/
theorem lookup_registerWithParser {fs : FileSystem} {t : Traversal Bytes Path}
    {e : LuaCommandEngine} {p : CommandParser Handler} {name : Bytes} {h : Handler}
    (hfind : (registerWithParser sol fs t e p).commands.lookup name = some h) :
    p.commands.lookup name = some h ∨
      ∃ entry ∈ t.order e.commandFiles, handlerOf sol fs entry = some h := by
  unfold registerWithParser at hfind
  split at hfind
  · exact .inl hfind
  · generalize t.order e.commandFiles = l at hfind ⊢
    induction l using List.reverseRecOn with
    | nil => exact .inl hfind
    | append_singleton l entry ih =>
        rw [List.foldl_append, List.foldl_cons, List.foldl_nil] at hfind
        have hearlier : (∃ entry ∈ l, handlerOf sol fs entry = some h) →
            ∃ entry' ∈ l ++ [entry], handlerOf sol fs entry' = some h :=
          fun ⟨entry', hmem, hh⟩ ↦ ⟨entry', List.mem_append_left _ hmem, hh⟩
        split at hfind
        · exact (ih hfind).imp_right hearlier
        · rename_i proto hproto
          rcases CommandParser.lookup_registerCommand hfind with hold | hnew
          · exact (ih hold).imp_right hearlier
          · refine .inr ⟨entry, by simp, ?_⟩
            rw [handlerOf, executeOf, hproto]
            exact hnew

/-! ## The invariant -/

/-- What holds between the engine, the parser and the loads made so far. -/
structure Traced (sol : Sol) (loads : List Load)
    (s : LuaCommandEngine × CommandParser Handler) : Prop where
  /-- A key of the table of files belongs to the file of the load that wrote it
  last. -/
  files {k : Bytes} {path : Path} : s.1.commandFiles.lookup k = some path →
    ∃ l, lastWriter sol k loads = some l ∧ l.path = path
  /-- The table of metadata remembers the last load of every key. -/
  metadata (k : Bytes) :
    s.1.commandMetadata.lookup k = (lastWriter sol k loads).bind (Load.metadata sol)
  /-- The names captured by the handlers were loaded. -/
  handlers {name : Bytes} {execute : Closure} {commandName : Bytes} :
    s.2.commands.lookup name = some (.lua execute commandName) →
    ∃ l, lastWriter sol commandName loads = some l

/-- Nothing is lost by loading more files. -/
theorem exists_lastWriter_append {k : Bytes} {loads : List Load} (loads' : List Load)
    (h : ∃ l, lastWriter sol k loads = some l) :
    ∃ l, lastWriter sol k (loads ++ loads') = some l := by
  obtain ⟨l, hl⟩ := h
  rw [lastWriter_append, hl]
  cases lastWriter sol k loads' with
  | none => exact ⟨l, rfl⟩
  | some l' => exact ⟨l', rfl⟩

namespace Traced

variable {loads : List Load} {s : LuaCommandEngine × CommandParser Handler}

/-- Loading a list of files. -/
theorem loadAll (h : Traced sol loads s) (fs : FileSystem) (paths : List Path) :
    Traced sol (loads ++ loadsOf fs paths s.1)
      (LuaCommandEngine.loadAll sol fs paths s.1, s.2) where
  files {k path} hk := by
    rw [lookup_commandFiles_loadsOf] at hk
    rw [lastWriter_append]
    cases hw : lastWriter sol k (loadsOf fs paths s.1) with
    | none => exact h.files (by simpa [hw] using hk)
    | some l => exact ⟨l, rfl, by simpa [hw] using hk⟩
  metadata k := by
    rw [lookup_commandMetadata_loadsOf, lastWriter_append, h.metadata]
    cases hw : lastWriter sol k (loadsOf fs paths s.1) with
    | none => rfl
    | some l =>
        obtain ⟨m, hm⟩ := exists_metadata_of_lastWriter hw
        simp [hm]
  handlers hfind := exists_lastWriter_append _ (h.handlers hfind)

/-- Clearing the table of files. -/
theorem clear (h : Traced sol loads s) :
    Traced sol loads ({ s.1 with commandFiles := ∅ }, s.2) where
  files hk := by simp at hk
  metadata := h.metadata
  handlers := h.handlers

/-- Registering the commands: a handler is made for a key of the table of files,
and such a key was loaded. -/
theorem register (h : Traced sol loads s) (fs : FileSystem) (t : Traversal Bytes Path) :
    Traced sol loads (s.1, registerWithParser sol fs t s.1 s.2) where
  files := h.files
  metadata := h.metadata
  handlers hfind := by
    rcases lookup_registerWithParser hfind with hold | ⟨⟨k, path⟩, hmem, hh⟩
    · exact h.handlers hold
    · obtain ⟨proto, -, heq⟩ := Option.map_eq_some_iff.mp hh
      cases heq
      obtain ⟨l, hl, -⟩ := h.files (t.mem_order_iff.mp hmem)
      exact ⟨l, hl⟩

end Traced

/-- Every call keeps the engine, the parser and the loads together. -/
theorem traced_step {loads : List Load} {s : LuaCommandEngine × CommandParser Handler}
    (h : Traced sol loads s) (call : Call) :
    Traced sol (loads ++ ((registry sol).step s call).2) ((registry sol).step s call).1 := by
  cases call with
  | initializeEngine => simpa [registry] using ⟨h.files, h.metadata, h.handlers⟩
  | loadLuaCommand fs path => exact h.loadAll fs [path]
  | loadCommandsFromDirectory fs listing =>
      cases listing with
      | none => simpa [registry, loadCommandsFromDirectory, luaFiles, loadsOf] using h
      | some entries =>
          have hload := h.loadAll fs (luaFiles entries)
          rw [← loadCommandsFromDirectory_snd] at hload
          exact hload
  | registerWithParser fs t => simpa [registry] using h.register fs t
  | reloadAllCommands fs t =>
      have hload := h.clear.loadAll fs (visited t s.1)
      rw [← reloadAllCommands_eq] at hload
      exact hload

/-- A fresh engine and a fresh parser. -/
theorem traced_new : Traced sol [] ({}, .new) where
  files hk := by simp at hk
  metadata k := rfl
  handlers hfind := by simp [CommandParser.new] at hfind

theorem traced_run (calls : List Call) :
    Traced sol ((registry sol).trace ({}, .new) calls).flatten
      ((registry sol).run ({}, .new) calls) := by
  induction calls using List.reverseRecOn with
  | nil => exact traced_new
  | append_singleton calls call ih =>
      rw [Machine.run_concat, Machine.trace_concat, List.flatten_append, List.flatten_singleton]
      exact traced_step ih call

/-- **The tables do not drift apart.**  After any sequence of calls on a fresh
engine and parser:

* under every key of the table of files there is metadata, and it was produced by
  the load that wrote the key last, of the file the key belongs to;
* every Lua handler in the parser finds metadata under its captured name. -/
theorem registry_run (calls : List Call) :
    (∀ k path, ((registry sol).run ({}, .new) calls).1.commandFiles.lookup k = some path →
      ∃ l m, lastWriter sol k ((registry sol).trace ({}, .new) calls).flatten = some l ∧
        l.path = path ∧ l.metadata sol = some m ∧
        ((registry sol).run ({}, .new) calls).1.commandMetadata.lookup k = some m) ∧
    ∀ name execute commandName,
      ((registry sol).run ({}, .new) calls).2.commands.lookup name =
        some (.lua execute commandName) →
      ∃ m, ((registry sol).run ({}, .new) calls).1.commandMetadata.lookup commandName = some m := by
  have h : Traced sol _ _ := traced_run calls
  constructor
  · intro k path hk
    obtain ⟨l, hl, hpath⟩ := h.files hk
    obtain ⟨m, hm⟩ := exists_metadata_of_lastWriter hl
    exact ⟨l, m, hl, hpath, hm, by simp [h.metadata, hl, hm]⟩
  · intro name execute commandName hfind
    obtain ⟨l, hl⟩ := h.handlers hfind
    obtain ⟨m, hm⟩ := exists_metadata_of_lastWriter hl
    exact ⟨m, by simp [h.metadata, hl, hm]⟩

end Seraphbot.LuaCommandEngine
