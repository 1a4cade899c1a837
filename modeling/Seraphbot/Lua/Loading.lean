import Seraphbot.Lua.Engine

/-!
# What loading and registering leave behind

Every load rebinds the name and all the aliases of a file, whoever they belonged
to before, so after a sequence of loads a key belongs to the *latest* file that
asks for it.  The same holds for the metadata under the key, and, up to the case
of the name, for the handlers in the parser.  This file reduces the loops of the
engine to that statement; nothing later unfolds them.

* `namesOf path` are the keys a file asks for as it is now, none if it does not
  load.
* `lookup_commandFiles_loadAll` and `lookup_commandMetadata_loadAll` describe the
  two tables after loading a list of files, of which a reload and the scan of a
  directory are instances.
* `find_registerWithParser` describes the parser after a registration.
-/

namespace Seraphbot.LuaCommandEngine

variable (sol : Sol) (fs : FileSystem)

/-! ## What a file asks for -/

/-- The command a file defines as it is now, if it loads. -/
def commandOf (path : Path) : Option (Bytes × CommandMetadata) := (fs path).bind (readCommand sol)

/-- The keys a file asks for: the name of its command and its aliases. -/
def namesOf (path : Path) : List Bytes :=
  match commandOf sol fs path with
  | some (commandName, m) => commandName :: m.aliases
  | none => []

/-- The metadata of the command of a file. -/
def metadataOf (path : Path) : Option CommandMetadata := (commandOf sol fs path).map Prod.snd

/-- The code that is registered for a file, if it has a function to register. -/
def executeOf (path : Path) : Option Nat := (fs path).bind (executeFunction sol)

variable {sol fs}

theorem metadataOf_isSome_of_mem {path : Path} {k : Bytes} (hk : k ∈ namesOf sol fs path) :
    ∃ m, metadataOf sol fs path = some m := by
  unfold namesOf at hk
  cases h : commandOf sol fs path with
  | none => simp [h] at hk
  | some c => exact ⟨c.2, by simp [metadataOf, h]⟩

/-- A file that loads asks for at least one key. -/
theorem namesOf_ne_nil_iff {path : Path} :
    namesOf sol fs path ≠ [] ↔ (commandOf sol fs path).isSome := by
  unfold namesOf
  cases commandOf sol fs path <;> simp

variable (sol fs)

/-! ## Loading one file -/

/-- Loading succeeds exactly when the engine is initialised and the file defines
a command. -/
theorem loadLuaCommand_fst (path : Path) (e : LuaCommandEngine) :
    (loadLuaCommand sol fs path e).1 = (e.initialized && (commandOf sol fs path).isSome) := by
  unfold loadLuaCommand commandOf
  cases e.initialized with
  | false => rfl
  | true =>
      cases fs path with
      | none => rfl
      | some script =>
          simp only [Option.bind_some]
          cases readCommand sol script <;> rfl

@[simp] theorem loadLuaCommand_initialized (path : Path) (e : LuaCommandEngine) :
    (loadLuaCommand sol fs path e).2.initialized = e.initialized := by
  unfold loadLuaCommand
  split_ifs
  · rfl
  · split
    · rfl
    · split <;> rfl

@[simp] theorem loadLuaCommand_cooldownTracker (path : Path) (e : LuaCommandEngine) :
    (loadLuaCommand sol fs path e).2.cooldownTracker = e.cooldownTracker := by
  unfold loadLuaCommand
  split_ifs
  · rfl
  · split
    · rfl
    · split <;> rfl

/-- A load binds the keys of the file to the file, and no other key. -/
theorem lookup_commandFiles_load {e : LuaCommandEngine} (he : e.initialized = true)
    (path : Path) (k : Bytes) :
    (loadLuaCommand sol fs path e).2.commandFiles.lookup k =
      if k ∈ namesOf sol fs path then some path else e.commandFiles.lookup k := by
  unfold loadLuaCommand namesOf commandOf
  cases hfs : fs path with
  | none => simp [he]
  | some script =>
      cases hread : readCommand sol script with
      | none => simp [he, hread]
      | some c =>
          simp only [he, hread, Bool.not_true, Bool.false_eq_true, if_false, Option.bind_some]
          exact UnorderedMap.lookup_assignAll_const e.commandFiles (c.1 :: c.2.aliases) path k

/-- A load binds the keys of the file to its metadata, and no other key. -/
theorem lookup_commandMetadata_load {e : LuaCommandEngine} (he : e.initialized = true)
    (path : Path) (k : Bytes) :
    (loadLuaCommand sol fs path e).2.commandMetadata.lookup k =
      if k ∈ namesOf sol fs path then metadataOf sol fs path
      else e.commandMetadata.lookup k := by
  unfold loadLuaCommand namesOf metadataOf commandOf
  cases hfs : fs path with
  | none => simp [he]
  | some script =>
      cases hread : readCommand sol script with
      | none => simp [he, hread]
      | some c =>
          simp only [he, hread, Bool.not_true, Bool.false_eq_true, if_false, Option.bind_some,
            Option.map_some]
          exact UnorderedMap.lookup_assignAll_const e.commandMetadata (c.1 :: c.2.aliases) c.2 k

/-- A script defines a command: it returns a table with a name and an `execute`
field, the name is a string and not empty, and every conversion of the other
fields succeeds. -/
structure Defines (script : Script) (commandTable : LuaTable) (commandName : Bytes)
    (m : CommandMetadata) : Prop where
  returned : script = .returned (.table commandTable.fields commandTable.items)
  name_valid : (commandTable.get "name").valid = true
  execute_valid : (commandTable.get "execute").valid = true
  asString : sol.asString (commandTable.get "name") = some commandName
  name_ne_nil : commandName ≠ []
  metadata : parseCommandMetadata sol commandTable commandName = some m

/-- `readCommand` fails on everything else. -/
theorem readCommand_eq_some_iff {script : Script} {commandName : Bytes} {m : CommandMetadata} :
    readCommand sol script = some (commandName, m) ↔
      ∃ commandTable, Defines sol script commandTable commandName m := by
  constructor
  · intro h
    fun_cases readCommand sol script with
    | case1 => simp [readCommand] at h
    | case2 fields items commandTable hname =>
        simp only [readCommand] at h
        rw [if_pos hname] at h
        simp at h
    | case3 fields items commandTable hname hexecute =>
        simp only [readCommand] at h
        rw [if_neg hname, if_pos hexecute] at h
        simp at h
    | case4 fields items commandTable hname hexecute =>
        simp only [readCommand] at h
        rw [if_neg hname, if_neg hexecute, Option.bind_eq_bind, Option.bind_eq_some_iff] at h
        obtain ⟨name, hstring, h⟩ := h
        split at h
        · simp at h
        · rename_i hne
          rw [Option.bind_eq_bind, Option.bind_eq_some_iff] at h
          obtain ⟨m', hparse, h⟩ := h
          obtain ⟨rfl, rfl⟩ : name = commandName ∧ m' = m := by simpa using h
          exact ⟨commandTable, rfl, by simpa using hname, by simpa using hexecute, hstring, hne,
            hparse⟩
    | case5 v hv => simp_all [readCommand]
  · rintro ⟨commandTable, h⟩
    simp [readCommand, h.returned, h.name_valid, h.execute_valid, h.asString, h.name_ne_nil,
      h.metadata]

theorem commandOf_eq_some_iff {path : Path} {commandName : Bytes} {m : CommandMetadata} :
    commandOf sol fs path = some (commandName, m) ↔
      ∃ script commandTable, fs path = some script ∧
        Defines sol script commandTable commandName m := by
  rw [commandOf, Option.bind_eq_some_iff]
  constructor
  · rintro ⟨script, hfs, hread⟩
    obtain ⟨commandTable, h⟩ := (readCommand_eq_some_iff sol).mp hread
    exact ⟨script, commandTable, hfs, h⟩
  · rintro ⟨script, commandTable, hfs, h⟩
    exact ⟨script, hfs, (readCommand_eq_some_iff sol).mpr ⟨commandTable, h⟩⟩

/-- The tables are only written when everything has been read. -/
theorem loadLuaCommand_of_fst_eq_false {path : Path} {e : LuaCommandEngine}
    (h : (loadLuaCommand sol fs path e).1 = false) : (loadLuaCommand sol fs path e).2 = e := by
  unfold loadLuaCommand at h ⊢
  split_ifs at h ⊢
  · rfl
  · split at h
    · rfl
    · split at h
      · rfl
      · simp at h

/-- **Loading a file is all or nothing, and local.**  It succeeds if the engine is
initialised and the file exists and defines a command.  Then the name and the
aliases are bound to the file and to the metadata read from it, and every other
key keeps what it had; otherwise nothing changes at all. -/
theorem loadLuaCommand_all_or_nothing (path : Path) (e : LuaCommandEngine) :
    ((loadLuaCommand sol fs path e).1 = true ↔
      e.initialized = true ∧ ∃ script commandTable commandName m,
        fs path = some script ∧ Defines sol script commandTable commandName m) ∧
    ((loadLuaCommand sol fs path e).1 = false → (loadLuaCommand sol fs path e).2 = e) ∧
    ∀ script commandTable commandName m,
      (loadLuaCommand sol fs path e).1 = true → fs path = some script →
      Defines sol script commandTable commandName m →
      ∀ k,
        (k ∈ commandName :: m.aliases →
          (loadLuaCommand sol fs path e).2.commandFiles.lookup k = some path ∧
          (loadLuaCommand sol fs path e).2.commandMetadata.lookup k = some m) ∧
        (k ∉ commandName :: m.aliases →
          (loadLuaCommand sol fs path e).2.commandFiles.lookup k = e.commandFiles.lookup k ∧
          (loadLuaCommand sol fs path e).2.commandMetadata.lookup k =
            e.commandMetadata.lookup k) := by
  refine ⟨?_, loadLuaCommand_of_fst_eq_false sol fs, ?_⟩
  · rw [loadLuaCommand_fst, Bool.and_eq_true]
    apply and_congr_right
    intro _
    rw [Option.isSome_iff_exists]
    constructor
    · rintro ⟨⟨commandName, m⟩, hcommand⟩
      obtain ⟨script, commandTable, h⟩ := (commandOf_eq_some_iff sol fs).mp hcommand
      exact ⟨script, commandTable, commandName, m, h⟩
    · rintro ⟨script, commandTable, commandName, m, h⟩
      exact ⟨(commandName, m), (commandOf_eq_some_iff sol fs).mpr ⟨script, commandTable, h⟩⟩
  · intro script commandTable commandName m hload hfs h k
    have hinit : e.initialized = true := by
      rw [loadLuaCommand_fst, Bool.and_eq_true] at hload
      exact hload.1
    have hcommand := (commandOf_eq_some_iff sol fs).mpr ⟨script, commandTable, hfs, h⟩
    rw [lookup_commandFiles_load sol fs hinit, lookup_commandMetadata_load sol fs hinit,
      metadataOf, namesOf, hcommand]
    constructor
    · intro hk
      rw [if_pos hk, if_pos hk]
      exact ⟨rfl, rfl⟩
    · intro hk
      rw [if_neg hk, if_neg hk]
      exact ⟨rfl, rfl⟩

/-! ## Loading a list of files -/

/-- Load the files `paths`, one after the other. -/
def loadAll (paths : List Path) (e : LuaCommandEngine) : LuaCommandEngine :=
  paths.foldl (fun e path ↦ (loadLuaCommand sol fs path e).2) e

theorem loadAll_concat (paths : List Path) (path : Path) (e : LuaCommandEngine) :
    loadAll sol fs (paths ++ [path]) e =
      (loadLuaCommand sol fs path (loadAll sol fs paths e)).2 := by
  simp [loadAll]

@[simp] theorem loadAll_initialized (paths : List Path) (e : LuaCommandEngine) :
    (loadAll sol fs paths e).initialized = e.initialized := by
  induction paths using List.reverseRecOn with
  | nil => rfl
  | append_singleton paths path ih => rw [loadAll_concat, loadLuaCommand_initialized, ih]

@[simp] theorem loadAll_cooldownTracker (paths : List Path) (e : LuaCommandEngine) :
    (loadAll sol fs paths e).cooldownTracker = e.cooldownTracker := by
  induction paths using List.reverseRecOn with
  | nil => rfl
  | append_singleton paths path ih => rw [loadAll_concat, loadLuaCommand_cooldownTracker, ih]

/-- The latest of the files `paths` that asks for a key. -/
def ownerIn (paths : List Path) (k : Bytes) : Option Path :=
  latest (fun path ↦ k ∈ namesOf sol fs path) paths

theorem ownerIn_concat (paths : List Path) (path : Path) (k : Bytes) :
    ownerIn sol fs (paths ++ [path]) k =
      if k ∈ namesOf sol fs path then some path else ownerIn sol fs paths k := by
  simp [ownerIn, latest_concat]

/-- After loading a list of files a key belongs to the latest one that asks for
it. -/
theorem lookup_commandFiles_loadAll {e : LuaCommandEngine} (he : e.initialized = true)
    (paths : List Path) (k : Bytes) :
    (loadAll sol fs paths e).commandFiles.lookup k =
      (ownerIn sol fs paths k).or (e.commandFiles.lookup k) := by
  induction paths using List.reverseRecOn with
  | nil => rfl
  | append_singleton paths path ih =>
      rw [loadAll_concat, lookup_commandFiles_load sol fs (by simpa using he), ih, ownerIn_concat]
      by_cases hk : k ∈ namesOf sol fs path <;> simp [hk]

/-- After loading a list of files a key has the metadata of the latest one that
asks for it. -/
theorem lookup_commandMetadata_loadAll {e : LuaCommandEngine} (he : e.initialized = true)
    (paths : List Path) (k : Bytes) :
    (loadAll sol fs paths e).commandMetadata.lookup k =
      ((ownerIn sol fs paths k).bind (metadataOf sol fs)).or (e.commandMetadata.lookup k) := by
  induction paths using List.reverseRecOn with
  | nil => rfl
  | append_singleton paths path ih =>
      rw [loadAll_concat, lookup_commandMetadata_load sol fs (by simpa using he), ih,
        ownerIn_concat]
      by_cases hk : k ∈ namesOf sol fs path
      · obtain ⟨m, hm⟩ := metadataOf_isSome_of_mem hk
        simp [hk, hm]
      · simp [hk]

/-! ## The two loops that load -/

/-- The files a directory scan loads. -/
def luaFiles (entries : List DirectoryEntry) : List Path :=
  (entries.filter fun entry ↦
    entry.isRegularFile && entry.path.extension = bytes ".lua").map DirectoryEntry.path

/-- Scanning a directory loads its `.lua` files. -/
theorem loadCommandsFromDirectory_snd (entries : List DirectoryEntry) (e : LuaCommandEngine) :
    (loadCommandsFromDirectory sol fs (some entries) e).2 =
      loadAll sol fs (luaFiles entries) e := by
  unfold loadCommandsFromDirectory
  dsimp only
  induction entries using List.reverseRecOn with
  | nil => rfl
  | append_singleton entries entry ih =>
      rw [List.foldl_append, List.foldl_cons, List.foldl_nil]
      by_cases h : (entry.isRegularFile && entry.path.extension = bytes ".lua") = true
      · have hfiles : luaFiles (entries ++ [entry]) = luaFiles entries ++ [entry.path] := by
          simp only [luaFiles, List.filter_append, List.map_append]
          simp [h]
        rw [if_pos h, hfiles, loadAll_concat, ← ih]
      · have hfiles : luaFiles (entries ++ [entry]) = luaFiles entries := by
          simp only [luaFiles, List.filter_append, List.map_append]
          simp [h]
        rw [if_neg h, hfiles, ← ih]

/-- The files a reload visits, once for each key they are bound to. -/
def visited (t : Traversal Bytes Path) (e : LuaCommandEngine) : List Path :=
  (t.order e.commandFiles).map Sigma.snd

/-- Exactly the files that own a key are visited. -/
theorem mem_visited {t : Traversal Bytes Path} {e : LuaCommandEngine} {path : Path} :
    path ∈ visited t e ↔ e.commandFiles.Owns path := by
  rw [← t.exists_mem_order_iff, visited, List.mem_map]

/-- A reload loads the visited files into an empty table of files. -/
theorem reloadAllCommands_eq (t : Traversal Bytes Path) (e : LuaCommandEngine) :
    reloadAllCommands sol fs t e = loadAll sol fs (visited t e) { e with commandFiles := ∅ } := by
  unfold reloadAllCommands loadAll visited
  rw [List.foldl_map]

@[simp] theorem reloadAllCommands_initialized (t : Traversal Bytes Path) (e : LuaCommandEngine) :
    (reloadAllCommands sol fs t e).initialized = e.initialized := by
  rw [reloadAllCommands_eq, loadAll_initialized]

@[simp] theorem reloadAllCommands_cooldownTracker (t : Traversal Bytes Path)
    (e : LuaCommandEngine) :
    (reloadAllCommands sol fs t e).cooldownTracker = e.cooldownTracker := by
  rw [reloadAllCommands_eq, loadAll_cooldownTracker]

/-- After a reload a key belongs to the last visited file that asks for it. -/
theorem lookup_commandFiles_reload {e : LuaCommandEngine} (he : e.initialized = true)
    (t : Traversal Bytes Path) (k : Bytes) :
    (reloadAllCommands sol fs t e).commandFiles.lookup k = ownerIn sol fs (visited t e) k := by
  rw [reloadAllCommands_eq, lookup_commandFiles_loadAll sol fs (by exact he)]
  simp

theorem lookup_commandMetadata_reload {e : LuaCommandEngine} (he : e.initialized = true)
    (t : Traversal Bytes Path) (k : Bytes) :
    (reloadAllCommands sol fs t e).commandMetadata.lookup k =
      ((ownerIn sol fs (visited t e) k).bind (metadataOf sol fs)).or
        (e.commandMetadata.lookup k) := by
  rw [reloadAllCommands_eq, lookup_commandMetadata_loadAll sol fs (by exact he)]

/-- A key is bound after a reload exactly when a file that owned a key before
asks for it. -/
theorem mem_commandFiles_reload {e : LuaCommandEngine} (he : e.initialized = true)
    (t : Traversal Bytes Path) (k : Bytes) :
    k ∈ (reloadAllCommands sol fs t e).commandFiles ↔
      ∃ path, e.commandFiles.Owns path ∧ k ∈ namesOf sol fs path := by
  rw [UnorderedMap.mem_iff_exists_lookup, lookup_commandFiles_reload sol fs he]
  constructor
  · rintro ⟨path, hp⟩
    exact ⟨path, mem_visited.mp (latest_mem hp), by simpa using latest_sat hp⟩
  · rintro ⟨path, hown, hk⟩
    exact exists_latest (mem_visited.mpr hown) (by simpa using hk)

/-! ## Registration -/

/-- The handler that is made for an entry of the table of files. -/
def handlerOf (entry : Sigma fun _ : Bytes ↦ Path) : Option Handler :=
  (executeOf sol fs entry.2).map fun proto ↦ .lua ⟨entry.2, proto⟩ entry.1

/-- Is a handler registered for this entry, under a name that equals `c` up to
case? -/
def registers (c : Bytes) (entry : Sigma fun _ : Bytes ↦ Path) : Bool :=
  entry.1 ≠ [] && lower entry.1 = lower c && (executeOf sol fs entry.2).isSome

/-- After a registration a chat name is dispatched to the last entry registered
for it, and to what it was dispatched to before when there is none. -/
theorem find_registerWithParser {e : LuaCommandEngine} (he : e.initialized = true)
    (t : Traversal Bytes Path) (p : CommandParser Handler) (c : Bytes) :
    (registerWithParser sol fs t e p).find c =
      ((latest (registers sol fs c) (t.order e.commandFiles)).bind (handlerOf sol fs)).or
        (p.find c) := by
  unfold registerWithParser
  rw [he]
  simp only [Bool.not_true, Bool.false_eq_true, if_false]
  induction t.order e.commandFiles using List.reverseRecOn with
  | nil => rfl
  | append_singleton l entry ih =>
      rw [List.foldl_append, List.foldl_cons, List.foldl_nil, latest_concat]
      cases hx : executeOf sol fs entry.2 with
      | none =>
          have hmatch : (fs entry.2).bind (executeFunction sol) = none := hx
          simp only [hmatch, ih, registers, hx, Option.isSome_none, Bool.and_false,
            Bool.false_eq_true, if_false]
      | some proto =>
          have hmatch : (fs entry.2).bind (executeFunction sol) = some proto := hx
          simp only [hmatch, CommandParser.find_registerCommand, ih]
          by_cases hn : entry.1 = []
          · simp [registers, hn]
          · by_cases hc : lower entry.1 = lower c <;>
              simp [registers, hn, hc, hx, handlerOf]

end Seraphbot.LuaCommandEngine
