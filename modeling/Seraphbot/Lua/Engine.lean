import Seraphbot.Lua.CooldownTracker

/-!
# The Lua command engine

The model of `core/lua_command_engine.cpp`: loading command files into the two
tables of the engine, reloading them, registering their functions with the
parser, and the handler that is registered, with its checks in front of the
script.

The engine reads files while it runs, so each operation takes the file system as
it is at that moment, and the iteration order of every map it walks over.
-/

namespace Seraphbot

/-- The handlers that are ever registered: the closure `registerWithParser`
makes for a Lua command, and the two native commands of `Application::run`. -/
inductive Handler where
  | lua (execute : Closure) (commandName : Bytes)
  | reload
  | commands
deriving DecidableEq

/-- How a protected call of a Lua function ends. -/
inductive ScriptEnd where
  | valid
  /-- The script raised an error. -/
  | invalid
  /-- A `std::exception` came out of the call. -/
  | exception
deriving DecidableEq

/-- A call of a Lua function, as far as the chat sees it. -/
structure ScriptRun where
  replies : List Bytes := []
  ending : ScriptEnd := .valid
deriving DecidableEq

/-- What a handler does besides changing the engine. -/
structure Output where
  replies : List Bytes := []
  invoked : Option Invocation := none
deriving DecidableEq

/-- `sbot::core::LuaCommandEngine`.  The Lua state itself is not represented,
since a script is a function of its file. -/
structure LuaCommandEngine where
  commandFiles : UnorderedMap Bytes Path := ∅
  commandMetadata : UnorderedMap Bytes CommandMetadata := ∅
  cooldownTracker : CooldownTracker := {}
  initialized : Bool := false

namespace LuaCommandEngine

variable (sol : Sol) (fs : FileSystem)

/-- `LuaCommandEngine::initialize`. -/
def initializeEngine (e : LuaCommandEngine) : LuaCommandEngine := { e with initialized := true }

/-! ## Loading -/

/-- The name and the metadata of the command a script defines, `none` when the
script fails, does not return a table, lacks a name or an `execute` field, has
an empty name, or has a field some conversion throws on. -/
def readCommand : Script → Option (Bytes × CommandMetadata)
  | .error => none
  | .returned (.table fields items) =>
      let commandTable : LuaTable := ⟨fields, items⟩
      if !(commandTable.get "name").valid then none
      else if !(commandTable.get "execute").valid then none
      else do
        let commandName ← sol.asString (commandTable.get "name")
        if commandName = [] then none
        else
          let metadata ← parseCommandMetadata sol commandTable commandName
          return (commandName, metadata)
  | .returned _ => none

/-- Load one command file: bind its name, then its aliases, in both tables. -/
def loadLuaCommand (path : Path) (e : LuaCommandEngine) : Bool × LuaCommandEngine :=
  if !e.initialized then (false, e)
  else match fs path with
    | none => (false, e)
    | some script =>
        match readCommand sol script with
        | none => (false, e)
        | some (commandName, metadata) =>
            (true,
              { e with
                commandFiles := UnorderedMap.assignAll
                  ((commandName :: metadata.aliases).map fun k ↦ (k, path)) e.commandFiles
                commandMetadata := UnorderedMap.assignAll
                  ((commandName :: metadata.aliases).map fun k ↦ (k, metadata))
                  e.commandMetadata })

/-- Load the `.lua` files of a directory in the order they are listed; `none` is
a directory that is not there.  The count of files loaded is returned. -/
def loadCommandsFromDirectory (listing : Option (List DirectoryEntry)) (e : LuaCommandEngine) :
    Nat × LuaCommandEngine :=
  match listing with
  | none => (0, e)
  | some entries =>
      entries.foldl (fun acc entry ↦
        if entry.isRegularFile && entry.path.extension = bytes ".lua" then
          let (loaded, e) := loadLuaCommand sol fs entry.path acc.2
          (if loaded then acc.1 + 1 else acc.1, e)
        else acc) (0, e)

/-- Clear the table of files, then load every file that was in it, once for each
key it was bound to. -/
def reloadAllCommands (t : Traversal Bytes Path) (e : LuaCommandEngine) : LuaCommandEngine :=
  (t.order e.commandFiles).foldl (fun e entry ↦ (loadLuaCommand sol fs entry.2 e).2)
    { e with commandFiles := ∅ }

/-- The keys of the table of files. -/
def getLoadedCommands (t : Traversal Bytes Path) (e : LuaCommandEngine) : List Bytes :=
  (t.order e.commandFiles).map Sigma.fst

/-! ## Registration -/

/-- The code of the `execute` function a script defines, `none` when the script
fails, a conversion throws, or the field is no function. -/
def executeFunction : Script → Option Nat
  | .error => none
  | .returned v => do
      let commandTable ← sol.asTable v
      let executeFunc ← sol.asFunction (commandTable.get "execute")
      executeFunc

/-- Run every file in the table again and register its function under the key. -/
def registerWithParser (t : Traversal Bytes Path) (e : LuaCommandEngine)
    (parser : CommandParser Handler) : CommandParser Handler :=
  if !e.initialized then parser
  else (t.order e.commandFiles).foldl (fun parser entry ↦
    match (fs entry.2).bind (executeFunction sol) with
    | none => parser
    | some proto =>
        parser.registerCommand entry.1 (some (.lua ⟨entry.2, proto⟩ entry.1))) parser

/-! ## The handler of a Lua command -/

/-- Call the Lua function, and say so in the chat when it fails. -/
def executeLuaCommand (script : ScriptRun) : List Bytes :=
  match script.ending with
  | .valid => script.replies
  | .invalid => script.replies ++ [bytes "Command error occured - check logs"]
  | .exception => script.replies ++ [bytes "Command execution failed"]

/-- The handler `registerWithParser` registers: look the metadata up under the
captured name, check it, call the script and record the use.  `called` and
`recorded` are the readings of the clock before and after the script, and
`script` is what the script does if it is called. -/
def callHandler (execute : Closure) (commandName : Bytes) (ctx : CommandContext)
    (called recorded : Int) (script : ScriptRun) (e : LuaCommandEngine) :
    LuaCommandEngine × Output :=
  match e.commandMetadata.lookup commandName with
  | none => (e, { replies := [bytes "Command configuration error"] })
  | some m =>
      if !m.enabled then (e, {})
      else if !hasPermission ctx m then
        (e, { replies := [bytes "You don't have permission to use this command."] })
      else if e.cooldownTracker.isOnCooldown commandName ctx.message.user m called then
        (e, { replies := [bytes "Command is on cooldown."] })
      else if m.maxUsesPerStream > 0 &&
          e.cooldownTracker.useCount commandName ≥ m.maxUsesPerStream then
        (e, { replies := [bytes "Command has reached its usage limit for this stream."] })
      else
        ({ e with cooldownTracker :=
            e.cooldownTracker.recordUsage commandName ctx.message.user recorded },
          { replies := executeLuaCommand script
            invoked := some ⟨commandName, ctx.message.user, execute, called, recorded⟩ })

/-- `LuaCommandEngine::resetStreamCounters`. -/
def resetStreamCounters (e : LuaCommandEngine) : LuaCommandEngine :=
  { e with cooldownTracker := e.cooldownTracker.resetStreamCounters }

end LuaCommandEngine

end Seraphbot
