import Mathlib.Data.List.ReduceOption
import Seraphbot.Core.Dispatch
import Seraphbot.Data.Machine
import Seraphbot.Lua.Loading

/-!
# The bot

The model of the part of `application.cpp` that ties the parser to the engine:
`Application::run` loads the command files, registers them and then the two
native commands, and from then on every chat message goes through the parser.

A `Bot` is what a chat message can change: the engine and the parser, together
with the files, which somebody may edit between two messages.  Messages are
handled one after the other, by the coroutine that reads the socket, and reply
functions do not throw.
-/

namespace Seraphbot

open LuaCommandEngine

/-- The engine, the parser, and the command files on the disk. -/
structure Bot where
  fs : FileSystem
  engine : LuaCommandEngine
  parser : CommandParser Handler

/-- What the surroundings contribute to the handling of one message: the
readings of the clock before and after a script, what the script does if it is
called, and the orders in which a native command walks over the table of
files. -/
structure ChatEnv where
  called : Int
  recorded : Int
  script : ScriptRun := {}
  reloadOrder : Traversal Bytes Path := .stored
  registerOrder : Traversal Bytes Path := .stored

namespace Bot

variable (sol : Sol)

/-! ## The native commands -/

/-- The names of the two native commands, in any letter case. -/
def isNative (c : Bytes) : Bool := lower c = bytes "reload" || lower c = bytes "commands"

/-- `!reload`: reload all files, then register what is loaded. -/
def reload (env : ChatEnv) (b : Bot) : Bot × Output :=
  let engine := reloadAllCommands sol b.fs env.reloadOrder b.engine
  ({ b with
      engine
      parser := registerWithParser sol b.fs env.registerOrder engine b.parser },
    { replies := [bytes "Reloading Lua commands...", bytes "Lua commands reloaded!"] })

/-- `!commands`: list the keys of the table of files. -/
def commands (env : ChatEnv) (b : Bot) : Output :=
  match getLoadedCommands env.reloadOrder b.engine with
  | [] => { replies := [bytes "No Lua commands loaded"] }
  | loaded => { replies := [bytes "Loaded commands: " ++ (bytes ", ").intercalate loaded] }

/-! ## Handling a message -/

/-- Call a handler.  None of them throws: a script that fails is caught by the
handler. -/
def call (env : ChatEnv) (h : Handler) (ctx : CommandContext) (b : Bot) : Bot × Output :=
  match h with
  | .lua execute commandName =>
      let (engine, out) :=
        b.engine.callHandler execute commandName ctx env.called env.recorded env.script
      ({ b with engine }, out)
  | .reload => b.reload sol env
  | .commands => (b, b.commands env)

/-- The message callback of `setupCallbacks`, without the chat log. -/
def onMessage (env : ChatEnv) (message : ChatMessage) (b : Bot) : Bot × Output :=
  (CommandParser.parseAndExecute (fun s : Bot × Output ↦ s.1.parser)
    (fun h ctx s ↦ (.returned, call sol env h ctx s.1)) message (b, {})).2

/-- The handler a message is dispatched to, with its context. -/
def dispatch (b : Bot) (message : ChatMessage) : Option (Handler × CommandContext) :=
  let (command, args) := b.parser.parseCommand message.text
  if command = [] then none
  else (b.parser.find command).map fun h ↦ (h, ⟨message, command, args⟩)

/-- Handling a message is calling the handler it is dispatched to. -/
theorem onMessage_eq (env : ChatEnv) (message : ChatMessage) (b : Bot) :
    b.onMessage sol env message =
      match b.dispatch message with
      | none => (b, {})
      | some (h, ctx) => b.call sol env h ctx := by
  unfold onMessage dispatch
  rw [CommandParser.parseAndExecute_eq]
  dsimp only
  obtain ⟨command, args⟩ := b.parser.parseCommand message.text
  by_cases hnil : command = []
  · simp [hnil]
  · simp only [hnil, if_false]
    cases b.parser.find command <;> rfl

/-! ## Runs -/

/-- What happens to a running bot. -/
inductive Event where
  | chat (message : ChatMessage) (env : ChatEnv)
  /-- Command files are edited, created or deleted. -/
  | edit (fs : FileSystem)
  | resetStreamCounters

/-- The readings of the clock an event makes. -/
def Event.readings : Event → List Int
  | .chat _ env => [env.called, env.recorded]
  | _ => []

/-- What an event leaves in the history and in the chat. -/
structure Emission where
  replies : List Bytes := []
  mark : Option (Mark Invocation) := none

/-- The bot as a machine. -/
def machine : Machine Bot Event Emission where
  step b
    | .chat message env =>
        let (b', out) := b.onMessage sol env message
        (b', { replies := out.replies, mark := out.invoked.map .use })
    | .edit fs => ({ b with fs }, {})
    | .resetStreamCounters =>
        ({ b with engine := b.engine.resetStreamCounters }, { mark := some .reset })

/-- The history of a run. -/
def history (b : Bot) (es : List Event) : History Invocation :=
  (((machine sol).trace b es).map Emission.mark).reduceOption

theorem history_concat (b : Bot) (es : List Event) (ev : Event) :
    history sol b (es ++ [ev]) =
      history sol b es ++ ((machine sol).step ((machine sol).run b es) ev).2.mark.toList := by
  rw [history, Machine.trace_concat, List.map_append, List.reduceOption_append,
    List.map_singleton, List.reduceOption_singleton]
  rfl

/-! ## What an event does -/

/-- What an event can do to a bot, and the mark it leaves in the history. -/
inductive Does (b : Bot) : Event → Bot → Option (Mark Invocation) → Prop where
  /-- A message is a call of a Lua handler. -/
  | call {message : ChatMessage} {env : ChatEnv} {execute : Closure} {commandName : Bytes}
      {ctx : CommandContext} (hd : b.dispatch message = some (.lua execute commandName, ctx)) :
      Does b (.chat message env)
        { b with engine :=
          (b.engine.callHandler execute commandName ctx env.called env.recorded env.script).1 }
        ((b.engine.callHandler execute commandName ctx env.called env.recorded
          env.script).2.invoked.map .use)
  /-- A message is a reload. -/
  | reload {message : ChatMessage} {env : ChatEnv} {ctx : CommandContext}
      (hd : b.dispatch message = some (.reload, ctx)) :
      Does b (.chat message env) (b.reload sol env).1 none
  /-- A message changes nothing. -/
  | other {message : ChatMessage} {env : ChatEnv}
      (hd : ∀ ctx, b.dispatch message ≠ some (.reload, ctx)) : Does b (.chat message env) b none
  | edit {fs : FileSystem} : Does b (.edit fs) { b with fs } none
  | resetStreamCounters :
      Does b .resetStreamCounters { b with engine := b.engine.resetStreamCounters } (some .reset)

theorem commands_invoked (env : ChatEnv) (b : Bot) : (b.commands env).invoked = none := by
  unfold commands
  split <;> rfl

/-- Every event does one of these things. -/
theorem step_does (b : Bot) (ev : Event) :
    Does sol b ev ((machine sol).step b ev).1 ((machine sol).step b ev).2.mark := by
  cases ev with
  | edit fs => exact .edit
  | resetStreamCounters => exact .resetStreamCounters
  | chat message env =>
      simp only [machine, onMessage_eq]
      cases hd : b.dispatch message with
      | none => exact .other (by simp [hd])
      | some hc =>
          obtain ⟨handler, ctx⟩ := hc
          cases handler with
          | lua execute commandName => exact .call hd
          | reload => exact .reload hd
          | commands =>
              simp only [call, commands_invoked, Option.map_none]
              exact .other (by simp [hd])

/-! ## The start -/

/-- The start of `Application::run`, up to the loop of the user interface. -/
def boot (fs : FileSystem) (listing : Option (List DirectoryEntry)) (t : Traversal Bytes Path) :
    Bot :=
  let engine := (loadCommandsFromDirectory sol fs listing (initializeEngine {})).2
  let parser := registerWithParser sol fs t engine CommandParser.new
  let parser := parser.registerCommand (bytes "reload") (some .reload)
  let parser := parser.registerCommand (bytes "commands") (some .commands)
  ⟨fs, engine, parser⟩

/-- The files that are loaded at the start. -/
def bootFiles (listing : Option (List DirectoryEntry)) : List Path := luaFiles (listing.getD [])

/-- The start loads the files of the commands directory into a fresh engine. -/
theorem boot_engine (fs : FileSystem) (listing : Option (List DirectoryEntry))
    (t : Traversal Bytes Path) :
    (boot sol fs listing t).engine =
      loadAll sol fs (bootFiles listing) (initializeEngine {}) := by
  cases listing with
  | none => rfl
  | some entries => exact loadCommandsFromDirectory_snd sol fs entries _

@[simp] theorem boot_initialized (fs : FileSystem) (listing : Option (List DirectoryEntry))
    (t : Traversal Bytes Path) : (boot sol fs listing t).engine.initialized = true := by
  rw [boot_engine, loadAll_initialized]
  rfl

/-- The native commands are registered last, so they win at the start; every
other name is left to the Lua commands. -/
theorem find_boot (fs : FileSystem) (listing : Option (List DirectoryEntry))
    (t : Traversal Bytes Path) (c : Bytes) :
    (boot sol fs listing t).parser.find c =
      if lower c = bytes "commands" then some .commands
      else if lower c = bytes "reload" then some .reload
      else (latest (registers sol fs c)
        (t.order (boot sol fs listing t).engine.commandFiles)).bind (handlerOf sol fs) := by
  have hfind := find_registerWithParser sol fs (boot_initialized sol fs listing t) t
    CommandParser.new c
  have h₁ : bytes "commands" ≠ [] ∧ lower (bytes "commands") = bytes "commands" := by decide
  have h₂ : bytes "reload" ≠ [] ∧ lower (bytes "reload") = bytes "reload" := by decide
  simp only [boot, CommandParser.find_registerCommand, h₁, h₂, ne_eq, not_false_eq_true,
    true_and, eq_comm (a := bytes "commands"), eq_comm (a := bytes "reload"),
    Option.some_or] at hfind ⊢
  rw [hfind, show CommandParser.new.find c = none from rfl, Option.or_none]

/-! ## The engine stays initialised -/

theorem callHandler_initialized (execute : Closure) (commandName : Bytes) (ctx : CommandContext)
    (called recorded : Int) (script : ScriptRun) (e : LuaCommandEngine) :
    (e.callHandler execute commandName ctx called recorded script).1.initialized =
      e.initialized := by
  unfold callHandler
  split
  · rfl
  · split_ifs <;> rfl

theorem step_initialized (b : Bot) (ev : Event) (hb : b.engine.initialized = true) :
    ((machine sol).step b ev).1.engine.initialized = true := by
  have hdoes := step_does sol b ev
  generalize ((machine sol).step b ev).1 = b', ((machine sol).step b ev).2.mark = mark at hdoes ⊢
  cases hdoes with
  | call => exact (callHandler_initialized ..).trans hb
  | reload => exact (reloadAllCommands_initialized ..).trans hb
  | other | edit | resetStreamCounters => exact hb

theorem run_initialized {b : Bot} (hb : b.engine.initialized = true) (es : List Event) :
    ((machine sol).run b es).engine.initialized = true :=
  Machine.run_invariant (P := fun _ _ ↦ True) (fun b ev h _ ↦ step_initialized sol b ev h) hb
    (Machine.along_of_forall _ fun _ _ ↦ trivial)

/-! ## The parser after a reload -/

/-- After a reload a chat name is dispatched to the last entry of the rebuilt
table that is registered for it, and to what it was dispatched to before when
there is none. -/
theorem parser_find_reload (env : ChatEnv) {b : Bot} (hb : b.engine.initialized = true)
    (c : Bytes) :
    (b.reload sol env).1.parser.find c =
      ((latest (registers sol b.fs c) (env.registerOrder.order
        (b.reload sol env).1.engine.commandFiles)).bind (handlerOf sol b.fs)).or
        (b.parser.find c) :=
  find_registerWithParser sol b.fs ((reloadAllCommands_initialized ..).trans hb)
    env.registerOrder b.parser c

/-! ## A bot with one command -/

/-- A message of a viewer without badges. -/
def aliceSays (text : String) : ChatMessage := ⟨bytes "alice", bytes text, [], []⟩

/-- The commands directory with one file in it, which comes to `script`. -/
def oneFile (script : Script) : FileSystem := fun path ↦
  if path = bytes "commands/a.lua" then some script else none

/-- The bot started on a directory with one file. -/
def bootOne (script : Script) : Bot :=
  boot Sol.checked (oneFile script) (some [⟨bytes "commands/a.lua", true⟩]) .stored

end Bot

end Seraphbot
