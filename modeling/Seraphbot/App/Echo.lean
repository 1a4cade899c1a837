import Seraphbot.App.Program
import Seraphbot.Lua.Scripts

/-!
# The bot and its own messages

The bot is in the chat under the name of the broadcaster, and the event socket
delivers its messages back to it like those of anybody else.  A reply that looked like
a command would be executed, with all the rights of the broadcaster, and a viewer who
could bring it about would have these rights too.

Replies are `Unmarked`, they do not start with an exclamation mark: neither those of the
engine nor those of the scripts that come with it, whatever a viewer writes, with one
exception.  `sfx.lua` answers with the name of the sound it plays
(`shipped_unmarked_iff`).  Where all scripts are unmarked the bot never reacts to itself
(`echo_ignored`).
-/

namespace Seraphbot

open Twitch EventSub

/-- The text is no command. -/
def Unmarked (text : Bytes) : Prop := text.head? ≠ some (byte '!')

instance (text : Bytes) : Decidable (Unmarked text) := inferInstanceAs (Decidable (_ ≠ _))

theorem unmarked_cons {c : UInt8} (h : c ≠ byte '!') (text : Bytes) : Unmarked (c :: text) := by
  simpa [Unmarked] using h

/-- All of these texts are unmarked, as the only one is. -/
theorem unmarked_singleton {text : Bytes} (h : Unmarked text) : ∀ t ∈ [text], Unmarked t := by
  simpa using h

/-! ## The scripts -/

/-- The scripts in `commands/`. -/
inductive Shipped where
  | hello
  | flip
  | dice
  | modcmd
  | special
  | vipjoke
  | sfx
deriving DecidableEq

/-- What a script gets from elsewhere. -/
structure Surroundings where
  draw : Nat
  tonumber : Bytes → Option Scripts.Number
  /-- The integers that numerals stand for, all that `sfx.lua` is modelled for. -/
  integer : Bytes → Option Int
  disk : Storage
  audio : AudioSystem

namespace Shipped

/-- The messages that a call of `sfx.lua` sends. -/
def sfxReplies (effects : List Sfx.Effect) : List Bytes :=
  effects.filterMap fun
    | .reply text => some text
    | .playSound _ _ => none

/-- `sfx.lua`, as far as the chat sees it. -/
def sfxRun (env : Surroundings) (ctx : CommandContext) : ScriptRun :=
  let run := Sfx.execute env.integer env.disk env.audio env.draw ctx.args
  { replies := sfxReplies run.effects
    ending := if run.failed then .invalid else .valid }

/-- A call of a script. -/
def run (env : Surroundings) (ctx : CommandContext) : Shipped → ScriptRun
  | .hello => Scripts.hello ctx
  | .flip => Scripts.flip env.draw
  | .dice => Scripts.dice env.tonumber env.draw ctx
  | .modcmd => Scripts.modcmd ctx
  | .special => Scripts.special ctx
  | .vipjoke => Scripts.vipjoke env.draw
  | .sfx => sfxRun env ctx

/-- The script plays a sound whose name looks like a command. -/
def PlaysCommand (env : Surroundings) (args : List Bytes) : Prop :=
  ∃ first rest filepath, args = first :: rest ∧ ¬ Unmarked (lower first) ∧
    env.audio.findAudioFile env.disk (lower first) Sfx.soundDir = some filepath ∧ filepath ≠ [] ∧
    (env.audio.playSound env.disk filepath (Sfx.volumeOf env.integer rest)).result = some true

theorem listSounds_unmarked (sounds : List Bytes) (page : Int) :
    ∀ text ∈ sfxReplies (Sfx.listSounds sounds page).effects, Unmarked text := by
  fun_cases Sfx.listSounds sounds page with
  | case1 => exact unmarked_singleton (unmarked_cons (by decide) _)
  | case2 => exact List.forall_mem_nil _
  | case3 => exact unmarked_singleton (unmarked_cons (by decide) _)
  | case4 =>
      refine unmarked_singleton ?_
      split_ifs <;> exact unmarked_cons (by decide) _

/-- Playing a file gets the one reply or the other, or none if it throws. -/
theorem playAndReply_unmarked_iff (env : Surroundings) (filepath : Path) (volume : Int)
    {ok failed : Bytes} (hfailed : Unmarked failed) :
    (∀ text ∈ sfxReplies
        (Sfx.playAndReply env.disk env.audio filepath volume ok failed).effects, Unmarked text) ↔
      ¬ (¬ Unmarked ok ∧
        (env.audio.playSound env.disk filepath volume).result = some true) := by
  unfold Sfx.playAndReply
  cases (env.audio.playSound env.disk filepath volume).result with
  | none => exact iff_of_true (List.forall_mem_nil _) (by simp)
  | some plays =>
      change (∀ text ∈ [_], Unmarked text) ↔ _
      rw [List.forall_mem_singleton]
      cases plays with
      | false => exact iff_of_true hfailed (by simp)
      | true => simp

theorem playRandom_unmarked (env : Surroundings) (rest : List Bytes) :
    ∀ text ∈ sfxReplies
      (Sfx.playRandom env.integer env.disk env.audio env.draw rest).effects, Unmarked text := by
  fun_cases Sfx.playRandom env.integer env.disk env.audio env.draw rest with
  | case1 => exact List.forall_mem_nil _
  | case2 => exact unmarked_singleton (unmarked_cons (by decide) _)
  | case3 => exact List.forall_mem_nil _
  | case4 =>
      refine (playAndReply_unmarked_iff env _ _ (unmarked_cons (by decide) _)).mpr ?_
      exact fun h ↦ h.1 (unmarked_cons (by decide) _)
  | case5 => exact unmarked_singleton (unmarked_cons (by decide) _)

theorem playNamed_unmarked_iff (env : Surroundings) (soundName : Bytes) (rest : List Bytes) :
    (∀ text ∈ sfxReplies
        (Sfx.playNamed env.integer env.disk env.audio soundName rest).effects, Unmarked text) ↔
      ¬ ∃ filepath, ¬ Unmarked soundName ∧
        env.audio.findAudioFile env.disk soundName Sfx.soundDir = some filepath ∧ filepath ≠ [] ∧
        (env.audio.playSound env.disk filepath
          (Sfx.volumeOf env.integer rest)).result = some true := by
  fun_cases Sfx.playNamed env.integer env.disk env.audio soundName rest with
  | case1 hthrows => exact iff_of_true (List.forall_mem_nil _) (by simp [hthrows])
  | case2 hnone =>
      refine iff_of_true (unmarked_singleton (unmarked_cons (by decide) _)) ?_
      rintro ⟨filepath, -, hfind, hne, -⟩
      rw [hnone] at hfind
      exact hne (Option.some.inj hfind).symm
  | case3 filepath hfind hne =>
      refine (playAndReply_unmarked_iff env _ _ (unmarked_cons (by decide) _)).trans ?_
      simp [hfind, hne]

theorem sfxRun_unmarked_iff (env : Surroundings) (ctx : CommandContext) :
    (∀ text ∈ (sfxRun env ctx).replies, Unmarked text) ↔ ¬ PlaysCommand env ctx.args := by
  unfold sfxRun PlaysCommand
  dsimp only
  fun_cases Sfx.execute env.integer env.disk env.audio env.draw ctx.args with
  | case1 => exact iff_of_true (unmarked_singleton (unmarked_cons (by decide) _)) nofun
  | case2 first rest command hlist =>
      refine iff_of_true (List.forall_mem_nil _) ?_
      rintro ⟨_, _, _, ⟨⟩, hname, -⟩
      exact hname (show Unmarked command from hlist ▸ by decide)
  | case3 first rest command hlist =>
      refine iff_of_true (listSounds_unmarked _ _) ?_
      rintro ⟨_, _, _, ⟨⟩, hname, -⟩
      exact hname (show Unmarked command from hlist ▸ by decide)
  | case4 first rest command _ hrandom =>
      refine iff_of_true (playRandom_unmarked env rest) ?_
      rintro ⟨_, _, _, ⟨⟩, hname, -⟩
      exact hname (show Unmarked command from hrandom ▸ by decide)
  | case5 first rest command =>
      rw [playNamed_unmarked_iff]
      simp [command]

/-- **The scripts never say a command.**  Whatever the arguments and the user are,
and whatever the scripts that come with the bot get from elsewhere: the messages they
send do not start with an exclamation mark, except if `sfx.lua` is asked for a sound
whose name starts with one, and such a sound is there and is played.  Numerals that
`sfx.lua` reads are taken for whole numbers. -/
theorem shipped_unmarked_iff (script : Shipped) (env : Surroundings) (ctx : CommandContext) :
    (∀ text ∈ (script.run env ctx).replies, Unmarked text) ↔
      ¬ (script = .sfx ∧ PlaysCommand env ctx.args) := by
  cases script with
  | sfx => simpa [run] using sfxRun_unmarked_iff env ctx
  | hello =>
      refine iff_of_true ?_ nofun
      change ∀ text ∈ (Scripts.hello ctx).replies, Unmarked text
      unfold Scripts.hello
      split <;> exact unmarked_singleton (unmarked_cons (by decide) _)
  | dice =>
      refine iff_of_true ?_ nofun
      change ∀ text ∈ (Scripts.dice env.tonumber env.draw ctx).replies, Unmarked text
      unfold Scripts.dice
      dsimp only
      split
      · exact nofun
      · exact unmarked_singleton (unmarked_cons (by decide) _)
  | vipjoke =>
      refine iff_of_true ?_ nofun
      change ∀ text ∈ (Scripts.vipjoke env.draw).replies, Unmarked text
      unfold Scripts.vipjoke
      split
      · exact nofun
      · exact unmarked_singleton (unmarked_cons (by decide) _)
  | flip | modcmd | special =>
      exact iff_of_true (unmarked_singleton (unmarked_cons (by decide) _)) nofun

end Shipped

/-! ## The engine and the native commands -/

namespace Bot

variable (sol : Sol)

theorem executeLuaCommand_unmarked {script : ScriptRun}
    (h : ∀ text ∈ script.replies, Unmarked text) :
    ∀ text ∈ LuaCommandEngine.executeLuaCommand script, Unmarked text := by
  unfold LuaCommandEngine.executeLuaCommand
  split
  · exact h
  · exact List.forall_mem_append.mpr ⟨h, unmarked_singleton (unmarked_cons (by decide) _)⟩
  · exact List.forall_mem_append.mpr ⟨h, unmarked_singleton (unmarked_cons (by decide) _)⟩

theorem callHandler_unmarked {execute : Closure} {commandName : Bytes} {ctx : CommandContext}
    {called recorded : Int} {script : ScriptRun} (h : ∀ text ∈ script.replies, Unmarked text)
    (e : LuaCommandEngine) :
    ∀ text ∈ (e.callHandler execute commandName ctx called recorded script).2.replies,
      Unmarked text := by
  fun_cases LuaCommandEngine.callHandler execute commandName ctx called recorded script e with
  | case2 => exact List.forall_mem_nil _
  | case6 => exact executeLuaCommand_unmarked h
  | _ => exact unmarked_singleton (unmarked_cons (by decide) _)

theorem commands_unmarked (env : ChatEnv) (b : Bot) :
    ∀ text ∈ (b.commands env).replies, Unmarked text := by
  unfold commands
  split <;> exact unmarked_singleton (unmarked_cons (by decide) _)

/-- If the script is unmarked, so is everything that is said about a message. -/
theorem onMessage_unmarked {env : ChatEnv} (h : ∀ text ∈ env.script.replies, Unmarked text)
    (message : ChatMessage) (b : Bot) :
    ∀ text ∈ (b.onMessage sol env message).2.replies, Unmarked text := by
  rw [onMessage_eq]
  cases b.dispatch message with
  | none => exact nofun
  | some hc =>
      obtain ⟨handler, ctx⟩ := hc
      cases handler with
      | lua execute commandName => exact callHandler_unmarked h b.engine
      | reload =>
          exact List.forall_mem_cons.mpr ⟨unmarked_cons (by decide) _,
            unmarked_singleton (unmarked_cons (by decide) _)⟩
      | commands => exact commands_unmarked env b

end Bot

/-! ## The echo -/

namespace CommandParser

/-- An unmarked text is no command of a parser with the usual prefix. -/
theorem isCommand_of_unmarked {H : Type} {p : CommandParser H} (hp : p.mPrefix = bytes "!")
    {text : Bytes} (h : Unmarked text) : p.isCommand text = false := by
  have hbang : bytes "!" = [byte '!'] := rfl
  cases text with
  | nil => rfl
  | cons c text =>
      have hc : c ≠ byte '!' := by simpa [Unmarked] using h
      simp [isCommand, hp, hbang, List.isPrefixOf, hc.symm]

end CommandParser

namespace Bot

variable (sol : Sol)

/-- An unmarked message changes nothing. -/
theorem onMessage_of_unmarked {b : Bot} (hb : b.parser.mPrefix = bytes "!") {message : ChatMessage}
    (h : Unmarked message.text) (env : ChatEnv) : b.onMessage sol env message = (b, {}) := by
  rw [onMessage_eq]
  have hnone : b.dispatch message = none := by
    simp [dispatch, CommandParser.parseCommand, CommandParser.isCommand_of_unmarked hb h]
  rw [hnone]

theorem registerWithParser_mPrefix (fs : FileSystem) (t : Traversal Bytes Path)
    (e : LuaCommandEngine) (parser : CommandParser Handler) :
    (e.registerWithParser sol fs t parser).mPrefix = parser.mPrefix := by
  unfold LuaCommandEngine.registerWithParser
  split_ifs
  · rfl
  · generalize t.order e.commandFiles = entries
    induction entries generalizing parser with
    | nil => rfl
    | cons entry entries ih =>
        rw [List.foldl_cons, ih]
        split
        · rfl
        · exact CommandParser.registerCommand_mPrefix ..

theorem boot_mPrefix (fs : FileSystem) (listing : Option (List DirectoryEntry))
    (t : Traversal Bytes Path) : (boot sol fs listing t).parser.mPrefix = bytes "!" := by
  simp [boot, registerWithParser_mPrefix, CommandParser.new]

/-- The prefix stays what it is. -/
theorem onMessage_mPrefix (env : ChatEnv) (message : ChatMessage) (b : Bot) :
    (b.onMessage sol env message).1.parser.mPrefix = b.parser.mPrefix := by
  rw [onMessage_eq]
  cases b.dispatch message with
  | none => rfl
  | some hc =>
      obtain ⟨handler, ctx⟩ := hc
      cases handler with
      | lua execute commandName => rfl
      | commands => rfl
      | reload => exact registerWithParser_mPrefix ..

end Bot

namespace Program

variable (sol : Sol) (parse : Bytes → Option Json)

theorem run_mPrefix {p : Program} (hp : p.bot.parser.mPrefix = bytes "!") (es : List Event) :
    ((machine sol parse).run p es).bot.parser.mPrefix = bytes "!" := by
  refine Machine.run_preserves (I := fun p : Program ↦ p.bot.parser.mPrefix = bytes "!")
    (fun p ev h ↦ ?_) hp es
  have hdoes := step_does sol parse p ev
  generalize (machine sol parse).step p ev = r at hdoes ⊢
  obtain ⟨p', out⟩ := r
  cases hdoes with
  | message => exact (Bot.onMessage_mPrefix ..).trans h
  | nothing | window | process | undefined | reply | edit => exact h

/-- The script that a frame may invoke is unmarked. -/
def ScriptUnmarked : Event → Prop
  | .frame _ env => ∀ text ∈ env.script.replies, Unmarked text
  | _ => True

theorem replies_unmarked {p : Program} {es : List Event} (h : ∀ ev ∈ es, ScriptUnmarked ev) :
    ∀ text ∈ replies sol parse p es, Unmarked text := by
  induction es generalizing p with
  | nil => exact nofun
  | cons ev es ih =>
      rw [List.forall_mem_cons] at h
      rw [replies_cons, List.forall_mem_append]
      refine ⟨?_, ih h.2⟩
      have hdoes := step_does sol parse p ev
      generalize (machine sol parse).step p ev = r at hdoes ⊢
      obtain ⟨p', out⟩ := r
      cases hdoes with
      | message => exact Bot.onMessage_unmarked sol h.1 _ _
      | nothing | window | process | undefined | reply | edit => exact nofun

/-- The next frame is read: the program goes on, and has handed over all replies. -/
def Reads (p : Program) : Prop :=
  p.undefined = false ∧ p.window.service.crashed = false ∧ p.outgoing = []

instance (p : Program) : Decidable p.Reads := inferInstanceAs (Decidable (_ ∧ _))

/-- An unmarked message goes to the chat log, and nowhere else. -/
theorem step_of_unmarked {p : Program} (hp : p.bot.parser.mPrefix = bytes "!") {msg : Bytes}
    {message : ChatMessage} (hmsg : handleEventSubMessage parse true msg = .message message)
    (h : Unmarked message.text) (env : ChatEnv) :
    (machine sol parse).step p (.frame msg env) =
      (if p.Reads then { p with app := p.app.pushChatMessage message } else p, {}) := by
  unfold machine act onFrame
  dsimp only
  rw [hmsg]
  dsimp only
  rw [Bot.onMessage_of_unmarked sol hp h env]
  by_cases hreads : p.Reads
  · obtain ⟨hdefined, halive, hidle⟩ := hreads
    simp [hdefined, halive, hidle, Reads]
  · rw [if_neg hreads]
    split_ifs with hend hbusy
    · rfl
    · rfl
    · rw [Bool.or_eq_true, not_or] at hend
      exact absurd ⟨by simpa using hend.1, by simpa using hend.2, not_not.mp hbusy⟩ hreads

/-- **The bot does not react to itself.**  In every run of the program in which the
scripts are unmarked, from the start on: when a message that the program has posted,
and that was not typed into the window, comes back over the event socket, in the name
of whomever and with whatever badges, it is put into the queue for the chat log if it is
read, and nothing else happens at all. -/
theorem echo_ignored (config : ClientConfig) (fs : FileSystem)
    (listing : Option (List DirectoryEntry)) (t : Traversal Bytes Path) (es : List Event)
    (h : ∀ ev ∈ es, ScriptUnmarked ev) (msg : Bytes) (env : ChatEnv) (message : ChatMessage)
    (hmsg : handleEventSubMessage parse true msg = .message message)
    (hposted : message.text ∈ posted sol parse (start config (Bot.boot sol fs listing t)) es)
    (htyped : message.text ∉ typed sol parse (start config (Bot.boot sol fs listing t)) es) :
    let p := (machine sol parse).run (start config (Bot.boot sol fs listing t)) es
    (machine sol parse).step p (.frame msg env) =
      (if p.Reads then { p with app := p.app.pushChatMessage message } else p, {}) := by
  intro p
  have hsaid := (said_subperm sol parse config (Bot.boot sol fs listing t) es).subset
    (List.mem_append_left _ hposted)
  have hoffered := (List.mem_append.mp hsaid).resolve_left htyped
  have hreply := (offered_sublist sol parse config _ es).subset hoffered
  exact step_of_unmarked sol parse (run_mPrefix sol parse (Bot.boot_mPrefix ..) es) hmsg
    (replies_unmarked sol parse h _ hreply) env

/-- The frame of a chat message of the broadcaster. -/
def chatFrame (text : Bytes) : Json :=
  .object
    [(bytes "metadata", .object
        [(bytes "message_type", .string (bytes "notification")),
          (bytes "subscription_type", .string (bytes "channel.chat.message"))]),
      (bytes "payload", .object
        [(bytes "event", .object
          [(bytes "chatter_user_name", .string (bytes "alice")),
            (bytes "message", .object [(bytes "text", .string text)]),
            (bytes "color", .string []),
            (bytes "badges", .array [.object [(bytes "set_id", .string (bytes "broadcaster"))]])])])]

/-- The chat is connected, `!commands` is answered, and the answer is posted. -/
def answered : List Event :=
  ([.manageAuth, .press .login, .io (.resumeLogin 0 (.returned ⟨[], [], [], []⟩)),
      .io (.resumeLogin 0
        (.returned ⟨bytes "alice", bytes "42", bytes "token", bytes "client"⟩)), .manageAuth,
      .press .connect, .begin, .io (.resumeConnect 0 (.returned ())), .io .startRead,
      .io (.resumeConnect 0 (.returned ())), .io (.resumeConnect 0 (.returned ()))].map .window) ++
    [.frame (bytes "!commands") ⟨0, 0, {}, .stored, .stored⟩, .reply,
      .window (.io (.resumeSend 0 (.returned ())))]

/-- The echo of the answer. -/
def echoed : ChatMessage :=
  ⟨bytes "alice", bytes "No Lua commands loaded", [], [bytes "broadcaster"]⟩

theorem echo_ignored_answered :
    let p := (machine Sol.checked (some ∘ chatFrame)).run
      (start {} (Bot.boot Sol.checked (fun _ ↦ none) none .stored)) answered
    (machine Sol.checked (some ∘ chatFrame)).step p
        (.frame (bytes "No Lua commands loaded") ⟨1, 1, {}, .stored, .stored⟩) =
      (if p.Reads then { p with app := p.app.pushChatMessage echoed } else p, {}) := by
  refine echo_ignored Sol.checked (some ∘ chatFrame) {} (fun _ ↦ none) none .stored answered ?_
    (bytes "No Lua commands loaded") ⟨1, 1, {}, .stored, .stored⟩ echoed ?_ ?_ ?_
  · simp [answered, ScriptUnmarked]
  · rfl
  · decide
  · decide

end Program

end Seraphbot
