import Seraphbot.App.Bot
import Seraphbot.App.Chat
import Seraphbot.Lua.Permissions
import Seraphbot.Twitch.EventSub
import Seraphbot.Ui.Window

/-!
# The program

The parts put together as `Application` does it: a frame from the event socket
becomes a chat message, the message callback pushes it onto the queue for the chat log
and hands it to the parser, a command replies through `TwitchService::sendMessage`, and
the window sends what is typed into it through the same function.

The callback runs on the coroutine that reads the socket, so the next frame waits
until all replies of a command have been handed over; everything else goes on in the
meantime.

* What the program posts to the chat was typed into the window or is a reply to a
  command, and nothing is posted more often than it was typed or replied
  (`posted_subperm`).
* A script is only ever invoked by a frame of somebody who may use the command
  (`along_authorised`).
-/

namespace Seraphbot

open Twitch EventSub

/-- The window with the service behind it, the messages it shows, and the bot. -/
structure Program where
  window : Window
  app : AppState := {}
  bot : Bot
  /-- The replies that have not been handed over yet. -/
  outgoing : List Bytes := []
  /-- A badge without a `set_id` was looked into. -/
  undefined : Bool := false

namespace Program

inductive Event where
  | window (ev : Window.Event)
  /-- The window moves the queue to the chat log. -/
  | process
  /-- A frame has been read. -/
  | frame (msg : Bytes) (env : ChatEnv)
  /-- The next reply is handed over. -/
  | reply
  /-- Command files are edited, created or deleted. -/
  | edit (fs : FileSystem)

/-- What happens on the way: to the window, and in the chat. -/
structure Emission where
  window : List Window.Event := []
  output : Output := {}

/-- Messages are only sent by the window itself and by the replies. -/
def isReply : Window.Event → Bool
  | .io (.sendMessage _) => true
  | _ => false

variable (sol : Sol) (parse : Bytes → Option Json)

/-- The rest of the program goes by way of the window. -/
def onWindow (ev : Window.Event) (p : Program) : Program × Emission :=
  ({ p with window := (Window.machine.step p.window ev).1 }, { window := [ev] })

/-- A frame comes to the message callback, or it does not. -/
def onFrame (msg : Bytes) (env : ChatEnv) (p : Program) : Program × Emission :=
  match handleEventSubMessage parse true msg with
  | .dropped => (p, {})
  | .undefined => ({ p with undefined := true }, {})
  | .message message =>
      let result := p.bot.onMessage sol env message
      ({ p with
          app := p.app.pushChatMessage message
          bot := result.1
          outgoing := result.2.replies }, { output := result.2 })

def act (p : Program) : Event → Program × Emission
  | .window ev => if isReply ev then (p, {}) else p.onWindow ev
  | .process => ({ p with app := p.app.processPendingMessages }, {})
  | .frame msg env => if p.outgoing ≠ [] then (p, {}) else p.onFrame sol parse msg env
  | .reply =>
      match p.outgoing with
      | [] => (p, {})
      | text :: rest => { p with outgoing := rest }.onWindow (.io (.sendMessage text))
  | .edit fs => ({ p with bot := { p.bot with fs } }, {})

/-- The program, in any interleaving of its threads. -/
def machine : Machine Program Event Emission where
  step p ev := if p.undefined || p.window.service.crashed then (p, {}) else p.act sol parse ev

/-! ## The window in the program -/

/-- What a run does to the window. -/
def windowEvents (p : Program) (es : List Event) : List Window.Event :=
  ((machine sol parse).trace p es).flatMap Emission.window

/-- The replies of a run. -/
def replies (p : Program) (es : List Event) : List Bytes :=
  ((machine sol parse).trace p es).flatMap (·.output.replies)

/-- What a step can do, and what it emits. -/
inductive Does (p : Program) : Event → Program → Emission → Prop where
  | nothing {ev : Event} : Does p ev p {}
  | window {ev : Window.Event} (hev : isReply ev = false) :
      Does p (.window ev) (p.onWindow ev).1 { window := [ev] }
  | process : Does p .process { p with app := p.app.processPendingMessages } {}
  | undefined {msg : Bytes} {env : ChatEnv} :
      Does p (.frame msg env) { p with undefined := true } {}
  | message {msg : Bytes} {env : ChatEnv} {message : ChatMessage} (hidle : p.outgoing = [])
      (hmsg : handleEventSubMessage parse true msg = .message message) :
      Does p (.frame msg env)
        { p with
          app := p.app.pushChatMessage message
          bot := (p.bot.onMessage sol env message).1
          outgoing := (p.bot.onMessage sol env message).2.replies }
        { output := (p.bot.onMessage sol env message).2 }
  | reply {text : Bytes} {rest : List Bytes} (hout : p.outgoing = text :: rest) :
      Does p .reply ({ p with outgoing := rest }.onWindow (.io (.sendMessage text))).1
        { window := [.io (.sendMessage text)] }
  | edit {fs : FileSystem} : Does p (.edit fs) { p with bot := { p.bot with fs } } {}

theorem act_does (p : Program) (ev : Event) :
    Does sol parse p ev (p.act sol parse ev).1 (p.act sol parse ev).2 := by
  fun_cases act sol parse p ev with
  | case1 => exact .nothing
  | case2 ev hev => exact .window (by simpa using hev)
  | case3 => exact .process
  | case4 => exact .nothing
  | case5 msg env hidle =>
      fun_cases onFrame sol parse msg env p with
      | case1 => exact .nothing
      | case2 => exact .undefined
      | case3 message hmsg => exact .message (not_not.mp hidle) hmsg
  | case6 => exact .nothing
  | case7 text rest hout => exact .reply hout
  | case8 fs => exact .edit

theorem step_does (p : Program) (ev : Event) :
    Does sol parse p ev ((machine sol parse).step p ev).1 ((machine sol parse).step p ev).2 := by
  unfold machine
  dsimp only
  split_ifs
  · exact .nothing
  · exact act_does sol parse p ev

theorem step_window (p : Program) (ev : Event) :
    ((machine sol parse).step p ev).1.window =
      Window.machine.run p.window ((machine sol parse).step p ev).2.window := by
  have hdoes := step_does sol parse p ev
  generalize (machine sol parse).step p ev = r at hdoes ⊢
  obtain ⟨p', out⟩ := r
  cases hdoes <;> rfl

@[simp] theorem windowEvents_cons (p : Program) (ev : Event) (es : List Event) :
    windowEvents sol parse p (ev :: es) =
      ((machine sol parse).step p ev).2.window ++
        windowEvents sol parse ((machine sol parse).step p ev).1 es := by
  simp [windowEvents]

@[simp] theorem replies_cons (p : Program) (ev : Event) (es : List Event) :
    replies sol parse p (ev :: es) =
      ((machine sol parse).step p ev).2.output.replies ++
        replies sol parse ((machine sol parse).step p ev).1 es := by
  simp [replies]

/-- A run of the program is a run of the window. -/
theorem run_window (p : Program) (es : List Event) :
    ((machine sol parse).run p es).window =
      Window.machine.run p.window (windowEvents sol parse p es) := by
  induction es generalizing p with
  | nil => rfl
  | cons ev es ih =>
      rw [Machine.run_cons, ih, windowEvents_cons, Machine.run_append, step_window]

/-! ## What is said in the chat -/

/-- The texts that events of the window hand over. -/
def offered (ws : List Window.Event) : List Bytes := ws.filterMap Window.handedOver

theorem handedOver_of_not_isReply {ev : Window.Event} (h : isReply ev = false) :
    Window.handedOver ev = none := by
  unfold isReply at h
  unfold Window.handedOver
  split
  · simp at h
  · rfl

/-- Replies are handed over one after the other. -/
theorem step_outgoing (p : Program) (ev : Event) :
    p.outgoing ++ ((machine sol parse).step p ev).2.output.replies =
      offered ((machine sol parse).step p ev).2.window ++
        ((machine sol parse).step p ev).1.outgoing := by
  have hdoes := step_does sol parse p ev
  generalize (machine sol parse).step p ev = r at hdoes ⊢
  obtain ⟨p', out⟩ := r
  cases hdoes with
  | nothing | process | undefined | edit => simp [offered]
  | window hev => simp [offered, handedOver_of_not_isReply hev]
  | message hidle => simp [offered, hidle]
  | reply hout => simp [offered, Window.handedOver, hout]

theorem outgoing_run (p : Program) (es : List Event) :
    p.outgoing ++ replies sol parse p es =
      offered (windowEvents sol parse p es) ++ ((machine sol parse).run p es).outgoing := by
  induction es generalizing p with
  | nil => simp [replies, windowEvents, offered]
  | cons ev es ih =>
      rw [replies_cons, ← List.append_assoc, step_outgoing, List.append_assoc, ih,
        windowEvents_cons, Machine.run_cons, offered, offered, offered, List.filterMap_append,
        List.append_assoc]

/-- The program at the start. -/
def start (config : ClientConfig) (bot : Bot) : Program := { window := .start config, bot }

/-- What a run posts to the chat. -/
def posted (p : Program) (es : List Event) : List Bytes :=
  TwitchService.posted (TwitchService.machine.trace p.window.service
    (p.window.calls (windowEvents sol parse p es)))

/-- What is typed into the window and submitted in a run. -/
def typed (p : Program) (es : List Event) : List Bytes :=
  p.window.typed (windowEvents sol parse p es)

theorem said_subperm (config : ClientConfig) (bot : Bot) (es : List Event) :
    (posted sol parse (start config bot) es ++
        ((machine sol parse).run (start config bot) es).window.service.waiting).Subperm
      (typed sol parse (start config bot) es ++
        offered (windowEvents sol parse (start config bot) es)) := by
  have hperm := Machine.perm_of_step TwitchService.step_conserves { config }
    ((Window.start config).calls (windowEvents sol parse (start config bot) es))
  rw [run_window, Window.run_service]
  exact hperm.subperm.trans
    ((Window.start config).taken_subperm (windowEvents sol parse (start config bot) es))

theorem offered_sublist (config : ClientConfig) (bot : Bot) (es : List Event) :
    (offered (windowEvents sol parse (start config bot) es)).Sublist
      (replies sol parse (start config bot) es) := by
  have hqueue : replies sol parse (start config bot) es = _ :=
    outgoing_run sol parse (start config bot) es
  rw [hqueue]
  exact List.sublist_append_left _ _

/-- **The program says nothing on its own account.**  In every run, with any frames
from the event socket, any scripts and any use of the window: what has been posted to
the chat or is about to be was typed into the window or is a reply to a command, and
each text is posted at most as often as it was typed and replied. -/
theorem posted_subperm (config : ClientConfig) (bot : Bot) (es : List Event) :
    (posted sol parse (start config bot) es ++
        ((machine sol parse).run (start config bot) es).window.service.waiting).Subperm
      (typed sol parse (start config bot) es ++ replies sol parse (start config bot) es) :=
  (said_subperm sol parse config bot es).trans
    ((offered_sublist sol parse config bot es).append_left _).subperm

/-! ## Who may do what -/

theorem standsFor_of_handled {parse : Bytes → Option Json} {msg : Bytes} {message : ChatMessage}
    (h : handleEventSubMessage parse true msg = .message message) :
    standsFor parse msg = some message := by
  by_cases hfatal : ∃ raw, parse msg = some raw ∧ Fatal raw
  · obtain ⟨raw, hraw, hfatal⟩ := hfatal
    rw [handleEventSubMessage_of_fatal hraw hfatal] at h
    cases h
  · have hsafe : ∀ raw, parse msg = some raw → ¬ Fatal raw := fun raw hraw hf ↦
      hfatal ⟨raw, hraw, hf⟩
    rw [handleEventSubMessage_of_not_fatal hsafe] at h
    cases hs : standsFor parse msg with
    | none => simp [hs, Handled.ofOption] at h
    | some m => simpa [hs, Handled.ofOption] using h

/-- An invocation in the name of somebody who may use the command: the message is
dispatched to it, the command is enabled, and the sender is on the list of its users
or has the rank that it asks for. -/
structure Authorised (b : Bot) (message : ChatMessage) (inv : Invocation) : Prop where
  user : inv.user = message.user
  dispatched : ∃ ctx, b.dispatch message = some (.lua inv.execute inv.commandName, ctx)
  permitted : ∃ m, b.engine.commandMetadata.lookup inv.commandName = some m ∧ m.enabled = true ∧
    (message.user ∈ m.allowedUsers ∨ m.strictness ≤ rank message.badges)

/-- The handler of a Lua command invokes the script only after its checks. -/
theorem callHandler_permitted {execute : Closure} {commandName : Bytes} {ctx : CommandContext}
    {called recorded : Int} {script : ScriptRun} {e : LuaCommandEngine} {inv : Invocation}
    (h : (e.callHandler execute commandName ctx called recorded script).2.invoked = some inv) :
    inv = ⟨commandName, ctx.message.user, execute, called, recorded⟩ ∧
      ∃ m, e.commandMetadata.lookup commandName = some m ∧ m.enabled = true ∧
        LuaCommandEngine.hasPermission ctx m = true := by
  revert h
  fun_cases LuaCommandEngine.callHandler execute commandName ctx called recorded script e with
  | case6 m hm henabled hperm =>
      rintro ⟨⟩
      exact ⟨rfl, m, hm, by simpa using henabled, by simpa using hperm⟩
  | _ => exact nofun

theorem dispatch_message {b : Bot} {message : ChatMessage} {h : Handler} {ctx : CommandContext}
    (hd : b.dispatch message = some (h, ctx)) : ctx.message = message := by
  unfold Bot.dispatch at hd
  obtain ⟨command, args⟩ := b.parser.parseCommand message.text
  dsimp only at hd
  split_ifs at hd
  obtain ⟨h', -, heq⟩ := Option.map_eq_some_iff.mp hd
  rw [← (Prod.mk.inj heq).2]

theorem onMessage_authorised {b : Bot} {env : ChatEnv} {message : ChatMessage} {inv : Invocation}
    (h : (b.onMessage sol env message).2.invoked = some inv) : Authorised b message inv := by
  rw [Bot.onMessage_eq] at h
  cases hd : b.dispatch message with
  | none => simp [hd] at h
  | some hc =>
      obtain ⟨handler, ctx⟩ := hc
      have hmessage := dispatch_message hd
      simp only [hd] at h
      cases handler with
      | reload => cases h
      | commands => simp [Bot.call, Bot.commands_invoked] at h
      | lua execute commandName =>
          obtain ⟨rfl, m, hm, henabled, hperm⟩ := callHandler_permitted h
          rw [LuaCommandEngine.hasPermission_iff, hmessage] at hperm
          exact ⟨congrArg ChatMessage.user hmessage, ⟨ctx, hd⟩, m, hm, henabled, hperm⟩

/-- **Scripts are invoked by frames of those who may use them.**  In every run, from
any state of the program: whenever a script is invoked, it is because a frame has been
read that stands for a chat message, the message is dispatched to the command, the
command is enabled, and the user of that message is on the list of its users or has the
rank that the command asks for, by the badges of the message.  User and badges are read
from the frame; a message that the system sends has the user `System`. -/
theorem along_authorised (p : Program) (es : List Event) :
    (machine sol parse).Along (fun p ev ↦
        ∀ inv, ((machine sol parse).step p ev).2.output.invoked = some inv →
          ∃ msg env message, ev = .frame msg env ∧ standsFor parse msg = some message ∧
            Authorised p.bot message inv) p es := by
  refine Machine.along_of_step (fun p ev inv hinv ↦ ?_) p es
  have hdoes := step_does sol parse p ev
  generalize (machine sol parse).step p ev = r at hdoes hinv
  obtain ⟨p', out⟩ := r
  cases hdoes with
  | @message msg env message _ hmsg =>
      exact ⟨msg, env, message, rfl, standsFor_of_handled hmsg, onMessage_authorised sol hinv⟩
  | nothing | window | process | undefined | reply | edit => cases hinv

end Program

end Seraphbot
