import Seraphbot.Core.Text
import Seraphbot.Data.Machine

/-!
# The Twitch service

The model of `twitch_service.cpp`: a state, three pointers to services that exist
only while there is a chat connection, and the coroutines that are in flight.

A coroutine runs on the thread of the `io_context` from one `co_await` to the
next, and anything can happen while it is suspended: the user interface calls
`startLogin`, `sendMessage` and `disconnect` from its own thread.  The atomic
steps are therefore these calls and the segments of the coroutines.  Every
coroutine is kept with the place it is suspended at, and its event says what the
awaited operation came to.

* `startLogin` spawns a login, which awaits `loginAsync` and then
  `fetchUserInfoAsync`.
* `connectToChat` awaits `connect`, a timer and `requestSubscription`, and spawns
  the read loop on the way.  The seven further subscriptions are spawned, not
  awaited, and asking for the executor does not suspend.
* `sendMessage` spawns a coroutine that sends the message.

Using a pointer that is null is undefined behaviour.  The model ends there:
nothing happens to a service that has `crashed`.
-/

namespace Seraphbot

namespace Twitch

/-- `TwitchService::State`. -/
inductive State where
  | disconnected
  | loggingIn
  | loggedIn
  | connectingToChat
  | chatConnected
  | error
deriving DecidableEq

/-- The fields of `tw::ClientConfig` that the login fills in. -/
structure ClientConfig where
  accessToken : Bytes := []
  broadcasterId : Bytes := []
  clientId : Bytes := []
deriving DecidableEq

/-- `tw::EventSub`, with its copy of the configuration. -/
structure EventSub where
  cfg : ClientConfig
deriving DecidableEq

/-- `tw::chat::Read`, which shares the event subscription. -/
structure Read where
  eventsub : EventSub
deriving DecidableEq

/-- `tw::chat::Send`, with its copy of the configuration. -/
structure Send where
  cfg : ClientConfig
deriving DecidableEq

/-! ## Coroutines -/

/-- What an awaited operation came to. -/
inductive Resumption (α : Type) where
  | returned (a : α)
  | threw (what : Bytes)

/-- Where a login is suspended. -/
inductive LoginPc where
  | loginAsync
  | fetchUserInfoAsync
deriving DecidableEq

/-- Where a call of `connectToChat` is suspended. -/
inductive ConnectPc where
  | connect
  | timer
  | requestSubscription
deriving DecidableEq

/-- Where a coroutine of `sendMessage` is: it has not started yet, or waits for
the answer. -/
inductive SendPc where
  | spawned (message : Bytes)
  | awaiting
deriving DecidableEq

/-- What the last segment of a login finds: the user that it has asked for, and the
token and the client id that `Auth` holds by then.  There is one `Auth` for all
logins, so these two can be those of another one; `SharedAuth` says what they are. -/
structure LoginAnswer where
  displayName : Bytes
  id : Bytes
  accessToken : Bytes
  clientId : Bytes

/-- What the service does to its surroundings. -/
inductive Effect where
  | status (text : Bytes)
  | connect (cfg : ClientConfig)
  | subscribe (cfg : ClientConfig) (type version : Bytes)
  | message (cfg : ClientConfig) (text senderId : Bytes)
deriving DecidableEq

end Twitch

open Twitch

/-- `sbot::core::TwitchService`, with the coroutines in flight. -/
structure TwitchService where
  state : State := .disconnected
  eventsub : Option EventSub := none
  chatRead : Option Read := none
  chatSend : Option Send := none
  config : ClientConfig := {}
  currentUser : Bytes := []
  logins : List LoginPc := []
  connects : List ConnectPc := []
  /-- The read loops that were spawned and have not started yet. -/
  reads : Nat := 0
  sends : List SendPc := []
  /-- A null pointer was dereferenced. -/
  crashed : Bool := false

namespace TwitchService

/-- Enter a state and report it. -/
def setState (state : State) (status : Bytes) (s : TwitchService) : TwitchService × List Effect :=
  ({ s with state }, if status = [] then [] else [.status status])

/-- The end of the model. -/
def crash (s : TwitchService) : TwitchService × List Effect := ({ s with crashed := true }, [])

/-! ## Logging in -/

/-- Start a login, unless there is a connection already. -/
def startLogin (s : TwitchService) : TwitchService × List Effect :=
  if s.state ≠ .disconnected then (s, [])
  else setState .loggingIn (bytes "Starting login process...")
    { s with logins := s.logins ++ [.loginAsync] }

/-- Resume the `i`-th login. -/
def resumeLogin (i : Nat) (r : Resumption LoginAnswer) (s : TwitchService) :
    TwitchService × List Effect :=
  match s.logins[i]?, r with
  | none, _ => (s, [])
  | some _, .threw what =>
      setState .error (bytes "Login failed: " ++ what) { s with logins := s.logins.eraseIdx i }
  | some .loginAsync, .returned _ =>
      ({ s with logins := s.logins.set i .fetchUserInfoAsync }, [])
  | some .fetchUserInfoAsync, .returned answer =>
      setState .loggedIn (bytes "Logged in as " ++ answer.displayName)
        { s with
          currentUser := answer.displayName
          config := ⟨answer.accessToken, answer.id, answer.clientId⟩
          logins := s.logins.eraseIdx i }

/-! ## Connecting to the chat -/

/-- Make the three services, with the configuration as it is now. -/
def setupChatServices (s : TwitchService) : TwitchService :=
  { s with
    eventsub := some ⟨s.config⟩
    chatRead := some ⟨⟨s.config⟩⟩
    chatSend := some ⟨s.config⟩ }

/-- The first segment of `connectToChat`: nothing unless logged in, and else up
to the call of `connect`. -/
def connectToChat (s : TwitchService) : TwitchService × List Effect :=
  if s.state ≠ .loggedIn then (s, [])
  else
    let begun := setState .connectingToChat (bytes "Connecting to chat...") s
    let ready := setupChatServices begun.1
    ({ ready with connects := ready.connects ++ [.connect] },
      begun.2 ++ [.connect ready.config])

/-- What is subscribed to besides the chat messages. -/
def subscriptions : List (Bytes × Bytes) :=
  [(bytes "channel.update", bytes "2"),
   (bytes "channel.ad_break.begin", bytes "1"),
   (bytes "channel.chat.clear", bytes "1"),
   (bytes "channel.chat.clear_user_messages", bytes "1"),
   (bytes "channel.chat.message_delete", bytes "1"),
   (bytes "channel.chat.notification", bytes "1"),
   (bytes "stream.online", bytes "1")]

/-- Resume the `i`-th call of `connectToChat`.  After each `co_await` it uses a
service through the pointer that is there by then. -/
def resumeConnect (i : Nat) (r : Resumption Unit) (s : TwitchService) :
    TwitchService × List Effect :=
  match s.connects[i]?, r with
  | none, _ => (s, [])
  | some _, .threw what =>
      setState .error (bytes "Chat connection failed: " ++ what)
        { s with connects := s.connects.eraseIdx i }
  | some .connect, .returned _ =>
      match s.eventsub with
      | none => s.crash
      | some _ => ({ s with reads := s.reads + 1, connects := s.connects.set i .timer }, [])
  | some .timer, .returned _ =>
      match s.chatRead with
      | none => s.crash
      | some read =>
          ({ s with connects := s.connects.set i .requestSubscription },
            [.subscribe read.eventsub.cfg (bytes "channel.chat.message") (bytes "1")])
  | some .requestSubscription, .returned _ =>
      match s.eventsub with
      | none => s.crash
      | some eventsub =>
          let done := setState .chatConnected (bytes "Connected to chat")
            { s with connects := s.connects.eraseIdx i }
          (done.1, subscriptions.map (fun sub ↦ .subscribe eventsub.cfg sub.1 sub.2) ++ done.2)

/-- A spawned read loop starts.  From then on it only uses the object it was
started on. -/
def startRead (s : TwitchService) : TwitchService × List Effect :=
  match s.reads with
  | 0 => (s, [])
  | n + 1 =>
      match s.eventsub with
      | none => s.crash
      | some _ => ({ s with reads := n }, [])

/-! ## Sending and disconnecting -/

/-- Spawn a coroutine that sends a message, if the chat is connected. -/
def sendMessage (message : Bytes) (s : TwitchService) : TwitchService × List Effect :=
  if s.state ≠ .chatConnected then (s, [])
  else ({ s with sends := s.sends ++ [.spawned message] }, [])

/-- Start or resume the `i`-th coroutine that sends a message. -/
def resumeSend (i : Nat) (r : Resumption Unit) (s : TwitchService) :
    TwitchService × List Effect :=
  match s.sends[i]?, r with
  | none, _ => (s, [])
  | some (.spawned message), _ =>
      match s.chatSend with
      | none => s.crash
      | some send =>
          ({ s with sends := s.sends.set i .awaiting },
            [.message send.cfg message s.config.broadcasterId])
  | some .awaiting, .returned _ => ({ s with sends := s.sends.eraseIdx i }, [])
  | some .awaiting, .threw what =>
      ({ s with sends := s.sends.eraseIdx i },
        [.status (bytes "Failed to send message: " ++ what)])

/-- Give the connection up, whatever is in flight. -/
def disconnect (s : TwitchService) : TwitchService × List Effect :=
  let done := setState .disconnected (bytes "Disconnected") s
  ({ done.1 with eventsub := none, chatRead := none, chatSend := none, currentUser := [] },
    done.2)

/-! ## Steps -/

/-- The atomic steps. -/
inductive Event where
  | startLogin
  | resumeLogin (i : Nat) (r : Resumption LoginAnswer)
  | connectToChat
  | resumeConnect (i : Nat) (r : Resumption Unit)
  | startRead
  | sendMessage (message : Bytes)
  | resumeSend (i : Nat) (r : Resumption Unit)
  | disconnect

/-- The step of a service that has not crashed. -/
def act (s : TwitchService) : Event → TwitchService × List Effect
  | .startLogin => s.startLogin
  | .resumeLogin i r => s.resumeLogin i r
  | .connectToChat => s.connectToChat
  | .resumeConnect i r => s.resumeConnect i r
  | .startRead => s.startRead
  | .sendMessage message => s.sendMessage message
  | .resumeSend i r => s.resumeSend i r
  | .disconnect => s.disconnect

/-- The service as a machine. -/
def machine : Machine TwitchService Event (List Effect) where
  step s ev := if s.crashed then (s, []) else s.act ev

theorem step_of_not_crashed {s : TwitchService} (hs : s.crashed = false) (ev : Event) :
    machine.step s ev = s.act ev := by
  simp [machine, hs]

/-- A login that goes well. -/
def loggedIn : List Event :=
  [.startLogin, .resumeLogin 0 (.returned ⟨[], [], [], []⟩),
    .resumeLogin 0 (.returned ⟨bytes "alice", bytes "42", bytes "token", bytes "client"⟩)]

end TwitchService

end Seraphbot
