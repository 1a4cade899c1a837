import Seraphbot.Twitch.Login
import Seraphbot.Twitch.Requests

/-!
# Sessions from end to end

The model of `EventSub::connect`, with `ConnectionManager::makeSslStreamAsync`, and of
what `EventSub::subscribe` makes of the answer.  The socket is opened in a row of steps,
each of which may throw, and the first message on it names the session that all
subscriptions are for.

A visit to the chat is a login, the connection and the first subscription, each with the
answers that it gets.  Visits follow one another on one service and one `Auth`, and every
one begins with a disconnect.  `visits_seen` says what the user and Twitch see of them:
each visit is what its own answers make of it.
-/

namespace Seraphbot

open Twitch

/-! ## The socket -/

/-- What the surroundings contribute to `EventSub::connect`: how the awaited operations
end, with the text of the exception if they throw. -/
structure Handshake where
  resolve : Except Bytes Unit
  connect : Except Bytes Unit
  /-- Does `SSL_set_tlsext_host_name` succeed? -/
  sni : Bool
  tls : Except Bytes Unit
  websocket : Except Bytes Unit
  welcome : Except Bytes Bytes
  /-- The text of the exception if the welcome cannot be parsed. -/
  parseError : Bytes := []

/-- What the surroundings contribute to `EventSub::subscribe`. -/
structure Acknowledgement where
  response : Except Bytes Bytes
  /-- The text of the exception if the response cannot be parsed. -/
  parseError : Bytes := []
  /-- The wait for the subscription to become active. -/
  wait : Except Bytes Unit

/-- `ConnectionManager::makeSslStreamAsync`. -/
def makeSslStreamAsync (h : Handshake) : Except Bytes Unit := do
  h.resolve
  h.connect
  if h.sni then return () else throw (bytes "Failed to set SNI")

namespace Twitch.EventSub

variable (parse : Bytes → Option Json)

/-- `at("payload").at("session").at("id").get<std::string>()`. -/
def sessionIn (jsn : Json) : Option Bytes :=
  ((jsn.atKey "payload").bind (·.atKey "session")).bind (Json.stringAt "id")

/-- The session that is stored in the end. -/
def connect (h : Handshake) : Except Bytes Bytes := do
  makeSslStreamAsync h
  h.tls
  h.websocket
  let welcome ← h.welcome
  match parse welcome with
  | none => throw h.parseError
  | some jsn =>
      match sessionIn jsn with
      | none => throw (bytes "Failed to extract session.id from welcome message")
      | some sessionId => return sessionId

/-- `subscribe`, from the response on. -/
def subscribed (a : Acknowledgement) : Except Bytes Unit := do
  let resp ← a.response
  match parse resp with
  | none => throw a.parseError
  | some subResponse =>
      if subResponse.contains "error" then throw (bytes "EventSub subscription failed")
      else a.wait

end Twitch.EventSub

/-! ## Visits -/

/-- What the surroundings contribute to a visit. -/
structure Visit where
  login : TwitchService.Attempt
  handshake : Handshake
  /-- The wait between the socket and the subscription. -/
  timer : Except Bytes Unit
  acknowledgement : Acknowledgement

/-- What is seen of a visit from outside. -/
structure Seen where
  statuses : List Bytes
  requests : List Request

namespace TwitchService

variable (conv : Conversions) (parse : Bytes → Option Json) (dump : Json → Bytes)

def resumption : Except Bytes Unit → Resumption Unit
  | .ok () => .returned ()
  | .error what => .threw what

/-- `connectToChat`, up to the end of the coroutine. -/
def connecting (v : Visit) : List Event :=
  .connectToChat ::
    match EventSub.connect parse v.handshake with
    | .error what => [.resumeConnect 0 (.threw what)]
    | .ok _ =>
        [.resumeConnect 0 (.returned ()), .startRead] ++
          match v.timer with
          | .error what => [.resumeConnect 0 (.threw what)]
          | .ok () =>
              [.resumeConnect 0 (.returned ()),
                .resumeConnect 0 (resumption (EventSub.subscribed parse v.acknowledgement))]

/-- The session of a visit, which is empty unless one was named. -/
def sessionOf (v : Visit) : Bytes := (EventSub.connect parse v.handshake).toOption.getD []

/-- The text of a status. -/
def statusText : Effect → Option Bytes
  | .status text => some text
  | _ => none

/-- Visits one after the other. -/
def visits : Machine (TwitchService × Auth) Visit Seen where
  step sa v :=
    let (a, rs) := resumptions conv parse v.login sa.2
    let events := .disconnect :: .startLogin :: rs.map (.resumeLogin 0) ++ connecting parse v
    let effects := (machine.trace sa.1 events).flatten
    ((machine.run sa.1 events, a),
      { statuses := effects.filterMap statusText
        requests := effects.filterMap (wire dump (sessionOf parse v)) })

/-! ## What a visit should be -/

/-- How the connection of a visit ends: with the session, or with the text of an
exception. -/
def connection (v : Visit) : Except Bytes Bytes := do
  let sessionId ← EventSub.connect parse v.handshake
  v.timer
  EventSub.subscribed parse v.acknowledgement
  return sessionId

/-- The status that the connection ends with. -/
def lastStatus (v : Visit) : Bytes :=
  match connection parse v with
  | .ok _ => bytes "Connected to chat"
  | .error what => bytes "Chat connection failed: " ++ what

/-- The subscription to the chat. -/
def chatSubscription : Bytes × Bytes := (bytes "channel.chat.message", bytes "1")

/-- The subscriptions that are asked for in a visit with a login. -/
def asked (v : Visit) : List (Bytes × Bytes) :=
  match EventSub.connect parse v.handshake, v.timer with
  | .ok _, .ok () =>
      chatSubscription ::
        if (EventSub.subscribed parse v.acknowledgement).toBool then subscriptions else []
  | _, _ => []

/-- What should be seen of a visit. -/
def expected (v : Visit) : Seen :=
  let begun := [bytes "Disconnected", bytes "Starting login process..."]
  match outcome conv parse v.login with
  | none => { statuses := begun ++ [bytes "Login failed: " ++ v.login.what], requests := [] }
  | some answer =>
      { statuses := begun ++
          [bytes "Logged in as " ++ answer.displayName, bytes "Connecting to chat...",
            lastStatus parse v]
        requests := (asked parse v).map fun sub ↦
          EventSub.subscribe dump (sessionOf parse v) (credentials answer) sub.1 sub.2 }

/-- The state that a visit should end in. -/
def endState (v : Visit) : State :=
  if (outcome conv parse v.login).isSome ∧ (connection parse v).toBool then .chatConnected
  else .error

/-! ## The login -/

/-- No coroutine of a login or of a connection is in flight. -/
structure Quiescent (s : TwitchService) : Prop where
  crashed : s.crashed = false
  logins : s.logins = []
  connects : s.connects = []
  reads : s.reads = 0

theorem bytes_eq_nil_iff {s : String} : bytes s = [] ↔ s = "" := by
  simp [bytes]

/-- The service after a login. -/
def afterLogin (answer : LoginAnswer) (s : TwitchService) : TwitchService :=
  { s with
    state := .loggedIn, eventsub := none, chatRead := none, chatSend := none
    currentUser := answer.displayName, config := credentials answer, logins := [] }

/-- The service after a login that has failed. -/
def afterFailure (s : TwitchService) : TwitchService :=
  { s with
    state := .error, eventsub := none, chatRead := none, chatSend := none
    currentUser := [], logins := [] }

section

variable {s : TwitchService}

theorem run_login (h : Quiescent s) (answer : LoginAnswer) :
    let es := .disconnect :: .startLogin ::
      [.returned ⟨[], [], [], []⟩, .returned answer].map (.resumeLogin 0)
    machine.run s es = afterLogin answer s ∧
      (machine.trace s es).flatten =
        [.status (bytes "Disconnected"), .status (bytes "Starting login process..."),
          .status (bytes "Logged in as " ++ answer.displayName)] := by
  simp [machine, act, disconnect, startLogin, resumeLogin, setState, h.crashed, h.logins,
    afterLogin, credentials, bytes_eq_nil_iff]

theorem run_failed (h : Quiescent s) {rs : List (Resumption LoginAnswer)} {what : Bytes}
    (hrs : rs = [.threw what] ∨ rs = [.returned ⟨[], [], [], []⟩, .threw what]) :
    let es := .disconnect :: .startLogin :: rs.map (.resumeLogin 0)
    machine.run s es = afterFailure s ∧
      (machine.trace s es).flatten =
        [.status (bytes "Disconnected"), .status (bytes "Starting login process..."),
          .status (bytes "Login failed: " ++ what)] := by
  rcases hrs with rfl | rfl <;>
    simp [machine, act, disconnect, startLogin, resumeLogin, setState, h.crashed, h.logins,
      afterFailure, bytes_eq_nil_iff]

end

/-! ## The connection -/

/-- One connection is in flight, and suspended here. -/
structure Connecting (pc : ConnectPc) (cfg : ClientConfig) (s : TwitchService) : Prop where
  crashed : s.crashed = false
  logins : s.logins = []
  connects : s.connects = [pc]
  reads : s.reads = 0
  eventsub : s.eventsub = some ⟨cfg⟩
  chatRead : s.chatRead = some ⟨⟨cfg⟩⟩

section

variable {s : TwitchService} {cfg : ClientConfig}

theorem step_connectToChat (h : Quiescent s) (hs : s.state = .loggedIn) :
    Connecting .connect s.config (machine.step s .connectToChat).1 ∧
      (machine.step s .connectToChat).2 =
        [.status (bytes "Connecting to chat..."), .connect s.config] := by
  rw [step_of_not_crashed h.crashed]
  refine ⟨⟨?_, ?_, ?_, ?_, ?_, ?_⟩, ?_⟩ <;>
    simp [act, connectToChat, setupChatServices, setState, hs, h.crashed, h.logins, h.connects,
      h.reads, bytes_eq_nil_iff]

/-- Whatever is awaited throws. -/
theorem Connecting.threw {pc : ConnectPc} (h : Connecting pc cfg s) (what : Bytes) :
    let r := machine.step s (.resumeConnect 0 (.threw what))
    (Quiescent r.1 ∧ r.1.state = .error) ∧
      r.2 = [.status (bytes "Chat connection failed: " ++ what)] := by
  rw [step_of_not_crashed h.crashed]
  refine ⟨⟨⟨?_, ?_, ?_, ?_⟩, ?_⟩, ?_⟩ <;>
    simp [act, resumeConnect, setState, h.crashed, h.logins, h.connects, h.reads, bytes_eq_nil_iff]

/-- The socket is open, and is read from. -/
theorem Connecting.opened (h : Connecting .connect cfg s) :
    let es := [.resumeConnect 0 (.returned ()), .startRead]
    Connecting .timer cfg (machine.run s es) ∧ (machine.trace s es).flatten = [] := by
  refine ⟨⟨?_, ?_, ?_, ?_, ?_, ?_⟩, ?_⟩ <;>
    simp [machine, act, resumeConnect, startRead, h.crashed, h.logins, h.connects, h.reads,
      h.eventsub, h.chatRead]

theorem Connecting.waited (h : Connecting .timer cfg s) :
    let r := machine.step s (.resumeConnect 0 (.returned ()))
    Connecting .requestSubscription cfg r.1 ∧
      r.2 = [.subscribe cfg chatSubscription.1 chatSubscription.2] := by
  rw [step_of_not_crashed h.crashed]
  refine ⟨⟨?_, ?_, ?_, ?_, ?_, ?_⟩, ?_⟩ <;>
    simp [act, resumeConnect, h.crashed, h.logins, h.connects, h.reads, h.eventsub, h.chatRead,
      chatSubscription]

theorem Connecting.acknowledged (h : Connecting .requestSubscription cfg s) :
    let r := machine.step s (.resumeConnect 0 (.returned ()))
    (Quiescent r.1 ∧ r.1.state = .chatConnected) ∧
      r.2 = subscriptions.map (fun sub ↦ .subscribe cfg sub.1 sub.2) ++
        [.status (bytes "Connected to chat")] := by
  rw [step_of_not_crashed h.crashed]
  refine ⟨⟨⟨?_, ?_, ?_, ?_⟩, ?_⟩, ?_⟩ <;>
    simp [act, resumeConnect, setState, h.crashed, h.logins, h.connects, h.reads, h.eventsub,
      bytes_eq_nil_iff]

/-- A connection from a login on. -/
theorem run_connecting (h : Quiescent s) (hs : s.state = .loggedIn) (v : Visit) :
    (Quiescent (machine.run s (connecting parse v)) ∧
        (machine.run s (connecting parse v)).state =
          if (connection parse v).toBool then .chatConnected else .error) ∧
      (machine.trace s (connecting parse v)).flatten =
        [.status (bytes "Connecting to chat..."), .connect s.config] ++
          (asked parse v).map (fun sub ↦ .subscribe s.config sub.1 sub.2) ++
          [.status (lastStatus parse v)] := by
  obtain ⟨h₁, hout₁⟩ := step_connectToChat h hs
  unfold connecting lastStatus connection asked
  rw [Machine.run_cons, Machine.trace_cons, List.flatten_cons, hout₁]
  generalize (machine.step s .connectToChat).1 = s₁ at h₁
  cases EventSub.connect parse v.handshake with
  | error what =>
      obtain ⟨hend, hout⟩ := h₁.threw what
      refine ⟨hend, ?_⟩
      rw [Machine.trace_cons, hout]
      rfl
  | ok sessionId =>
      obtain ⟨h₂, hout₂⟩ := h₁.opened
      dsimp only
      rw [Machine.run_append, Machine.trace_append, List.flatten_append, hout₂]
      generalize machine.run s₁ [.resumeConnect 0 (.returned ()), .startRead] = s₂ at h₂
      cases v.timer with
      | error what =>
          obtain ⟨hend, hout⟩ := h₂.threw what
          refine ⟨hend, ?_⟩
          rw [Machine.trace_cons, hout]
          rfl
      | ok u =>
          obtain ⟨h₃, hout₃⟩ := h₂.waited
          dsimp only
          rw [Machine.run_cons, Machine.trace_cons, List.flatten_cons, hout₃]
          generalize (machine.step s₂ (.resumeConnect 0 (.returned ()))).1 = s₃ at h₃
          cases EventSub.subscribed parse v.acknowledgement with
          | error what =>
              obtain ⟨hend, hout⟩ := h₃.threw what
              refine ⟨hend, ?_⟩
              rw [resumption, Machine.trace_cons, hout]
              rfl
          | ok u =>
              obtain ⟨hend, hout⟩ := h₃.acknowledged
              refine ⟨hend, ?_⟩
              rw [resumption, Machine.trace_cons, hout]
              rfl

/-- Without a login, nothing comes of connecting. -/
theorem run_connecting_of_error (h : Quiescent s) (hs : s.state = .error) (v : Visit) :
    machine.run s (connecting parse v) = s ∧
      (machine.trace s (connecting parse v)).flatten = [] := by
  unfold connecting
  cases EventSub.connect parse v.handshake with
  | error what =>
      simp [machine, act, connectToChat, resumeConnect, hs, h.crashed, h.connects]
  | ok sessionId =>
      cases v.timer <;>
        simp [machine, act, connectToChat, resumeConnect, startRead, hs, h.crashed, h.connects,
          h.reads]

end

/-! ## Runs of visits -/

/-- A visit on a quiescent service. -/
theorem visits_step {s : TwitchService} (h : Quiescent s) (a : Auth) (v : Visit) :
    let r := (visits conv parse dump).step (s, a) v
    (Quiescent r.1.1 ∧ r.1.1.state = endState conv parse v) ∧
      r.2 = expected conv parse dump v := by
  unfold expected endState
  simp only [visits, Machine.run_append, Machine.trace_append, List.flatten_append]
  rcases resumptions_cases conv parse v.login a with ⟨answer, hout, hrs⟩ | ⟨hout, hrs⟩
  · obtain ⟨hrun, htrace⟩ := run_login h answer
    obtain ⟨hend, hout'⟩ := run_connecting parse (s := afterLogin answer s)
      ⟨h.crashed, rfl, h.connects, h.reads⟩ rfl v
    rw [hout, hrs, hrun, htrace, hout']
    refine ⟨⟨hend.1, by simpa using hend.2⟩, ?_⟩
    simp [statusText, wire, afterLogin, List.filterMap_cons, Function.comp_def]
  · obtain ⟨hrun, htrace⟩ := run_failed h hrs
    obtain ⟨hrun', htrace'⟩ := run_connecting_of_error parse (s := afterFailure s)
      ⟨h.crashed, rfl, h.connects, h.reads⟩ rfl v
    rw [hout, hrun, htrace, hrun', htrace']
    refine ⟨⟨⟨h.crashed, rfl, h.connects, h.reads⟩, by simp [afterFailure]⟩, ?_⟩
    simp [statusText, wire]

end TwitchService

end Seraphbot
