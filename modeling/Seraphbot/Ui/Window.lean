import Seraphbot.Twitch.Delivery

/-!
# The window

The model of `manageAuth` and `manageChat` of `imgui_manager.cpp`, and of the view
models `AuthVM` and `ChatVM` that they work on.  The thread of the user interface
draws one frame after the other.  In each of them it copies the state of the service
first, and offers buttons for the state it has copied; it looks at the state again
before it draws the chat.  The coroutines of the service go on in the meantime, on
the threads of the `io_context`, so a button may be pressed for a state that has
passed.

`startLogin`, `connectToChat` and `disconnect` are called through the window only.
What it does to the service is what its steps emit, and the service is a machine of
its own that these calls drive (`run_service`).
-/

namespace Seraphbot

open Twitch

/-! ## The windows and their buttons -/

/-- The buttons that `manageAuth` offers in one state or another. -/
inductive Button where
  | login
  | connect
  | logout
  | disconnect
  | reset
deriving DecidableEq

/-- What is being drawn. -/
inductive Pane where
  | other
  | auth
  /-- `manageChat`, which has asked `canSendMessages`. -/
  | chat (canSend : Bool)
deriving DecidableEq

/-- The user interface and the service behind it. -/
structure Window where
  service : TwitchService
  /-- `AuthVM::state`. -/
  authState : State := .disconnected
  pane : Pane := .other
  /-- The text in `m_message_input`. -/
  messageInput : Bytes := []
  /-- The calls of `connectToChat` that were spawned and have not begun. -/
  spawned : Nat := 0

namespace Window

/-- The buttons for a state. -/
def buttons : State → List Button
  | .disconnected => [.login]
  | .loggingIn => []
  | .loggedIn => [.connect, .logout]
  | .connectingToChat => []
  | .chatConnected => [.disconnect]
  | .error => [.reset]

/-- Something is done to the service. -/
def call (ev : TwitchService.Event) (w : Window) : Window × List TwitchService.Event :=
  ({ w with service := (TwitchService.machine.step w.service ev).1 }, [ev])

/-- What `AuthVM` does for a button. -/
def press (w : Window) : Button → Window × List TwitchService.Event
  | .login => w.call .startLogin
  | .connect => ({ w with spawned := w.spawned + 1 }, [])
  | .logout | .disconnect | .reset => w.call .disconnect

/-- The size of `m_message_input`. -/
def inputSize : Nat := 256

/-- Enter is pressed in the input field, or the button `Send`. -/
def submit (w : Window) : Window × List TwitchService.Event :=
  if w.messageInput = [] then (w, [])
  else { w with messageInput := [] }.call (.sendMessage w.messageInput)

/-! ## Steps -/

inductive Event where
  /-- `manageAuth` begins, with `syncFrom`. -/
  | manageAuth
  | press (button : Button)
  /-- `manageChat` begins, with `canSendMessages`. -/
  | manageChat
  /-- The text in the input field is changed. -/
  | edit (text : Bytes)
  | submit
  /-- A spawned call of `connectToChat` begins. -/
  | begin
  /-- A step on a thread of the `io_context`. -/
  | io (ev : TwitchService.Event)

/-- The steps of coroutines.  A reply to a command is one of them. -/
def ofIo : TwitchService.Event → Bool
  | .resumeLogin .. | .resumeConnect .. | .startRead | .sendMessage _ | .resumeSend .. => true
  | .startLogin | .connectToChat | .disconnect => false

def act (w : Window) : Event → Window × List TwitchService.Event
  | .manageAuth => ({ w with pane := .auth, authState := w.service.state }, [])
  | .press button =>
      if w.pane = .auth ∧ button ∈ buttons w.authState then w.press button else (w, [])
  | .manageChat => ({ w with pane := .chat (w.service.state = .chatConnected) }, [])
  | .edit text =>
      if w.pane = .chat true ∧ text.length < inputSize ∧ 0 ∉ text then
        ({ w with messageInput := text }, [])
      else (w, [])
  | .submit => if w.pane = .chat true then w.submit else (w, [])
  | .begin =>
      match w.spawned with
      | 0 => (w, [])
      | n + 1 => { w with spawned := n }.call .connectToChat
  | .io ev => if ofIo ev then w.call ev else (w, [])

/-- The user interface and the coroutines, in any interleaving.  What is emitted is
what is done to the service. -/
def machine : Machine Window Event (List TwitchService.Event) where
  step w ev := if w.service.crashed then (w, []) else w.act ev

/-- The window at the start. -/
def start (config : ClientConfig) : Window := { service := { config } }

/-! ## What a step does -/

/-- The buttons that call `disconnect`, and the states they are offered in. -/
inductive Leaves : Button → State → Prop where
  | logout : Leaves .logout .loggedIn
  | disconnect : Leaves .disconnect .chatConnected
  | reset : Leaves .reset .error

/-- What a step can do, and what it does to the service. -/
inductive Does (w : Window) : Event → Window → List TwitchService.Event → Prop where
  | nothing {ev : Event} : Does w ev w []
  | manageAuth : Does w .manageAuth { w with pane := .auth, authState := w.service.state } []
  | login (hpane : w.pane = .auth) (hshown : w.authState = .disconnected) :
      Does w (.press .login) (w.call .startLogin).1 [.startLogin]
  | spawn : Does w (.press .connect) { w with spawned := w.spawned + 1 } []
  | leave {button : Button} (hpane : w.pane = .auth) (hshown : Leaves button w.authState) :
      Does w (.press button) (w.call .disconnect).1 [.disconnect]
  | manageChat :
      Does w .manageChat { w with pane := .chat (w.service.state = .chatConnected) } []
  | edit {text : Bytes} : Does w (.edit text) { w with messageInput := text } []
  | submit (hpane : w.pane = .chat true) (htext : w.messageInput ≠ []) :
      Does w .submit ({ w with messageInput := [] }.call (.sendMessage w.messageInput)).1
        [.sendMessage w.messageInput]
  | begin {n : Nat} : Does w .begin ({ w with spawned := n }.call .connectToChat).1 [.connectToChat]
  | io {ev : TwitchService.Event} (hio : ofIo ev = true) : Does w (.io ev) (w.call ev).1 [ev]

theorem press_does {w : Window} {button : Button} (hpane : w.pane = .auth)
    (hshown : button ∈ buttons w.authState) :
    Does w (.press button) (w.press button).1 (w.press button).2 := by
  cases hst : w.authState with
  | disconnected =>
      obtain rfl : button = .login := by simpa [hst, buttons] using hshown
      exact .login hpane hst
  | loggingIn | connectingToChat => simp [hst, buttons] at hshown
  | loggedIn =>
      obtain rfl | rfl : button = .connect ∨ button = .logout := by
        simpa [hst, buttons] using hshown
      · exact .spawn
      · exact .leave hpane (hst ▸ .logout)
  | chatConnected =>
      obtain rfl : button = .disconnect := by simpa [hst, buttons] using hshown
      exact .leave hpane (hst ▸ .disconnect)
  | error =>
      obtain rfl : button = .reset := by simpa [hst, buttons] using hshown
      exact .leave hpane (hst ▸ .reset)

/-- Every step does one of these things. -/
theorem act_does (w : Window) (ev : Event) : Does w ev (w.act ev).1 (w.act ev).2 := by
  fun_cases act w ev with
  | case1 => exact .manageAuth
  | case2 button h => exact press_does h.1 h.2
  | case4 => exact .manageChat
  | case5 => exact .edit
  | case7 hpane =>
      fun_cases submit w with
      | case1 => exact .nothing
      | case2 htext => exact .submit hpane htext
  | case10 n => exact .begin
  | case11 ev hio => exact .io hio
  | _ => exact .nothing

/-- A step of a program that has crashed does nothing. -/
theorem step_does (w : Window) (ev : Event) :
    (w.service.crashed = true ∧ machine.step w ev = (w, [])) ∨
      w.service.crashed = false ∧ Does w ev (machine.step w ev).1 (machine.step w ev).2 := by
  cases hw : w.service.crashed with
  | true => exact .inl ⟨rfl, by simp [machine, hw]⟩
  | false =>
      refine .inr ⟨rfl, ?_⟩
      simpa [machine, hw] using act_does w ev

/-! ## The window drives the service -/

/-- What a run does to the service. -/
def calls (w : Window) (es : List Event) : List TwitchService.Event := (machine.trace w es).flatten

theorem step_service (w : Window) (ev : Event) :
    (machine.step w ev).1.service =
      TwitchService.machine.run w.service (machine.step w ev).2 := by
  rcases step_does w ev with ⟨-, hstep⟩ | ⟨-, hdoes⟩
  · rw [hstep]
    rfl
  · generalize machine.step w ev = r at hdoes ⊢
    obtain ⟨w', made⟩ := r
    cases hdoes <;> rfl

@[simp] theorem calls_cons (w : Window) (ev : Event) (es : List Event) :
    calls w (ev :: es) = (machine.step w ev).2 ++ calls (machine.step w ev).1 es := rfl

/-- A run of the window is a run of the service. -/
theorem run_service (w : Window) (es : List Event) :
    (machine.run w es).service = TwitchService.machine.run w.service (calls w es) := by
  induction es generalizing w with
  | nil => rfl
  | cons ev es ih =>
      rw [Machine.run_cons, ih, calls_cons, Machine.run_append, step_service]

/-! ## What the service is given to send -/

/-- The text that disappears from the input field, because it is submitted. -/
def types (w : Window) : Event → List Bytes
  | .submit =>
      if w.service.crashed = false ∧ w.pane = .chat true ∧ w.messageInput ≠ [] then
        [w.messageInput]
      else []
  | _ => []

/-- The texts that are submitted in a run. -/
def typed (w : Window) (es : List Event) : List Bytes := machine.gather types w es

/-- The reply to a command that is handed to the service. -/
def handedOver : Event → Option Bytes
  | .io (.sendMessage text) => some text
  | _ => none

/-- What the service takes in a run, step by step. -/
theorem taken_calls (w : Window) (es : List Event) :
    w.service.taken (calls w es) =
      machine.gather (fun w ev ↦ w.service.taken (machine.step w ev).2) w es := by
  induction es generalizing w with
  | nil => rfl
  | cons ev es ih =>
      rw [calls_cons, TwitchService.taken, Machine.gather_append, ← step_service,
        Machine.gather_cons, ← ih]
      rfl

theorem step_taken_sublist (w : Window) (ev : Event) :
    (w.service.taken (machine.step w ev).2).Sublist (types w ev ++ (handedOver ev).toList) := by
  rcases step_does w ev with ⟨-, hstep⟩ | ⟨hw, hdoes⟩
  · rw [hstep]
    exact List.nil_sublist _
  · generalize (machine.step w ev).1 = w', (machine.step w ev).2 = made at hdoes ⊢
    cases hdoes with
    | submit hpane htext =>
        rw [TwitchService.taken_singleton, types, if_pos ⟨hw, hpane, htext⟩]
        exact w.service.takes_sendMessage_sublist w.messageInput
    | @io ev hio =>
        rw [TwitchService.taken_singleton]
        cases ev with
        | sendMessage text => exact w.service.takes_sendMessage_sublist text
        | _ => exact List.nil_sublist _
    | _ => exact List.nil_sublist _

/-- What the service takes in a run was typed, or handed over as a reply. -/
theorem taken_subperm (w : Window) (es : List Event) :
    (w.service.taken (calls w es)).Subperm (typed w es ++ es.filterMap handedOver) := by
  have hoffered : machine.gather (fun _ ev ↦ (handedOver ev).toList) w es =
      es.filterMap handedOver := by
    induction es generalizing w with
    | nil => rfl
    | cons ev es ih => rw [Machine.gather_cons, filterMap_cons_eq, ih]
  rw [taken_calls, ← hoffered]
  refine (Machine.gather_sublist _ step_taken_sublist w es).subperm.trans ?_
  exact (Machine.gather_append_perm _ types _ w es).subperm

end Window

end Seraphbot
