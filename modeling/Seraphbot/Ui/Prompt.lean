import Seraphbot.Ui.Window

/-!
# Prompt runs of the window

The service on its own allows a login or a connection to be interrupted by
`disconnect`, and nothing good comes of it.  The window rules out most of these
interleavings, since it offers no button while something is in flight.  One is left:
`connectToChat` is spawned, not called, so the button `Logout` can still be there
while the service is connecting.  This file is about the runs in which it is not pressed then, the
`Prompt` ones.

* The state tells what is in flight, in these runs and in no others
  (`visits_tells_iff`).
* The state only changes along the arrows of a diagram, which has no way out of
  `disconnected` but the button `Login` (`along_arrow`).
* A text that is submitted is posted once, or still waits (`typed_subperm`).
* Messages are sent in the name of the user whose token is used (`along_owned`).

All of it rests on one invariant, `Sound`: the state tells what is in flight, and
what the window shows is not too far behind the state.
-/

namespace Seraphbot

open Twitch

namespace Window

/-! ## The state tells what is in flight -/

/-- A login is in flight in the state `loggingIn` only, a connection in the state
`connectingToChat` only, and there is just one of them. -/
def Tells (s : TwitchService) : Prop :=
  match s.state with
  | .loggingIn => s.logins.length = 1 ∧ s.connects = []
  | .connectingToChat => s.logins = [] ∧ s.connects.length = 1
  | _ => s.logins = [] ∧ s.connects = []

theorem eq_singleton_of_getElem? {α : Type} {l : List α} {i : Nat} {a : α} (hl : l.length = 1)
    (hi : l[i]? = some a) : l = [a] ∧ i = 0 := by
  obtain ⟨b, rfl⟩ := List.length_eq_one_iff.mp hl
  rw [List.getElem?_singleton] at hi
  split_ifs at hi with hzero
  exact ⟨congrArg (fun c ↦ [c]) (Option.some.inj hi), hzero⟩

section

variable {s : TwitchService}

/-- A login that can go on is the one that the state tells of. -/
theorem Tells.of_login (h : Tells s) {i : Nat} {pc : LoginPc} (hi : s.logins[i]? = some pc) :
    s.state = .loggingIn ∧ s.logins = [pc] ∧ i = 0 ∧ s.connects = [] := by
  have hne : s.logins ≠ [] := List.ne_nil_of_mem (List.mem_of_getElem? hi)
  unfold Tells at h
  split at h
  · rename_i hst
    obtain ⟨hlogins, hzero⟩ := eq_singleton_of_getElem? h.1 hi
    exact ⟨hst, hlogins, hzero, h.2⟩
  · exact absurd h.1 hne
  · exact absurd h.1 hne

/-- A connection that can go on is the one that the state tells of. -/
theorem Tells.of_connect (h : Tells s) {i : Nat} {pc : ConnectPc}
    (hi : s.connects[i]? = some pc) :
    s.state = .connectingToChat ∧ s.connects = [pc] ∧ i = 0 ∧ s.logins = [] := by
  have hne : s.connects ≠ [] := List.ne_nil_of_mem (List.mem_of_getElem? hi)
  unfold Tells at h
  split at h
  · exact absurd h.2 hne
  · rename_i hst
    obtain ⟨hconnects, hzero⟩ := eq_singleton_of_getElem? h.2 hi
    exact ⟨hst, hconnects, hzero, h.1⟩
  · exact absurd h.2 hne

theorem Tells.keep (h : Tells s) {s' : TwitchService} (hstate : s'.state = s.state)
    (hlogins : s'.logins = s.logins) (hconnects : s'.connects = s.connects) : Tells s' := by
  unfold Tells
  rw [hstate, hlogins, hconnects]
  exact h

/-- How the coroutines change the state. -/
inductive Advances : State → State → Prop where
  | stay {state : State} : Advances state state
  | loggedIn : Advances .loggingIn .loggedIn
  | loginFailed : Advances .loggingIn .error
  | connected : Advances .connectingToChat .chatConnected
  | connectFailed : Advances .connectingToChat .error

theorem Tells.io (h : Tells s) {ev : TwitchService.Event} (hio : ofIo ev = true) :
    Tells (s.act ev).1 ∧ Advances s.state (s.act ev).1.state := by
  cases ev with
  | startLogin | connectToChat | disconnect => cases hio
  | resumeLogin i r =>
      simp only [TwitchService.act]
      fun_cases TwitchService.resumeLogin i r s with
      | case1 => exact ⟨h, .stay⟩
      | case2 pc what hi =>
          obtain ⟨hst, hlogins, rfl, hconnects⟩ := h.of_login hi
          exact ⟨⟨congrArg (List.eraseIdx · 0) hlogins, hconnects⟩, hst ▸ .loginFailed⟩
      | case3 answer hi =>
          obtain ⟨hst, hlogins, rfl, hconnects⟩ := h.of_login hi
          exact ⟨by simp [Tells, hst, hlogins, hconnects], .stay⟩
      | case4 answer hi =>
          obtain ⟨hst, hlogins, rfl, hconnects⟩ := h.of_login hi
          exact ⟨⟨congrArg (List.eraseIdx · 0) hlogins, hconnects⟩, hst ▸ .loggedIn⟩
  | resumeConnect i r =>
      simp only [TwitchService.act]
      fun_cases TwitchService.resumeConnect i r s with
      | case1 | case3 | case5 | case7 => exact ⟨h.keep rfl rfl rfl, .stay⟩
      | case2 pc what hi =>
          obtain ⟨hst, hconnects, rfl, hlogins⟩ := h.of_connect hi
          exact ⟨⟨hlogins, congrArg (List.eraseIdx · 0) hconnects⟩, hst ▸ .connectFailed⟩
      | case4 _ hi | case6 _ hi =>
          obtain ⟨hst, hconnects, rfl, hlogins⟩ := h.of_connect hi
          exact ⟨by simp [Tells, hst, hlogins, hconnects], .stay⟩
      | case8 _ hi =>
          obtain ⟨hst, hconnects, rfl, hlogins⟩ := h.of_connect hi
          exact ⟨⟨hlogins, congrArg (List.eraseIdx · 0) hconnects⟩, hst ▸ .connected⟩
  | startRead =>
      simp only [TwitchService.act]
      fun_cases TwitchService.startRead s <;> exact ⟨h.keep rfl rfl rfl, .stay⟩
  | sendMessage message =>
      simp only [TwitchService.act]
      fun_cases TwitchService.sendMessage message s <;> exact ⟨h.keep rfl rfl rfl, .stay⟩
  | resumeSend i r =>
      simp only [TwitchService.act]
      fun_cases TwitchService.resumeSend i r s <;> exact ⟨h.keep rfl rfl rfl, .stay⟩

/-- While there is a chat, its messages are sent with the configuration of the
service; there is none before a login is completed. -/
structure Owned (s : TwitchService) : Prop where
  cfg : ∀ send, s.chatSend = some send → send.cfg = s.config
  absent : s.state = .disconnected ∨ s.state = .loggingIn → s.chatSend = none

theorem Owned.keep (h : Owned s) {s' : TwitchService} (hsend : s'.chatSend = s.chatSend)
    (hconfig : s'.config = s.config)
    (hstate : s'.state = .disconnected ∨ s'.state = .loggingIn → s'.state = s.state) :
    Owned s' := by
  refine ⟨?_, fun hst ↦ ?_⟩
  · rw [hsend, hconfig]
    exact h.cfg
  · rw [hsend]
    exact h.absent (hstate hst ▸ hst)

/-- A step into a state that is not before a login. -/
theorem Owned.enter (h : Owned s) {s' : TwitchService} (state : State)
    (hlogin : ¬ (state = .disconnected ∨ state = .loggingIn)) (hsend : s'.chatSend = s.chatSend)
    (hconfig : s'.config = s.config) (hstate : s'.state = state) : Owned s' :=
  h.keep hsend hconfig fun hst ↦ absurd (hstate ▸ hst) hlogin

theorem Owned.io (h : Owned s) (ht : Tells s) {ev : TwitchService.Event} (hio : ofIo ev = true) :
    Owned (s.act ev).1 := by
  cases ev with
  | startLogin | connectToChat | disconnect => cases hio
  | resumeLogin i r =>
      simp only [TwitchService.act]
      fun_cases TwitchService.resumeLogin i r s with
      | case1 => exact h
      | case2 => exact h.enter .error (by decide) rfl rfl rfl
      | case3 => exact h.keep rfl rfl fun _ ↦ rfl
      | case4 answer hi =>
          -- the configuration changes, and there are no services to copy it
          have hnone := h.absent (.inr (ht.of_login hi).1)
          refine ⟨fun send hsend ↦ ?_, fun _ ↦ hnone⟩
          exact absurd (hsend.symm.trans hnone) (Option.some_ne_none send)
  | resumeConnect i r =>
      simp only [TwitchService.act]
      fun_cases TwitchService.resumeConnect i r s with
      | case2 => exact h.enter .error (by decide) rfl rfl rfl
      | case8 => exact h.enter .chatConnected (by decide) rfl rfl rfl
      | _ => exact h.keep rfl rfl fun _ ↦ rfl
  | startRead =>
      simp only [TwitchService.act]
      fun_cases TwitchService.startRead s <;> exact h.keep rfl rfl fun _ ↦ rfl
  | sendMessage message =>
      simp only [TwitchService.act]
      fun_cases TwitchService.sendMessage message s <;> exact h.keep rfl rfl fun _ ↦ rfl
  | resumeSend i r =>
      simp only [TwitchService.act]
      fun_cases TwitchService.resumeSend i r s <;> exact h.keep rfl rfl fun _ ↦ rfl

end

/-! ## What is shown -/

/-- What may have become of the state since `manageAuth` copied it. -/
def Later (shown state : State) : Prop :=
  match shown with
  | .loggedIn => state ≠ .loggingIn
  | .chatConnected | .error => state = shown ∨ state = .disconnected
  | _ => True

theorem later_self (state : State) : Later state state := by
  cases state <;> simp [Later]

theorem later_disconnected (shown : State) : Later shown .disconnected := by
  cases shown <;> simp [Later]

theorem Later.advance {shown state state' : State} (h : Later shown state)
    (ha : Advances state state') : Later shown state' := by
  cases ha <;> cases shown <;> simp_all [Later]

theorem Later.begin {shown : State} (h : Later shown .loggedIn) :
    Later shown .connectingToChat := by
  cases shown <;> simp_all [Later]

/-- The invariant: the state tells what is in flight, and what is shown is not too
far behind. -/
structure Sound (w : Window) : Prop where
  tells : Tells w.service
  owned : Owned w.service
  auth : w.pane = .auth → Later w.authState w.service.state
  chat : w.pane = .chat true → w.service.state = .chatConnected

theorem start_sound (config : ClientConfig) : Sound (start config) :=
  ⟨⟨rfl, rfl⟩, ⟨nofun, fun _ ↦ rfl⟩, nofun, nofun⟩

/-- The button `Logout` is not pressed while the service is connecting. -/
def Prompt (w : Window) : Event → Prop
  | .press .logout =>
      w.service.crashed = false → w.pane = .auth → w.authState = .loggedIn →
        w.service.state ≠ .connectingToChat
  | _ => True

/-! ## One step -/

section

variable {w : Window}

/-- A step of the service that is not crashed. -/
theorem call_service (hw : w.service.crashed = false) (ev : TwitchService.Event) :
    (w.call ev).1.service = (w.service.act ev).1 := by
  simp [call, TwitchService.step_of_not_crashed hw]

/-- Whatever the coroutines do, what is shown stays close to the state. -/
theorem Sound.advance (h : Sound w) {s : TwitchService} (ht : Tells s) (ho : Owned s)
    (ha : Advances w.service.state s.state) : Sound { w with service := s } := by
  refine ⟨ht, ho, fun hpane ↦ (h.auth hpane).advance ha, fun hpane ↦ ?_⟩
  have hchat := h.chat hpane
  rw [hchat] at ha
  generalize s.state = state at ha
  cases ha
  rfl

theorem Sound.io (h : Sound w) (hw : w.service.crashed = false) {ev : TwitchService.Event}
    (hio : ofIo ev = true) : Sound (w.call ev).1 := by
  obtain ⟨htells, hadvances⟩ := h.tells.io hio
  rw [call, TwitchService.step_of_not_crashed hw]
  exact h.advance htells (h.owned.io h.tells hio) hadvances

theorem Sound.login (h : Sound w) (hw : w.service.crashed = false) (hpane : w.pane = .auth)
    (hshown : w.authState = .disconnected) : Sound (w.call .startLogin).1 := by
  rw [call, TwitchService.step_of_not_crashed hw, TwitchService.act]
  fun_cases TwitchService.startLogin w.service with
  | case1 => exact h
  | case2 hst =>
      have htells := h.tells
      rw [Tells, not_not.mp hst] at htells
      refine ⟨?_, ⟨h.owned.cfg, fun _ ↦ h.owned.absent (.inl (not_not.mp hst))⟩, fun _ ↦ ?_,
        fun hchat ↦ ?_⟩
      · simp [Tells, TwitchService.setState, htells.1, htells.2]
      · rw [hshown]
        trivial
      · simp [hpane] at hchat

theorem Sound.begin (h : Sound w) (hw : w.service.crashed = false) :
    Sound (w.call .connectToChat).1 := by
  rw [call, TwitchService.step_of_not_crashed hw, TwitchService.act]
  fun_cases TwitchService.connectToChat w.service with
  | case1 => exact h
  | case2 hst =>
      have hst := not_not.mp hst
      have htells := h.tells
      rw [Tells, hst] at htells
      refine ⟨⟨htells.1, ?_⟩, ⟨?_, fun hno ↦ ?_⟩, fun hpane ↦ ?_, fun hpane ↦ ?_⟩
      · exact congrArg (fun l ↦ (l ++ [ConnectPc.connect]).length) htells.2
      · rintro _ ⟨⟩
        rfl
      · change State.connectingToChat = _ ∨ State.connectingToChat = _ at hno
        exact absurd hno (by decide)
      · exact (hst ▸ h.auth hpane).begin
      · exact absurd (h.chat hpane) (by simp [hst])

theorem Tells.idle {s : TwitchService} (h : Tells s) (hlogin : s.state ≠ .loggingIn)
    (hconnect : s.state ≠ .connectingToChat) : s.logins = [] ∧ s.connects = [] := by
  unfold Tells at h
  split at h
  · exact absurd ‹_› hlogin
  · exact absurd ‹_› hconnect
  · exact h

/-- What a button that leaves is pressed in. -/
theorem Sound.leaving (h : Sound w) {button : Button} (hpane : w.pane = .auth)
    (hshown : Leaves button w.authState) :
    w.service.state ≠ .loggingIn ∧ (button ≠ .logout → w.service.state ≠ .connectingToChat) := by
  have hlater := h.auth hpane
  generalize w.authState = shown at hshown hlater
  cases hshown with
  | logout => exact ⟨hlater, fun hne ↦ absurd rfl hne⟩
  | disconnect | reset => rcases hlater with hst | hst <;> simp [hst]

theorem Sound.leave (h : Sound w) (hw : w.service.crashed = false)
    (hlogin : w.service.state ≠ .loggingIn) (hconnect : w.service.state ≠ .connectingToChat)
    (hpane : w.pane = .auth) : Sound (w.call .disconnect).1 := by
  rw [call, TwitchService.step_of_not_crashed hw]
  exact ⟨h.tells.idle hlogin hconnect, ⟨nofun, fun _ ↦ rfl⟩, fun _ ↦ later_disconnected _,
    fun hchat ↦ absurd (hpane.symm.trans hchat) nofun⟩

/-- A prompt press of a button that leaves finds no connection. -/
theorem Prompt.not_connecting (h : Sound w) (hw : w.service.crashed = false) {button : Button}
    (hpane : w.pane = .auth) (hshown : Leaves button w.authState)
    (hprompt : Prompt w (.press button)) : w.service.state ≠ .connectingToChat := by
  by_cases hbutton : button = .logout
  · subst hbutton
    refine hprompt hw hpane ?_
    generalize w.authState = shown at hshown
    cases hshown
    rfl
  · exact (h.leaving hpane hshown).2 hbutton

theorem step_sound (h : Sound w) {ev : Event} (hprompt : Prompt w ev) :
    Sound (machine.step w ev).1 := by
  rcases step_does w ev with ⟨-, hstep⟩ | ⟨hw, hdoes⟩
  · rwa [hstep]
  · generalize (machine.step w ev).1 = w', (machine.step w ev).2 = made at hdoes ⊢
    cases hdoes with
    | nothing => exact h
    | manageAuth => exact ⟨h.tells, h.owned, fun _ ↦ later_self _, nofun⟩
    | login hpane hshown => exact h.login hw hpane hshown
    | spawn => exact ⟨h.tells, h.owned, h.auth, h.chat⟩
    | leave hpane hshown =>
        exact h.leave hw (h.leaving hpane hshown).1
          (hprompt.not_connecting h hw hpane hshown) hpane
    | manageChat => exact ⟨h.tells, h.owned, nofun, fun hpane ↦ by simpa using hpane⟩
    | edit => exact ⟨h.tells, h.owned, h.auth, h.chat⟩
    | submit =>
        have h' : Sound { w with messageInput := [] } := ⟨h.tells, h.owned, h.auth, h.chat⟩
        exact h'.io hw rfl
    | @begin n =>
        have h' : Sound { w with spawned := n } := ⟨h.tells, h.owned, h.auth, h.chat⟩
        exact h'.begin hw
    | io hio => exact h.io hw hio

/-- A press of `Logout` that is not prompt leaves the connection behind. -/
theorem prompt_of_tells (h : Sound w) {ev : Event} (ht : Tells (machine.step w ev).1.service) :
    Prompt w ev := by
  unfold Prompt
  split
  · intro hw hpane hshown hst
    have hlen := h.tells
    rw [Tells, hst] at hlen
    have hstep : (machine.step w (.press .logout)).1.service = w.service.disconnect.1 := by
      simp [machine, hw, act, hpane, hshown, buttons, press, call_service hw, TwitchService.act]
    rw [hstep] at ht
    have hidle : w.service.connects = [] := And.right (a := w.service.logins = []) ht
    simp [hidle] at hlen
  · trivial

end

/-! ## The runs -/

/-- **The state tells what is in flight.**  A run of the window goes through states
only in which there is one login in flight if the service is logging in, one
connection if it is connecting, and none of either otherwise, if and only if the
button `Logout` is never pressed while the service is connecting. -/
theorem visits_tells_iff (config : ClientConfig) (es : List Event) :
    machine.Visits (fun w ↦ Tells w.service) (start config) es ↔
      machine.Along Prompt (start config) es := by
  have hsound := start_sound config
  generalize start config = w at hsound
  induction es generalizing w with
  | nil => exact iff_of_true hsound.tells trivial
  | cons ev es ih =>
      rw [Machine.visits_cons, Machine.along_cons]
      constructor
      · rintro ⟨-, h⟩
        have hprompt := prompt_of_tells hsound h.head
        exact ⟨hprompt, (ih _ (step_sound hsound hprompt)).mp h⟩
      · rintro ⟨hprompt, h⟩
        exact ⟨hsound.tells, (ih _ (step_sound hsound hprompt)).mpr h⟩

/-- The diagram of the states: what a step of the window can make of a state. -/
inductive Arrow : State → Event → State → Prop where
  | stay {state : State} {ev : Event} : Arrow state ev state
  | login : Arrow .disconnected (.press .login) .loggingIn
  | begin : Arrow .loggedIn .begin .connectingToChat
  | io {state state' : State} {ev : TwitchService.Event} (h : Advances state state') :
      Arrow state (.io ev) state'
  | logout : Arrow .loggedIn (.press .logout) .disconnected
  /-- The chat is connected or there is an error, and the button may be that of a
  state before. -/
  | leave {state shown : State} {button : Button} (hbutton : Leaves button shown)
      (h : state = .chatConnected ∨ state = .error) : Arrow state (.press button) .disconnected

theorem arrow_leave {w : Window} (h : Sound w) {button : Button} (hpane : w.pane = .auth)
    (hshown : Leaves button w.authState) (hconnect : w.service.state ≠ .connectingToChat) :
    Arrow w.service.state (.press button) .disconnected := by
  have hlogin := (h.leaving hpane hshown).1
  have hlater := h.auth hpane
  cases hst : w.service.state with
  | disconnected => exact .stay
  | loggingIn => exact absurd hst hlogin
  | connectingToChat => exact absurd hst hconnect
  | chatConnected => exact .leave hshown (.inl rfl)
  | error => exact .leave hshown (.inr rfl)
  | loggedIn =>
      rw [hst] at hlater
      generalize w.authState = shown at hshown hlater
      cases hshown with
      | logout => exact .logout
      | disconnect | reset => exact absurd hlater (by simp [Later])

theorem step_arrow {w : Window} (h : Sound w) {ev : Event} (hprompt : Prompt w ev) :
    Arrow w.service.state ev (machine.step w ev).1.service.state := by
  rcases step_does w ev with ⟨-, hstep⟩ | ⟨hw, hdoes⟩
  · rw [hstep]
    exact .stay
  · generalize (machine.step w ev).1 = w', (machine.step w ev).2 = made at hdoes ⊢
    cases hdoes with
    | nothing | manageAuth | spawn | manageChat | edit => exact .stay
    | login hpane hshown =>
        simp only [call, TwitchService.step_of_not_crashed hw, TwitchService.act]
        fun_cases TwitchService.startLogin w.service with
        | case1 => exact .stay
        | case2 hst => exact not_not.mp hst ▸ .login
    | leave hpane hshown =>
        rw [call_service hw]
        exact arrow_leave h hpane hshown (hprompt.not_connecting h hw hpane hshown)
    | submit =>
        simp only [call, TwitchService.step_of_not_crashed hw, TwitchService.act]
        fun_cases TwitchService.sendMessage w.messageInput w.service <;> exact .stay
    | begin =>
        simp only [call, TwitchService.step_of_not_crashed hw, TwitchService.act]
        fun_cases TwitchService.connectToChat w.service with
        | case1 => exact .stay
        | case2 hst => exact not_not.mp hst ▸ .begin
    | io hio =>
        rw [call_service hw]
        exact .io (h.tells.io hio).2

/-- **The states follow their diagram.**  In every run of the window in which
`Logout` is never pressed while the service is connecting, each step leaves the state
of the service as it is or takes it along an arrow of the diagram; in particular the
state `disconnected` is only left by the button `Login`, and neither a login nor a
connection is ever interrupted. -/
theorem along_arrow (config : ClientConfig) (es : List Event)
    (h : machine.Along Prompt (start config) es) :
    machine.Along (fun w ev ↦ Arrow w.service.state ev (machine.step w ev).1.service.state)
      (start config) es :=
  Machine.along_of_invariant (fun _ _ hw ↦ step_sound hw) (fun _ _ hw ↦ step_arrow hw)
    (start_sound config) h

/-- A login, a logout, another login, a chat with one message, and the end of it. -/
def session : List Event :=
  let login : List Event :=
    [.manageAuth, .press .login, .io (.resumeLogin 0 (.returned ⟨[], [], [], []⟩)),
      .io (.resumeLogin 0
        (.returned ⟨bytes "alice", bytes "42", bytes "token", bytes "client"⟩)), .manageAuth]
  login ++ [.press .logout] ++ login ++
    [.press .connect, .begin, .io (.resumeConnect 0 (.returned ())), .io .startRead,
      .io (.resumeConnect 0 (.returned ())), .io (.resumeConnect 0 (.returned ())), .manageChat,
      .edit (bytes "hi"), .submit, .io (.resumeSend 0 (.returned ())), .manageAuth,
      .press .disconnect]

theorem along_prompt_session : machine.Along Prompt (start {}) session := by
  simp only [session, List.cons_append, List.nil_append, Machine.along_cons,
    Prompt, Machine.along_nil, and_true, true_and]
  intro _ _ _
  decide

theorem along_arrow_session :
    machine.Along (fun w ev ↦ Arrow w.service.state ev (machine.step w ev).1.service.state)
      (start {}) session :=
  along_arrow {} session along_prompt_session

/-! ## What is typed is sent -/

/-- The service takes a text that is submitted. -/
theorem types_sublist_taken {w : Window} (h : Sound w) (ev : Event) :
    (types w ev).Sublist (w.service.taken (machine.step w ev).2) := by
  cases ev with
  | submit =>
      unfold types
      split_ifs with hsubmit
      · obtain ⟨hw, hpane, htext⟩ := hsubmit
        simp [machine, hw, act, hpane, submit, htext, call, TwitchService.taken,
          TwitchService.takes, h.chat hpane]
      · exact List.nil_sublist _
  | _ => exact List.nil_sublist _

theorem typed_sublist_taken {w : Window} (h : Sound w) {es : List Event}
    (hprompt : machine.Along Prompt w es) :
    (typed w es).Sublist (w.service.taken (calls w es)) := by
  induction es generalizing w with
  | nil => exact List.Sublist.refl _
  | cons ev es ih =>
      have hrest := ih (step_sound h hprompt.1) hprompt.2
      rw [step_service] at hrest
      rw [typed, Machine.gather_cons, calls_cons, TwitchService.taken, Machine.gather_append]
      exact (types_sublist_taken h ev).append hrest

/-- **What is typed is sent.**  In every run of the window in which `Logout` is never
pressed while the service is connecting: every text that the user submits, and that has
disappeared from the input field then, has been posted to the chat or still waits for
its coroutine, as many times as it was submitted. -/
theorem typed_subperm (config : ClientConfig) (es : List Event)
    (h : machine.Along Prompt (start config) es) :
    (typed (start config) es).Subperm
      (TwitchService.posted (TwitchService.machine.trace { config } (calls (start config) es)) ++
        (machine.run (start config) es).service.waiting) := by
  have hperm := Machine.perm_of_step TwitchService.step_conserves { config }
    (calls (start config) es)
  rw [run_service]
  exact (typed_sublist_taken (start_sound config) h).subperm.trans hperm.symm.subperm

theorem typed_subperm_session :
    typed (start {}) session = [bytes "hi"] ∧
      [bytes "hi"].Subperm
        (TwitchService.posted (TwitchService.machine.trace {} (calls (start {}) session)) ++
          (machine.run (start {}) session).service.waiting) := by
  have htyped : typed (start {}) session = [bytes "hi"] := by decide
  exact ⟨htyped, htyped ▸ typed_subperm {} session along_prompt_session⟩

/-! ## Messages and their sender -/

/-- The message is sent with the configuration of the service, in the name of its
user. -/
def OwnMessage (s : TwitchService) : Effect → Prop
  | .message cfg _ senderId => cfg = s.config ∧ senderId = cfg.broadcasterId
  | _ => True

theorem Owned.ownMessage {s : TwitchService} (h : Owned s) {ev : TwitchService.Event}
    {effect : Effect} (heffect : effect ∈ (TwitchService.machine.step s ev).2) :
    OwnMessage s effect := by
  cases effect with
  | message cfg text senderId =>
      obtain ⟨send, hsend, rfl, rfl⟩ := TwitchService.of_message_mem heffect
      have hcfg := h.cfg send hsend
      exact ⟨hcfg, by rw [hcfg]⟩
  | _ => trivial

theorem step_ownMessage {w : Window} (h : Sound w) (ev : Event) :
    ∀ effect ∈ (TwitchService.machine.trace w.service (machine.step w ev).2).flatten,
      OwnMessage w.service effect := by
  rcases step_does w ev with ⟨-, hstep⟩ | ⟨hw, hdoes⟩
  · rw [hstep]
    exact nofun
  · generalize (machine.step w ev).1 = w', (machine.step w ev).2 = made at hdoes ⊢
    cases hdoes with
    | nothing | manageAuth | spawn | manageChat | edit => exact nofun
    | _ =>
        simp only [Machine.trace_cons, Machine.trace_nil, List.flatten_cons, List.flatten_nil,
          List.append_nil]
        exact fun effect heffect ↦ h.owned.ownMessage heffect

/-- **Messages are sent by their owner.**  In every run of the window in which
`Logout` is never pressed while the service is connecting: whenever a message is posted,
the token, the client id and the channel in the request are those that the service
is configured with at that moment, and the sender is the owner of the channel. -/
theorem along_owned (config : ClientConfig) (es : List Event)
    (h : machine.Along Prompt (start config) es) :
    machine.Along (fun w ev ↦
        ∀ effect ∈ (TwitchService.machine.trace w.service (machine.step w ev).2).flatten,
          OwnMessage w.service effect)
      (start config) es :=
  Machine.along_of_invariant (fun _ _ hw ↦ step_sound hw) (fun _ ev hw _ ↦ step_ownMessage hw ev)
    (start_sound config) h

theorem along_owned_session :
    machine.Along (fun w ev ↦
        ∀ effect ∈ (TwitchService.machine.trace w.service (machine.step w ev).2).flatten,
          OwnMessage w.service effect)
      (start {}) session :=
  along_owned {} session along_prompt_session

end Window

end Seraphbot
