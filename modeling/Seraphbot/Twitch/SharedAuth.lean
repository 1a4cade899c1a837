import Seraphbot.Twitch.Login

/-!
# One `Auth` for all logins

A login stores the client id and the tokens that it receives in `Auth`, and the last
segment of its coroutine copies them from there into the configuration.  `Auth` is one
object.  `disconnect` does not stop a login that is in flight, and after it another
one can be started: the two then write to the same fields, and the configuration that
one of them completes can have the token of the other.  Besides, a message takes its
sender from the configuration only when its coroutine starts, and its credentials from
the copy that was made for the connection.

Here the segments of the logins are taken one by one, with the service in between.
Every login also keeps an `Auth` of its own, which the program does not have: it says
what this login has received.  As long as no login is started while another one is in
flight, the one `Auth` is as good as one for each login, and nothing is ever mixed
(`requests_of_one_login`).
-/

namespace Seraphbot

open Twitch

/-! ## The segments of a login -/

/-- The answer that a login waits for. -/
inductive AuthPc where
  | clientId
  | authUrl
  /-- The answer to a poll, after as many failed attempts. -/
  | poll (attempts : Nat)
  | userInfo
deriving DecidableEq

/-- What the surroundings contribute to a segment. -/
structure Reply where
  http : HttpOutcome
  /-- What `generateState` draws, where it is called. -/
  state : Bytes := []
  /-- The process that opens the consent page could be started. -/
  browser : Bool := true
  /-- The text of an exception, if there is one. -/
  what : Bytes := []

/-- Where a segment ends. -/
inductive Progress where
  | awaits (pc : AuthPc)
  | fetched (user : TwitchUserInfo)
  | throws

namespace Auth

variable (conv : Conversions) (parse : Bytes → Option Json)

/-- `loginAsync` and then `fetchUserInfoAsync`, from an answer to the next request. -/
def resume (pc : AuthPc) (reply : Reply) (a : Auth) : Auth × Progress :=
  match pc with
  | .clientId =>
      match fetchClientIdAsync parse reply.http a with
      | (a, false) => (a, .throws)
      -- the state is drawn before the next request
      | (a, true) => ({ a with state := reply.state }, .awaits .authUrl)
  | .authUrl =>
      match getHttpAsync reply.http with
      | none => (a, .throws)
      | some _ => if !reply.browser then (a, .throws) else (a, .awaits (.poll 0))
  | .poll attempts =>
      match requestTokenAsync parse reply.http a with
      | (a, true) => (a, .awaits .userInfo)
      | (a, false) =>
          if attempts + 1 < maxAttempts then (a, .awaits (.poll (attempts + 1)))
          else (a, .throws)
  | .userInfo =>
      match fetchUserInfoAsync conv parse reply.http with
      | none => (a, .throws)
      | some user => (a, .fetched user)

/-! ### The segments one after the other -/

/-- The segments of a login that nothing comes between, up to the end of `loginAsync`. -/
def resumeAll : List Reply → AuthPc → Auth → Auth × Progress
  | [], pc, a => (a, .awaits pc)
  | reply :: replies, pc, a =>
      match resume conv parse pc reply a with
      | (a, .awaits .userInfo) => (a, .awaits .userInfo)
      | (a, .awaits pc) => resumeAll replies pc a
      | (a, progress) => (a, progress)

/-- The answers that a login gets. -/
def LoginRun.replies (run : LoginRun) : List Reply :=
  { http := run.clientId, state := run.state } ::
    { http := run.authUrl, browser := run.browser } :: run.responses.map ({ http := · })

/-- How `loginAsync` ends, as an end of its last segment. -/
def ended : Bool → Progress
  | true => .awaits .userInfo
  | false => .throws

theorem resumeAll_poll {os : List HttpOutcome} {attempts : Nat} (hos : os ≠ [])
    (hlength : attempts + os.length = maxAttempts) (a : Auth) :
    resumeAll conv parse (os.map ({ http := · })) (.poll attempts) a =
      ((pollToken parse os a).1, ended (pollToken parse os a).2) := by
  induction os generalizing attempts a with
  | nil => exact absurd rfl hos
  | cons o os ih =>
      rw [List.map_cons, resumeAll, resume, pollToken]
      rcases requestTokenAsync parse o a with ⟨a', _ | _⟩
      · dsimp only
        cases os with
        | nil =>
            have hlast : ¬ attempts + 1 < maxAttempts := Nat.not_lt.mpr hlength.ge
            rw [if_neg hlast]
            rfl
        | cons o' os =>
            have hmore : attempts + 1 < maxAttempts := by
              simp only [List.length_cons] at hlength
              omega
            rw [if_pos hmore]
            exact ih (List.cons_ne_nil _ _) (by simp only [List.length_cons] at hlength ⊢; omega) a'
      · rfl

/-- A login that nothing comes between is `loginAsync`. -/
theorem resumeAll_replies (run : LoginRun) (a : Auth) :
    resumeAll conv parse run.replies .clientId a =
      ((loginAsync parse run a).1, ended (loginAsync parse run a).2.isOk) := by
  rw [LoginRun.replies, resumeAll, resume, loginAsync]
  rcases fetchClientIdAsync parse run.clientId a with ⟨a', _ | _⟩
  · rfl
  · dsimp only
    rw [resumeAll, resume, getAuthUrlAsync]
    cases getHttpAsync run.authUrl with
    | none => rfl
    | some url =>
        cases hbrowser : run.browser with
        | false => rfl
        | true =>
            have hlength : run.responses.length = maxAttempts := List.length_ofFn
            have hpolls : run.responses ≠ [] :=
              List.ne_nil_of_length_pos (by rw [hlength]; decide)
            simp only [Bool.not_true, Bool.false_eq_true, if_false]
            rw [resumeAll_poll conv parse hpolls (by rw [hlength, Nat.zero_add])]
            rcases pollToken parse run.responses { a' with state := run.state } with ⟨_, _ | _⟩ <;>
              rfl

end Auth

/-! ## The machine -/

/-- A login in flight, with what it has received. -/
structure LoginInFlight where
  pc : AuthPc := .clientId
  own : Auth := {}

/-- `TwitchService` with its `Auth`.  The logins are those of the service, in the same
order. -/
structure SharedAuth where
  service : TwitchService
  auth : Auth := {}
  logins : List LoginInFlight := []

namespace SharedAuth

/-- The steps of the service, but for the logins, and the answers to these. -/
inductive Event where
  | service (ev : TwitchService.Event)
  | answer (i : Nat) (reply : Reply)

structure Emission where
  /-- The step that the service takes. -/
  taken : List TwitchService.Event := []
  effects : List Effect := []
  /-- What a login that is completed has received. -/
  received : List ClientConfig := []

variable (conv : Conversions) (parse : Bytes → Option Json)

/-- The service takes a step. -/
def tell (ev : TwitchService.Event) (received : List ClientConfig) (p : SharedAuth) :
    SharedAuth × Emission :=
  let (service, effects) := TwitchService.machine.step p.service ev
  ({ p with service }, { taken := [ev], effects, received })

/-- The answer that the `i`-th login waits for is there. -/
def answer (i : Nat) (reply : Reply) (p : SharedAuth) : SharedAuth × Emission :=
  match p.logins[i]? with
  | none => (p, {})
  | some login =>
      let own := (Auth.resume conv parse login.pc reply login.own).1
      match Auth.resume conv parse login.pc reply p.auth with
      | (auth, .awaits .userInfo) =>
          tell (.resumeLogin i (.returned ⟨[], [], [], []⟩)) []
            { p with auth, logins := p.logins.set i ⟨.userInfo, own⟩ }
      | (auth, .awaits pc) => ({ p with auth, logins := p.logins.set i ⟨pc, own⟩ }, {})
      | (auth, .throws) =>
          tell (.resumeLogin i (.threw reply.what)) []
            { p with auth, logins := p.logins.eraseIdx i }
      | (auth, .fetched user) =>
          tell (.resumeLogin i
              (.returned ⟨user.displayName, user.id, auth.accessToken, auth.clientId⟩))
            [⟨own.accessToken, user.id, own.clientId⟩]
            { p with auth, logins := p.logins.eraseIdx i }

/-- The step while the service has not crashed. -/
def act (p : SharedAuth) : Event → SharedAuth × Emission
  | .service (.resumeLogin _ _) => (p, {})
  | .service .startLogin =>
      let logins := if p.service.state ≠ .disconnected then p.logins else p.logins ++ [{}]
      tell .startLogin [] { p with logins }
  | .service ev => tell ev [] p
  | .answer i reply => p.answer conv parse i reply

def machine : Machine SharedAuth Event Emission where
  step p ev := if p.service.crashed then (p, {}) else p.act conv parse ev

/-- A new service. -/
def start (config : ClientConfig) (auth : Auth) : SharedAuth := { service := { config }, auth }

/-- What the logins that a run completes have received, each of them itself. -/
def received (p : SharedAuth) (es : List Event) : List ClientConfig :=
  ((machine conv parse).trace p es).flatMap Emission.received

/-- A login is started only while no other is in flight. -/
def OneAtATime (p : SharedAuth) (ev : Event) : Prop :=
  ev = .service .startLogin → p.logins = []

/-! ## What the service sees -/

/-- A step is none of the service, or the one step that it says. -/
inductive Follows (p p' : SharedAuth) (out : Emission) : Prop
  | stays (service : p'.service = p.service) (out : out = {})
  | takes (ev : TwitchService.Event) (taken : out.taken = [ev])
      (service : p'.service = (TwitchService.machine.step p.service ev).1)
      (effects : out.effects = (TwitchService.machine.step p.service ev).2)

theorem follows_tell (ev : TwitchService.Event) (received : List ClientConfig)
    {p q : SharedAuth} (h : q.service = p.service) :
    Follows p (tell ev received q).1 (tell ev received q).2 :=
  .takes ev rfl (by rw [← h]; rfl) (by rw [← h]; rfl)

theorem step_follows (p : SharedAuth) (ev : Event) :
    Follows p ((machine conv parse).step p ev).1 ((machine conv parse).step p ev).2 := by
  cases hp : p.service.crashed with
  | true => exact .stays (by simp [machine, hp]) (by simp [machine, hp])
  | false =>
      have hstep : (machine conv parse).step p ev = p.act conv parse ev := by simp [machine, hp]
      rw [hstep]
      fun_cases act conv parse p ev with
      | case1 => exact .stays rfl rfl
      | case2 => exact follows_tell _ _ rfl
      | case3 => exact follows_tell _ _ rfl
      | case4 i reply =>
          fun_cases answer conv parse i reply p with
          | case1 | case3 => exact .stays rfl rfl
          | _ => exact follows_tell _ _ rfl

/-- The run of the service in a run. -/
theorem run_service (p : SharedAuth) (es : List Event) :
    ((machine conv parse).run p es).service =
      TwitchService.machine.run p.service
        (((machine conv parse).trace p es).flatMap Emission.taken) := by
  induction es generalizing p with
  | nil => rfl
  | cons ev es ih =>
      rw [Machine.run_cons, Machine.trace_cons, List.flatMap_cons, Machine.run_append, ih]
      congr 1
      rcases step_follows conv parse p ev with ⟨hservice, hout⟩ | ⟨sev, htaken, hservice, -⟩
      · rw [hservice, hout]
        rfl
      · rw [hservice, htaken]
        rfl

end SharedAuth

/-! ## Nobody else's answers -/

namespace Auth

variable {conv : Conversions} {parse : Bytes → Option Json}

/-- The two have the same of what a login has received at this point. -/
structure Agrees (pc : AuthPc) (a b : Auth) : Prop where
  clientId : pc ≠ .clientId → a.clientId = b.clientId
  accessToken : pc = .userInfo → a.accessToken = b.accessToken

/-- A segment that awaits another answer has stored the same in both. -/
theorem Agrees.resume {pc pc' : AuthPc} {a b : Auth} (h : Agrees pc a b) {reply : Reply}
    (hnext : (resume conv parse pc reply a).2 = .awaits pc') :
    Agrees pc' (resume conv parse pc reply a).1 (resume conv parse pc reply b).1 := by
  revert hnext
  cases pc with
  | clientId =>
      unfold Auth.resume fetchClientIdAsync
      cases (jsonOf parse reply.http).bind (Json.stringAt "client_id") with
      | none => rintro ⟨⟩
      | some clientId =>
          rintro ⟨⟩
          exact ⟨fun _ ↦ rfl, by rintro ⟨⟩⟩
  | authUrl =>
      have hid : a.clientId = b.clientId := h.clientId (by rintro ⟨⟩)
      unfold Auth.resume
      cases getHttpAsync reply.http with
      | none => rintro ⟨⟩
      | some url =>
          cases reply.browser with
          | false => rintro ⟨⟩
          | true =>
              rintro ⟨⟩
              exact ⟨fun _ ↦ hid, by rintro ⟨⟩⟩
  | poll attempts =>
      have hid : a.clientId = b.clientId := h.clientId (by rintro ⟨⟩)
      simp only [Auth.resume, requestTokenAsync_eq]
      cases tokensOf parse reply.http with
      | some tokens =>
          rintro ⟨⟩
          exact ⟨fun _ ↦ hid, fun _ ↦ rfl⟩
      | none =>
          dsimp only
          split_ifs
          · rintro ⟨⟩
            exact ⟨fun _ ↦ hid, by rintro ⟨⟩⟩
          · rintro ⟨⟩
  | userInfo =>
      unfold Auth.resume
      cases fetchUserInfoAsync conv parse reply.http <;> rintro ⟨⟩

/-- Only the last segment fetches the user. -/
theorem pc_of_fetched {pc : AuthPc} {reply : Reply} {a : Auth} {user : TwitchUserInfo}
    (h : (resume conv parse pc reply a).2 = .fetched user) : pc = .userInfo := by
  revert h
  fun_cases resume conv parse pc reply a <;> first | exact fun _ ↦ rfl | exact nofun

/-- The last segment awaits nothing. -/
theorem pc_of_awaits {pc pc' : AuthPc} {reply : Reply} {a : Auth}
    (h : (resume conv parse pc reply a).2 = .awaits pc') : pc ≠ .userInfo := by
  rintro rfl
  unfold resume at h
  cases hfetch : fetchUserInfoAsync conv parse reply.http <;> rw [hfetch] at h <;> cases h

/-- The last segment changes nothing. -/
theorem resume_userInfo (reply : Reply) (a : Auth) :
    (resume conv parse .userInfo reply a).1 = a := by
  unfold resume
  cases fetchUserInfoAsync conv parse reply.http <;> rfl

end Auth

namespace TwitchService

/-- At most one login is in flight, and while it is there is no connection; the sender
of messages has the configuration of the service. -/
structure Steady (s : TwitchService) : Prop where
  single : s.logins.length ≤ 1
  disconnected : s.state = .disconnected → s.chatSend = none
  inFlight : s.logins ≠ [] → s.chatSend = none ∧ s.state ≠ .loggedIn
  chatSend : ∀ c, s.chatSend = some c → c.cfg = s.config

namespace Steady

variable {s : TwitchService}

/-- The logins, the sender and the configuration stay. -/
theorem keep (h : Steady s) {s' : TwitchService} (hlogins : s'.logins = s.logins)
    (hsend : s'.chatSend = s.chatSend) (hconfig : s'.config = s.config)
    (hdisconnected : s'.state = .disconnected → s.state = .disconnected)
    (hloggedIn : s'.state = .loggedIn → s.state = .loggedIn) : Steady s' := by
  refine ⟨?_, fun hst ↦ ?_, fun hne ↦ ?_, ?_⟩
  · rw [hlogins]
    exact h.single
  · rw [hsend]
    exact h.disconnected (hdisconnected hst)
  · rw [hlogins] at hne
    rw [hsend]
    exact ⟨(h.inFlight hne).1, fun hst ↦ (h.inFlight hne).2 (hloggedIn hst)⟩
  · rw [hsend, hconfig]
    exact h.chatSend

end Steady

theorem act_steady {s : TwitchService} (h : Steady s) {ev : Event}
    (hev : ev = .startLogin → s.logins = []) : Steady (s.act ev).1 := by
  cases ev with
  | startLogin =>
      simp only [act]
      fun_cases startLogin s with
      | case1 => exact h
      | case2 hst =>
          have hnone := h.disconnected (not_not.mp hst)
          refine ⟨?_, by rintro ⟨⟩, fun _ ↦ ⟨hnone, by rintro ⟨⟩⟩, h.chatSend⟩
          simp [setState, hev rfl]
  | resumeLogin i r =>
      simp only [act]
      fun_cases resumeLogin i r s with
      | case1 => exact h
      | case2 pc what hi =>
          have hne := List.ne_nil_of_mem (List.mem_of_getElem? hi)
          have hnone := (h.inFlight hne).1
          refine ⟨?_, by rintro ⟨⟩, fun _ ↦ ⟨hnone, by rintro ⟨⟩⟩, h.chatSend⟩
          exact (List.length_eraseIdx_le _ _).trans h.single
      | case3 answer hi =>
          have hne := List.ne_nil_of_mem (List.mem_of_getElem? hi)
          refine ⟨?_, h.disconnected, fun _ ↦ h.inFlight hne, h.chatSend⟩
          rw [List.length_set]
          exact h.single
      | case4 answer hi =>
          -- it was the only one, so that none is left
          have hnone := (h.inFlight (List.ne_nil_of_mem (List.mem_of_getElem? hi))).1
          have hlength := List.length_eraseIdx_add_one (List.getElem?_eq_some_iff.mp hi).1
          have hnil : s.logins.eraseIdx i = [] :=
            List.eq_nil_of_length_eq_zero (by have := h.single; omega)
          refine ⟨?_, by rintro ⟨⟩, fun hne ↦ absurd hnil hne, ?_⟩
          · simp [setState, hnil]
          · intro c hc
            cases hnone.symm.trans hc
  | connectToChat =>
      simp only [act]
      fun_cases connectToChat s with
      | case1 => exact h
      | case2 hst =>
          have hnil : s.logins = [] := by
            by_contra hne
            exact (h.inFlight hne).2 (not_not.mp hst)
          refine ⟨h.single, by rintro ⟨⟩, fun hne ↦ absurd hnil hne, ?_⟩
          rintro _ ⟨⟩
          rfl
  | resumeConnect i r =>
      simp only [act]
      fun_cases resumeConnect i r s with
      | case1 => exact h
      | case2 | case8 => exact h.keep rfl rfl rfl (by rintro ⟨⟩) (by rintro ⟨⟩)
      | _ => exact h.keep rfl rfl rfl id id
  | startRead =>
      simp only [act]
      fun_cases startRead s <;> exact h.keep rfl rfl rfl id id
  | sendMessage message =>
      simp only [act]
      fun_cases sendMessage message s <;> exact h.keep rfl rfl rfl id id
  | resumeSend i r =>
      simp only [act]
      fun_cases resumeSend i r s <;> exact h.keep rfl rfl rfl id id
  | disconnect => exact ⟨h.single, fun _ ↦ rfl, fun _ ↦ ⟨rfl, by rintro ⟨⟩⟩, by rintro _ ⟨⟩⟩

theorem step_steady {s : TwitchService} (h : Steady s) {ev : Event}
    (hev : ev = .startLogin → s.logins = []) : Steady (machine.step s ev).1 := by
  cases hs : s.crashed with
  | true => simpa [machine, hs] using h
  | false =>
      rw [step_of_not_crashed hs]
      exact act_steady h hev

/-- Nothing else has to do with logins. -/
theorem step_aside_logins (s : TwitchService) {ev : Event} (hstart : ev ≠ .startLogin)
    (hresume : ∀ i r, ev ≠ .resumeLogin i r) :
    (machine.step s ev).1.logins = s.logins ∧ s.completed [ev] = [] := by
  cases hs : s.crashed with
  | true => cases ev <;> simp_all [machine, completed, completes]
  | false =>
      rw [step_of_not_crashed hs]
      cases ev with
      | startLogin => exact absurd rfl hstart
      | resumeLogin i r => exact absurd rfl (hresume i r)
      | connectToChat =>
          simp only [act]
          fun_cases connectToChat s <;> exact ⟨rfl, rfl⟩
      | resumeConnect i r =>
          simp only [act]
          fun_cases resumeConnect i r s <;> exact ⟨rfl, rfl⟩
      | startRead =>
          simp only [act]
          fun_cases startRead s <;> exact ⟨rfl, rfl⟩
      | sendMessage message =>
          simp only [act]
          fun_cases sendMessage message s <;> exact ⟨rfl, rfl⟩
      | resumeSend i r =>
          simp only [act]
          fun_cases resumeSend i r s <;> exact ⟨rfl, rfl⟩
      | disconnect => exact ⟨rfl, rfl⟩

/-- The sender that a request names. -/
def requestSender : Effect → Option Bytes
  | .message _ _ senderId => some senderId
  | _ => none

/-- A steady service sends messages in the name of the user whose token it uses. -/
theorem Steady.requestSender_eq {s : TwitchService} (h : Steady s) {ev : Event} {effect : Effect}
    (heffect : effect ∈ (machine.step s ev).2) {cfg : ClientConfig}
    (hcfg : requestConfig effect = some cfg) {id : Bytes} (hid : requestSender effect = some id) :
    id = cfg.broadcasterId := by
  cases effect with
  | message cfg' text id' =>
      cases hcfg
      cases hid
      obtain ⟨send, hsend, rfl, rfl⟩ := of_message_mem heffect
      rw [h.chatSend send hsend]
  | _ => cases hid

end TwitchService

namespace SharedAuth

variable {conv : Conversions} {parse : Bytes → Option Json}

/-- Where the service takes a login to be. -/
def loginPc : AuthPc → LoginPc
  | .userInfo => .fetchUserInfoAsync
  | _ => .loginAsync

/-- At most one login is in flight, and `Auth` has of what it has received what it will
need. -/
structure Undisturbed (p : SharedAuth) : Prop where
  steady : p.service.Steady
  logins : p.service.logins = p.logins.map fun login ↦ loginPc login.pc
  agrees : ∀ login ∈ p.logins, Auth.Agrees login.pc p.auth login.own

/-- The logins that a step completes have the answers that they have received. -/
def Genuine (p : SharedAuth) (out : Emission) : Prop :=
  out.received = (p.service.completed out.taken).map TwitchService.credentials

/-- The only login there is. -/
theorem Undisturbed.logins_eq {p : SharedAuth} (h : Undisturbed p) {i : Nat}
    {login : LoginInFlight} (hi : p.logins[i]? = some login) :
    i = 0 ∧ p.logins = [login] ∧ p.service.logins = [loginPc login.pc] := by
  have hsingle := h.steady.single
  rw [h.logins, List.length_map] at hsingle
  obtain ⟨hlt, rfl⟩ := List.getElem?_eq_some_iff.mp hi
  obtain rfl : i = 0 := by omega
  obtain ⟨login, hlogins⟩ := List.length_eq_one_iff.mp (show p.logins.length = 1 by omega)
  refine ⟨rfl, ?_, ?_⟩
  · simp [hlogins]
  · simp [h.logins, hlogins]

theorem loginPc_of_ne {pc : AuthPc} (h : pc ≠ .userInfo) : loginPc pc = .loginAsync := by
  cases pc with
  | userInfo => exact absurd rfl h
  | _ => rfl

/-- A login that awaits another answer still finds what it has received. -/
theorem agrees_of_awaits {login : LoginInFlight} {a auth : Auth} {reply : Reply} {pc : AuthPc}
    (h : Auth.Agrees login.pc a login.own)
    (hresume : Auth.resume conv parse login.pc reply a = (auth, .awaits pc)) :
    Auth.Agrees pc auth (Auth.resume conv parse login.pc reply login.own).1 := by
  have hagrees := h.resume (congrArg Prod.snd hresume)
  rwa [hresume] at hagrees

theorem answer_undisturbed {p : SharedAuth} (h : Undisturbed p) (hp : p.service.crashed = false)
    (i : Nat) (reply : Reply) :
    Undisturbed (p.answer conv parse i reply).1 ∧ Genuine p (p.answer conv parse i reply).2 := by
  fun_cases answer conv parse i reply p with
  | case1 => exact ⟨h, rfl⟩
  | case2 login hi own auth hresume =>
      obtain ⟨rfl, hlogins, hservice⟩ := h.logins_eq hi
      have hpc : loginPc login.pc = .loginAsync :=
        loginPc_of_ne (Auth.pc_of_awaits (congrArg Prod.snd hresume))
      have hagrees := agrees_of_awaits (h.agrees login (by simp [hlogins])) hresume
      rw [hpc] at hservice
      refine ⟨⟨TwitchService.step_steady h.steady (by rintro ⟨⟩), ?_, ?_⟩, ?_⟩
      · simp [tell, TwitchService.step_of_not_crashed hp, TwitchService.act,
          TwitchService.resumeLogin, hservice, hlogins, loginPc]
      · simpa [tell, hlogins] using hagrees
      · simp [Genuine, tell, TwitchService.completed, TwitchService.completes, hservice]
  | case3 login hi own auth pc hpc hresume => 
      obtain ⟨rfl, hlogins, hservice⟩ := h.logins_eq hi
      have hold : loginPc login.pc = .loginAsync :=
        loginPc_of_ne (Auth.pc_of_awaits (congrArg Prod.snd hresume))
      have hagrees := agrees_of_awaits (h.agrees login (by simp [hlogins])) hresume
      refine ⟨⟨h.steady, ?_, ?_⟩, rfl⟩
      · simp [hservice, hlogins, hold, loginPc_of_ne hpc]
      · simpa [hlogins] using hagrees
  | case4 login hi auth hresume =>
      obtain ⟨rfl, hlogins, hservice⟩ := h.logins_eq hi
      refine ⟨⟨TwitchService.step_steady h.steady (by rintro ⟨⟩), ?_, ?_⟩, rfl⟩
      · simp [tell, TwitchService.step_of_not_crashed hp, TwitchService.act,
          TwitchService.resumeLogin, TwitchService.setState, hservice, hlogins]
      · simp [tell, hlogins]
  | case5 login hi own auth user hresume =>
      obtain ⟨rfl, hlogins, hservice⟩ := h.logins_eq hi
      have hpc := Auth.pc_of_fetched (congrArg Prod.snd hresume)
      have hagrees := h.agrees login (by simp [hlogins])
      have hauth : auth = p.auth := by
        rw [hpc] at hresume
        rw [← Auth.resume_userInfo reply p.auth, hresume]
      have hown : own = login.own := by
        simp only [own, hpc, Auth.resume_userInfo]
      rw [hpc] at hservice
      refine ⟨⟨TwitchService.step_steady h.steady (by rintro ⟨⟩), ?_, ?_⟩, ?_⟩
      · simp [tell, TwitchService.step_of_not_crashed hp, TwitchService.act,
          TwitchService.resumeLogin, TwitchService.setState, hservice, hlogins, loginPc]
      · simp [tell, hlogins]
      · simp [Genuine, tell, TwitchService.completed, TwitchService.completes, hservice, hp,
          loginPc, TwitchService.credentials, hauth, hown, hagrees.accessToken hpc,
          hagrees.clientId (by rw [hpc]; rintro ⟨⟩)]

variable (conv parse)

theorem step_undisturbed {p : SharedAuth} (h : Undisturbed p) {ev : Event}
    (hev : OneAtATime p ev) :
    Undisturbed ((machine conv parse).step p ev).1 ∧
      Genuine p ((machine conv parse).step p ev).2 := by
  cases hp : p.service.crashed with
  | true => simpa [machine, hp] using ⟨h, rfl⟩
  | false =>
      have hstep : (machine conv parse).step p ev = p.act conv parse ev := by simp [machine, hp]
      rw [hstep]
      fun_cases act conv parse p ev with
      | case1 => exact ⟨h, rfl⟩
      | case2 logins =>
          have hnil : p.service.logins = [] := by rw [h.logins, hev rfl, List.map_nil]
          refine ⟨⟨TwitchService.step_steady h.steady fun _ ↦ hnil, ?_, ?_⟩, rfl⟩
          · by_cases hst : p.service.state = .disconnected
            · simp [tell, TwitchService.step_of_not_crashed hp, TwitchService.act,
                TwitchService.startLogin, TwitchService.setState, logins, hst, h.logins, loginPc]
            · simp [tell, TwitchService.step_of_not_crashed hp, TwitchService.act,
                TwitchService.startLogin, logins, hst, h.logins]
          · -- the new login has received nothing yet
            intro login hmem
            have hnew : login = {} := by
              simp only [tell, logins, hev rfl] at hmem
              split_ifs at hmem
              · exact absurd hmem List.not_mem_nil
              · exact List.mem_singleton.mp hmem
            rw [hnew]
            exact ⟨fun hne ↦ absurd rfl hne, by rintro ⟨⟩⟩
      | case3 ev hresume hstart =>
          obtain ⟨hlogins, hcompleted⟩ :=
            TwitchService.step_aside_logins p.service hstart hresume
          refine ⟨⟨TwitchService.step_steady h.steady fun he ↦ (hstart he).elim, ?_, h.agrees⟩, ?_⟩
          · exact hlogins.trans h.logins
          · simp [Genuine, tell, hcompleted]
      | case4 i reply => exact answer_undisturbed h hp i reply

theorem undisturbed_start (config : ClientConfig) (auth : Auth) : Undisturbed (start config auth) :=
  ⟨⟨Nat.zero_le 1, fun _ ↦ rfl, fun hne ↦ absurd rfl hne, nofun⟩, rfl, List.forall_mem_nil _⟩

/-- What the service is configured with by the logins of a run is what they have
received. -/
theorem received_eq {p : SharedAuth} (h : Undisturbed p) {es : List Event}
    (hes : (machine conv parse).Along OneAtATime p es) :
    received conv parse p es =
      (p.service.completed (((machine conv parse).trace p es).flatMap Emission.taken)).map
        TwitchService.credentials := by
  induction es generalizing p with
  | nil => rfl
  | cons ev es ih =>
      obtain ⟨hundisturbed, hgenuine⟩ := step_undisturbed conv parse h hes.1
      have hservice := run_service conv parse p [ev]
      rw [Machine.trace_cons, Machine.trace_nil, List.flatMap_singleton] at hservice
      have hrest := ih hundisturbed hes.2
      rw [received, Machine.trace_cons, List.flatMap_cons, List.flatMap_cons,
        TwitchService.completed, Machine.gather_append, List.map_append, ← hservice]
      exact congrArg₂ (· ++ ·) hgenuine hrest

/-- **Nothing of two logins is mixed, as long as they do not overlap.**  In every run of
a new service with its `Auth`, whatever the servers answer and whatever happens between
the answers, in which no login is started while another one is in flight: whenever a
step opens the event socket, asks for a subscription or sends a message, the access
token, the client id and the user id that it does so with were all received by one and
the same login, which was completed earlier in the run, and the sender that a message
names is the user of this login. -/
theorem requests_of_one_login (config : ClientConfig) (auth : Auth) (es : List Event) (ev : Event)
    (h : (machine conv parse).Along OneAtATime (start config auth) es) :
    let M := machine conv parse
    ∀ effect ∈ (M.step (M.run (start config auth) es) ev).2.effects,
      ∀ cfg, TwitchService.requestConfig effect = some cfg →
        cfg ∈ received conv parse (start config auth) es ∧
          ∀ id, TwitchService.requestSender effect = some id → id = cfg.broadcasterId := by
  intro M effect heffect cfg hcfg
  have hundisturbed : Undisturbed (M.run (start config auth) es) :=
    Machine.run_invariant (I := Undisturbed)
      (fun _ _ hp hev ↦ (step_undisturbed conv parse hp hev).1)
      (undisturbed_start config auth) h
  rcases step_follows conv parse (M.run (start config auth) es) ev with
    ⟨-, hout⟩ | ⟨sev, -, -, heffects⟩
  · rw [hout] at heffect
    exact absurd heffect List.not_mem_nil
  · rw [heffects] at heffect
    refine ⟨?_, fun id hid ↦ hundisturbed.steady.requestSender_eq heffect hcfg hid⟩
    rw [received_eq conv parse (undisturbed_start config auth) h]
    rw [run_service] at heffect
    exact TwitchService.requests_known config _ sev (List.mem_filterMap.mpr ⟨effect, heffect, hcfg⟩)

/-! ### Runs with one and with two logins -/

/-- Answers that have all that is asked for, under one name. -/
def sameName (body : Bytes) : Option Json :=
  some (.object
    [(bytes "client_id", .string body), (bytes "access_token", .string body),
      (bytes "refresh_token", .string body),
      (bytes "data", .array [.object [(bytes "id", .string body)]])])

def noConversions : Conversions := ⟨fun _ ↦ some 0, fun _ ↦ 0⟩

/-- The next answers to the `i`-th login. -/
def answersTo (i n : Nat) (name : String) : List Event :=
  List.replicate n (.answer i { http := .response 200 [] (bytes name) })

/-- A connection, and a message that waits for its coroutine. -/
def oneMessage : List Event :=
  [.service .connectToChat, .service (.resumeConnect 0 (.returned ())),
    .service (.resumeConnect 0 (.returned ())), .service (.resumeConnect 0 (.returned ())),
    .service (.sendMessage (bytes "hi"))]

theorem requests_of_one_login_alice :
    let alice := bytes "alice"
    ⟨alice, alice, alice⟩ ∈ received noConversions sameName (start {} {})
        (.service .startLogin :: answersTo 0 4 "alice" ++ oneMessage) ∧
      ∀ id, TwitchService.requestSender (.message ⟨alice, alice, alice⟩ (bytes "hi") alice) =
        some id → id = alice := by
  refine requests_of_one_login noConversions sameName {} {} _
    (.service (.resumeSend 0 (.returned ()))) ?_
    (.message ⟨bytes "alice", bytes "alice", bytes "alice"⟩ (bytes "hi") (bytes "alice")) ?_ _ rfl
  · exact ⟨fun _ ↦ rfl, nofun, nofun, nofun, nofun, nofun, nofun, nofun, nofun, nofun, trivial⟩
  · decide

-- A second login is started while the first one is in flight.  It completes after the
-- message was taken, and before the coroutine of the message starts.
example :
    let M := machine noConversions sameName
    (M.step (M.run (start {} {})
        ([.service .startLogin, .service .disconnect, .service .startLogin] ++
          answersTo 0 4 "alice" ++ oneMessage ++ answersTo 0 4 "bob"))
      (.service (.resumeSend 0 (.returned ())))).2.effects =
      [.message ⟨bytes "alice", bytes "alice", bytes "alice"⟩ (bytes "hi") (bytes "bob")] := by
  decide

-- The second login stores its token while the first one waits for the user.
example :
    let M := machine noConversions sameName
    (M.run (start {} {})
        ([.service .startLogin, .service .disconnect, .service .startLogin] ++
          answersTo 0 3 "alice" ++ answersTo 1 3 "bob" ++ answersTo 0 1 "alice")).service.config =
      ⟨bytes "bob", bytes "alice", bytes "bob"⟩ := by
  decide

end SharedAuth

end Seraphbot
