import Seraphbot.Twitch.Auth
import Seraphbot.Twitch.Delivery

/-!
# Logins from end to end

The model of `Auth::parseTwitchUser` and `Auth::fetchUserInfoAsync`, and the coroutine
of `TwitchService::startLogin` put together with what `Auth` makes of the answers of
the servers.

`Auth` is one object for all logins, and a login that fails may leave an access token
behind in it.  The service copies the token only after a login has succeeded, and by
then it is the one of that login: what logins before it have left behind never shows
(`signOn_run`).

`parseTime` and the conversion of numbers are left to the standard library.
-/

namespace Seraphbot

open Twitch

/-! ## The user -/

/-- `sbot::tw::TwitchUserInfo`. -/
structure TwitchUserInfo where
  id : Bytes
  login : Bytes
  displayName : Bytes
  broadcasterType : Bytes
  description : Bytes
  /-- Seconds since the epoch. -/
  createdAt : Int
  profileImageUrl : Bytes
  viewCount : Nat
  offlineImageUrl : Bytes
  email : Bytes

/-- What the standard library is asked for. -/
structure Conversions where
  /-- `parseTime`, `none` when it throws. -/
  parseTime : Bytes → Option Int
  /-- A numeral as an `unsigned int`. -/
  toUnsigned : Bytes → Nat

/-- `value(key, 0U)`. -/
def Json.valueUnsigned (conv : Conversions) (key : String) : Json → Option Nat
  | .object members =>
      match members.lookup (bytes key) with
      | none => some 0
      | some (.number numeral) => some (conv.toUnsigned numeral)
      | some (.boolean b) => some b.toNat
      | some _ => none
  | _ => none

namespace Auth

variable (conv : Conversions) (parse : Bytes → Option Json)

/-- The user in an answer, `none` when that throws. -/
def parseTwitchUser (userJson : Json) : Option TwitchUserInfo :=
  match userJson.atKey "data" with
  | some (.array (user :: _)) => do
      let created ← user.value "created_at" []
      let createdAt ← if created ≠ [] then conv.parseTime created else some 0
      return {
        id := ← user.value "id" []
        login := ← user.value "login" []
        displayName := ← user.value "display_name" []
        broadcasterType := ← user.value "broadcaster_type" []
        description := ← user.value "description" []
        createdAt
        profileImageUrl := ← user.value "profile_image_url" []
        viewCount := ← user.valueUnsigned conv "view_count"
        offlineImageUrl := ← user.value "offline_image_url" []
        email := ← user.value "email" [] }
  | _ => none

def fetchUserInfoAsync (o : HttpOutcome) : Option TwitchUserInfo :=
  (jsonOf parse o).bind (parseTwitchUser conv)

end Auth

/-! ## The coroutine -/

namespace TwitchService

/-- What the surroundings contribute to a login of the service. -/
structure Attempt where
  run : Auth.LoginRun
  user : HttpOutcome
  /-- The text of an exception, if there is one. -/
  what : Bytes := []

variable (conv : Conversions) (parse : Bytes → Option Json)

/-- How the awaited calls of a login end, one after the other. -/
def resumptions (attempt : Attempt) (a : Auth) : Auth × List (Resumption LoginAnswer) :=
  match Auth.loginAsync parse attempt.run a with
  | (a, .error _) => (a, [.threw attempt.what])
  | (a, .ok ()) =>
      match Auth.fetchUserInfoAsync conv parse attempt.user with
      | none => (a, [.returned ⟨[], [], [], []⟩, .threw attempt.what])
      | some user =>
          (a, [.returned ⟨[], [], [], []⟩,
            .returned ⟨user.displayName, user.id, a.accessToken, a.clientId⟩])

/-- Logins one after the other.  Before each of them the service is disconnected, by
the buttons `Logout` and `Reset`. -/
def signOn : Machine (TwitchService × Auth) Attempt Unit where
  step sa attempt :=
    let (a, rs) := resumptions conv parse attempt sa.2
    ((machine.run sa.1 (.disconnect :: .startLogin :: rs.map (.resumeLogin 0)), a), ())

/-- What a login should come to: the answers have the client id and an address for the
consent page, the page could be opened, one of the polls has brought both tokens, and
there is a user.  The token is the first one. -/
def outcome (attempt : Attempt) : Option LoginAnswer := do
  let clientId ← (Auth.jsonOf parse attempt.run.clientId).bind (Json.stringAt "client_id")
  let _ ← getHttpAsync attempt.run.authUrl
  if attempt.run.browser then
    let (token, _) ← attempt.run.responses.findSome? (Auth.tokensOf parse)
    let user ← Auth.fetchUserInfoAsync conv parse attempt.user
    return ⟨user.displayName, user.id, token, clientId⟩
  else none

/-! ## Runs of logins -/

/-- A login returns the answer that it should, whatever was in `Auth` before, or it
throws. -/
theorem resumptions_cases (attempt : Attempt) (a : Auth) :
    (∃ answer, outcome conv parse attempt = some answer ∧
      (resumptions conv parse attempt a).2 =
        [.returned ⟨[], [], [], []⟩, .returned answer]) ∨
    outcome conv parse attempt = none ∧
      ((resumptions conv parse attempt a).2 = [.threw attempt.what] ∨
        (resumptions conv parse attempt a).2 =
          [.returned ⟨[], [], [], []⟩, .threw attempt.what]) := by
  unfold resumptions outcome Auth.loginAsync Auth.fetchClientIdAsync Auth.getAuthUrlAsync
  cases (Auth.jsonOf parse attempt.run.clientId).bind (Json.stringAt "client_id") with
  | none => exact .inr ⟨rfl, .inl rfl⟩
  | some clientId =>
      cases getHttpAsync attempt.run.authUrl with
      | none => exact .inr ⟨rfl, .inl rfl⟩
      | some url =>
          cases attempt.run.browser with
          | false => exact .inr ⟨rfl, .inl rfl⟩
          | true =>
              simp only [Auth.pollToken_eq]
              cases attempt.run.responses.findSome? (Auth.tokensOf parse) with
              | none => exact .inr ⟨rfl, .inl rfl⟩
              | some tokens =>
                  cases Auth.fetchUserInfoAsync conv parse attempt.user with
                  | none => exact .inr ⟨rfl, .inr rfl⟩
                  | some user => exact .inl ⟨_, rfl, rfl⟩

/-- The service has not crashed, and no login is in flight. -/
structure Idle (s : TwitchService) : Prop where
  crashed : s.crashed = false
  logins : s.logins = []

/-- What a login leaves behind in an idle service. -/
structure Ends (answer : Option LoginAnswer) (s s' : TwitchService) : Prop where
  idle : Idle s'
  state : s'.state = if answer.isSome then .loggedIn else .error
  config : s'.config = (answer.map credentials).getD s.config

theorem signOn_step (s : TwitchService) (a : Auth) (attempt : Attempt) (h : Idle s) :
    Ends (outcome conv parse attempt) s ((signOn conv parse).step (s, a) attempt).1.1 := by
  obtain ⟨hcrashed, hlogins⟩ := h
  obtain ⟨state, eventsub, chatRead, chatSend, config, currentUser, logins, connects, sends, reads,
    crashed⟩ := s
  subst hcrashed hlogins
  simp only [signOn]
  rcases resumptions_cases conv parse attempt a with ⟨answer, hout, hrs⟩ | ⟨hout, hrs | hrs⟩
  all_goals rw [hout, hrs]
  all_goals exact ⟨⟨rfl, rfl⟩, rfl, rfl⟩

/-- **Logins leave nothing behind but their answer.**  For all logins one after the
other on one and the same service, whatever the servers answer: the service is
configured with the token, the user and the client id of the last login that got all
the answers it needs, and with what it was configured with before if there was none.
It is logged in exactly if the last one of all was such a login, and has failed
otherwise. -/
theorem signOn_run (config : ClientConfig) (a : Auth) (attempts : List Attempt) :
    let s := ((signOn conv parse).run ({ config }, a) attempts).1
    s.config =
        (((attempts.filterMap (outcome conv parse)).getLast?).map credentials).getD config ∧
      s.state =
        match attempts.getLast? with
        | none => .disconnected
        | some attempt =>
            if (outcome conv parse attempt).isSome then .loggedIn else .error := by
  suffices h : Idle ((signOn conv parse).run ({ config }, a) attempts).1 ∧ _ from h.2
  induction attempts using List.reverseRecOn with
  | nil => exact ⟨⟨rfl, rfl⟩, rfl, rfl⟩
  | append_singleton attempts attempt ih =>
      obtain ⟨hidle, hconfig, -⟩ := ih
      rw [Machine.run_concat]
      generalize (signOn conv parse).run ({ config }, a) attempts = sa at hidle hconfig
      have hends := signOn_step conv parse sa.1 sa.2 attempt hidle
      refine ⟨hends.idle, ?_, ?_⟩
      · rw [hends.config, hconfig]
        cases hout : outcome conv parse attempt <;> simp [hout]
      · rw [hends.state]
        simp

end TwitchService

end Seraphbot
