import Seraphbot.Core.Json
import Seraphbot.Data.Latest

/-!
# Logging in

The model of `auth.cpp`.  A login asks the server of the bot for the client id and
for the address of the consent page, opens that page in a browser and then polls
for the tokens, ten times at most.  A poll that throws is swallowed and counts as
a failed attempt.

A poll stores the access token before it looks for the refresh token, so a
response with the former only leaves it behind although the attempt has failed.
`atomic_iff` says exactly when that shows.

Parsing is left to the JSON library, `parse` below.  The timers of the loop are
never cancelled and do not throw.
-/

namespace Seraphbot

/-! ## Requests -/

/-- What an HTTPS request came to: it failed on the way, or there was a
response. -/
inductive HttpOutcome where
  | failed
  | response (status : Nat) (location body : Bytes)

/-- The result of a request, `none` when `getHttpAsync` throws: the body, or the
address that the server redirects to. -/
def getHttpAsync : HttpOutcome → Option Bytes
  | .failed => none
  | .response status location body =>
      if status ≠ 200 && status ≠ 302 then none
      else if status = 302 then
        if location ≠ [] then some location else none
      else some body

/-- The part of `sbot::tw::Auth` that a login changes. -/
structure Auth where
  accessToken : Bytes := []
  clientId : Bytes := []
  state : Bytes := []
  refreshToken : Bytes := []
deriving DecidableEq

namespace Auth

variable (parse : Bytes → Option Json)

def isLoggedIn (a : Auth) : Bool := a.accessToken ≠ []

def storeToken (token : Bytes) (a : Auth) : Auth := { a with accessToken := token }

def storeRefreshToken (refreshToken : Bytes) (a : Auth) : Auth := { a with refreshToken }

/-- The JSON value in the result of a request. -/
def jsonOf (o : HttpOutcome) : Option Json := (getHttpAsync o).bind parse

/-- Ask for the client id; `false` when that throws. -/
def fetchClientIdAsync (o : HttpOutcome) (a : Auth) : Auth × Bool :=
  match (jsonOf parse o).bind (Json.stringAt "client_id") with
  | none => (a, false)
  | some clientId => ({ a with clientId }, true)

/-- Draw a state and ask for the address of the consent page; `none` when that
throws. -/
def getAuthUrlAsync (state : Bytes) (o : HttpOutcome) (a : Auth) : Auth × Option Bytes :=
  ({ a with state }, getHttpAsync o)

/-- One poll; `false` when it throws. -/
def requestTokenAsync (o : HttpOutcome) (a : Auth) : Auth × Bool :=
  match jsonOf parse o with
  | none => (a, false)
  | some json =>
      match json.stringAt "access_token" with
      | none => (a, false)
      | some token =>
          let a := a.storeToken token
          match json.stringAt "refresh_token" with
          | none => (a, false)
          | some refreshToken => (a.storeRefreshToken refreshToken, true)

/-! ## The login -/

def maxAttempts : Nat := 10

/-- Poll until an attempt does not throw. -/
def pollToken : List HttpOutcome → Auth → Auth × Bool
  | [], a => (a, false)
  | o :: os, a =>
      match requestTokenAsync parse o a with
      | (a, true) => (a, true)
      | (a, false) => pollToken os a

/-- Where a login can fail. -/
inductive LoginError where
  | clientId
  | authUrl
  | browser
  /-- `Authorization timeout`. -/
  | timeout
deriving DecidableEq

/-- What the surroundings contribute to a login. -/
structure LoginRun where
  clientId : HttpOutcome
  state : Bytes
  authUrl : HttpOutcome
  /-- The process that opens the consent page could be started. -/
  browser : Bool
  polls : Fin maxAttempts → HttpOutcome

/-- The outcomes of the polls, first one first. -/
def LoginRun.responses (run : LoginRun) : List HttpOutcome := List.ofFn run.polls

/-- The whole login, with what it throws. -/
def loginAsync (run : LoginRun) (a : Auth) : Auth × Except LoginError Unit :=
  match fetchClientIdAsync parse run.clientId a with
  | (a, false) => (a, .error .clientId)
  | (a, true) =>
      match getAuthUrlAsync run.state run.authUrl a with
      | (a, none) => (a, .error .authUrl)
      | (a, some _) =>
          if !run.browser then (a, .error .browser)
          else
            match pollToken parse run.responses a with
            | (a, true) => (a, .ok ())
            | (a, false) => (a, .error .timeout)

/-! ## What the polls leave behind -/

/-- The two tokens of a response that carries both. -/
def tokensOf (o : HttpOutcome) : Option (Bytes × Bytes) := do
  let json ← jsonOf parse o
  let token ← json.stringAt "access_token"
  let refreshToken ← json.stringAt "refresh_token"
  return (token, refreshToken)

/-- The access token of a response that carries no refresh token. -/
def loneToken (o : HttpOutcome) : Option Bytes := do
  let json ← jsonOf parse o
  let token ← json.stringAt "access_token"
  if (json.stringAt "refresh_token").isNone then some token else none

/-- The last access token that came without a refresh token. -/
def lastLoneToken (os : List HttpOutcome) : Option Bytes :=
  (latest (fun o ↦ (loneToken parse o).isSome) os).bind (loneToken parse)

theorem lastLoneToken_cons (o : HttpOutcome) (os : List HttpOutcome) :
    lastLoneToken parse (o :: os) = (lastLoneToken parse os).or (loneToken parse o) := by
  unfold lastLoneToken
  rw [latest_cons]
  cases h : latest (fun o ↦ (loneToken parse o).isSome) os with
  | none => cases ho : loneToken parse o <;> simp [ho]
  | some o' =>
      have hsat := latest_sat h
      obtain ⟨token, htoken⟩ := Option.isSome_iff_exists.mp hsat
      simp [htoken]

/-- A poll succeeds exactly with both tokens, and leaves a lone access token
behind. -/
theorem requestTokenAsync_eq (o : HttpOutcome) (a : Auth) :
    requestTokenAsync parse o a =
      match tokensOf parse o with
      | some (token, refreshToken) => ({ a with accessToken := token, refreshToken }, true)
      | none => ({ a with accessToken := (loneToken parse o).getD a.accessToken }, false) := by
  unfold requestTokenAsync tokensOf loneToken
  cases jsonOf parse o with
  | none => rfl
  | some json =>
      cases ht : json.stringAt "access_token" with
      | none => simp [ht]
      | some token =>
          cases hr : json.stringAt "refresh_token" <;>
            simp [ht, hr, storeToken, storeRefreshToken]

/-- The loop ends at the first response with both tokens; without one, the last
lone access token stays. -/
theorem pollToken_eq (os : List HttpOutcome) (a : Auth) :
    pollToken parse os a =
      match os.findSome? (tokensOf parse) with
      | some (token, refreshToken) => ({ a with accessToken := token, refreshToken }, true)
      | none =>
          ({ a with accessToken := (lastLoneToken parse os).getD a.accessToken }, false) := by
  induction os generalizing a with
  | nil => rfl
  | cons o os ih =>
      rw [pollToken, requestTokenAsync_eq, List.findSome?_cons, lastLoneToken_cons]
      cases tokensOf parse o with
      | some tokens => rfl
      | none =>
          dsimp only
          rw [ih]
          cases os.findSome? (tokensOf parse) with
          | some tokens => rfl
          | none => cases lastLoneToken parse os <;> simp

/-! ## Atomicity -/

/-- A login stores its tokens atomically: when it returns they are those of the
first response that carries both, and when it throws they are what they were. -/
structure Atomic (run : LoginRun) (a : Auth) : Prop where
  returned : (loginAsync parse run a).2 = .ok () →
    ∃ before o after, run.responses = before ++ o :: after ∧
      (∀ o' ∈ before, tokensOf parse o' = none) ∧
      tokensOf parse o = some ((loginAsync parse run a).1.accessToken,
        (loginAsync parse run a).1.refreshToken)
  threw : ∀ e, (loginAsync parse run a).2 = .error e →
    (loginAsync parse run a).1.accessToken = a.accessToken ∧
      (loginAsync parse run a).1.refreshToken = a.refreshToken ∧
      (loginAsync parse run a).1.isLoggedIn = a.isLoggedIn

/-- The login gets as far as polling. -/
def Polls (run : LoginRun) : Prop :=
  ((jsonOf parse run.clientId).bind (Json.stringAt "client_id")).isSome = true ∧
    (getHttpAsync run.authUrl).isSome = true ∧ run.browser = true

/-- The polls leave nothing half done: there are none, one of them brings both
tokens, or the last access token that came alone is the one that was stored
already. -/
def Harmless (run : LoginRun) (a : Auth) : Prop :=
  ¬ Polls parse run ∨ (∃ i, (tokensOf parse (run.polls i)).isSome = true) ∨
    ∀ token, lastLoneToken parse run.responses = some token → token = a.accessToken

/-- A login that does not get as far as polling throws, with the tokens as they
were. -/
theorem loginAsync_of_not_polls {run : LoginRun} (h : ¬ Polls parse run) (a : Auth) :
    (∃ e, (loginAsync parse run a).2 = .error e) ∧
      (loginAsync parse run a).1.accessToken = a.accessToken ∧
      (loginAsync parse run a).1.refreshToken = a.refreshToken := by
  unfold loginAsync fetchClientIdAsync getAuthUrlAsync
  unfold Polls at h
  cases hc : (jsonOf parse run.clientId).bind (Json.stringAt "client_id") with
  | none => exact ⟨⟨_, rfl⟩, rfl, rfl⟩
  | some clientId =>
      cases hu : getHttpAsync run.authUrl with
      | none => exact ⟨⟨_, rfl⟩, rfl, rfl⟩
      | some url =>
          cases hb : run.browser with
          | false => exact ⟨⟨_, rfl⟩, rfl, rfl⟩
          | true => simp [hc, hu, hb] at h

/-- A login that polls ends as the polls do. -/
theorem loginAsync_of_polls {run : LoginRun} (h : Polls parse run) (a : Auth) :
    match run.responses.findSome? (tokensOf parse) with
    | some (token, refreshToken) =>
        (loginAsync parse run a).2 = .ok () ∧
          (loginAsync parse run a).1.accessToken = token ∧
          (loginAsync parse run a).1.refreshToken = refreshToken
    | none =>
        (loginAsync parse run a).2 = .error .timeout ∧
          (loginAsync parse run a).1.accessToken =
            (lastLoneToken parse run.responses).getD a.accessToken ∧
          (loginAsync parse run a).1.refreshToken = a.refreshToken := by
  obtain ⟨hc, hu, hb⟩ := h
  obtain ⟨clientId, hc⟩ := Option.isSome_iff_exists.mp hc
  obtain ⟨url, hu⟩ := Option.isSome_iff_exists.mp hu
  unfold loginAsync fetchClientIdAsync getAuthUrlAsync
  simp only [hc, hu, hb, Bool.not_true, Bool.false_eq_true, if_false, pollToken_eq]
  cases run.responses.findSome? (tokensOf parse) with
  | none => exact ⟨rfl, rfl, rfl⟩
  | some tokens => exact ⟨rfl, rfl, rfl⟩

theorem isLoggedIn_congr {a a' : Auth} (h : a'.accessToken = a.accessToken) :
    a'.isLoggedIn = a.isLoggedIn := by
  simp only [isLoggedIn, h]

/-- With a complete response among the polls a login is atomic. -/
theorem atomic_of_tokens {run : LoginRun} (hp : Polls parse run) (a : Auth)
    {tokens : Bytes × Bytes} (hf : run.responses.findSome? (tokensOf parse) = some tokens) :
    Atomic parse run a := by
  have hlogin := loginAsync_of_polls parse hp a
  rw [hf] at hlogin
  obtain ⟨hok, haccess, hrefresh⟩ := hlogin
  constructor
  · intro _
    obtain ⟨before, o, after, hsplit, ho, hbefore⟩ := List.findSome?_eq_some_iff.mp hf
    exact ⟨before, o, after, hsplit, hbefore, by rw [haccess, hrefresh, ho]⟩
  · intro e he
    rw [hok] at he
    cases he

/-- Without one it is, exactly when the lone access tokens do not show. -/
theorem atomic_iff_lone {run : LoginRun} (hp : Polls parse run) (a : Auth)
    (hf : run.responses.findSome? (tokensOf parse) = none) :
    Atomic parse run a ↔
      ∀ token, lastLoneToken parse run.responses = some token → token = a.accessToken := by
  have hlogin := loginAsync_of_polls parse hp a
  rw [hf] at hlogin
  obtain ⟨herr, haccess, hrefresh⟩ := hlogin
  constructor
  · intro h token htoken
    have hkept := (h.threw _ herr).1
    rwa [haccess, htoken, Option.getD_some] at hkept
  · intro h
    have hkept : (loginAsync parse run a).1.accessToken = a.accessToken := by
      rw [haccess]
      cases hlast : lastLoneToken parse run.responses with
      | none => rfl
      | some token => exact h token hlast
    constructor
    · intro hok
      rw [herr] at hok
      cases hok
    · intro e _
      exact ⟨hkept, hrefresh, isLoggedIn_congr hkept⟩

/-- **When a login stores its tokens atomically.**  For every sequence of
outcomes and whatever was stored before: exactly when the polls leave nothing
half done. -/
theorem atomic_iff (run : LoginRun) (a : Auth) : Atomic parse run a ↔ Harmless parse run a := by
  by_cases hp : Polls parse run
  · cases hf : run.responses.findSome? (tokensOf parse) with
    | some tokens =>
        refine iff_of_true (atomic_of_tokens parse hp a hf) (.inr (.inl ?_))
        obtain ⟨o, ho, htokens⟩ := List.exists_of_findSome?_eq_some hf
        obtain ⟨i, rfl⟩ := List.mem_ofFn.mp ho
        exact ⟨i, by rw [htokens]; rfl⟩
    | none =>
        have hnone : ¬ ∃ i, (tokensOf parse (run.polls i)).isSome = true := by
          rintro ⟨i, hi⟩
          have hi' := List.findSome?_eq_none_iff.mp hf (run.polls i)
            (List.mem_ofFn.mpr ⟨i, rfl⟩)
          rw [hi'] at hi
          cases hi
        rw [atomic_iff_lone parse hp a hf]
        simp only [Harmless, hp, hnone, not_true_eq_false, false_or]
  · obtain ⟨⟨e, he⟩, haccess, hrefresh⟩ := loginAsync_of_not_polls parse hp a
    refine iff_of_true ⟨fun hok ↦ ?_, fun _ _ ↦ ?_⟩ (.inl hp)
    · rw [he] at hok
      cases hok
    · exact ⟨haccess, hrefresh, isLoggedIn_congr haccess⟩

/-- The body of a response with an access token only. -/
def loneBody : Bytes := bytes "\x7b\"access_token\":\"abc\"\x7d"

/-- The body of the response with the client id. -/
def clientIdBody : Bytes := bytes "\x7b\"client_id\":\"xyz\"\x7d"

/-- What the two bodies parse to. -/
def parseBodies (body : Bytes) : Option Json :=
  if body = loneBody then some (.object [(bytes "access_token", .string (bytes "abc"))])
  else if body = clientIdBody then some (.object [(bytes "client_id", .string (bytes "xyz"))])
  else none

/-- Every poll answers with an access token only: the login throws, but the token
stays and the bot counts as logged in. -/
theorem not_atomic_lone :
    ¬ Atomic parseBodies
      ⟨.response 200 [] clientIdBody, bytes "state", .response 302 (bytes "https") [], true,
        fun _ ↦ .response 200 [] loneBody⟩ {} := by
  intro h
  have hkept := (h.threw .timeout (by rfl)).1
  revert hkept
  decide

end Auth

end Seraphbot
