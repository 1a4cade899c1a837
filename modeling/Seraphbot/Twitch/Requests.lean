import Seraphbot.Core.Json
import Seraphbot.Data.Fields
import Seraphbot.Twitch.Delivery

/-!
# Requests

The model of `tw/config.cpp` as far as it decides what is sent, and of the two
functions of the service that send something through it, `chat::Send::message` and
`EventSub::subscribe`.

A request is built by setting header fields: some that are always the same first,
and then those that the caller gives, which replace the former where the names agree.
The JSON library, `dump` below, makes the text of a body.

That setting a field replaces all fields of this name, in whatever letter case, is an
assumption about the message classes of Beast.

Other requests are made elsewhere: a login asks the server of the bot (`Auth.lean`),
and the event socket is opened by an upgrade request of the WebSocket library.
-/

namespace Seraphbot

open Twitch

inductive Verb where
  | get
  | post
deriving DecidableEq

/-- A request of HTTP/1.1, and where it is sent. -/
structure Request where
  host : Bytes
  port : Bytes
  verb : Verb
  target : Bytes
  fields : List (Bytes × Bytes)
  body : Bytes := []

namespace Request

/-- The values under a name, in whatever letter case. -/
def values (name : String) (r : Request) : List Bytes :=
  Fields.valuesOf lower (bytes name) r.fields

end Request

/-! ## Building requests -/

/-- `set` of the message classes, as it is assumed to work. -/
def setField (fields : List (Bytes × Bytes)) (name value : Bytes) : List (Bytes × Bytes) :=
  Fields.set lower fields (name, value)

/-- The loop over the headers of the caller. -/
def setHeaders (fields headers : List (Bytes × Bytes)) : List (Bytes × Bytes) :=
  headers.foldl (fun fields head ↦ setField fields head.1 head.2) fields

/-- What `httpsPostAsync` sends.  `prepare_payload` sets the length of the body. -/
def httpsPostAsync (host port target body : Bytes) (headers : List (Bytes × Bytes)) : Request :=
  let fields := setField [] (bytes "Host") host
  let fields := setField fields (bytes "User-Agent") (bytes "seraphbot-eventsub/0.1")
  let fields := setField fields (bytes "Content-Type") (bytes "application/json")
  let fields := setField fields (bytes "Connection") (bytes "close")
  let fields := setHeaders fields headers
  let fields := setField fields (bytes "Content-Length") (bytes (toString body.length))
  { host, port, verb := .post, target, fields, body }

/-- What `httpsGetAsync` sends. -/
def httpsGetAsync (host port target : Bytes) (headers : List (Bytes × Bytes)) : Request :=
  let fields := setField [] (bytes "Host") host
  let fields := setField fields (bytes "User-Agent") (bytes "seraphbot-eventsub/0.1")
  let fields := setField fields (bytes "Connection") (bytes "close")
  let fields := setHeaders fields headers
  { host, port, verb := .get, target, fields }

def stripOauthPrefix (token : Bytes) : Bytes :=
  if (bytes "oauth:").isPrefixOf token then token.drop 6 else token

/-- `ClientConfig::helix_host` and `helix_port`, which nothing changes. -/
def helixHost : Bytes := bytes "api.twitch.tv"

@[inherit_doc helixHost]
def helixPort : Bytes := bytes "443"

/-- The headers that authenticate a request. -/
def credentialHeaders (cfg : ClientConfig) : List (Bytes × Bytes) :=
  [(bytes "Client-Id", cfg.clientId),
    (bytes "Authorization", bytes "Bearer " ++ stripOauthPrefix cfg.accessToken)]

/-! ## The requests of the service -/

variable (dump : Json → Bytes)

/-- `chat::Send::message`. -/
def Twitch.Send.message (cfg : ClientConfig) (msg senderId : Bytes) : Request :=
  let body := .object
    [(bytes "broadcaster_id", .string cfg.broadcasterId),
      (bytes "message", .string msg),
      (bytes "sender_id", .string senderId)]
  httpsPostAsync helixHost helixPort (bytes "/helix/chat/messages") (dump body)
    (credentialHeaders cfg)

/-- `EventSub::subscribe`, with the session that the welcome message has named. -/
def Twitch.EventSub.subscribe (sessionId : Bytes) (cfg : ClientConfig) (type version : Bytes) :
    Request :=
  let condition := .object
    [(bytes "broadcaster_user_id", .string cfg.broadcasterId),
      (bytes "user_id", .string cfg.broadcasterId)]
  let transport := .object
    [(bytes "method", .string (bytes "websocket")), (bytes "session_id", .string sessionId)]
  let subscriptionRequest := .object
    [(bytes "type", .string type), (bytes "version", .string version),
      (bytes "condition", condition), (bytes "transport", transport)]
  httpsPostAsync helixHost helixPort (bytes "/helix/eventsub/subscriptions")
    (dump subscriptionRequest)
    (credentialHeaders cfg ++ [(bytes "Content-Type", bytes "application/json")])

/-- The request that an effect of the service makes with `httpsPostAsync`.  The socket
is opened by the WebSocket library, which makes a request of its own. -/
def wire (sessionId : Bytes) : Effect → Option Request
  | .status _ => none
  | .connect _ => none
  | .subscribe cfg type version => some (EventSub.subscribe dump sessionId cfg type version)
  | .message cfg text senderId => some (Send.message dump cfg text senderId)

/-! ## What is in the header -/

theorem fields_httpsPostAsync (host port target body : Bytes) (headers : List (Bytes × Bytes)) :
    (httpsPostAsync host port target body headers).fields =
      Fields.setAll lower []
        ([(bytes "Host", host), (bytes "User-Agent", bytes "seraphbot-eventsub/0.1"),
          (bytes "Content-Type", bytes "application/json"), (bytes "Connection", bytes "close")] ++
          headers ++ [(bytes "Content-Length", bytes (toString body.length))]) := by
  simp [httpsPostAsync, setHeaders, setField, Fields.setAll]

theorem fields_httpsGetAsync (host port target : Bytes) (headers : List (Bytes × Bytes)) :
    (httpsGetAsync host port target headers).fields =
      Fields.setAll lower []
        ([(bytes "Host", host), (bytes "User-Agent", bytes "seraphbot-eventsub/0.1"),
          (bytes "Connection", bytes "close")] ++ headers) := by
  simp [httpsGetAsync, setHeaders, setField, Fields.setAll]

/-- Does the field have this name? -/
def isNamed (name : String) (field : Bytes × Bytes) : Bool := lower field.1 = lower (bytes name)

/-- A field has the value that was set last. -/
theorem Request.values_of_fields {r : Request} {new : List (Bytes × Bytes)}
    (h : r.fields = Fields.setAll lower [] new) (name : String) :
    r.values name = ((latest (isNamed name) new).map Prod.snd).toList := by
  unfold values
  rw [h, Fields.valuesOf_setAll]
  change _ = ((latest (fun f ↦ lower f.1 = lower (bytes name)) new).map Prod.snd).toList
  cases latest (fun f : Bytes × Bytes ↦ decide (lower f.1 = lower (bytes name))) new <;> rfl

/-- A request to the API of Twitch in the name of a user: no field is there twice, and
the credentials are those of the configuration. -/
structure Authenticated (cfg : ClientConfig) (r : Request) : Prop where
  host : r.host = helixHost
  once : ∀ name, (r.values name).length ≤ 1
  hostField : r.values "Host" = [helixHost]
  clientId : r.values "Client-Id" = [cfg.clientId]
  authorization :
    r.values "Authorization" = [bytes "Bearer " ++ stripOauthPrefix cfg.accessToken]

theorem Authenticated.of_fields {cfg : ClientConfig} {r : Request} {new : List (Bytes × Bytes)}
    (hhost : r.host = helixHost) (h : r.fields = Fields.setAll lower [] new)
    (hostField : (latest (isNamed "Host") new).map Prod.snd = some helixHost)
    (clientId : (latest (isNamed "Client-Id") new).map Prod.snd = some cfg.clientId)
    (authorization : (latest (isNamed "Authorization") new).map Prod.snd =
      some (bytes "Bearer " ++ stripOauthPrefix cfg.accessToken)) : Authenticated cfg r := by
  have hvalues := r.values_of_fields h
  refine ⟨hhost, fun name ↦ ?_, ?_, ?_, ?_⟩
  · rw [hvalues]
    exact Option.length_toList_le
  · rw [hvalues, hostField]
    rfl
  · rw [hvalues, clientId]
    rfl
  · rw [hvalues, authorization]
    rfl

theorem authenticated_message (cfg : ClientConfig) (msg senderId : Bytes) :
    Authenticated cfg (Send.message dump cfg msg senderId) :=
  .of_fields rfl (fields_httpsPostAsync ..) rfl rfl rfl

theorem authenticated_subscribe (sessionId : Bytes) (cfg : ClientConfig) (type version : Bytes) :
    Authenticated cfg (EventSub.subscribe dump sessionId cfg type version) :=
  .of_fields rfl (fields_httpsPostAsync ..) rfl rfl rfl

theorem authenticated_wire {sessionId : Bytes} {effect : Effect} {r : Request}
    (h : wire dump sessionId effect = some r) :
    ∃ cfg, TwitchService.requestConfig effect = some cfg ∧ Authenticated cfg r := by
  cases effect with
  | status text => cases h
  | connect cfg => cases h
  | subscribe cfg type version =>
      cases h
      exact ⟨cfg, rfl, authenticated_subscribe dump sessionId cfg type version⟩
  | message cfg text senderId =>
      cases h
      exact ⟨cfg, rfl, authenticated_message dump cfg text senderId⟩

/-- **Posts carry the credentials that a login has left behind.**  In every run of a
new service, with whatever sessions and texts: every request that a step makes with
`httpsPostAsync`, for a subscription or a message, goes to the API of Twitch, has no
header field twice, and authenticates itself with the token and the client id that the
configuration was given when a login was completed, earlier in the run. -/
theorem wire_authenticated (config : ClientConfig) (es : List TwitchService.Event)
    (ev : TwitchService.Event) (sessionId : Bytes) :
    ∀ r ∈ (TwitchService.machine.step (TwitchService.machine.run { config } es) ev).2.filterMap
        (wire dump sessionId),
      ∃ answer ∈ TwitchService.completed { config } es,
        Authenticated (TwitchService.credentials answer) r := by
  intro r hr
  obtain ⟨effect, heffect, hwire⟩ := List.mem_filterMap.mp hr
  obtain ⟨cfg, hcfg, hauth⟩ := authenticated_wire dump hwire
  have hknown := TwitchService.requests_known config es ev
    (List.mem_filterMap.mpr ⟨effect, heffect, hcfg⟩)
  obtain ⟨answer, hanswer, rfl⟩ := List.mem_map.mp hknown
  exact ⟨answer, hanswer, hauth⟩

/-- A login, a connection, and a message. -/
def oneMessage : List TwitchService.Event :=
  TwitchService.loggedIn ++
    [.connectToChat, .resumeConnect 0 (.returned ()), .resumeConnect 0 (.returned ()),
      .resumeConnect 0 (.returned ()), .sendMessage (bytes "hi")]

theorem wire_authenticated_oneMessage :
    ∃ answer ∈ TwitchService.completed {} oneMessage,
      Authenticated (TwitchService.credentials answer)
        (Send.message (fun _ ↦ []) ⟨bytes "token", bytes "42", bytes "client"⟩ (bytes "hi")
          (bytes "42")) := by
  refine wire_authenticated (fun _ ↦ []) {} oneMessage (.resumeSend 0 (.returned ())) [] _ ?_
  exact List.mem_filterMap.mpr
    ⟨.message ⟨bytes "token", bytes "42", bytes "client"⟩ (bytes "hi") (bytes "42"),
      by decide, rfl⟩

end Seraphbot
