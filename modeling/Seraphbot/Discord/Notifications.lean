import Seraphbot.Data.Replace
import Seraphbot.Twitch.Requests

/-!
# Notifications

The model of `Notifications::sendMessage` in `discord/notifications.cpp`.  It asks the
API of Twitch for the stream and for the game, and posts a message to Discord with what
it has found out, or with placeholders.

Both questions are asked within a `try` block that swallows everything.  What has been
assigned before an exception stays, so a title may be shown although the rest of the
answer was unusable.  `answer` says what comes of a request, `none` if it throws.  The
function suspends at its questions, and is cut into parts there.
-/

namespace Seraphbot.Notifications

open Twitch

/-- The variables that are filled in from the answers, and the requests made so
far. -/
structure Draft where
  streamTitle : Bytes := bytes "Stream Notification"
  gameName : Bytes := bytes "Just Chatting"
  thumbnailUrl : Bytes := []
  gameThumbnail : Bytes := []
  requests : List Request := []

/-- `json.contains("data") || !json["data"].empty()`. -/
def hasData (json : Json) : Option Bool :=
  if json.contains "data" then some true else (json.index "data").map fun data ↦ !data.isEmpty

/-- `json["data"][0]`. -/
def firstDatum (json : Json) : Option Json := (json.index "data").bind Json.first

/-- The placeholders in the address of an image. -/
def widthMark : Bytes := bytes "\x7bwidth\x7d"

@[inherit_doc widthMark]
def heightMark : Bytes := bytes "\x7bheight\x7d"

/-- The address of an image, for the size it should have. -/
def fillIn (width height : String) (url : Bytes) : Bytes :=
  if url ≠ [] then
    replaceAll heightMark (bytes height) (replaceAll widthMark (bytes width) url)
  else url

variable (parse : Bytes → Option Json) (answer : Request → Option Bytes) (cfg : ClientConfig)

def streamsRequest : Request :=
  httpsGetAsync helixHost helixPort
    (bytes "/helix/streams?user_id=" ++ cfg.broadcasterId ++ bytes "&type=all")
    (credentialHeaders cfg)

def gamesRequest (gameId : Bytes) : Request :=
  httpsGetAsync helixHost helixPort (bytes "/helix/games?id=" ++ gameId) (credentialHeaders cfg)

/-- What is done with the first stream in the answer: the draft, and the game to ask
for. -/
def readStream (data : Json) (d : Draft) : Draft × Option Bytes :=
  match data.value "title" (bytes "Live Stream") with
  | none => (d, none)
  | some streamTitle =>
      let d := { d with streamTitle }
      match data.value "game_name" (bytes "Just Chatting") with
      | none => (d, none)
      | some gameName =>
          let d := { d with gameName }
          match data.value "thumbnail_url" [] with
          | none => (d, none)
          | some url =>
              let d := { d with thumbnailUrl := fillIn "1920" "1080" url }
              if data.contains "game_id" then
                match (data.index "game_id").bind Json.getString with
                | none => (d, none)
                | some gameId => if gameId ≠ [] then (d, some gameId) else (d, none)
              else (d, none)

/-- The outer `try` block, from the answer about the stream on. -/
def afterStream (response : Option Bytes) (d : Draft) : Draft × Option Bytes :=
  match response.bind parse with
  | none => (d, none)
  | some info =>
      match hasData info with
      | some true =>
          match firstDatum info with
          | none => (d, none)
          | some data => readStream data d
      | _ => (d, none)

/-- The inner `try` block, from the answer about the game on. -/
def afterGame (response : Option Bytes) (d : Draft) : Draft :=
  match response.bind parse with
  | none => d
  | some games =>
      match hasData games with
      | some true =>
          match (firstDatum games).bind (Json.value "box_art_url" []) with
          | none => d
          | some url => { d with gameThumbnail := fillIn "285" "380" url }
      | _ => d

/-- Ask a question more. -/
def Draft.ask (r : Request) (d : Draft) : Draft := { d with requests := d.requests ++ [r] }

/-- Both questions.  What has been assigned when one of them fails stays. -/
def askForStream : Draft :=
  match afterStream parse (answer (streamsRequest cfg)) (Draft.ask (streamsRequest cfg) {}) with
  | (d, none) => d
  | (d, some gameId) =>
      afterGame parse (answer (gamesRequest cfg gameId)) (d.ask (gamesRequest cfg gameId))

/-- The address of the channel. -/
def twitchUrl : Bytes :=
  bytes "https://www.twitch.tv/" ++
    if cfg.broadcasterId = [] then bytes "channel_name" else cfg.broadcasterId

/-- A red circle in front of the title. -/
def liveTitle : Bytes := [0xF0, 0x9F, 0x94, 0xB4] ++ bytes " Stream is live!"

/-- An image, unless its address is empty. -/
def picture (key : String) (url : Bytes) : List (Bytes × Json) :=
  if url ≠ [] then [(bytes key, .object [(bytes "url", .string url)])] else []

def embed (timestamp : Bytes) (d : Draft) : Json :=
  .object
    ([(bytes "title", .string liveTitle),
      (bytes "type", .string (bytes "rich")),
      (bytes "url", .string (twitchUrl cfg)),
      (bytes "description", .string d.streamTitle),
      (bytes "color", .number (bytes "9442302")),
      (bytes "timestamp", .string timestamp),
      (bytes "footer", .object [(bytes "text", .string (bytes "Sent by SeraphBot"))]),
      (bytes "fields", .array
        [.object
          [(bytes "name", .string (bytes "Game")),
            (bytes "value", .string d.gameName),
            (bytes "inline", .boolean true)]])] ++
      picture "image" d.thumbnailUrl ++ picture "thumbnail" d.gameThumbnail)

def payload (message timestamp : Bytes) (d : Draft) : Json :=
  .object
    [(bytes "content", .string (bytes "<@&1267602696706199703> " ++ message)),
      (bytes "embeds", .array [embed cfg timestamp d])]

variable (dump : Json → Bytes)

/-- The notification itself. -/
def post (webhookUrl timestamp message : Bytes) (d : Draft) : Request :=
  httpsPostAsync (bytes "discord.com") (bytes "443") webhookUrl
    (dump (payload cfg message timestamp d)) []

/-- `sendMessage`: the requests it makes, in order. -/
def sendMessage (webhookUrl timestamp message : Bytes) : List Request :=
  let d := askForStream parse answer cfg
  d.requests ++ [post cfg dump webhookUrl timestamp message d]

/-! ## What is shown -/

/-- The first stream, or game, in an answer. -/
def datumIn (info : Json) : Option Json := (info.atKey "data").bind Json.first

/-- The title of a stream. -/
def titleOf (data : Json) : Option Bytes := data.value "title" (bytes "Live Stream")

/-- The name of the game, unless something is wrong with the title. -/
def gameNameOf (data : Json) : Option Bytes :=
  (titleOf data).bind fun _ ↦ data.value "game_name" (bytes "Just Chatting")

/-- The image, unless something is wrong with the names. -/
def imageOf (data : Json) : Option Bytes :=
  (gameNameOf data).bind fun _ ↦ data.value "thumbnail_url" []

/-- The game to ask for, unless something is wrong with the rest. -/
def gameIdOf (data : Json) : Option Bytes :=
  (imageOf data).bind fun _ ↦ (data.stringAt "game_id").filter (· ≠ [])

/-- The image of a game. -/
def boxArtOf (gameId : Bytes) : Option Bytes :=
  (((answer (gamesRequest cfg gameId)).bind parse).bind datumIn).bind (Json.value "box_art_url" [])

/-- The stream that is announced. -/
def streamOf : Option Json := ((answer (streamsRequest cfg)).bind parse).bind datumIn

/-- The draft for a stream, or for none.  The names are shown as far as they go, and
every part needs those before it. -/
def draftOf (stream : Option Json) : Draft where
  streamTitle := (stream.bind titleOf).getD (bytes "Stream Notification")
  gameName := (stream.bind gameNameOf).getD (bytes "Just Chatting")
  thumbnailUrl := ((stream.bind imageOf).map (fillIn "1920" "1080")).getD []
  gameThumbnail :=
    (((stream.bind gameIdOf).bind (boxArtOf parse answer cfg)).map (fillIn "285" "380")).getD []
  requests := streamsRequest cfg :: ((stream.bind gameIdOf).map (gamesRequest cfg)).toList

section

variable {parse answer cfg}

/-- The test whether there are data asks for no more than the key. -/
theorem hasData_iff (json : Json) : hasData json = some true ↔ (json.atKey "data").isSome := by
  unfold hasData
  rw [Json.contains_eq]
  cases json with
  | object members =>
      cases h : members.lookup (bytes "data") <;> simp [Json.atKey, Json.index, Json.isEmpty, h]
  | _ => simp [Json.atKey, Json.index, Json.isEmpty]

theorem firstDatum_of_hasData {json : Json} (h : hasData json = some true) :
    firstDatum json = datumIn json := by
  obtain ⟨data, hdata⟩ := Option.isSome_iff_exists.mp ((hasData_iff json).mp h)
  have hcontains : json.contains "data" = true := by rw [Json.contains_eq, hdata]; rfl
  unfold firstDatum datumIn
  rw [Json.index_of_contains hcontains, hdata]
  rfl

theorem datumIn_of_not_hasData {json : Json} (h : hasData json ≠ some true) :
    datumIn json = none := by
  rw [Ne, hasData_iff, Option.not_isSome_iff_eq_none] at h
  rw [datumIn, h]
  rfl

theorem readStream_eq (data : Json) (d : Draft) :
    readStream data d =
      ({ d with
          streamTitle := (titleOf data).getD d.streamTitle
          gameName := (gameNameOf data).getD d.gameName
          thumbnailUrl := ((imageOf data).map (fillIn "1920" "1080")).getD d.thumbnailUrl },
        gameIdOf data) := by
  have hid : (data.index "game_id").bind Json.getString = data.stringAt "game_id" :=
    Json.index_bind "game_id" data rfl
  unfold gameIdOf imageOf gameNameOf titleOf
  fun_cases readStream data d with
  | case1 htitle => simp [htitle]
  | case2 title htitle _ hgame => simp +zetaDelta [htitle, hgame]
  | case3 title htitle _ game hgame _ hurl => simp +zetaDelta [htitle, hgame, hurl]
  | case4 title htitle _ game hgame _ url hurl _ _ hnone =>
      rw [hid] at hnone
      simp +zetaDelta [htitle, hgame, hurl, hnone]
  | case5 title htitle _ game hgame _ url hurl _ _ gameId hsome hne =>
      rw [hid] at hsome
      simp +zetaDelta [htitle, hgame, hurl, hsome, Option.filter_some, hne]
  | case6 title htitle _ game hgame _ url hurl _ _ gameId hsome hnil =>
      rw [hid] at hsome
      simp +zetaDelta [htitle, hgame, hurl, hsome, Option.filter_some, not_not.mp hnil]
  | case7 title htitle _ game hgame _ url hurl _ habsent =>
      have hnone : data.stringAt "game_id" = none := by
        rw [Json.contains_eq, Option.not_isSome_iff_eq_none] at habsent
        rw [Json.stringAt, habsent]
        rfl
      simp +zetaDelta [htitle, hgame, hurl, hnone]

/-- The answer about the stream, as far as it goes. -/
theorem afterStream_eq (response : Option Bytes) (d : Draft) :
    afterStream parse response d =
      (((response.bind parse).bind datumIn).map (readStream · d)).getD (d, none) := by
  fun_cases afterStream parse response d with
  | case1 hnone => simp [hnone]
  | case2 info hinfo hdata hfirst =>
      rw [firstDatum_of_hasData hdata] at hfirst
      simp [hinfo, hfirst]
  | case3 info hinfo hdata data hfirst =>
      rw [firstDatum_of_hasData hdata] at hfirst
      simp [hinfo, hfirst]
  | case4 info hinfo hdata => simp [hinfo, datumIn_of_not_hasData hdata]

theorem afterGame_eq (response : Option Bytes) (d : Draft) :
    afterGame parse response d =
      { d with
        gameThumbnail :=
          ((((response.bind parse).bind datumIn).bind (Json.value "box_art_url" [])).map
            (fillIn "285" "380")).getD d.gameThumbnail } := by
  fun_cases afterGame parse response d with
  | case1 hnone => simp [hnone]
  | case2 games hgames hdata hnone =>
      rw [firstDatum_of_hasData hdata] at hnone
      rw [hgames, Option.bind_some, hnone]
      rfl
  | case3 games hgames hdata url hsome =>
      rw [firstDatum_of_hasData hdata] at hsome
      rw [hgames, Option.bind_some, hsome]
      rfl
  | case4 games hgames hdata => simp [hgames, datumIn_of_not_hasData hdata]

theorem askForStream_eq :
    askForStream parse answer cfg = draftOf parse answer cfg (streamOf parse answer cfg) := by
  unfold askForStream draftOf
  rw [afterStream_eq, ← streamOf]
  cases streamOf parse answer cfg with
  | none => rfl
  | some data =>
      simp only [Option.map_some, Option.getD_some, Option.bind_some, readStream_eq]
      cases gameIdOf data with
      | none => rfl
      | some gameId =>
          simp only [afterGame_eq]
          rfl

theorem authenticated_streamsRequest : Authenticated cfg (streamsRequest cfg) :=
  .of_fields rfl (fields_httpsGetAsync ..) rfl rfl rfl

theorem authenticated_gamesRequest (gameId : Bytes) : Authenticated cfg (gamesRequest cfg gameId) :=
  .of_fields rfl (fields_httpsGetAsync ..) rfl rfl rfl

end

/-- **Discord is told once, and never sees the token.**  Whatever the API answers: the
notification is posted once, after everything else, and shows the draft for the stream
that was found.  Before that Twitch is asked for the stream, and for a game if the
answer names one and nothing is wrong with what comes before it.  These questions go to
the API of Twitch and carry the credentials; the post goes to Discord and carries
none. -/
theorem sendMessage_eq (webhookUrl timestamp message : Bytes) :
    let stream := streamOf parse answer cfg
    ∃ post, sendMessage parse answer cfg dump webhookUrl timestamp message =
        streamsRequest cfg :: ((stream.bind gameIdOf).map (gamesRequest cfg)).toList ++ [post] ∧
      Authenticated cfg (streamsRequest cfg) ∧
      (∀ gameId, Authenticated cfg (gamesRequest cfg gameId)) ∧
      post.verb = .post ∧ post.host = bytes "discord.com" ∧ post.target = webhookUrl ∧
      post.body = dump (payload cfg message timestamp (draftOf parse answer cfg stream)) ∧
      post.values "Authorization" = [] ∧ post.values "Client-Id" = [] := by
  intro stream
  refine ⟨post cfg dump webhookUrl timestamp message (draftOf parse answer cfg stream), ?_,
    authenticated_streamsRequest, authenticated_gamesRequest, rfl, rfl, rfl, rfl, ?_, ?_⟩
  · unfold sendMessage
    rw [askForStream_eq]
    rfl
  · rw [post, Request.values_of_fields (fields_httpsPostAsync ..)]
    rfl
  · rw [post, Request.values_of_fields (fields_httpsPostAsync ..)]
    rfl

/-! ## Placeholders -/

/-- No placeholder is left in the address. -/
def Filled (url : Bytes) : Prop := ¬ widthMark <:+: url ∧ ¬ heightMark <:+: url

/-- A number that can be filled in: it is made of other letters than the
placeholders. -/
def isFiller (s : Bytes) : Bool :=
  !s.isEmpty && s.all fun c ↦ !widthMark.contains c && !heightMark.contains c

theorem isFiller_iff {s : Bytes} :
    isFiller s = true ↔ s ≠ [] ∧ ∀ c ∈ s, c ∉ widthMark ∧ c ∉ heightMark := by
  simp [isFiller]

theorem filled_nil : Filled [] := ⟨by decide, by decide⟩

theorem filled_fillIn {width height : String} (hw : isFiller (bytes width) = true)
    (hh : isFiller (bytes height) = true) (url : Bytes) : Filled (fillIn width height url) := by
  have hwidth : widthMark ≠ [] := nofun
  have hheight : heightMark ≠ [] := nofun
  rw [isFiller_iff] at hw hh
  unfold fillIn
  split_ifs with hurl
  · refine ⟨fun h ↦ ?_, not_infix_replaceAll hh.1 (fun c hc ↦ (hh.2 c hc).2) hheight _⟩
    exact not_infix_replaceAll hw.1 (fun c hc ↦ (hw.2 c hc).1) hwidth url
      (infix_of_infix_replaceAll hh.1 (fun c hc ↦ (hh.2 c hc).1) hwidth h)
  · rw [not_not.mp hurl]
    exact filled_nil

theorem filled_getD {width height : String} (hw : isFiller (bytes width) = true)
    (hh : isFiller (bytes height) = true) (url : Option Bytes) :
    Filled ((url.map (fillIn width height)).getD []) := by
  cases url with
  | none => exact filled_nil
  | some url => exact filled_fillIn hw hh url

/-- **No placeholder is left.**  Whatever the API answers: in the addresses of the two
images that are shown, none of the placeholders for the size is left, not even one that
comes about when another one is filled in. -/
theorem images_filled : Filled (askForStream parse answer cfg).thumbnailUrl ∧
    Filled (askForStream parse answer cfg).gameThumbnail := by
  rw [askForStream_eq]
  exact ⟨filled_getD rfl rfl _, filled_getD rfl rfl _⟩

end Seraphbot.Notifications
