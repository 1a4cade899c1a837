import Seraphbot.Core.Json

/-!
# Playing a video

The model of `getSourceId`, `getMediaDuration` and `playVideo` of
`obs/obsservice.hpp`: which commands they make, and what they read from the answers.
What happens to a command on its way is left to the service, `send` below; it says what
`sendOBSCommand` returns, `none` if it throws.  The number of a command is the value of
a counter that others may use as well.

A video is to be shown while it plays and hidden afterwards, by requests of the type
`SetSceneItemEnabled` that name the scene item by the number `getSourceId` has looked
up.  No such request is ever made: the one that is to show the video puts the name of
the source in the place of the number, and the type of the one that is to hide it is
misspelt (`playVideo_requests`).
-/

namespace Seraphbot.Obs

/-- The numerals of the JSON library. -/
structure Integers where
  ofNumeral : Bytes → Int
  toNumeral : Int → Bytes

namespace Integers

variable (ints : Integers)

/-- `get<int>()`, `none` when it throws. -/
def getInt : Json → Option Int
  | .number numeral => some (ints.ofNumeral numeral)
  | .boolean b => some b.toInt
  | _ => none

/-- `get<std::int64_t>()`, which takes no boolean. -/
def getInt64 : Json → Option Int
  | .number numeral => some (ints.ofNumeral numeral)
  | _ => none

/-- A number in a command. -/
def toJson (n : Int) : Json := .number (ints.toNumeral n)

end Integers

/-! ## Commands -/

variable (ints : Integers)

/-- A command of a type, with its data and its number. -/
def command (requestType : String) (requestData : Json) (requestId : Nat) : Json :=
  .object
    [(bytes "op", ints.toJson 6),
      (bytes "d", .object
        [(bytes "requestType", .string (bytes requestType)),
          (bytes "requestData", requestData),
          (bytes "requestId", ints.toJson requestId)])]

def setMedia (videoPath sourceName : Bytes) : Nat → Json :=
  command ints "SetInputSettings" (.object
    [(bytes "inputName", .string sourceName),
      (bytes "inputSettings", .object
        [(bytes "local_file", .string videoPath),
          (bytes "restart_on_activate", .boolean true)])])

def getSceneItemList (sceneName : Bytes) : Nat → Json :=
  command ints "GetSceneItemList" (.object [(bytes "sceneName", .string sceneName)])

def showSource (sceneName sourceName : Bytes) : Nat → Json :=
  command ints "SetSceneItemEnabled" (.object
    [(bytes "sceneName", .string sceneName),
      (bytes "sceneItemId", .string sourceName),
      (bytes "sceneItemEnabled", .boolean true)])

def getMediaInputStatus (sourceName : Bytes) : Nat → Json :=
  command ints "GetMediaInputStatus" (.object [(bytes "inputName", .string sourceName)])

def hideSource (sceneName : Bytes) (sourceId : Int) : Nat → Json :=
  command ints "SetSceneItemEneabled" (.object
    [(bytes "sceneName", .string sceneName),
      (bytes "sceneItemId", ints.toJson sourceId),
      (bytes "sceneItemEnabled", .boolean false)])

/-! ## Answers -/

/-- `response["d"]["responseData"]`, if there is one. -/
def responseData (response : Json) : Option Json :=
  (response.atKey "d").bind (·.atKey "responseData")

/-- Is the item one of the source? -/
def isItemOf (sourceName : Bytes) (item : Json) : Bool :=
  match item.atKey "sourceName" with
  | some (.string name) => name = sourceName
  | _ => false

/-- The end of `getSourceId`, `none` when it throws: the number of the first item of
the source, -1 if there is none or if it has no number. -/
def sourceIdIn (sourceName : Bytes) (response : Json) : Option Int :=
  match (responseData response).bind (·.atKey "sceneItems") with
  | none => some (-1)
  | some items =>
      match items.elements.find? (isItemOf sourceName) with
      | none => some (-1)
      | some item =>
          match item.atKey "sceneItemId" with
          | none => some (-1)
          | some id => ints.getInt id

/-- The end of `getMediaDuration`, in milliseconds. -/
def durationIn (response : Json) : Option Int :=
  match (responseData response).bind (·.atKey "mediaDuration") with
  | none => some 5000
  | some duration => ints.getInt64 duration

/-! ## The video -/

variable (send : Json → Option Json) (requestId : Nat → Nat)

/-- `playVideo`: the commands it makes, in order.  `requestId k` is the number that the
`k`-th of them gets. -/
def playVideo (videoPath sceneName sourceName : Bytes) : List Json :=
  let media := setMedia ints videoPath sourceName (requestId 0)
  match send media with
  | none => [media]
  | some _ =>
      let items := getSceneItemList ints sceneName (requestId 1)
      match (send items).bind (sourceIdIn ints sourceName) with
      | none => [media, items]
      | some sourceId =>
          if sourceId = -1 then [media, items]
          else
            let shown := showSource ints sceneName sourceName (requestId 2)
            match send shown with
            | none => [media, items, shown]
            | some _ =>
                let status := getMediaInputStatus ints sourceName (requestId 3)
                match (send status).bind (durationIn ints) with
                | none => [media, items, shown, status]
                | some _ =>
                    [media, items, shown, status,
                      hideSource ints sceneName sourceId (requestId 4)]

/-- The type of a command. -/
def requestType (cmd : Json) : Option Bytes :=
  (cmd.atKey "d").bind (·.stringAt "requestType")

/-- A member of the data of a command. -/
def requestMember (key : String) (cmd : Json) : Option Json :=
  ((cmd.atKey "d").bind (·.atKey "requestData")).bind (·.atKey key)

@[simp] theorem requestType_command (type : String) (data : Json) (requestId : Nat) :
    requestType (command ints type data requestId) = some (bytes type) := rfl

/-- The commands of a video that is played to its end. -/
def commands (videoPath sceneName sourceName : Bytes) (sourceId : Int) : List Json :=
  [setMedia ints videoPath sourceName (requestId 0),
    getSceneItemList ints sceneName (requestId 1),
    showSource ints sceneName sourceName (requestId 2),
    getMediaInputStatus ints sourceName (requestId 3),
    hideSource ints sceneName sourceId (requestId 4)]

/-- Whatever happens, the commands are these, up to where it ends. -/
theorem playVideo_prefix_commands (videoPath sceneName sourceName : Bytes) :
    ∃ sourceId, playVideo ints send requestId videoPath sceneName sourceName <+:
      commands ints requestId videoPath sceneName sourceName sourceId := by
  fun_cases playVideo ints send requestId videoPath sceneName sourceName with
  | case6 _ _ _ _ sourceId => exact ⟨sourceId, [], rfl⟩
  | _ => exact ⟨0, _, rfl⟩

/-- **No request names the scene item by its number.**  Whatever OBS answers, for all
scenes, sources and files: if a request of `playVideo` is of the type
`SetSceneItemEnabled`, it has the name of the source, a string, where the number that
was looked up belongs, and it asks to show the item and not to hide it. -/
theorem playVideo_requests (videoPath sceneName sourceName : Bytes) :
    ∀ cmd ∈ playVideo ints send requestId videoPath sceneName sourceName,
      requestType cmd = some (bytes "SetSceneItemEnabled") →
        requestMember "sceneItemId" cmd = some (.string sourceName) ∧
          requestMember "sceneItemEnabled" cmd = some (.boolean true) := by
  intro cmd hcmd htype
  obtain ⟨sourceId, hpre⟩ :=
    playVideo_prefix_commands ints send requestId videoPath sceneName sourceName
  have hmem := hpre.subset hcmd
  simp only [commands, List.mem_cons, List.not_mem_nil, or_false] at hmem
  rcases hmem with rfl | rfl | rfl | rfl | rfl
  · rw [setMedia, requestType_command] at htype
    exact absurd htype (by decide)
  · rw [getSceneItemList, requestType_command] at htype
    exact absurd htype (by decide)
  · exact ⟨rfl, rfl⟩
  · rw [getMediaInputStatus, requestType_command] at htype
    exact absurd htype (by decide)
  · -- one letter too many
    rw [hideSource, requestType_command] at htype
    exact absurd htype (by decide)

/-- OBS has the source as the third item of the scene. -/
def thirdItem (_ : Json) : Option Json :=
  some (.object [(bytes "d", .object [(bytes "responseData", .object
    [(bytes "sceneItems", .array [.object
      [(bytes "sourceName", .string (bytes "clip")), (bytes "sceneItemId", .number (bytes "3"))]]),
      (bytes "mediaDuration", .number (bytes "3"))])])])

theorem playVideo_requests_clip :
    let ints : Integers := ⟨fun _ ↦ 3, fun _ ↦ bytes "3"⟩
    let cmd := showSource ints (bytes "live") (bytes "clip") 2
    requestMember "sceneItemId" cmd = some (.string (bytes "clip")) ∧
      requestMember "sceneItemEnabled" cmd = some (.boolean true) :=
  playVideo_requests ⟨fun _ ↦ 3, fun _ ↦ bytes "3"⟩ thirdItem id (bytes "clip.mp4") (bytes "live")
    (bytes "clip") _ (List.mem_of_getElem? (i := 2) rfl) rfl

end Seraphbot.Obs
