import Seraphbot.Twitch.EventSub

/-!
# Frames and the callback

The whole of `TwitchService::handleEventSubMessage`, with the calls of the message
callback and the `catch` around everything.  The three branches for the types of
notifications stand one after the other in the source, each calls the callback by
itself, and the callback may throw; so the body is put together here from parts
that make some calls and end somehow.

`handleEventSubMessage_eq_react` says that this comes to deciding on at most one
message first, as `EventSub.handleEventSubMessage` does, and calling the callback
with it.  Everything that can go wrong with a frame is an exception, and is caught,
but for one access: badges are read as `const`, and a `const` access to a key that
is not there is not defined.
-/

namespace Seraphbot.TwitchService

open Json EventSub

/-! ## The handler -/

/-- How a part of the handler ends. -/
inductive Ending where
  /-- At its end, so that the next part follows. -/
  | next
  | returned
  | stdException
  | otherException
  /-- In an access that the library does not define. -/
  | undefined
deriving DecidableEq

/-- A part of the handler: the messages it calls the callback with, and its end. -/
structure Part where
  calls : List ChatMessage := []
  ending : Ending := .next
deriving DecidableEq

namespace Part

/-- One part after the other. -/
def andThen (a b : Part) : Part :=
  match a.ending with
  | .next => ⟨a.calls ++ b.calls, b.ending⟩
  | _ => a

/-- A failure leaves the block at once. -/
def fail : Failure → Part
  | .exception => ⟨[], .stdException⟩
  | .undefined => ⟨[], .undefined⟩

/-- `m_message_callback(chat_msg)`. -/
def call (callback : ChatMessage → Outcome) (m : ChatMessage) : Part :=
  match callback m with
  | .returned => ⟨[m], .next⟩
  | .stdException => ⟨[m], .stdException⟩
  | .otherException => ⟨[m], .otherException⟩

/-- A `try` block with a `catch (const std::exception &)` that only logs, at the
end of a function. -/
def tryCatch (body : Part) : Part :=
  match body.ending with
  | .next | .stdException => ⟨body.calls, .returned⟩
  | _ => body

end Part

/-- The type of the notification, after the tests in front of the branches; `none`
where they return. -/
def notificationType (raw : Json) : Except Failure (Option Bytes) :=
  if !raw.contains "metadata" then .ok none
  else do
    let metadata ← orThrow (raw.index "metadata")
    let messageType ← orThrow (metadata.index "message_type")
    if messageType.getString ≠ some (bytes "notification") then return none
    let type ← orThrow ((metadata.index "subscription_type").bind getString)
    return some type

variable (callback : Option (ChatMessage → Outcome)) (raw : Json) (type : Bytes)

/-- `if (type == "channel.chat.message" && m_message_callback)`. -/
def ifChatMessage : Part :=
  match callback with
  | none => {}
  | some callback =>
      if type = bytes "channel.chat.message" then
        match orThrow (event raw) >>= chatMessage with
        | .error failure => .fail failure
        | .ok none => ⟨[], .returned⟩
        | .ok (some m) => .call callback m
      else {}

/-- `if (type == "channel.ad_break.begin" && m_message_callback)`. -/
def ifAdBreak : Part :=
  match callback with
  | none => {}
  | some callback =>
      if type = bytes "channel.ad_break.begin" then
        match (event raw).bind fun e ↦ (e.index "duration_seconds").bind getString with
        | none => .fail .exception
        | some text =>
            .call callback (systemMessage (text ++ bytes " second ad break beginning."))
      else {}

/-- `if (type == "channel.chat.clear" && m_message_callback)`. -/
def ifChatClear : Part :=
  match callback with
  | none => {}
  | some callback =>
      if type = bytes "channel.chat.clear" then
        .call callback (systemMessage (bytes "Chat clear requested"))
      else {}

/-- What is done with a frame that parses. -/
def onFrame : Part :=
  match notificationType raw with
  | .error failure => .fail failure
  | .ok none => ⟨[], .returned⟩
  | .ok (some type) =>
      ((ifChatMessage callback raw type).andThen (ifAdBreak callback raw type)).andThen
        (ifChatClear callback type)

/-- `TwitchService::handleEventSubMessage`, with the callback that is installed. -/
def handleEventSubMessage (parse : Bytes → Option Json) (msg : Bytes) : Part :=
  Part.tryCatch
    (match parse msg with
    | none => .fail .exception
    | some raw => onFrame callback raw)

/-! ## At most one message -/

/-- What follows from the decision on a message: the callback is called with it. -/
def react : Handled → Part
  | .dropped => ⟨[], .returned⟩
  | .message m => Part.tryCatch (.call (callback.getD fun _ ↦ .returned) m)
  | .undefined => ⟨[], .undefined⟩

theorem notification_eq (installed : Bool) :
    notification installed raw =
      notificationType raw >>= fun
        | none => pure none
        | some type => ofType installed raw type := by
  unfold notification notificationType
  split
  · rfl
  · cases raw.index "metadata" with
    | none => rfl
    | some metadata =>
        cases hkind : metadata.index "message_type" with
        | none => simp [orThrow, hkind, bind, Except.bind]
        | some kind =>
            cases htype : (metadata.index "subscription_type").bind getString <;>
              by_cases h : kind.getString = some (bytes "notification") <;>
                simp [orThrow, hkind, htype, h, bind, Except.bind, pure, Except.pure]

@[simp] theorem Part.andThen_empty (a : Part) : a.andThen {} = a := by
  unfold Part.andThen
  split
  · rename_i h
    rw [List.append_nil, ← h]
  · rfl

@[simp] theorem Part.empty_andThen (a : Part) : Part.andThen {} a = a := rfl

/-- Only one of the branches is for the type of the frame. -/
theorem tryCatch_branches :
    Part.tryCatch
        (((ifChatMessage callback raw type).andThen (ifAdBreak callback raw type)).andThen
          (ifChatClear callback type)) =
      react callback (caught (ofType callback.isSome raw type)) := by
  have hchatAd : bytes "channel.chat.message" ≠ bytes "channel.ad_break.begin" := by decide
  have hchatClear : bytes "channel.chat.message" ≠ bytes "channel.chat.clear" := by decide
  have hadClear : bytes "channel.ad_break.begin" ≠ bytes "channel.chat.clear" := by decide
  unfold ifChatMessage ifAdBreak ifChatClear ofType
  cases callback with
  | none => simp [Part.tryCatch, caught, react]
  | some callback =>
      by_cases hchat : type = bytes "channel.chat.message"
      · subst hchat
        simp only [if_true, hchatAd, hchatClear, if_false, Part.andThen_empty, Option.isSome_some,
          decide_true, Bool.and_self]
        rcases orThrow (event raw) >>= chatMessage with (_ | _) | _ | m <;> rfl
      by_cases had : type = bytes "channel.ad_break.begin"
      · subst had
        simp only [if_true, hchat, hadClear, if_false, Part.andThen_empty, Part.empty_andThen,
          Option.isSome_some, decide_true, decide_false, Bool.and_self, Bool.false_and,
          Bool.false_eq_true]
        cases (event raw).bind fun e ↦ (e.index "duration_seconds").bind getString <;> rfl
      by_cases hclear : type = bytes "channel.chat.clear"
      · subst hclear
        simp [hchat, had, react, caught]
      · simp [hchat, had, hclear, react, caught, Part.tryCatch]

/-- The handler decides on at most one message, and then calls the callback. -/
theorem handleEventSubMessage_eq_react (parse : Bytes → Option Json) (msg : Bytes) :
    handleEventSubMessage callback parse msg =
      react callback (EventSub.handleEventSubMessage parse callback.isSome msg) := by
  unfold handleEventSubMessage EventSub.handleEventSubMessage
  cases parse msg with
  | none => rfl
  | some raw =>
      change Part.tryCatch (onFrame callback raw) =
        react callback (caught (notification callback.isSome raw))
      rw [notification_eq, onFrame]
      rcases notificationType raw with (_ | _) | _ | type
      · rfl
      · rfl
      · rfl
      · exact tryCatch_branches callback raw type

/-! ## Frames that bring the handler down -/

/-- A call of a callback that throws nothing but `std::exception`s returns from the
handler. -/
theorem tryCatch_call {callback : ChatMessage → Outcome} {m : ChatMessage}
    (h : callback m ≠ .otherException) :
    Part.tryCatch (.call callback m) = ⟨[m], .returned⟩ := by
  unfold Part.call Part.tryCatch
  cases hm : callback m with
  | otherException => exact absurd hm h
  | _ => rfl

/-- **What brings the handler down.**  With a callback that throws nothing but
`std::exception`s, the handler returns normally, calls the callback at most once,
and only with the message that the frame stands for, exactly if there is no
callback or the frame is not fatal: it is not a chat notification which is read up
to a badge without a `set_id`. -/
theorem handleEventSubMessage_returns_iff {callback : Option (ChatMessage → Outcome)}
    (hcallback : ∀ f ∈ callback, ∀ m, f m ≠ .otherException) (parse : Bytes → Option Json)
    (msg : Bytes) :
    ((handleEventSubMessage callback parse msg).ending = .returned ∧
      (handleEventSubMessage callback parse msg).calls.length ≤ 1 ∧
      ∀ m ∈ (handleEventSubMessage callback parse msg).calls, standsFor parse msg = some m) ↔
    (callback = none ∨ ∀ raw, parse msg = some raw → ¬ Fatal raw) := by
  rw [handleEventSubMessage_eq_react]
  cases callback with
  | none =>
      rw [Option.isSome_none, handleEventSubMessage_uninstalled]
      simp [react]
  | some f =>
      rw [Option.isSome_some]
      by_cases hfatal : ∀ raw, parse msg = some raw → ¬ Fatal raw
      · rw [handleEventSubMessage_of_not_fatal hfatal]
        cases hm : standsFor parse msg with
        | none => simpa [react, Handled.ofOption] using hfatal
        | some m =>
            have hreturned := tryCatch_call (hcallback f rfl m)
            simpa [react, Handled.ofOption, hreturned] using hfatal
      · obtain ⟨raw, hraw, hf⟩ : ∃ raw, parse msg = some raw ∧ Fatal raw := by
          push Not at hfatal
          exact hfatal
        rw [handleEventSubMessage_of_fatal hraw hf]
        simp [react, hfatal]

/-- A chat notification with these badges. -/
def chatNotification (badges : List Json) : Json :=
  .object
    [(bytes "metadata", .object
        [(bytes "message_type", .string (bytes "notification")),
         (bytes "subscription_type", .string (bytes "channel.chat.message"))]),
     (bytes "payload", .object
        [(bytes "event", .object
            [(bytes "chatter_user_name", .string (bytes "bob")),
             (bytes "message", .object [(bytes "text", .string (bytes "hi"))]),
             (bytes "color", .string (bytes "#8A2BE2")),
             (bytes "badges", .array badges)])])]

/-- A callback that always throws is called with a message without badges, and the
handler returns. -/
theorem handleEventSubMessage_returns_iff_chat :
    (handleEventSubMessage (some fun _ ↦ .stdException) (fun _ ↦ some (chatNotification []))
      []).ending = .returned ∧
    (handleEventSubMessage (some fun _ ↦ .stdException) (fun _ ↦ some (chatNotification []))
      []).calls.length ≤ 1 := by
  have hfatal : ¬ Fatal (chatNotification []) := by
    rintro ⟨-, e, hevent, hfatal⟩
    obtain rfl := Option.some.inj hevent
    exact not_unidentified_nil hfatal.badges
  have hreturns := (@handleEventSubMessage_returns_iff (some fun _ ↦ .stdException) (by simp)
    (fun _ ↦ some (chatNotification [])) []).mpr (.inr (by simpa using hfatal))
  exact ⟨hreturns.1, hreturns.2.1⟩

/-- A badge that is the empty object is the end of it. -/
theorem empty_badge_undefined :
    (handleEventSubMessage (some fun _ ↦ .returned)
      (fun _ ↦ some (chatNotification [.object []])) []).ending = .undefined := by
  decide

end Seraphbot.TwitchService
