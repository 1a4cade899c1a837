import Seraphbot.Core.CommandParser
import Seraphbot.Core.Json

/-!
# Frames from the event socket

The model of `TwitchService::handleEventSubMessage`, and what it makes of a frame
in other words.  The function walks through the parsed frame with an accessor that
inserts what is missing and throws on what is not an object, tests for some of the
fields and not for others, and leaves by a `return` or by an exception where
something does not fit.  `decode` looks the fields up, and says which of them have
to be there: the two agree on every frame that is not `Fatal`, so in particular if all
badges have a `set_id`.
-/

namespace Seraphbot.EventSub

open Json

/-! ## The handler -/

/-- The loop body for the badges, where the badge is `const`. -/
def badgeId (badge : Json) : Except Failure Bytes := do
  orThrow (← badge.constIndex "set_id").getString

/-- A chat message from the event of a notification, unless it is incomplete. -/
def chatMessage (event : Json) : Except Failure (Option ChatMessage) :=
  if !event.contains "chatter_user_name" || !event.contains "message" ||
      !(event.index "message").any (·.contains "text") then
    .ok none
  else do
    let user ← orThrow ((event.index "chatter_user_name").bind getString)
    let text ← orThrow ((event.index "message").bind fun m ↦ (m.index "text").bind getString)
    let color ← orThrow ((event.index "color").bind getString)
    let badges ← orThrow (event.index "badges")
    let badges ← badges.elements.mapM badgeId
    return some { user, text, color, badges }

/-- A message in the name of the bot. -/
def systemMessage (text : Bytes) : ChatMessage :=
  { user := bytes "System", text, color := bytes "#AAAAAA", badges := [] }

/-- `raw_msg["payload"]["event"]`. -/
def event (raw : Json) : Option Json := (raw.index "payload").bind (·.index "event")

/-- What is done with a notification of some type.  `installed` says that there is
a callback. -/
def ofType (installed : Bool) (raw : Json) (type : Bytes) :
    Except Failure (Option ChatMessage) :=
  if type = bytes "channel.chat.message" && installed then do
    chatMessage (← orThrow (event raw))
  else if type = bytes "channel.ad_break.begin" && installed then do
    let text ← orThrow ((event raw).bind fun e ↦ (e.index "duration_seconds").bind getString)
    return some (systemMessage (text ++ bytes " second ad break beginning."))
  else if type = bytes "channel.chat.clear" && installed then
    .ok (some (systemMessage (bytes "Chat clear requested")))
  else .ok none

/-- The message that the callback is called with, if it is. -/
def notification (installed : Bool) (raw : Json) : Except Failure (Option ChatMessage) :=
  if !raw.contains "metadata" then .ok none
  else do
    let metadata ← orThrow (raw.index "metadata")
    let messageType ← orThrow (metadata.index "message_type")
    if messageType.getString ≠ some (bytes "notification") then return none
    ofType installed raw (← orThrow ((metadata.index "subscription_type").bind getString))

/-- How `handleEventSubMessage` ends up to the call of the callback. -/
inductive Handled where
  | dropped
  | message (m : ChatMessage)
  | undefined

/-- The `catch` block. -/
def caught : Except Failure (Option ChatMessage) → Handled
  | .ok none | .error .exception => .dropped
  | .ok (some m) => .message m
  | .error .undefined => .undefined

def handleEventSubMessage (parse : Bytes → Option Json) (installed : Bool) (msg : Bytes) :
    Handled :=
  caught (orThrow (parse msg) >>= notification installed)

/-! ## What a frame says -/

/-- The message of a chat notification whose event has the fields of one. -/
def complete (event : Json) : Option ChatMessage := do
  let user ← event.stringAt "chatter_user_name"
  let text ← (event.atKey "message").bind (stringAt "text")
  let color ← event.stringAt "color"
  let badges ← ((event.atKey "badges").getD .null).elements.mapM (stringAt "set_id")
  return { user, text, color, badges }

/-- The type of the notification that a frame is, if it is one. -/
def subscriptionType (raw : Json) : Option Bytes := do
  let metadata ← raw.atKey "metadata"
  if metadata.stringAt "message_type" = some (bytes "notification") then
    metadata.stringAt "subscription_type"
  else none

/-- The message that a notification of some type stands for. -/
def decodeType (raw : Json) (type : Bytes) : Option ChatMessage :=
  let event := (raw.atKey "payload").bind (·.atKey "event")
  if type = bytes "channel.chat.message" then event.bind complete
  else if type = bytes "channel.ad_break.begin" then
    (event.bind (·.stringAt "duration_seconds")).map
      fun text ↦ systemMessage (text ++ bytes " second ad break beginning.")
  else if type = bytes "channel.chat.clear" then
    some (systemMessage (bytes "Chat clear requested"))
  else none

/-- The message that a frame stands for. -/
def standsFor (parse : Bytes → Option Json) (msg : Bytes) : Option ChatMessage :=
  (parse msg).bind fun raw ↦ (subscriptionType raw).bind (decodeType raw)

/-- The messages that a frame adds to the chat: one, or none. -/
def decode (parse : Bytes → Option Json) (msg : Bytes) : List ChatMessage :=
  (standsFor parse msg).toList

/-- The badges in a frame. -/
def badgesOf (raw : Json) : List Json :=
  match event raw with
  | some event => ((event.atKey "badges").getD .null).elements
  | none => []

/-- Every badge that is an object has a `set_id`. -/
def HaveIds (badges : List Json) : Prop :=
  ∀ members, Json.object members ∈ badges → (Json.object members).contains "set_id"

/-- An object without a `set_id`. -/
def lacksId : Json → Bool
  | .object members => (members.lookup (bytes "set_id")).isNone
  | _ => false

/-- The first badge without a string as its `set_id` is an object that has no
`set_id` at all. -/
def Unidentified (badges : List Json) : Prop :=
  ∃ pre badge post, badges = pre ++ badge :: post ∧
    (∀ b ∈ pre, (b.stringAt "set_id").isSome) ∧ lacksId badge = true

/-- The handler reads the event of a chat notification up to a badge without a
`set_id`. -/
structure FatalEvent (event : Json) : Prop where
  user : (event.stringAt "chatter_user_name").isSome
  text : ((event.atKey "message").bind (stringAt "text")).isSome
  color : (event.stringAt "color").isSome
  badges : Unidentified ((event.atKey "badges").getD .null).elements

/-- A chat notification with such an event. -/
def Fatal (raw : Json) : Prop :=
  subscriptionType raw = some (bytes "channel.chat.message") ∧
    ∃ e, event raw = some e ∧ FatalEvent e

/-! ## The badges -/

theorem badgeId_eq {badge : Json} (h : lacksId badge = false) :
    badgeId badge = orThrow (badge.stringAt "set_id") := by
  cases badge with
  | object members =>
      cases hl : members.lookup (bytes "set_id") with
      | none => simp [lacksId, hl] at h
      | some id => simp [badgeId, constIndex, stringAt, atKey, hl, bind, Except.bind]
  | _ => rfl

theorem badgeId_of_lacksId {badge : Json} (h : lacksId badge = true) :
    badgeId badge = .error .undefined := by
  cases badge with
  | object members =>
      rw [lacksId, Option.isNone_iff_eq_none] at h
      simp [badgeId, constIndex, h, bind, Except.bind]
  | _ => simp [lacksId] at h

theorem not_unidentified_nil : ¬ Unidentified [] := by
  rintro ⟨pre, badge, post, h, -⟩
  simp at h

theorem unidentified_cons {badge : Json} {badges : List Json} :
    Unidentified (badge :: badges) ↔
      lacksId badge = true ∨ (badge.stringAt "set_id").isSome ∧ Unidentified badges := by
  constructor
  · rintro ⟨pre, b, post, h, hpre, hb⟩
    cases pre with
    | nil =>
        obtain ⟨rfl, rfl⟩ : badge = b ∧ badges = post := by simpa using h
        exact .inl hb
    | cons first pre =>
        obtain ⟨rfl, rfl⟩ : badge = first ∧ badges = pre ++ b :: post := by simpa using h
        rw [List.forall_mem_cons] at hpre
        exact .inr ⟨hpre.1, pre, b, post, rfl, hpre.2, hb⟩
  · rintro (hb | ⟨hfirst, pre, b, post, rfl, hpre, hb⟩)
    · exact ⟨[], badge, badges, rfl, by simp, hb⟩
    · exact ⟨badge :: pre, b, post, rfl, List.forall_mem_cons.mpr ⟨hfirst, hpre⟩, hb⟩

/-- The loop over the badges is left by an exception, or by the undefined access,
at the first badge that has no string to offer. -/
theorem mapM_badgeId (badges : List Json) :
    (Unidentified badges → badges.mapM badgeId = .error .undefined) ∧
    (¬ Unidentified badges →
      badges.mapM badgeId = orThrow (badges.mapM (stringAt "set_id"))) := by
  induction badges with
  | nil => exact ⟨fun h ↦ (not_unidentified_nil h).elim, fun _ ↦ rfl⟩
  | cons badge badges ih =>
      rw [unidentified_cons, List.mapM_cons, List.mapM_cons]
      cases hlacks : lacksId badge with
      | true => simp [badgeId_of_lacksId hlacks, bind, Except.bind]
      | false =>
          rw [badgeId_eq hlacks]
          cases badge.stringAt "set_id" with
          | none => simp [orThrow, bind, Except.bind]
          | some id =>
              simp only [Bool.false_eq_true, Option.isSome_some, true_and, false_or]
              constructor
              · intro h
                rw [ih.1 h]
                rfl
              · intro h
                rw [ih.2 h]
                cases badges.mapM (stringAt "set_id") <;> rfl

/-! ## The handler reads what the frame says -/

/-- A frame that stands for nothing is dropped. -/
def Handled.ofOption : Option ChatMessage → Handled
  | none => .dropped
  | some m => .message m

@[simp] theorem caught_ok (m : Option ChatMessage) : caught (.ok m) = .ofOption m := by
  cases m <;> rfl

theorem caught_orThrow_bind {α : Type} (o : Option α) {f : α → Except Failure (Option ChatMessage)}
    {g : α → Option ChatMessage} (h : ∀ a, o = some a → caught (f a) = .ofOption (g a)) :
    caught (orThrow o >>= f) = .ofOption (o.bind g) := by
  cases o with
  | none => rfl
  | some a => exact h a rfl

theorem index_getString (key : String) (j : Json) :
    (j.index key).bind getString = j.stringAt key := index_bind key j rfl

theorem index_index_getString (key key' : String) (j : Json) :
    ((j.index key).bind fun v ↦ (v.index key').bind getString) =
      (j.atKey key).bind (stringAt key') := by
  rw [index_bind key j rfl]
  exact congrArg _ (funext fun v ↦ index_getString key' v)

theorem contains_of_stringAt {key : String} {j : Json} (h : (j.stringAt key).isSome) :
    j.contains key = true := by
  rw [contains_eq]
  cases hj : j.atKey key with
  | none => simp [stringAt, hj] at h
  | some v => rfl

/-- A complete message passes the tests for its fields. -/
theorem not_incomplete {event : Json} (huser : (event.stringAt "chatter_user_name").isSome)
    (htext : ((event.atKey "message").bind (stringAt "text")).isSome) :
    ¬ (!event.contains "chatter_user_name" || !event.contains "message" ||
      !(event.index "message").any (·.contains "text")) = true := by
  have huser' := contains_of_stringAt huser
  cases hmessage : event.atKey "message" with
  | none => simp [hmessage] at htext
  | some message =>
      have htext' : message.contains "text" = true :=
        contains_of_stringAt (by simpa [hmessage] using htext)
      have hmessage' : event.contains "message" = true := by simp [contains_eq, hmessage]
      simp [huser', hmessage', hmessage, index_of_contains huser', htext']

/-- Without one of the fields that the handler tests for, there is no message. -/
theorem complete_eq_none {event : Json}
    (h : (!event.contains "chatter_user_name" || !event.contains "message" ||
      !(event.index "message").any (·.contains "text")) = true) : complete event = none := by
  unfold complete
  cases huser : event.atKey "chatter_user_name" with
  | none => simp [stringAt, huser]
  | some user =>
      cases hmessage : event.atKey "message" with
      | none => simp
      | some message =>
          have huser' : event.contains "chatter_user_name" = true := by simp [contains_eq, huser]
          have htext : message.atKey "text" = none := by
            simpa [contains_eq, huser, hmessage, index_of_contains huser'] using h
          simp [stringAt, htext]

theorem caught_chatMessage_of_fatal {event : Json} (h : FatalEvent event) :
    caught (chatMessage event) = .undefined := by
  obtain ⟨user, huser⟩ := Option.isSome_iff_exists.mp h.user
  obtain ⟨text, htext⟩ := Option.isSome_iff_exists.mp h.text
  obtain ⟨color, hcolor⟩ := Option.isSome_iff_exists.mp h.color
  rw [chatMessage, if_neg (not_incomplete h.user h.text), index_getString, index_index_getString,
    index_getString, index_of_contains (contains_of_stringAt h.user) "badges", huser, htext, hcolor]
  change caught (List.mapM badgeId _ >>= _) = _
  rw [(mapM_badgeId _).1 h.badges]
  rfl

theorem caught_chatMessage {event : Json} (h : ¬ FatalEvent event) :
    caught (chatMessage event) = .ofOption (complete event) := by
  unfold chatMessage
  split
  · rename_i hcond
    rw [caught_ok, complete_eq_none hcond]
  · rename_i hcond
    have huser : event.contains "chatter_user_name" = true := by
      by_contra hno
      simp [hno] at hcond
    rw [index_getString, index_index_getString, index_getString, index_of_contains huser "badges"]
    refine caught_orThrow_bind _ fun user huser ↦ ?_
    refine caught_orThrow_bind _ fun text htext ↦ ?_
    refine caught_orThrow_bind _ fun color hcolor ↦ ?_
    have hbadges : ¬ Unidentified ((event.atKey "badges").getD .null).elements := fun hbadges ↦
      h ⟨by simp [huser], by simp [htext], by simp [hcolor], hbadges⟩
    change caught (List.mapM badgeId _ >>= _) = _
    rw [(mapM_badgeId _).2 hbadges]
    exact caught_orThrow_bind _ fun badges _ ↦ rfl

theorem event_bind {α : Type} (raw : Json) {f : Json → Option α} (hf : f .null = none) :
    (event raw).bind f = ((raw.atKey "payload").bind (·.atKey "event")).bind f := by
  unfold event
  rw [Option.bind_assoc, Option.bind_assoc,
    index_bind "payload" raw (f := fun payload ↦ (payload.index "event").bind f) hf]
  exact congrArg _ (funext fun payload ↦ index_bind "event" payload hf)

theorem caught_ofType_of_fatal {raw e : Json} (hevent : event raw = some e) (h : FatalEvent e) :
    caught (ofType true raw (bytes "channel.chat.message")) = .undefined := by
  rw [ofType, if_pos (by simp), hevent]
  exact caught_chatMessage_of_fatal h

theorem caught_ofType {raw : Json} {type : Bytes}
    (h : type = bytes "channel.chat.message" → ∀ e, event raw = some e → ¬ FatalEvent e) :
    caught (ofType true raw type) = .ofOption (decodeType raw type) := by
  unfold ofType decodeType
  simp only [Bool.and_true, decide_eq_true_eq]
  split_ifs with hchat
  · rw [← event_bind raw rfl]
    exact caught_orThrow_bind _ fun e hevent ↦ caught_chatMessage (h hchat e hevent)
  · have hseconds : ((event raw).bind fun e ↦ (e.index "duration_seconds").bind getString) =
        ((raw.atKey "payload").bind (·.atKey "event")).bind (·.stringAt "duration_seconds") := by
      rw [event_bind raw rfl]
      exact congrArg _ (funext fun e ↦ index_getString "duration_seconds" e)
    rw [hseconds, Option.map_eq_bind]
    exact caught_orThrow_bind _ fun text _ ↦ rfl
  · rfl
  · rfl

theorem caught_ofType_uninstalled (raw : Json) (type : Bytes) :
    caught (ofType false raw type) = .dropped := by
  simp [ofType, caught]

/-- The metadata of a frame decides whether it gets any further. -/
theorem caught_notification (installed : Bool) (raw : Json) :
    caught (notification installed raw) =
      ((subscriptionType raw).map fun type ↦ caught (ofType installed raw type)).getD
        .dropped := by
  unfold notification subscriptionType
  cases hmeta : raw.atKey "metadata" with
  | none => simp [contains_eq, hmeta, Handled.ofOption]
  | some metadata =>
      have hcontains : raw.contains "metadata" = true := by simp [contains_eq, hmeta]
      rw [if_neg (by simp [hcontains]), index_of_contains hcontains "metadata", hmeta]
      have hkind := index_getString "message_type" metadata
      change caught (orThrow (metadata.index "message_type") >>= _) =
        (Option.map _ (if _ then _ else _)).getD _
      cases hindex : metadata.index "message_type" with
      | none =>
          have hnone : metadata.stringAt "message_type" = none := by simpa [hindex] using hkind.symm
          rw [if_neg (by simp [hnone])]
          rfl
      | some kind =>
          have hstring : kind.getString = metadata.stringAt "message_type" := by
            simpa [hindex] using hkind
          change caught (if kind.getString ≠ some (bytes "notification") then _ else _) = _
          rw [hstring]
          by_cases heq : metadata.stringAt "message_type" = some (bytes "notification")
          · rw [if_neg (not_not.mpr heq), if_pos heq, index_getString, Option.getD_some]
            cases metadata.stringAt "subscription_type" <;> rfl
          · rw [if_pos heq, if_neg heq]
            rfl

/-- **What a frame says.**  A frame that is fatal ends in the undefined access. -/
theorem handleEventSubMessage_of_fatal {parse : Bytes → Option Json} {msg : Bytes} {raw : Json}
    (hparse : parse msg = some raw) (h : Fatal raw) :
    handleEventSubMessage parse true msg = .undefined := by
  obtain ⟨htype, e, hevent, hfatal⟩ := h
  rw [handleEventSubMessage, hparse]
  change caught (notification true raw) = _
  rw [caught_notification, htype]
  exact caught_ofType_of_fatal hevent hfatal

/-- For any other frame, the handler calls the callback with the message that the
frame stands for, and drops the frame if there is none. -/
theorem handleEventSubMessage_of_not_fatal {parse : Bytes → Option Json} {msg : Bytes}
    (h : ∀ raw, parse msg = some raw → ¬ Fatal raw) :
    handleEventSubMessage parse true msg = .ofOption (standsFor parse msg) := by
  refine caught_orThrow_bind _ fun raw hraw ↦ ?_
  rw [caught_notification]
  cases htype : subscriptionType raw with
  | none => rfl
  | some type =>
      refine caught_ofType ?_
      rintro rfl e hevent hfatal
      exact h raw hraw ⟨htype, e, hevent, hfatal⟩

theorem handleEventSubMessage_uninstalled (parse : Bytes → Option Json) (msg : Bytes) :
    handleEventSubMessage parse false msg = .dropped := by
  unfold handleEventSubMessage
  cases parse msg with
  | none => rfl
  | some raw =>
      change caught (notification false raw) = _
      rw [caught_notification]
      cases subscriptionType raw with
      | none => rfl
      | some type => exact caught_ofType_uninstalled raw type

theorem not_fatal_of_haveIds {raw : Json} (h : HaveIds (badgesOf raw)) : ¬ Fatal raw := by
  rintro ⟨-, e, hevent, hfatal⟩
  obtain ⟨pre, badge, post, hbadges, -, hlacks⟩ := hfatal.badges
  cases badge with
  | object members =>
      have hmem : Json.object members ∈ badgesOf raw := by simp [badgesOf, hevent, hbadges]
      have hid := h members hmem
      rw [lacksId, Option.isNone_iff_eq_none] at hlacks
      simp [Json.contains, hlacks] at hid
  | _ => simp [lacksId] at hlacks

/-- In particular, this holds as long as every badge that is an object has a
`set_id`. -/
theorem handleEventSubMessage_eq {parse : Bytes → Option Json} {msg : Bytes}
    (h : ∀ raw, parse msg = some raw → HaveIds (badgesOf raw)) :
    handleEventSubMessage parse true msg = .ofOption (standsFor parse msg) :=
  handleEventSubMessage_of_not_fatal fun raw hraw ↦ not_fatal_of_haveIds (h raw hraw)

section

variable {parse : Bytes → Option Json} {msg : Bytes}
  (hids : ∀ raw, parse msg = some raw → HaveIds (badgesOf raw))
include hids

theorem standsFor_of_dropped (h : handleEventSubMessage parse true msg = .dropped) :
    standsFor parse msg = none := by
  rw [handleEventSubMessage_eq hids] at h
  cases hs : standsFor parse msg with
  | none => rfl
  | some m => simp [hs, Handled.ofOption] at h

theorem standsFor_of_message {m : ChatMessage}
    (h : handleEventSubMessage parse true msg = .message m) : standsFor parse msg = some m := by
  rw [handleEventSubMessage_eq hids] at h
  cases hs : standsFor parse msg with
  | none => simp [hs, Handled.ofOption] at h
  | some m' => simpa [hs, Handled.ofOption] using h

theorem not_undefined : handleEventSubMessage parse true msg ≠ .undefined := by
  rw [handleEventSubMessage_eq hids]
  cases standsFor parse msg <;> simp [Handled.ofOption]

end

end Seraphbot.EventSub
