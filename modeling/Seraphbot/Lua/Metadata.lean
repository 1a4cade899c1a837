import Seraphbot.Core.CommandParser
import Seraphbot.Lua.Value

/-!
# Command metadata

What a command file says about its command: `parseCommandMetadata` reads it off
the table the script returns, `hasPermission` decides by it who may use the
command.
-/

namespace Seraphbot

/-- `sbot::core::CommandMetadata`. -/
structure CommandMetadata where
  name : Bytes
  description : Bytes
  usage : Bytes
  aliases : List Bytes := []
  globalCooldown : Int := 0
  commandCooldown : Int := 0
  userCooldown : Int := 0
  modOnly : Bool := false
  vipOnly : Bool := false
  subscriberOnly : Bool := false
  allowedUsers : List Bytes := []
  enabled : Bool := true
  maxUsesPerStream : Int := -1
deriving DecidableEq

namespace LuaCommandEngine

variable (sol : Sol)

/-- The strings of an optional array field.  Items that are `nil` are skipped,
and a field or an item of the wrong type throws if the conversion does. -/
def stringItems (v : LuaValue) : Option (List Bytes) :=
  if v.valid then do
    let t ← sol.asTable v
    (t.items.filter LuaValue.valid).mapM sol.asString
  else some []

/-- Read the metadata off the table of a command, `none` when a conversion
throws on the way. -/
def parseCommandMetadata (t : LuaTable) (defaultName : Bytes) : Option CommandMetadata := do
  let name ← sol.getOrString (t.get "name") defaultName
  let description ← sol.getOrString (t.get "description") []
  let usage ← sol.getOrString (t.get "usage") (bytes "!" ++ name)
  let aliases ← stringItems sol (t.get "aliases")
  let globalCooldown ← sol.getOrInt (t.get "global_cooldown") 0
  let commandCooldown ← sol.getOrInt (t.get "command_cooldown") 0
  let userCooldown ← sol.getOrInt (t.get "user_cooldown") 0
  let modOnly ← sol.getOrBool (t.get "mod_only") false
  let vipOnly ← sol.getOrBool (t.get "vip_only") false
  let subscriberOnly ← sol.getOrBool (t.get "subscriber_only") false
  let allowedUsers ← stringItems sol (t.get "allowed_users")
  let enabled ← sol.getOrBool (t.get "enabled") true
  let maxUsesPerStream ← sol.getOrInt (t.get "max_uses_per_stream") (-1)
  return { name, description, usage, aliases, globalCooldown, commandCooldown, userCooldown,
           modOnly, vipOnly, subscriberOnly, allowedUsers, enabled, maxUsesPerStream }

end LuaCommandEngine

/-! ## Permissions -/

namespace CommandContext

variable (ctx : CommandContext)

/-- `LuaCommandContext::isModerator`. -/
def isModerator : Bool :=
  ctx.message.badges.any fun badge ↦ badge = bytes "moderator" || badge = bytes "broadcaster"

/-- `LuaCommandContext::isVip`. -/
def isVip : Bool :=
  ctx.message.badges.any fun badge ↦
    badge = bytes "vip" || badge = bytes "moderator" || badge = bytes "broadcaster"

/-- `LuaCommandContext::isSubscriber`. -/
def isSubscriber : Bool :=
  ctx.message.badges.any fun badge ↦
    badge = bytes "subscriber" || badge = bytes "vip" || badge = bytes "moderator" ||
      badge = bytes "broadcaster"

end CommandContext

/-- May the sender of the message use a command with this metadata?  A user on
the list is let in whatever the other restrictions say. -/
def LuaCommandEngine.hasPermission (ctx : CommandContext) (m : CommandMetadata) : Bool :=
  if m.allowedUsers ≠ [] && m.allowedUsers.contains ctx.message.user then true
  else if m.modOnly && !ctx.isModerator then false
  else if m.vipOnly && !ctx.isVip then false
  else if m.subscriberOnly && !ctx.isSubscriber then false
  else true

end Seraphbot
