import Seraphbot.Core.Path

/-!
# Lua values and their conversions

What a command file evaluates to, and how the engine reads it.  A script is
taken to be a function of its contents, so a file system assigns to each file
the value its script returns.

The conversions from Lua values to C++ values belong to sol2, whose behaviour on
ill-typed values depends on how it is configured.  They are the fields of `Sol`,
and nothing is assumed about them: a conversion yields some value of the
requested type, or throws.
-/

namespace Seraphbot

/-- A Lua value. -/
inductive LuaValue where
  | nil
  | boolean (b : Bool)
  | integer (n : Int)
  /-- A float, by its IEEE representation. -/
  | float (bits : UInt64)
  | string (s : Bytes)
  /-- A function, by the index of its code in the chunk that defines it. -/
  | function (proto : Nat)
  /-- A table: its named fields, and its items from `1` up to its length, which
  may be `nil`. -/
  | table (fields : List (Bytes × LuaValue)) (items : List LuaValue)
  | userdata

/-- A `sol::table`. -/
structure LuaTable where
  fields : List (Bytes × LuaValue)
  items : List LuaValue

/-- `table[key]`; a field that is not there is `nil`. -/
def LuaTable.get (t : LuaTable) (key : String) : LuaValue :=
  match t.fields.find? (fun f ↦ f.1 = bytes key) with
  | some f => f.2
  | none => .nil

/-- `proxy.valid()`: anything but `nil`. -/
def LuaValue.valid : LuaValue → Bool
  | .nil => false
  | _ => true

/-- What running a script file comes to. -/
inductive Script where
  /-- It does not compile, or raises an error. -/
  | error
  /-- It returns a value. -/
  | returned (v : LuaValue)

/-- The files that exist, each with what its script comes to. -/
abbrev FileSystem := Path → Option Script

/-- An entry of a directory, as `std::filesystem::directory_iterator` yields it. -/
structure DirectoryEntry where
  path : Path
  isRegularFile : Bool

/-- The conversions of sol2, each `none` when it throws. -/
structure Sol where
  /-- `std::string s = proxy`. -/
  asString : LuaValue → Option Bytes
  /-- `sol::table t = proxy`. -/
  asTable : LuaValue → Option LuaTable
  /-- `sol::protected_function f = proxy`; the inner `none` is a function object
  that is not `valid()`. -/
  asFunction : LuaValue → Option (Option Nat)
  /-- `table.get_or<std::string>(key, default)`, on the value of the field. -/
  getOrString : LuaValue → Bytes → Option Bytes
  /-- `table.get_or<int>(key, default)`. -/
  getOrInt : LuaValue → Int → Option Int
  /-- `table.get_or<bool>(key, default)`. -/
  getOrBool : LuaValue → Bool → Option Bool

/-- The conversions with all checks enabled: a well-typed value is converted, an
ill-typed one throws, and `get_or` falls back on its default. -/
def Sol.checked : Sol where
  asString
    | .string s => some s
    | _ => none
  asTable
    | .table fields items => some ⟨fields, items⟩
    | _ => none
  asFunction
    | .function proto => some (some proto)
    | _ => none
  getOrString
    | .string s, _ => some s
    | _, default => some default
  getOrInt
    | .integer n, _ => some n
    | _, default => some default
  getOrBool
    | .boolean b, _ => some b
    | _, default => some default

/-! ## Two of the scripts that come with the bot -/

/-- `commands/hello.lua`. -/
def helloLua : Script :=
  .returned (.table
    [(bytes "name", .string (bytes "hello")),
     (bytes "description", .string (bytes "Greet a user")),
     (bytes "usage", .string (bytes "!hello [username]")),
     (bytes "user_cooldown", .integer 10),
     (bytes "execute", .function 0)] [])

/-- `commands/flip.lua`. -/
def flipLua : Script :=
  .returned (.table
    [(bytes "name", .string (bytes "flip")),
     (bytes "aliases", .table [] [.string (bytes "coin"), .string (bytes "coinflip")]),
     (bytes "description", .string (bytes "Flip a coin")),
     (bytes "usage", .string (bytes "!flip")),
     (bytes "command_cooldown", .integer 5),
     (bytes "execute", .function 0)] [])

end Seraphbot
