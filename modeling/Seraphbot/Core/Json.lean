import Seraphbot.Core.Text

/-!
# JSON values

The values that `nlohmann::json` parses a text to, with the accessors that throw.
An exception is `none`; what it reports is not used anywhere.  The library leaves
one access undefined, and only for that one a failure is more than an exception.
-/

namespace Seraphbot

/-- A parsed JSON value. -/
inductive Json where
  | null
  | boolean (b : Bool)
  | number (numeral : Bytes)
  | string (s : Bytes)
  | array (items : List Json)
  | object (members : List (Bytes × Json))

namespace Json

/-- `at(key)`, which throws unless the value is an object with that key. -/
def atKey (key : String) : Json → Option Json
  | .object members => members.lookup (bytes key)
  | _ => none

/-- `get<std::string>()`, which throws unless the value is a string. -/
def getString : Json → Option Bytes
  | .string s => some s
  | _ => none

/-- `contains(key)`. -/
def contains (key : String) : Json → Bool
  | .object members => (members.lookup (bytes key)).isSome
  | _ => false

/-- `operator[](key)` of a value that is not `const`.  It puts a null where an
object has no such key, makes an object of a null, and throws otherwise. -/
def index (key : String) : Json → Option Json
  | .object members => some ((members.lookup (bytes key)).getD .null)
  | .null => some .null
  | _ => none

/-- What an access can end in other than a value: an exception, or an access that
the library does not define. -/
inductive Failure where
  | exception
  | undefined
deriving DecidableEq

/-- A value, or an exception. -/
def orThrow {α : Type} : Option α → Except Failure α
  | some a => .ok a
  | none => .error .exception

/-- `operator[](key)` of a `const` value.  It throws unless the value is an object,
and asserts that an object has the key. -/
def constIndex (key : String) : Json → Except Failure Json
  | .object members =>
      match members.lookup (bytes key) with
      | some j => .ok j
      | none => .error .undefined
  | _ => .error .exception

/-- The values that a `for` loop runs through. -/
def elements : Json → List Json
  | .null => []
  | .array items => items
  | .object members => members.map Prod.snd
  | j => [j]

/-- Comparison with `true`. -/
def isTrue : Json → Bool
  | .boolean b => b
  | _ => false

/-- `value(key, fallback)` for a string.  It throws unless the value is an object, and
if it has something else than a string under the key. -/
def value (key : String) (fallback : Bytes) : Json → Option Bytes
  | .object members =>
      match members.lookup (bytes key) with
      | none => some fallback
      | some j => j.getString
  | _ => none

/-- `operator[](0)` of a value that is not `const`.  It puts a null where an array is
empty, makes an array of a null, and throws otherwise. -/
def first : Json → Option Json
  | .null => some .null
  | .array items => some (items.headD .null)
  | _ => none

/-- `empty()`. -/
def isEmpty : Json → Bool
  | .null => true
  | .array items => items.isEmpty
  | .object members => members.isEmpty
  | _ => false

/-- `at(key).get<std::string>()`. -/
def stringAt (key : String) (j : Json) : Option Bytes := (j.atKey key).bind getString

theorem contains_eq (key : String) (j : Json) : j.contains key = (j.atKey key).isSome := by
  cases j <;> rfl

/-- An object is all that has keys, and then no access throws. -/
theorem index_of_contains {key : String} {j : Json} (h : j.contains key) (key' : String) :
    j.index key' = some ((j.atKey key').getD .null) := by
  cases j with
  | object members => rfl
  | _ => simp [contains] at h

/-- What is done with a null does not show that it was put there by an access. -/
theorem index_bind {α : Type} (key : String) (j : Json) {f : Json → Option α}
    (hf : f .null = none) : (j.index key).bind f = (j.atKey key).bind f := by
  cases j with
  | object members => cases h : members.lookup (bytes key) <;> simp [index, atKey, h, hf]
  | null => simpa [index, atKey] using hf
  | _ => rfl

end Json

end Seraphbot
