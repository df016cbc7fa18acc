import AstroPlant.Json
import Mathlib.Algebra.Group.Int.Defs

/-!
# Deserialisation as `serde` derives it

What derived implementations make of a JSON value. A struct is an object with
each of its fields once, other fields being ignored, or the array of its fields;
a unit variant is its name, or an object of that name with the value `null`. An
internally tagged enum is an object with its tag beside the content; an
externally tagged one is a name, or an object with exactly one key.

What is optional has three shapes in the source, and they differ on `null` and on
absence: a plain field must be there, an `Option` takes both for `None`
(`optionField`), and the double option of a patch tells them apart
(`doubleOptionField`). The readers are total; a document that is not of the type
is `none`, without the library's text of what was wrong with it.
-/

namespace AstroPlant

namespace Json

def struct (names : List String) : Json → Option (List Json)
  | .object fields => names.mapM fun name =>
      match fields.filter (·.1 = name) with
      | [(_, value)] => some value
      | _ => none
  | .array values => if values.length = names.length then some values else none
  | _ => none

def unitVariant : Json → Option String
  | .string name => some name
  | .object [(name, .null)] => some name
  | _ => none

def string? : Json → Option String
  | .string s => some s
  | _ => none

def bool? : Json → Option Bool
  | .bool b => some b
  | _ => none

def usize? : Json → Option Nat
  | .number (.posInt n) => if n < 2 ^ 64 then some n else none
  | _ => none

def i32? : Json → Option Int
  | .number (.posInt n) => if n < 2 ^ 31 then some n else none
  | .number (.negInt n) => if -2 ^ 31 ≤ n then some n else none
  | _ => none

/-- An unsigned number of the JSON library is a `u64` already. -/
def u64? : Json → Option Nat
  | .number (.posInt n) => some n
  | _ => none

/-- A field of `Option` type: it may be absent or `null`. -/
def optionField {α : Type} (read : Json → Option α) (name : String) : Json → Option (Option α)
  | .object fields =>
      match fields.filter (·.1 = name) with
      | [] => some none
      | [(_, .null)] => some none
      | [(_, value)] => (read value).map some
      | _ => none
  | _ => none

/-- A value of `Option` type. -/
def option {α : Type} (read : Json → Option α) : Json → Option (Option α)
  | .null => some none
  | value => (read value).map some

/-- A field of `Option<Option<_>>` type with `default`, deserialised with
`deserialize_some`: it may be absent, and what is there is a value of `Option` type. -/
def doubleOptionField {α : Type} (read : Json → Option α) (name : String) :
    Json → Option (Option (Option α))
  | .object fields =>
      match fields.filter (·.1 = name) with
      | [] => some none
      | [(_, value)] => (option read value).map some
      | _ => none
  | _ => none

/-- `skip_serializing_if = "Option::is_none"`. -/
def unlessNone {α : Type} (write : α → Json) (name : String) : Option α → List (String × Json)
  | some value => [(name, write value)]
  | none => []

/-- The variant that the tag names, and the object without the tag. -/
def internallyTagged (tag : String) : Json → Option (String × Json)
  | .object fields =>
      match fields.filter (·.1 = tag) with
      | [(_, .string variant)] => some (variant, .object (fields.filter (·.1 ≠ tag)))
      | _ => none
  | _ => none

/-- The variant and its content; a unit variant has `null`. -/
def externallyTagged : Json → Option (String × Json)
  | .string variant => some (variant, .null)
  | .object [(variant, content)] => some (variant, content)
  | _ => none

/-- An object with more than one key is no externally tagged enum. -/
theorem externallyTagged_eq_none {fields : List (String × Json)} (h : fields.length ≠ 1) :
    (object fields).externallyTagged = none := by
  match fields, h with
  | [], _ => rfl
  | [_], h => exact absurd rfl h
  | _ :: _ :: _, _ => rfl

end Json

end AstroPlant
