import AstroPlant.Serde

/-!
# What a document says of a field

In a document that patches a record each field is absent, null or has a value.
Merging the document into the record replaces what has a value, and a null clears
a field that can be empty. A program sees the document through its types: an
`Option` does not tell an absent field from a null, an `Option` of an `Option`
does, and each of them tells what its merge needs.

The identities are those of the merges: reading a field through an `Option` and
taking the old value where there is none is the merge of a field that cannot be
empty (`getD_toOption`), and through the double option it is the merge of one
that can (`getD_toDoubleOption`). Merging twice is merging once.
-/

namespace AstroPlant

inductive Given (α : Type) where
  | absent
  | null
  | value (a : α)

namespace Given

variable {α β : Type}

def map (f : α → β) : Given α → Given β
  | absent => absent
  | null => null
  | value a => value (f a)

/-- The field has a value. -/
def isValue : Given α → Bool
  | value _ => true
  | _ => false

/-- The field is in the document. -/
def isGiven : Given α → Bool
  | absent => false
  | _ => true

/-- A field that cannot be empty, after the merge. -/
def merge (given : Given α) (old : α) : α :=
  match given with
  | value a => a
  | _ => old

/-- A field that can be empty, after the merge. -/
def mergeNullable (given : Given α) (old : Option α) : Option α :=
  match given with
  | absent => old
  | null => none
  | value a => some a

/-- The field as an `Option`. -/
def toOption : Given α → Option α
  | value a => some a
  | _ => none

/-- The field as an `Option` of an `Option`. -/
def toDoubleOption : Given α → Option (Option α)
  | absent => none
  | null => some none
  | value a => some (some a)

@[simp] theorem getD_toOption (given : Given α) (old : α) :
    given.toOption.getD old = given.merge old := by
  cases given <;> rfl

@[simp] theorem getD_toDoubleOption (given : Given α) (old : Option α) :
    given.toDoubleOption.getD old = given.mergeNullable old := by
  cases given <;> rfl

theorem isNone_toOption (given : Given α) : given.toOption.isNone = !given.isValue := by
  cases given <;> rfl

theorem isNone_toDoubleOption (given : Given α) :
    given.toDoubleOption.isNone = !given.isGiven := by
  cases given <;> rfl

theorem mem_toOption {given : Given α} {a : α} : a ∈ given.toOption ↔ given = value a := by
  cases given <;> simp [toOption]

@[simp] theorem merge_merge (given : Given α) (old : α) :
    given.merge (given.merge old) = given.merge old := by
  cases given <;> rfl

@[simp] theorem mergeNullable_mergeNullable (given : Given α) (old : Option α) :
    given.mergeNullable (given.mergeNullable old) = given.mergeNullable old := by
  cases given <;> rfl

end Given

/-! ## Reading documents -/

namespace Json

variable {α : Type}

/-- What an object says of a field, if it says one thing and of the right type. -/
def given (read : Json → Option α) (name : String) : Json → Option (Given α)
  | .object fields =>
      match fields.filter (·.1 = name) with
      | [] => some .absent
      | [(_, .null)] => some .null
      | [(_, value)] => (read value).map .value
      | _ => none
  | _ => none

theorem optionField_eq_given (read : Json → Option α) (name : String) (j : Json) :
    optionField read name j = (given read name j).map Given.toOption := by
  cases j with
  | object fields =>
      simp only [optionField, given]
      generalize fields.filter (·.1 = name) = found
      cases found with
      | nil => rfl
      | cons field rest =>
          obtain ⟨_, value⟩ := field
          cases rest with
          | nil => cases value <;> simp [Given.toOption, Function.comp_def]
          | cons _ _ => simp
  | _ => rfl

theorem doubleOptionField_eq_given (read : Json → Option α) (name : String) (j : Json) :
    doubleOptionField read name j = (given read name j).map Given.toDoubleOption := by
  cases j with
  | object fields =>
      simp only [doubleOptionField, given]
      generalize fields.filter (·.1 = name) = found
      cases found with
      | nil => rfl
      | cons field rest =>
          obtain ⟨_, value⟩ := field
          cases rest with
          | nil => cases value <;> simp [option, Given.toDoubleOption, Function.comp_def]
          | cons _ _ => simp
  | _ => rfl

end Json

end AstroPlant
