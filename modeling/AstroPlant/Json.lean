import Mathlib.Algebra.Group.Nat.Defs
import Mathlib.Data.List.Basic

/-!
# JSON values and 64-bit floats

Floats are their IEEE 754 bit patterns, so that "any 64-bit float" includes
every infinity and every NaN payload, and whether a float is finite is a
computation on its exponent field. `Json` is the value type of the JSON
library: a number is an unsigned or a negative integer or a *finite* float;
there is no number that is not finite.

What is read where a float is expected is what the library reads: an integer is
rounded to the nearest float, ties going to even. So a value survives being
stored as a number if it is finite, and a value that is not finite is stored as
`null`, which is not read as a float again (`toF64?_ofF64`).
-/

namespace AstroPlant

/-- A 64-bit float, by its bits. -/
structure F64 where
  bits : BitVec 64
deriving DecidableEq

namespace F64

def exponent (x : F64) : BitVec 11 := x.bits.extractLsb' 52 11

/-- Neither infinite nor a NaN: the exponent field is not all ones. -/
def isFinite (x : F64) : Bool := x.exponent ≠ 0x7ff#11

def zero : F64 := ⟨0#64⟩

def one : F64 := ⟨0x3ff0000000000000#64⟩

def infinity : F64 := ⟨0x7ff0000000000000#64⟩

def nan : F64 := ⟨0x7ff8000000000000#64⟩

/-- The bits of a natural number below `2 ^ 64` as a float: to nearest, ties to
even. A carry out of the mantissa moves on to the exponent by itself. -/
def natBits (n : Nat) : Nat :=
  if n = 0 then 0
  else
    let e := n.log2
    if e ≤ 52 then (e + 1023) * 2 ^ 52 + (n * 2 ^ (52 - e) - 2 ^ 52)
    else
      let q := n / 2 ^ (e - 52)
      let r := n % 2 ^ (e - 52)
      let half := 2 ^ (e - 53)
      let q' := if half < r ∨ (r = half ∧ q % 2 = 1) then q + 1 else q
      (e + 1023) * 2 ^ 52 + (q' - 2 ^ 52)

/-- An integer as a float (`as f64`). -/
def ofInt (n : Int) : F64 :=
  ⟨BitVec.ofNat 64 ((if n < 0 then 2 ^ 63 else 0) + natBits n.natAbs)⟩

end F64

/-- A JSON number. `negInt` holds integers below zero. -/
inductive Number where
  | posInt (n : Nat)
  | negInt (n : Int)
  | float (x : F64)
deriving DecidableEq

/-- A JSON value; the fields of an object have distinct names. -/
inductive Json where
  | null
  | bool (b : Bool)
  | number (n : Number)
  | string (s : String)
  | array (xs : List Json)
  | object (fields : List (String × Json))

namespace Json

def ofNat (n : Nat) : Json := .number (.posInt n)

def ofInt (n : Int) : Json := if 0 ≤ n then .number (.posInt n.toNat) else .number (.negInt n)

/-- Serialising a float: a float that is not finite becomes `null`. -/
def ofF64 (x : F64) : Json :=
  if x.isFinite then .number (.float x) else .null

/-- Deserialising where a float is expected: every number is accepted, and
nothing else is, `null` included. -/
def toF64? : Json → Option F64
  | .number (.posInt n) => some (F64.ofInt n)
  | .number (.negInt n) => some (F64.ofInt n)
  | .number (.float x) => some x
  | _ => none

/-- A float survives serialisation exactly when it is finite; otherwise it can
not be read back at all. -/
theorem toF64?_ofF64 (x : F64) :
    (ofF64 x).toF64? = if x.isFinite then some x else none := by
  unfold ofF64
  split <;> rfl

end Json

end AstroPlant
