import AstroPlant.Json

/-!
# Floats as text

`f64` is displayed as the shortest decimal that rounds to it, the closest one if
there are several, and never with an exponent. The decimals `d * 10 ^ k` that
round to a float are those in an interval around it; the shortest ones have the
largest `k`.

Everything is done on natural numbers: the interval and the candidates are scaled
by powers of two and ten until they are whole, so that the text of a float is a
computation, and the files that contain it can be evaluated. Which characters can
occur in it is all that a reader of these files has to know
(`isDisplayed_toText`): there is no comma, quote or line break among them.
-/

namespace AstroPlant

namespace F64

def mantissa (x : F64) : Nat := (x.bits.extractLsb' 0 52).toNat

def isNegative (x : F64) : Bool := x.bits.msb

/-- A finite float is `significand * 2 ^ scale`, but for its sign. -/
def significand (x : F64) : Nat := if x.exponent = 0 then x.mantissa else x.mantissa + 2 ^ 52

def scale (x : F64) : Int := if x.exponent = 0 then -1074 else x.exponent.toNat - 1075

/-- `n * 2 ^ (scale - 2)` in units of which `10 ^ k` has `perDecimal x k`. -/
def quarters (x : F64) (k : Int) (n : Nat) : Nat :=
  n * 2 ^ (x.scale - 2).toNat * 10 ^ (-k).toNat

def perDecimal (x : F64) (k : Int) : Nat := 2 ^ (2 - x.scale).toNat * 10 ^ k.toNat

/-- Whether `d * 10 ^ k` rounds to the float: it is at most half way to the
neighbours, and half way if that is rounded to even. The neighbour below a power
of two is closer. -/
def isRoundedTo (x : F64) (k : Int) (d : Nat) : Bool :=
  let lower := 4 * x.significand - if x.mantissa = 0 ∧ 1 < x.exponent.toNat then 1 else 2
  let upper := 4 * x.significand + 2
  if x.significand % 2 = 0 then
    x.quarters k lower ≤ d * x.perDecimal k && d * x.perDecimal k ≤ x.quarters k upper
  else x.quarters k lower < d * x.perDecimal k && d * x.perDecimal k < x.quarters k upper

/-- The closest multiple of `10 ^ k` that rounds to the float. -/
def closest (x : F64) (k : Int) : Option Nat :=
  let value := x.quarters k (4 * x.significand)
  let below := value / x.perDecimal k
  let isCloser := 2 * value < (2 * below + 1) * x.perDecimal k
  if x.isRoundedTo k below && (isCloser || !x.isRoundedTo k (below + 1)) then some below
  else if x.isRoundedTo k (below + 1) then some (below + 1)
  else none

/-- The decimal with the fewest digits. The largest float has 309 digits before
the point, and the smallest one its first digit in the 324th place after it. -/
def shortest (x : F64) : Option (Nat × Int) :=
  (List.range 634).findSome? fun i => (x.closest (309 - i)).map (·, 309 - (i : Int))

/-- `d * 10 ^ k` without an exponent. -/
def decimalText (d : Nat) (k : Int) : List Char :=
  let digits := Nat.toDigits 10 d
  let point := (-k).toNat
  if 0 ≤ k then digits ++ List.replicate k.toNat '0'
  else if point < digits.length then
    digits.take (digits.length - point) ++ '.' :: digits.drop (digits.length - point)
  else '0' :: '.' :: (List.replicate (point - digits.length) '0' ++ digits)

/-- `f64::to_string`. -/
def toText (x : F64) : String :=
  if x.isFinite then
    let digits :=
      if x.significand = 0 then ['0']
      else
        match x.shortest with
        | some (d, k) => decimalText d k
        | none => []
    String.ofList (if x.isNegative then '-' :: digits else digits)
  else if x.mantissa ≠ 0 then "NaN"
  else if x.isNegative then "-inf"
  else "inf"

/-- A digit, a point or a minus sign, or a letter of what is not a number. -/
def isDisplayed (c : Char) : Bool := c.isDigit || ".-NaNinf".toList.contains c

theorem isDisplayed_toDigits {d : Nat} {c : Char} (h : c ∈ Nat.toDigits 10 d) :
    isDisplayed c = true := by
  rw [isDisplayed, Nat.isDigit_of_mem_toDigits (by omega) (by omega) h]
  rfl

theorem isDisplayed_decimalText {d : Nat} {k : Int} {c : Char} (h : c ∈ decimalText d k) :
    isDisplayed c = true := by
  have hzero : ∀ n, c ∈ List.replicate n '0' → isDisplayed c = true := by
    intro n hc
    rw [List.eq_of_mem_replicate hc]
    rfl
  unfold decimalText at h
  dsimp only at h
  split at h
  · rcases List.mem_append.mp h with h | h
    · exact isDisplayed_toDigits h
    · exact hzero _ h
  · split at h
    · rcases List.mem_append.mp h with h | h
      · exact isDisplayed_toDigits (List.mem_of_mem_take h)
      · rcases List.mem_cons.mp h with rfl | h
        · rfl
        · exact isDisplayed_toDigits (List.mem_of_mem_drop h)
    · rcases List.mem_cons.mp h with rfl | h
      · rfl
      · rcases List.mem_cons.mp h with rfl | h
        · rfl
        · rcases List.mem_append.mp h with h | h
          · exact hzero _ h
          · exact isDisplayed_toDigits h

theorem isDisplayed_toText (x : F64) : ∀ c ∈ x.toText.toList, isDisplayed c = true := by
  unfold toText
  split
  · rw [String.toList_ofList]
    have hdigits : ∀ c ∈ (if x.significand = 0 then ['0'] else
        match x.shortest with
        | some (d, k) => decimalText d k
        | none => []), isDisplayed c = true := by
      intro c hc
      split at hc
      · rw [List.mem_singleton.mp hc]
        rfl
      · split at hc
        · exact isDisplayed_decimalText hc
        · cases hc
    intro c hc
    split at hc
    · rcases List.mem_cons.mp hc with rfl | hc
      · rfl
      · exact hdigits c hc
    · exact hdigits c hc
  · split
    · exact List.all_eq_true.mp rfl
    · split <;> exact List.all_eq_true.mp rfl

example : (F64.mk 0x3fb999999999999a#64).toText = "0.1" := by decide +kernel

example : (F64.mk 0xc415af1d78b58c40#64).toText = "-100000000000000000000" := by decide +kernel

end F64

end AstroPlant
