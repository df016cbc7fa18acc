import Mathlib.Data.List.Basic

/-!
# Base64

The standard alphabet with padding: three bytes are four characters, and a rest
of one or two bytes is filled up with equals signs. The decoder also takes a text
whose padding is missing or cut short; equals signs stand at the end only, and
the bits that are left over have to be zero.

What a program that stores bytes as text relies on is `decode_encode`, and that the
text has no characters but those of the alphabet and the padding (`mem_encode`), so
that it can be put between separators.
-/

namespace AstroPlant

namespace Base64

def alphabet : List Char :=
  "ABCDEFGHIJKLMNOPQRSTUVWXYZabcdefghijklmnopqrstuvwxyz0123456789+/".toList

/-- The character of six bits. -/
def char (n : Nat) : Char := alphabet.getD n '='

/-- The six bits of a character. -/
def value? (c : Char) : Option Nat :=
  if c.isUpper then some (c.toNat - 65)
  else if c.isLower then some (c.toNat - 97 + 26)
  else if c.isDigit then some (c.toNat - 48 + 52)
  else if c = '+' then some 62
  else if c = '/' then some 63
  else none

def encodeChars : List UInt8 → List Char
  | [] => []
  | [a] => [char (a.toNat / 4), char (a.toNat % 4 * 16), '=', '=']
  | [a, b] =>
      [char (a.toNat / 4), char (a.toNat % 4 * 16 + b.toNat / 16), char (b.toNat % 16 * 4), '=']
  | a :: b :: c :: bytes =>
      char (a.toNat / 4) :: char (a.toNat % 4 * 16 + b.toNat / 16)
        :: char (b.toNat % 16 * 4 + c.toNat / 64) :: char (c.toNat % 64) :: encodeChars bytes

/-- The byte of the last two characters. -/
def lastByte (x y : Nat) : Option (List UInt8) :=
  if y % 16 = 0 then some [.ofNat (x * 4 + y / 16)] else none

/-- The bytes of the last three characters. -/
def lastBytes (x y z : Nat) : Option (List UInt8) :=
  if z % 4 = 0 then some [.ofNat (x * 4 + y / 16), .ofNat (y % 16 * 16 + z / 4)] else none

def decodeChars : List Char → Option (List UInt8)
  | [] => some []
  | [_] => none
  | [x, y] =>
      match value? x, value? y with
      | some x, some y => lastByte x y
      | _, _ => none
  | [x, y, z] =>
      match value? x, value? y, value? z with
      | some x, some y, some z => lastBytes x y z
      | some x, some y, none => if z = '=' then lastByte x y else none
      | _, _, _ => none
  | x :: y :: z :: w :: cs =>
      match value? x, value? y, value? z, value? w with
      | some x, some y, some z, some w =>
          (decodeChars cs).map fun bytes =>
            .ofNat (x * 4 + y / 16) :: .ofNat (y % 16 * 16 + z / 4) :: .ofNat (z % 4 * 64 + w)
              :: bytes
      | some x, some y, some z, none =>
          if w = '=' ∧ cs = [] then lastBytes x y z else none
      | some x, some y, none, none =>
          if z = '=' ∧ w = '=' ∧ cs = [] then lastByte x y else none
      | _, _, _, _ => none

def encode (bytes : List UInt8) : String := String.ofList (encodeChars bytes)

def decode (s : String) : Option (List UInt8) := decodeChars s.toList

theorem value?_char {n : Nat} (h : n < 64) : value? (char n) = some n := by
  revert h n
  decide +kernel

theorem value?_pad : value? '=' = none := by decide

theorem decodeChars_encodeChars (bytes : List UInt8) :
    decodeChars (encodeChars bytes) = some bytes := by
  fun_induction encodeChars bytes with
  | case1 => rfl
  | case2 a =>
      have ha := a.toNat_lt
      rw [decodeChars, value?_char (by omega), value?_char (by omega), value?_pad]
      have h₁ : a.toNat % 4 * 16 % 16 = 0 := by omega
      have h₂ : a.toNat / 4 * 4 + a.toNat % 4 * 16 / 16 = a.toNat := by omega
      simp only [lastByte, h₁, h₂, UInt8.ofNat_toNat, and_self, if_true]
  | case3 a b =>
      have ha := a.toNat_lt
      have hb := b.toNat_lt
      rw [decodeChars, value?_char (by omega), value?_char (by omega), value?_char (by omega),
        value?_pad]
      have h₁ : b.toNat % 16 * 4 % 4 = 0 := by omega
      have h₂ : a.toNat / 4 * 4 + (a.toNat % 4 * 16 + b.toNat / 16) / 16 = a.toNat := by omega
      have h₃ : (a.toNat % 4 * 16 + b.toNat / 16) % 16 * 16 + b.toNat % 16 * 4 / 4
          = b.toNat := by
        omega
      simp only [lastBytes, h₁, h₂, h₃, UInt8.ofNat_toNat, and_self, if_true]
  | case4 a b c bytes ih =>
      have ha := a.toNat_lt
      have hb := b.toNat_lt
      have hc := c.toNat_lt
      rw [decodeChars, value?_char (by omega), value?_char (by omega), value?_char (by omega),
        value?_char (by omega), ih]
      have h₁ : a.toNat / 4 * 4 + (a.toNat % 4 * 16 + b.toNat / 16) / 16 = a.toNat := by omega
      have h₂ : (a.toNat % 4 * 16 + b.toNat / 16) % 16 * 16
          + (b.toNat % 16 * 4 + c.toNat / 64) / 4 = b.toNat := by
        omega
      have h₃ : (b.toNat % 16 * 4 + c.toNat / 64) % 4 * 64 + c.toNat % 64 = c.toNat := by omega
      simp only [Option.map_some, h₁, h₂, h₃, UInt8.ofNat_toNat]

/-- **Decoding undoes encoding.** -/
theorem decode_encode (bytes : List UInt8) : decode (encode bytes) = some bytes := by
  rw [decode, encode, String.toList_ofList, decodeChars_encodeChars]

example : decode "c2FsdA==" = some [115, 97, 108, 116] ∧ decode "c2FsdA" = decode "c2FsdA=="
    ∧ decode "c2Fsd" = none := by decide

theorem char_mem (n : Nat) : char n ∈ '=' :: alphabet := by
  rw [char, List.getD_eq_getElem?_getD]
  cases h : alphabet[n]? with
  | none => exact List.mem_cons_self
  | some c => exact List.mem_cons_of_mem _ (List.mem_of_getElem? h)

theorem mem_encode {bytes : List UInt8} {c : Char} (h : c ∈ (encode bytes).toList) :
    c ∈ '=' :: alphabet := by
  rw [encode, String.toList_ofList] at h
  fun_induction encodeChars bytes with
  | case1 => cases h
  | case2 | case3 =>
      simp only [List.mem_cons, List.not_mem_nil, or_false] at h
      rcases h with rfl | rfl | rfl | rfl <;> first | exact char_mem _ | exact List.mem_cons_self
  | case4 a b c bytes ih =>
      simp only [List.mem_cons] at h
      rcases h with rfl | rfl | rfl | rfl | h
      · exact char_mem _
      · exact char_mem _
      · exact char_mem _
      · exact char_mem _
      · exact ih h

end Base64

end AstroPlant
