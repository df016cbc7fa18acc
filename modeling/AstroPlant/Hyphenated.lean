import AstroPlant.Services

/-!
# UUIDs as text

The hyphenated text of a UUID can be read back, so that no two UUIDs share it.

It is the name of an object in the object store, and the id of a medium in the
answers of the API. The argument goes by the digits: the hyphens stand between
groups whatever the digits are, without them the text is the number in base
sixteen, and a number below `2 ^ 128` is known by its 32 digits.
-/

namespace AstroPlant

/-! ## Hexadecimal digits -/

def hexValue (c : Char) : Option Nat :=
  if '0' ≤ c ∧ c ≤ '9' then some (c.toNat - '0'.toNat)
  else if 'a' ≤ c ∧ c ≤ 'f' then some (c.toNat - 'a'.toNat + 10)
  else if 'A' ≤ c ∧ c ≤ 'F' then some (c.toNat - 'A'.toNat + 10)
  else none

theorem hexValue_hexDigit : ∀ n < 16, hexValue (hexDigit n) = some n := by
  decide

/-! ## UUIDs -/

/-- `Uuid::parse_str`, as far as hyphenated text goes. -/
def uuidFromStr (s : String) : Option Uuid :=
  let digits := s.toList.filter (· ≠ '-')
  if digits.length = 32 then
    (digits.mapM hexValue).map fun ds => .ofNat 128 (ds.foldl (fun n d => 16 * n + d) 0)
  else none

theorem foldl_digits (n k : Nat) (hn : n < 16 ^ 32) (hk : k ≤ 32) :
    ((List.range k).map fun i => n / 16 ^ (31 - i) % 16).foldl (fun n d => 16 * n + d) 0
      = n / 16 ^ (32 - k) := by
  induction k with
  | zero => exact (Nat.div_eq_of_lt hn).symm
  | succ k ih =>
      rw [List.range_succ, List.map_append, List.foldl_append, ih (by omega), List.map_singleton,
        List.foldl_cons, List.foldl_nil]
      have hpow : 16 ^ (32 - k) = 16 ^ (31 - k) * 16 := by
        rw [← Nat.pow_succ]
        congr 1
        omega
      have hsub : 32 - (k + 1) = 31 - k := by omega
      rw [hpow, hsub, ← Nat.div_div_eq_div_mul]
      exact Nat.div_add_mod _ 16

theorem mapM_hexValue {ds : List Nat} (h : ∀ d ∈ ds, d < 16) :
    (ds.map hexDigit).mapM hexValue = some ds := by
  induction ds with
  | nil => rfl
  | cons d ds ih =>
      rw [List.map_cons, List.mapM_cons, hexValue_hexDigit d (h d List.mem_cons_self),
        ih fun d hd => h d (List.mem_cons_of_mem _ hd)]
      rfl

theorem hexDigit_ne_hyphen : ∀ n < 16, hexDigit n ≠ '-' := by
  decide

theorem filter_groups {g : Nat → Char} (hg : ∀ i, g i ≠ '-') :
    let digits := (List.range 32).map g
    let group := fun start n => String.ofList ((digits.drop start).take n)
    ("-".intercalate [group 0 8, group 8 4, group 12 4, group 16 4, group 20 12]).toList.filter
      (· ≠ '-') = digits := by
  simp [List.range_succ, hg]

theorem filter_hyphenated (id : Uuid) : (hyphenated id).toList.filter (· ≠ '-')
    = ((List.range 32).map fun i => id.toNat / 16 ^ (31 - i) % 16).map hexDigit := by
  rw [List.map_map]
  refine (congrArg (fun s : String => s.toList.filter (· ≠ '-')) ?_).trans
    (filter_groups (g := hexDigit ∘ fun i => id.toNat / 16 ^ (31 - i) % 16) fun i => ?_)
  · simp only [hyphenated, Function.comp_def]
  · exact hexDigit_ne_hyphen _ (Nat.mod_lt _ (by omega))

theorem ofDigits_hyphenated (id : Uuid) :
    ((List.range 32).map fun i => id.toNat / 16 ^ (31 - i) % 16).foldl (fun n d => 16 * n + d) 0
      = id.toNat := by
  have hlt : id.toNat < 16 ^ 32 := id.isLt
  rw [foldl_digits id.toNat 32 hlt le_rfl, Nat.sub_self, Nat.pow_zero, Nat.div_one]

theorem uuidFromStr_hyphenated (id : Uuid) : uuidFromStr (hyphenated id) = some id := by
  have hsmall : ∀ d ∈ (List.range 32).map fun i => id.toNat / 16 ^ (31 - i) % 16, d < 16 := by
    intro d hd
    obtain ⟨i, -, rfl⟩ := List.mem_map.mp hd
    exact Nat.mod_lt _ (by omega)
  simp only [uuidFromStr, filter_hyphenated, List.length_map, List.length_range, if_true,
    mapM_hexValue hsmall, Option.map_some, ofDigits_hyphenated, BitVec.ofNat_toNat,
    BitVec.setWidth_eq]

theorem hyphenated_injective {id id' : Uuid} (h : hyphenated id = hyphenated id') : id = id' := by
  have hread := uuidFromStr_hyphenated id
  rw [h, uuidFromStr_hyphenated] at hread
  exact (Option.some.inj hread).symm

theorem length_hyphenated (id : Uuid) : (hyphenated id).toList.length = 36 := by
  simp [hyphenated, List.range_succ]

end AstroPlant
