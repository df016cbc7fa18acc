import Mathlib.Data.List.AList

/-!
# Hash maps

`AList` is the model of a hash map: a finite map whose keys are distinct by
construction. What it lacks is `retain` and the grouping of pairs by their key.

The order in which a hash map is walked is not the program's to choose; nothing
here depends on it. Grouping keeps the order of the pairs within each group, as
the source's grouping does (`lookup_intoGroupMap`).
-/

namespace AstroPlant

namespace HashMap

variable {κ ν : Type}

/-- Keep the entries whose value passes. -/
def retain (p : ν → Bool) (m : AList fun _ : κ => ν) : AList fun _ : κ => ν :=
  ⟨m.entries.filter fun e => p e.2, m.nodupKeys.sublist List.filter_sublist⟩

theorem mem_lookup_retain [DecidableEq κ] {p : ν → Bool} {m : AList fun _ : κ => ν} {k : κ}
    {v : ν} : v ∈ (retain p m).lookup k ↔ v ∈ m.lookup k ∧ p v = true := by
  rw [AList.mem_lookup_iff, AList.mem_lookup_iff]
  exact List.mem_filter

theorem lookup_retain [DecidableEq κ] {p : ν → Bool} {m : AList fun _ : κ => ν} {k : κ} :
    (retain p m).lookup k = (m.lookup k).filter p := by
  ext v
  rw [← Option.mem_def, mem_lookup_retain, Option.filter_eq_some_iff, Option.mem_def]

/-! ## Groups -/

variable [DecidableEq κ]

/-- `or_default().push(value)` on the entry of a key. -/
def push (m : AList fun _ : κ => List ν) (e : κ × ν) : AList fun _ : κ => List ν :=
  m.insert e.1 ((m.lookup e.1).getD [] ++ [e.2])

/-- `into_group_map`: the values of each key, in the order of the pairs. -/
def intoGroupMap (pairs : List (κ × ν)) : AList fun _ : κ => List ν := pairs.foldl push ∅

theorem lookup_intoGroupMap (pairs : List (κ × ν)) (k : κ) :
    ((intoGroupMap pairs).lookup k).getD [] = (pairs.filter (·.1 = k)).map (·.2) := by
  suffices h : ∀ m : AList fun _ : κ => List ν, ((pairs.foldl push m).lookup k).getD []
      = (m.lookup k).getD [] ++ (pairs.filter (·.1 = k)).map (·.2) from h ∅
  induction pairs with
  | nil => simp
  | cons e pairs ih =>
      intro m
      rw [List.foldl_cons, ih]
      by_cases hk : e.1 = k
      · subst hk
        simp [push]
      · simp [push, hk, AList.lookup_insert_ne (Ne.symm hk)]

end HashMap

end AstroPlant
