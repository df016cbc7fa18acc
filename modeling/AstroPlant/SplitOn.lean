import Mathlib.Data.List.Basic

/-!
# Splitting text at a character

The parts of a text between the occurrences of a character. Joining undoes
splitting always, and splitting undoes joining where no part contains the
character.

So a text is known by its parts, and a parser that compares the parts with
constants accepts exactly the texts that the constants make when they are joined
(`splitOn_eq_iff`).
-/

namespace AstroPlant

theorem not_mem_of_mem_splitOn {a : Char} {xs l : List Char} (h : l ∈ xs.splitOn a) : a ∉ l := by
  induction xs generalizing l with
  | nil =>
      obtain rfl : l = [] := by simpa using h
      exact List.not_mem_nil
  | cons x xs ih =>
      rw [List.splitOn_cons_eq_if_modifyHead] at h
      split at h
      · rcases List.mem_cons.mp h with rfl | h
        · exact List.not_mem_nil
        · exact ih h
      · rename_i hx
        obtain ⟨l₀, ls, hls⟩ := List.exists_cons_of_ne_nil (List.splitOn_ne_nil a xs)
        rw [hls, List.modifyHead_cons] at h
        rw [hls] at ih
        rcases List.mem_cons.mp h with rfl | h
        · have hl₀ : a ∉ l₀ := ih (by simp)
          have hxa : a ≠ x := fun hax => hx (by simp [hax])
          simp [hl₀, hxa]
        · exact ih (by simp [h])

theorem splitOn_eq_iff {a : Char} {value : String} {ps : List String} (hne : ps ≠ []) :
    (value.toList.splitOn a).map String.ofList = ps
      ↔ value = (String.singleton a).intercalate ps ∧ ∀ p ∈ ps, a ∉ p.toList := by
  constructor
  · rintro rfl
    refine ⟨?_, fun p hp => ?_⟩
    · have hback : ((value.toList.splitOn a).map String.ofList).map String.toList
          = value.toList.splitOn a := by
        simp [Function.comp_def]
      rw [← String.toList_inj, String.toList_intercalate, hback, String.toList_singleton]
      exact (List.intercalate_splitOn a).symm
    · obtain ⟨l, hl, rfl⟩ := List.mem_map.mp hp
      rw [String.toList_ofList]
      exact not_mem_of_mem_splitOn hl
  · rintro ⟨rfl, hps⟩
    have hsplit : ((String.singleton a).intercalate ps).toList.splitOn a
        = ps.map String.toList := by
      rw [String.toList_intercalate, String.toList_singleton]
      refine List.splitOn_intercalate a (fun l hl => ?_) (by simpa using hne)
      obtain ⟨p, hp, rfl⟩ := List.mem_map.mp hl
      exact hps p hp
    rw [hsplit, List.map_map]
    simp [Function.comp_def]

end AstroPlant
