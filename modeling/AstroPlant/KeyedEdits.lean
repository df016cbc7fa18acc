import Mathlib.Data.List.Nodup

/-!
# Edits under distinct keys

A state is viewed key by key, and an edit has an effect on the view of its own
key only. A list of edits with distinct keys then has the effect of each edit on
the view that the first state had of its key, and leaves every other view as it
was: the edits do not meet.

`KeyedEdits` is what has to be known of one edit: it keeps an invariant of the
state, has its effect on the view of its key, and leaves the other views. The
three lemmas are the same facts for a list (`foldl_keeps`, `foldl_frame`,
`foldl_own`).
-/

namespace AstroPlant

/-- On the states that `I` allows, an edit has its effect under its own key, and
leaves the views of other keys alone. -/
structure KeyedEdits {σ ε κ ν : Type} (I : σ → Prop) (edit : σ → ε → σ) (key : ε → κ)
    (view : σ → κ → ν) (effect : ε → ν → ν → Prop) : Prop where
  keeps : ∀ s e, I s → I (edit s e)
  own : ∀ s e, I s → effect e (view s (key e)) (view (edit s e) (key e))
  frame : ∀ s e k, I s → k ≠ key e → view (edit s e) k = view s k

namespace KeyedEdits

variable {σ ε κ ν : Type} {I : σ → Prop} {edit : σ → ε → σ} {key : ε → κ} {view : σ → κ → ν}
  {effect : ε → ν → ν → Prop}

theorem foldl_keeps (h : KeyedEdits I edit key view effect) {s : σ} (hs : I s) (es : List ε) :
    I (es.foldl edit s) := by
  induction es generalizing s with
  | nil => exact hs
  | cons e es ih => exact ih (h.keeps s e hs)

theorem foldl_frame (h : KeyedEdits I edit key view effect) {s : σ} (hs : I s) {es : List ε} {k : κ}
    (hk : k ∉ es.map key) : view (es.foldl edit s) k = view s k := by
  induction es generalizing s with
  | nil => rfl
  | cons e es ih =>
      rw [List.map_cons, List.mem_cons, not_or] at hk
      rw [List.foldl_cons, ih (h.keeps s e hs) hk.2, h.frame s e k hs hk.1]

/-- The effect of each edit is on what was there first, and lasts. -/
theorem foldl_own (h : KeyedEdits I edit key view effect) {s : σ} (hs : I s) {es : List ε}
    (hnodup : (es.map key).Nodup) {e : ε} (he : e ∈ es) :
    effect e (view s (key e)) (view (es.foldl edit s) (key e)) := by
  induction es generalizing s with
  | nil => cases he
  | cons e' es ih =>
      obtain ⟨hhead, htail⟩ := List.nodup_cons.mp hnodup
      rw [List.foldl_cons]
      rcases List.mem_cons.mp he with rfl | he
      · rw [h.foldl_frame (h.keeps s e hs) hhead]
        exact h.own s e hs
      · have hne : key e ≠ key e' := fun heq => hhead (heq ▸ List.mem_map_of_mem he)
        rw [← h.frame s e' (key e) hs hne]
        exact ih (h.keeps s e' hs) htail he

end KeyedEdits

end AstroPlant
