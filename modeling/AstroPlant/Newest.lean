import Mathlib.Order.Defs.PartialOrder

/-!
# The newest value of each key

A log of values, each with its key, and a view of the log that has at most one
value for each key. The view is cleaned from time to time: a cleaning takes the
time and removes the values that have expired by then. As long as values are put
into the view as they are logged, and the times of cleanings do not go back, the
view holds the newest value of a key or nothing, and it holds the newest value if
that had not expired at the last cleaning.

The log is the specification and is never shown to anybody. A cleaning looks at
what is in the view only, so that of a key whose newest value has expired nothing
older comes back.
-/

namespace AstroPlant

variable {ε κ T : Type} [DecidableEq κ]

/-- The value that was logged last under a key. -/
def newest (key : ε → κ) (log : List ε) (k : κ) : Option ε :=
  (log.filter (key · = k)).getLast?

theorem newest_concat {key : ε → κ} {log : List ε} {x : ε} {k : κ} :
    newest key (log ++ [x]) k = if key x = k then some x else newest key log k := by
  by_cases hk : key x = k <;> simp [newest, hk]

theorem key_of_newest {key : ε → κ} {log : List ε} {x : ε} {k : κ}
    (h : newest key log k = some x) : key x = k := by
  have hmem : x ∈ log.filter (key · = k) := List.mem_of_getLast? h
  simpa using (List.mem_filter.mp hmem).2

/-- The view is sound, and complete from the last cleaning on. -/
structure NewestView [LT T] (key : ε → κ) (expires : ε → T) (log : List ε) (cleaned : Option T)
    (view : κ → Option ε) : Prop where
  sound : ∀ k x, view k = some x → newest key log k = some x
  complete : ∀ k x, newest key log k = some x → (∀ r ∈ cleaned, r < expires x) → view k = some x

namespace NewestView

variable {key : ε → κ} {log : List ε}

theorem start [LT T] {expires : ε → T} :
    NewestView key expires [] none fun _ => none where
  sound _ _ h := nomatch h
  complete _ _ h := nomatch h

/-- A value that is logged takes the place of the older one. -/
theorem put [LT T] {expires : ε → T} {cleaned : Option T} {view view' : κ → Option ε}
    (h : NewestView key expires log cleaned view) {x : ε}
    (hview : ∀ k, view' k = if key x = k then some x else view k) :
    NewestView key expires (log ++ [x]) cleaned view' where
  sound k y hy := by
    rw [hview] at hy
    rw [newest_concat]
    split
    · rwa [if_pos ‹_›] at hy
    · rw [if_neg ‹_›] at hy
      exact h.sound k y hy
  complete k y hy hfresh := by
    rw [newest_concat] at hy
    rw [hview]
    split
    · rwa [if_pos ‹_›] at hy
    · rw [if_neg ‹_›] at hy
      exact h.complete k y hy hfresh

/-- What a cleaning leaves is what had not expired, at this cleaning and so at
those before it. -/
theorem clean [Preorder T] [DecidableLT T] {expires : ε → T} {cleaned : Option T}
    {view view' : κ → Option ε} (h : NewestView key expires log cleaned view) {r : T}
    (hr : ∀ c ∈ cleaned, c ≤ r)
    (hview : ∀ k, view' k = (view k).filter fun x => decide (r < expires x)) :
    NewestView key expires log (some r) view' where
  sound k x hx := by
    rw [hview, Option.filter_eq_some_iff] at hx
    exact h.sound k x hx.1
  complete k x hx hfresh := by
    have hr' : r < expires x := hfresh r rfl
    rw [hview, Option.filter_eq_some_iff]
    exact ⟨h.complete k x hx fun c hc => lt_of_le_of_lt (hr c hc) hr', decide_eq_true hr'⟩

end NewestView

end AstroPlant
