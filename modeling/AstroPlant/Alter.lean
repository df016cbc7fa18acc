import AstroPlant.Table

/-!
# Altering and filling tables

What a migration does to a table as a whole: every row is rewritten, perhaps
into a row of another shape, under its key. A column is filled from a grouped
minimum over another table; the group of a key is there if a row has the key.

That no two rows share a key is a field of the table, so a rewriting of the rows
has to keep their keys before it can be stated at all (`alter`). Where an old
table has a trigger, a row that is set goes through it, and one that is not set
stays as it was (`updateWith`).
-/

namespace AstroPlant

namespace Table

variable {ρ σ κ : Type} {key : ρ → κ} {key' : σ → κ}

/-- Every row rewritten under its key. -/
def alter (t : Table ρ key) (f : ρ → σ) (hf : ∀ r, key' (f r) = key r) : Table σ key' where
  rows := t.rows.map f
  nodup := by
    have : key' ∘ f = key := funext hf
    rw [List.map_map, this]
    exact t.nodup

@[simp] theorem rows_alter {t : Table ρ key} {f : ρ → σ} {hf : ∀ r, key' (f r) = key r} :
    (t.alter f hf).rows = t.rows.map f := rfl

@[simp] theorem mem_alter {t : Table ρ key} {f : ρ → σ} {hf : ∀ r, key' (f r) = key r} {r : σ} :
    r ∈ t.alter f hf ↔ ∃ r₀ ∈ t, f r₀ = r := by
  simp [mem_def]

/-- `UPDATE`: a row for which the statement has new values gets them, and then
what the triggers before the update make of them. -/
def updateWith (trigger : ρ → ρ) (set : ρ → Option ρ) (r : ρ) : ρ :=
  (set r).elim r trigger

end Table

/-! ## Grouped minimum -/

section GroupMin

variable {κ ν : Type} [DecidableEq κ] [Min ν]

/-- The row for a key of `SELECT key, min(value) ... GROUP BY key`. -/
def groupMin (items : List (κ × ν)) (k : κ) : Option ν :=
  ((items.filter (·.1 = k)).map (·.2)).min?

theorem groupMin_eq_none {items : List (κ × ν)} {k : κ} :
    groupMin items k = none ↔ ∀ v, (k, v) ∉ items := by
  rw [groupMin, List.min?_eq_none_iff, List.map_eq_nil_iff, List.filter_eq_nil_iff]
  constructor
  · exact fun h v hv => h _ hv (decide_eq_true rfl)
  · rintro h ⟨k', v⟩ hmem hk
    obtain rfl : k' = k := of_decide_eq_true hk
    exact h v hmem

variable [LE ν] [Std.IsLinearOrder ν] [Std.LawfulOrderMin ν]

theorem groupMin_eq_some {items : List (κ × ν)} {k : κ} {v : ν} :
    groupMin items k = some v ↔ (k, v) ∈ items ∧ ∀ w, (k, w) ∈ items → v ≤ w := by
  have hmem : ∀ w, w ∈ (items.filter (·.1 = k)).map (·.2) ↔ (k, w) ∈ items := by
    intro w
    simp only [List.mem_map, List.mem_filter, decide_eq_true_eq, Prod.exists]
    constructor
    · rintro ⟨_, _, ⟨h, rfl⟩, rfl⟩
      exact h
    · exact fun h => ⟨k, w, ⟨h, rfl⟩, rfl⟩
  rw [groupMin, List.min?_eq_some_iff, hmem]
  exact and_congr_right fun _ => forall_congr' fun w => imp_congr_left (hmem w)

theorem groupMin_le {items : List (κ × ν)} {k : κ} {w : ν} (hw : (k, w) ∈ items) :
    ∃ v, groupMin items k = some v ∧ v ≤ w := by
  cases hv : groupMin items k with
  | none => exact absurd hw (groupMin_eq_none.mp hv w)
  | some v => exact ⟨v, rfl, (groupMin_eq_some.mp hv).2 w hw⟩

end GroupMin

end AstroPlant
