import AstroPlant.ConformingPeripherals
import AstroPlant.KeyedEdits

/-!
# Definitions under their names

The import of one definition as it changes the database: an edit under the name
of the definition. An existing definition is skipped, or it is overwritten with
the columns for which the listed one has a value; a column that the listed one
leaves empty keeps what it had.

The database is viewed name by name (`Store.described`): a definition with the
quantity types that it expects, whatever ids they have. In this view the import
of one listed definition has an effect under its own name only
(`described_importPd`), so the import of a list is a list of edits under distinct
keys (`importPd_edits`).
-/

namespace AstroPlant

/-! ## Definitions by name -/

/-- The constraints on the names of definitions and on quantity types. -/
structure Store.UniqueDefinitions (s : Store) : Prop where
  names : ∀ d ∈ s.peripheralDefinitions, ∀ d' ∈ s.peripheralDefinitions, d.name = d'.name → d = d'
  quantityTypes : ∀ qt ∈ s.quantityTypes, ∀ qt' ∈ s.quantityTypes,
    qt.physicalQuantity = qt'.physicalQuantity → qt.physicalUnit = qt'.physicalUnit → qt = qt'

namespace PeripheralDefinition

def byName (name : String) (s : Store) : Option PeripheralDefinition :=
  s.peripheralDefinitions.rows.find? (·.name = name)

theorem byName_eq_some {name : String} {s : Store} (hs : s.UniqueDefinitions)
    {d : PeripheralDefinition} :
    byName name s = some d ↔ d ∈ s.peripheralDefinitions ∧ d.name = name := by
  constructor
  · intro h
    exact ⟨List.mem_of_find?_eq_some h, by simpa using List.find?_some h⟩
  · rintro ⟨hd, rfl⟩
    cases hfind : byName d.name s with
    | none =>
        have := List.find?_eq_none.mp hfind d hd
        simp at this
    | some d' =>
        have hname : d'.name = d.name := by simpa using List.find?_some hfind
        rw [hs.names d' (List.mem_of_find?_eq_some hfind) d hd hname]

theorem byName_eq_none {name : String} {s : Store} :
    byName name s = none ↔ ∀ d ∈ s.peripheralDefinitions, d.name ≠ name := by
  simp [byName, SerialTable.mem_def]

end PeripheralDefinition

/-- The rows of the quantity types that a definition expects. -/
def Store.expectedRows (s : Store) (peripheralDefinitionId : Int) :
    List PeripheralDefinitionExpectedQuantityType :=
  s.peripheralDefinitionExpectedQuantityTypes.select
    (·.peripheralDefinitionId = peripheralDefinitionId)

/-- The quantity types that a definition expects. -/
def Store.expected (s : Store) (peripheralDefinitionId : Int) : List Int :=
  (s.expectedRows peripheralDefinitionId).map (·.quantityTypeId)

/-! ## One definition -/

/-- What `insertPd` writes. -/
def importPd (strategy : ExistingPeripheralDefinitionStrategy) (s : Store)
    (e : NewPeripheralDefinition × List Int) : Store :=
  match PeripheralDefinition.byName e.1.name s, strategy with
  | none, _ => (e.1.insert s).expect s.peripheralDefinitions.next e.2
  | some _, .skip => s
  | some d, .update => (e.1.applyTo s).expect d.id e.2

/-- The rows that are inserted, under the next ids. -/
def Store.expectations (s : Store) (pid : Int) (expected : List Int) :
    List PeripheralDefinitionExpectedQuantityType :=
  expected.mapIdx fun n quantityTypeId =>
    ⟨s.peripheralDefinitionExpectedQuantityTypes.next + n, quantityTypeId, pid⟩

theorem definition_of_mem_expectations {s : Store} {pid : Int} {expected : List Int}
    {r : PeripheralDefinitionExpectedQuantityType} (hr : r ∈ s.expectations pid expected) :
    r.peripheralDefinitionId = pid := by
  obtain ⟨_, _, rfl⟩ := List.mem_mapIdx.mp hr
  rfl

theorem rows_expect {s : Store} {pid : Int} {expected : List Int} :
    (s.expect pid expected).peripheralDefinitionExpectedQuantityTypes.rows
      = s.peripheralDefinitionExpectedQuantityTypes.rows.filter
          (fun r => !decide (r.peripheralDefinitionId = pid))
        ++ s.expectations pid expected :=
  SerialTable.rows_insertAll

theorem expectedRows_expect_ne {s : Store} {pid id : Int} {expected : List Int} (h : id ≠ pid) :
    (s.expect pid expected).expectedRows id = s.expectedRows id := by
  have hold : ∀ r : PeripheralDefinitionExpectedQuantityType,
      (decide (r.peripheralDefinitionId = id) && !decide (r.peripheralDefinitionId = pid))
        = decide (r.peripheralDefinitionId = id) := by
    intro r
    by_cases hr : r.peripheralDefinitionId = id <;> simp [hr, h]
  have hnew : (s.expectations pid expected).filter (·.peripheralDefinitionId = id) = [] := by
    refine List.filter_eq_nil_iff.mpr fun r hr => ?_
    rw [definition_of_mem_expectations hr]
    simpa using Ne.symm h
  show List.filter _ (s.expect pid expected).peripheralDefinitionExpectedQuantityTypes.rows
    = List.filter _ _
  rw [rows_expect, List.filter_append, hnew, List.append_nil, List.filter_filter, funext hold]

theorem expected_expect {s : Store} {pid : Int} {expected : List Int} :
    (s.expect pid expected).expected pid = expected := by
  have hold : (s.peripheralDefinitionExpectedQuantityTypes.rows.filter
      (fun r => !decide (r.peripheralDefinitionId = pid))).filter (·.peripheralDefinitionId = pid)
      = [] := by
    rw [List.filter_filter, List.filter_eq_nil_iff]
    intro r _
    simp
  have hnew : ∀ r ∈ s.expectations pid expected, decide (r.peripheralDefinitionId = pid) = true :=
    fun r hr => decide_eq_true (definition_of_mem_expectations hr)
  show (List.filter _ (s.expect pid expected).peripheralDefinitionExpectedQuantityTypes.rows).map _
    = expected
  rw [rows_expect, List.filter_append, hold, List.nil_append, List.filter_eq_self.mpr hnew]
  exact List.ext_getElem (by simp [Store.expectations]) fun n _ _ => by simp [Store.expectations]

/-! ## The effect of one import

Only the definition of its name is touched: the listed one overwrites it, or is
left out, or is new. -/

/-- The definition of a name, with what it expects. -/
def Store.described (s : Store) (name : String) :
    Option (PeripheralDefinition × List PeripheralDefinitionExpectedQuantityType) :=
  (PeripheralDefinition.byName name s).map fun d => (d, s.expectedRows d.id)

/-- What an import makes of the definition of its name. -/
def ImportPd (strategy : ExistingPeripheralDefinitionStrategy)
    (e : NewPeripheralDefinition × List Int)
    (before after : Option (PeripheralDefinition × List PeripheralDefinitionExpectedQuantityType)) :
    Prop :=
  match before, strategy with
  | none, _ => ∃ id rows, after = some (e.1.row id, rows) ∧ rows.map (·.quantityTypeId) = e.2
  | some _, .skip => after = before
  | some (d, _), .update =>
      ∃ rows, after = some (e.1.apply d, rows) ∧ rows.map (·.quantityTypeId) = e.2

theorem byName_insert {new : NewPeripheralDefinition} {s : Store} (name : String)
    (hnone : PeripheralDefinition.byName new.name s = none) :
    PeripheralDefinition.byName name (new.insert s)
      = if name = new.name then some (new.row s.peripheralDefinitions.next)
        else PeripheralDefinition.byName name s := by
  show (s.peripheralDefinitions.rows ++ [new.row s.peripheralDefinitions.next]).find? _ = _
  rw [List.find?_append]
  split
  · rename_i hname
    subst hname
    rw [show s.peripheralDefinitions.rows.find? (·.name = new.name) = none from hnone]
    simp [NewPeripheralDefinition.row]
  · rename_i hname
    simp [NewPeripheralDefinition.row, Ne.symm hname, PeripheralDefinition.byName]

/-- A definition that is overwritten has the name that it had. -/
theorem name_overwritten (new : NewPeripheralDefinition) (d : PeripheralDefinition) :
    (if d.name = new.name then new.apply d else d).name = d.name := by
  split
  · exact Eq.symm ‹_›
  · rfl

theorem byName_applyTo {new : NewPeripheralDefinition} {s : Store} (name : String) :
    PeripheralDefinition.byName name (new.applyTo s)
      = if name = new.name then (PeripheralDefinition.byName name s).map new.apply
        else PeripheralDefinition.byName name s := by
  show (s.peripheralDefinitions.rows.map _).find? _ = _
  rw [List.find?_map]
  simp only [Function.comp_def, decide_eq_true_eq, name_overwritten]
  show (PeripheralDefinition.byName name s).map _ = _
  cases hfind : PeripheralDefinition.byName name s with
  | none => simp
  | some d =>
      have hd : d.name = name := by simpa using List.find?_some hfind
      subst hd
      split
      · rw [Option.map_some, Option.map_some, if_pos ‹_›]
      · rw [Option.map_some, if_neg ‹_›]

theorem Store.UniqueDefinitions.importPd {strategy : ExistingPeripheralDefinitionStrategy}
    {s : Store} {e : NewPeripheralDefinition × List Int} (hs : s.UniqueDefinitions) :
    (importPd strategy s e).UniqueDefinitions := by
  unfold AstroPlant.importPd
  split
  · rename_i hnone
    refine ⟨fun d hd d' hd' hname => ?_, hs.quantityTypes⟩
    have hnew := PeripheralDefinition.byName_eq_none.mp hnone
    rcases NewPeripheralDefinition.mem_insert.mp hd with hd | rfl
    · rcases NewPeripheralDefinition.mem_insert.mp hd' with hd' | rfl
      · exact hs.names d hd d' hd' hname
      · exact absurd hname (hnew d hd)
    · rcases NewPeripheralDefinition.mem_insert.mp hd' with hd' | rfl
      · exact absurd hname.symm (hnew d' hd')
      · rfl
  · exact hs
  · refine ⟨fun d hd d' hd' hname => ?_, hs.quantityTypes⟩
    obtain ⟨d₀, hd₀, rfl⟩ := NewPeripheralDefinition.mem_applyTo.mp hd
    obtain ⟨d₀', hd₀', rfl⟩ := NewPeripheralDefinition.mem_applyTo.mp hd'
    rw [name_overwritten, name_overwritten] at hname
    rw [hs.names d₀ hd₀ d₀' hd₀' hname]

/-- An id that is not that of the named definition afterwards keeps its rows. -/
theorem expectedRows_importPd {strategy : ExistingPeripheralDefinitionStrategy} {s : Store}
    {e : NewPeripheralDefinition × List Int} {id : Int}
    (hid : ∀ d ∈ PeripheralDefinition.byName e.1.name (importPd strategy s e), d.id ≠ id) :
    (importPd strategy s e).expectedRows id = s.expectedRows id := by
  unfold importPd at hid ⊢
  split at hid
  · rename_i hnone
    have hne := hid _ ((byName_insert _ hnone).trans (if_pos rfl))
    exact expectedRows_expect_ne (Ne.symm hne)
  · rfl
  · rename_i d hd
    have hafter : PeripheralDefinition.byName e.1.name (e.1.applyTo s) = some (e.1.apply d) := by
      rw [byName_applyTo, if_pos rfl, hd, Option.map_some]
    have hne := hid _ hafter
    exact expectedRows_expect_ne (Ne.symm hne)

theorem importPd_of_none {strategy : ExistingPeripheralDefinitionStrategy} {s : Store}
    {e : NewPeripheralDefinition × List Int} (h : PeripheralDefinition.byName e.1.name s = none) :
    importPd strategy s e = (e.1.insert s).expect s.peripheralDefinitions.next e.2 := by
  simp only [importPd, h]

theorem importPd_skip {s : Store} {e : NewPeripheralDefinition × List Int}
    {d : PeripheralDefinition}
    (h : PeripheralDefinition.byName e.1.name s = some d) : importPd .skip s e = s := by
  simp only [importPd, h]

theorem importPd_update {s : Store} {e : NewPeripheralDefinition × List Int}
    {d : PeripheralDefinition} (h : PeripheralDefinition.byName e.1.name s = some d) :
    importPd .update s e = (e.1.applyTo s).expect d.id e.2 := by
  simp only [importPd, h]

theorem describes_importPd {strategy : ExistingPeripheralDefinitionStrategy} {s : Store}
    {e : NewPeripheralDefinition × List Int} :
    ImportPd strategy e (s.described e.1.name) ((importPd strategy s e).described e.1.name) := by
  cases hfind : PeripheralDefinition.byName e.1.name s with
  | none =>
      rw [importPd_of_none hfind, Store.described, Store.described, hfind]
      refine ⟨s.peripheralDefinitions.next,
        ((e.1.insert s).expect s.peripheralDefinitions.next e.2).expectedRows
          s.peripheralDefinitions.next, ?_, expected_expect⟩
      show (PeripheralDefinition.byName e.1.name (e.1.insert s)).map _ = _
      rw [byName_insert _ hfind, if_pos rfl]
      rfl
  | some d =>
      cases strategy with
      | skip =>
          rw [importPd_skip hfind, Store.described, hfind]
          exact rfl
      | update =>
          rw [importPd_update hfind, Store.described, Store.described, hfind]
          refine ⟨((e.1.applyTo s).expect d.id e.2).expectedRows d.id, ?_, expected_expect⟩
          show (PeripheralDefinition.byName e.1.name (e.1.applyTo s)).map _ = _
          rw [byName_applyTo, if_pos rfl, hfind]
          rfl

/-- A definition of another name is not the one that is touched. -/
theorem described_importPd {strategy : ExistingPeripheralDefinitionStrategy} {s : Store}
    {e : NewPeripheralDefinition × List Int} {name : String} (hname : name ≠ e.1.name) :
    (importPd strategy s e).described name = s.described name := by
  have hsame : PeripheralDefinition.byName name (importPd strategy s e)
      = PeripheralDefinition.byName name s := by
    unfold importPd
    split
    · rename_i hnone
      exact (byName_insert name hnone).trans (if_neg hname)
    · rfl
    · exact (byName_applyTo name).trans (if_neg hname)
  unfold Store.described
  rw [hsame]
  cases hfind : PeripheralDefinition.byName name s with
  | none => rfl
  | some d =>
      rw [Option.map_some, Option.map_some, expectedRows_importPd]
      intro d' hd' hid
      -- both are in the table after the import, under one id
      have hmem : d ∈ (importPd strategy s e).peripheralDefinitions :=
        List.mem_of_find?_eq_some (hsame.trans hfind)
      obtain rfl := SerialTable.eq_of_key_eq hmem (List.mem_of_find?_eq_some hd') hid.symm
      have h₁ : d.name = name := by simpa using List.find?_some (hsame.trans hfind)
      have h₂ : d.name = e.1.name := by simpa using List.find?_some hd'
      exact hname (h₁.symm.trans h₂)

/-- **Imports are edits under the names of the definitions.** -/
theorem importPd_edits (strategy : ExistingPeripheralDefinitionStrategy) :
    KeyedEdits Store.UniqueDefinitions (importPd strategy) (·.1.name) Store.described
      (ImportPd strategy) where
  keeps _ _ hs := hs.importPd
  own _ _ _ := describes_importPd
  frame _ _ _ _ hname := described_importPd hname

end AstroPlant
