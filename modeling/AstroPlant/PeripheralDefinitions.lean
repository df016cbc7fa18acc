import AstroPlant.ConfigurationModel

/-!
# Inserting quantity types and peripheral definitions

The statements of the administration tool. A definition is known by its name;
one that exists already is skipped, or is overwritten.

The lookup by name takes the first row of that name, and nothing in the schema
says that there is only one. The statements are modelled as they are; that names
are unique is carried by the laws on imports, as something that the tool keeps if
it finds it so. What a definition is expected to measure is replaced as a whole
(`expectQuantityTypes`), and stays as it was when the definition is skipped.
-/

namespace AstroPlant

inductive InsertSimulationDefinitions where
  | yes
  | no

inductive ExistingPeripheralDefinitionStrategy where
  | skip
  | update

/-! ## Quantity types -/

structure QuantityTypes where
  temperature : Int
  pressure : Int
  humidity : Int
  concentration : Int
  lightIntensity : Int

def QuantityType.named (physicalQuantity physicalUnit : String) (s : Store) :
    Option QuantityType :=
  s.quantityTypes.rows.find? fun qt =>
    qt.physicalQuantity = physicalQuantity && qt.physicalUnit = physicalUnit

/-- `INSERT ... ON CONFLICT DO UPDATE RETURNING`. -/
def selectOrInsertQt (physicalQuantity physicalUnit : String)
    (physicalUnitSymbol : Option String) : Tx Store DieselError Int := do
  let physicalQuantity ← Tx.ofExcept (varchar 255 physicalQuantity)
  let physicalUnit ← Tx.ofExcept (varchar 255 physicalUnit)
  let physicalUnitSymbol ← Tx.ofExcept (nullable (varchar 255) physicalUnitSymbol)
  Tx.write fun s =>
    match QuantityType.named physicalQuantity physicalUnit s with
    | some qt =>
        let set := fun qt : QuantityType => { qt with physicalUnitSymbol }
        .ok (qt.id,
          { s with quantityTypes := s.quantityTypes.update (·.id = qt.id) set fun _ => rfl })
    | none =>
        let row := fun id => ⟨id, physicalQuantity, physicalUnit, physicalUnitSymbol⟩
        .ok (s.quantityTypes.next,
          { s with quantityTypes := s.quantityTypes.insert row fun _ => rfl })

/-! ## Peripheral definitions -/

structure NewPeripheralDefinition where
  name : String
  description : Option String
  brand : Option String
  model : Option String
  symbolLocation : String
  symbol : String
  configurationSchema : Json
  commandSchema : Option Json

namespace NewPeripheralDefinition

/-- The values as their columns hold them. -/
def stored (new : NewPeripheralDefinition) : Except DieselError NewPeripheralDefinition := do
  let name ← varchar 100 new.name
  let brand ← nullable (varchar 100) new.brand
  let model ← nullable (varchar 100) new.model
  let symbolLocation ← varchar 255 new.symbolLocation
  let symbol ← varchar 255 new.symbol
  return { new with name, brand, model, symbolLocation, symbol }

def row (new : NewPeripheralDefinition) (id : Int) : PeripheralDefinition where
  id
  name := new.name
  description := new.description
  brand := new.brand
  model := new.model
  symbolLocation := new.symbolLocation
  symbol := new.symbol
  configurationSchema := new.configurationSchema
  commandSchema := new.commandSchema

theorem row_id (new : NewPeripheralDefinition) (id : Int) : (new.row id).id = id := rfl

def insert (new : NewPeripheralDefinition) (s : Store) : Store :=
  { s with peripheralDefinitions := s.peripheralDefinitions.insert new.row new.row_id }

theorem mem_insert {new : NewPeripheralDefinition} {s : Store} {d : PeripheralDefinition} :
    d ∈ (new.insert s).peripheralDefinitions
      ↔ d ∈ s.peripheralDefinitions ∨ d = new.row s.peripheralDefinitions.next := by
  simp [insert]

/-- As a changeset: a column is only set if there is a value for it. -/
def apply (new : NewPeripheralDefinition) (d : PeripheralDefinition) : PeripheralDefinition where
  id := d.id
  name := new.name
  description := new.description <|> d.description
  brand := new.brand <|> d.brand
  model := new.model <|> d.model
  symbolLocation := new.symbolLocation
  symbol := new.symbol
  configurationSchema := new.configurationSchema
  commandSchema := new.commandSchema <|> d.commandSchema

theorem apply_id (new : NewPeripheralDefinition) (d : PeripheralDefinition) :
    (new.apply d).id = d.id := rfl

def applyTo (new : NewPeripheralDefinition) (s : Store) : Store :=
  { s with
    peripheralDefinitions :=
      s.peripheralDefinitions.update (·.name = new.name) new.apply new.apply_id }

theorem mem_applyTo {new : NewPeripheralDefinition} {s : Store} {d : PeripheralDefinition} :
    d ∈ (new.applyTo s).peripheralDefinitions ↔ ∃ d₀ ∈ s.peripheralDefinitions,
      (if d₀.name = new.name then new.apply d₀ else d₀) = d := by
  simp [applyTo]

/-- `INSERT ... ON CONFLICT`: no row is returned when an existing one is skipped. -/
def insertOr (new : NewPeripheralDefinition) (strategy : ExistingPeripheralDefinitionStrategy) :
    Tx Store DieselError (Option PeripheralDefinition) := do
  let new ← Tx.ofExcept new.stored
  Tx.write fun s =>
    match s.peripheralDefinitions.rows.find? (·.name = new.name), strategy with
    | none, _ => .ok (some (new.row s.peripheralDefinitions.next), new.insert s)
    | some _, .skip => .ok (none, s)
    | some d, .update => .ok (some (new.apply d), new.applyTo s)

end NewPeripheralDefinition

/-- The quantity types that a definition expects are replaced. -/
def expectQuantityTypes (peripheralDefinitionId : Int) (expectedQuantityTypes : List Int) :
    Tx Store DieselError Unit :=
  Tx.write fun s =>
    let row := fun quantityTypeId id =>
      (⟨id, quantityTypeId, peripheralDefinitionId⟩ : PeripheralDefinitionExpectedQuantityType)
    if expectedQuantityTypes.all fun id => (s.quantityTypes.find? id).isSome
        && (PeripheralDefinition.byId peripheralDefinitionId s).isSome then
      .ok ((), { s with
        peripheralDefinitionExpectedQuantityTypes :=
          (s.peripheralDefinitionExpectedQuantityTypes.delete
            (·.peripheralDefinitionId = peripheralDefinitionId)).insertAll
            expectedQuantityTypes row fun _ _ => rfl })
    else .error .databaseError

/-- What `expectQuantityTypes` writes. -/
def Store.expect (s : Store) (peripheralDefinitionId : Int) (expected : List Int) : Store :=
  { s with
    peripheralDefinitionExpectedQuantityTypes :=
      (s.peripheralDefinitionExpectedQuantityTypes.delete
        (·.peripheralDefinitionId = peripheralDefinitionId)).insertAll expected
        (fun quantityTypeId id => ⟨id, quantityTypeId, peripheralDefinitionId⟩) fun _ _ => rfl }

def insertPd (new : NewPeripheralDefinition) (expectedQuantityTypes : List Int)
    (strategy : ExistingPeripheralDefinitionStrategy) : Tx Store DieselError Unit := do
  match ← new.insertOr strategy with
  | some pd => expectQuantityTypes pd.id expectedQuantityTypes
  | none => return ()

/-! ## What the statements do -/

theorem selectOrInsertQt_ok {physicalQuantity physicalUnit : String}
    {physicalUnitSymbol : Option String} {s s' : Store} {id : Int}
    (h : (selectOrInsertQt physicalQuantity physicalUnit physicalUnitSymbol).run s
      = .ok (id, s')) :
    ∃ quantityTypes, s' = { s with quantityTypes } := by
  obtain ⟨quantity, -, h⟩ := Tx.run_ofExcept_bind_ok.mp h
  obtain ⟨unit, -, h⟩ := Tx.run_ofExcept_bind_ok.mp h
  obtain ⟨_, -, h⟩ := Tx.run_ofExcept_bind_ok.mp h
  rw [Tx.run_write_ok] at h
  cases hnamed : QuantityType.named quantity unit s with
  | some qt =>
      rw [hnamed] at h
      cases h
      exact ⟨_, rfl⟩
  | none =>
      rw [hnamed] at h
      cases h
      exact ⟨_, rfl⟩

/-- What an insertion does to the definitions: nothing, or it adds one with a new
name, or it overwrites the one of its name. -/
inductive InsertsPd (new : NewPeripheralDefinition)
    (strategy : ExistingPeripheralDefinitionStrategy) (s : Store) : Store → Prop where
  | skip (hstrategy : strategy = .skip) : InsertsPd new strategy s s
  | insert (hname : ∀ d ∈ s.peripheralDefinitions, d.name ≠ new.name) :
      InsertsPd new strategy s (new.insert s)
  | update (hstrategy : strategy = .update) : InsertsPd new strategy s (new.applyTo s)

theorem NewPeripheralDefinition.insertOr_ok {new : NewPeripheralDefinition}
    {strategy : ExistingPeripheralDefinitionStrategy} {s s' : Store}
    {pd : Option PeripheralDefinition} (h : (new.insertOr strategy).run s = .ok (pd, s')) :
    ∃ new', new.stored = .ok new' ∧ InsertsPd new' strategy s s' := by
  obtain ⟨new', hstored, h⟩ := Tx.run_ofExcept_bind_ok.mp h
  refine ⟨new', hstored, ?_⟩
  rw [Tx.run_write_ok] at h
  cases hfind : s.peripheralDefinitions.rows.find? (·.name = new'.name) with
  | none =>
      rw [hfind] at h
      cases h
      exact .insert fun d hd => by simpa using List.find?_eq_none.mp hfind d hd
  | some d =>
      rw [hfind] at h
      cases strategy with
      | skip =>
          cases h
          exact .skip rfl
      | update =>
          cases h
          exact .update rfl

theorem expectQuantityTypes_ok {peripheralDefinitionId : Int} {expected : List Int}
    {s s' : Store} {u : Unit}
    (h : (expectQuantityTypes peripheralDefinitionId expected).run s = .ok (u, s')) :
    ∃ table, s' = { s with peripheralDefinitionExpectedQuantityTypes := table } := by
  rw [expectQuantityTypes, Tx.run_write_ok] at h
  dsimp only at h
  split at h
  · cases h
    exact ⟨_, rfl⟩
  · cases h

theorem insertPd_ok {new : NewPeripheralDefinition} {expected : List Int}
    {strategy : ExistingPeripheralDefinitionStrategy} {s s' : Store} {u : Unit}
    (h : (insertPd new expected strategy).run s = .ok (u, s')) :
    ∃ new' s₁ table, new.stored = .ok new' ∧ InsertsPd new' strategy s s₁
      ∧ s' = { s₁ with peripheralDefinitionExpectedQuantityTypes := table } := by
  obtain ⟨pd, s₁, h₁, h⟩ := Tx.run_bind_ok.mp h
  obtain ⟨new', hstored, hinserts⟩ := NewPeripheralDefinition.insertOr_ok h₁
  refine ⟨new', s₁, ?_⟩
  cases pd with
  | none =>
      obtain ⟨-, rfl⟩ := Tx.run_pure_ok.mp h
      exact ⟨_, hstored, hinserts, rfl⟩
  | some pd =>
      obtain ⟨table, rfl⟩ := expectQuantityTypes_ok h
      exact ⟨table, hstored, hinserts, rfl⟩

end AstroPlant
