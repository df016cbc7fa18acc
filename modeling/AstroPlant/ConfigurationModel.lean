import AstroPlant.KitModel

/-!
# Configurations and peripherals: the statements

The queries and statements on kit configurations and peripherals that the
handlers use. As for kits, every statement that writes has one lemma that says
what a successful run of it did, and nothing outside this file unfolds one. Two
of them touch many rows. `deactivateAllOfKit` turns every configuration of a kit
off, the one that is about to be turned on among them, and
`cloneAllToNewConfiguration` inserts a copy of each peripheral of a configuration
under fresh ids, for the kit that it is told. Whether an update is sent to the
database at all depends on what it sets: with nothing to set it is an error of
the query builder.
-/

namespace AstroPlant

/-! ## Configurations -/

namespace KitConfiguration

def byId (id : Int) (s : Store) : Option KitConfiguration := s.kitConfigurations.find? id

theorem mem_of_byId {id : Int} {s : Store} {c : KitConfiguration} (h : byId id s = some c) :
    c ∈ s.kitConfigurations ∧ c.id = id :=
  SerialTable.find?_eq_some.mp h

def deactivate (now : Timestamp) (c : KitConfiguration) : KitConfiguration :=
  Store.kitConfigurationTrigger now { c with active := false }

theorem deactivate_id (now : Timestamp) (c : KitConfiguration) :
    (c.deactivate now).id = c.id := rfl

def deactivateAll (kitId : Int) (now : Timestamp) (s : Store) : Store :=
  { s with
    kitConfigurations :=
      s.kitConfigurations.update (·.kitId = kitId) (deactivate now) (deactivate_id now) }

theorem mem_deactivateAll {kitId : Int} {now : Timestamp} {s : Store} {c : KitConfiguration} :
    c ∈ (deactivateAll kitId now s).kitConfigurations ↔ ∃ c₀ ∈ s.kitConfigurations,
      (if c₀.kitId = kitId then c₀.deactivate now else c₀) = c := by
  simp [deactivateAll]

/-- Deactivate all of the kit's configurations. -/
def deactivateAllOfKit (kitId : Int) (now : Timestamp) : Tx Store DieselError Unit :=
  Tx.write fun s => .ok ((), deactivateAll kitId now s)

theorem deactivateAllOfKit_ok {kitId : Int} {now : Timestamp} {s s' : Store} {u : Unit}
    (h : (deactivateAllOfKit kitId now).run s = .ok (u, s')) :
    s' = deactivateAll kitId now s := by
  rw [deactivateAllOfKit, Tx.run_write_ok] at h
  cases h
  rfl

/-- `DELETE` by id, with the cascade; a row that is gone is no error. -/
def delete (id : Int) : Tx Store DieselError Unit :=
  Store.deleteRows (fun _ => false) (·.id = id) fun _ => false

end KitConfiguration

/-- Changes to a configuration; `none` leaves a column as it is and `some none`
clears it. -/
structure UpdateKitConfiguration where
  id : Int
  description : Option (Option String)
  controllerSymbolLocation : Option String
  controllerSymbol : Option String
  controlRules : Option Json
  active : Option Bool

namespace UpdateKitConfiguration

def isEmpty (u : UpdateKitConfiguration) : Bool :=
  u.description.isNone && u.controllerSymbolLocation.isNone && u.controllerSymbol.isNone
    && u.controlRules.isNone && u.active.isNone

/-- The columns that are set, then the triggers. -/
def apply (u : UpdateKitConfiguration) (now : Timestamp) (c : KitConfiguration) :
    KitConfiguration :=
  Store.kitConfigurationTrigger now
    { c with
      description := u.description.getD c.description
      controllerSymbolLocation := u.controllerSymbolLocation.getD c.controllerSymbolLocation
      controllerSymbol := u.controllerSymbol.getD c.controllerSymbol
      controlRules := u.controlRules.getD c.controlRules
      active := u.active.getD c.active }

theorem apply_id (u : UpdateKitConfiguration) (now : Timestamp) (c : KitConfiguration) :
    (u.apply now c).id = c.id := rfl

def applyTo (u : UpdateKitConfiguration) (now : Timestamp) (s : Store) : Store :=
  { s with
    kitConfigurations :=
      s.kitConfigurations.update (·.id = u.id) (u.apply now) (u.apply_id now) }

/-- `save_changes`; the statement fails if it would leave two active
configurations in a kit. -/
def update (u : UpdateKitConfiguration) (now : Timestamp) :
    Tx Store DieselError KitConfiguration :=
  Tx.write fun s =>
    if u.isEmpty then .error .queryBuilderError
    else
      match KitConfiguration.byId u.id s with
      | none => .error .notFound
      | some c =>
          let s' := u.applyTo now s
          if Store.activeUnique s'.kitConfigurations.rows then .ok (u.apply now c, s')
          else .error .databaseError

theorem update_ok {u : UpdateKitConfiguration} {now : Timestamp} {s s' : Store}
    {c' : KitConfiguration} (h : (u.update now).run s = .ok (c', s')) :
    s' = u.applyTo now s ∧ Store.activeUnique s'.kitConfigurations.rows = true := by
  rw [update, Tx.run_write_ok] at h
  split at h
  · cases h
  · split at h
    · cases h
    · dsimp only at h
      split at h
      · rename_i hunique
        cases h
        exact ⟨rfl, hunique⟩
      · cases h

end UpdateKitConfiguration

structure NewKitConfiguration where
  kitId : Int
  description : Option String
  controllerSymbolLocation : String
  controllerSymbol : String
  controlRules : Json

namespace NewKitConfiguration

def new (kitId : Int) (description : Option String) : NewKitConfiguration where
  kitId
  description
  controllerSymbolLocation := "astroplant_kit.controller"
  controllerSymbol := "AstroplantControllerV1"
  controlRules := .object []

/-- A new configuration is not active; `never_used` is generated. -/
def row (new : NewKitConfiguration) (now : Timestamp) (id : Int) : KitConfiguration where
  id
  kitId := new.kitId
  description := new.description
  controllerSymbolLocation := new.controllerSymbolLocation
  controllerSymbol := new.controllerSymbol
  controlRules := new.controlRules
  active := false
  firstActivatedAt := none
  createdAt := now
  updatedAt := now

theorem row_id (new : NewKitConfiguration) (now : Timestamp) (id : Int) :
    (new.row now id).id = id := rfl

def insert (new : NewKitConfiguration) (now : Timestamp) (s : Store) : Store :=
  { s with kitConfigurations := s.kitConfigurations.insert (new.row now) (new.row_id now) }

theorem mem_insert {new : NewKitConfiguration} {now : Timestamp} {s : Store}
    {c : KitConfiguration} :
    c ∈ (new.insert now s).kitConfigurations ↔
      c ∈ s.kitConfigurations ∨ c = new.row now s.kitConfigurations.next := by
  simp [insert]

/-- `INSERT`; the kit must exist. -/
def create (new : NewKitConfiguration) (now : Timestamp) :
    Tx Store DieselError KitConfiguration :=
  Tx.write fun s =>
    if (Kit.byId new.kitId s).isSome then
      .ok (new.row now s.kitConfigurations.next, new.insert now s)
    else .error .databaseError

theorem create_ok {new : NewKitConfiguration} {now : Timestamp} {s s' : Store}
    {c : KitConfiguration} (h : (new.create now).run s = .ok (c, s')) :
    (Kit.byId new.kitId s).isSome = true ∧ c = new.row now s.kitConfigurations.next
      ∧ s' = new.insert now s := by
  rw [create, Tx.run_write_ok] at h
  split at h
  · rename_i hkit
    cases h
    exact ⟨hkit, rfl, rfl⟩
  · cases h

end NewKitConfiguration

/-! ## Peripherals -/

namespace PeripheralDefinition

def byId (id : Int) (s : Store) : Option PeripheralDefinition := s.peripheralDefinitions.find? id

end PeripheralDefinition

namespace Peripheral

def byId (id : Int) (s : Store) : Option Peripheral := s.peripherals.find? id

theorem mem_of_byId {id : Int} {s : Store} {p : Peripheral} (h : byId id s = some p) :
    p ∈ s.peripherals ∧ p.id = id :=
  SerialTable.find?_eq_some.mp h

/-- `DELETE` by id, with the cascade; a row that is gone is no error. -/
def delete (id : Int) : Tx Store DieselError Unit :=
  Store.deleteRows (fun _ => false) (fun _ => false) (·.id = id)

/-- The copy of a peripheral in another configuration. -/
def cloneRow (toKitId toKitConfigurationId : Int) (p : Peripheral) (id : Int) : Peripheral :=
  { p with id, kitId := toKitId, kitConfigurationId := toKitConfigurationId }

theorem cloneRow_id (toKitId toKitConfigurationId : Int) (p : Peripheral) (id : Int) :
    (p.cloneRow toKitId toKitConfigurationId id).id = id := rfl

def cloneAll (fromKitConfigurationId toKitId toKitConfigurationId : Int) (s : Store) : Store :=
  let selected := s.peripherals.select (·.kitConfigurationId = fromKitConfigurationId)
  let clone := cloneRow toKitId toKitConfigurationId
  { s with peripherals := s.peripherals.insertAll selected clone (cloneRow_id _ _) }

/-- `INSERT INTO peripherals SELECT ... FROM peripherals`: every peripheral of a
configuration is copied to another one. -/
def cloneAllToNewConfiguration (fromKitConfigurationId toKitId toKitConfigurationId : Int) :
    Tx Store DieselError Unit :=
  Tx.write fun s =>
    let selected := s.peripherals.select (·.kitConfigurationId = fromKitConfigurationId)
    if selected.all fun p => (Kit.byId toKitId s).isSome
        && (KitConfiguration.byId toKitConfigurationId s).isSome
        && (PeripheralDefinition.byId p.peripheralDefinitionId s).isSome then
      .ok ((), cloneAll fromKitConfigurationId toKitId toKitConfigurationId s)
    else .error .databaseError

theorem cloneAllToNewConfiguration_ok {fromId toKitId toId : Int} {s s' : Store} {u : Unit}
    (h : (cloneAllToNewConfiguration fromId toKitId toId).run s = .ok (u, s')) :
    s' = cloneAll fromId toKitId toId s := by
  rw [cloneAllToNewConfiguration, Tx.run_write_ok] at h
  dsimp only at h
  split at h
  · cases h
    rfl
  · cases h

end Peripheral

structure UpdatePeripheral where
  id : Int
  name : Option String
  configuration : Option Json

namespace UpdatePeripheral

def errors (u : UpdatePeripheral) : ValidationErrors :=
  [("name", (u.name.map (validateLength (some 1) (some 40))).getD [])]

def apply (u : UpdatePeripheral) (p : Peripheral) : Peripheral :=
  { p with name := u.name.getD p.name, configuration := u.configuration.getD p.configuration }

theorem apply_id (u : UpdatePeripheral) (p : Peripheral) : (u.apply p).id = p.id := rfl

def applyTo (u : UpdatePeripheral) (s : Store) : Store :=
  { s with peripherals := s.peripherals.update (·.id = u.id) u.apply u.apply_id }

theorem mem_applyTo {u : UpdatePeripheral} {s : Store} {p : Peripheral} :
    p ∈ (u.applyTo s).peripherals ↔ ∃ p₀ ∈ s.peripherals,
      (if p₀.id = u.id then u.apply p₀ else p₀) = p := by
  simp [applyTo]

/-- `save_changes`. -/
def update (u : UpdatePeripheral) : Tx Store DieselError Peripheral :=
  Tx.write fun s =>
    if u.name.isNone && u.configuration.isNone then .error .queryBuilderError
    else
      match nullable (varchar 255) u.name with
      | .error e => .error e
      | .ok name =>
          match Peripheral.byId u.id s with
          | none => .error .notFound
          | some p => .ok (apply { u with name } p, applyTo { u with name } s)

theorem update_ok {u : UpdatePeripheral} {s s' : Store} {p : Peripheral}
    (h : u.update.run s = .ok (p, s')) :
    ∃ name, nullable (varchar 255) u.name = .ok name ∧ s' = applyTo { u with name } s := by
  rw [update, Tx.run_write_ok] at h
  split at h
  · cases h
  · split at h
    · cases h
    · rename_i name hname
      split at h
      · cases h
      · cases h
        exact ⟨name, hname, rfl⟩

end UpdatePeripheral

structure NewPeripheral where
  kitId : Int
  kitConfigurationId : Int
  peripheralDefinitionId : Int
  name : String
  configuration : Json

namespace NewPeripheral

def errors (new : NewPeripheral) : ValidationErrors :=
  [("name", validateLength (some 1) (some 40) new.name)]

def row (new : NewPeripheral) (id : Int) : Peripheral where
  id
  kitId := new.kitId
  kitConfigurationId := new.kitConfigurationId
  peripheralDefinitionId := new.peripheralDefinitionId
  name := new.name
  configuration := new.configuration

theorem row_id (new : NewPeripheral) (id : Int) : (new.row id).id = id := rfl

def insert (new : NewPeripheral) (s : Store) : Store :=
  { s with peripherals := s.peripherals.insert new.row new.row_id }

theorem mem_insert {new : NewPeripheral} {s : Store} {p : Peripheral} :
    p ∈ (new.insert s).peripherals ↔ p ∈ s.peripherals ∨ p = new.row s.peripherals.next := by
  simp [insert]

/-- `INSERT`; the kit, the configuration and the definition must exist. -/
def create (new : NewPeripheral) : Tx Store DieselError Peripheral :=
  Tx.write fun s =>
    match varchar 255 new.name with
    | .error e => .error e
    | .ok name =>
        if (Kit.byId new.kitId s).isSome
            && (KitConfiguration.byId new.kitConfigurationId s).isSome
            && (PeripheralDefinition.byId new.peripheralDefinitionId s).isSome then
          .ok (row { new with name } s.peripherals.next, insert { new with name } s)
        else .error .databaseError

theorem create_ok {new : NewPeripheral} {s s' : Store} {p : Peripheral}
    (h : new.create.run s = .ok (p, s')) :
    ∃ name, varchar 255 new.name = .ok name ∧ s' = insert { new with name } s := by
  rw [create, Tx.run_write_ok] at h
  split at h
  · cases h
  · rename_i name hname
    split at h
    · cases h
      exact ⟨name, hname, rfl⟩
    · cases h

end NewPeripheral

end AstroPlant
