import AstroPlant.ConfigurationModel
import AstroPlant.Kits

/-!
# The configuration and peripheral handlers

The handlers of `controllers/kit_configuration`. Each of them reads the rows it
acts on, asks for permission, and then writes; the three parts are separate
transactions, so whatever a handler decides on a row it has read, it decides on
the row as it was then.

The part that reads finds the rows and fails if one is missing, the part in the
middle is `authorize`, and the parts that write are one transaction each, with a
lemma that says what a successful run of it did. These lemmas speak of the rows
that a handler was given; that they are still in the store is not among their
hypotheses, and has to be proved where it is needed.
-/

namespace AstroPlant

/-! ## What the handlers read first -/

def getModelsFromKitConfigurationId (kitConfigurationId : Int) :
    Tx Store Problem (Kit × KitConfiguration) := do
  let kitConfiguration ← Tx.read (KitConfiguration.byId kitConfigurationId)
  let kitConfiguration ← Tx.ofOption .NOT_FOUND kitConfiguration
  let kit ← Tx.read (Kit.byId kitConfiguration.kitId)
  let kit ← Tx.ofOption .INTERNAL_SERVER_ERROR kit
  return (kit, kitConfiguration)

def getModelsFromPeripheralId (peripheralId : Int) :
    Tx Store Problem (Kit × KitConfiguration × Peripheral) := do
  let peripheral ← Tx.read (Peripheral.byId peripheralId)
  let peripheral ← Tx.ofOption .NOT_FOUND peripheral
  let kit ← Tx.read (Kit.byId peripheral.kitId)
  let kit ← Tx.ofOption .INTERNAL_SERVER_ERROR kit
  let configuration ← Tx.read (KitConfiguration.byId peripheral.kitConfigurationId)
  let configuration ← Tx.ofOption .INTERNAL_SERVER_ERROR configuration
  return (kit, configuration, peripheral)

/-- Permission by the serial of the kit that was read. -/
def authorize (userId : Option Int) (kit : Kit) (action : KitAction) :
    Tx Store Problem (Option User × Option KitMembership) := do
  let (user, membership, _) ← futKitPermissionOrForbidden userId kit.serial action
  return (user, membership)

theorem getModelsFromKitConfigurationId_ok {id : Int} {s s' : Store}
    {r : Kit × KitConfiguration}
    (h : (getModelsFromKitConfigurationId id).run s = .ok (r, s')) :
    s = s' ∧ KitConfiguration.byId id s = some r.2 ∧ Kit.byId r.2.kitId s = some r.1 := by
  rw [getModelsFromKitConfigurationId, Tx.run_read_bind] at h
  obtain ⟨c, hc, h⟩ := Tx.run_ofOption_bind_ok.mp h
  rw [Tx.run_read_bind] at h
  obtain ⟨kit, hkit, h⟩ := Tx.run_ofOption_bind_ok.mp h
  obtain ⟨rfl, rfl⟩ := Tx.run_pure_ok.mp h
  exact ⟨rfl, hc, hkit⟩

theorem getModelsFromPeripheralId_ok {id : Int} {s s' : Store}
    {r : Kit × KitConfiguration × Peripheral}
    (h : (getModelsFromPeripheralId id).run s = .ok (r, s')) :
    s = s' ∧ Peripheral.byId id s = some r.2.2 ∧ Kit.byId r.2.2.kitId s = some r.1
      ∧ KitConfiguration.byId r.2.2.kitConfigurationId s = some r.2.1 := by
  rw [getModelsFromPeripheralId, Tx.run_read_bind] at h
  obtain ⟨p, hp, h⟩ := Tx.run_ofOption_bind_ok.mp h
  rw [Tx.run_read_bind] at h
  obtain ⟨kit, hkit, h⟩ := Tx.run_ofOption_bind_ok.mp h
  rw [Tx.run_read_bind] at h
  obtain ⟨c, hc, h⟩ := Tx.run_ofOption_bind_ok.mp h
  obtain ⟨rfl, rfl⟩ := Tx.run_pure_ok.mp h
  exact ⟨rfl, hp, hkit, hc⟩

theorem authorize_ok {userId : Option Int} {kit : Kit} {action : KitAction} {s s' : Store}
    {r : Option User × Option KitMembership}
    (h : (authorize userId kit action).run s = .ok (r, s')) :
    s = s' ∧ ∃ kit', Kit.bySerial kit.serial s = some kit'
      ∧ action.permitted (.ofModels (userId.bind (User.byId · s))
          (membershipOf userId kit'.id s)) kit' = true := by
  obtain ⟨p, s₁, h₁, h⟩ := Tx.run_bind_ok.mp h
  obtain ⟨rfl, hkit, hperm⟩ := futKitPermissionOrForbidden_ok h₁
  obtain ⟨-, rfl⟩ := Tx.run_pure_ok.mp h
  exact ⟨rfl, p.2.2, hkit, hperm⟩

/-! ## Configurations -/

def createNewConfiguration (e : Env) (kit : Kit) (description : Option String) :
    Tx Store Problem Reply := do
  let new := NewKitConfiguration.new kit.id description
  let created ← db (new.create e.now)
  return .configuration created

/-- The new row of a clone: the controller of the source, and a description
that names it. -/
def cloneOf (kit : Kit) (source : KitConfiguration) : NewKitConfiguration where
  kitId := kit.id
  description := some ("Copy of #" ++ toString source.id
    ++ ((source.description.map (" - " ++ ·)).getD ""))
  controllerSymbolLocation := source.controllerSymbolLocation
  controllerSymbol := source.controllerSymbol
  controlRules := source.controlRules

def cloneConfiguration (e : Env) (kit : Kit) (source : KitConfiguration) :
    Tx Store Problem Reply := do
  let created ← db ((cloneOf kit source).create e.now)
  db (Peripheral.cloneAllToNewConfiguration source.id kit.id created.id)
  return .configuration created

structure KitConfigurationPatch where
  description : Option (Option String)
  controllerSymbolLocation : Option String
  controllerSymbol : Option String
  controlRules : Option Json
  active : Option Bool

namespace KitConfigurationPatch

/-- Whether the patch names a field that is frozen once the configuration has
been activated. -/
def changesController (patch : KitConfigurationPatch) : Bool :=
  patch.controllerSymbolLocation.isSome || patch.controllerSymbol.isSome
    || patch.controlRules.isSome

def update (patch : KitConfigurationPatch) (id : Int) : UpdateKitConfiguration where
  id
  description := patch.description
  controllerSymbolLocation := patch.controllerSymbolLocation
  controllerSymbol := patch.controllerSymbol
  controlRules := patch.controlRules
  active := patch.active

end KitConfigurationPatch

def alreadyActivated : Problem :=
  (InvalidParameterReason.alreadyActivated.singleton "configurationId").intoProblem

/-- The configuration is the row read in an earlier transaction. -/
def patchConfiguration (e : Env) (kit : Kit) (kitConfiguration : KitConfiguration)
    (patch : KitConfigurationPatch) : Tx Store Problem Reply := do
  Tx.ensure (kitConfiguration.neverUsed || !patch.changesController) alreadyActivated
  Tx.onlyIf (patch.active.any (· != kitConfiguration.active))
    (db (KitConfiguration.deactivateAllOfKit kit.id e.now))
  let patched ← db ((patch.update kitConfiguration.id).update e.now)
  return .configuration patched

/-- Media belonging to the configuration are queued, and everything else of it
goes. -/
def deleteConfiguration (e : Env) (kitConfigurationId : Int) : Tx Store Problem Reply := do
  db (queueMedia e.now fun m => m.kitConfigurationId = kitConfigurationId)
  db (KitConfiguration.delete kitConfigurationId)
  return .empty

/-! ## Peripherals -/

/-- A configuration must be strictly valid for the definition's schema. -/
def checkConfiguration (x : Crates) (configuration : Json) (definition : PeripheralDefinition) :
    Except Problem Unit :=
  match x.strictlyValid definition.configurationSchema configuration with
  | none => .error .INTERNAL_SERVER_ERROR
  | some true => .ok ()
  | some false =>
      .error (InvalidParameterReason.other.singleton "configuration").intoProblem

structure PeripheralBody where
  peripheralDefinitionId : Int
  name : String
  configuration : Json

def addPeripheralToConfiguration (x : Crates) (kit : Kit) (configuration : KitConfiguration)
    (peripheral : PeripheralBody) : Tx Store Problem Reply := do
  Tx.ensure configuration.neverUsed alreadyActivated
  let new : NewPeripheral :=
    { kitId := kit.id
      kitConfigurationId := configuration.id
      peripheralDefinitionId := peripheral.peripheralDefinitionId
      name := peripheral.name
      configuration := peripheral.configuration }
  check (validate new.errors)
  let definition ← Tx.read (PeripheralDefinition.byId peripheral.peripheralDefinitionId)
  let definition ← Tx.ofOption
    (InvalidParameterReason.notFound.singleton "peripheralDefinitionId").intoProblem definition
  check (checkConfiguration x new.configuration definition)
  let created ← db new.create
  return .peripheral created

structure PeripheralPatch where
  name : Option String
  configuration : Option Json

def patchPeripheral (x : Crates) (configuration : KitConfiguration) (peripheral : Peripheral)
    (patch : PeripheralPatch) : Tx Store Problem Reply := do
  Tx.ensure configuration.neverUsed alreadyActivated
  let patched : UpdatePeripheral :=
    { id := peripheral.id, name := patch.name, configuration := patch.configuration }
  check (validate patched.errors)
  let definition ← Tx.read (PeripheralDefinition.byId peripheral.peripheralDefinitionId)
  let definition ← Tx.ofOption .INTERNAL_SERVER_ERROR definition
  check ((patched.configuration.map (checkConfiguration x · definition)).getD (.ok ()))
  let updated ← db patched.update
  return .peripheral updated

def deletePeripheral (configuration : KitConfiguration) (peripheral : Peripheral) :
    Tx Store Problem Reply := do
  Tx.ensure configuration.neverUsed alreadyActivated
  db (Peripheral.delete peripheral.id)
  return .empty

/-! ## What the transactions do -/

theorem createNewConfiguration_ok {e : Env} {kit : Kit} {description : Option String}
    {s s' : Store} {r : Reply}
    (h : (createNewConfiguration e kit description).run s = .ok (r, s')) :
    (Kit.byId kit.id s).isSome = true
      ∧ s' = (NewKitConfiguration.new kit.id description).insert e.now s := by
  obtain ⟨_, s₁, h₁, h⟩ := Tx.run_bind_ok.mp h
  obtain ⟨hkit, -, rfl⟩ := NewKitConfiguration.create_ok (run_db_ok.mp h₁)
  obtain ⟨-, rfl⟩ := Tx.run_pure_ok.mp h
  exact ⟨hkit, rfl⟩

theorem cloneConfiguration_ok {e : Env} {kit : Kit} {source : KitConfiguration} {s s' : Store}
    {r : Reply} (h : (cloneConfiguration e kit source).run s = .ok (r, s')) :
    (Kit.byId kit.id s).isSome = true
      ∧ s' = Peripheral.cloneAll source.id kit.id s.kitConfigurations.next
          ((cloneOf kit source).insert e.now s) := by
  obtain ⟨_, s₁, h₁, h⟩ := Tx.run_bind_ok.mp h
  obtain ⟨hkit, rfl, rfl⟩ := NewKitConfiguration.create_ok (run_db_ok.mp h₁)
  obtain ⟨_, s₂, h₂, h⟩ := Tx.run_bind_ok.mp h
  obtain rfl := Peripheral.cloneAllToNewConfiguration_ok (run_db_ok.mp h₂)
  obtain ⟨-, rfl⟩ := Tx.run_pure_ok.mp h
  exact ⟨hkit, rfl⟩

/-- The frozen fields are only changed if the row that was read had never been
used; the deactivation, if any, comes first, and no kit is left with two active
configurations. -/
theorem patchConfiguration_ok {e : Env} {kit : Kit} {kitConfiguration : KitConfiguration}
    {patch : KitConfigurationPatch} {s s' : Store} {r : Reply}
    (h : (patchConfiguration e kit kitConfiguration patch).run s = .ok (r, s')) :
    (kitConfiguration.neverUsed = true ∨ patch.changesController = false)
      ∧ ∃ s₁, (s₁ = s ∨ s₁ = KitConfiguration.deactivateAll kit.id e.now s)
        ∧ Store.activeUnique s'.kitConfigurations.rows = true
        ∧ s' = (patch.update kitConfiguration.id).applyTo e.now s₁ := by
  obtain ⟨hfrozen, h⟩ := Tx.run_ensure_bind_ok.mp h
  obtain ⟨_, s₁, h₁, h⟩ := Tx.run_bind_ok.mp h
  obtain ⟨_, s₂, h₂, h⟩ := Tx.run_bind_ok.mp h
  obtain ⟨hs₂, hunique⟩ := UpdateKitConfiguration.update_ok (run_db_ok.mp h₂)
  obtain ⟨-, rfl⟩ := Tx.run_pure_ok.mp h
  refine ⟨by simpa using hfrozen, s₁, ?_, hunique, hs₂⟩
  rcases Tx.run_onlyIf_ok.mp h₁ with ⟨-, h₁⟩ | ⟨-, rfl⟩
  · exact Or.inr (KitConfiguration.deactivateAllOfKit_ok (run_db_ok.mp h₁))
  · exact Or.inl rfl

theorem deleteConfiguration_ok {e : Env} {id : Int} {s s' : Store} {r : Reply}
    (h : (deleteConfiguration e id).run s = .ok (r, s')) :
    ∃ s₁, (queueMedia e.now fun m => m.kitConfigurationId = id).run s = .ok ((), s₁)
      ∧ s' = s₁.remove (s₁.doomed (fun _ => false) (·.id = id) fun _ => false) := by
  obtain ⟨_, s₁, h₁, h⟩ := Tx.run_bind_ok.mp h
  obtain ⟨_, s₂, h₂, h⟩ := Tx.run_bind_ok.mp h
  obtain ⟨-, rfl⟩ := Tx.run_pure_ok.mp h
  exact ⟨s₁, run_db_ok.mp h₁, (Store.deleteRows_ok (run_db_ok.mp h₂)).1⟩

theorem addPeripheralToConfiguration_ok {x : Crates} {kit : Kit}
    {configuration : KitConfiguration} {peripheral : PeripheralBody} {s s' : Store} {r : Reply}
    (h : (addPeripheralToConfiguration x kit configuration peripheral).run s = .ok (r, s')) :
    configuration.neverUsed = true ∧ ∃ (new : NewPeripheral) (definition : PeripheralDefinition),
      new.kitId = kit.id ∧ new.kitConfigurationId = configuration.id
        ∧ validateLength (some 1) (some 40) peripheral.name = []
        ∧ varchar 255 peripheral.name = .ok new.name
        ∧ PeripheralDefinition.byId new.peripheralDefinitionId s = some definition
        ∧ checkConfiguration x new.configuration definition = .ok ()
        ∧ s' = new.insert s := by
  obtain ⟨hnever, h⟩ := Tx.run_ensure_bind_ok.mp h
  obtain ⟨_, hvalid, h⟩ := Tx.run_ofExcept_bind_ok.mp h
  have hlength := validate_eq_ok.mp hvalid _ List.mem_cons_self
  rw [Tx.run_read_bind] at h
  obtain ⟨definition, hdefinition, h⟩ := Tx.run_ofOption_bind_ok.mp h
  obtain ⟨_, hchecked, h⟩ := Tx.run_ofExcept_bind_ok.mp h
  obtain ⟨_, s₁, h₁, h⟩ := Tx.run_bind_ok.mp h
  obtain ⟨name, hname, rfl⟩ := NewPeripheral.create_ok (run_db_ok.mp h₁)
  obtain ⟨-, rfl⟩ := Tx.run_pure_ok.mp h
  exact ⟨hnever, ⟨kit.id, configuration.id, peripheral.peripheralDefinitionId, name,
    peripheral.configuration⟩, definition, rfl, rfl, hlength, hname, hdefinition, hchecked, rfl⟩

theorem patchPeripheral_ok {x : Crates} {configuration : KitConfiguration}
    {peripheral : Peripheral} {patch : PeripheralPatch} {s s' : Store} {r : Reply}
    (h : (patchPeripheral x configuration peripheral patch).run s = .ok (r, s')) :
    configuration.neverUsed = true
      ∧ ∃ (u : UpdatePeripheral) (definition : PeripheralDefinition), u.id = peripheral.id
        ∧ (∀ name ∈ patch.name, validateLength (some 1) (some 40) name = [])
        ∧ nullable (varchar 255) patch.name = .ok u.name
        ∧ PeripheralDefinition.byId peripheral.peripheralDefinitionId s = some definition
        ∧ (∀ new ∈ u.configuration, checkConfiguration x new definition = .ok ())
        ∧ s' = u.applyTo s := by
  obtain ⟨hnever, h⟩ := Tx.run_ensure_bind_ok.mp h
  obtain ⟨_, hvalid, h⟩ := Tx.run_ofExcept_bind_ok.mp h
  rw [Tx.run_read_bind] at h
  obtain ⟨definition, hdefinition, h⟩ := Tx.run_ofOption_bind_ok.mp h
  obtain ⟨_, hchecked, h⟩ := Tx.run_ofExcept_bind_ok.mp h
  obtain ⟨_, s₁, h₁, h⟩ := Tx.run_bind_ok.mp h
  obtain ⟨name, hname, rfl⟩ := UpdatePeripheral.update_ok (run_db_ok.mp h₁)
  obtain ⟨-, rfl⟩ := Tx.run_pure_ok.mp h
  refine ⟨hnever, ⟨peripheral.id, name, patch.configuration⟩, definition, rfl, ?_, hname,
    hdefinition, ?_, rfl⟩
  · intro name hname
    have hlength := validate_eq_ok.mp hvalid _ List.mem_cons_self
    dsimp only at hlength
    rwa [Option.mem_def.mp hname] at hlength
  · intro new hnew
    rw [Option.mem_def.mp hnew] at hchecked
    exact hchecked

theorem deletePeripheral_ok {configuration : KitConfiguration} {peripheral : Peripheral}
    {s s' : Store} {r : Reply}
    (h : (deletePeripheral configuration peripheral).run s = .ok (r, s')) :
    configuration.neverUsed = true
      ∧ s' = s.remove (s.doomed (fun _ => false) (fun _ => false) (·.id = peripheral.id)) := by
  obtain ⟨hnever, h⟩ := Tx.run_ensure_bind_ok.mp h
  obtain ⟨_, s₁, h₁, h⟩ := Tx.run_bind_ok.mp h
  obtain ⟨-, rfl⟩ := Tx.run_pure_ok.mp h
  exact ⟨hnever, (Store.deleteRows_ok (run_db_ok.mp h₁)).1⟩

end AstroPlant
