import AstroPlant.AstroplantDefinitions
import AstroPlant.DeclaredBounds

/-!
# Peripheral configurations conform to their definitions

A configuration is checked against the schema of its definition when a peripheral
is added or patched. A clone is not checked, and neither are the peripherals of a
definition that is overwritten. The clone has what its source has; and a
definition is only ever overwritten by the one of its name.

`deployment` runs the API together with the administration tool, whose import is
one transaction among the others. A task that is about to write a peripheral
remembers the definition it has checked against (`Task.KnowsDefinition`), and a
definition with this id has the schema of the row that was read, or of the listed
definition of its name. So the import may update a definition while a request is
under way, and the configuration still conforms: that rests on the schemas of the
definitions that the tool ships, none of which is ever replaced by another one
(`Store.Known`).
-/

namespace AstroPlant

/-! ## The backend with its administration tool -/

inductive DeploymentRequest where
  | backend (request : BackendRequest)
  | insertAstroplantDefinitions (simulation : InsertSimulationDefinitions)
      (strategy : ExistingPeripheralDefinitionStrategy)

inductive DeploymentTask where
  | backend (task : BackendTask)
  | insertAstroplantDefinitions (simulation : InsertSimulationDefinitions)
      (strategy : ExistingPeripheralDefinitionStrategy)

def deployment (x : Crates) (strings : Strings) :
    Program Services DeploymentRequest BackendEnv DeploymentTask where
  entry
    | .backend request => .backend ((backend x strings).entry request)
    | .insertAstroplantDefinitions simulation strategy =>
        .insertAstroplantDefinitions simulation strategy
  advance e t _ s :=
    match t with
    | .backend task =>
        ((backend x strings).advance e task [] s).map fun r => (r.1, r.2.map .backend)
    | .insertAstroplantDefinitions simulation strategy =>
        let insert := AstroPlant.insertAstroplantDefinitions simulation strategy
        some ({ s with store := (insert.commit s.store).2 }, none)
  faulty _ := true

/-! ## What the definitions are -/

/-- Every definition that the tool inserts, with or without the simulation. -/
def knownDefinitions : List NewPeripheralDefinition :=
  (simulationDefinitions ⟨0, 0, 0, 0, 0⟩ ++ astroplantDefinitions ⟨0, 0, 0, 0, 0⟩).map Prod.fst

theorem mem_knownDefinitions {quantityTypes : QuantityTypes}
    {pd : NewPeripheralDefinition × List Int}
    (h : pd ∈ simulationDefinitions quantityTypes ∨ pd ∈ astroplantDefinitions quantityTypes) :
    pd.1 ∈ knownDefinitions := by
  have hmap : ∀ quantityTypes : QuantityTypes,
      (simulationDefinitions quantityTypes ++ astroplantDefinitions quantityTypes).map Prod.fst
        = knownDefinitions := fun _ => rfl
  rw [← hmap quantityTypes]
  exact List.mem_map_of_mem (List.mem_append.mpr h)

theorem knownDefinitions_nodup : (knownDefinitions.map (·.name)).Nodup := by
  decide

theorem knownDefinitions_name {new new' : NewPeripheralDefinition} (h : new ∈ knownDefinitions)
    (h' : new' ∈ knownDefinitions) (hname : new.name = new'.name) : new = new' :=
  List.inj_on_of_nodup_map knownDefinitions_nodup h h' hname

theorem NewPeripheralDefinition.stored_columns {new new' : NewPeripheralDefinition}
    (h : new.stored = .ok new') :
    varchar 100 new.name = .ok new'.name
      ∧ new'.configurationSchema = new.configurationSchema := by
  obtain ⟨name, hname, h⟩ := bind_ok.mp h
  obtain ⟨_, -, h⟩ := bind_ok.mp h
  obtain ⟨_, -, h⟩ := bind_ok.mp h
  obtain ⟨_, -, h⟩ := bind_ok.mp h
  obtain ⟨_, -, h⟩ := bind_ok.mp h
  obtain rfl := Except.ok.inj h
  exact ⟨hname, rfl⟩

/-- Their names fit the column, so that they are stored under them. -/
theorem knownDefinitions_stored {new new' : NewPeripheralDefinition}
    (h : new ∈ knownDefinitions) (hstored : new.stored = .ok new') :
    new'.name = new.name ∧ new'.configurationSchema = new.configurationSchema := by
  have hfits : ∀ name ∈ knownDefinitions.map (·.name), name.length ≤ 100 := by decide
  obtain ⟨hname, hschema⟩ := NewPeripheralDefinition.stored_columns hstored
  rw [varchar_of_le (hfits _ (List.mem_map_of_mem h))] at hname
  exact ⟨(Except.ok.inj hname).symm, hschema⟩

/-- Every definition has the name and the schema of one that the tool inserts. -/
def Store.Known (s : Store) : Prop :=
  ∀ d ∈ s.peripheralDefinitions, ∃ new ∈ knownDefinitions,
    d.name = new.name ∧ d.configurationSchema = new.configurationSchema

/-- Every peripheral has a configuration that is strictly valid for the schema of
its definition. -/
def Store.Conforming (x : Crates) (s : Store) : Prop :=
  ∀ p ∈ s.peripherals, ∃ d ∈ s.peripheralDefinitions, d.id = p.peripheralDefinitionId
    ∧ x.strictlyValid d.configurationSchema p.configuration = some true

/-! ## What insertions keep -/

/-- Kits, configurations and peripherals are the same. -/
structure SameKits (s s' : Store) : Prop where
  kits : s'.kits = s.kits
  kitConfigurations : s'.kitConfigurations = s.kitConfigurations
  peripherals : s'.peripherals = s.peripherals

theorem SameKits.trans {s s' s'' : Store} (h : SameKits s s') (h' : SameKits s' s'') :
    SameKits s s'' where
  kits := h'.kits.trans h.kits
  kitConfigurations := h'.kitConfigurations.trans h.kitConfigurations
  peripherals := h'.peripherals.trans h.peripherals

section Insertions

variable {x : Crates} {new : NewPeripheralDefinition} {s s' : Store}
  {strategy : ExistingPeripheralDefinitionStrategy}

theorem Store.Conforming.insertDefinition (h : s.Conforming x) :
    (new.insert s).Conforming x := by
  intro p hp
  obtain ⟨d, hd, hid, hvalid⟩ := h p hp
  exact ⟨d, NewPeripheralDefinition.mem_insert.mpr (Or.inl hd), hid, hvalid⟩

/-- Overwriting a definition keeps what conforms exactly if the peripherals of
that definition conform to the new schema. -/
theorem Store.Conforming.updateDefinition_iff (h : s.Conforming x) :
    (new.applyTo s).Conforming x ↔ ∀ d ∈ s.peripheralDefinitions, d.name = new.name →
      ∀ p ∈ s.peripherals, p.peripheralDefinitionId = d.id →
        x.strictlyValid new.configurationSchema p.configuration = some true := by
  constructor
  · intro h' d hd hname p hp hdefinition
    obtain ⟨d', hd', hid', hvalid⟩ := h' p hp
    have hoverwritten : new.apply d ∈ (new.applyTo s).peripheralDefinitions :=
      NewPeripheralDefinition.mem_applyTo.mpr ⟨d, hd, if_pos hname⟩
    have hsame : d'.id = (new.apply d).id := hid'.trans hdefinition
    obtain rfl := SerialTable.eq_of_key_eq hd' hoverwritten hsame
    exact hvalid
  · intro hschema p hp
    obtain ⟨d, hd, hid, hvalid⟩ := h p hp
    by_cases hname : d.name = new.name
    · exact ⟨new.apply d, NewPeripheralDefinition.mem_applyTo.mpr ⟨d, hd, if_pos hname⟩, hid,
        hschema d hd hname p hp hid.symm⟩
    · exact ⟨d, NewPeripheralDefinition.mem_applyTo.mpr ⟨d, hd, if_neg hname⟩, hid, hvalid⟩

/-- **A known definition is overwritten with its own schema**, so nothing ceases
to conform. -/
theorem InsertsPd.conforming (hnew : new ∈ knownDefinitions) {new' : NewPeripheralDefinition}
    (hstored : new.stored = .ok new') (h : InsertsPd new' strategy s s') (hknown : s.Known)
    (hs : s.Conforming x) : s'.Known ∧ s'.Conforming x := by
  obtain ⟨hname, hschema⟩ := knownDefinitions_stored hnew hstored
  cases h with
  | skip => exact ⟨hknown, hs⟩
  | insert =>
      refine ⟨fun d hd => ?_, hs.insertDefinition⟩
      rcases NewPeripheralDefinition.mem_insert.mp hd with hd | rfl
      · exact hknown d hd
      · exact ⟨new, hnew, hname, hschema⟩
  | update =>
      constructor
      · intro d hd
        obtain ⟨d₀, hd₀, rfl⟩ := NewPeripheralDefinition.mem_applyTo.mp hd
        split
        · exact ⟨new, hnew, hname, hschema⟩
        · exact hknown d₀ hd₀
      · refine hs.updateDefinition_iff.mpr fun d hd hsame p hp hdefinition => ?_
        obtain ⟨known, hmem, hknownName, hknownSchema⟩ := hknown d hd
        have heq : known = new := by
          refine knownDefinitions_name hmem hnew ?_
          rw [← hknownName, hsame, hname]
        obtain ⟨d', hd', hid', hvalid⟩ := hs p hp
        have hsameRow : d' = d := SerialTable.eq_of_key_eq hd' hd (hid'.trans hdefinition)
        rw [hschema, ← heq, ← hknownSchema, ← hsameRow]
        exact hvalid

theorem insertPd_conforming {expected : List Int} {u : Unit} (hnew : new ∈ knownDefinitions)
    (h : (insertPd new expected strategy).run s = .ok (u, s')) (hknown : s.Known)
    (hs : s.Conforming x) : SameKits s s' ∧ s'.Known ∧ s'.Conforming x := by
  obtain ⟨new', s₁, table, hstored, hinserts, rfl⟩ := insertPd_ok h
  have hsame : SameKits s { s₁ with peripheralDefinitionExpectedQuantityTypes := table } := by
    cases hinserts <;> exact ⟨rfl, rfl, rfl⟩
  obtain ⟨hknown', hs'⟩ := hinserts.conforming hnew hstored hknown hs
  exact ⟨hsame, hknown', hs'⟩

theorem insertPds_conforming {definitions : List (NewPeripheralDefinition × List Int)} {u : Unit}
    (hdefinitions : ∀ pd ∈ definitions, pd.1 ∈ knownDefinitions)
    (h : (insertPds strategy definitions).run s = .ok (u, s')) (hknown : s.Known)
    (hs : s.Conforming x) : SameKits s s' ∧ s'.Known ∧ s'.Conforming x := by
  induction definitions generalizing s with
  | nil =>
      obtain ⟨-, rfl⟩ := Tx.run_pure_ok.mp h
      exact ⟨⟨rfl, rfl, rfl⟩, hknown, hs⟩
  | cons pd definitions ih =>
      obtain ⟨_, s₁, h₁, h⟩ := Tx.run_bind_ok.mp h
      obtain ⟨hfirst, hknown₁, hs₁⟩ :=
        insertPd_conforming (hdefinitions pd List.mem_cons_self) h₁ hknown hs
      obtain ⟨hrest, hboth⟩ :=
        ih (fun pd hpd => hdefinitions pd (List.mem_cons_of_mem _ hpd)) h hknown₁ hs₁
      exact ⟨hfirst.trans hrest, hboth⟩

theorem selectOrInsertQt_conforming {physicalQuantity physicalUnit : String}
    {physicalUnitSymbol : Option String} {id : Int}
    (h : (selectOrInsertQt physicalQuantity physicalUnit physicalUnitSymbol).run s
      = .ok (id, s')) (hs : s.Known ∧ s.Conforming x) :
    SameKits s s' ∧ s'.Known ∧ s'.Conforming x := by
  obtain ⟨_, rfl⟩ := selectOrInsertQt_ok h
  exact ⟨⟨rfl, rfl, rfl⟩, hs.1, hs.2⟩

theorem insertAstroplantDefinitions_conforming {simulation : InsertSimulationDefinitions}
    {u : Unit} (h : (insertAstroplantDefinitions simulation strategy).run s = .ok (u, s'))
    (hs : s.Known ∧ s.Conforming x) :
    SameKits s s' ∧ s'.Known ∧ s'.Conforming x := by
  obtain ⟨_, s₁, h₁, h⟩ := Tx.run_bind_ok.mp h
  obtain ⟨hsame₁, hs₁⟩ := selectOrInsertQt_conforming h₁ hs
  obtain ⟨_, s₂, h₂, h⟩ := Tx.run_bind_ok.mp h
  obtain ⟨hsame₂, hs₂⟩ := selectOrInsertQt_conforming h₂ hs₁
  obtain ⟨_, s₃, h₃, h⟩ := Tx.run_bind_ok.mp h
  obtain ⟨hsame₃, hs₃⟩ := selectOrInsertQt_conforming h₃ hs₂
  obtain ⟨_, s₄, h₄, h⟩ := Tx.run_bind_ok.mp h
  obtain ⟨hsame₄, hs₄⟩ := selectOrInsertQt_conforming h₄ hs₃
  obtain ⟨_, s₅, h₅, h⟩ := Tx.run_bind_ok.mp h
  obtain ⟨hsame₅, hs₅⟩ := selectOrInsertQt_conforming h₅ hs₄
  have hsame := (((hsame₁.trans hsame₂).trans hsame₃).trans hsame₄).trans hsame₅
  cases simulation with
  | no =>
      obtain ⟨hlast, hboth⟩ :=
        insertPds_conforming (fun pd hpd => mem_knownDefinitions (Or.inr hpd)) h hs₅.1 hs₅.2
      exact ⟨hsame.trans hlast, hboth⟩
  | yes =>
      obtain ⟨_, s₆, h₆, h⟩ := Tx.run_bind_ok.mp h
      obtain ⟨hfirst, hknown₆, hs₆⟩ := insertPds_conforming
        (fun pd hpd => mem_knownDefinitions (Or.inl hpd)) h₆ hs₅.1 hs₅.2
      obtain ⟨hrest, hboth⟩ :=
        insertPds_conforming (fun pd hpd => mem_knownDefinitions (Or.inr hpd)) h hknown₆ hs₆
      exact ⟨hsame.trans (hfirst.trans hrest), hboth⟩

end Insertions

/-! ## What requests keep -/

theorem change_definition {t : Task} {s s' : Store} (h : Change t s s') :
    s.peripherals.Keeps (fun p p' => p.peripheralDefinitionId = p'.peripheralDefinitionId)
      s'.peripherals := by
  cases h with
  | deleteKit id now s₁ hrun | deleteConfiguration id now s₁ hrun =>
      obtain rfl := queueMedia_ok hrun
      exact .delete fun _ => rfl
  | deleteMedia id now s₁ hrun =>
      obtain rfl := queueMedia_ok hrun
      exact .refl fun _ => rfl
  | deletePeripheral => exact .delete fun _ => rfl
  | cloneConfiguration => exact .insertAll (Peripheral.cloneRow_id _ _) fun _ => rfl
  | addPeripheral kit c body new => exact .insert new.row_id fun _ => rfl
  | patchPeripheral c p patch u => exact .update u.apply_id (fun _ => rfl) fun _ _ _ => rfl
  | patchConfiguration kit c patch now s₁ ht hfrozen hs₁ =>
      rcases hs₁ with rfl | rfl <;> exact .refl fun _ => rfl
  | nothing | createKit | updateKit | addMember | patchKitMembership | deleteKitMembership
  | createConfiguration => exact .refl fun _ => rfl

/-- The peripherals have definitions and configurations that were there before. -/
structure Copies (s s' : Store) : Prop where
  definitions : s'.peripheralDefinitions = s.peripheralDefinitions
  peripherals : ∀ p' ∈ s'.peripherals, ∃ p ∈ s.peripherals,
    p'.peripheralDefinitionId = p.peripheralDefinitionId ∧ p'.configuration = p.configuration

namespace Copies

variable {x : Crates} {s s' : Store}

theorem of_eq (hdefinitions : s'.peripheralDefinitions = s.peripheralDefinitions)
    (hperipherals : s'.peripherals = s.peripherals) : Copies s s' where
  definitions := hdefinitions
  peripherals p hp := ⟨p, hperipherals ▸ hp, rfl, rfl⟩

theorem remove (s : Store) (d : Store.Doomed) : Copies s (s.remove d) where
  definitions := rfl
  peripherals p hp := ⟨p, (SerialTable.mem_delete.mp hp).1, rfl, rfl⟩

theorem queueMedia {now : Timestamp} {p : Media → Bool} {u : Unit}
    (h : (queueMedia now p).run s = .ok (u, s')) : Copies s s' := by
  rw [queueMedia_ok h]
  exact .of_eq rfl rfl

theorem trans {s'' : Store} (h : Copies s s') (h' : Copies s' s'') : Copies s s'' where
  definitions := h'.definitions.trans h.definitions
  peripherals p'' hp'' := by
    obtain ⟨p', hp', hdefinition', hconfiguration'⟩ := h'.peripherals p'' hp''
    obtain ⟨p, hp, hdefinition, hconfiguration⟩ := h.peripherals p' hp'
    exact ⟨p, hp, hdefinition'.trans hdefinition, hconfiguration'.trans hconfiguration⟩

theorem known (h : Copies s s') (hs : s.Known) : s'.Known := by
  intro d hd
  rw [h.definitions] at hd
  exact hs d hd

theorem conforming (h : Copies s s') (hs : s.Conforming x) : s'.Conforming x := by
  intro p' hp'
  obtain ⟨p, hp, hdefinition, hconfiguration⟩ := h.peripherals p' hp'
  rw [h.definitions, hdefinition, hconfiguration]
  exact hs p hp

end Copies

/-- A step that neither adds nor patches a peripheral at most copies some. -/
theorem change_copies {t : Task} {s s' : Store} (h : Change t s s')
    (hadd : ∀ kit c body, t ≠ .onConfiguration kit c (.addPeripheral body))
    (hpatch : ∀ c p patch, t ≠ .onPeripheral c p (.patch patch)) : Copies s s' := by
  cases h with
  | deleteKit id now s₁ hrun | deleteConfiguration id now s₁ hrun =>
      exact (Copies.queueMedia hrun).trans (.remove _ _)
  | deleteMedia id now s₁ hrun => exact .queueMedia hrun
  | deletePeripheral => exact .remove _ _
  | cloneConfiguration kit source now hkit =>
      refine ⟨rfl, fun p hp => ?_⟩
      rcases SerialTable.mem_insertAll hp with hp | ⟨p₀, hp₀, i, -, rfl⟩
      · exact ⟨p, hp, rfl, rfl⟩
      · exact ⟨p₀, (SerialTable.mem_select.mp hp₀).1, rfl, rfl⟩
  | addPeripheral kit c body new ht => exact absurd ht (hadd kit c body)
  | patchPeripheral c p patch u ht => exact absurd ht (hpatch c p patch)
  | patchConfiguration kit c patch now s₁ ht hfrozen hs₁ =>
      rcases hs₁ with rfl | rfl <;> exact .of_eq rfl rfl
  | nothing | createKit | updateKit | addMember | patchKitMembership | deleteKitMembership
  | createConfiguration => exact .of_eq rfl rfl

/-- A configuration passes the check exactly if it is strictly valid. -/
theorem checkConfiguration_ok {x : Crates} {configuration : Json}
    {definition : PeripheralDefinition} :
    checkConfiguration x configuration definition = .ok ()
      ↔ x.strictlyValid definition.configurationSchema configuration = some true := by
  unfold checkConfiguration
  split <;> simp_all

/-- A peripheral that has been read, with its definition. -/
def DefinitionOf (s : Store) (id peripheralDefinitionId : Int) : Prop :=
  id < s.peripherals.next
    ∧ ∀ p ∈ s.peripherals, p.id = id → p.peripheralDefinitionId = peripheralDefinitionId

/-- What a task knows of the peripheral that it has read. -/
def Task.KnowsDefinition (s : Store) : Task → Prop
  | .authorizePeripheral _ _ _ p _ | .onPeripheral _ p _ =>
      DefinitionOf s p.id p.peripheralDefinitionId
  | _ => True

theorem Task.KnowsDefinition.keeps {s s' : Store}
    (h : s.peripherals.Keeps (fun p p' => p.peripheralDefinitionId = p'.peripheralDefinitionId)
      s'.peripherals) {t : Task} (ht : t.KnowsDefinition s) : t.KnowsDefinition s' := by
  cases t with
  | authorizePeripheral _ _ _ _ _ | onPeripheral _ _ _ => exact h.forall_key ht
  | _ => trivial

theorem Task.KnowsDefinition.next {x : Crates} {e : Env} {t t' : Task} {s s' : Store}
    (ht : t.KnowsDefinition s) (h : (t.tx x e).run s = .ok (.inl t', s')) :
    t'.KnowsDefinition s' := by
  have hfollows := Task.tx_follows h
  obtain rfl := Task.tx_inl h
  cases hfollows with
  | readPeripheral userId kit c p op hp hc =>
      exact SerialTable.forall_key_of_mem Peripheral.peripheralDefinitionId hp
  | authorizedPeripheral => exact ht
  | readConfiguration | authorizedConfiguration => trivial
  | other _ _ hother =>
      cases t' with
      | authorizeConfiguration _ _ _ _ | onConfiguration _ _ _ => cases hother
      | authorizePeripheral _ _ _ _ _ | onPeripheral _ _ _ => cases hother
      | _ => trivial

section Requests

variable {x : Crates} {strings : Strings} {s s' : Store}

theorem addPeripheralToConfiguration_conforming {kit : Kit} {configuration : KitConfiguration}
    {peripheral : PeripheralBody} {r : Reply} (hs : s.Known ∧ s.Conforming x)
    (h : (addPeripheralToConfiguration x kit configuration peripheral).run s = .ok (r, s')) :
    s'.Known ∧ s'.Conforming x := by
  obtain ⟨-, new, definition, -, -, -, -, hdefinition, hchecked, rfl⟩ :=
    addPeripheralToConfiguration_ok h
  obtain ⟨hmem, hid⟩ := SerialTable.find?_eq_some.mp hdefinition
  refine ⟨hs.1, fun p hp => ?_⟩
  rcases NewPeripheral.mem_insert.mp hp with hp | rfl
  · exact hs.2 p hp
  · exact ⟨definition, hmem, hid, checkConfiguration_ok.mp hchecked⟩

/-- A patch is checked against the definition of the peripheral that was read,
which is the one that the peripheral still has. -/
theorem patchPeripheral_conforming {configuration : KitConfiguration} {peripheral : Peripheral}
    {patch : PeripheralPatch} {r : Reply} (hs : s.Known ∧ s.Conforming x)
    (hknows : DefinitionOf s peripheral.id peripheral.peripheralDefinitionId)
    (h : (patchPeripheral x configuration peripheral patch).run s = .ok (r, s')) :
    s'.Known ∧ s'.Conforming x := by
  obtain ⟨-, u, definition, hu, -, -, hdefinition, hchecked, rfl⟩ := patchPeripheral_ok h
  obtain ⟨hmem, hid⟩ := SerialTable.find?_eq_some.mp hdefinition
  refine ⟨hs.1, fun p hp => ?_⟩
  obtain ⟨p₀, hp₀, rfl⟩ := UpdatePeripheral.mem_applyTo.mp hp
  split
  · rename_i hsame
    cases hconfiguration : u.configuration with
    | none =>
        obtain ⟨d, hd, hdid, hvalid⟩ := hs.2 p₀ hp₀
        refine ⟨d, hd, hdid, ?_⟩
        show x.strictlyValid d.configurationSchema (u.configuration.getD p₀.configuration) = _
        rw [hconfiguration]
        exact hvalid
    | some new =>
        refine ⟨definition, hmem, hid.trans (hknows.2 p₀ hp₀ (hsame.trans hu)).symm, ?_⟩
        show x.strictlyValid definition.configurationSchema
          (u.configuration.getD p₀.configuration) = _
        rw [hconfiguration]
        exact checkConfiguration_ok.mp (hchecked new hconfiguration)
  · exact hs.2 p₀ hp₀

theorem Task.tx_conforming {e : Env} {t : Task} {n : Task ⊕ Reply}
    (hs : s.Known ∧ s.Conforming x) (ht : t.KnowsDefinition s)
    (h : (t.tx x e).run s = .ok (n, s')) : s'.Known ∧ s'.Conforming x := by
  by_cases hadd : ∃ kit c body, t = .onConfiguration kit c (.addPeripheral body)
  · obtain ⟨kit, c, body, rfl⟩ := hadd
    obtain ⟨_, h, -⟩ := finish_ok h
    exact addPeripheralToConfiguration_conforming hs h
  · by_cases hpatch : ∃ c p patch, t = .onPeripheral c p (.patch patch)
    · obtain ⟨c, p, patch, rfl⟩ := hpatch
      obtain ⟨_, h, -⟩ := finish_ok h
      exact patchPeripheral_conforming hs ht h
    · have hcopies := change_copies (Task.tx_change h)
        (fun kit c body heq => hadd ⟨kit, c, body, heq⟩)
        fun c p patch heq => hpatch ⟨c, p, patch, heq⟩
      exact ⟨hcopies.known hs.1, hcopies.conforming hs.2⟩

/-- What an unfinished task of the deployment knows. -/
def DeploymentTask.KnowsDefinition (s : Services) : DeploymentTask → Prop
  | .backend (.service (.api task)) => task.KnowsDefinition s.store
  | _ => True

theorem DeploymentTask.KnowsDefinition.keeps {s s' : Services}
    (h : s.store.peripherals.Keeps
      (fun p p' => p.peripheralDefinitionId = p'.peripheralDefinitionId) s'.store.peripherals)
    {t : DeploymentTask} (ht : t.KnowsDefinition s) : t.KnowsDefinition s' := by
  cases t with
  | backend task =>
      cases task with
      | service task =>
          cases task with
          | api task => exact Task.KnowsDefinition.keeps h ht
          | upload | ingest => trivial
      | account => trivial
  | insertAstroplantDefinitions => trivial

/-- **One step of a request.** -/
theorem api_conforming {e : Env} {t : Task} {ts : List Task} {k : Option Task}
    (hs : s.Known ∧ s.Conforming x) (ht : t.KnowsDefinition s)
    (h : (api x).advance e t ts s = some (s', k)) :
    (s'.Known ∧ s'.Conforming x) ∧ ∀ t' ∈ k, t'.KnowsDefinition s' := by
  rcases api_advance h with ⟨rfl, rfl⟩ | ⟨n, hr, rfl⟩
  · exact ⟨hs, fun t' ht' => by cases ht'⟩
  · refine ⟨Task.tx_conforming hs ht hr, fun t' ht' => ?_⟩
    cases n with
    | inl task =>
        obtain rfl := Option.some.inj ht'
        exact Task.KnowsDefinition.next ht hr
    | inr reply => cases ht'

/-- **One step of the deployment.** -/
theorem deployment_conforming {e : BackendEnv} {t : DeploymentTask} {ts : List DeploymentTask}
    {s s' : Services} {k : Option DeploymentTask} (hs : s.store.Known ∧ s.store.Conforming x)
    (ht : t.KnowsDefinition s) (h : (deployment x strings).advance e t ts s = some (s', k)) :
    (s'.store.Known ∧ s'.store.Conforming x) ∧ (∀ t' ∈ k, t'.KnowsDefinition s')
      ∧ s.store.peripherals.Keeps
        (fun p p' => p.peripheralDefinitionId = p'.peripheralDefinitionId)
        s'.store.peripherals := by
  cases t with
  | insertAstroplantDefinitions simulation strategy =>
      obtain ⟨rfl, rfl⟩ := Prod.mk.inj (Option.some.inj h)
      rcases Tx.commit_cases (insertAstroplantDefinitions simulation strategy) s.store
        with ⟨error, hcommit⟩ | ⟨u, s₁, hrun, hcommit⟩
      · rw [hcommit]
        exact ⟨hs, (fun t' ht' => by cases ht'), .refl fun _ => rfl⟩
      · rw [hcommit]
        obtain ⟨hsame, hs₁⟩ := insertAstroplantDefinitions_conforming hrun hs
        refine ⟨hs₁, (fun t' ht' => by cases ht'), ?_⟩
        show s.store.peripherals.Keeps _ s₁.peripherals
        rw [hsame.peripherals]
        exact .refl fun _ => rfl
  | backend task =>
      obtain ⟨⟨s₁, next⟩, hbackend, heq⟩ := Option.map_eq_some_iff.mp h
      obtain ⟨rfl, rfl⟩ := Prod.mk.inj heq
      rcases backend_cases hbackend with ⟨task, store, next, rfl, hapi, rfl, rfl⟩ | ⟨hnext, hframe⟩
      · obtain ⟨hs', hnext⟩ := api_conforming hs ht hapi
        refine ⟨hs', fun t' ht' => ?_, change_definition (api_change hapi)⟩
        simp only [Option.map_map, Option.mem_map, Function.comp] at ht'
        obtain ⟨task', hmem, rfl⟩ := ht'
        exact hnext task' hmem
      · obtain ⟨users, media, rawMeasurements, aggregateMeasurements, kitLastSeen, hstore⟩ :=
          hframe
        rw [hstore]
        refine ⟨hs, fun t' ht' => ?_, .refl fun _ => rfl⟩
        obtain ⟨task', hmem, rfl⟩ := Option.mem_map.mp ht'
        rcases BackendTask.other_cases (hnext task' hmem) with ⟨_, rfl⟩ | ⟨_, rfl⟩ | ⟨_, rfl⟩ <;>
          trivial

/-- **Peripheral configurations conform to their definitions**, in every state that
a deployment reaches. -/
theorem peripherals_conform {ls : List (Sched DeploymentRequest BackendEnv)}
    {c : Conc Services DeploymentTask}
    (hrun : Run.exec (deployment x strings).step ⟨.start .empty, []⟩ ls = some c) :
    c.store.store.Conforming x := by
  have hholds : Program.Holds (fun s => s.store.Known ∧ s.store.Conforming x)
      (fun s t => t.KnowsDefinition s) c := by
    have hempty : Store.empty.Known ∧ Store.empty.Conforming x :=
      ⟨(fun d hd => by cases hd), fun p hp => by cases hp⟩
    refine Program.holds_exec _ ?_ ?_ ⟨hempty, fun t ht => by cases ht⟩ hrun
    · intro r s hs
      cases r with
      | backend request =>
          cases request with
          | service request => cases request <;> trivial
          | account => trivial
      | insertAstroplantDefinitions => trivial
    · intro e t ts s s' k hs ht hts h
      obtain ⟨hs', hnext, hkeeps⟩ := deployment_conforming hs ht h
      exact ⟨hs', hnext, fun u hu => (hts u hu).keeps hkeeps⟩
  exact hholds.1.2

end Requests

/-- Only `null` is valid, and only for the schema of `null`. -/
def nullCrates : Crates where
  decimalFromF64 _ := none
  strictlyValid
    | .object (("type", .string "null") :: _), .null => some true
    | _, _ => some false

/-- A virtual heater is added to a configuration, the configuration is cloned, and
the definitions are updated. -/
def heatedKit : List (Sched DeploymentRequest BackendEnv) :=
  [.spawn (.insertAstroplantDefinitions .yes .skip), .run 0 {},
    .spawn (.backend (.account (.createUser ⟨"ada", "", "ada@astroplant.io"⟩))),
    .run 0 {}, .run 0 {}, .run 0 {},
    .spawn (.backend (.service (.api (.createKit 1 ⟨none, none, none, none, true, true⟩)))),
    .run 0 { serial := "k1" },
    .spawn (.backend (.service (.api (.createConfiguration (some 1) "k1" (some none) none)))),
    .run 0 {}, .run 0 {},
    .spawn (.backend (.service (.api
      (.onConfiguration (some 1) 1 (.addPeripheral ⟨4, "Heater", .null⟩))))),
    .run 0 {}, .run 0 {}, .run 0 {},
    .spawn (.backend (.service (.api (.createConfiguration (some 1) "k1" none (some 1))))),
    .run 0 {}, .run 0 {}, .run 0 {},
    .spawn (.insertAstroplantDefinitions .yes .update), .run 0 {}]

theorem peripherals_conform_heatedKit :
    ∃ c, Run.exec (deployment nullCrates .ascii).step ⟨.start .empty, []⟩ heatedKit = some c
      ∧ c.store.store.peripherals.rows.map (·.peripheralDefinitionId) = [4, 4]
      ∧ c.store.store.Conforming nullCrates := by
  have hheated : (Run.exec (deployment nullCrates .ascii).step ⟨.start .empty, []⟩ heatedKit).map
      (fun c => c.store.store.peripherals.rows.map (·.peripheralDefinitionId)) = some [4, 4] := by
    decide +kernel
  obtain ⟨c, hrun, hperipherals⟩ := Option.map_eq_some_iff.mp hheated
  exact ⟨c, hrun, hperipherals, peripherals_conform hrun⟩

end AstroPlant
