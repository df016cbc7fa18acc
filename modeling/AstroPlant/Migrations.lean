import AstroPlant.Schema
import AstroPlant.Alter
import Mathlib.Order.Bounds.Basic

/-!
# The migrations to activation timestamps

Three migrations of one day replace the stored flag `never_used` by a column that
is generated from the time of the first activation, and then estimate when
configurations, kits and users were created. The flag of the old schema is what
the first migration fills the timestamp by, under a trigger that the same
migration has installed; so the flag and the generated column have to agree on
every row that the old schema allows.

Each migration is a function from tables to tables, written as its statements
are: a column is added, filled from grouped minima, and constrained. What a row
becomes is computed per row (`upRow_eq`, `upConfiguration_eq`, `upKit_eq`,
`upUser_eq`), and the minima are below each member of their groups. The theorem
compares the flag that the old row had with the generated column of the new one,
for every row that the old constraints allow.
-/

namespace AstroPlant

/-! ## The old schema -/

namespace Schema2020

structure Kit where
  id : Int
  serial : String
  passwordHash : String
  name : Option String
  description : Option String
  latitude : Option Rat
  longitude : Option Rat
  privacyPublicDashboard : Bool
  privacyShowOnMap : Bool

structure KitConfiguration where
  id : Int
  kitId : Int
  description : Option String
  controllerSymbolLocation : String
  controllerSymbol : String
  controlRules : Json
  active : Bool
  neverUsed : Bool

structure User where
  id : Int
  username : String
  displayName : String
  passwordHash : String
  emailAddress : String
  useEmailAddressForGravatar : Bool
  gravatarAlternative : String

/-- The tables that the migrations read or write, with the check that no
configuration is both active and never used. -/
structure Database where
  kits : Table Kit (·.id)
  kitConfigurations : Table KitConfiguration (·.id)
  users : Table User (·.id)
  kitMemberships : Table KitMembership (·.id)
  rawMeasurements : Table RawMeasurement (·.id)
  activeAndNeverUsed : ∀ c ∈ kitConfigurations, ¬(c.active = true ∧ c.neverUsed = true)

end Schema2020

/-! ## The activation timestamp -/

namespace AddActivationTimestamp

structure KitConfiguration extends Schema2020.KitConfiguration where
  firstActivatedAt : Option Timestamp

def setFirstActivatedAt (now : Timestamp) (c : KitConfiguration) : KitConfiguration :=
  { c with
    firstActivatedAt :=
      if c.active && c.firstActivatedAt.isNone then some now else c.firstActivatedAt }

/-- `ALTER TABLE ... ADD first_activated_at`. -/
def add (c : Schema2020.KitConfiguration) : KitConfiguration :=
  { toKitConfiguration := c, firstActivatedAt := none }

/-- Every configuration that is not `never_used` is given the time of the
migration. -/
def setNow (now : Timestamp) (c : KitConfiguration) : Option KitConfiguration :=
  if c.neverUsed then none else some { c with firstActivatedAt := some now }

/-- And then the time of its earliest known measurement, if any. -/
def setEarliest (measured : List (Int × Timestamp)) (c : KitConfiguration) :
    Option KitConfiguration :=
  if c.neverUsed then none
  else (groupMin measured c.id).map fun earliest => { c with firstActivatedAt := some earliest }

def measured (rawMeasurements : Table RawMeasurement (·.id)) : List (Int × Timestamp) :=
  rawMeasurements.rows.map fun m => (m.kitConfigurationId, m.datetime)

/-- What becomes of a row: the column, and the two updates under the trigger. -/
def upRow (now : Timestamp) (measured : List (Int × Timestamp)) (c : Schema2020.KitConfiguration) :
    KitConfiguration :=
  Table.updateWith (setFirstActivatedAt now) (setEarliest measured)
    (Table.updateWith (setFirstActivatedAt now) (setNow now) (add c))

/-- The flag of the old schema and the timestamp agree, and the timestamp of a
used configuration is its earliest measurement's. -/
theorem upRow_eq {now : Timestamp} {measured : List (Int × Timestamp)}
    (c : Schema2020.KitConfiguration) :
    upRow now measured c
      = { toKitConfiguration := c
          firstActivatedAt :=
            if c.neverUsed then none else some ((groupMin measured c.id).getD now) } := by
  cases hused : c.neverUsed with
  | true => simp [upRow, Table.updateWith, setNow, setEarliest, add, hused]
  | false =>
      cases hmin : groupMin measured c.id with
      | none =>
          simp [upRow, Table.updateWith, setNow, setEarliest, setFirstActivatedAt, add, hused, hmin]
      | some earliest =>
          simp [upRow, Table.updateWith, setNow, setEarliest, setFirstActivatedAt, add, hused, hmin]

theorem upRow_id {now : Timestamp} {measured : List (Int × Timestamp)}
    (c : Schema2020.KitConfiguration) : (upRow now measured c).id = c.id := by
  rw [upRow_eq]

def up (now : Timestamp) (db : Schema2020.Database) : Table KitConfiguration (·.id) :=
  db.kitConfigurations.alter (upRow now (measured db.rawMeasurements)) upRow_id

end AddActivationTimestamp

/-! ## The generated column -/

namespace NeverUsedGenerated

/-- `never_used` is dropped and added again, generated. -/
structure KitConfiguration where
  id : Int
  kitId : Int
  description : Option String
  controllerSymbolLocation : String
  controllerSymbol : String
  controlRules : Json
  active : Bool
  firstActivatedAt : Option Timestamp

def upRow (c : AddActivationTimestamp.KitConfiguration) : KitConfiguration where
  id := c.id
  kitId := c.kitId
  description := c.description
  controllerSymbolLocation := c.controllerSymbolLocation
  controllerSymbol := c.controllerSymbol
  controlRules := c.controlRules
  active := c.active
  firstActivatedAt := c.firstActivatedAt

def up (kitConfigurations : Table AddActivationTimestamp.KitConfiguration (·.id)) :
    Table KitConfiguration (·.id) :=
  kitConfigurations.alter upRow fun _ => rfl

end NeverUsedGenerated

/-! ## The timestamps of configurations, kits and users -/

namespace AddTimestamps

/-- `bump_updated_at`, on kits. -/
def bumpKit (now : Timestamp) (k : Kit) : Kit := { k with updatedAt := now }

/-- `bump_updated_at`, on users. -/
def bumpUser (now : Timestamp) (u : User) : User := { u with updatedAt := now }

def addToConfiguration (now : Timestamp) (c : NeverUsedGenerated.KitConfiguration) :
    KitConfiguration where
  id := c.id
  kitId := c.kitId
  description := c.description
  controllerSymbolLocation := c.controllerSymbolLocation
  controllerSymbol := c.controllerSymbol
  controlRules := c.controlRules
  active := c.active
  firstActivatedAt := c.firstActivatedAt
  createdAt := now
  updatedAt := now

def addToKit (now : Timestamp) (k : Schema2020.Kit) : Kit where
  id := k.id
  serial := k.serial
  passwordHash := k.passwordHash
  name := k.name
  description := k.description
  latitude := k.latitude
  longitude := k.longitude
  privacyPublicDashboard := k.privacyPublicDashboard
  privacyShowOnMap := k.privacyShowOnMap
  createdAt := now
  updatedAt := now

def addToUser (now : Timestamp) (u : Schema2020.User) : User where
  id := u.id
  username := u.username
  displayName := u.displayName
  passwordHash := u.passwordHash
  emailAddress := u.emailAddress
  useEmailAddressForGravatar := u.useEmailAddressForGravatar
  gravatarAlternative := u.gravatarAlternative
  createdAt := now
  updatedAt := now

/-- A configuration was created when it was first activated, if it was. -/
def upConfiguration (now : Timestamp) (c : NeverUsedGenerated.KitConfiguration) :
    KitConfiguration :=
  Table.updateWith (Store.kitConfigurationTrigger now)
    (fun c => c.firstActivatedAt.map fun t => { c with createdAt := t }) (addToConfiguration now c)

/-- A kit was created with its earliest configuration, if it has one. -/
def upKit (now : Timestamp) (configured : List (Int × Timestamp)) (k : Schema2020.Kit) : Kit :=
  Table.updateWith (bumpKit now)
    (fun k => (groupMin configured k.id).map fun t => { k with createdAt := t }) (addToKit now k)

/-- A user was created with the earliest kit that they are a member of, if any. -/
def upUser (now : Timestamp) (joined : List (Int × Timestamp)) (u : Schema2020.User) : User :=
  Table.updateWith (bumpUser now)
    (fun u => (groupMin joined u.id).map fun t => { u with createdAt := t }) (addToUser now u)

theorem upConfiguration_eq {now : Timestamp} (c : NeverUsedGenerated.KitConfiguration) :
    upConfiguration now c
      = { addToConfiguration now c with createdAt := c.firstActivatedAt.getD now } := by
  cases hfirst : c.firstActivatedAt with
  | none => simp [upConfiguration, Table.updateWith, addToConfiguration, hfirst]
  | some t =>
      simp [upConfiguration, Table.updateWith, addToConfiguration, Store.kitConfigurationTrigger,
        hfirst]

theorem upKit_eq {now : Timestamp} {configured : List (Int × Timestamp)} (k : Schema2020.Kit) :
    upKit now configured k
      = { addToKit now k with createdAt := (groupMin configured k.id).getD now } := by
  have hid : (addToKit now k).id = k.id := rfl
  rw [upKit, Table.updateWith, hid]
  cases groupMin configured k.id <;> rfl

theorem upUser_eq {now : Timestamp} {joined : List (Int × Timestamp)} (u : Schema2020.User) :
    upUser now joined u
      = { addToUser now u with createdAt := (groupMin joined u.id).getD now } := by
  have hid : (addToUser now u).id = u.id := rfl
  rw [upUser, Table.updateWith, hid]
  cases groupMin joined u.id <;> rfl

theorem upKit_createdAt_le {now t : Timestamp} {configured : List (Int × Timestamp)}
    {k : Schema2020.Kit} (h : (k.id, t) ∈ configured) : (upKit now configured k).createdAt ≤ t := by
  obtain ⟨earliest, hmin, hle⟩ := groupMin_le h
  rw [upKit_eq]
  show (groupMin configured k.id).getD now ≤ t
  rw [hmin]
  exact hle

/-- A user is no younger than what they are grouped with. -/
theorem upUser_createdAt_le {now t : Timestamp} {joined : List (Int × Timestamp)}
    {u : Schema2020.User} (h : (u.id, t) ∈ joined) : (upUser now joined u).createdAt ≤ t := by
  obtain ⟨earliest, hmin, hle⟩ := groupMin_le h
  rw [upUser_eq]
  show (groupMin joined u.id).getD now ≤ t
  rw [hmin]
  exact hle

def configured (kitConfigurations : Table KitConfiguration (·.id)) : List (Int × Timestamp) :=
  kitConfigurations.rows.map fun c => (c.kitId, c.createdAt)

/-- `kits k INNER JOIN kit_memberships km ON k.id = km.kit_id`: the user and the
time of the kit. -/
def joined (kits : Table Kit (·.id)) (kitMemberships : Table KitMembership (·.id)) :
    List (Int × Timestamp) :=
  kits.rows.flatMap fun k =>
    (kitMemberships.rows.filter (k.id = ·.kitId)).map fun km => (km.userId, k.createdAt)

theorem mem_configured {kitConfigurations : Table KitConfiguration (·.id)} {c : KitConfiguration}
    (hc : c ∈ kitConfigurations) : (c.kitId, c.createdAt) ∈ configured kitConfigurations :=
  List.mem_map_of_mem (f := fun c : KitConfiguration => (c.kitId, c.createdAt)) hc

theorem mem_joined {kits : Table Kit (·.id)} {kitMemberships : Table KitMembership (·.id)}
    {k : Kit} {km : KitMembership} (hk : k ∈ kits) (hkm : km ∈ kitMemberships)
    (h : km.kitId = k.id) : (km.userId, k.createdAt) ∈ joined kits kitMemberships := by
  refine List.mem_flatMap.mpr ⟨k, hk, List.mem_map.mpr ⟨km, List.mem_filter.mpr ⟨hkm, ?_⟩, rfl⟩⟩
  exact decide_eq_true h.symm

end AddTimestamps

/-! ## The migrations in order -/

/-- The tables of the old schema after the migrations. -/
structure MigratedDatabase where
  kits : Table Kit (·.id)
  kitConfigurations : Table KitConfiguration (·.id)
  users : Table User (·.id)
  kitMemberships : Table KitMembership (·.id)
  rawMeasurements : Table RawMeasurement (·.id)

namespace MigratedDatabase

variable (activationTime timestampTime : Timestamp) (db : Schema2020.Database)

/-- Each migration has its own transaction and so its own time. -/
def upKitConfigurations : Table KitConfiguration (·.id) :=
  (NeverUsedGenerated.up (AddActivationTimestamp.up activationTime db)).alter
    (AddTimestamps.upConfiguration timestampTime)
    fun c => by rw [AddTimestamps.upConfiguration_eq]; rfl

def upKits : Table Kit (·.id) :=
  db.kits.alter
    (AddTimestamps.upKit timestampTime
      (AddTimestamps.configured (upKitConfigurations activationTime timestampTime db)))
    fun k => by rw [AddTimestamps.upKit_eq]; rfl

def upUsers : Table User (·.id) :=
  db.users.alter
    (AddTimestamps.upUser timestampTime
      (AddTimestamps.joined (upKits activationTime timestampTime db) db.kitMemberships))
    fun u => by rw [AddTimestamps.upUser_eq]; rfl

def up : MigratedDatabase where
  kits := upKits activationTime timestampTime db
  kitConfigurations := upKitConfigurations activationTime timestampTime db
  users := upUsers activationTime timestampTime db
  kitMemberships := db.kitMemberships
  rawMeasurements := db.rawMeasurements

theorem mem_upKits {k : Kit} (h : k ∈ upKits activationTime timestampTime db) :
    ∃ k₀ ∈ db.kits, AddTimestamps.upKit timestampTime
      (AddTimestamps.configured (upKitConfigurations activationTime timestampTime db)) k₀ = k :=
  Table.mem_alter.mp h

theorem mem_upUsers {u : User} (h : u ∈ upUsers activationTime timestampTime db) :
    ∃ u₀ ∈ db.users, AddTimestamps.upUser timestampTime
      (AddTimestamps.joined (upKits activationTime timestampTime db) db.kitMemberships) u₀ = u :=
  Table.mem_alter.mp h

theorem upKitConfigurations_rows :
    (upKitConfigurations activationTime timestampTime db).rows
      = db.kitConfigurations.rows.map fun c => AddTimestamps.upConfiguration timestampTime
          (NeverUsedGenerated.upRow (AddActivationTimestamp.upRow activationTime
            (AddActivationTimestamp.measured db.rawMeasurements) c)) := by
  show (((db.kitConfigurations.rows.map _).map NeverUsedGenerated.upRow).map _) = _
  rw [List.map_map, List.map_map]
  rfl

end MigratedDatabase

/-- What the migrations make of a configuration: its columns stay, the generated
flag is the stored one, and the times are those of its measurements where it has
any. -/
structure KeepsActivation (rawMeasurements : Table RawMeasurement (·.id))
    (c : Schema2020.KitConfiguration) (c' : KitConfiguration) : Prop where
  id : c'.id = c.id
  kitId : c'.kitId = c.kitId
  description : c'.description = c.description
  controllerSymbolLocation : c'.controllerSymbolLocation = c.controllerSymbolLocation
  controllerSymbol : c'.controllerSymbol = c.controllerSymbol
  controlRules : c'.controlRules = c.controlRules
  active : c'.active = c.active
  neverUsed : c'.neverUsed = c.neverUsed
  activated : c.neverUsed = false → c'.firstActivatedAt.isSome = true
  earliest : c.neverUsed = false → (∃ m ∈ rawMeasurements, m.kitConfigurationId = c.id) →
    ∃ t, c'.firstActivatedAt = some t
      ∧ IsLeast {t | ∃ m ∈ rawMeasurements, m.kitConfigurationId = c.id ∧ m.datetime = t} t
  created : ∀ t ∈ c'.firstActivatedAt, c'.createdAt ≤ t

theorem AddActivationTimestamp.mem_measured {rawMeasurements : Table RawMeasurement (·.id)}
    {id : Int} {t : Timestamp} :
    (id, t) ∈ measured rawMeasurements
      ↔ ∃ m ∈ rawMeasurements, m.kitConfigurationId = id ∧ m.datetime = t := by
  simp [measured, Table.mem_def]

theorem AddActivationTimestamp.groupMin_measured {rawMeasurements : Table RawMeasurement (·.id)}
    {id : Int} (h : ∃ m ∈ rawMeasurements, m.kitConfigurationId = id) :
    ∃ t, groupMin (measured rawMeasurements) id = some t
      ∧ IsLeast {t | ∃ m ∈ rawMeasurements, m.kitConfigurationId = id ∧ m.datetime = t} t := by
  obtain ⟨m, hm, hid⟩ := h
  obtain ⟨t, ht, -⟩ := groupMin_le (mem_measured.mpr ⟨m, hm, hid, rfl⟩)
  obtain ⟨hmem, hle⟩ := groupMin_eq_some.mp ht
  exact ⟨t, ht, mem_measured.mp hmem, fun w hw => hle w (mem_measured.mpr hw)⟩

theorem keepsActivation_up {activationTime timestampTime : Timestamp}
    {rawMeasurements : Table RawMeasurement (·.id)} (c : Schema2020.KitConfiguration) :
    KeepsActivation rawMeasurements c (AddTimestamps.upConfiguration timestampTime
      (NeverUsedGenerated.upRow (AddActivationTimestamp.upRow activationTime
        (AddActivationTimestamp.measured rawMeasurements) c))) := by
  rw [AddTimestamps.upConfiguration_eq, AddActivationTimestamp.upRow_eq]
  constructor
  case neverUsed =>
    cases hused : c.neverUsed <;>
      simp [KitConfiguration.neverUsed, AddTimestamps.addToConfiguration, NeverUsedGenerated.upRow]
  case activated =>
    intro hused
    simp [AddTimestamps.addToConfiguration, NeverUsedGenerated.upRow, hused]
  case earliest =>
    intro hused hmeasured
    obtain ⟨t, ht, hleast⟩ := AddActivationTimestamp.groupMin_measured hmeasured
    refine ⟨t, ?_, hleast⟩
    simp [AddTimestamps.addToConfiguration, NeverUsedGenerated.upRow, hused, ht]
  case created =>
    -- the time of creation was set to the time of the first activation
    intro t ht
    have hfirst : (if c.neverUsed = true then none
        else some ((groupMin (AddActivationTimestamp.measured rawMeasurements) c.id).getD
          activationTime)) = some t := ht
    show Option.getD (if c.neverUsed = true then none else some _) timestampTime ≤ t
    rw [hfirst]
    exact le_refl t
  all_goals rfl

/-- The columns that users and kits had before. -/
structure KeepsKit (k : Schema2020.Kit) (k' : Kit) : Prop where
  id : k'.id = k.id
  serial : k'.serial = k.serial
  passwordHash : k'.passwordHash = k.passwordHash
  name : k'.name = k.name
  description : k'.description = k.description
  latitude : k'.latitude = k.latitude
  longitude : k'.longitude = k.longitude
  privacyPublicDashboard : k'.privacyPublicDashboard = k.privacyPublicDashboard
  privacyShowOnMap : k'.privacyShowOnMap = k.privacyShowOnMap

structure KeepsUser (u : Schema2020.User) (u' : User) : Prop where
  id : u'.id = u.id
  username : u'.username = u.username
  displayName : u'.displayName = u.displayName
  passwordHash : u'.passwordHash = u.passwordHash
  emailAddress : u'.emailAddress = u.emailAddress
  useEmailAddressForGravatar : u'.useEmailAddressForGravatar = u.useEmailAddressForGravatar
  gravatarAlternative : u'.gravatarAlternative = u.gravatarAlternative

/-- The history that the new database tells of the old one: row by row, and in the
order of the times of creation. -/
structure PreservesHistory (db : Schema2020.Database) (db' : MigratedDatabase) : Prop where
  configurations : List.Forall₂ (KeepsActivation db.rawMeasurements)
    db.kitConfigurations.rows db'.kitConfigurations.rows
  kits : List.Forall₂ KeepsKit db.kits.rows db'.kits.rows
  users : List.Forall₂ KeepsUser db.users.rows db'.users.rows
  kitMemberships : db'.kitMemberships = db.kitMemberships
  rawMeasurements : db'.rawMeasurements = db.rawMeasurements
  kitBeforeConfiguration : ∀ k ∈ db'.kits, ∀ c ∈ db'.kitConfigurations, c.kitId = k.id →
    k.createdAt ≤ c.createdAt
  userBeforeKit : ∀ u ∈ db'.users, ∀ m ∈ db'.kitMemberships, ∀ k ∈ db'.kits,
    m.userId = u.id → m.kitId = k.id → u.createdAt ≤ k.createdAt

/-- **The migrations preserve the activation history**, from every state of the
old schema. -/
theorem migrations_preserve_history (activationTime timestampTime : Timestamp)
    (db : Schema2020.Database) :
    PreservesHistory db (MigratedDatabase.up activationTime timestampTime db) where
  configurations := by
    show List.Forall₂ _ _
      (MigratedDatabase.upKitConfigurations activationTime timestampTime db).rows
    rw [MigratedDatabase.upKitConfigurations_rows, List.forall₂_map_right_iff]
    exact List.forall₂_same.mpr fun c _ => keepsActivation_up c
  kits := by
    refine List.forall₂_map_right_iff.mpr (List.forall₂_same.mpr fun k _ => ?_)
    rw [AddTimestamps.upKit_eq]
    constructor <;> rfl
  users := by
    refine List.forall₂_map_right_iff.mpr (List.forall₂_same.mpr fun u _ => ?_)
    rw [AddTimestamps.upUser_eq]
    constructor <;> rfl
  kitMemberships := rfl
  rawMeasurements := rfl
  kitBeforeConfiguration := by
    intro k hk c hc hkit
    obtain ⟨k₀, -, rfl⟩ := MigratedDatabase.mem_upKits _ _ _ hk
    have hid : c.kitId = k₀.id := by rwa [AddTimestamps.upKit_eq] at hkit
    exact AddTimestamps.upKit_createdAt_le (hid ▸ AddTimestamps.mem_configured hc)
  userBeforeKit := by
    intro u hu m hm k hk huser hkit
    obtain ⟨u₀, -, rfl⟩ := MigratedDatabase.mem_upUsers _ _ _ hu
    have hid : m.userId = u₀.id := by rwa [AddTimestamps.upUser_eq] at huser
    exact AddTimestamps.upUser_createdAt_le (hid ▸ AddTimestamps.mem_joined hk hm hkit)

end AstroPlant
