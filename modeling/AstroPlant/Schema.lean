import AstroPlant.Problem
import AstroPlant.Table
import Mathlib.Data.Rat.Floor

/-!
# The database schema

One structure for each table, with all its columns, and the `Store` that holds
the tables as the migrations leave them. Primary keys and sequences are carried
by the table types. What the migrations add to that is here: which rows a
deletion takes with it, that media stop a deletion (`ON DELETE RESTRICT`), the
trigger that stamps the first activation, and the generated column.

Text columns refuse U+0000 whatever their length (`isStorable`), and bounded ones
a text of too many characters (`varchar`); decimals have a range. A value that is
refused fails its statement, and is never stored cut short. What a column may
hold beyond its type, the source checks before or not at all; there is no such
check here.
-/

namespace AstroPlant

/-- A point in time, in microseconds since the epoch (the resolution of
`timestamptz`). -/
abbrev Timestamp := Int

abbrev Uuid := BitVec 128

/-! ## Column types -/

/-- The database refuses a text with the character U+0000, as a parameter of a query
as well. -/
def isStorable (s : String) : Bool := !s.toList.contains '\x00'

theorem isStorable_iff {s : String} : isStorable s = true ↔ ∀ c ∈ s.toList, c ≠ '\x00' := by
  simp only [isStorable, Bool.not_eq_true', List.contains_eq_mem, decide_eq_false_iff_not]
  exact ⟨fun h c hc hnul => h (hnul ▸ hc), fun h hnul => h _ hnul rfl⟩

/-- Storing text as `varchar(n)`: spaces beyond the limit are cut off, anything
else beyond it is an error. -/
def varchar (n : Nat) (s : String) : Except DieselError String :=
  if s.length ≤ n then .ok s
  else if (s.toList.drop n).all (· = ' ') then .ok (String.ofList (s.toList.take n))
  else .error .databaseError

theorem varchar_of_le {n : Nat} {s : String} (h : s.length ≤ n) : varchar n s = .ok s :=
  if_pos h

/-- What is stored is the text, or as much of it as fits. -/
theorem varchar_ok {n : Nat} {s s' : String} (h : varchar n s = .ok s') :
    s' = s ∨ s'.length = n := by
  unfold varchar at h
  split at h
  · exact Or.inl (Except.ok.inj h).symm
  · rename_i hlong
    split at h
    · refine Or.inr ?_
      rw [← Except.ok.inj h, String.length_ofList, List.length_take, String.length_toList]
      omega
    · cases h

/-- Storing a number as `numeric(11, 8)`: rounded to eight decimals, half away
from zero, with at most three digits before the point. -/
def numeric (x : Rat) : Except DieselError Rat :=
  let scaled : Int := if x < 0 then -⌊-x * 10 ^ 8 + 1 / 2⌋ else ⌊x * 10 ^ 8 + 1 / 2⌋
  if scaled.natAbs < 10 ^ 11 then .ok ((scaled : Rat) / 10 ^ 8) else .error .databaseError

/-- A nullable column. -/
def nullable {α β : Type} (store : α → Except DieselError β) :
    Option α → Except DieselError (Option β)
  | none => .ok none
  | some a => (store a).map some

theorem nullable_of_fits {α : Type} {store : α → Except DieselError α} {o o' : Option α}
    (h : nullable store o = .ok o') (hfits : ∀ a ∈ o, store a = .ok a) : o' = o := by
  cases o with
  | none => exact (Except.ok.inj h).symm
  | some a =>
      rw [nullable, hfits a rfl] at h
      exact (Except.ok.inj h).symm

/-! ## Rows -/

structure User where
  id : Int
  username : String
  displayName : String
  passwordHash : String
  emailAddress : String
  useEmailAddressForGravatar : Bool
  gravatarAlternative : String
  createdAt : Timestamp
  updatedAt : Timestamp
deriving DecidableEq

structure Kit where
  id : Int
  serial : String
  passwordHash : String
  name : Option String
  description : Option String
  latitude : Option Rat
  longitude : Option Rat
  privacyPublicDashboard : Bool
  privacyShowOnMap : Bool
  createdAt : Timestamp
  updatedAt : Timestamp
deriving DecidableEq

structure KitLastSeen where
  kitId : Int
  datetimeLastSeen : Timestamp
deriving DecidableEq

structure KitMembership where
  id : Int
  userId : Int
  kitId : Int
  datetimeLinked : Timestamp
  accessSuper : Bool
  accessConfigure : Bool
deriving DecidableEq

structure KitConfiguration where
  id : Int
  kitId : Int
  description : Option String
  controllerSymbolLocation : String
  controllerSymbol : String
  controlRules : Json
  active : Bool
  firstActivatedAt : Option Timestamp
  createdAt : Timestamp
  updatedAt : Timestamp

/-- `never_used`, generated from `first_activated_at`. -/
def KitConfiguration.neverUsed (c : KitConfiguration) : Bool := c.firstActivatedAt.isNone

structure PeripheralDefinition where
  id : Int
  name : String
  description : Option String
  brand : Option String
  model : Option String
  symbolLocation : String
  symbol : String
  configurationSchema : Json
  commandSchema : Option Json

structure QuantityType where
  id : Int
  physicalQuantity : String
  physicalUnit : String
  physicalUnitSymbol : Option String
deriving DecidableEq

structure PeripheralDefinitionExpectedQuantityType where
  id : Int
  quantityTypeId : Int
  peripheralDefinitionId : Int
deriving DecidableEq

structure Peripheral where
  id : Int
  kitId : Int
  kitConfigurationId : Int
  peripheralDefinitionId : Int
  name : String
  configuration : Json

structure RawMeasurement where
  id : Uuid
  peripheralId : Int
  kitId : Int
  kitConfigurationId : Int
  quantityTypeId : Int
  value : F64
  datetime : Timestamp
deriving DecidableEq

structure AggregateMeasurement where
  id : Uuid
  peripheralId : Int
  kitId : Int
  kitConfigurationId : Int
  quantityTypeId : Int
  datetimeStart : Timestamp
  datetimeEnd : Timestamp
  values : Json

structure Media where
  id : Uuid
  peripheralId : Int
  kitId : Int
  kitConfigurationId : Int
  datetime : Timestamp
  name : String
  type : String
  metadata : Json
  size : Int

structure QueueMediaPendingDeletion where
  id : Int
  createdAt : Timestamp
  mediaId : Uuid
  mediaDatetime : Timestamp
  mediaSize : Int
deriving DecidableEq

/-! ## The store -/

structure Store where
  users : SerialTable User User.id
  kits : SerialTable Kit Kit.id
  kitLastSeen : Table KitLastSeen KitLastSeen.kitId
  kitMemberships : SerialTable KitMembership KitMembership.id
  kitConfigurations : SerialTable KitConfiguration KitConfiguration.id
  peripheralDefinitions : SerialTable PeripheralDefinition PeripheralDefinition.id
  quantityTypes : SerialTable QuantityType QuantityType.id
  peripheralDefinitionExpectedQuantityTypes :
    SerialTable PeripheralDefinitionExpectedQuantityType
      PeripheralDefinitionExpectedQuantityType.id
  peripherals : SerialTable Peripheral Peripheral.id
  rawMeasurements : Table RawMeasurement RawMeasurement.id
  aggregateMeasurements : Table AggregateMeasurement AggregateMeasurement.id
  media : Table Media Media.id
  queueMediaPendingDeletion :
    SerialTable QueueMediaPendingDeletion QueueMediaPendingDeletion.id

namespace Store

def empty : Store where
  users := .empty
  kits := .empty
  kitLastSeen := .empty
  kitMemberships := .empty
  kitConfigurations := .empty
  peripheralDefinitions := .empty
  quantityTypes := .empty
  peripheralDefinitionExpectedQuantityTypes := .empty
  peripherals := .empty
  rawMeasurements := .empty
  aggregateMeasurements := .empty
  media := .empty
  queueMediaPendingDeletion := .empty

/-! ## Deletions and their cascades -/

/-- The kits, configurations and peripherals that a deletion takes: those it
selects, and those a foreign key cascades to. -/
structure Doomed where
  kit : Kit → Bool
  configuration : KitConfiguration → Bool
  peripheral : Peripheral → Bool

/-- The closure of a selection under `ON DELETE CASCADE`, in the state the
deletion runs in. -/
def doomed (s : Store) (kit : Kit → Bool) (configuration : KitConfiguration → Bool)
    (peripheral : Peripheral → Bool) : Doomed :=
  let kitId := fun id => s.kits.rows.any fun k => kit k && k.id == id
  let configuration' := fun c => configuration c || kitId c.kitId
  let configurationId := fun id =>
    s.kitConfigurations.rows.any fun c => configuration' c && c.id == id
  { kit
    configuration := configuration'
    peripheral := fun p => peripheral p || kitId p.kitId || configurationId p.kitConfigurationId }

namespace Doomed

variable (d : Doomed) (s : Store)

def kitId (id : Int) : Bool := s.kits.rows.any fun k => d.kit k && k.id == id

def configurationId (id : Int) : Bool :=
  s.kitConfigurations.rows.any fun c => d.configuration c && c.id == id

def peripheralId (id : Int) : Bool :=
  s.peripherals.rows.any fun p => d.peripheral p && p.id == id

/-- Whether a row with these three references refers to a doomed row. -/
def refers (peripheralId kitId kitConfigurationId : Int) : Bool :=
  d.peripheralId s peripheralId || d.kitId s kitId || d.configurationId s kitConfigurationId

end Doomed

/-- The store without the doomed rows and without every row that refers to one. -/
def remove (s : Store) (d : Doomed) : Store :=
  { s with
    kits := s.kits.delete d.kit
    kitLastSeen := s.kitLastSeen.delete fun l => d.kitId s l.kitId
    kitMemberships := s.kitMemberships.delete fun m => d.kitId s m.kitId
    kitConfigurations := s.kitConfigurations.delete d.configuration
    peripherals := s.peripherals.delete d.peripheral
    rawMeasurements := s.rawMeasurements.delete fun m =>
      d.refers s m.peripheralId m.kitId m.kitConfigurationId
    aggregateMeasurements := s.aggregateMeasurements.delete fun m =>
      d.refers s m.peripheralId m.kitId m.kitConfigurationId }

/-- `DELETE` from kits, configurations or peripherals: refused when a media row
refers to a doomed row. -/
def deleteCascade (s : Store) (kit : Kit → Bool) (configuration : KitConfiguration → Bool)
    (peripheral : Peripheral → Bool) : Except DieselError Store :=
  let d := s.doomed kit configuration peripheral
  if s.media.rows.any fun m => d.refers s m.peripheralId m.kitId m.kitConfigurationId then
    .error .databaseError
  else .ok (s.remove d)

theorem deleteCascade_ok {s s' : Store} {kit : Kit → Bool}
    {configuration : KitConfiguration → Bool} {peripheral : Peripheral → Bool}
    (h : s.deleteCascade kit configuration peripheral = .ok s') :
    let d := s.doomed kit configuration peripheral
    s' = s.remove d
      ∧ ∀ m ∈ s.media, d.refers s m.peripheralId m.kitId m.kitConfigurationId = false := by
  simp only [deleteCascade] at h
  split at h
  · cases h
  · rename_i hfree
    cases h
    exact ⟨rfl, by simpa [Table.mem_def] using hfree⟩

/-- The deletion as a statement. -/
def deleteRows (kit : Kit → Bool) (configuration : KitConfiguration → Bool)
    (peripheral : Peripheral → Bool) : Tx Store DieselError Unit :=
  Tx.write fun s => (s.deleteCascade kit configuration peripheral).map fun s' => ((), s')

theorem deleteRows_ok {kit : Kit → Bool} {configuration : KitConfiguration → Bool}
    {peripheral : Peripheral → Bool} {s s' : Store} {u : Unit}
    (h : (deleteRows kit configuration peripheral).run s = .ok (u, s')) :
    let d := s.doomed kit configuration peripheral
    s' = s.remove d
      ∧ ∀ m ∈ s.media, d.refers s m.peripheralId m.kitId m.kitConfigurationId = false := by
  rw [deleteRows, Tx.run_write_ok] at h
  cases hd : s.deleteCascade kit configuration peripheral with
  | error e => simp [hd, Except.map] at h
  | ok s₁ =>
      rw [hd] at h
      cases h
      exact deleteCascade_ok hd

/-- What a surviving kit's id refers to is not doomed through that kit. -/
theorem Doomed.kitId_eq_false {d : Doomed} {s : Store} {k : Kit} (hk : k ∈ s.kits)
    (hd : d.kit k = false) : d.kitId s k.id = false := by
  simp only [Doomed.kitId, List.any_eq_false, Bool.and_eq_true, beq_iff_eq, not_and]
  intro k' hk' hkit heq
  rw [SerialTable.eq_of_key_eq hk' hk heq, hd] at hkit
  cases hkit

/-! ## Triggers -/

/-- `kit_configurations_10_set_first_activated_at` and
`kit_configurations_90_updated_at`, both before every update of the row. -/
def kitConfigurationTrigger (now : Timestamp) (c : KitConfiguration) : KitConfiguration :=
  { c with
    firstActivatedAt :=
      if c.active && c.firstActivatedAt.isNone then some now else c.firstActivatedAt
    updatedAt := now }

/-- The partial unique index: at most one active configuration per kit. The
index is checked for every row a statement writes. -/
def activeUnique (cs : List KitConfiguration) : Bool :=
  decide ((cs.filter (·.active)).map (·.kitId)).Nodup

end Store

end AstroPlant
