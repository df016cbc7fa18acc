import AstroPlant.Messages

/-!
# Measurement ingest: the statements and the cache

Ingest stores a measurement only if the peripheral it names belongs to the kit
that sent it, and under the ids found in the peripheral's row. The lookup goes
through a cache that is never invalidated.

The statements have no transaction around them, and their failures are of one
kind: a key or a reference that the schema refuses. So a statement is a partial
function of the store, and for each there is one lemma on what it did. That the
cache and the database say the same of a peripheral is not stated here; it
follows where it is needed from the ownership columns, which do not change.
-/

namespace AstroPlant

/-! ## Statements -/

namespace Store

/-- The rows that a measurement refers to. -/
def measured (s : Store) (peripheralId kitId kitConfigurationId quantityTypeId : Int) : Bool :=
  (s.peripherals.find? peripheralId).isSome && (s.kits.find? kitId).isSome
    && (s.kitConfigurations.find? kitConfigurationId).isSome
    && (s.quantityTypes.find? quantityTypeId).isSome

/-- `INSERT_RAW_MEASUREMENT`, or nothing when the statement fails. -/
def insertRawMeasurement (m : RawMeasurement) (s : Store) : Option Store :=
  match s.rawMeasurements.insert? m with
  | some rawMeasurements =>
      if s.measured m.peripheralId m.kitId m.kitConfigurationId m.quantityTypeId then
        some { s with rawMeasurements }
      else none
  | none => none

/-- `INSERT_AGGREGATE_MEASUREMENT`, or nothing when the statement fails. -/
def insertAggregateMeasurement (m : AggregateMeasurement) (s : Store) : Option Store :=
  match s.aggregateMeasurements.insert? m with
  | some aggregateMeasurements =>
      if s.measured m.peripheralId m.kitId m.kitConfigurationId m.quantityTypeId then
        some { s with aggregateMeasurements }
      else none
  | none => none

/-- `UPSERT_KIT_LAST_SEEN`, or nothing when the statement fails. -/
def upsertKitLastSeen (kitId : Int) (now : Timestamp) (s : Store) : Option Store :=
  if (s.kits.find? kitId).isSome then
    match s.kitLastSeen.insert? ⟨kitId, now⟩ with
    | some kitLastSeen => some { s with kitLastSeen }
    | none =>
        some { s with
          kitLastSeen := s.kitLastSeen.update (·.kitId = kitId)
            (fun l => { l with datetimeLastSeen := now }) fun _ => rfl }
  else none

theorem measured_peripheral {s : Store} {peripheralId kitId kitConfigurationId quantityTypeId : Int}
    (h : s.measured peripheralId kitId kitConfigurationId quantityTypeId = true) :
    (s.peripherals.find? peripheralId).isSome = true ∧ (s.kits.find? kitId).isSome = true := by
  simp only [measured, Bool.and_eq_true] at h
  exact ⟨h.1.1.1, h.1.1.2⟩

theorem insertRawMeasurement_eq_some {m : RawMeasurement} {s s' : Store}
    (h : s.insertRawMeasurement m = some s') :
    s.measured m.peripheralId m.kitId m.kitConfigurationId m.quantityTypeId = true
      ∧ ∃ rawMeasurements, s' = { s with rawMeasurements } := by
  unfold insertRawMeasurement at h
  split at h
  · split at h
    · rename_i hm
      exact ⟨hm, _, (Option.some.inj h).symm⟩
    · cases h
  · cases h

theorem insertAggregateMeasurement_eq_some {m : AggregateMeasurement} {s s' : Store}
    (h : s.insertAggregateMeasurement m = some s') :
    s.measured m.peripheralId m.kitId m.kitConfigurationId m.quantityTypeId = true
      ∧ ∃ aggregateMeasurements, s' = { s with aggregateMeasurements } := by
  unfold insertAggregateMeasurement at h
  split at h
  · split at h
    · rename_i hm
      exact ⟨hm, _, (Option.some.inj h).symm⟩
    · cases h
  · cases h

theorem upsertKitLastSeen_eq_some {kitId : Int} {now : Timestamp} {s s' : Store}
    (h : s.upsertKitLastSeen kitId now = some s') :
    ∃ kitLastSeen, s' = { s with kitLastSeen } := by
  unfold upsertKitLastSeen at h
  split at h
  · split at h <;> exact ⟨_, (Option.some.inj h).symm⟩
  · cases h

end Store

/-! ## The cache -/

structure KitAndConfigId where
  kitSerial : String
  kitId : Int
  configId : Int
deriving DecidableEq

structure KitIdAndConfigId where
  kitId : Int
  configId : Int
deriving DecidableEq

/-- By the peripheral's id. -/
abbrev ConfigCache := AList fun _ : Int => KitAndConfigId

/-- `GET_CONFIG_AND_KIT`. -/
def getConfigAndKit (peripheralId : Int) (s : Store) : Option KitAndConfigId :=
  match s.peripherals.find? peripheralId with
  | none => none
  | some p => (s.kits.find? p.kitId).map fun k => ⟨k.serial, k.id, p.kitConfigurationId⟩

/-- The ids, provided that the kit is the stated one. -/
def KitAndConfigId.ofKit (c : KitAndConfigId) (kitSerial : String) : Option KitIdAndConfigId :=
  if c.kitSerial = kitSerial then some ⟨c.kitId, c.configId⟩ else none

/-! ## Rows -/

/-- What the two kinds of measurement have in common. -/
inductive Measurement where
  | raw (raw : Mqtt.RawMeasurement)
  | aggregate (raw : Mqtt.AggregateMeasurement)

namespace Measurement

def peripheral : Measurement → Int
  | raw m => m.peripheral
  | aggregate m => m.peripheral

def kitSerial : Measurement → String
  | raw m => m.kitSerial
  | aggregate m => m.kitSerial

end Measurement

/-- The row that `insert_raw` stores. -/
def rawRow (raw : Mqtt.RawMeasurement) (config : KitIdAndConfigId) : RawMeasurement where
  id := raw.id
  peripheralId := raw.peripheral
  kitId := config.kitId
  kitConfigurationId := config.configId
  quantityTypeId := raw.quantityType
  value := raw.value
  datetime := raw.datetime

/-- `serde_json::to_value` of the values. -/
def valuesToJson (values : Mqtt.AggregateValues) : Json :=
  .object (values.entries.map fun e => (e.1, .ofF64 e.2))

/-- The row that `insert_aggregate` stores. -/
def aggregateRow (raw : Mqtt.AggregateMeasurement) (config : KitIdAndConfigId) :
    AggregateMeasurement where
  id := raw.id
  peripheralId := raw.peripheral
  kitId := config.kitId
  kitConfigurationId := config.configId
  quantityTypeId := raw.quantityType
  datetimeStart := raw.datetimeStart
  datetimeEnd := raw.datetimeEnd
  values := valuesToJson raw.values

end AstroPlant
