import AstroPlant.Attribution
import Mathlib.Data.Set.List

/-!
# Ingest stores what it is sent, however often and in whatever order

A message may be delivered more than once, and the tasks of several messages are
interleaved while they fill a cache that they share. As long as the kits and
their peripherals stay as they are, none of this shows: what is stored in the
end depends on which messages were sent, and on nothing else.

`Steady` says what stays as it is. A task then either has nothing to store or has
one row to store, which its message determines (`Measurement.row`), whether it
has found the ids in the cache or in the database (`Ingest.Found`). The invariant
is that each row in the database is that of a message which was received, and
that a message with such a row is stored or still with a task (`Ingested`). When
no task is left, the database holds exactly the rows of what was received
(`Ingested.holdsRow_iff`), and every run can be taken to such a state
(`ingests_end`).
-/

namespace AstroPlant

namespace Measurement

def id : Measurement → Uuid
  | raw m => m.id
  | aggregate m => m.id

def quantityType : Measurement → Int
  | raw m => m.quantityType
  | aggregate m => m.quantityType

/-- The row of a measurement. -/
def row (config : KitIdAndConfigId) : Measurement → StoredRow
  | raw m => .raw (rawRow m config)
  | aggregate m => .aggregate (aggregateRow m config)

/-- The peripheral belongs to the kit that sent the measurement, and the quantity
type exists; the row has the ids of the kit and of the peripheral's
configuration. -/
structure Accepted (s : Store) (m : Measurement) (config : KitIdAndConfigId) : Prop where
  owned : ∃ p ∈ s.peripherals, p.id = m.peripheral ∧ ∃ k ∈ s.kits, k.id = p.kitId
    ∧ k.serial = m.kitSerial ∧ config = ⟨k.id, p.kitConfigurationId⟩
  quantityType : ∃ q ∈ s.quantityTypes, q.id = m.quantityType

end Measurement

/-- The id that a message brought along. -/
def StoredRow.id : StoredRow → Uuid
  | raw row => row.id
  | aggregate row => row.id
  | media row => row.id

/-- The measurement is in its table. -/
def Store.HoldsRow (s : Store) : StoredRow → Prop
  | .raw row => row ∈ s.rawMeasurements
  | .aggregate row => row ∈ s.aggregateMeasurements
  | .media _ => False

theorem Measurement.row_id (config : KitIdAndConfigId) (m : Measurement) :
    (m.row config).id = m.id := by
  cases m <;> rfl

theorem Store.perm_of_holdsRow {s s' : Store} (h : ∀ row, s.HoldsRow row ↔ s'.HoldsRow row) :
    s.rawMeasurements.rows.Perm s'.rawMeasurements.rows
      ∧ s.aggregateMeasurements.rows.Perm s'.aggregateMeasurements.rows := by
  constructor
  · refine (List.perm_ext_iff_of_nodup s.rawMeasurements.nodup.of_map
      s'.rawMeasurements.nodup.of_map).mpr fun row => ?_
    exact h (.raw row)
  · refine (List.perm_ext_iff_of_nodup s.aggregateMeasurements.nodup.of_map
      s'.aggregateMeasurements.nodup.of_map).mpr fun row => ?_
    exact h (.aggregate row)

/-! ## Lookups -/

theorem getConfigAndKit_ofKit {s : Store} {peripheralId : Int} {kitSerial : String}
    {config : KitIdAndConfigId} :
    (getConfigAndKit peripheralId s).bind (·.ofKit kitSerial) = some config
      ↔ ∃ p ∈ s.peripherals, p.id = peripheralId ∧ ∃ k ∈ s.kits, k.id = p.kitId
        ∧ k.serial = kitSerial ∧ config = ⟨k.id, p.kitConfigurationId⟩ := by
  constructor
  · intro h
    obtain ⟨c, hc, hofKit⟩ := Option.bind_eq_some_iff.mp h
    unfold getConfigAndKit at hc
    split at hc
    · cases hc
    · rename_i p hp
      obtain ⟨k, hk, rfl⟩ := Option.map_eq_some_iff.mp hc
      obtain ⟨hp, hpid⟩ := SerialTable.find?_eq_some.mp hp
      obtain ⟨hk, hkid⟩ := SerialTable.find?_eq_some.mp hk
      simp only [KitAndConfigId.ofKit] at hofKit
      split at hofKit
      · rename_i hserial
        exact ⟨p, hp, hpid, k, hk, hkid, hserial, (Option.some.inj hofKit).symm⟩
      · cases hofKit
  · rintro ⟨p, hp, hpid, k, hk, hkid, hserial, rfl⟩
    have hpfind : s.peripherals.find? peripheralId = some p :=
      SerialTable.find?_eq_some.mpr ⟨hp, hpid⟩
    have hkfind : s.kits.find? p.kitId = some k := SerialTable.find?_eq_some.mpr ⟨hk, hkid⟩
    simp [getConfigAndKit, hpfind, hkfind, KitAndConfigId.ofKit, hserial]

/-- A peripheral belongs to one kit and one configuration. -/
theorem Measurement.Accepted.config_eq {s : Store} {m : Measurement}
    {config config' : KitIdAndConfigId} (h : m.Accepted s config) (h' : m.Accepted s config') :
    config = config' :=
  Option.some.inj
    ((getConfigAndKit_ofKit.mpr h.owned).symm.trans (getConfigAndKit_ofKit.mpr h'.owned))

/-! ## Tasks -/

/-- The measurement that a task may yet store. -/
def Ingest.pending : Ingest → Option Measurement
  | start raw | query raw | queried raw _ | insert raw _ => some raw
  | lastSeen _ => none

/-- What a task has read is what is there. -/
def Ingest.Found (s₀ : Store) : Ingest → Prop
  | queried raw res => res = getConfigAndKit raw.peripheral s₀
  | insert raw config =>
      (getConfigAndKit raw.peripheral s₀).bind (·.ofKit raw.kitSerial) = some config
  | _ => True

/-- The kits and what belongs to them are as they were, and what is in the cache
is what is there. -/
structure Steady (s₀ : Store) (s : Services) : Prop where
  kits : s.store.kits = s₀.kits
  kitConfigurations : s.store.kitConfigurations = s₀.kitConfigurations
  peripherals : s.store.peripherals = s₀.peripherals
  quantityTypes : s.store.quantityTypes = s₀.quantityTypes
  cache : ∀ peripheralId c, s.configCache.lookup peripheralId = some c →
    getConfigAndKit peripheralId s₀ = some c

section Steps

variable {s₀ : Store} {s s' : Services} {e : ServiceEnv} {i : Ingest} {k : Option Ingest}

theorem Steady.getConfigAndKit (hs : Steady s₀ s) (peripheralId : Int) :
    getConfigAndKit peripheralId s.store = AstroPlant.getConfigAndKit peripheralId s₀ := by
  simp only [AstroPlant.getConfigAndKit, hs.kits, hs.peripherals]

theorem Steady.measured (hs : Steady s₀ s) (peripheralId kitId kitConfigurationId
    quantityTypeId : Int) :
    s.store.measured peripheralId kitId kitConfigurationId quantityTypeId
      = s₀.measured peripheralId kitId kitConfigurationId quantityTypeId := by
  simp only [Store.measured, hs.kits, hs.kitConfigurations, hs.peripherals, hs.quantityTypes]

theorem found_of_lookup {raw : Measurement} {c : KitAndConfigId}
    (hc : getConfigAndKit raw.peripheral s₀ = some c) :
    (∀ i' ∈ Ingest.found raw c, i'.Found s₀ ∧ i'.pending = some raw)
      ∧ (Ingest.found raw c = none → ∀ config, ¬raw.Accepted s₀ config) := by
  unfold Ingest.found
  constructor
  · intro i' hi'
    obtain ⟨config, hofKit, rfl⟩ := Option.map_eq_some_iff.mp hi'
    exact ⟨Option.bind_eq_some_iff.mpr ⟨c, hc, hofKit⟩, rfl⟩
  · intro hnone config haccepted
    have hsome := getConfigAndKit_ofKit.mpr haccepted.owned
    rw [hc, Option.bind_some, Option.map_eq_none_iff.mp hnone] at hsome
    cases hsome

theorem insertRow_some {raw : Measurement} {config : KitIdAndConfigId}
    (h : Ingest.insertRow raw config s = some s') :
    (∀ row, s'.store.HoldsRow row ↔ s.store.HoldsRow row ∨ row = raw.row config)
      ∧ s.store.measured raw.peripheral config.kitId config.configId raw.quantityType = true := by
  cases raw with
  | raw m =>
      obtain ⟨store, hstore, rfl⟩ := Option.map_eq_some_iff.mp h
      simp only [Store.insertRawMeasurement] at hstore
      split at hstore
      · rename_i table hinsert
        split at hstore
        · rename_i hmeasured
          obtain rfl := Option.some.inj hstore
          refine ⟨fun row => ?_, hmeasured⟩
          cases row with
          | raw row =>
              simp only [Store.HoldsRow, Measurement.row, StoredRow.raw.injEq]
              exact Table.mem_insert? hinsert
          | aggregate row | media row => simp [Store.HoldsRow, Measurement.row]
        · cases hstore
      · cases hstore
  | aggregate m =>
      obtain ⟨store, hstore, rfl⟩ := Option.map_eq_some_iff.mp h
      simp only [Store.insertAggregateMeasurement] at hstore
      split at hstore
      · rename_i table hinsert
        split at hstore
        · rename_i hmeasured
          obtain rfl := Option.some.inj hstore
          refine ⟨fun row => ?_, hmeasured⟩
          cases row with
          | aggregate row =>
              simp only [Store.HoldsRow, Measurement.row, StoredRow.aggregate.injEq]
              exact Table.mem_insert? hinsert
          | raw row | media row => simp [Store.HoldsRow, Measurement.row]
        · cases hstore
      · cases hstore

/-- One that fails, although what it refers to is there, finds its id taken. -/
theorem insertRow_none {raw : Measurement} {config : KitIdAndConfigId}
    (h : Ingest.insertRow raw config s = none)
    (hmeasured : s.store.measured raw.peripheral config.kitId config.configId raw.quantityType
      = true) : ∃ row, s.store.HoldsRow row ∧ row.id = raw.id := by
  cases raw with
  | raw m =>
      have hnone := Option.map_eq_none_iff.mp h
      cases hinsert : s.store.rawMeasurements.insert? (rawRow m config) with
      | none =>
          obtain ⟨row, hrow, hid⟩ := Table.insert?_eq_none.mp hinsert
          exact ⟨.raw row, hrow, hid⟩
      | some table =>
          have hfits : s.store.measured (rawRow m config).peripheralId (rawRow m config).kitId
              (rawRow m config).kitConfigurationId (rawRow m config).quantityTypeId = true :=
            hmeasured
          simp [Store.insertRawMeasurement, hinsert, hfits] at hnone
  | aggregate m =>
      have hnone := Option.map_eq_none_iff.mp h
      cases hinsert : s.store.aggregateMeasurements.insert? (aggregateRow m config) with
      | none =>
          obtain ⟨row, hrow, hid⟩ := Table.insert?_eq_none.mp hinsert
          exact ⟨.aggregate row, hrow, hid⟩
      | some table =>
          have hfits : s.store.measured (aggregateRow m config).peripheralId
              (aggregateRow m config).kitId (aggregateRow m config).kitConfigurationId
              (aggregateRow m config).quantityTypeId = true :=
            hmeasured
          simp [Store.insertAggregateMeasurement, hinsert, hfits] at hnone

/-- What an insertion refers to is there if the measurement is accepted. -/
theorem measured_iff_accepted
    (hconfigurations : ∀ p ∈ s₀.peripherals, ∃ c ∈ s₀.kitConfigurations,
      c.id = p.kitConfigurationId)
    {raw : Measurement} {config : KitIdAndConfigId}
    (hfound : (getConfigAndKit raw.peripheral s₀).bind (·.ofKit raw.kitSerial) = some config) :
    s₀.measured raw.peripheral config.kitId config.configId raw.quantityType = true
      ↔ raw.Accepted s₀ config := by
  have howned := getConfigAndKit_ofKit.mp hfound
  constructor
  · intro hmeasured
    simp only [Store.measured, Bool.and_eq_true] at hmeasured
    obtain ⟨q, hq⟩ := Option.isSome_iff_exists.mp hmeasured.2
    exact ⟨howned, q, SerialTable.find?_eq_some.mp hq⟩
  · rintro ⟨⟨p, hp, hpid, k, hk, hkid, -, rfl⟩, q, hq, hqid⟩
    obtain ⟨c, hc, hcid⟩ := hconfigurations p hp
    have hpfind : s₀.peripherals.find? raw.peripheral = some p :=
      SerialTable.find?_eq_some.mpr ⟨hp, hpid⟩
    have hkfind : s₀.kits.find? k.id = some k := SerialTable.find?_eq_some.mpr ⟨hk, rfl⟩
    have hcfind : s₀.kitConfigurations.find? p.kitConfigurationId = some c :=
      SerialTable.find?_eq_some.mpr ⟨hc, hcid⟩
    have hqfind : s₀.quantityTypes.find? raw.quantityType = some q :=
      SerialTable.find?_eq_some.mpr ⟨hq, hqid⟩
    simp [Store.measured, hpfind, hkfind, hcfind, hqfind]

/-! ## One step of a task -/

/-- Everything that a task can do while the kits and what belongs to them stay as
they are: it goes on to look for its peripheral, finds it or does not, inserts its
row or fails to, and at last records when the kit was seen. -/
inductive Ingest.Settles (s₀ : Store) (s : Services) : Ingest → Services → Option Ingest → Prop
  | waits {i i' : Ingest} {raw : Measurement} (hpending : i.pending = some raw)
      (hpending' : i'.pending = some raw) (hfound : i'.Found s₀) : Settles s₀ s i s (some i')
  | finds {i : Ingest} {raw : Measurement} {c : KitAndConfigId} {s' : Services}
      (hpending : i.pending = some raw) (hc : getConfigAndKit raw.peripheral s₀ = some c)
      (hstore : s'.store = s.store)
      (hcache : ∀ peripheralId c, s'.configCache.lookup peripheralId = some c →
        getConfigAndKit peripheralId s₀ = some c) :
      Settles s₀ s i s' (Ingest.found raw c)
  | misses {raw : Measurement} (hnone : getConfigAndKit raw.peripheral s₀ = none) :
      Settles s₀ s (queried raw none) s none
  | inserts {raw : Measurement} {config : KitIdAndConfigId} {s' : Services}
      (hinsert : insertRow raw config s = some s') :
      Settles s₀ s (insert raw config) s' (some (lastSeen config))
  | conflicts {raw : Measurement} {config : KitIdAndConfigId}
      (hinsert : insertRow raw config s = none) : Settles s₀ s (insert raw config) s none
  | seen {config : KitIdAndConfigId} {s' : Services} (hcache : s'.configCache = s.configCache)
      (hrows : ∀ row, s'.store.HoldsRow row ↔ s.store.HoldsRow row) :
      Settles s₀ s (lastSeen config) s' none

theorem settles_of_advance (hs : Steady s₀ s) (hi : i.Found s₀) (h : i.advance e s = (s', k)) :
    i.Settles s₀ s s' k := by
  cases Ingest.advances_of_advance h with
  | cached hc => exact .finds rfl (hs.cache _ _ hc) rfl hs.cache
  | uncached => exact .waits rfl rfl trivial
  | queries raw => exact .waits rfl rfl (hs.getConfigAndKit raw.peripheral)
  | misses => exact .misses hi.symm
  | finds raw c =>
      refine .finds rfl hi.symm rfl fun peripheralId c' hc' => ?_
      by_cases hid : peripheralId = raw.peripheral
      · subst hid
        rw [AList.lookup_insert] at hc'
        exact hi.symm.trans hc'
      · rw [AList.lookup_insert_ne hid] at hc'
        exact hs.cache peripheralId c' hc'
  | inserts hinsert => exact .inserts hinsert
  | conflicts hinsert => exact .conflicts hinsert
  | sees hupsert =>
      obtain ⟨_, rfl⟩ := Store.upsertKitLastSeen_eq_some hupsert
      exact .seen rfl fun row => by cases row <;> exact Iff.rfl
  | forgets => exact .seen rfl fun _ => Iff.rfl

theorem steady_advance (hs : Steady s₀ s) (hi : i.Found s₀) (h : i.advance e s = (s', k)) :
    Steady s₀ s' := by
  have hcache : ∀ peripheralId c, s'.configCache.lookup peripheralId = some c →
      getConfigAndKit peripheralId s₀ = some c := by
    cases settles_of_advance hs hi h with
    | waits | misses | conflicts => exact hs.cache
    | finds _ _ _ hcache => exact hcache
    | inserts hinsert =>
        rw [(Ingest.insertRow_eq_some hinsert).2.1]
        exact hs.cache
    | seen hcache _ =>
        rw [hcache]
        exact hs.cache
  obtain ⟨_, _, _, hstore⟩ := Ingest.store_frame h
  exact ⟨(congrArg Store.kits hstore).trans hs.kits,
    (congrArg Store.kitConfigurations hstore).trans hs.kitConfigurations,
    (congrArg Store.peripherals hstore).trans hs.peripherals,
    (congrArg Store.quantityTypes hstore).trans hs.quantityTypes, hcache⟩

/-- What is left of a task still has its measurement, and has found what is
there. -/
theorem found_advance (hs : Steady s₀ s) (hi : i.Found s₀) (h : i.advance e s = (s', k)) :
    ∀ i' ∈ k, i'.Found s₀ ∧ ∀ m ∈ i'.pending, m ∈ i.pending := by
  intro i' hi'
  cases settles_of_advance hs hi h with
  | waits hpending hpending' hfound =>
      obtain rfl := Option.some.inj hi'
      refine ⟨hfound, fun m hm => ?_⟩
      rw [hpending, ← hpending']
      exact hm
  | finds hpending hc =>
      obtain ⟨hfound, hpending'⟩ := (found_of_lookup hc).1 i' hi'
      refine ⟨hfound, fun m hm => ?_⟩
      rw [hpending, ← hpending']
      exact hm
  | inserts =>
      obtain rfl := Option.some.inj hi'
      exact ⟨trivial, fun m hm => by cases hm⟩
  | misses | conflicts | seen => cases hi'

/-- A task adds the row of its measurement, if that is accepted, and nothing else. -/
theorem holdsRow_advance (hs : Steady s₀ s) (hi : i.Found s₀)
    (hconfigurations : ∀ p ∈ s₀.peripherals, ∃ c ∈ s₀.kitConfigurations,
      c.id = p.kitConfigurationId)
    (h : i.advance e s = (s', k)) (row : StoredRow) :
    (s.store.HoldsRow row → s'.store.HoldsRow row)
      ∧ (s'.store.HoldsRow row → s.store.HoldsRow row
        ∨ ∃ m ∈ i.pending, ∃ config, m.Accepted s₀ config ∧ row = m.row config) := by
  cases settles_of_advance hs hi h with
  | waits | misses | conflicts => exact ⟨id, Or.inl⟩
  | finds _ _ hstore =>
      rw [hstore]
      exact ⟨id, Or.inl⟩
  | @inserts raw config _ hinsert =>
      obtain ⟨hrows, hmeasured⟩ := insertRow_some hinsert
      rw [hs.measured] at hmeasured
      refine ⟨fun hrow => (hrows row).mpr (Or.inl hrow), fun hrow => ?_⟩
      rcases (hrows row).mp hrow with hrow | rfl
      · exact Or.inl hrow
      · have haccepted := (measured_iff_accepted hconfigurations hi).mp hmeasured
        exact Or.inr ⟨raw, rfl, config, haccepted, rfl⟩
  | seen _ hrows => exact ⟨(hrows row).mpr, fun hrow => Or.inl ((hrows row).mp hrow)⟩

/-- A task that no longer has its measurement has stored it, has found its id
taken, or has found that it is not accepted. -/
theorem settled_advance (hs : Steady s₀ s) (hi : i.Found s₀)
    (hconfigurations : ∀ p ∈ s₀.peripherals, ∃ c ∈ s₀.kitConfigurations,
      c.id = p.kitConfigurationId)
    (h : i.advance e s = (s', k)) {m : Measurement} (hm : m ∈ i.pending)
    (hgone : ∀ i' ∈ k, m ∉ i'.pending) {config : KitIdAndConfigId}
    (haccepted : m.Accepted s₀ config) :
    s'.store.HoldsRow (m.row config) ∨ ∃ row, s.store.HoldsRow row ∧ row.id = m.id := by
  -- what is inserted is the row of its own peripheral
  have hinsertion : ∀ {config'}, (Ingest.insert m config').Found s₀ → config = config' ∧
      s.store.measured m.peripheral config'.kitId config'.configId m.quantityType = true := by
    intro config' hfound
    have hsome := getConfigAndKit_ofKit.mpr haccepted.owned
    obtain rfl := Option.some.inj (hsome.symm.trans hfound)
    rw [hs.measured]
    exact ⟨rfl, (measured_iff_accepted hconfigurations hfound).mpr haccepted⟩
  cases settles_of_advance hs hi h with
  | waits hpending hpending' =>
      refine absurd ?_ (hgone _ rfl)
      rw [hpending', ← hpending]
      exact hm
  | @finds _ raw c _ hpending hc =>
      obtain rfl := Option.some.inj (hpending.symm.trans hm)
      obtain ⟨hsome, hnone⟩ := found_of_lookup hc
      cases hfound : Ingest.found raw c with
      | none => exact absurd haccepted (hnone hfound config)
      | some i' => exact absurd (hsome i' hfound).2 (hgone i' hfound)
  | misses hnone =>
      obtain rfl := Option.some.inj hm
      have hsome := getConfigAndKit_ofKit.mpr haccepted.owned
      rw [hnone] at hsome
      cases hsome
  | inserts hinsert =>
      obtain rfl := Option.some.inj hm
      obtain ⟨rfl, -⟩ := hinsertion hi
      exact Or.inl (((insertRow_some hinsert).1 _).mpr (Or.inr rfl))
  | conflicts hinsert =>
      obtain rfl := Option.some.inj hm
      exact Or.inr (insertRow_none hinsert (hinsertion hi).2)
  | seen => cases hm

end Steps

/-! ## Runs -/

/-- A run of ingest alone, without failures: messages arrive, and their tasks
take steps. -/
def Sched.ingests : Sched ServiceRequest ServiceEnv → Bool
  | .spawn (.measurement _) | .run _ _ => true
  | _ => false

/-- The messages that arrive in a run, as often as they arrive. -/
def received (ls : List (Sched ServiceRequest ServiceEnv)) : List Measurement :=
  ls.filterMap fun
    | .spawn (.measurement raw) => some raw
    | _ => none

/-- Messages with the same id are the same message. -/
def Identified (ms : List Measurement) : Prop := ∀ m ∈ ms, ∀ m' ∈ ms, m.id = m'.id → m = m'

/-- What holds after messages have arrived: their rows, and no others, are there
or have a task that will insert them. -/
structure Ingested (s₀ : Store) (ms : List Measurement) (c : Conc Services ServiceTask) :
    Prop where
  steady : Steady s₀ c.store
  tasks : ∀ t ∈ c.tasks, ∃ i, t = .ingest i ∧ i.Found s₀ ∧ ∀ m ∈ i.pending, m ∈ ms
  rows : ∀ row, c.store.store.HoldsRow row →
    ∃ m ∈ ms, ∃ config, m.Accepted s₀ config ∧ row = m.row config
  settled : ∀ m ∈ ms, (∃ i, .ingest i ∈ c.tasks ∧ m ∈ i.pending)
    ∨ ∀ config, m.Accepted s₀ config → c.store.store.HoldsRow (m.row config)

theorem received_append (ls ls' : List (Sched ServiceRequest ServiceEnv)) :
    received (ls ++ ls') = received ls ++ received ls' :=
  List.filterMap_append

theorem Identified.of_append {ms ms' : List Measurement} (h : Identified (ms ++ ms')) :
    Identified ms :=
  fun m hm m' hm' => h m (List.mem_append_left _ hm) m' (List.mem_append_left _ hm')

theorem ingested_start {store : Store} (hraw : store.rawMeasurements.rows = [])
    (haggregate : store.aggregateMeasurements.rows = []) :
    Ingested store [] ⟨Services.start store, []⟩ where
  steady := ⟨rfl, rfl, rfl, rfl, fun _ _ hc => by cases hc⟩
  tasks := fun t ht => by cases ht
  rows row hrow := by
    cases row with
    | raw row =>
        have hrow : row ∈ store.rawMeasurements.rows := hrow
        rw [hraw] at hrow
        cases hrow
    | aggregate row =>
        have hrow : row ∈ store.aggregateMeasurements.rows := hrow
        rw [haggregate] at hrow
        cases hrow
    | media row => cases hrow
  settled := fun m hm => by cases hm

section Runs

variable {x : Crates} {s₀ : Store} {ms : List Measurement} {c c' : Conc Services ServiceTask}

theorem ingested_spawn (h : Ingested s₀ ms c) (raw : Measurement) :
    Ingested s₀ (ms ++ [raw]) { c with tasks := c.tasks ++ [.ingest (.start raw)] } where
  steady := h.steady
  tasks t ht := by
    rcases List.mem_append.mp ht with ht | ht
    · obtain ⟨i, rfl, hfound, hpending⟩ := h.tasks t ht
      exact ⟨i, rfl, hfound, fun m hm => List.mem_append_left _ (hpending m hm)⟩
    · obtain rfl := List.mem_singleton.mp ht
      refine ⟨_, rfl, trivial, fun m hm => ?_⟩
      obtain rfl := Option.some.inj hm
      exact List.mem_append_right _ (List.mem_singleton_self _)
  rows row hrow := by
    obtain ⟨m, hm, hrow⟩ := h.rows row hrow
    exact ⟨m, List.mem_append_left _ hm, hrow⟩
  settled m hm := by
    rcases List.mem_append.mp hm with hm | hm
    · refine (h.settled m hm).imp_left ?_
      rintro ⟨i, hi, hpending⟩
      exact ⟨i, List.mem_append_left _ hi, hpending⟩
    · obtain rfl := List.mem_singleton.mp hm
      exact Or.inl ⟨_, List.mem_append_right _ (List.mem_singleton_self _), rfl⟩

/-- A task takes a step. That an id is taken is no loss: what has it is the row
of the same message. -/
theorem ingested_run (hidentified : Identified ms)
    (hconfigurations : ∀ p ∈ s₀.peripherals, ∃ c ∈ s₀.kitConfigurations,
      c.id = p.kitConfigurationId)
    (h : Ingested s₀ ms c) {e : ServiceEnv} {j : Nat} {i : Ingest} {s' : Services}
    {k : Option Ingest} (hj : c.tasks[j]? = some (.ingest i))
    (hadv : i.advance e c.store = (s', k)) :
    Ingested s₀ ms ⟨s', Program.replace c.tasks j (k.map .ingest)⟩ := by
  obtain ⟨_, heq, hfound, hpending⟩ := h.tasks _ (List.mem_of_getElem? hj)
  cases heq
  have hrows := holdsRow_advance h.steady hfound hconfigurations hadv
  refine ⟨steady_advance h.steady hfound hadv, fun t ht => ?_, fun row hrow => ?_,
    fun m hm => ?_⟩
  · rcases Program.mem_replace ht with ht | ht
    · obtain ⟨i', hi', rfl⟩ := Option.mem_map.mp ht
      obtain ⟨hfound', hpending'⟩ := found_advance h.steady hfound hadv i' hi'
      exact ⟨i', rfl, hfound', fun m hm => hpending m (hpending' m hm)⟩
    · exact h.tasks t (List.mem_of_mem_eraseIdx ht)
  · rcases (hrows row).2 hrow with hrow | ⟨m, hm, config, haccepted, rfl⟩
    · exact h.rows row hrow
    · exact ⟨m, hpending m hm, config, haccepted, rfl⟩
  · rcases h.settled m hm with ⟨i', hi', hm'⟩ | hstored
    · rcases List.mem_cons.mp ((Program.perm_of_getElem? hj).mem_iff.mp hi') with heq | hother
      · cases heq
        by_cases hgone : ∀ i' ∈ k, m ∉ i'.pending
        · refine Or.inr fun config haccepted => ?_
          rcases settled_advance h.steady hfound hconfigurations hadv hm' hgone haccepted with
            hstored | ⟨row, hrow, hid⟩
          · exact hstored
          · obtain ⟨m', hm', config', haccepted', rfl⟩ := h.rows row hrow
            obtain rfl := hidentified m' hm' m hm ((m'.row_id config').symm.trans hid)
            rw [haccepted.config_eq haccepted']
            exact (hrows _).1 hrow
        · push Not at hgone
          obtain ⟨i', hi', hm'⟩ := hgone
          refine Or.inl ⟨i', ?_, hm'⟩
          rw [show k = some i' from hi']
          exact Program.mem_replace_self hj
      · exact Or.inl ⟨i', Program.mem_replace_of_mem hother, hm'⟩
    · exact Or.inr fun config haccepted => (hrows _).1 (hstored config haccepted)

theorem ingested_step {l : Sched ServiceRequest ServiceEnv}
    (hidentified : Identified (ms ++ received [l]))
    (hconfigurations : ∀ p ∈ s₀.peripherals, ∃ c ∈ s₀.kitConfigurations,
      c.id = p.kitConfigurationId)
    (h : Ingested s₀ ms c) (hl : l.ingests = true)
    (hstep : (services x).step c l = some c') : Ingested s₀ (ms ++ received [l]) c' := by
  rcases Program.step_cases hstep with ⟨r, rfl, rfl⟩ | ⟨j, e, t, s', k, rfl, hj, hadv, rfl⟩
    | ⟨_, _, rfl, -⟩
  · cases r with
    | measurement raw => exact ingested_spawn h raw
    | api | media => cases hl
  · obtain ⟨i, rfl, -⟩ := h.tasks t (List.mem_of_getElem? hj)
    obtain ⟨next, hnext, rfl⟩ := services_ingest hadv
    have hreceived : ms ++ received [.run j e] = ms := List.append_nil ms
    rw [hreceived] at hidentified ⊢
    exact ingested_run hidentified hconfigurations h hj hnext
  · cases hl

theorem ingested_exec {store : Store} {ls : List (Sched ServiceRequest ServiceEnv)}
    (hraw : store.rawMeasurements.rows = []) (haggregate : store.aggregateMeasurements.rows = [])
    (hconfigurations : ∀ p ∈ store.peripherals, ∃ c ∈ store.kitConfigurations,
      c.id = p.kitConfigurationId)
    (hingests : ∀ l ∈ ls, l.ingests = true) (hidentified : Identified (received ls))
    (hrun : Run.exec (services x).step ⟨Services.start store, []⟩ ls = some c) :
    Ingested store (received ls) c := by
  refine Run.exec_labels (I := fun past c => (∀ l ∈ past, l.ingests = true) →
    Identified (received past) → Ingested store (received past) c) ?_
    (fun _ _ => ingested_start hraw haggregate) hrun hingests hidentified
  intro past c l c' h hstep hall hidentified
  rw [received_append] at hidentified ⊢
  exact ingested_step hidentified hconfigurations
    (h (fun l hl => hall l (List.mem_append_left _ hl)) hidentified.of_append)
    (hall l (List.mem_append_right _ (List.mem_singleton_self _))) hstep

/-- Once all tasks have ended, the rows are those of the accepted messages. -/
theorem Ingested.holdsRow_iff (h : Ingested s₀ ms c) (hdone : c.tasks = []) (row : StoredRow) :
    c.store.store.HoldsRow row
      ↔ ∃ m ∈ ms, ∃ config, m.Accepted s₀ config ∧ row = m.row config := by
  refine ⟨h.rows row, ?_⟩
  rintro ⟨m, hm, config, haccepted, rfl⟩
  rcases h.settled m hm with ⟨i, hi, -⟩ | hstored
  · rw [hdone] at hi
    cases hi
  · exact hstored config haccepted

/-- An accepted message has one row, and one that is not accepted has none. -/
theorem Ingested.accepted_iff (h : Ingested s₀ ms c) (hidentified : Identified ms)
    (hdone : c.tasks = []) {m : Measurement} (hm : m ∈ ms) :
    (∃ config, m.Accepted s₀ config)
      ↔ ∃! row, c.store.store.HoldsRow row ∧ row.id = m.id := by
  constructor
  · rintro ⟨config, haccepted⟩
    refine ⟨m.row config, ⟨(h.holdsRow_iff hdone _).mpr ⟨m, hm, config, haccepted, rfl⟩,
      m.row_id config⟩, ?_⟩
    rintro row ⟨hrow, hid⟩
    obtain ⟨m', hm', config', haccepted', rfl⟩ := (h.holdsRow_iff hdone row).mp hrow
    obtain rfl := hidentified m' hm' m hm ((m'.row_id config').symm.trans hid)
    rw [haccepted.config_eq haccepted']
  · rintro ⟨row, ⟨hrow, hid⟩, -⟩
    obtain ⟨m', hm', config', haccepted', rfl⟩ := (h.holdsRow_iff hdone row).mp hrow
    obtain rfl := hidentified m' hm' m hm ((m'.row_id config').symm.trans hid)
    exact ⟨config', haccepted'⟩

/-! ## Runs end -/

/-- How many steps a task still takes, at most. -/
def Ingest.remaining : Ingest → Nat
  | start _ => 5
  | query _ => 4
  | queried _ _ => 3
  | insert _ _ => 2
  | lastSeen _ => 1

theorem Ingest.remaining_pos (i : Ingest) : 0 < i.remaining := by
  cases i <;> exact Nat.succ_pos _

theorem remaining_found {raw : Measurement} {f : KitAndConfigId} {i : Ingest}
    (h : i ∈ Ingest.found raw f) : i.remaining = 2 := by
  obtain ⟨config, -, rfl⟩ := Option.map_eq_some_iff.mp h
  rfl

theorem remaining_advance {s s' : Services} {e : ServiceEnv} {i : Ingest} {k : Option Ingest}
    (h : i.advance e s = (s', k)) : ∀ i' ∈ k, i'.remaining < i.remaining := by
  intro i' hi'
  cases Ingest.advances_of_advance h with
  | cached =>
      have := remaining_found hi'
      show i'.remaining < 5
      omega
  | finds =>
      have := remaining_found hi'
      show i'.remaining < 3
      omega
  | uncached =>
      cases hi'
      show 4 < 5
      omega
  | queries =>
      cases hi'
      show 3 < 4
      omega
  | inserts =>
      cases hi'
      show 1 < 2
      omega
  | misses | conflicts | sees | forgets => cases hi'

theorem exec_ingests (x : Crates) (e : ServiceEnv) (n : Nat) {is : List Ingest} {s : Services}
    (hn : (is.map Ingest.remaining).sum ≤ n) :
    ∃ ls c, (∀ l ∈ ls, l = .run 0 e)
      ∧ Run.exec (services x).step ⟨s, is.map .ingest⟩ ls = some c ∧ c.tasks = [] := by
  induction n generalizing is s with
  | zero =>
      cases is with
      | nil => exact ⟨[], _, by simp, rfl, rfl⟩
      | cons i is =>
          have := i.remaining_pos
          simp only [List.map_cons, List.sum_cons] at hn
          omega
  | succ n ih =>
      cases is with
      | nil => exact ⟨[], _, by simp, rfl, rfl⟩
      | cons i is =>
          obtain ⟨⟨s', k⟩, hadv⟩ : ∃ r, i.advance e s = r := ⟨_, rfl⟩
          have hsum : ((k.toList ++ is).map Ingest.remaining).sum ≤ n := by
            have hless := remaining_advance hadv
            simp only [List.map_cons, List.sum_cons] at hn
            cases k with
            | none =>
                have := i.remaining_pos
                show (is.map Ingest.remaining).sum ≤ n
                omega
            | some i' =>
                have := hless i' rfl
                show i'.remaining + (is.map Ingest.remaining).sum ≤ n
                omega
          obtain ⟨ls, c, hls, hexec, hdone⟩ := ih (s := s') hsum
          have hstep : (services x).step ⟨s, (i :: is).map .ingest⟩ (.run 0 e)
              = some ⟨s', (k.toList ++ is).map .ingest⟩ := by
            simp only [Program.step, services, List.map_cons, List.getElem?_cons_zero, hadv]
            cases k <;> rfl
          refine ⟨.run 0 e :: ls, c, ?_, Run.exec_cons.mpr ⟨_, hstep, hexec⟩, hdone⟩
          intro l hl
          rcases List.mem_cons.mp hl with rfl | hl
          · rfl
          · exact hls l hl

/-- However far the tasks of a run have come, they can all be run to their ends. -/
theorem ingests_end {store : Store} {ls : List (Sched ServiceRequest ServiceEnv)}
    (e : ServiceEnv) (hraw : store.rawMeasurements.rows = [])
    (haggregate : store.aggregateMeasurements.rows = [])
    (hconfigurations : ∀ p ∈ store.peripherals, ∃ c ∈ store.kitConfigurations,
      c.id = p.kitConfigurationId)
    (hingests : ∀ l ∈ ls, l.ingests = true) (hidentified : Identified (received ls))
    (hrun : Run.exec (services x).step ⟨Services.start store, []⟩ ls = some c) :
    ∃ rest c', (∀ l ∈ rest, l = .run 0 e)
      ∧ Run.exec (services x).step ⟨Services.start store, []⟩ (ls ++ rest) = some c'
      ∧ c'.tasks = [] := by
  have h := ingested_exec hraw haggregate hconfigurations hingests hidentified hrun
  obtain ⟨is, his⟩ : c.tasks ∈ Set.range (List.map ServiceTask.ingest) := by
    rw [Set.range_list_map]
    intro t ht
    obtain ⟨i, rfl, -⟩ := h.tasks t ht
    exact ⟨i, rfl⟩
  obtain ⟨rest, c', hrest, hexec, hdone⟩ := @exec_ingests x e _ is c.store le_rfl
  rw [his] at hexec
  exact ⟨rest, c', hrest, Run.exec_append.mpr ⟨c, hrun, hexec⟩, hdone⟩

end Runs

/-- Two runs of ingest over one database, without failures, in which the same
messages arrive: in any order, any number of times and with any interleaving of
their tasks. When all tasks have ended, the two have stored the same rows, which
are one row for each accepted message. -/
theorem ingested_alike (x : Crates) {store : Store}
    {ls ls' : List (Sched ServiceRequest ServiceEnv)} {c c' : Conc Services ServiceTask}
    (hraw : store.rawMeasurements.rows = [])
    (haggregate : store.aggregateMeasurements.rows = [])
    (hconfigurations : ∀ p ∈ store.peripherals, ∃ c ∈ store.kitConfigurations,
      c.id = p.kitConfigurationId)
    (hingests : ∀ l ∈ ls, l.ingests = true) (hingests' : ∀ l ∈ ls', l.ingests = true)
    (hidentified : Identified (received ls)) (hsame : ∀ m, m ∈ received ls ↔ m ∈ received ls')
    (hrun : Run.exec (services x).step ⟨Services.start store, []⟩ ls = some c)
    (hrun' : Run.exec (services x).step ⟨Services.start store, []⟩ ls' = some c')
    (hdone : c.tasks = []) (hdone' : c'.tasks = []) :
    c.store.store.rawMeasurements.rows.Perm c'.store.store.rawMeasurements.rows
      ∧ c.store.store.aggregateMeasurements.rows.Perm c'.store.store.aggregateMeasurements.rows
      ∧ (∀ row, c.store.store.HoldsRow row
        ↔ ∃ m ∈ received ls, ∃ config, m.Accepted store config ∧ row = m.row config)
      ∧ ∀ m ∈ received ls, (∃ config, m.Accepted store config)
        ↔ ∃! row, c.store.store.HoldsRow row ∧ row.id = m.id := by
  have hidentified' : Identified (received ls') := fun m hm m' hm' =>
    hidentified m ((hsame m).mpr hm) m' ((hsame m').mpr hm')
  have h := ingested_exec hraw haggregate hconfigurations hingests hidentified hrun
  have h' := ingested_exec hraw haggregate hconfigurations hingests' hidentified' hrun'
  have hrows : ∀ row, c.store.store.HoldsRow row ↔ c'.store.store.HoldsRow row := by
    intro row
    rw [h.holdsRow_iff hdone, h'.holdsRow_iff hdone']
    simp only [hsame]
  obtain ⟨hperm, hperm'⟩ := Store.perm_of_holdsRow hrows
  exact ⟨hperm, hperm', h.holdsRow_iff hdone, fun m hm => h.accepted_iff hidentified hdone hm⟩

/-- One of two measurements is of another kit's peripheral; the other one is
delivered twice. -/
def deliveredTwice : List (Sched ServiceRequest ServiceEnv) :=
  [.spawn (temperature "k2" 2), .spawn (temperature "k1" 1), .spawn (temperature "k1" 1),
    .run 1 {}, .run 0 {}, .run 1 {}, .run 0 {}, .run 0 {}, .run 0 {}, .run 1 {}, .run 0 {},
    .run 0 {}, .run 0 {}]

/-- The same measurements, once each and in the other order. -/
def deliveredOnce : List (Sched ServiceRequest ServiceEnv) :=
  [.spawn (temperature "k1" 1), .run 0 {}, .run 0 {}, .run 0 {}, .run 0 {}, .run 0 {},
    .spawn (temperature "k2" 2), .run 0 {}]

theorem ingested_alike_deliveredTwice :
    ∃ c c', Run.exec (services plainCrates).step ⟨.start twoKits, []⟩ deliveredTwice = some c
      ∧ Run.exec (services plainCrates).step ⟨.start twoKits, []⟩ deliveredOnce = some c'
      ∧ c.tasks.length = 0 ∧ c'.tasks.length = 0
      ∧ c.store.store.rawMeasurements.rows.map (fun m => (m.id, m.kitId)) = [(1, 1)]
      ∧ c.store.store.rawMeasurements.rows.Perm c'.store.store.rawMeasurements.rows := by
  have hrun : ∃ c c', Run.exec (services plainCrates).step ⟨.start twoKits, []⟩ deliveredTwice
        = some c
      ∧ Run.exec (services plainCrates).step ⟨.start twoKits, []⟩ deliveredOnce = some c'
      ∧ c.tasks.length = 0 ∧ c'.tasks.length = 0
      ∧ c.store.store.rawMeasurements.rows.map (fun m => (m.id, m.kitId)) = [(1, 1)] :=
    ⟨_, _, rfl, rfl, rfl, rfl, rfl⟩
  obtain ⟨c, c', hrun, hrun', hdone, hdone', hrows⟩ := hrun
  have hconfigurations : ∀ p ∈ twoKits.peripherals, ∃ c ∈ twoKits.kitConfigurations,
      c.id = p.kitConfigurationId := by
    intro p hp
    obtain rfl := List.mem_singleton.mp hp
    exact ⟨_, List.mem_singleton.mpr rfl, rfl⟩
  have hidentified : Identified (received deliveredTwice) := by
    intro m hm m' hm' hid
    simp only [received, deliveredTwice, temperature, List.filterMap_cons, List.filterMap_nil,
      List.mem_cons, List.not_mem_nil, or_false, or_self] at hm hm'
    rcases hm with rfl | rfl <;> rcases hm' with rfl | rfl
    · rfl
    · cases hid
    · cases hid
    · rfl
  have hsame : ∀ m, m ∈ received deliveredTwice ↔ m ∈ received deliveredOnce := by
    intro m
    simp only [received, deliveredTwice, deliveredOnce, temperature, List.filterMap_cons,
      List.filterMap_nil, List.mem_cons, List.not_mem_nil, or_false, or_self]
    exact or_comm
  obtain ⟨hperm, -⟩ := ingested_alike plainCrates rfl rfl hconfigurations (by decide) (by decide)
    hidentified hsame hrun hrun' (List.length_eq_zero_iff.mp hdone)
    (List.length_eq_zero_iff.mp hdone')
  exact ⟨c, c', hrun, hrun', hdone, hdone', hrows, hperm⟩

end AstroPlant
