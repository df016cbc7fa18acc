import AstroPlant.Api
import AstroPlant.Ingest

/-!
# The services together

The HTTP API, the upload of media and the ingest of measurements run over one
database. Each of their tasks is suspended wherever the source awaits, and any
other task may run there. Beside the database there are the object store, the
cache of the ingest service, and the history of stored rows: each row with the
message that it was stored for and the database as it was when the row was
stored.

A step of one of the services is a step of the whole, which the others see from
then on. Each may fault where it awaits the database. The store of objects is
changed by whole objects: a `put` that fails leaves nothing behind, and the part
of an object that a failing disk may leave is not modelled.
-/

namespace AstroPlant

/-! ## State -/

/-- A row that a message of a kit led to. -/
inductive StoredRow where
  | raw (row : RawMeasurement)
  | aggregate (row : AggregateMeasurement)
  | media (row : Media)

namespace StoredRow

def peripheralId : StoredRow → Int
  | raw row => row.peripheralId
  | aggregate row => row.peripheralId
  | media row => row.peripheralId

def kitId : StoredRow → Int
  | raw row => row.kitId
  | aggregate row => row.kitId
  | media row => row.kitId

def kitConfigurationId : StoredRow → Int
  | raw row => row.kitConfigurationId
  | aggregate row => row.kitConfigurationId
  | media row => row.kitConfigurationId

def isMedia : StoredRow → Bool
  | media _ => true
  | _ => false

end StoredRow

/-- A message of a kit that asks for a row. -/
inductive Received where
  | measurement (raw : Measurement)
  | media (media : Mqtt.Media)

namespace Received

/-- The peripheral that the message names. -/
def peripheral : Received → Int
  | measurement raw => raw.peripheral
  | media m => m.peripheral

/-- The serial on whose topic it came. -/
def kitSerial : Received → String
  | measurement raw => raw.kitSerial
  | media m => m.kitSerial

end Received

structure Origin where
  row : StoredRow
  message : Received
  store : Store

def Origin.kitSerial (o : Origin) : String := o.message.kitSerial

structure Services where
  store : Store
  objects : AList fun _ : String => List UInt8
  configCache : ConfigCache
  origins : List Origin

/-- The services start over a database. -/
def Services.start (store : Store) : Services where
  store
  objects := ∅
  configCache := ∅
  origins := []

/-! ## Uploading media -/

def hexDigit (n : Nat) : Char := "0123456789abcdef".toList.getD n '0'

/-- `id.hyphenated().to_string()`. -/
def hyphenated (id : Uuid) : String :=
  let digits := (List.range 32).map fun i => hexDigit (id.toNat / 16 ^ (31 - i) % 16)
  let group := fun start n => String.ofList ((digits.drop start).take n)
  "-".intercalate [group 0 8, group 8 4, group 12 4, group 16 4, group 20 12]

/-- `upload_media` at its awaits. -/
inductive Upload where
  | start (media : Mqtt.Media)
  | put (media : Mqtt.Media) (peripheral : Peripheral)
  | insert (media : Mqtt.Media) (peripheral : Peripheral)

/-- The row that `upload_media` inserts: everything but the owner is the kit's
to say, and the owner is that of the peripheral. -/
def newMedia (media : Mqtt.Media) (peripheral : Peripheral) : NewMedia where
  id := media.id
  peripheralId := peripheral.id
  kitId := peripheral.kitId
  kitConfigurationId := peripheral.kitConfigurationId
  datetime := media.datetime
  name := media.name
  type := media.type
  metadata := media.metadata
  size := media.data.length

/-- What the environment decides in a step: what it decides for the API, and
whether the object store accepts an object. -/
structure ServiceEnv extends Env where
  putOk : Bool := true

namespace Upload

/-- The object store takes all bytes of an object or none. (A local one may be left
with a part of them when it fails.) -/
def advance (e : ServiceEnv) (s : Services) : Upload → Services × Option Upload
  | start media =>
      -- the size does not fit the column
      if 2 ^ 63 ≤ media.data.length then (s, none)
      else (s, (Peripheral.byId media.peripheral s.store).map (put media))
  | put media peripheral =>
      -- a failed upload is only logged
      if e.putOk then
        ({ s with
            objects := s.objects.insert (media.kitSerial ++ "/" ++ hyphenated media.id)
              media.data },
          some (insert media peripheral))
      else (s, some (insert media peripheral))
  | insert media peripheral =>
      match (newMedia media peripheral).create.run s.store with
      | .ok (row, store) =>
          ({ s with
              store
              origins := s.origins ++ [⟨.media row, .media media, s.store⟩] }, none)
      -- errors are ignored
      | .error _ => (s, none)

end Upload

/-! ## Ingesting measurements -/

/-- `insert_raw` and `insert_aggregate` at their awaits: before the lookup,
with the query for the ids under way, with its result, with the insertion under
way, and with the upsert under way. -/
inductive Ingest where
  | start (raw : Measurement)
  | query (raw : Measurement)
  | queried (raw : Measurement) (res : Option KitAndConfigId)
  | insert (raw : Measurement) (config : KitIdAndConfigId)
  | lastSeen (config : KitIdAndConfigId)

namespace Ingest

/-- What `config_and_kit` returns for an entry of the cache, and how the caller
goes on: a measurement of another kit is ignored. -/
def found (raw : Measurement) (c : KitAndConfigId) : Option Ingest :=
  (c.ofKit raw.kitSerial).map (insert raw)

def insertRow (raw : Measurement) (config : KitIdAndConfigId) (s : Services) :
    Option Services :=
  match raw with
  | .raw m =>
      (s.store.insertRawMeasurement (rawRow m config)).map fun store =>
        { s with
          store
          origins := s.origins ++ [⟨.raw (rawRow m config), .measurement raw, s.store⟩] }
  | .aggregate m =>
      (s.store.insertAggregateMeasurement (aggregateRow m config)).map fun store =>
        { s with
          store
          origins := s.origins
            ++ [⟨.aggregate (aggregateRow m config), .measurement raw, s.store⟩] }

def advance (e : ServiceEnv) (s : Services) : Ingest → Services × Option Ingest
  | start raw =>
      match s.configCache.lookup raw.peripheral with
      | some c => (s, found raw c)
      | none => (s, some (query raw))
  | query raw => (s, some (queried raw (getConfigAndKit raw.peripheral s.store)))
  | queried _ none => (s, none)
  | queried raw (some c) =>
      ({ s with configCache := s.configCache.insert raw.peripheral c }, found raw c)
  | insert raw config =>
      match insertRow raw config s with
      | some s' => (s', some (lastSeen config))
      | none => (s, none)
  | lastSeen config =>
      match s.store.upsertKitLastSeen config.kitId e.now with
      | some store => ({ s with store }, none)
      | none => (s, none)

end Ingest

/-! ## The program -/

inductive ServiceRequest where
  | api (request : Request)
  | media (media : Mqtt.Media)
  | measurement (raw : Measurement)

inductive ServiceTask where
  | api (task : Task)
  | upload (upload : Upload)
  | ingest (ingest : Ingest)

/-- Every step may fault: a request, an upload or an ingest ends when the
database fails it. -/
def services (x : Crates) : Program Services ServiceRequest ServiceEnv ServiceTask where
  entry
    | .api request => .api (.start request)
    | .media media => .upload (.start media)
    | .measurement raw => .ingest (.start raw)
  advance e t _ s :=
    match t with
    | .api task =>
        ((api x).advance e.toEnv task [] s.store).map fun r =>
          ({ s with store := r.1 }, r.2.map .api)
    | .upload upload =>
        let r := upload.advance e s
        some (r.1, r.2.map .upload)
    | .ingest ingest =>
        let r := ingest.advance e s
        some (r.1, r.2.map .ingest)
  faulty _ := true

theorem services_api {x : Crates} {e : ServiceEnv} {task : Task} {ts : List ServiceTask}
    {s s' : Services} {k : Option ServiceTask}
    (h : (services x).advance e (.api task) ts s = some (s', k)) :
    ∃ store next, (api x).advance e.toEnv task [] s.store = some (store, next)
      ∧ s' = { s with store } ∧ k = next.map .api := by
  have hmap : ((api x).advance e.toEnv task [] s.store).map
      (fun r => ({ s with store := r.1 }, r.2.map ServiceTask.api)) = some (s', k) := h
  obtain ⟨⟨store, next⟩, hr, heq⟩ := Option.map_eq_some_iff.mp hmap
  obtain ⟨rfl, rfl⟩ := Prod.mk.inj heq
  exact ⟨store, next, hr, rfl, rfl⟩

theorem services_upload {x : Crates} {e : ServiceEnv} {u : Upload} {ts : List ServiceTask}
    {s s' : Services} {k : Option ServiceTask}
    (h : (services x).advance e (.upload u) ts s = some (s', k)) :
    ∃ next, u.advance e s = (s', next) ∧ k = next.map .upload := by
  obtain ⟨rfl, rfl⟩ := Prod.mk.inj (Option.some.inj h)
  exact ⟨_, rfl, rfl⟩

theorem services_ingest {x : Crates} {e : ServiceEnv} {i : Ingest} {ts : List ServiceTask}
    {s s' : Services} {k : Option ServiceTask}
    (h : (services x).advance e (.ingest i) ts s = some (s', k)) :
    ∃ next, i.advance e s = (s', next) ∧ k = next.map .ingest := by
  obtain ⟨rfl, rfl⟩ := Prod.mk.inj (Option.some.inj h)
  exact ⟨_, rfl, rfl⟩

/-- Everything that an upload can do in one step: the state after it, and what is
left of the upload. -/
inductive Upload.Advances (e : ServiceEnv) (s : Services) :
    Upload → Services → Option Upload → Prop
  | oversized {media : Mqtt.Media} (hsize : 2 ^ 63 ≤ media.data.length) :
      Advances e s (start media) s none
  | looksUp {media : Mqtt.Media} (hsize : ¬ 2 ^ 63 ≤ media.data.length) :
      Advances e s (start media) s
        ((Peripheral.byId media.peripheral s.store).map (put media))
  | puts {media : Mqtt.Media} {peripheral : Peripheral} (hput : e.putOk = true) :
      Advances e s (put media peripheral)
        { s with
          objects := s.objects.insert (media.kitSerial ++ "/" ++ hyphenated media.id) media.data }
        (some (insert media peripheral))
  | putFails {media : Mqtt.Media} {peripheral : Peripheral} (hput : ¬ e.putOk = true) :
      Advances e s (put media peripheral) s (some (insert media peripheral))
  | inserts {media : Mqtt.Media} {peripheral : Peripheral} {row : Media} {store : Store}
      (hrun : (newMedia media peripheral).create.run s.store = .ok (row, store)) :
      Advances e s (insert media peripheral)
        { s with store, origins := s.origins ++ [⟨.media row, .media media, s.store⟩] } none
  | insertFails {media : Mqtt.Media} {peripheral : Peripheral} {error : DieselError}
      (hrun : (newMedia media peripheral).create.run s.store = .error error) :
      Advances e s (insert media peripheral) s none

theorem Upload.advances_of_advance {e : ServiceEnv} {s s' : Services} {u : Upload}
    {k : Option Upload} (h : u.advance e s = (s', k)) : u.Advances e s s' k := by
  cases u with
  | start media =>
      simp only [advance] at h
      split at h
      · rename_i hsize
        cases h
        exact .oversized hsize
      · rename_i hsize
        cases h
        exact .looksUp hsize
  | put media peripheral =>
      simp only [advance] at h
      split at h
      · rename_i hput
        cases h
        exact .puts hput
      · rename_i hput
        cases h
        exact .putFails hput
  | insert media peripheral =>
      simp only [advance] at h
      split at h
      · rename_i row store hrun
        cases h
        exact .inserts hrun
      · rename_i error hrun
        cases h
        exact .insertFails hrun

/-- An upload leaves the store as it is, or it has come to its insertion and
adds its row. -/
theorem Upload.store_cases {e : ServiceEnv} {s s' : Services} {u : Upload} {k : Option Upload}
    (h : u.advance e s = (s', k)) :
    s'.store = s.store
      ∨ ∃ media peripheral table, u = insert media peripheral
        ∧ s.store.media.insert? (newMedia media peripheral).row = some table
        ∧ s'.store = { s.store with media := table } := by
  cases advances_of_advance h with
  | oversized | looksUp | puts | putFails | insertFails => exact Or.inl rfl
  | @inserts media peripheral _ _ hrun =>
      obtain ⟨-, -, -, table, hins, rfl⟩ := NewMedia.create_ok hrun
      exact Or.inr ⟨media, peripheral, table, rfl, hins, rfl⟩

/-- Everything that an ingest can do in one step: the state after it, and what is
left of the ingest. -/
inductive Ingest.Advances (e : ServiceEnv) (s : Services) :
    Ingest → Services → Option Ingest → Prop
  | cached {raw : Measurement} {c : KitAndConfigId}
      (hc : s.configCache.lookup raw.peripheral = some c) :
      Advances e s (start raw) s (found raw c)
  | uncached {raw : Measurement} (hnone : s.configCache.lookup raw.peripheral = none) :
      Advances e s (start raw) s (some (query raw))
  | queries (raw : Measurement) :
      Advances e s (query raw) s (some (queried raw (getConfigAndKit raw.peripheral s.store)))
  | misses (raw : Measurement) : Advances e s (queried raw none) s none
  | finds (raw : Measurement) (c : KitAndConfigId) :
      Advances e s (queried raw (some c))
        { s with configCache := s.configCache.insert raw.peripheral c } (found raw c)
  | inserts {raw : Measurement} {config : KitIdAndConfigId} {s' : Services}
      (hinsert : insertRow raw config s = some s') :
      Advances e s (insert raw config) s' (some (lastSeen config))
  | conflicts {raw : Measurement} {config : KitIdAndConfigId}
      (hinsert : insertRow raw config s = none) : Advances e s (insert raw config) s none
  | sees {config : KitIdAndConfigId} {store : Store}
      (hupsert : s.store.upsertKitLastSeen config.kitId e.now = some store) :
      Advances e s (lastSeen config) { s with store } none
  | forgets {config : KitIdAndConfigId}
      (hupsert : s.store.upsertKitLastSeen config.kitId e.now = none) :
      Advances e s (lastSeen config) s none

theorem Ingest.advances_of_advance {e : ServiceEnv} {s s' : Services} {i : Ingest}
    {k : Option Ingest} (h : i.advance e s = (s', k)) : i.Advances e s s' k := by
  cases i with
  | start raw =>
      simp only [advance] at h
      split at h
      · rename_i c hc
        cases h
        exact .cached hc
      · rename_i hnone
        cases h
        exact .uncached hnone
  | query raw =>
      cases h
      exact .queries raw
  | queried raw res =>
      cases res with
      | none =>
          cases h
          exact .misses raw
      | some c =>
          cases h
          exact .finds raw c
  | insert raw config =>
      simp only [advance] at h
      split at h
      · rename_i s₁ hinsert
        cases h
        exact .inserts hinsert
      · rename_i hinsert
        cases h
        exact .conflicts hinsert
  | lastSeen config =>
      simp only [advance] at h
      split at h
      · rename_i store hupsert
        cases h
        exact .sees hupsert
      · rename_i hupsert
        cases h
        exact .forgets hupsert

/-- An ingest writes measurements and when a kit was last seen, and nothing else. -/
theorem Ingest.store_frame {e : ServiceEnv} {s s' : Services} {i : Ingest} {k : Option Ingest}
    (h : i.advance e s = (s', k)) :
    ∃ rawMeasurements aggregateMeasurements kitLastSeen, s'.store
      = { s.store with rawMeasurements, aggregateMeasurements, kitLastSeen } := by
  cases advances_of_advance h with
  | @inserts raw config _ hinsert =>
      cases raw with
      | raw m =>
          obtain ⟨store, hstore, rfl⟩ := Option.map_eq_some_iff.mp hinsert
          obtain ⟨-, _, rfl⟩ := Store.insertRawMeasurement_eq_some hstore
          exact ⟨_, _, _, rfl⟩
      | aggregate m =>
          obtain ⟨store, hstore, rfl⟩ := Option.map_eq_some_iff.mp hinsert
          obtain ⟨-, _, rfl⟩ := Store.insertAggregateMeasurement_eq_some hstore
          exact ⟨_, _, _, rfl⟩
  | sees hupsert =>
      obtain ⟨_, rfl⟩ := Store.upsertKitLastSeen_eq_some hupsert
      exact ⟨_, _, _, rfl⟩
  | cached | uncached | queries | misses | finds | conflicts | forgets => exact ⟨_, _, _, rfl⟩

end AstroPlant
