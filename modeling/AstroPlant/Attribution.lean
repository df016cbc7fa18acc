import AstroPlant.Ownership
import AstroPlant.Services

/-!
# Whose rows a kit's messages become

A measurement is stored only for the kit that sent it: what the cache holds was
read from the database once, and the columns it was read from never change, so
an entry is as good as a fresh lookup, on whosever behalf it was made
(`measurement_attribution`).

Media are not checked against their sender. They are stored for the kit that
the named peripheral belongs to, so attribution is right along exactly those
runs in which every kit only names peripherals of its own
(`media_attribution_iff`).

Both laws are about the history of stored rows, in which each row stands with the
message it was stored for (`Received`) and with the database as it was then. What
makes the first one hold is an assertion about each task (`ServiceTask.Knows`):
the ids that it carries are those of the peripheral that the message names, which
is a peripheral of the kit that sent it. The facts it is made of are of the form
"the row with this id has this owner" (`OwnersOf`, `SerialOf`), and those stay
true once they are (`OwnersOf.keeps`), also while a request changes other rows.
-/

namespace AstroPlant

/-- The row is one of the peripheral that the message names, which belongs to the
kit that sent the message, and has its owners. -/
def Attributed (o : Origin) : Prop :=
  ∃ p k, o.store.peripherals.find? o.message.peripheral = some p
    ∧ o.store.kits.find? p.kitId = some k ∧ k.serial = o.message.kitSerial
    ∧ o.row.peripheralId = p.id ∧ o.row.kitId = p.kitId
    ∧ o.row.kitConfigurationId = p.kitConfigurationId

/-! ## What was read stays true -/

/-- The peripheral was seen, with these owners. -/
def OwnersOf (s : Store) (peripheralId kitId configId : Int) : Prop :=
  peripheralId < s.peripherals.next ∧ ∀ p ∈ s.peripherals, p.id = peripheralId →
    (p.kitId, p.kitConfigurationId) = (kitId, configId)

/-- The kit was seen, with this serial. -/
def SerialOf (s : Store) (kitId : Int) (serial : String) : Prop :=
  kitId < s.kits.next ∧ ∀ k ∈ s.kits, k.id = kitId → k.serial = serial

theorem OwnersOf.of_mem {s : Store} {p : Peripheral} (hp : p ∈ s.peripherals) :
    OwnersOf s p.id p.kitId p.kitConfigurationId :=
  SerialTable.forall_key_of_mem (fun p : Peripheral => (p.kitId, p.kitConfigurationId)) hp

theorem SerialOf.of_mem {s : Store} {k : Kit} (hk : k ∈ s.kits) : SerialOf s k.id k.serial :=
  SerialTable.forall_key_of_mem Kit.serial hk

theorem OwnersOf.keeps {s s' : Store} {peripheralId kitId configId : Int} (h : Identity s s')
    (ho : OwnersOf s peripheralId kitId configId) : OwnersOf s' peripheralId kitId configId :=
  h.peripherals.forall_key ho

theorem SerialOf.keeps {s s' : Store} {kitId : Int} {serial : String} (h : Identity s s')
    (hk : SerialOf s kitId serial) : SerialOf s' kitId serial :=
  h.kits.forall_key hk

/-- What an entry of the cache says. -/
def Known (s : Store) (peripheralId : Int) (c : KitAndConfigId) : Prop :=
  OwnersOf s peripheralId c.kitId c.configId ∧ SerialOf s c.kitId c.kitSerial

theorem Known.keeps {s s' : Store} {peripheralId : Int} {c : KitAndConfigId}
    (h : Identity s s') (hc : Known s peripheralId c) : Known s' peripheralId c :=
  ⟨hc.1.keeps h, hc.2.keeps h⟩

theorem known_getConfigAndKit {s : Store} {peripheralId : Int} {c : KitAndConfigId}
    (h : getConfigAndKit peripheralId s = some c) : Known s peripheralId c := by
  unfold getConfigAndKit at h
  split at h
  · cases h
  · rename_i p hp
    obtain ⟨k, hk, rfl⟩ := Option.map_eq_some_iff.mp h
    obtain ⟨hmem, rfl⟩ := SerialTable.find?_eq_some.mp hp
    obtain ⟨hkmem, hkid⟩ := SerialTable.find?_eq_some.mp hk
    refine ⟨?_, SerialOf.of_mem hkmem⟩
    rw [hkid]
    exact OwnersOf.of_mem hmem

/-- A row of the peripheral that is named, under the owners that are known for it,
of a message from the kit that is known for them. -/
theorem attributed_of_known {s : Store} {row : StoredRow} {message : Received}
    (hnamed : row.peripheralId = message.peripheral)
    (howners : OwnersOf s row.peripheralId row.kitId row.kitConfigurationId)
    (hp : (s.peripherals.find? row.peripheralId).isSome = true)
    (hk : ∃ k, s.kits.find? row.kitId = some k ∧ k.serial = message.kitSerial) :
    Attributed ⟨row, message, s⟩ := by
  obtain ⟨p, hp⟩ := Option.isSome_iff_exists.mp hp
  obtain ⟨k, hk, hserial⟩ := hk
  obtain ⟨hmem, hid⟩ := SerialTable.find?_eq_some.mp hp
  obtain ⟨hkit, hconf⟩ := Prod.mk.inj (howners.2 p hmem hid)
  refine ⟨p, k, ?_, ?_, hserial, hid.symm, hkit.symm, hconf.symm⟩
  · rw [← hnamed]
    exact hp
  · rw [hkit]
    exact hk

/-! ## Steps of the services -/

theorem Upload.identity (e : ServiceEnv) (s : Services) (u : Upload) :
    Identity s.store (u.advance e s).1.store := by
  cases hadv : u.advance e s with
  | mk s' k =>
      rcases Upload.store_cases hadv with h | ⟨_, _, table, -, -, h⟩
      · rw [h]
        exact .refl _
      · rw [h]
        exact { Identity.refl s.store with }

theorem Ingest.insertRow_eq_some {raw : Measurement} {config : KitIdAndConfigId}
    {s s' : Services} (h : insertRow raw config s = some s') :
    Identity s.store s'.store ∧ s'.configCache = s.configCache
      ∧ ∃ row, s'.origins = s.origins ++ [⟨row, .measurement raw, s.store⟩]
        ∧ row.isMedia = false
        ∧ row.peripheralId = raw.peripheral ∧ row.kitId = config.kitId
        ∧ row.kitConfigurationId = config.configId
        ∧ (s.store.peripherals.find? row.peripheralId).isSome = true
        ∧ (s.store.kits.find? row.kitId).isSome = true := by
  cases raw with
  | raw m =>
      obtain ⟨store, hins, rfl⟩ := Option.map_eq_some_iff.mp h
      obtain ⟨hm, _, rfl⟩ := Store.insertRawMeasurement_eq_some hins
      obtain ⟨hp, hk⟩ := Store.measured_peripheral hm
      exact ⟨{ Identity.refl s.store with }, rfl, .raw (rawRow m config), rfl, rfl, rfl, rfl, rfl,
        hp, hk⟩
  | aggregate m =>
      obtain ⟨store, hins, rfl⟩ := Option.map_eq_some_iff.mp h
      obtain ⟨hm, _, rfl⟩ := Store.insertAggregateMeasurement_eq_some hins
      obtain ⟨hp, hk⟩ := Store.measured_peripheral hm
      exact ⟨{ Identity.refl s.store with }, rfl, .aggregate (aggregateRow m config), rfl, rfl,
        rfl, rfl, rfl, hp, hk⟩

theorem Ingest.identity (e : ServiceEnv) (s : Services) (i : Ingest) :
    Identity s.store (i.advance e s).1.store := by
  obtain ⟨_, _, _, h⟩ := Ingest.store_frame (Prod.eta (i.advance e s)).symm
  rw [h]
  exact { Identity.refl s.store with }

/-- **No service changes an ownership column.** -/
theorem services_identity {x : Crates} {e : ServiceEnv} {t : ServiceTask}
    {ts : List ServiceTask} {s s' : Services} {k : Option ServiceTask}
    (h : (services x).advance e t ts s = some (s', k)) : Identity s.store s'.store := by
  cases t with
  | api task =>
      obtain ⟨store, next, hr, rfl, -⟩ := services_api h
      exact change_identity (api_change hr)
  | upload upload =>
      obtain ⟨next, hu, -⟩ := services_upload h
      rw [← show (upload.advance e s).1 = s' by rw [hu]]
      exact upload.identity e s
  | ingest ingest =>
      obtain ⟨next, hi, -⟩ := services_ingest h
      rw [← show (ingest.advance e s).1 = s' by rw [hi]]
      exact ingest.identity e s

/-! ## The invariant -/

/-- What a task knows of the rows it has read. -/
def ServiceTask.Knows (s : Services) : ServiceTask → Prop
  | .ingest (.queried raw (some c)) => Known s.store raw.peripheral c
  | .ingest (.insert raw config) =>
      Known s.store raw.peripheral ⟨raw.kitSerial, config.kitId, config.configId⟩
  | .upload (.put media p) | .upload (.insert media p) =>
      p.id = media.peripheral ∧ OwnersOf s.store p.id p.kitId p.kitConfigurationId
  | _ => True

theorem ServiceTask.Knows.keeps {s s' : Services} (h : Identity s.store s'.store)
    {t : ServiceTask} (ht : t.Knows s) : t.Knows s' := by
  cases t with
  | api task => trivial
  | upload u =>
      cases u with
      | start media => trivial
      | put media p | insert media p => exact ⟨ht.1, ht.2.keeps h⟩
  | ingest i =>
      cases i with
      | queried raw res =>
          cases res with
          | none => trivial
          | some c => exact Known.keeps h ht
      | insert raw config => exact Known.keeps h ht
      | start raw | query raw | lastSeen config => trivial

/-- The cache tells the truth, and so do the measurements stored so far. -/
structure Trusted (s : Services) : Prop where
  cache : ∀ id, ∀ c ∈ s.configCache.lookup id, Known s.store id c
  measurements : ∀ o ∈ s.origins, o.row.isMedia = false → Attributed o

theorem found_eq_some {raw : Measurement} {c : KitAndConfigId} {i : Ingest}
    (h : Ingest.found raw c = some i) :
    c.kitSerial = raw.kitSerial ∧ i = .insert raw ⟨c.kitId, c.configId⟩ := by
  unfold Ingest.found KitAndConfigId.ofKit at h
  split at h
  · rename_i hserial
    exact ⟨hserial, (Option.some.inj h).symm⟩
  · cases h

/-- A task that has found the ids in an entry of the cache. -/
theorem knows_found {s : Services} {raw : Measurement} {c : KitAndConfigId} {i : Ingest}
    (hc : Known s.store raw.peripheral c) (h : Ingest.found raw c = some i) :
    (ServiceTask.ingest i).Knows s := by
  obtain ⟨hserial, rfl⟩ := found_eq_some h
  refine ⟨hc.1, ?_⟩
  rw [← hserial]
  exact hc.2

theorem trusted_api {s : Services} {store : Store} (h : Identity s.store store)
    (hs : Trusted s) : Trusted { s with store } where
  cache id c hc := (hs.cache id c hc).keeps h
  measurements := hs.measurements

theorem trusted_upload {e : ServiceEnv} {u : Upload} {s s' : Services} {next : Option Upload}
    (hs : Trusted s) (hu : (ServiceTask.upload u).Knows s) (h : u.advance e s = (s', next)) :
    Trusted s' ∧ ∀ u' ∈ next, (ServiceTask.upload u').Knows s' := by
  have hkeep := u.identity e s
  rw [h] at hkeep
  cases Upload.advances_of_advance h with
  | looksUp =>
      refine ⟨hs, fun u' hu' => ?_⟩
      obtain ⟨p, hp, rfl⟩ := Option.map_eq_some_iff.mp hu'
      obtain ⟨hmem, hid⟩ := Peripheral.mem_of_byId hp
      exact ⟨hid, OwnersOf.of_mem hmem⟩
  | puts =>
      refine ⟨⟨hs.cache, hs.measurements⟩, fun u' hu' => ?_⟩
      obtain rfl := Option.some.inj hu'
      exact hu
  | putFails =>
      refine ⟨hs, fun u' hu' => ?_⟩
      obtain rfl := Option.some.inj hu'
      exact hu
  | inserts =>
      refine ⟨⟨fun id c hc => (hs.cache id c hc).keeps hkeep, fun o ho hraw => ?_⟩,
        fun u' hu' => by cases hu'⟩
      rcases List.mem_append.mp ho with ho | ho
      · exact hs.measurements o ho hraw
      · rw [List.mem_singleton.mp ho] at hraw
        cases hraw
  | oversized | insertFails => exact ⟨hs, fun u' hu' => by cases hu'⟩

theorem trusted_ingest {e : ServiceEnv} {i : Ingest} {s s' : Services} {next : Option Ingest}
    (hs : Trusted s) (hi : (ServiceTask.ingest i).Knows s) (h : i.advance e s = (s', next)) :
    Trusted s' ∧ ∀ i' ∈ next, (ServiceTask.ingest i').Knows s' := by
  have hkeep := i.identity e s
  rw [h] at hkeep
  cases Ingest.advances_of_advance h with
  | cached hc => exact ⟨hs, fun i' hi' => knows_found (hs.cache _ _ hc) hi'⟩
  | uncached =>
      refine ⟨hs, fun i' hi' => ?_⟩
      obtain rfl := Option.some.inj hi'
      trivial
  | queries raw =>
      refine ⟨hs, fun i' hi' => ?_⟩
      obtain rfl := Option.some.inj hi'
      cases hres : getConfigAndKit raw.peripheral s.store with
      | none => trivial
      | some c => exact known_getConfigAndKit hres
  | finds raw c =>
      refine ⟨⟨fun id c' hc' => ?_, hs.measurements⟩, fun i' hi' => knows_found hi hi'⟩
      by_cases hid : id = raw.peripheral
      · subst hid
        rw [AList.lookup_insert] at hc'
        obtain rfl := Option.some.inj hc'
        exact hi
      · rw [AList.lookup_insert_ne hid] at hc'
        exact hs.cache id c' hc'
  | inserts hinsert =>
      obtain ⟨-, hcache, row, horigins, -, hp, hkit, hconf, hpsome, hksome⟩ :=
        Ingest.insertRow_eq_some hinsert
      obtain ⟨howners, hserial⟩ := hi
      refine ⟨⟨fun id c hc => ?_, fun o ho hraw => ?_⟩, fun i' hi' => ?_⟩
      · rw [hcache] at hc
        exact (hs.cache id c hc).keeps hkeep
      · rw [horigins] at ho
        rcases List.mem_append.mp ho with ho | ho
        · exact hs.measurements o ho hraw
        · rw [List.mem_singleton.mp ho]
          obtain ⟨k, hk⟩ := Option.isSome_iff_exists.mp hksome
          obtain ⟨hkmem, hkid⟩ := SerialTable.find?_eq_some.mp hk
          refine attributed_of_known hp ?_ hpsome ⟨k, hk, hserial.2 k hkmem (hkid.trans hkit)⟩
          rw [hp, hkit, hconf]
          exact howners
      · obtain rfl := Option.some.inj hi'
        trivial
  | sees =>
      exact ⟨⟨fun id c hc => (hs.cache id c hc).keeps hkeep, hs.measurements⟩,
        fun i' hi' => by cases hi'⟩
  | misses | conflicts | forgets => exact ⟨hs, fun i' hi' => by cases hi'⟩

/-- **The step lemma.** -/
theorem trusted_advance {x : Crates} {e : ServiceEnv} {t : ServiceTask} {ts : List ServiceTask}
    {s s' : Services} {k : Option ServiceTask} (hs : Trusted s) (ht : t.Knows s)
    (hts : ∀ u ∈ ts, u.Knows s) (h : (services x).advance e t ts s = some (s', k)) :
    Trusted s' ∧ (∀ t' ∈ k, t'.Knows s') ∧ ∀ u ∈ ts, u.Knows s' := by
  have hkeep := services_identity h
  have hothers : ∀ u ∈ ts, u.Knows s' := fun u hu => (hts u hu).keeps hkeep
  cases t with
  | api task =>
      obtain ⟨store, next, hr, rfl, rfl⟩ := services_api h
      refine ⟨trusted_api hkeep hs, fun t' ht' => ?_, hothers⟩
      obtain ⟨task', -, rfl⟩ := Option.map_eq_some_iff.mp ht'
      trivial
  | upload u =>
      obtain ⟨next, hu, rfl⟩ := services_upload h
      obtain ⟨hs', hnext⟩ := trusted_upload hs ht hu
      refine ⟨hs', fun t' ht' => ?_, hothers⟩
      obtain ⟨u', hu', rfl⟩ := Option.map_eq_some_iff.mp ht'
      exact hnext u' hu'
  | ingest i =>
      obtain ⟨next, hi, rfl⟩ := services_ingest h
      obtain ⟨hs', hnext⟩ := trusted_ingest hs ht hi
      refine ⟨hs', fun t' ht' => ?_, hothers⟩
      obtain ⟨i', hi', rfl⟩ := Option.map_eq_some_iff.mp ht'
      exact hnext i' hi'

/-- Trust, with what every task knows. -/
def TrustedRun (c : Conc Services ServiceTask) : Prop :=
  Program.Holds Trusted (fun s t => t.Knows s) c

theorem trustedRun_start (s₀ : Store) : TrustedRun ⟨.start s₀, []⟩ := by
  refine ⟨⟨fun id c hc => ?_, fun o ho => by cases ho⟩, fun t ht => by cases ht⟩
  rw [Services.start, AList.lookup_empty] at hc
  cases hc

theorem knows_entry (x : Crates) (s : Services) (r : ServiceRequest) :
    ((services x).entry r).Knows s := by
  cases r <;> trivial

theorem trustedRun_step {x : Crates} {c c' : Conc Services ServiceTask}
    {l : Sched ServiceRequest ServiceEnv} (hc : TrustedRun c)
    (h : (services x).step c l = some c') : TrustedRun c' :=
  Program.holds_step (services x) (fun r _ s _ _ => knows_entry x s r)
    (fun _ _ _ _ _ _ _ hs ht hts h => trusted_advance hs ht hts h) hc (Program.ok_true c l) h

/-! ## Measurements -/

/-- **Measurement attribution.** Every measurement that is stored, in any run
of the services, is stored for the peripheral that its message names, under the
owners of it, and that is a peripheral of the kit that sent it. -/
theorem measurement_attribution {x : Crates} {s₀ : Store}
    {ls : List (Sched ServiceRequest ServiceEnv)} {c : Conc Services ServiceTask}
    (hrun : Run.exec (services x).step ⟨.start s₀, []⟩ ls = some c) :
    ∀ o ∈ c.store.origins, o.row.isMedia = false → Attributed o :=
  (Run.exec_invariant (fun _ _ _ hc h => trustedRun_step hc h) (trustedRun_start s₀)
    hrun).1.measurements

/-- Two kits, the first one with a configuration and one peripheral in it. -/
def twoKits : Store :=
  let kit := fun serial id =>
    (⟨id, serial, "", none, none, none, none, true, true, 0, 0⟩ : Kit)
  let configuration := fun id => (⟨id, 1, none, "", "", .null, true, some 0, 0, 0⟩ :
    KitConfiguration)
  let peripheral := fun id => (⟨id, 1, 1, 1, "thermometer", .null⟩ : Peripheral)
  { Store.empty with
    kits := (SerialTable.empty.insert (kit "k1") fun _ => rfl).insert (kit "k2") fun _ => rfl
    kitConfigurations := SerialTable.empty.insert configuration fun _ => rfl
    peripherals := SerialTable.empty.insert peripheral fun _ => rfl
    quantityTypes := SerialTable.empty.insert (fun id => ⟨id, "temperature", "degree", none⟩)
      fun _ => rfl }

def temperature (kitSerial : String) (id : Uuid) : ServiceRequest :=
  .measurement (.raw ⟨id, kitSerial, 0, 1, 1, F64.one⟩)

/-- The first lookup of the peripheral is made for the wrong kit. -/
def bothKits : List (Sched ServiceRequest ServiceEnv) :=
  [.spawn (temperature "k2" 1), .run 0 {}, .spawn (temperature "k1" 2), .run 0 {}, .run 0 {},
    .run 0 {}, .run 0 {}, .run 0 {}]

theorem measurement_attribution_bothKits :
    ∃ c, Run.exec (services plainCrates).step ⟨.start twoKits, []⟩ bothKits = some c
      ∧ c.store.store.rawMeasurements.rows.map (·.id) = [2]
      ∧ c.store.origins.map (·.kitSerial) = ["k1"]
      ∧ ∀ o ∈ c.store.origins, o.row.isMedia = false → Attributed o := by
  have hrun : ∃ c, Run.exec (services plainCrates).step ⟨.start twoKits, []⟩ bothKits = some c
      ∧ c.store.store.rawMeasurements.rows.map (·.id) = [2]
      ∧ c.store.origins.map (·.kitSerial) = ["k1"] :=
    ⟨_, rfl, rfl, rfl⟩
  obtain ⟨c, hrun, hrows, horigins⟩ := hrun
  exact ⟨c, hrun, hrows, horigins, measurement_attribution hrun⟩

/-! ## Media -/

/-- The peripheral that the message names is one of the kit that sent it. -/
def Received.honest (s : Store) (message : Received) : Bool :=
  (s.peripherals.find? message.peripheral).any fun p =>
    (s.kits.find? p.kitId).any (·.serial = message.kitSerial)

theorem Received.honest_iff {s : Store} {message : Received} : message.honest s = true
    ↔ ∃ p, s.peripherals.find? message.peripheral = some p
      ∧ ∃ k, s.kits.find? p.kitId = some k ∧ k.serial = message.kitSerial := by
  simp [honest, Option.any_eq_true]

/-- A message that comes to its insertion is honest, unless there is a row with its
id, or what the row would refer to is gone. -/
def ServiceTask.honest (s : Services) : ServiceTask → Bool
  | .upload (.insert media p) =>
      (s.store.media.find? media.id).isSome || !(newMedia media p).references s.store
        || (Received.media media).honest s.store
  | _ => true

/-- Every upload that comes to its insertion is honest. -/
def HonestUploads : Conc Services ServiceTask → Sched ServiceRequest ServiceEnv → Prop :=
  Program.Ok (fun _ _ _ => True) fun _ t _ s => t.honest s = true

def MediaAttributed (c : Conc Services ServiceTask) : Prop :=
  ∀ o ∈ c.store.origins, o.row.isMedia = true → Attributed o

/-- Where nothing but measurements is added to the history. -/
theorem mediaAttributed_of_append {s s' : Services} {os : List Origin}
    (h : s'.origins = s.origins ++ os) (hos : ∀ o ∈ os, o.row.isMedia = false)
    (hs : ∀ o ∈ s.origins, o.row.isMedia = true → Attributed o) :
    ∀ o ∈ s'.origins, o.row.isMedia = true → Attributed o := by
  intro o ho hmedia
  rw [h] at ho
  rcases List.mem_append.mp ho with ho | ho
  · exact hs o ho hmedia
  · rw [hos o ho] at hmedia
    cases hmedia

theorem Ingest.origins_append {e : ServiceEnv} {i : Ingest} {s s' : Services}
    {next : Option Ingest} (h : i.advance e s = (s', next)) :
    ∃ os, s'.origins = s.origins ++ os ∧ ∀ o ∈ os, o.row.isMedia = false := by
  have hsame : ∀ {s' : Services}, s'.origins = s.origins →
      ∃ os : List Origin, s'.origins = s.origins ++ os ∧ ∀ o ∈ os, o.row.isMedia = false :=
    fun heq => ⟨[], by rw [heq, List.append_nil], fun o ho => by cases ho⟩
  cases Ingest.advances_of_advance h with
  | inserts hinsert =>
      obtain ⟨-, -, row, horigins, hmedia, -⟩ := Ingest.insertRow_eq_some hinsert
      refine ⟨_, horigins, fun o ho => ?_⟩
      rw [List.mem_singleton.mp ho]
      exact hmedia
  | cached | uncached | queries | misses | finds | conflicts | sees | forgets => exact hsame rfl

/-- An insertion that fails adds nothing for one of the two reasons. -/
theorem honest_of_error {media : Mqtt.Media} {p : Peripheral} {s : Services} {e : DieselError}
    (h : (newMedia media p).create.run s.store = .error e) :
    (ServiceTask.upload (.insert media p)).honest s = true := by
  rcases NewMedia.create_error h with hsize | htaken | href
  · exact absurd hsize (by simp [newMedia])
  · have htaken' : (s.store.media.find? media.id).isSome = true := htaken
    simp [ServiceTask.honest, htaken']
  · simp [ServiceTask.honest, href]

/-- The row that is inserted is attributed exactly when the upload is honest. -/
theorem attributed_iff_honest {media : Mqtt.Media} {p : Peripheral} {s : Services} {row : Media}
    {store : Store} (hnamed : p.id = media.peripheral)
    (hp : OwnersOf s.store p.id p.kitId p.kitConfigurationId)
    (h : (newMedia media p).create.run s.store = .ok (row, store)) :
    Attributed ⟨.media row, .media media, s.store⟩
      ↔ (ServiceTask.upload (.insert media p)).honest s = true := by
  obtain ⟨-, rfl, href, media', hins, -⟩ := NewMedia.create_ok h
  have hfree : s.store.media.find? media.id = none := by
    refine Table.find?_eq_none.mpr fun m hm hid => ?_
    have hrow : m.id = (newMedia media p).row.id := hid
    rw [Table.insert?_eq_none.mpr ⟨m, hm, hrow⟩] at hins
    cases hins
  have hpsome : (s.store.peripherals.find? p.id).isSome = true := by
    simp only [NewMedia.references, Bool.and_eq_true] at href
    exact href.1.1
  have hhonest : (ServiceTask.upload (.insert media p)).honest s = true
      ↔ ∃ p', s.store.peripherals.find? media.peripheral = some p'
        ∧ ∃ k, s.store.kits.find? p'.kitId = some k ∧ k.serial = media.kitSerial := by
    simp [ServiceTask.honest, hfree, href, Received.honest_iff, Received.peripheral,
      Received.kitSerial]
  rw [hhonest]
  constructor
  · rintro ⟨p', k, hp', hk, hserial, -⟩
    exact ⟨p', hp', k, hk, hserial⟩
  · rintro ⟨p', hp', k, hk, hserial⟩
    -- the one that is named now is the one that was looked up
    obtain ⟨hmem, hid⟩ := SerialTable.find?_eq_some.mp hp'
    obtain ⟨hkit, -⟩ := Prod.mk.inj (hp.2 p' hmem (hid.trans hnamed.symm))
    rw [hkit] at hk
    exact @attributed_of_known s.store (.media (newMedia media p).row) (.media media) hnamed hp
      hpsome ⟨k, hk, hserial⟩

/-- **One step keeps media attributed exactly when it is honest.** -/
theorem mediaAttributed_step {x : Crates} {c c' : Conc Services ServiceTask}
    {l : Sched ServiceRequest ServiceEnv} (hc : TrustedRun c) (hm : MediaAttributed c)
    (h : (services x).step c l = some c') : MediaAttributed c' ↔ HonestUploads c l := by
  rcases Program.step_cases h with ⟨r, rfl, rfl⟩ | ⟨i, e, t, s', k, rfl, ht, hadv, rfl⟩
    | ⟨i, t, rfl, ht, -, rfl⟩
  · exact iff_of_true hm trivial
  · have hok : HonestUploads c (.run i e) ↔ t.honest c.store = true := by
      simp [HonestUploads, Program.Ok, ht]
    rw [hok]
    cases t with
    | api task =>
        obtain ⟨store, next, -, rfl, -⟩ := services_api hadv
        exact iff_of_true hm rfl
    | ingest i' =>
        obtain ⟨next, hi, -⟩ := services_ingest hadv
        obtain ⟨os, hos, hraw⟩ := Ingest.origins_append hi
        exact iff_of_true (mediaAttributed_of_append hos hraw hm) rfl
    | upload u =>
        obtain ⟨next, hu, -⟩ := services_upload hadv
        cases Upload.advances_of_advance hu with
        | oversized | looksUp | puts | putFails => exact iff_of_true hm rfl
        | inserts hrun =>
            obtain ⟨hnamed, howners⟩ := hc.2 _ (List.mem_of_getElem? ht)
            rw [← attributed_iff_honest hnamed howners hrun]
            constructor
            · exact fun hm' => hm' _ (by simp) rfl
            · intro hrow o ho hmedia
              rcases List.mem_append.mp ho with ho | ho
              · exact hm o ho hmedia
              · rw [List.mem_singleton.mp ho]
                exact hrow
        | insertFails hrun => exact iff_of_true hm (honest_of_error hrun)
  · exact iff_of_true hm trivial

/-- **Media attribution.** In the states of a run, every media row is one of the
peripheral that its message names, and that of the kit that sent it, exactly when
every upload along the run is honest. -/
theorem media_attribution_iff (x : Crates) (s₀ : Store)
    (ls : List (Sched ServiceRequest ServiceEnv)) :
    Run.Always (services x).step MediaAttributed ⟨.start s₀, []⟩ ls
      ↔ Run.Guarded (services x).step HonestUploads ⟨.start s₀, []⟩ ls :=
  Run.always_iff_guarded (fun _ _ _ hc h => trustedRun_step hc h)
    (fun _ _ _ hc hm h => mediaAttributed_step hc hm h) ls (trustedRun_start s₀)
    fun o ho => by cases ho

/-- The second kit uploads a picture for the first kit's peripheral. -/
def foreignUpload : List (Sched ServiceRequest ServiceEnv) :=
  [.spawn (.media ⟨7, "k2", 0, 1, "leaf", "image/png", [0], .null⟩), .run 0 {}, .run 0 {},
    .run 0 {}]

theorem foreign_upload_stored :
    ∃ c, Run.exec (services plainCrates).step ⟨.start twoKits, []⟩ foreignUpload = some c
      ∧ c.store.store.media.rows.map (fun m => (m.id, m.kitId)) = [(7, 1)]
      ∧ ¬MediaAttributed c := by
  refine ⟨_, rfl, rfl, fun h => ?_⟩
  obtain ⟨p, k, hp, hk, hserial, -⟩ := h _ (List.mem_singleton.mpr rfl) rfl
  obtain rfl := Option.some.inj hp
  obtain rfl := Option.some.inj hk
  exact absurd hserial (by decide)

end AstroPlant
