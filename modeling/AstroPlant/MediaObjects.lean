import AstroPlant.Authorization
import AstroPlant.Hyphenated
import AstroPlant.QueuedMedia

/-!
# Media rows and their objects

An upload writes to two stores, first the object and then the row, and nothing
makes them one: a failed put is only logged, a failed insertion leaves the
object, and the object is stored under the sender's serial but fetched under the
serial of the kit that the row belongs to. A deletion takes the rows it finds,
also one that it has not queued.

`Agrees` says that every row's object is found and every object is referred to.
A run keeps it exactly along steps that are `Settled` (`uploads_agree_iff`).

An upload in flight is between its two stores, so `Agrees` takes the tasks as
well: an object may be referred to by an upload that is about to insert its row.
Where a step ends an upload, three cases are possible: the row is added, it is
not, or the upload faults; each leaves the stores in agreement exactly if
`Settled` says so (`agrees_insert`, `agrees_end`). A commit of a deletion removes
rows, whose objects are then referred to by the queue (`agrees_commit`). Without
a running upload, what remains is the agreement of rows and objects
(`Agreeing.quiescent`).
-/

namespace AstroPlant

/-! ## Objects -/

/-- The key in `ObjectStore::put` and `ObjectStore::get`. -/
def objectKey (kitSerial : String) (id : Uuid) : String := kitSerial ++ "/" ++ hyphenated id

theorem objectKey_injective {kitSerial kitSerial' : String} {id id' : Uuid}
    (h : objectKey kitSerial id = objectKey kitSerial' id') :
    kitSerial = kitSerial' ∧ id = id' := by
  have hlist := congrArg String.toList h
  simp only [objectKey, String.toList_append, List.append_assoc] at hlist
  have hlength : ("/".toList ++ (hyphenated id).toList).length
      = ("/".toList ++ (hyphenated id').toList).length := by
    rw [List.length_append, List.length_append, length_hyphenated, length_hyphenated]
  obtain ⟨hserial, hrest⟩ := List.append_inj' hlist hlength
  exact ⟨String.toList_inj.mp hserial,
    hyphenated_injective (String.toList_inj.mp (List.append_cancel_left hrest))⟩

namespace Services

def getObject (s : Services) (kitSerial : String) (id : Uuid) : Option (List UInt8) :=
  s.objects.lookup (objectKey kitSerial id)

def Stored (s : Services) (kitSerial : String) (id : Uuid) : Prop :=
  (s.getObject kitSerial id).isSome = true

end Services

structure MediaContent where
  filename : String
  type : String
  data : List UInt8

/-- `GET /media/{mediaId}/content`; a missing object is a panic, here `none`. The
accesses of the handler see a state each. -/
def downloadMediaAt (userId : Option Int) (mediaId : Uuid)
    (atMedia atKit atPermission : Store) (atObject : Services) :
    Except Problem (Option MediaContent) := do
  let some media := atMedia.media.find? mediaId | throw .NOT_FOUND
  let some kit := Kit.byId media.kitId atKit | throw .NOT_FOUND
  let _ ← (futKitPermissionOrForbidden userId kit.serial .view).run atPermission
  return (atObject.getObject kit.serial media.id).map fun data => ⟨media.name, media.type, data⟩

def downloadMedia (userId : Option Int) (mediaId : Uuid) (s : Services) :
    Except Problem (Option MediaContent) :=
  downloadMediaAt userId mediaId s.store s.store s.store s

/-! ## Agreement -/

/-- The object of a row, under the serial of the row's kit. -/
def FindsObject (s : Services) (m : Media) : Prop :=
  ∃ k, Kit.byId m.kitId s.store = some k ∧ s.Stored k.serial m.id

/-- Another upload has put the object and is about to insert its row. -/
def InFlight (ts : List MediaTask) (kitSerial : String) (id : Uuid) : Prop :=
  ∃ media peripheral, .upload (.insert media peripheral) ∈ ts ∧ media.kitSerial = kitSerial
    ∧ media.id = id

def Referred (s : Services) (ts : List MediaTask) (kitSerial : String) (id : Uuid) : Prop :=
  (∃ m ∈ s.store.media, m.id = id ∧ ∃ k, Kit.byId m.kitId s.store = some k ∧ k.serial = kitSerial)
    ∨ s.store.queuesId id = true ∨ InFlight ts kitSerial id

/-- Rows and objects agree, but for objects whose upload has not finished. -/
structure Agrees (s : Services) (ts : List MediaTask) : Prop where
  found : ∀ m ∈ s.store.media, FindsObject s m
  referred : ∀ key, (s.objects.lookup key).isSome = true →
    ∃ kitSerial id, key = objectKey kitSerial id ∧ Referred s ts kitSerial id

theorem downloadMedia_of_found {s : Services} {m : Media} {userId : Option Int}
    (hm : m ∈ s.store.media) (hfound : FindsObject s m)
    (hview : ∀ k, Kit.byId m.kitId s.store = some k →
      ∃ r, (futKitPermissionOrForbidden userId k.serial .view).run s.store = .ok r) :
    ∃ data, downloadMedia userId m.id s = .ok (some ⟨m.name, m.type, data⟩) := by
  obtain ⟨k, hk, hstored⟩ := hfound
  obtain ⟨r, hr⟩ := hview k hk
  obtain ⟨data, hdata⟩ := Option.isSome_iff_exists.mp hstored
  have hmedia : s.store.media.find? m.id = some m := Table.find?_eq_some.mpr ⟨hm, rfl⟩
  refine ⟨data, ?_⟩
  simp only [downloadMedia, downloadMediaAt, hmedia, hk, hr]
  show Except.ok ((s.getObject k.serial m.id).map _) = _
  rw [hdata]
  rfl

theorem referred_of_stored {s : Services} {ts : List MediaTask} {kitSerial : String} {id : Uuid}
    (h : Agrees s ts) (hstored : s.Stored kitSerial id) : Referred s ts kitSerial id := by
  obtain ⟨kitSerial', id', hkey, hreferred⟩ := h.referred _ hstored
  obtain ⟨rfl, rfl⟩ := objectKey_injective hkey
  exact hreferred

/-- An upload that ends: the row that it adds has an object, and the object that
it has stored is referred to. A deletion that commits: the rows that it takes
are queued, or another upload is about to add them again. -/
def MediaTask.Settled (s : Services) (ts : List MediaTask) (runs : Prop) : MediaTask → Prop
  | .upload (.insert media peripheral) =>
      let adds := runs ∧ (newMedia media peripheral).Insertable s.store
      (adds → FindsObject s (newMedia media peripheral).row)
        ∧ (s.Stored media.kitSerial media.id →
          (adds ∧ ∃ k, Kit.byId peripheral.kitId s.store = some k ∧ k.serial = media.kitSerial)
            ∨ Referred s ts media.kitSerial media.id)
  | .deletion d =>
      ∀ queued deleted doomed, runs → d.stage = .commit queued deleted doomed →
        ∀ m ∈ s.store.media, d.deletesMedia m.id = true →
          (∃ m' ∈ queued, m'.id = m.id) ∨ s.store.queuesId m.id = true
            ∨ ∃ k, Kit.byId m.kitId s.store = some k ∧ InFlight ts k.serial m.id
  | _ => True

def Agreeing (c : Conc Services MediaTask) : Prop := Agrees c.store c.tasks

def SettledSteps (c : Conc Services MediaTask) : Sched MediaRequest ServiceEnv → Prop
  | .spawn _ => True
  | .run i _ => ∀ t ∈ c.tasks[i]?, t.Settled c.store (c.tasks.eraseIdx i) True
  | .fault i => ∀ t ∈ c.tasks[i]?, t.Settled c.store (c.tasks.eraseIdx i) False

/-! ## Media stand in the way of a deletion -/

/-- What a deletion leaves of the media does not refer to what it removes. -/
def MediaTask.Restricted (s : Store) (t : MediaTask) : Prop :=
  ∀ d ∈ t.deletion?, ∀ m ∈ s.media, d.deletesMedia m.id = false →
    d.removes s m.peripheralId m.kitId m.kitConfigurationId = false

theorem Deletion.removes_mono {d : Deletion} {s s' : Store} {peripheralId kitId confId : Int}
    (hkits : ∀ k ∈ s'.kits, k ∈ s.kits)
    (hconf : ∀ c ∈ s'.kitConfigurations, c ∈ s.kitConfigurations)
    (hperipherals : ∀ p ∈ s'.peripherals, p ∈ s.peripherals)
    (h : d.removes s peripheralId kitId confId = false) :
    d.removes s' peripheralId kitId confId = false := by
  unfold removes at h ⊢
  cases hd : d.stage.doomed with
  | none => rfl
  | some doomed =>
      rw [hd] at h
      simp only [Option.any_some, Store.Doomed.refers, Bool.or_eq_false_iff] at h ⊢
      obtain ⟨⟨hp, hk⟩, hc⟩ := h
      refine ⟨⟨?_, ?_⟩, ?_⟩
      · exact List.any_eq_false.mpr fun p hmem => List.any_eq_false.mp hp p (hperipherals p hmem)
      · exact List.any_eq_false.mpr fun k hmem => List.any_eq_false.mp hk k (hkits k hmem)
      · exact List.any_eq_false.mpr fun c hmem => List.any_eq_false.mp hc c (hconf c hmem)

/-- A commit only takes rows away from the tables that media refer to. -/
theorem Deletion.seen_tables (d : Deletion) (s : Store) :
    (∀ k ∈ (d.seen s).kits, k ∈ s.kits)
      ∧ (∀ c ∈ (d.seen s).kitConfigurations, c ∈ s.kitConfigurations)
      ∧ ∀ p ∈ (d.seen s).peripherals, p ∈ s.peripherals := by
  obtain ⟨target, now, stage⟩ := d
  cases stage with
  | insert | queue _ | delete _ | owner _ _ => exact ⟨fun _ h => h, fun _ h => h, fun _ h => h⟩
  | commit queued deleted doomed =>
      cases doomed with
      | none => exact ⟨fun _ h => h, fun _ h => h, fun _ h => h⟩
      | some doomed =>
          exact ⟨fun _ h => (SerialTable.mem_delete.mp h).1,
            fun _ h => (SerialTable.mem_delete.mp h).1, fun _ h => (SerialTable.mem_delete.mp h).1⟩

theorem MediaTask.Restricted.mono {s s' : Store} {t : MediaTask} (h : t.Restricted s)
    (hmedia : ∀ m ∈ s'.media, m ∈ s.media) (hkits : ∀ k ∈ s'.kits, k ∈ s.kits)
    (hconf : ∀ c ∈ s'.kitConfigurations, c ∈ s.kitConfigurations)
    (hperipherals : ∀ p ∈ s'.peripherals, p ∈ s.peripherals) : t.Restricted s' :=
  fun d hd m hm hdel =>
    Deletion.removes_mono hkits hconf hperipherals (h d hd m (hmedia m hm) hdel)

/-- `ON DELETE RESTRICT`, when the statement that deletes the owner runs. -/
theorem Deletion.restricted_advance {d d' : Deletion} {others : List Deletion} {s s' : Store}
    (h : d.advance others s = some (s', some d')) (hd : (MediaTask.deletion d).Restricted s) :
    (MediaTask.deletion d').Restricted s := by
  have hnone : ∀ {d'' : Deletion}, d''.stage.doomed = none →
      (MediaTask.deletion d'').Restricted s := by
    intro d'' hdoomed _ heq m _ _
    obtain rfl := Option.some.inj heq
    rw [removes, hdoomed]
    rfl
  obtain ⟨target, now, stage⟩ := d
  cases stage with
  | insert =>
      cases h
      exact hnone rfl
  | queue selected =>
      simp only [advance] at h
      split at h
      · cases h
      · split at h <;> cases h
        exact hnone rfl
  | delete queued =>
      simp only [advance] at h
      split at h
      · cases h
      · split at h <;> cases h <;> exact hnone rfl
  | owner queued deleted =>
      simp only [advance] at h
      split at h
      · cases h
      · split at h
        · cases h
        · rename_i hcascade
          cases h
          obtain ⟨-, hfree⟩ := Store.deleteCascade_ok hcascade
          intro d'' heq m hm hdel
          obtain rfl := Option.some.inj heq
          have hseen : m ∈ ((⟨target, now, .owner queued deleted⟩ : Deletion).seen s).media :=
            Deletion.mem_media_seen.mpr ⟨hm, hdel⟩
          exact hfree m hseen
  | commit queued deleted doomed => cases h

/-- What is known of each task. -/
def MediaTask.Known (s : Services) (t : MediaTask) : Prop := t.Deletes ∧ t.Restricted s.store

theorem known_upload {x : Crates} {e : ServiceEnv} {u : Upload} {ts : List MediaTask}
    {s s' : Services} {k : Option MediaTask} (hts : ∀ t ∈ ts, t.Known s)
    (h : (statements x).advance e (.upload u) ts s = some (s', k)) :
    (∀ t ∈ k, t.Known s') ∧ ∀ t ∈ ts, t.Known s' := by
  obtain ⟨hwaits, next, hadv, rfl⟩ := statements_upload h
  constructor
  · intro t ht
    obtain ⟨u', -, rfl⟩ := Option.map_eq_some_iff.mp ht
    exact ⟨trivial, fun d hd => by cases hd⟩
  · intro t ht
    obtain ⟨hdeletes, hrestricted⟩ := hts t ht
    refine ⟨hdeletes, ?_⟩
    rcases Upload.store_cases hadv with hs' | ⟨media, peripheral, table, rfl, hins, hs'⟩
    · rw [hs']
      exact hrestricted
    · intro d hd m hm hdel
      rw [hs'] at hm ⊢
      rcases (Table.mem_insert? hins).mp hm with hm | rfl
      · exact hrestricted d hd m hm hdel
      · -- the insertion did not have to wait for this deletion
        have hmem : d ∈ ts.filterMap MediaTask.deletion? := List.mem_filterMap.mpr ⟨t, ht, hd⟩
        simp only [Upload.waits, List.any_eq_false, Bool.or_eq_true, not_or,
          Bool.not_eq_true] at hwaits
        exact (hwaits d hmem).2

theorem known_step {x : Crates} {c c' : Conc Services MediaTask}
    {l : Sched MediaRequest ServiceEnv} (hc : ∀ t ∈ c.tasks, t.Known c.store)
    (h : (statements x).step c l = some c') : ∀ t ∈ c'.tasks, t.Known c'.store := by
  refine (Program.holds_step (statements x) (I := fun _ => True) (T := fun s t => t.Known s)
    (fun r _ s _ _ => ⟨deletes_entry x r, fun d hd => ?_⟩)
    (fun e t ts s s' k _ _ ht hts hadv => ⟨trivial, ?_⟩)
    ⟨trivial, hc⟩ (Program.ok_true c l) h).2
  · cases r <;> cases hd
  · cases t with
    | upload u => exact known_upload hts hadv
    | request task =>
        obtain ⟨rfl, hk⟩ := request_step ht.1 hadv
        refine ⟨fun t' ht' => ?_, hts⟩
        rcases hk t' ht' with ⟨task', rfl, hdeletes⟩ | ⟨target, rfl⟩
        · exact ⟨hdeletes, fun d hd => by cases hd⟩
        · refine ⟨trivial, fun d hd m _ _ => ?_⟩
          obtain rfl := Option.some.inj hd
          rfl
    | deletion d =>
        obtain ⟨store, next, hstatement, rfl, rfl⟩ := statements_deletion hadv
        rcases Deletion.advance_media hstatement with ⟨rfl, -, -⟩ | ⟨_, _, _, -, rfl, rfl⟩
        · refine ⟨fun t' ht' => ?_, hts⟩
          obtain ⟨d', rfl, rfl⟩ := Option.map_eq_some_iff.mp ht'
          exact ⟨trivial, Deletion.restricted_advance hstatement ht.2⟩
        · refine ⟨fun t' ht' => (by cases ht'), fun u hu => ⟨(hts u hu).1, ?_⟩⟩
          obtain ⟨hkits, hconf, hperipherals⟩ := d.seen_tables s.store
          exact (hts u hu).2.mono (fun m hm => (Deletion.mem_media_seen.mp hm).1) hkits hconf
            hperipherals

/-! ## Steps -/

theorem InFlight.mono {ts ts' : List MediaTask} {kitSerial : String} {id : Uuid}
    (h : InFlight ts kitSerial id)
    (hts : ∀ media p, .upload (.insert media p) ∈ ts → .upload (.insert media p) ∈ ts') :
    InFlight ts' kitSerial id := by
  obtain ⟨media, p, hmem, hserial, hid⟩ := h
  exact ⟨media, p, hts media p hmem, hserial, hid⟩

theorem Agrees.mono {s : Services} {ts ts' : List MediaTask} (h : Agrees s ts)
    (hts : ∀ media p, .upload (.insert media p) ∈ ts → .upload (.insert media p) ∈ ts') :
    Agrees s ts' where
  found := h.found
  referred key hkey := by
    obtain ⟨kitSerial, id, hkey, hreferred⟩ := h.referred key hkey
    exact ⟨kitSerial, id, hkey, hreferred.imp_right fun h => h.imp_right fun h => h.mono hts⟩

theorem agrees_perm {s : Services} {ts ts' : List MediaTask} (h : ts.Perm ts') :
    Agrees s ts ↔ Agrees s ts' :=
  ⟨fun ha => ha.mono fun _ _ hmem => h.mem_iff.mp hmem,
    fun ha => ha.mono fun _ _ hmem => h.mem_iff.mpr hmem⟩

theorem inFlight_cons {ts : List MediaTask} {media : Mqtt.Media} {p : Peripheral}
    {kitSerial : String} {id : Uuid} : InFlight (.upload (.insert media p) :: ts) kitSerial id
      ↔ (media.kitSerial = kitSerial ∧ media.id = id) ∨ InFlight ts kitSerial id := by
  simp only [InFlight, List.mem_cons, MediaTask.upload.injEq, Upload.insert.injEq]
  constructor
  · rintro ⟨media', p', ⟨rfl, rfl⟩ | hmem, hserial, hid⟩
    · exact Or.inl ⟨hserial, hid⟩
    · exact Or.inr ⟨media', p', hmem, hserial, hid⟩
  · rintro (⟨hserial, hid⟩ | ⟨media', p', hmem, hserial, hid⟩)
    · exact ⟨media, p, Or.inl ⟨rfl, rfl⟩, hserial, hid⟩
    · exact ⟨media', p', Or.inr hmem, hserial, hid⟩

/-- The object has been put, or not; its upload is about to insert. -/
theorem agrees_put {e : ServiceEnv} {s s' : Services} {ts : List MediaTask} {media : Mqtt.Media}
    {p : Peripheral} {next : Option Upload} (h : Agrees s ts)
    (hu : (Upload.put media p).advance e s = (s', next)) :
    Agrees s' ((next.map MediaTask.upload).toList ++ ts) := by
  have hlater : ∀ media p, MediaTask.upload (.insert media p) ∈ ts →
      .upload (.insert media p) ∈ (next.map MediaTask.upload).toList ++ ts :=
    fun _ _ hmem => List.mem_append_right _ hmem
  simp only [Upload.advance] at hu
  split at hu <;> cases hu
  · -- the object is stored under the sender's serial
    have hstored : ∀ key, (s.objects.lookup key).isSome = true →
        ((s.objects.insert (objectKey media.kitSerial media.id) media.data).lookup key).isSome
          = true := by
      intro key hkey
      by_cases heq : key = objectKey media.kitSerial media.id
      · rw [heq, AList.lookup_insert]
        rfl
      · rwa [AList.lookup_insert_ne heq]
    constructor
    · intro m hm
      obtain ⟨k, hk, hkey⟩ := h.found m hm
      exact ⟨k, hk, hstored _ hkey⟩
    · intro key hkey
      by_cases heq : key = objectKey media.kitSerial media.id
      · exact ⟨media.kitSerial, media.id, heq,
          Or.inr (Or.inr (inFlight_cons.mpr (Or.inl ⟨rfl, rfl⟩)))⟩
      · have hinserted : ((s.objects.insert (objectKey media.kitSerial media.id)
            media.data).lookup key).isSome = true := hkey
        rw [AList.lookup_insert_ne heq] at hinserted
        exact (h.mono hlater).referred key hinserted
  · exact h.mono hlater

theorem agrees_end {s : Services} {ts : List MediaTask} {media : Mqtt.Media} {p : Peripheral}
    (h : Agrees s (.upload (.insert media p) :: ts)) :
    Agrees s ts ↔ (s.Stored media.kitSerial media.id → Referred s ts media.kitSerial media.id) := by
  constructor
  · exact fun h' => referred_of_stored h'
  · intro hended
    refine ⟨h.found, fun key hkey => ?_⟩
    obtain ⟨kitSerial, id, rfl, hreferred⟩ := h.referred key hkey
    refine ⟨kitSerial, id, rfl, ?_⟩
    rcases hreferred with hrow | hqueue | hflight
    · exact Or.inl hrow
    · exact Or.inr (Or.inl hqueue)
    · rcases inFlight_cons.mp hflight with ⟨rfl, rfl⟩ | hflight
      · exact hended hkey
      · exact Or.inr (Or.inr hflight)

theorem agrees_insert (os : List Origin) {s : Services} {ts : List MediaTask} {media : Mqtt.Media}
    {p : Peripheral} {table : Table Media Media.id}
    (h : Agrees s (.upload (.insert media p) :: ts))
    (hins : s.store.media.insert? (newMedia media p).row = some table) :
    Agrees { s with store := { s.store with media := table }, origins := os } ts
      ↔ FindsObject s (newMedia media p).row
        ∧ (s.Stored media.kitSerial media.id →
          (∃ k, Kit.byId p.kitId s.store = some k ∧ k.serial = media.kitSerial)
            ∨ Referred s ts media.kitSerial media.id) := by
  have hmem : ∀ m, m ∈ table ↔ m ∈ s.store.media ∨ m = (newMedia media p).row :=
    fun m => Table.mem_insert? hins
  have hreferred : ∀ kitSerial id,
      Referred { s with store := { s.store with media := table }, origins := os } ts kitSerial id
        ↔ (media.id = id ∧ ∃ k, Kit.byId p.kitId s.store = some k ∧ k.serial = kitSerial)
          ∨ Referred s ts kitSerial id := by
    intro kitSerial id
    constructor
    · rintro (⟨m, hm, hid, hk⟩ | hother)
      · rcases (hmem m).mp hm with hm | rfl
        · exact Or.inr (Or.inl ⟨m, hm, hid, hk⟩)
        · exact Or.inl ⟨hid, hk⟩
      · exact Or.inr (Or.inr hother)
    · rintro (⟨hid, hk⟩ | ⟨m, hm, hid, hk⟩ | hother)
      · exact Or.inl ⟨_, (hmem _).mpr (Or.inr rfl), hid, hk⟩
      · exact Or.inl ⟨m, (hmem m).mpr (Or.inl hm), hid, hk⟩
      · exact Or.inr hother
  constructor
  · intro h'
    refine ⟨h'.found _ ((hmem _).mpr (Or.inr rfl)), fun hstored => ?_⟩
    exact ((hreferred _ _).mp (referred_of_stored h' hstored)).imp_left And.right
  · rintro ⟨hfound, hended⟩
    constructor
    · intro m hm
      rcases (hmem m).mp hm with hm | rfl
      · exact h.found m hm
      · exact hfound
    · intro key hkey
      obtain ⟨kitSerial, id, rfl, hold⟩ := h.referred key hkey
      refine ⟨kitSerial, id, rfl, (hreferred _ _).mpr ?_⟩
      rcases hold with hrow | hqueue | hflight
      · exact Or.inr (Or.inl hrow)
      · exact Or.inr (Or.inr (Or.inl hqueue))
      · rcases inFlight_cons.mp hflight with ⟨rfl, rfl⟩ | hflight
        · exact (hended hkey).imp_left fun hk => ⟨rfl, hk⟩
        · exact Or.inr (Or.inr (Or.inr hflight))

theorem mem_delete_kits {s : Store} {doomed : Store.Doomed} {id : Int} {k : Kit}
    (hk : Kit.byId id s = some k) (hfree : doomed.kitId s id = false) :
    k ∈ s.kits.delete doomed.kit := by
  obtain ⟨hmem, hid⟩ := Kit.mem_of_byId hk
  have hnot := List.any_eq_false.mp hfree k hmem
  refine SerialTable.mem_delete.mpr ⟨hmem, ?_⟩
  simpa [hid] using hnot

theorem Deletion.byId_seen {d : Deletion} {s : Store} {m : Media} {k : Kit}
    (hd : d.removes s m.peripheralId m.kitId m.kitConfigurationId = false)
    (hk : Kit.byId m.kitId s = some k) : Kit.byId m.kitId (d.seen s) = some k := by
  obtain ⟨target, now, stage⟩ := d
  cases stage with
  | insert | queue _ | delete _ | owner _ _ => exact hk
  | commit queued deleted doomed =>
      cases doomed with
      | none => exact hk
      | some doomed =>
          have hrefers : doomed.refers s m.peripheralId m.kitId m.kitConfigurationId = false := hd
          simp only [Store.Doomed.refers, Bool.or_eq_false_iff] at hrefers
          exact SerialTable.find?_eq_some.mpr
            ⟨mem_delete_kits hk hrefers.1.2, (Kit.mem_of_byId hk).2⟩

theorem agrees_commit {s : Services} {ts : List MediaTask} {d : Deletion} (h : Agrees s ts)
    (hd : (MediaTask.deletion d).Restricted s.store) :
    Agrees { s with store := d.seen s.store } ts
      ↔ ∀ m ∈ s.store.media, d.deletesMedia m.id = true →
        (∃ m' ∈ d.stage.queued, m'.id = m.id) ∨ s.store.queuesId m.id = true
          ∨ ∃ k, Kit.byId m.kitId s.store = some k ∧ InFlight ts k.serial m.id := by
  have hqueues : ∀ id, (d.seen s.store).queuesId id = true
      ↔ (∃ m' ∈ d.stage.queued, m'.id = id) ∨ s.store.queuesId id = true := by
    intro id
    have hseen := not_congr (@Deletion.queuesId_seen d s.store id)
    rw [Bool.not_eq_false, not_and_or, Bool.not_eq_false] at hseen
    rw [hseen, or_comm]
    simp
  constructor
  · intro h' m hm hdel
    obtain ⟨k, hk, hstored⟩ := h.found m hm
    rcases referred_of_stored h' hstored with ⟨m', hm', hid, -⟩ | hqueue | hflight
    · have hleft := (Deletion.mem_media_seen.mp hm').2
      rw [hid, hdel] at hleft
      cases hleft
    · exact ((hqueues m.id).mp hqueue).imp_right Or.inl
    · exact Or.inr (Or.inr ⟨k, hk, hflight⟩)
  · intro hgone
    constructor
    · intro m hm
      obtain ⟨hmem, hdel⟩ := Deletion.mem_media_seen.mp hm
      obtain ⟨k, hk, hstored⟩ := h.found m hmem
      exact ⟨k, Deletion.byId_seen (hd d rfl m hmem hdel) hk, hstored⟩
    · intro key hkey
      obtain ⟨kitSerial, id, rfl, hold⟩ := h.referred key hkey
      refine ⟨kitSerial, id, rfl, ?_⟩
      rcases hold with ⟨m, hm, rfl, k, hk, rfl⟩ | hqueue | hflight
      · by_cases hdel : d.deletesMedia m.id = true
        · rcases hgone m hm hdel with hqueued | hqueue | ⟨k', hk', hflight⟩
          · exact Or.inr (Or.inl ((hqueues _).mpr (Or.inl hqueued)))
          · exact Or.inr (Or.inl ((hqueues _).mpr (Or.inr hqueue)))
          · obtain rfl := Option.some.inj (hk.symm.trans hk')
            exact Or.inr (Or.inr hflight)
        · have hleft : d.deletesMedia m.id = false := Bool.eq_false_iff.mpr hdel
          refine Or.inl ⟨m, Deletion.mem_media_seen.mpr ⟨hm, hleft⟩, rfl, k, ?_, rfl⟩
          exact Deletion.byId_seen (hd d rfl m hm hleft) hk
      · exact Or.inr (Or.inl ((hqueues _).mpr (Or.inr hqueue)))
      · exact Or.inr (Or.inr hflight)

/-- A step of an upload, seen together with the other tasks. -/
theorem agreeing_upload {x : Crates} {e : ServiceEnv} {u : Upload} {ts : List MediaTask}
    {s s' : Services} {k : Option MediaTask} (h : Agrees s (.upload u :: ts))
    (hadv : (statements x).advance e (.upload u) ts s = some (s', k)) :
    Agrees s' (k.toList ++ ts) ↔ (MediaTask.upload u).Settled s ts True := by
  obtain ⟨-, next, hupload, rfl⟩ := statements_upload hadv
  cases u with
  | start media =>
      have hsame : s' = s := by
        cases Upload.advances_of_advance hupload <;> rfl
      rw [hsame]
      refine iff_of_true (h.mono fun media' p hmem => ?_) trivial
      rcases List.mem_cons.mp hmem with heq | hmem
      · cases heq
      · exact List.mem_append_right _ hmem
  | put media p =>
      have hothers : Agrees s ts := h.mono fun media' p' hmem => by
        rcases List.mem_cons.mp hmem with heq | hmem
        · cases heq
        · exact hmem
      exact iff_of_true (agrees_put hothers hupload) trivial
  | insert media p =>
      simp only [MediaTask.Settled, true_and]
      cases Upload.advances_of_advance hupload with
      | inserts hrun =>
          have hadds := NewMedia.insertable_of_ok hrun
          obtain ⟨-, rfl, -, table, hins, rfl⟩ := NewMedia.create_ok hrun
          have hinsert := agrees_insert
            (s.origins ++ [⟨.media (newMedia media p).row, .media media, s.store⟩]) h hins
          simp only [hadds, forall_const, true_and]
          exact hinsert
      | insertFails hrun =>
          have hadds := NewMedia.not_insertable_of_error hrun
          simp only [hadds, false_imp_iff, true_and, false_and, false_or]
          exact agrees_end h

/-- **One step keeps rows and objects in agreement exactly when it is settled.** -/
theorem agreeing_step {x : Crates} {c c' : Conc Services MediaTask}
    {l : Sched MediaRequest ServiceEnv} (hc : ∀ t ∈ c.tasks, t.Known c.store) (ha : Agreeing c)
    (h : (statements x).step c l = some c') : Agreeing c' ↔ SettledSteps c l := by
  rcases Program.step_cases h with ⟨r, rfl, rfl⟩ | ⟨i, e, t, s', k, rfl, ht, hadv, rfl⟩
    | ⟨i, t, rfl, ht, -, rfl⟩
  · exact iff_of_true (ha.mono fun _ _ hmem => List.mem_append_left _ hmem) trivial
  · have hok : SettledSteps c (.run i e) ↔ t.Settled c.store (c.tasks.eraseIdx i) True := by
      simp [SettledSteps, ht]
    have hcons := (agrees_perm (Program.perm_of_getElem? ht)).mp ha
    have hthis := hc t (List.mem_of_getElem? ht)
    rw [hok, Agreeing, agrees_perm (Program.replace_perm k ht)]
    generalize c.tasks.eraseIdx i = ts at hcons hadv
    -- what is not an upload leaves the uploads alone
    have hnext : (∀ u, t ≠ .upload u) → Agrees c.store (k.toList ++ ts) := by
      intro hne
      refine hcons.mono fun media p hmem => List.mem_append_right _ ?_
      exact (List.mem_cons.mp hmem).resolve_left fun heq => hne _ heq.symm
    cases t with
    | upload u => exact agreeing_upload hcons hadv
    | request task =>
        obtain ⟨rfl, -⟩ := request_step hthis.1 hadv
        exact iff_of_true (hnext fun u h => by cases h) trivial
    | deletion d =>
        have hagrees := hnext fun u h => by cases h
        obtain ⟨store, next, hstatement, rfl, rfl⟩ := statements_deletion hadv
        rcases Deletion.advance_media hstatement with ⟨rfl, hstage, -⟩
          | ⟨queued, deleted, doomed, hstage, rfl, rfl⟩
        · exact iff_of_true hagrees fun _ _ _ _ h => absurd h (hstage _ _ _)
        · have hqueued : d.stage.queued = queued := by rw [hstage]; rfl
          refine (agrees_commit hagrees hthis.2).trans ?_
          rw [hqueued]
          constructor
          · intro hgone queued' deleted' doomed' _ hstage'
            rw [hstage] at hstage'
            cases hstage'
            exact hgone
          · exact fun hsettled => hsettled queued deleted doomed trivial hstage
  · have hok : SettledSteps c (.fault i) ↔ t.Settled c.store (c.tasks.eraseIdx i) False := by
      simp [SettledSteps, ht]
    have hcons := (agrees_perm (Program.perm_of_getElem? ht)).mp ha
    rw [hok, Agreeing]
    generalize c.tasks.eraseIdx i = ts at hcons
    have hothers : (∀ media p, t ≠ .upload (.insert media p)) → Agrees c.store ts := by
      intro hne
      refine hcons.mono fun media p hmem => ?_
      exact (List.mem_cons.mp hmem).resolve_left fun heq => hne media p heq.symm
    cases t with
    | upload u =>
        cases u with
        | insert media p =>
            simp only [MediaTask.Settled, false_and, false_imp_iff, true_and, false_or]
            exact agrees_end hcons
        | start _ | put _ _ => exact iff_of_true (hothers fun _ _ h => by cases h) trivial
    | request task => exact iff_of_true (hothers fun _ _ h => by cases h) trivial
    | deletion d =>
        exact iff_of_true (hothers fun _ _ h => by cases h) fun _ _ _ h => h.elim

/-- Without an upload, every object is referred to by a row or the queue. -/
theorem Agreeing.quiescent {c : Conc Services MediaTask} (h : Agreeing c)
    (hc : ∀ u, .upload u ∉ c.tasks) : Agrees c.store [] :=
  h.mono fun _ _ hmem => absurd hmem (hc _)

/-- **Uploads and metadata.** From a state in which rows and objects agree, a run
keeps them in agreement exactly when all its steps are settled; whenever no
upload is running, every row's object is then found and every object is referred
to by a row or the queue. -/
theorem uploads_agree_iff (x : Crates) (s₀ : Services) (h₀ : Agrees s₀ [])
    (ls : List (Sched MediaRequest ServiceEnv)) :
    (Run.Always (statements x).step Agreeing ⟨s₀, []⟩ ls
        ↔ Run.Guarded (statements x).step SettledSteps ⟨s₀, []⟩ ls)
      ∧ (Run.Guarded (statements x).step SettledSteps ⟨s₀, []⟩ ls →
        Run.Always (statements x).step
          (fun c => (∀ u, .upload u ∉ c.tasks) → Agrees c.store []) ⟨s₀, []⟩ ls) := by
  have hiff : Run.Always (statements x).step Agreeing ⟨s₀, []⟩ ls
      ↔ Run.Guarded (statements x).step SettledSteps ⟨s₀, []⟩ ls :=
    Run.always_iff_guarded (J := fun c => ∀ t ∈ c.tasks, t.Known c.store)
      (fun _ _ _ hc h => known_step hc h) (fun _ _ _ hc ha h => agreeing_step hc ha h) ls
      (fun t ht => by cases ht) h₀
  exact ⟨hiff, fun hok => (hiff.mpr hok).mono fun _ ha hc => ha.quiescent hc⟩

/-! ## Two runs -/

theorem agrees_start {s : Store} (hs : ∀ m, m ∉ s.media) : Agrees (.start s) [] where
  found m hm := absurd hm (hs m)
  referred key hkey := by simp [Services.start] at hkey

/-- The object is put before its row is inserted. -/
theorem uploads_agree_iff_leaf :
    Run.Always (statements plainCrates).step Agreeing ⟨.start administeredKit, []⟩ (storeLeaf 0)
      ∧ Run.Always (statements plainCrates).step
        (fun c => (∀ u, .upload u ∉ c.tasks) → Agrees c.store [])
        ⟨.start administeredKit, []⟩ (storeLeaf 0) := by
  obtain ⟨hiff, hquiescent⟩ := uploads_agree_iff plainCrates (.start administeredKit)
    (agrees_start fun m hm => by cases hm) (storeLeaf 0)
  have halone : ∀ (c : Conc Services MediaTask) t, c.tasks = [t] →
      t.Settled c.store [] True → SettledSteps c (.run 0 {}) := by
    intro c t htasks hsettled t' ht
    rw [htasks] at ht ⊢
    obtain rfl := Option.some.inj ht
    exact hsettled
  have hinserted : ∀ (c : Conc Services MediaTask) media peripheral k,
      c.tasks = [.upload (.insert media peripheral)] →
      (newMedia media peripheral).Insertable c.store.store →
      Kit.byId peripheral.kitId c.store.store = some k → k.serial = media.kitSerial →
      c.store.Stored media.kitSerial media.id → SettledSteps c (.run 0 {}) := by
    intro c media peripheral k htasks hinsertable hk hserial hstored
    refine halone c _ htasks ⟨fun _ => ⟨k, hk, ?_⟩, fun _ => Or.inl ⟨⟨trivial, hinsertable⟩, k, hk,
      hserial⟩⟩
    rw [hserial]
    exact hstored
  have hsettled : Run.Guarded (statements plainCrates).step SettledSteps
      ⟨.start administeredKit, []⟩ (storeLeaf 0) := by
    refine (Run.guarded_cons rfl).mpr ⟨trivial, ?_⟩
    refine (Run.guarded_cons rfl).mpr ⟨halone _ _ rfl trivial, ?_⟩
    refine (Run.guarded_cons rfl).mpr ⟨halone _ _ rfl trivial, ?_⟩
    exact (Run.guarded_cons rfl).mpr
      ⟨hinserted _ _ _ _ rfl ⟨by decide, rfl, rfl⟩ rfl rfl rfl, trivial⟩
  exact ⟨hiff.mpr hsettled, hquiescent hsettled⟩

/-- The put fails, and the row is inserted all the same. -/
theorem row_without_object :
    ∃ c, Run.exec (statements plainCrates).step ⟨.start administeredKit, []⟩
        [uploadLeaf, .run 0 {}, .run 0 { putOk := false }, .run 0 {}] = some c
      ∧ c.tasks.length = 0 ∧ c.store.store.media.rows.map (·.id) = [7]
      ∧ downloadMedia (some 1) 7 c.store = .ok none ∧ ¬ Agrees c.store [] := by
  refine ⟨_, rfl, rfl, rfl, rfl, fun h => ?_⟩
  obtain ⟨k, -, hstored⟩ := h.found _ (List.mem_singleton.mpr rfl)
  cases hstored

/-- The object is put, and the insertion fails. -/
theorem object_without_row :
    ∃ c, Run.exec (statements plainCrates).step ⟨.start administeredKit, []⟩
        [uploadLeaf, .run 0 {}, .run 0 {}, .fault 0] = some c
      ∧ c.tasks.length = 0 ∧ c.store.store.media.rows = []
      ∧ c.store.Stored "k1" 7 ∧ ¬ Agrees c.store [] := by
  have hrun : ∃ c, Run.exec (statements plainCrates).step ⟨.start administeredKit, []⟩
        [uploadLeaf, .run 0 {}, .run 0 {}, .fault 0] = some c
      ∧ c.tasks.length = 0 ∧ c.store.store.media.rows = []
      ∧ c.store.store.queueMediaPendingDeletion.rows = []
      ∧ c.store.objects = AList.insert (objectKey "k1" 7) [0] ∅ := ⟨_, rfl, rfl, rfl, rfl, rfl⟩
  obtain ⟨c, hrun, htasks, hmedia, hqueue, hobjects⟩ := hrun
  have hstored : c.store.Stored "k1" 7 := by
    rw [Services.Stored, Services.getObject, hobjects, AList.lookup_insert]
    rfl
  refine ⟨c, hrun, htasks, hmedia, hstored, fun h => ?_⟩
  rcases referred_of_stored h hstored with ⟨m, hm, -⟩ | hqueues | ⟨_, _, hmem, -⟩
  · rw [Table.mem_def, hmedia] at hm
    cases hm
  · rw [Store.queuesId, hqueue] at hqueues
    cases hqueues
  · cases hmem

end AstroPlant
