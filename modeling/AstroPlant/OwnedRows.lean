import AstroPlant.Attribution

/-!
# Every row carries the owners of what it refers to

A peripheral repeats the kit of its configuration, and measurements and media
repeat the kit and the configuration of their peripheral. The schema does not
tie these columns to each other. They agree in every state that the API, the
uploads and the ingest reach (`ownership_coherent`): a row is inserted with the
owners of a row read before, these never change, and what a row refers to is
not deleted without it.

The last part needs the foreign keys at two places, where a task acts on rows
it read earlier (`Task.References`): a peripheral is only inserted under a
configuration that is still there, and it is only deleted if no media refer to
it.

`Owned` says for each table that its rows name a peripheral which is there and
have its owners. The proof is by cases over the statements: an insertion copies
owners from a row that was read (`ServiceTask.Coherent`), and a deletion removes
what refers to it (`owned_remove`). Since ids are never reused, what was read
about a peripheral is true of it as long as it is there (`Store.Owns.mono`).
-/

namespace AstroPlant

/-- There is such a peripheral, with these owners. -/
def Store.Owns (s : Store) (peripheralId kitId kitConfigurationId : Int) : Prop :=
  ∃ p ∈ s.peripherals, p.id = peripheralId ∧ p.kitId = kitId
    ∧ p.kitConfigurationId = kitConfigurationId

/-- Each of the five tables with ownership columns agrees with what its rows
refer to. -/
structure Owned (s : Store) : Prop where
  peripherals : ∀ p ∈ s.peripherals, ∃ c ∈ s.kitConfigurations,
    c.id = p.kitConfigurationId ∧ c.kitId = p.kitId
  rawMeasurements : ∀ m ∈ s.rawMeasurements,
    s.Owns m.peripheralId m.kitId m.kitConfigurationId
  aggregateMeasurements : ∀ m ∈ s.aggregateMeasurements,
    s.Owns m.peripheralId m.kitId m.kitConfigurationId
  media : ∀ m ∈ s.media, s.Owns m.peripheralId m.kitId m.kitConfigurationId

theorem Owned.coherent {s : Store} (hs : Owned s) : Coherent s := by
  intro p hp
  obtain ⟨c, hc, hid, hkit⟩ := hs.peripherals p hp
  rw [← hid]
  refine ⟨SerialTable.key_lt_next hc, fun c' hc' hid' => ?_⟩
  rw [SerialTable.eq_of_key_eq hc' hc hid', hkit]

theorem owns_of_ownersOf {s : Store} {peripheralId kitId configId : Int}
    (ho : OwnersOf s peripheralId kitId configId)
    (hp : (s.peripherals.find? peripheralId).isSome = true) :
    s.Owns peripheralId kitId configId := by
  obtain ⟨p, hp⟩ := Option.isSome_iff_exists.mp hp
  obtain ⟨hmem, hid⟩ := SerialTable.find?_eq_some.mp hp
  obtain ⟨hkit, hconf⟩ := Prod.mk.inj (ho.2 p hmem hid)
  exact ⟨p, hmem, hid, hkit, hconf⟩

/-! ## What the foreign keys add -/

/-- The rows that the last step of a request must still find, or must find
gone. -/
def Task.References (s : Store) : Task → Prop
  | .onConfiguration _ c (.addPeripheral _) => ∃ c' ∈ s.kitConfigurations, c'.id = c.id
  | .onPeripheral _ p .delete =>
      ∀ p' ∈ s.peripherals, p'.id = p.id → ∀ m ∈ s.media, m.peripheralId ≠ p.id
  | _ => True

theorem NewPeripheral.create_references {new : NewPeripheral} {s s' : Store} {p : Peripheral}
    (h : new.create.run s = .ok (p, s')) :
    ∃ c ∈ s.kitConfigurations, c.id = new.kitConfigurationId := by
  rw [create, Tx.run_write_ok] at h
  split at h
  · cases h
  · split at h
    · rename_i href
      simp only [Bool.and_eq_true] at href
      obtain ⟨c, hc⟩ := Option.isSome_iff_exists.mp href.1.2
      exact ⟨c, KitConfiguration.mem_of_byId hc⟩
    · cases h

theorem addPeripheralToConfiguration_references {x : Crates} {kit : Kit}
    {configuration : KitConfiguration} {peripheral : PeripheralBody} {s s' : Store} {r : Reply}
    (h : (addPeripheralToConfiguration x kit configuration peripheral).run s = .ok (r, s')) :
    ∃ c ∈ s.kitConfigurations, c.id = configuration.id := by
  obtain ⟨-, h⟩ := Tx.run_ensure_bind_ok.mp h
  obtain ⟨_, -, h⟩ := Tx.run_ofExcept_bind_ok.mp h
  rw [Tx.run_read_bind] at h
  obtain ⟨_, -, h⟩ := Tx.run_ofOption_bind_ok.mp h
  obtain ⟨_, -, h⟩ := Tx.run_ofExcept_bind_ok.mp h
  obtain ⟨_, s₁, h₁, -⟩ := Tx.run_bind_ok.mp h
  exact NewPeripheral.create_references (run_db_ok.mp h₁)

/-- `ON DELETE RESTRICT`: no media refer to a peripheral that is deleted. -/
theorem deletePeripheral_references {configuration : KitConfiguration} {peripheral : Peripheral}
    {s s' : Store} {r : Reply}
    (h : (deletePeripheral configuration peripheral).run s = .ok (r, s')) :
    ∀ p ∈ s.peripherals, p.id = peripheral.id → ∀ m ∈ s.media, m.peripheralId ≠ peripheral.id := by
  obtain ⟨-, h⟩ := Tx.run_ensure_bind_ok.mp h
  obtain ⟨_, s₁, h₁, -⟩ := Tx.run_bind_ok.mp h
  obtain ⟨-, hfree⟩ := Store.deleteRows_ok (run_db_ok.mp h₁)
  intro p hp hid m hm heq
  have hrefers := hfree m hm
  simp only [Store.Doomed.refers, Bool.or_eq_false_iff] at hrefers
  have hnot := List.any_eq_false.mp hrefers.1.1 p hp
  simp [Store.doomed, hid, heq] at hnot

theorem Task.tx_references {x : Crates} {e : Env} {t : Task} {s s' : Store} {n : Task ⊕ Reply}
    (h : (t.tx x e).run s = .ok (n, s')) : t.References s := by
  cases t with
  | onConfiguration kit configuration op =>
      cases op with
      | addPeripheral body =>
          obtain ⟨_, h, -⟩ := finish_ok h
          exact addPeripheralToConfiguration_references h
      | patch _ | delete => trivial
  | onPeripheral configuration peripheral op =>
      cases op with
      | delete =>
          obtain ⟨_, h, -⟩ := finish_ok h
          exact deletePeripheral_references h
      | patch _ => trivial
  | _ => trivial

/-! ## Steps of the API -/

/-- Peripherals that stay with their owners own what they owned. -/
theorem Store.Owns.mono {s s' : Store} {peripheralId kitId kitConfigurationId : Int}
    (h : s.Owns peripheralId kitId kitConfigurationId)
    (hp : ∀ p ∈ s.peripherals, p.id = peripheralId → ∃ p' ∈ s'.peripherals, p'.id = p.id
      ∧ p'.kitId = p.kitId ∧ p'.kitConfigurationId = p.kitConfigurationId) :
    s'.Owns peripheralId kitId kitConfigurationId := by
  obtain ⟨p, hmem, rfl, rfl, rfl⟩ := h
  exact hp p hmem rfl

/-- A step that keeps the rows of measurements and media, and the peripherals
with their owners. -/
theorem Owned.of_peripherals {s s' : Store} (hs : Owned s)
    (hraw : s'.rawMeasurements = s.rawMeasurements)
    (haggregate : s'.aggregateMeasurements = s.aggregateMeasurements)
    (hmedia : ∀ m ∈ s'.media, m ∈ s.media)
    (hkeep : ∀ p ∈ s.peripherals, ∃ p' ∈ s'.peripherals, p'.id = p.id
      ∧ p'.kitId = p.kitId ∧ p'.kitConfigurationId = p.kitConfigurationId)
    (hperipherals : ∀ p ∈ s'.peripherals, ∃ c ∈ s'.kitConfigurations,
      c.id = p.kitConfigurationId ∧ c.kitId = p.kitId) : Owned s' where
  peripherals := hperipherals
  rawMeasurements m hm := by
    rw [hraw] at hm
    exact (hs.rawMeasurements m hm).mono fun p hp _ => hkeep p hp
  aggregateMeasurements m hm := by
    rw [haggregate] at hm
    exact (hs.aggregateMeasurements m hm).mono fun p hp _ => hkeep p hp
  media m hm := (hs.media m (hmedia m hm)).mono fun p hp _ => hkeep p hp

theorem owned_queueMedia {now : Timestamp} {q : Media → Bool} {s s' : Store} {u : Unit}
    (hs : Owned s) (h : (queueMedia now q).run s = .ok (u, s')) : Owned s' := by
  rw [queueMedia_ok h]
  exact hs.of_peripherals rfl rfl (fun m hm => (Table.mem_delete.mp hm).1)
    (fun p hp => ⟨p, hp, rfl, rfl, rfl⟩) hs.peripherals

/-- What refers to no doomed peripheral keeps its peripheral. -/
theorem owns_remove {s : Store} {d : Store.Doomed} {peripheralId kitId kitConfigurationId : Int}
    (h : s.Owns peripheralId kitId kitConfigurationId)
    (hd : d.peripheralId s peripheralId = false) :
    (s.remove d).Owns peripheralId kitId kitConfigurationId := by
  refine h.mono fun p hp hid => ⟨p, SerialTable.mem_delete.mpr ⟨hp, ?_⟩, rfl, rfl, rfl⟩
  have hnot := List.any_eq_false.mp hd p hp
  simpa [hid] using hnot

/-- Deleting takes everything with it that refers to what goes, except for
media: these must not refer to it. -/
theorem owned_remove {s : Store} (hs : Owned s) (kit : Kit → Bool)
    (configuration : KitConfiguration → Bool) (peripheral : Peripheral → Bool)
    (hmedia : ∀ m ∈ s.media,
      (s.doomed kit configuration peripheral).peripheralId s m.peripheralId = false) :
    Owned (s.remove (s.doomed kit configuration peripheral)) where
  peripherals := by
    intro p hp
    obtain ⟨hp, hd⟩ := SerialTable.mem_delete.mp hp
    obtain ⟨c, hc, hid, hkit⟩ := hs.peripherals p hp
    refine ⟨c, SerialTable.mem_delete.mpr ⟨hc, ?_⟩, hid, hkit⟩
    simp only [Store.doomed, Bool.or_eq_false_iff] at hd ⊢
    have hnot := List.any_eq_false.mp hd.2 c hc
    simpa [hid] using hnot
  rawMeasurements := by
    intro m hm
    obtain ⟨hm, hrefers⟩ := Table.mem_delete.mp hm
    simp only [Store.Doomed.refers, Bool.or_eq_false_iff] at hrefers
    exact owns_remove (hs.rawMeasurements m hm) hrefers.1.1
  aggregateMeasurements := by
    intro m hm
    obtain ⟨hm, hrefers⟩ := Table.mem_delete.mp hm
    simp only [Store.Doomed.refers, Bool.or_eq_false_iff] at hrefers
    exact owns_remove (hs.aggregateMeasurements m hm) hrefers.1.1
  media m hm := owns_remove (hs.media m hm) (hmedia m hm)

/-- A peripheral is spared by a deletion that selects neither itself nor its
configuration nor its kit. -/
theorem Owned.spared {s : Store} (hs : Owned s) {kit : Kit → Bool}
    {configuration : KitConfiguration → Bool} {peripheral : Peripheral → Bool}
    {peripheralId kitId kitConfigurationId : Int}
    (ho : s.Owns peripheralId kitId kitConfigurationId)
    (hk : ∀ k, kit k = true → k.id ≠ kitId)
    (hc : ∀ c, configuration c = true → c.id ≠ kitConfigurationId)
    (hp : ∀ p ∈ s.peripherals, peripheral p = true → p.id ≠ peripheralId) :
    (s.doomed kit configuration peripheral).peripheralId s peripheralId = false := by
  obtain ⟨p, hmem, rfl, rfl, rfl⟩ := ho
  obtain ⟨c, hcmem, hcid, hckit⟩ := hs.peripherals p hmem
  have hkitId : (s.kits.rows.any fun k => kit k && k.id == p.kitId) = false := by
    refine List.any_eq_false.mpr fun k _ hk' => ?_
    simp only [Bool.and_eq_true, beq_iff_eq] at hk'
    exact hk k hk'.1 hk'.2
  refine List.any_eq_false.mpr fun p' hp' hdoomed => ?_
  simp only [Store.doomed, Bool.and_eq_true, Bool.or_eq_true, beq_iff_eq] at hdoomed
  obtain ⟨(hsel | hkit) | hconf, hid⟩ := hdoomed
  · exact hp p' hp' hsel hid
  · obtain rfl := SerialTable.eq_of_key_eq hp' hmem hid
    rw [hkitId] at hkit
    cases hkit
  · obtain rfl := SerialTable.eq_of_key_eq hp' hmem hid
    obtain ⟨c', hc', hc'sel⟩ := List.any_eq_true.mp hconf
    simp only [Bool.and_eq_true, Bool.or_eq_true, beq_iff_eq] at hc'sel
    obtain ⟨hsel | hkit, hid'⟩ := hc'sel
    · exact hc c' hsel hid'
    · obtain rfl := SerialTable.eq_of_key_eq hc' hcmem (hid'.trans hcid.symm)
      rw [hckit, hkitId] at hkit
      cases hkit

/-- **The step lemma.** Whatever is inserted has the owners of what it refers
to, and nothing goes without what refers to it. -/
theorem owned_change {t : Task} {s s' : Store} (hs : Owned s) (ht : t.Coherent s)
    (href : t.References s) (h : Change t s s') : Owned s' := by
  have hkeep : ∀ p ∈ s.peripherals, ∃ p' ∈ s.peripherals, p'.id = p.id
      ∧ p'.kitId = p.kitId ∧ p'.kitConfigurationId = p.kitConfigurationId :=
    fun p hp => ⟨p, hp, rfl, rfl, rfl⟩
  cases h with
  | deleteKit id now s₁ hqueue =>
      have hs₁ : Owned s₁ := owned_queueMedia hs hqueue
      refine owned_remove hs₁ _ _ _ fun m hm => ?_
      have hkit : m.kitId ≠ id := by
        rw [queueMedia_ok hqueue] at hm
        simpa using (Table.mem_delete.mp hm).2
      refine hs₁.spared (hs₁.media m hm) (fun k hk hid => ?_) (fun c hc => by cases hc)
        fun p _ hp => by cases hp
      rw [decide_eq_true_eq] at hk
      exact hkit (hid.symm.trans hk)
  | deleteConfiguration id now s₁ hqueue =>
      have hs₁ : Owned s₁ := owned_queueMedia hs hqueue
      refine owned_remove hs₁ _ _ _ fun m hm => ?_
      have hconf : m.kitConfigurationId ≠ id := by
        rw [queueMedia_ok hqueue] at hm
        simpa using (Table.mem_delete.mp hm).2
      refine hs₁.spared (hs₁.media m hm) (fun k hk => by cases hk) (fun c hc hid => ?_)
        fun p _ hp => by cases hp
      rw [decide_eq_true_eq] at hc
      exact hconf (hid.symm.trans hc)
  | deletePeripheral c p ht' hnever =>
      subst ht'
      refine owned_remove hs _ _ _ fun m hm => ?_
      refine hs.spared (hs.media m hm) (fun k hk => by cases hk) (fun c hc => by cases hc)
        fun p' hp' hsel hid => ?_
      rw [decide_eq_true_eq] at hsel
      exact href p' hp' hsel m hm (hid.symm.trans hsel)
  | deleteMedia id now s₁ hqueue => exact owned_queueMedia hs hqueue
  | cloneConfiguration kit source now hkit =>
      refine hs.of_peripherals rfl rfl (fun m hm => hm)
        (fun p hp => ⟨p, SerialTable.mem_insertAll_of_mem hp, rfl, rfl, rfl⟩) fun p hp => ?_
      rcases SerialTable.mem_insertAll hp with hp | ⟨p₀, -, i, -, rfl⟩
      · obtain ⟨c, hc, hid, hkit⟩ := hs.peripherals p hp
        exact ⟨c, NewKitConfiguration.mem_insert.mpr (Or.inl hc), hid, hkit⟩
      · exact ⟨_, NewKitConfiguration.mem_insert.mpr (Or.inr rfl), rfl, rfl⟩
  | createConfiguration new now hkit =>
      refine hs.of_peripherals rfl rfl (fun m hm => hm) hkeep fun p hp => ?_
      obtain ⟨c, hc, hid, hkit⟩ := hs.peripherals p hp
      exact ⟨c, NewKitConfiguration.mem_insert.mpr (Or.inl hc), hid, hkit⟩
  | patchConfiguration kit c patch now s₁ ht' hfrozen hs₁ =>
      have hconf : ∀ p ∈ s.peripherals, ∃ c ∈ s₁.kitConfigurations,
          c.id = p.kitConfigurationId ∧ c.kitId = p.kitId := by
        intro p hp
        obtain ⟨c, hc, hid, hkit⟩ := hs.peripherals p hp
        rcases hs₁ with rfl | rfl
        · exact ⟨c, hc, hid, hkit⟩
        · refine ⟨_, SerialTable.mem_update.mpr ⟨c, hc, rfl⟩, ?_, ?_⟩
          · split <;> exact hid
          · split <;> exact hkit
      have hrows : s₁.peripherals = s.peripherals ∧ s₁.rawMeasurements = s.rawMeasurements
          ∧ s₁.aggregateMeasurements = s.aggregateMeasurements ∧ s₁.media = s.media := by
        rcases hs₁ with rfl | rfl <;> exact ⟨rfl, rfl, rfl, rfl⟩
      obtain ⟨hperipherals, hraw, haggregate, hmedia⟩ := hrows
      refine hs.of_peripherals hraw haggregate (fun m hm => by rwa [← hmedia]) (fun p hp => ?_)
        fun p hp => ?_
      · refine ⟨p, ?_, rfl, rfl, rfl⟩
        rw [← hperipherals] at hp
        exact hp
      · have hp' : p ∈ s₁.peripherals := hp
        rw [hperipherals] at hp'
        obtain ⟨c', hc', hid, hkit⟩ := hconf p hp'
        refine ⟨_, SerialTable.mem_update.mpr ⟨c', hc', rfl⟩, ?_, ?_⟩
        · split <;> exact hid
        · split <;> exact hkit
  | addPeripheral kit c body new ht' hnever hkit hconf =>
      subst ht'
      have hof : ConfigurationOf s c.id kit.id := ht
      obtain ⟨c', hc', hid'⟩ := href
      refine hs.of_peripherals rfl rfl (fun m hm => hm)
        (fun p hp => ⟨p, NewPeripheral.mem_insert.mpr (Or.inl hp), rfl, rfl, rfl⟩) fun p hp => ?_
      rcases NewPeripheral.mem_insert.mp hp with hp | rfl
      · exact hs.peripherals p hp
      · exact ⟨c', hc', hid'.trans hconf.symm, (hof.2 c' hc' hid').trans hkit.symm⟩
  | patchPeripheral c p patch u ht' hnever hid =>
      refine hs.of_peripherals rfl rfl (fun m hm => hm) (fun p hp => ?_) fun p hp => ?_
      · refine ⟨_, UpdatePeripheral.mem_applyTo.mpr ⟨p, hp, rfl⟩, ?_⟩
        split <;> exact ⟨rfl, rfl, rfl⟩
      · obtain ⟨p₀, hp₀, rfl⟩ := UpdatePeripheral.mem_applyTo.mp hp
        obtain ⟨c, hc, hid, hkit⟩ := hs.peripherals p₀ hp₀
        refine ⟨c, hc, ?_⟩
        split <;> exact ⟨hid, hkit⟩
  | nothing | createKit _ _ _ _ | updateKit _ _ | addMember _ _ | patchKitMembership _ _ _ _ _
  | deleteKitMembership _ _ _ =>
      exact hs.of_peripherals rfl rfl (fun m hm => hm) hkeep hs.peripherals

/-! ## Steps of the services -/

theorem NewMedia.owned {new : NewMedia} {s s' : Store} {m : Media} (hs : Owned s)
    (ho : OwnersOf s new.peripheralId new.kitId new.kitConfigurationId)
    (h : new.create.run s = .ok (m, s')) : Owned s' := by
  obtain ⟨-, rfl, href, table, hins, rfl⟩ := create_ok h
  simp only [references, Bool.and_eq_true] at href
  have hrow : s.Owns new.peripheralId new.kitId new.kitConfigurationId :=
    owns_of_ownersOf ho href.1.1
  refine { hs with media := fun m hm => ?_ }
  rcases (Table.mem_insert? hins).mp hm with hm | rfl
  · exact hs.media m hm
  · exact hrow

theorem owned_upload {e : ServiceEnv} {u : Upload} {s s' : Services} {next : Option Upload}
    (hs : Owned s.store) (hu : (ServiceTask.upload u).Knows s) (h : u.advance e s = (s', next)) :
    Owned s'.store := by
  cases Upload.advances_of_advance h with
  | @inserts media p _ _ hrun => exact @NewMedia.owned (newMedia media p) _ _ _ hs hu.2 hrun
  | oversized | looksUp | puts | putFails | insertFails => exact hs

theorem Store.insertRawMeasurement_owned {m : RawMeasurement} {s s' : Store} (hs : Owned s)
    (ho : OwnersOf s m.peripheralId m.kitId m.kitConfigurationId)
    (h : s.insertRawMeasurement m = some s') : Owned s' := by
  unfold insertRawMeasurement at h
  split at h
  · rename_i table hins
    split at h
    · rename_i href
      cases h
      have hrow : s.Owns m.peripheralId m.kitId m.kitConfigurationId :=
        owns_of_ownersOf ho (measured_peripheral href).1
      refine { hs with rawMeasurements := fun m' hm' => ?_ }
      rcases (Table.mem_insert? hins).mp hm' with hm' | rfl
      · exact hs.rawMeasurements m' hm'
      · exact hrow
    · cases h
  · cases h

theorem Store.insertAggregateMeasurement_owned {m : AggregateMeasurement} {s s' : Store}
    (hs : Owned s) (ho : OwnersOf s m.peripheralId m.kitId m.kitConfigurationId)
    (h : s.insertAggregateMeasurement m = some s') : Owned s' := by
  unfold insertAggregateMeasurement at h
  split at h
  · rename_i table hins
    split at h
    · rename_i href
      cases h
      have hrow : s.Owns m.peripheralId m.kitId m.kitConfigurationId :=
        owns_of_ownersOf ho (measured_peripheral href).1
      refine { hs with aggregateMeasurements := fun m' hm' => ?_ }
      rcases (Table.mem_insert? hins).mp hm' with hm' | rfl
      · exact hs.aggregateMeasurements m' hm'
      · exact hrow
    · cases h
  · cases h

theorem owned_ingest {e : ServiceEnv} {i : Ingest} {s s' : Services} {next : Option Ingest}
    (hs : Owned s.store) (hi : (ServiceTask.ingest i).Knows s) (h : i.advance e s = (s', next)) :
    Owned s'.store := by
  cases Ingest.advances_of_advance h with
  | @inserts raw config _ hinsert =>
      cases raw with
      | raw m =>
          obtain ⟨store, hstore, rfl⟩ := Option.map_eq_some_iff.mp hinsert
          exact @Store.insertRawMeasurement_owned (rawRow m config) _ _ hs hi.1 hstore
      | aggregate m =>
          obtain ⟨store, hstore, rfl⟩ := Option.map_eq_some_iff.mp hinsert
          exact @Store.insertAggregateMeasurement_owned (aggregateRow m config) _ _ hs hi.1 hstore
  | sees hupsert =>
      obtain ⟨_, rfl⟩ := Store.upsertKitLastSeen_eq_some hupsert
      exact { hs with }
  | cached | uncached | queries | misses | finds | conflicts | forgets => exact hs

/-! ## Runs of the services -/

/-- What a request of the API knows of the rows it has read. -/
def ServiceTask.Coherent (s : Services) : ServiceTask → Prop
  | .api task => task.Coherent s.store
  | _ => True

theorem ServiceTask.Coherent.keeps {s s' : Services} (h : Identity s.store s'.store)
    {t : ServiceTask} (ht : t.Coherent s) : t.Coherent s' := by
  cases t with
  | api task => exact Task.Coherent.keeps h ht
  | upload _ | ingest _ => trivial

theorem owned_api {x : Crates} {e : Env} {t : Task} {ts : List Task} {s s' : Store}
    {k : Option Task} (hs : Owned s) (ht : t.Coherent s)
    (h : (api x).advance e t ts s = some (s', k)) : Owned s' ∧ ∀ t' ∈ k, t'.Coherent s' := by
  rcases api_advance h with ⟨rfl, rfl⟩ | ⟨n, hr, rfl⟩
  · exact ⟨hs, fun t' ht' => by cases ht'⟩
  · refine ⟨owned_change hs ht (Task.tx_references hr) (Task.tx_change hr), fun t' ht' => ?_⟩
    cases n with
    | inl t₁ =>
        obtain rfl := Option.some.inj ht'
        exact ht.next hr
    | inr r => cases ht'

theorem owned_advance {x : Crates} {e : ServiceEnv} {t : ServiceTask} {ts : List ServiceTask}
    {s s' : Services} {k : Option ServiceTask} (hs : Owned s.store) (hknows : t.Knows s)
    (ht : t.Coherent s) (hts : ∀ u ∈ ts, u.Coherent s)
    (h : (services x).advance e t ts s = some (s', k)) :
    Owned s'.store ∧ (∀ t' ∈ k, t'.Coherent s') ∧ ∀ u ∈ ts, u.Coherent s' := by
  have hothers : ∀ u ∈ ts, u.Coherent s' :=
    fun u hu => (hts u hu).keeps (services_identity h)
  cases t with
  | api task =>
      obtain ⟨store, next, hr, rfl, rfl⟩ := services_api h
      obtain ⟨hs', hnext⟩ := owned_api hs ht hr
      refine ⟨hs', fun t' ht' => ?_, hothers⟩
      obtain ⟨task', htask', rfl⟩ := Option.map_eq_some_iff.mp ht'
      exact hnext task' htask'
  | upload u =>
      obtain ⟨next, hu, rfl⟩ := services_upload h
      refine ⟨owned_upload hs hknows hu, fun t' ht' => ?_, hothers⟩
      obtain ⟨u', -, rfl⟩ := Option.map_eq_some_iff.mp ht'
      trivial
  | ingest i =>
      obtain ⟨next, hi, rfl⟩ := services_ingest h
      refine ⟨owned_ingest hs hknows hi, fun t' ht' => ?_, hothers⟩
      obtain ⟨i', -, rfl⟩ := Option.map_eq_some_iff.mp ht'
      trivial

/-- Coherence, with what every request knows. -/
def OwnedRun (c : Conc Services ServiceTask) : Prop :=
  Program.Holds (fun s => Owned s.store) (fun s t => t.Coherent s) c

theorem coherent_entry (x : Crates) (s : Services) (r : ServiceRequest) :
    ((services x).entry r).Coherent s := by
  cases r <;> trivial

theorem ownedRun_step {x : Crates} {c c' : Conc Services ServiceTask}
    {l : Sched ServiceRequest ServiceEnv} (htrust : TrustedRun c) (hc : OwnedRun c)
    (h : (services x).step c l = some c') : OwnedRun c' := by
  have hboth : Program.Holds (fun s => Trusted s ∧ Owned s.store)
      (fun s t => t.Knows s ∧ t.Coherent s) c :=
    ⟨⟨htrust.1, hc.1⟩, fun t ht => ⟨htrust.2 t ht, hc.2 t ht⟩⟩
  have hstep := Program.holds_step (services x)
    (fun r _ s _ _ => ⟨knows_entry x s r, coherent_entry x s r⟩)
    (fun _ t ts s s' k _ hs ht hts hadv => by
      obtain ⟨htrust', hk, hothers⟩ :=
        trusted_advance hs.1 ht.1 (fun u hu => (hts u hu).1) hadv
      obtain ⟨howned', hk', hothers'⟩ :=
        owned_advance hs.2 ht.1 ht.2 (fun u hu => (hts u hu).2) hadv
      exact ⟨⟨htrust', howned'⟩, fun t' ht' => ⟨hk t' ht', hk' t' ht'⟩,
        fun u hu => ⟨hothers u hu, hothers' u hu⟩⟩)
    hboth (Program.ok_true c l) h
  exact ⟨hstep.1.2, fun t ht => (hstep.2 t ht).2⟩

theorem ownedRun_exec {x : Crates} {s₀ : Store} {ls : List (Sched ServiceRequest ServiceEnv)}
    {c : Conc Services ServiceTask} (h₀ : Owned s₀)
    (hrun : Run.exec (services x).step ⟨.start s₀, []⟩ ls = some c) :
    TrustedRun c ∧ OwnedRun c :=
  Run.exec_invariant (I := fun c => TrustedRun c ∧ OwnedRun c)
    (fun _ _ _ hc h => ⟨trustedRun_step hc.1 h, ownedRun_step hc.1 hc.2 h⟩)
    ⟨trustedRun_start s₀, h₀, fun t ht => by cases ht⟩ hrun

/-- **Ownership coherence.** In every state that the API, the uploads and the
ingest reach from a coherent one, each row carries the owners of the row it
refers to. -/
theorem ownership_coherent {x : Crates} {s₀ : Store}
    {ls : List (Sched ServiceRequest ServiceEnv)} {c : Conc Services ServiceTask}
    (h₀ : Owned s₀) (hrun : Run.exec (services x).step ⟨.start s₀, []⟩ ls = some c) :
    Owned c.store.store :=
  (ownedRun_exec h₀ hrun).2.1

/-- The two kits, and a user who is a member of both. -/
def gardener : Store :=
  let user := fun id => (⟨id, "carol", "carol", "", "carol", true, "", 0, 0⟩ : User)
  let membership := fun kitId id => (⟨id, 1, kitId, 2, true, true⟩ : KitMembership)
  let definition := fun id =>
    (⟨id, "thermometer", none, none, none, "", "", .null, none⟩ : PeripheralDefinition)
  { twoKits with
    users := SerialTable.empty.insert user fun _ => rfl
    peripheralDefinitions := SerialTable.empty.insert definition fun _ => rfl
    kitMemberships :=
      (SerialTable.empty.insert (membership 1) fun _ => rfl).insert (membership 2) fun _ => rfl }

theorem gardener_owned : Owned gardener := by
  refine ⟨fun p hp => ?_, fun m hm => ?_, fun m hm => ?_, fun m hm => ?_⟩
  · obtain rfl := List.mem_singleton.mp hp
    exact ⟨_, List.mem_singleton.mpr rfl, rfl, rfl⟩
  · cases hm
  · cases hm
  · cases hm

/-- A measurement and a picture of the first kit arrive while its configuration
is cloned to the second kit. -/
def cloneWhileReceiving : List (Sched ServiceRequest ServiceEnv) :=
  [.spawn (temperature "k1" 1), .spawn (.media ⟨7, "k1", 0, 1, "leaf", "image/png", [0], .null⟩),
    .spawn (.api (.createConfiguration (some 1) "k2" none (some 1))),
    .run 0 {}, .run 1 {}, .run 2 {}, .run 2 {}, .run 2 {}, .run 2 {},
    .run 0 {}, .run 1 {}, .run 0 {}, .run 0 {}, .run 0 {}, .run 0 {}]

theorem ownership_coherent_cloneWhileReceiving :
    ∃ c, Run.exec (services plainCrates).step ⟨.start gardener, []⟩ cloneWhileReceiving = some c
      ∧ c.tasks.length = 0
      ∧ c.store.store.peripherals.rows.map (fun p => (p.kitId, p.kitConfigurationId))
        = [(1, 1), (2, 2)]
      ∧ c.store.store.rawMeasurements.rows.map (·.kitId) = [1]
      ∧ c.store.store.media.rows.map (·.kitId) = [1]
      ∧ Owned c.store.store := by
  have hrun : ∃ c, Run.exec (services plainCrates).step ⟨.start gardener, []⟩
        cloneWhileReceiving = some c
      ∧ c.tasks.length = 0
      ∧ c.store.store.peripherals.rows.map (fun p => (p.kitId, p.kitConfigurationId))
        = [(1, 1), (2, 2)]
      ∧ c.store.store.rawMeasurements.rows.map (·.kitId) = [1]
      ∧ c.store.store.media.rows.map (·.kitId) = [1] :=
    ⟨_, rfl, rfl, rfl, rfl, rfl⟩
  obtain ⟨c, hrun, htasks, hperipherals, hraw, hmedia⟩ := hrun
  exact ⟨c, hrun, htasks, hperipherals, hraw, hmedia, ownership_coherent gardener_owned hrun⟩

end AstroPlant
