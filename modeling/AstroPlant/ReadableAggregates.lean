import AstroPlant.Attribution
import AstroPlant.Measurements

/-!
# Which aggregates can be read back

A float that is not finite is stored as `null`, which is not read back as a
float. So a stored aggregate is converted to a view, and to the same map,
exactly if all its values are finite. A type with a null character is stored as
well, but it has no place among the columns of the archive. One such message is
enough to fail the pages it is on and the archives it goes into; without any,
none fails (`aggregates_survive_iff`).

A map of values goes into JSON and comes back with the same entries if it comes
back at all (`valuesFromJson_aggregateRow`), and it does exactly if all values
are finite. What is asked of the rows is `Serves`, for the pages and for the
archive. It is a property of the set of rows, so deletions keep it
(`Serves.of_subset`) and an insertion keeps it exactly if the new row is storable
(`serves_insert`); nothing but the ingest inserts rows.
-/

namespace AstroPlant

/-! ## Maps -/

theorem lookup_foldl_insert {es : List (Σ _ : String, F64)} (h : es.NodupKeys)
    (acc : Mqtt.AggregateValues) (k : String) :
    ((es.map fun e => (e.1, e.2)).foldl (fun m v => m.insert v.1 v.2) acc).lookup k
      = (es.dlookup k).or (acc.lookup k) := by
  induction es generalizing acc with
  | nil => rfl
  | cons e es ih =>
      obtain ⟨hfresh, hes⟩ := List.nodupKeys_cons.mp h
      rw [List.map_cons, List.foldl_cons, ih hes]
      by_cases hk : k = e.1
      · subst hk
        rw [AList.lookup_insert, List.dlookup_eq_none.mpr hfresh, List.dlookup_cons_eq]
        rfl
      · rw [AList.lookup_insert_ne hk, List.dlookup_cons_ne _ _ hk]

theorem lookup_collectValues (m : Mqtt.AggregateValues) (k : String) :
    (Mqtt.collectValues (m.entries.map fun e => (e.1, e.2))).lookup k = m.lookup k := by
  rw [Mqtt.collectValues, lookup_foldl_insert m.nodupKeys]
  simp [AList.lookup]

theorem mapM_isSome {α β : Type} {f : α → Option β} {l : List α} :
    (l.mapM f).isSome = l.all fun a => (f a).isSome := by
  induction l with
  | nil => rfl
  | cons a l ih =>
      rw [List.mapM_cons, List.all_cons, ← ih]
      cases f a <;> cases l.mapM f <;> rfl

/-! ## One message -/

/-- All values are finite. -/
def Mqtt.AggregateMeasurement.finite (m : Mqtt.AggregateMeasurement) : Bool :=
  m.values.entries.all (·.2.isFinite)

/-- No type contains the null character. -/
def Mqtt.AggregateMeasurement.plain (m : Mqtt.AggregateMeasurement) : Bool :=
  m.values.entries.all fun e => !e.1.toList.contains '\x00'

theorem mapM_toF64? (es : List (Σ _ : String, F64)) :
    (es.map fun e => (e.1, Json.ofF64 e.2)).mapM
        (fun (f : String × Json) => f.2.toF64?.map (f.1, ·))
      = if es.all (·.2.isFinite) then some (es.map fun e => (e.1, e.2)) else none := by
  induction es with
  | nil => rfl
  | cons e es ih =>
      rw [List.map_cons, List.mapM_cons, ih, Json.toF64?_ofF64, List.all_cons]
      by_cases he : e.2.isFinite = true
      · rw [if_pos he, he, Bool.true_and]
        split <;> rfl
      · rw [if_neg he]
        simp [he]

theorem valuesFromJson_aggregateRow (m : Mqtt.AggregateMeasurement) (config : KitIdAndConfigId) :
    valuesFromJson (aggregateRow m config).values
      = if m.finite then
          some (Mqtt.collectValues (m.values.entries.map fun e => (e.1, e.2)))
        else none := by
  rw [aggregateRow, valuesToJson, valuesFromJson, mapM_toF64?, Mqtt.AggregateMeasurement.finite]
  split <;> rfl

/-- The view of a stored message, with the same map, exists exactly if its
values are finite. -/
theorem tryFrom_aggregateRow (m : Mqtt.AggregateMeasurement) (config : KitIdAndConfigId) :
    (∃ v, AggregateMeasurementView.tryFrom (aggregateRow m config) = .ok v
      ∧ ∀ k, v.values.lookup k = m.values.lookup k) ↔ m.finite = true := by
  have hread := valuesFromJson_aggregateRow m config
  by_cases hfinite : m.finite = true
  · rw [if_pos hfinite] at hread
    refine iff_of_true ?_ hfinite
    simp only [AggregateMeasurementView.tryFrom, hread]
    exact ⟨_, rfl, lookup_collectValues m.values⟩
  · rw [if_neg hfinite] at hread
    refine iff_of_false ?_ hfinite
    simp only [AggregateMeasurementView.tryFrom, hread]
    rintro ⟨v, hv, -⟩
    cases hv

/-- A row that can be converted, and whose types are columns. -/
def AggregateMeasurement.readable (m : AggregateMeasurement) : Bool :=
  (valuesFromJson m.values).isSome && (jsonObjectKeys m.values).isSome

theorem readable_aggregateRow (m : Mqtt.AggregateMeasurement) (config : KitIdAndConfigId) :
    (aggregateRow m config).readable = (m.finite && m.plain) := by
  have hvalues : (valuesFromJson (aggregateRow m config).values).isSome = m.finite := by
    rw [valuesFromJson_aggregateRow]
    cases m.finite <;> rfl
  have hkeys : (jsonObjectKeys (aggregateRow m config).values).isSome = m.plain := by
    simp only [aggregateRow, valuesToJson, jsonObjectKeys, Mqtt.AggregateMeasurement.plain,
      List.any_map, List.all_eq_not_any_not, Bool.not_not, Function.comp_def]
    cases m.values.entries.any fun e => e.1.toList.contains '\x00' <;> rfl
  rw [AggregateMeasurement.readable, hvalues, hkeys]

/-! ## One store -/

/-- No request for a page of aggregates and no archive of a kit fails on a row
of the store. -/
structure Serves (s : Store) : Prop where
  pages : ∀ kitId query cursor,
    ∃ r, aggregatesResponse (AggregateMeasurement.page kitId query cursor s) = .ok r
  archives : ∀ kitId filter,
    ∃ f, writeAggregates kitId filter s s = some f ∧ f.complete = true

theorem writeRows_complete (keys : List String) (rows : List AggregateMeasurement) :
    (writeRows keys rows).2 = rows.all fun m => (valuesFromJson m.values).isSome := by
  induction rows with
  | nil => rfl
  | cons m ms ih =>
      simp only [writeRows, List.all_cons]
      cases valuesFromJson m.values with
      | none => rfl
      | some values => simpa using ih

/-- An archive is complete if the rows that both of its queries find can be
read. -/
theorem writeAggregates_complete {kitId : Int} {filter : ArchiveQuery} {s₁ s₂ : Store} :
    (∃ f, writeAggregates kitId filter s₁ s₂ = some f ∧ f.complete = true)
      ↔ (∀ m ∈ archived kitId filter s₁, (jsonObjectKeys m.values).isSome = true)
        ∧ ∀ m ∈ archived kitId filter s₂, (valuesFromJson m.values).isSome = true := by
  have hkeys : (aggregateKeys (archived kitId filter s₁)).isSome
      = (archived kitId filter s₁).all fun m => (jsonObjectKeys m.values).isSome := by
    rw [aggregateKeys, Option.isSome_map, mapM_isSome]
  rw [← List.all_eq_true, ← List.all_eq_true, ← hkeys]
  cases hk : aggregateKeys (archived kitId filter s₁) with
  | none => simp [writeAggregates, hk]
  | some keys => simp [writeAggregates, hk, writeRows_complete]

/-- A store serves everything exactly if every row is readable: a row that is
not is in an archive of its kit. -/
theorem serves_iff {s : Store} :
    Serves s ↔ ∀ m ∈ s.aggregateMeasurements, m.readable = true := by
  constructor
  · intro h m hm
    have hmem : m ∈ archived m.kitId ⟨none, none, none⟩ s :=
      Table.mem_select.mpr ⟨hm, by simp⟩
    obtain ⟨hkeys, hvalues⟩ := writeAggregates_complete.mp (h.archives m.kitId ⟨none, none, none⟩)
    rw [AggregateMeasurement.readable, hvalues m hmem, hkeys m hmem]
    rfl
  · intro h
    have hread : ∀ m ∈ s.aggregateMeasurements,
        (valuesFromJson m.values).isSome = true ∧ (jsonObjectKeys m.values).isSome = true :=
      fun m hm => (Bool.and_eq_true ..).mp (h m hm)
    constructor
    · intro kitId query cursor
      exact aggregatesResponse_ok_iff.mpr fun m hm =>
        (hread m (AggregateMeasurement.mem_of_mem_page hm)).1
    · intro kitId filter
      exact writeAggregates_complete.mpr
        ⟨fun m hm => (hread m (Table.mem_select.mp hm).1).2,
          fun m hm => (hread m (Table.mem_select.mp hm).1).1⟩

/-- Over a store that serves, a request for a page fails only for its cursor or
for lack of permission. -/
theorem kitAggregateMeasurements_error {parse : String → Option AggregateCursor}
    {userId : Option Int} {kitSerial : String} {query : AggregatesQuery}
    {atPermission atPage : Store} {p : Problem} (hs : Serves atPage)
    (h : kitAggregateMeasurements parse userId kitSerial query atPermission atPage = .error p) :
    (∃ cursor, query.cursor = some cursor ∧ parse cursor = none ∧ p = .BAD_REQUEST)
      ∨ (futKitPermissionOrForbidden userId kitSerial .view).run atPermission = .error p := by
  have hrest : ∀ cursor, ((futKitPermissionOrForbidden userId kitSerial .view).run atPermission >>=
      fun r => aggregatesResponse (AggregateMeasurement.page r.1.2.2.id query cursor atPage))
        = .error p →
      (futKitPermissionOrForbidden userId kitSerial .view).run atPermission = .error p := by
    intro cursor hr
    cases hperm : (futKitPermissionOrForbidden userId kitSerial .view).run atPermission with
    | error p' =>
        rw [hperm] at hr
        simpa [bind, Except.bind] using hr
    | ok r =>
        obtain ⟨body, hbody⟩ := hs.pages r.1.2.2.id query cursor
        rw [hperm] at hr
        exact absurd (hbody.symm.trans hr) (by simp)
  rw [kitAggregateMeasurements] at h
  cases hcursor : query.cursor with
  | none =>
      rw [hcursor] at h
      exact Or.inr (hrest none h)
  | some cursor =>
      cases hparse : parse cursor with
      | none =>
          simp only [hcursor, hparse] at h
          exact Or.inl ⟨cursor, rfl, hparse, (Except.error.inj h).symm⟩
      | some c =>
          simp only [hcursor, hparse] at h
          exact Or.inr (hrest (some c) h)

/-! ## Runs -/

theorem aggregates_change {t : Task} {s s' : Store} (h : Change t s s') :
    ∀ m ∈ s'.aggregateMeasurements, m ∈ s.aggregateMeasurements := by
  intro m hm
  cases h with
  | deleteKit id now s₁ hqueue | deleteConfiguration id now s₁ hqueue =>
      rw [queueMedia_ok hqueue] at hm
      exact (Table.mem_delete.mp hm).1
  | deletePeripheral c p ht hnever => exact (Table.mem_delete.mp hm).1
  | deleteMedia id now s₁ hqueue =>
      rw [queueMedia_ok hqueue] at hm
      exact hm
  | patchConfiguration kit c patch now s₁ ht hfrozen hs₁ =>
      rcases hs₁ with rfl | rfl
      · exact hm
      · exact hm
  | nothing | createKit _ _ _ _ | updateKit _ _ | addMember _ _
  | patchKitMembership _ _ _ _ _ | deleteKitMembership _ _ _ | createConfiguration _ _ _
  | cloneConfiguration _ _ _ _ | addPeripheral _ _ _ _ _ _ _ _
  | patchPeripheral _ _ _ _ _ _ _ => exact hm

/-- If this step stores an aggregate, its values are finite and its types are
plain. -/
def ServiceTask.storable (s : Services) : ServiceTask → Bool
  | .ingest (.insert (.aggregate m) config) =>
      (s.store.insertAggregateMeasurement (aggregateRow m config)).isNone || (m.finite && m.plain)
  | _ => true

def StorableAggregates : Conc Services ServiceTask → Sched ServiceRequest ServiceEnv → Prop :=
  Program.Ok (fun _ _ _ => True) fun _ t _ s => t.storable s = true

theorem Serves.of_subset {s s' : Store} (hs : Serves s)
    (h : ∀ m ∈ s'.aggregateMeasurements, m ∈ s.aggregateMeasurements) : Serves s' :=
  serves_iff.mpr fun m hm => serves_iff.mp hs m (h m hm)

/-- Storing one more aggregate keeps the store serving exactly if it is
readable. -/
theorem serves_insert {m : AggregateMeasurement} {s s' : Store} (hs : Serves s)
    (h : s.insertAggregateMeasurement m = some s') : Serves s' ↔ m.readable = true := by
  have hmem : ∀ m', m' ∈ s'.aggregateMeasurements ↔ m' ∈ s.aggregateMeasurements ∨ m' = m := by
    unfold Store.insertAggregateMeasurement at h
    split at h
    · rename_i table hins
      split at h
      · obtain rfl := Option.some.inj h
        exact fun m' => Table.mem_insert? hins
      · cases h
    · cases h
  rw [serves_iff]
  constructor
  · exact fun hall => hall m ((hmem m).mpr (Or.inr rfl))
  · intro hm m' hm'
    rcases (hmem m').mp hm' with hm' | rfl
    · exact serves_iff.mp hs m' hm'
    · exact hm

theorem serves_ingest {e : ServiceEnv} {s : Services} {i : Ingest} (hs : Serves s.store) :
    Serves (i.advance e s).1.store ↔ (ServiceTask.ingest i).storable s = true := by
  cases i with
  | start raw =>
      simp only [Ingest.advance]
      split <;> exact iff_of_true hs rfl
  | query raw => exact iff_of_true hs rfl
  | queried raw res => cases res <;> exact iff_of_true hs rfl
  | lastSeen config =>
      simp only [Ingest.advance]
      split
      · rename_i store hstore
        obtain ⟨_, rfl⟩ := Store.upsertKitLastSeen_eq_some hstore
        exact iff_of_true (hs.of_subset fun _ hm => hm) rfl
      · exact iff_of_true hs rfl
  | insert raw config =>
      cases raw with
      | raw m =>
          simp only [Ingest.advance, Ingest.insertRow]
          cases hins : s.store.insertRawMeasurement (rawRow m config) with
          | none => exact iff_of_true hs rfl
          | some store =>
              obtain ⟨-, _, rfl⟩ := Store.insertRawMeasurement_eq_some hins
              exact iff_of_true (hs.of_subset fun _ hm => hm) rfl
      | aggregate m =>
          simp only [Ingest.advance, Ingest.insertRow, ServiceTask.storable]
          cases hins : s.store.insertAggregateMeasurement (aggregateRow m config) with
          | none => exact iff_of_true hs rfl
          | some store =>
              rw [← readable_aggregateRow m config]
              exact serves_insert hs hins

/-- **One step keeps the store serving exactly when it stores what can be
read.** -/
theorem serves_step {x : Crates} {c c' : Conc Services ServiceTask}
    {l : Sched ServiceRequest ServiceEnv} (hs : Serves c.store.store)
    (h : (services x).step c l = some c') :
    Serves c'.store.store ↔ StorableAggregates c l := by
  rcases Program.step_cases h with ⟨r, rfl, rfl⟩ | ⟨i, e, t, s', k, rfl, ht, hadv, rfl⟩
    | ⟨i, t, rfl, ht, -, rfl⟩
  · exact iff_of_true hs trivial
  · have hok : StorableAggregates c (.run i e) ↔ t.storable c.store = true := by
      simp [StorableAggregates, Program.Ok, ht]
    rw [hok]
    cases t with
    | api task =>
        obtain ⟨store, next, hapi, rfl, -⟩ := services_api hadv
        exact iff_of_true (hs.of_subset (aggregates_change (api_change hapi))) rfl
    | upload u =>
        obtain ⟨next, hu, -⟩ := services_upload hadv
        refine iff_of_true ?_ rfl
        rcases Upload.store_cases hu with hs' | ⟨_, _, _, -, -, hs'⟩
        · rw [hs']
          exact hs
        · rw [hs']
          exact hs.of_subset fun _ hm => hm
    | ingest i' =>
        obtain ⟨next, hi, -⟩ := services_ingest hadv
        have hs' := serves_ingest (e := e) (i := i') hs
        rwa [hi] at hs'
  · exact iff_of_true hs trivial

/-- **Aggregates survive the store** exactly when they can be read: a message is
converted back to the same map exactly if its values are finite, and in the
states of a run nothing that reads aggregates fails on a row exactly if each
message stored along the run has finite values and plain types. -/
theorem aggregates_survive_iff {x : Crates} {s₀ : Store} (h₀ : Serves s₀)
    (ls : List (Sched ServiceRequest ServiceEnv)) :
    (∀ m config, (∃ v, AggregateMeasurementView.tryFrom (aggregateRow m config) = .ok v
        ∧ ∀ k, v.values.lookup k = m.values.lookup k) ↔ m.finite = true)
      ∧ (Run.Always (services x).step (fun c => Serves c.store.store) ⟨.start s₀, []⟩ ls
        ↔ Run.Guarded (services x).step StorableAggregates ⟨.start s₀, []⟩ ls) :=
  ⟨tryFrom_aggregateRow,
    Run.always_iff_guarded (J := fun _ => True) (fun _ _ _ _ _ => trivial)
      (fun _ _ _ _ hs h => serves_step hs h) ls trivial h₀⟩

/-- An aggregate of one value, ready to be stored for the first kit. -/
def storeAggregate (value : F64) : List (Sched ServiceRequest ServiceEnv) :=
  [.spawn (.measurement (.aggregate
      ⟨1, "k1", 0, 60, 1, 1, Mqtt.collectValues [("count", F64.one), ("average", value)]⟩)),
    .run 0 {}, .run 0 {}, .run 0 {}, .run 0 {}]

theorem serves_twoKits : Serves twoKits := serves_iff.mpr fun _ hm => by cases hm

/-- A finite average is served throughout. -/
theorem aggregates_survive_iff_one :
    (∃ c, Run.exec (services plainCrates).step ⟨.start twoKits, []⟩ (storeAggregate F64.one)
        = some c ∧ c.store.store.aggregateMeasurements.rows.map (·.id) = [1])
      ∧ Run.Always (services plainCrates).step (fun c => Serves c.store.store)
          ⟨.start twoKits, []⟩ (storeAggregate F64.one) := by
  have hok : Run.Guarded (services plainCrates).step
      (Program.Ok (fun _ _ _ => True) fun _ t _ s => t.storable s = true)
      ⟨.start twoKits, []⟩ (storeAggregate F64.one) := by
    decide
  exact ⟨⟨_, rfl, rfl⟩, (aggregates_survive_iff serves_twoKits _).2.mpr hok⟩

/-- An average that is not a number is stored, and then the page that it is on
and the archive of its kit fail. -/
theorem nan_aggregate_fails :
    ∃ c m, Run.exec (services plainCrates).step ⟨.start twoKits, []⟩ (storeAggregate F64.nan)
        = some c
      ∧ c.store.store.aggregateMeasurements.rows = [m]
      ∧ AggregateMeasurementView.tryFrom m = .error .INTERNAL_SERVER_ERROR
      ∧ aggregatesResponse (AggregateMeasurement.page 1 ⟨none, none, none, none⟩ none
          c.store.store) = .error .INTERNAL_SERVER_ERROR
      ∧ (writeAggregates 1 ⟨none, none, none⟩ c.store.store c.store.store).map
          (fun f => (f.lines.length, f.complete)) = some (0, false) :=
  ⟨_, _, rfl, rfl, rfl, rfl, rfl⟩

end AstroPlant
