import AstroPlant.ArchiveText
import AstroPlant.ExactPages
import AstroPlant.IngestedOnce
import AstroPlant.MediaDownloads
import AstroPlant.PlainCodecs

/-!
# What readers get was published

Between a kit and a reader lie two connections to the broker, the parsers, the
ingest with its cache, the upload, the database, the object store and the
handlers, and any request may change the kits meanwhile. Still every aggregate on
a page and in an archive of a kit, and every byte of its media, is what was
published on a topic of this kit, and as it was published.

A row says who sent it only at the step that inserted it. So the argument goes
back to that step (`Run.exec_gained`): the task knew then whose kit it was, and a
kit keeps its serial from there to the reader, or from the reader to there.

What a page shows is the message as it was parsed (`AggregateMeasurementView.Shows`).
An archive shows less: its lines are texts, with the times in whole seconds, the
values in decimal and no id (`AggregateLine.Shows`). Two things are taken for
granted: a finite value that was written as JSON text is read as the same value,
and the object store never holds a part of an object.
-/

namespace AstroPlant

/-! ## Deliveries -/

namespace Mqtt

/-- The message in the stream for a publish, if any. -/
def streamed (codec : Codec) (topic : String) (payload : List UInt8) : Option Message :=
  match handlePublish codec topic payload with
  | .ok m => m
  | .error _ => none

/-- What the ingest service does with the messages of its stream. -/
def Message.ingest : Message → Option ServiceRequest
  | rawMeasurement m => some (.measurement (.raw m))
  | aggregateMeasurement m => some (.measurement (.aggregate m))
  | media _ => none

/-- What the API does with those of its own. Raw measurements go to the sockets,
and nothing is stored for them here. -/
def Message.upload : Message → Option ServiceRequest
  | media m => some (.media m)
  | rawMeasurement _ | aggregateMeasurement _ => none

end Mqtt

/-- The broker delivers a publish to the ingest service or to the API, which have
a connection each, a request arrives, or a task takes a step. -/
inductive Occurrence where
  | ingest (topic : String) (payload : List UInt8)
  | upload (topic : String) (payload : List UInt8)
  | request (r : Request)
  | run (i : Nat) (e : ServiceEnv)
  | fault (i : Nat)

namespace Occurrence

variable (codec : Mqtt.Codec)

def labels : Occurrence → List (Sched ServiceRequest ServiceEnv)
  | ingest topic payload =>
      (((Mqtt.streamed codec topic payload).bind Mqtt.Message.ingest).map .spawn).toList
  | upload topic payload =>
      (((Mqtt.streamed codec topic payload).bind Mqtt.Message.upload).map .spawn).toList
  | request r => [.spawn (.api r)]
  | run i e => [.run i e]
  | fault i => [.fault i]

/-- The services after these occurrences; `none` if a task is to take a step that it
cannot take. -/
def exec (x : Crates) (c : Conc Services ServiceTask) (os : List Occurrence) :
    Option (Conc Services ServiceTask) :=
  Run.exec (services x).step c (os.flatMap (labels codec))

end Occurrence

/-- The ingest service received the aggregate on the topic of the kit. -/
def Mqtt.AggregateMeasurement.PublishedBy (codec : Mqtt.Codec) (os : List Occurrence)
    (kitSerial : String) (m : Mqtt.AggregateMeasurement) : Prop :=
  m.kitSerial = kitSerial ∧ ∃ topic payload, .ingest topic payload ∈ os
    ∧ (Mqtt.Message.aggregateMeasurement m).ParsedFrom codec topic payload

/-- The API received the media on the topic of the kit. -/
def Mqtt.Media.PublishedBy (codec : Mqtt.Codec) (os : List Occurrence) (kitSerial : String)
    (m : Mqtt.Media) : Prop :=
  m.kitSerial = kitSerial ∧ ∃ topic payload, .upload topic payload ∈ os
    ∧ (Mqtt.Message.media m).ParsedFrom codec topic payload

/-- The view shows the aggregate. -/
structure AggregateMeasurementView.Shows (v : AggregateMeasurementView)
    (m : Mqtt.AggregateMeasurement) : Prop where
  id : v.id = m.id
  peripheralId : v.peripheralId = m.peripheral
  quantityTypeId : v.quantityTypeId = m.quantityType
  datetimeStart : v.datetimeStart = m.datetimeStart
  datetimeEnd : v.datetimeEnd = m.datetimeEnd
  values : ∀ type, v.values.lookup type = m.values.lookup type

/-- What the archive writes of the aggregate under these columns: the times in whole
seconds, the values as texts, and no id. -/
def Mqtt.AggregateMeasurement.fields (x : Rfc3339) (kitConfiguration : Int) (header : List String)
    (m : Mqtt.AggregateMeasurement) : List String :=
  [x.seconds m.datetimeStart, x.seconds m.datetimeEnd, i32ToString m.peripheral,
    i32ToString kitConfiguration, i32ToString m.quantityType]
    ++ header.map fun key => valueString (m.values.lookup key)

/-- The text of the line shows the aggregate, as far as an archive does. -/
def AggregateLine.Shows (x : Rfc3339) (l : AggregateLine) (header : List String)
    (m : Mqtt.AggregateMeasurement) : Prop :=
  ∃ kitConfiguration,
    (l.text x).toList = Csv.line ((m.fields x kitConfiguration header).map String.toList)

section

variable {x : Crates} {codec : Mqtt.Codec} {os : List Occurrence}
  {c c' : Conc Services ServiceTask} {l : Sched ServiceRequest ServiceEnv}
  {ls : List (Sched ServiceRequest ServiceEnv)}

/-! ## From the broker to the tasks -/

theorem Mqtt.streamed_parsed {topic : String} {payload : List UInt8} {m : Mqtt.Message}
    (h : Mqtt.streamed codec topic payload = some m) : m.ParsedFrom codec topic payload := by
  unfold Mqtt.streamed at h
  split at h
  · rename_i r hr
    exact Mqtt.parsedFrom_of_handlePublish (hr.trans (congrArg Except.ok h))
  · cases h

/-- What is ingested was streamed to the ingest service, and what is uploaded to the API. -/
theorem Occurrence.spawn_mem_labels {o : Occurrence} {r : ServiceRequest}
    (h : .spawn r ∈ o.labels codec) :
    (∃ topic payload m, o = .ingest topic payload
        ∧ Mqtt.streamed codec topic payload = some m ∧ m.ingest = some r)
      ∨ (∃ topic payload m, o = .upload topic payload
        ∧ Mqtt.streamed codec topic payload = some m ∧ m.upload = some r)
      ∨ ∃ r', o = .request r' ∧ r = .api r' := by
  cases o with
  | ingest topic payload =>
      obtain ⟨r', hr', heq⟩ := Option.map_eq_some_iff.mp (Option.mem_toList.mp h)
      obtain ⟨m, hm, hingest⟩ := Option.bind_eq_some_iff.mp hr'
      obtain rfl := Sched.spawn.inj heq
      exact Or.inl ⟨topic, payload, m, rfl, hm, hingest⟩
  | upload topic payload =>
      obtain ⟨r', hr', heq⟩ := Option.map_eq_some_iff.mp (Option.mem_toList.mp h)
      obtain ⟨m, hm, hupload⟩ := Option.bind_eq_some_iff.mp hr'
      obtain rfl := Sched.spawn.inj heq
      exact Or.inr (Or.inl ⟨topic, payload, m, rfl, hm, hupload⟩)
  | request r' =>
      obtain rfl := Sched.spawn.inj (List.mem_singleton.mp h)
      exact Or.inr (Or.inr ⟨r', rfl, rfl⟩)
  | run i e | fault i => cases List.mem_singleton.mp h

theorem publishedBy_of_measurement {m : Mqtt.AggregateMeasurement}
    (h : .spawn (.measurement (.aggregate m)) ∈ os.flatMap (Occurrence.labels codec)) :
    m.PublishedBy codec os m.kitSerial := by
  obtain ⟨o, ho, h⟩ := List.mem_flatMap.mp h
  rcases Occurrence.spawn_mem_labels h with ⟨topic, payload, m', rfl, hm', heq⟩
    | ⟨topic, payload, m', rfl, -, heq⟩ | ⟨_, -, heq⟩
  · cases m' <;> cases heq
    exact ⟨rfl, topic, payload, ho, Mqtt.streamed_parsed hm'⟩
  · cases m' <;> cases heq
  · cases heq

theorem publishedBy_of_media {m : Mqtt.Media}
    (h : .spawn (.media m) ∈ os.flatMap (Occurrence.labels codec)) :
    m.PublishedBy codec os m.kitSerial := by
  obtain ⟨o, ho, h⟩ := List.mem_flatMap.mp h
  rcases Occurrence.spawn_mem_labels h with ⟨topic, payload, m', rfl, -, heq⟩
    | ⟨topic, payload, m', rfl, hm', heq⟩ | ⟨_, -, heq⟩
  · cases m' <;> cases heq
  · cases m' <;> cases heq
    exact ⟨rfl, topic, payload, ho, Mqtt.streamed_parsed hm'⟩
  · cases heq

/-- The message that a task is about. -/
def ServiceTask.message : ServiceTask → Option ServiceRequest
  | .api _ => none
  | .upload (.start media) | .upload (.put media _) | .upload (.insert media _) =>
      some (.media media)
  | .ingest i => i.pending.map .measurement

theorem Ingest.pending_found {raw : Measurement} {f : KitAndConfigId} {i : Ingest}
    (h : Ingest.found raw f = some i) : i.pending = some raw := by
  obtain ⟨-, rfl⟩ := found_eq_some h
  rfl

theorem ServiceTask.message_advance {e : ServiceEnv} {t t' : ServiceTask} {ts : List ServiceTask}
    {s s' : Services} (h : (services x).advance e t ts s = some (s', some t')) :
    t'.message = t.message ∨ t'.message = none := by
  cases t with
  | api task =>
      obtain ⟨_, next, -, -, hnext⟩ := services_api h
      obtain ⟨task', -, rfl⟩ := Option.map_eq_some_iff.mp hnext.symm
      exact Or.inr rfl
  | upload u =>
      obtain ⟨next, hu, hnext⟩ := services_upload h
      obtain ⟨u', rfl, rfl⟩ := Option.map_eq_some_iff.mp hnext.symm
      left
      generalize hk : some u' = k at hu
      cases Upload.advances_of_advance hu with
      | oversized | inserts | insertFails => cases hk
      | looksUp hsize =>
          obtain ⟨p, -, rfl⟩ := Option.map_eq_some_iff.mp hk.symm
          rfl
      | puts | putFails =>
          cases hk
          rfl
  | ingest i =>
      obtain ⟨next, hi, hnext⟩ := services_ingest h
      obtain ⟨i', rfl, rfl⟩ := Option.map_eq_some_iff.mp hnext.symm
      generalize hk : some i' = k at hi
      cases Ingest.advances_of_advance hi with
      | cached | finds => exact Or.inl (congrArg (Option.map _) (Ingest.pending_found hk.symm))
      | uncached | queries =>
          cases hk
          exact Or.inl rfl
      | inserts =>
          cases hk
          exact Or.inr rfl
      | misses | conflicts | sees | forgets => cases hk

/-- Every task is about a message that has arrived. -/
def Arrived (past : List (Sched ServiceRequest ServiceEnv)) (c : Conc Services ServiceTask) :
    Prop :=
  ∀ t ∈ c.tasks, ∀ r ∈ t.message, .spawn r ∈ past

theorem arrived_step {past : List (Sched ServiceRequest ServiceEnv)} (hc : Arrived past c)
    (h : (services x).step c l = some c') : Arrived (past ++ [l]) c' := by
  have hkept : Arrived (past ++ [l]) c := fun t ht r hr => List.mem_append_left _ (hc t ht r hr)
  rcases Program.step_cases h with ⟨r, rfl, rfl⟩ | ⟨i, e, t, s', k, rfl, ht, hadv, rfl⟩
    | ⟨i, t, rfl, -, -, rfl⟩
  · intro t ht r' hr'
    rcases List.mem_append.mp ht with ht | ht
    · exact hkept t ht r' hr'
    · obtain rfl := List.mem_singleton.mp ht
      have : r' = r := by
        cases r <;> cases hr' <;> rfl
      rw [this]
      exact List.mem_append_right _ (List.mem_singleton_self _)
  · intro t' ht' r hr
    rcases Program.mem_replace ht' with ht' | ht'
    · obtain rfl : k = some t' := ht'
      rcases ServiceTask.message_advance hadv with hmessage | hmessage
      · rw [hmessage] at hr
        exact hkept t (List.mem_of_getElem? ht) r hr
      · rw [hmessage] at hr
        cases hr
    · exact hkept t' (List.mem_of_mem_eraseIdx ht') r hr
  · exact fun t' ht' => hkept t' (List.mem_of_mem_eraseIdx ht')

/-- The services start, or start again: nothing is cached. -/
def Services.restart (store : Store) (objects : AList fun _ : String => List UInt8) : Services :=
  { Services.start store with objects }

section Exec

variable {s₀ : Store} {objects₀ : AList fun _ : String => List UInt8}
  {c₁ c₂ : Conc Services ServiceTask} {ls₁ ls₂ : List (Sched ServiceRequest ServiceEnv)}

theorem arrived_exec (hrun : Run.exec (services x).step ⟨.restart s₀ objects₀, []⟩ ls = some c) :
    Arrived ls c :=
  Run.exec_labels (fun _ _ _ _ hc h => arrived_step hc h) (fun t ht => by cases ht) hrun

theorem trustedRun_exec (hrun : Run.exec (services x).step ⟨.restart s₀ objects₀, []⟩ ls = some c) :
    TrustedRun c := by
  have hstart := trustedRun_start s₀
  have hrestart : TrustedRun ⟨.restart s₀ objects₀, []⟩ :=
    ⟨⟨hstart.1.cache, hstart.1.measurements⟩, fun t ht => by cases ht⟩
  exact Run.exec_invariant (fun _ _ _ hc h => trustedRun_step hc h) hrestart hrun

theorem serialOf_exec {kitId : Int} {serial : String} (hs : SerialOf c.store.store kitId serial)
    (hrun : Run.exec (services x).step c ls = some c') : SerialOf c'.store.store kitId serial :=
  Program.store_exec (services x) (I := fun s => SerialOf s.store kitId serial)
    (fun _ _ _ _ _ _ hs hadv => hs.keeps (services_identity hadv)) hs hrun

/-! ## Aggregates -/

theorem mem_insertAggregateMeasurement {m row : AggregateMeasurement} {s s' : Store}
    (h : s.insertAggregateMeasurement m = some s') :
    row ∈ s'.aggregateMeasurements ↔ row ∈ s.aggregateMeasurements ∨ row = m := by
  unfold Store.insertAggregateMeasurement at h
  split at h
  · rename_i table hins
    split at h
    · obtain rfl := Option.some.inj h
      exact Table.mem_insert? hins
    · cases h
  · cases h

/-- A row that is new was inserted by an ingest, for a kit that was there. -/
theorem aggregates_gained {row : AggregateMeasurement} (h : (services x).step c l = some c')
    (hold : row ∉ c.store.store.aggregateMeasurements)
    (hnew : row ∈ c'.store.store.aggregateMeasurements) :
    ∃ m config, .ingest (.insert (.aggregate m) config) ∈ c.tasks ∧ row = aggregateRow m config
      ∧ ∃ k ∈ c.store.store.kits, k.id = config.kitId := by
  rcases Program.step_cases h with ⟨r, rfl, rfl⟩ | ⟨i, e, t, s', k, rfl, ht, hadv, rfl⟩
    | ⟨i, t, rfl, -, -, rfl⟩
  · exact absurd hnew hold
  · cases t with
    | api task =>
        obtain ⟨store, next, hapi, rfl, -⟩ := services_api hadv
        exact absurd (aggregates_change (api_change hapi) row hnew) hold
    | upload u =>
        obtain ⟨next, hu, -⟩ := services_upload hadv
        have hstore : s'.store.aggregateMeasurements = c.store.store.aggregateMeasurements := by
          rcases Upload.store_cases hu with hs' | ⟨_, _, _, -, -, hs'⟩ <;> rw [hs']
        exact absurd (hstore ▸ hnew) hold
    | ingest i' =>
        obtain ⟨next, hi, -⟩ := services_ingest hadv
        cases Ingest.advances_of_advance hi with
        | @inserts raw config _ hinsert =>
            cases raw with
            | raw m =>
                obtain ⟨store, hstore, rfl⟩ := Option.map_eq_some_iff.mp hinsert
                obtain ⟨-, _, rfl⟩ := Store.insertRawMeasurement_eq_some hstore
                exact absurd hnew hold
            | aggregate m =>
                obtain ⟨store, hstore, rfl⟩ := Option.map_eq_some_iff.mp hinsert
                obtain rfl := ((mem_insertAggregateMeasurement hstore).mp hnew).resolve_left hold
                obtain ⟨hmeasured, -⟩ := Store.insertAggregateMeasurement_eq_some hstore
                have hkit := (Store.measured_peripheral hmeasured).2
                obtain ⟨k, hk⟩ := Option.isSome_iff_exists.mp hkit
                exact ⟨m, config, List.mem_of_getElem? ht, rfl, k, SerialTable.find?_eq_some.mp hk⟩
        | sees hupsert =>
            obtain ⟨_, rfl⟩ := Store.upsertKitLastSeen_eq_some hupsert
            exact absurd hnew hold
        | cached | uncached | queries | misses | finds | conflicts | forgets =>
            exact absurd hnew hold
  · exact absurd hnew hold

/-- A row that was inserted while kits with this id had this serial. -/
theorem aggregate_of_gained {pre : List (Sched ServiceRequest ServiceEnv)} {kit : Kit}
    {row : AggregateMeasurement}
    (hrun : Run.exec (services x).step ⟨.restart s₀ objects₀, []⟩ pre = some c)
    (h : (services x).step c l = some c') (hold : row ∉ c.store.store.aggregateMeasurements)
    (hnew : row ∈ c'.store.store.aggregateMeasurements) (hkit : row.kitId = kit.id)
    (hserial : ∀ k ∈ c.store.store.kits, k.id = kit.id → k.serial = kit.serial) :
    ∃ m config, .spawn (.measurement (.aggregate m)) ∈ pre ∧ m.kitSerial = kit.serial
      ∧ row = aggregateRow m config := by
  obtain ⟨m, config, ht, rfl, k, hk, hid⟩ := aggregates_gained h hold hnew
  have hknown : Known c.store.store m.peripheral ⟨m.kitSerial, config.kitId, config.configId⟩ :=
    (trustedRun_exec hrun).2 _ ht
  refine ⟨m, config, arrived_exec hrun _ ht _ rfl, ?_, rfl⟩
  exact (hknown.2.2 k hk hid).symm.trans (hserial k hk (hid.trans hkit))

/-- **The aggregates of a kit are its own**, those apart that were there from the
start: also if the kit was known long before they are read, or long after they
came. -/
theorem aggregates_of_kit {kit : Kit} {row : AggregateMeasurement}
    (h₁ : Run.exec (services x).step ⟨.restart s₀ objects₀, []⟩ ls₁ = some c₁)
    (h₂ : Run.exec (services x).step c₁ ls₂ = some c₂) (hkit : kit ∈ c₁.store.store.kits)
    (hrow : row ∈ c₂.store.store.aggregateMeasurements) (hid : row.kitId = kit.id) :
    row ∈ s₀.aggregateMeasurements ∨ ∃ m config,
      .spawn (.measurement (.aggregate m)) ∈ ls₁ ++ ls₂ ∧ m.kitSerial = kit.serial
        ∧ row = aggregateRow m config := by
  by_cases hstart : row ∈ s₀.aggregateMeasurements
  · exact Or.inl hstart
  right
  by_cases hmid : row ∈ c₁.store.store.aggregateMeasurements
  · -- the row came first: the kits of then have kept their serials
    obtain ⟨pre, l, post, u, v, rfl, hpre, hstep, hpost, hold, hnew⟩ :=
      Run.exec_gained (P := fun c => row ∈ c.store.store.aggregateMeasurements) hstart hmid h₁
    obtain ⟨m, config, hm, hserial, hm'⟩ := aggregate_of_gained hpre hstep hold hnew hid
      fun k hk hkid => by
        have hkept := serialOf_exec (SerialOf.of_mem hk) (Run.exec_cons.mpr ⟨v, hstep, hpost⟩)
        exact (hkept.2 kit hkit hkid.symm).symm
    exact ⟨m, config, by simp [hm], hserial, hm'⟩
  · -- the kit came first, and has kept its serial
    obtain ⟨pre, l, post, u, v, rfl, hpre, hstep, -, hold, hnew⟩ :=
      Run.exec_gained (P := fun c => row ∈ c.store.store.aggregateMeasurements) hmid hrow h₂
    obtain ⟨m, config, hm, hserial, hm'⟩ := aggregate_of_gained
      (Run.exec_append.mpr ⟨c₁, h₁, hpre⟩) hstep hold hnew hid
      (serialOf_exec (SerialOf.of_mem hkit) hpre).2
    refine ⟨m, config, ?_, hserial, hm'⟩
    rcases List.mem_append.mp hm with hm | hm <;> simp [hm]

end Exec

/-- What the API shows of a row is what was in the message. -/
theorem shows_of_tryFrom {m : Mqtt.AggregateMeasurement} {config : KitIdAndConfigId}
    {v : AggregateMeasurementView}
    (h : AggregateMeasurementView.tryFrom (aggregateRow m config) = .ok v) : v.Shows m := by
  unfold AggregateMeasurementView.tryFrom at h
  rw [valuesFromJson_aggregateRow] at h
  split at h
  · rename_i values hvalues
    obtain rfl := Except.ok.inj h
    split at hvalues
    · obtain rfl := Option.some.inj hvalues
      exact ⟨rfl, rfl, rfl, rfl, rfl, lookup_collectValues m.values⟩
    · cases hvalues
  · cases h

theorem shows_of_writeRows (r : Rfc3339) {m : Mqtt.AggregateMeasurement}
    {config : KitIdAndConfigId} {keys : List String} {line : AggregateLine}
    (h : (writeRows keys [aggregateRow m config]).1 = [line]) : line.Shows r keys m := by
  simp only [writeRows, valuesFromJson_aggregateRow] at h
  split at h
  · cases h
  · rename_i values hvalues
    obtain rfl := (List.cons.inj h).1
    split at hvalues
    · obtain rfl := Option.some.inj hvalues
      refine ⟨config.configId, ?_⟩
      rw [AggregateLine.toList_text, AggregateLine.fields, List.map_map]
      simp only [lookup_collectValues, Function.comp_def]
      rfl
    · cases hvalues

theorem mem_writeRows {keys : List String} {rows : List AggregateMeasurement}
    {line : AggregateLine} (h : line ∈ (writeRows keys rows).1) :
    ∃ m ∈ rows, (writeRows keys [m]).1 = [line] := by
  induction rows with
  | nil => cases h
  | cons m ms ih =>
      cases hvalues : valuesFromJson m.values with
      | none =>
          rw [writeRows, hvalues] at h
          cases h
      | some values =>
          rw [writeRows, hvalues] at h
          rcases List.mem_cons.mp h with rfl | h
          · exact ⟨m, List.mem_cons_self, by simp only [writeRows, hvalues]⟩
          · obtain ⟨m', hm', hline⟩ := ih h
            exact ⟨m', List.mem_cons_of_mem _ hm', hline⟩

/-- **Readers of aggregates get what the kit published.** A page that the API serves, and
an archive that it writes, for a kit that was found under the serial at some time
before: each view shows an aggregate that was published on the topic of this very
serial, as it was published, and each line is the text of one. Only rows from
before the start are shown beside them. A finite value is taken to come back from
its JSON text as it was written there. -/
theorem aggregates_published {s₀ : Store} {objects₀ : AList fun _ : String => List UInt8}
    {os₁ os₂ : List Occurrence} {c₁ c₂ : Conc Services ServiceTask} (kitSerial : String)
    (h₁ : Occurrence.exec codec x ⟨.restart s₀ objects₀, []⟩ os₁ = some c₁)
    (h₂ : Occurrence.exec codec x c₁ os₂ = some c₂) :
    (∀ codecs userId query response,
      kitAggregateMeasurements (AggregateCursor.fromStr codecs) userId kitSerial query
          c₁.store.store c₂.store.store = .ok response →
        ∀ v ∈ response.body,
          (∃ row ∈ s₀.aggregateMeasurements, AggregateMeasurementView.tryFrom row = .ok v)
            ∨ ∃ m, Mqtt.AggregateMeasurement.PublishedBy codec (os₁ ++ os₂) kitSerial m
              ∧ v.Shows m)
      ∧ ∀ rfc kit o filter atKeys file, Kit.bySerial kitSerial c₁.store.store = some kit →
        writeAggregatesIn o kit.id filter atKeys c₂.store.store = some file →
          ∀ line ∈ file.lines,
            (∃ row ∈ s₀.aggregateMeasurements, (writeRows file.header [row]).1 = [line])
              ∨ ∃ m, Mqtt.AggregateMeasurement.PublishedBy codec (os₁ ++ os₂) kitSerial m
                ∧ line.Shows rfc file.header m := by
  have hrow : ∀ kit row, Kit.bySerial kitSerial c₁.store.store = some kit →
      row ∈ c₂.store.store.aggregateMeasurements → row.kitId = kit.id →
      row ∈ s₀.aggregateMeasurements ∨ ∃ m config,
        Mqtt.AggregateMeasurement.PublishedBy codec (os₁ ++ os₂) kitSerial m
          ∧ row = aggregateRow m config := by
    intro kit row hkit hrow hid
    have hserial : kit.serial = kitSerial := by simpa using List.find?_some hkit
    refine (aggregates_of_kit h₁ h₂ (List.mem_of_find?_eq_some hkit) hrow hid).imp_right ?_
    rintro ⟨m, config, hm, hm', rfl⟩
    rw [← List.flatMap_append] at hm
    refine ⟨m, config, ?_, rfl⟩
    rw [← hserial, ← hm']
    exact publishedBy_of_measurement hm
  constructor
  · intro codecs userId query response hresponse v hv
    let stores := (c₁.store.store, c₂.store.store)
    have hresponse : kitAggregateMeasurements (AggregateCursor.fromStr codecs) userId kitSerial
        query stores.1 stores.2 = .ok response := hresponse
    obtain ⟨hbody, -⟩ := kitAggregateMeasurements_ok hresponse
    obtain ⟨row, hpage, hview⟩ := Keyset.exists_left hbody hv
    have htable := (Keyset.mem_page hpage).1
    unfold AggregatesQuery.table at htable
    split at htable
    · cases htable
    · rename_i kit hkit
      obtain ⟨hmem, hmatches⟩ := Table.mem_select.mp htable
      simp only [AggregateMeasurement.matching, Bool.and_eq_true, decide_eq_true_eq] at hmatches
      rcases hrow kit row hkit hmem hmatches.1.1.1 with hstart | ⟨m, config, hm, rfl⟩
      · exact Or.inl ⟨row, hstart, hview⟩
      · exact Or.inr ⟨m, hm, shows_of_tryFrom hview⟩
  · intro rfc kit o filter atKeys file hkit hfile line hline
    obtain ⟨keys, -, rfl⟩ := Option.map_eq_some_iff.mp hfile
    obtain ⟨row, hscan, hwritten⟩ := mem_writeRows hline
    obtain ⟨hmem, hmatches⟩ := Table.mem_select.mp ((o.perm _).mem_iff.mp hscan)
    simp only [Bool.and_eq_true, decide_eq_true_eq] at hmatches
    rcases hrow kit row hkit hmem hmatches.1.1.1 with hstart | ⟨m, config, hm, rfl⟩
    · exact Or.inl ⟨row, hstart, hwritten⟩
    · exact Or.inr ⟨m, hm, shows_of_writeRows rfc hwritten⟩

/-- The packed message of an average over the first minute. -/
def averageMessage : List UInt8 :=
  [0x10, 0x0d, 0x50, 0x03, 0x03, 0x00, 0x00, 0x03, 0x60, 0xea, 0x11, 0x01, 0x01, 0x11, 0x09, 0x82,
    0x00, 0x00, 0x11, 0x09, 0x17, 0x00, 0x01, 0x51, 0x04, 0x01, 0x01, 0xc0, 0xf0, 0x3f, 0x11, 0x01,
    0x42, 0x7f, 0x61, 0x76, 0x65, 0x72, 0x61, 0x67, 0x65]

/-- The packed message of a picture of one byte. -/
def leafMessage : List UInt8 :=
  [0x10, 0x0f, 0x50, 0x02, 0x05, 0x00, 0x00, 0x01, 0x01, 0x11, 0x11, 0x82, 0x11, 0x15, 0x2a, 0x11,
    0x15, 0x52, 0x11, 0x19, 0x0a, 0x11, 0x19, 0x2a, 0x00, 0x01, 0x0f, 0x6c, 0x65, 0x61, 0x66, 0xff,
    0x69, 0x6d, 0x61, 0x67, 0x65, 0x2f, 0x70, 0x6e, 0x00, 0x01, 0x67, 0x01, 0x07, 0x0f, 0x6e, 0x75,
    0x6c, 0x6c]

/-- Reads these two messages, and finds everything else malformed. -/
def leafCodec : Mqtt.Codec where
  readRawMeasurement _ := .error .failed
  readAggregateMeasurement payload :=
    if payload = averageMessage then
      .ok ⟨.ok (List.replicate 16 0), 0, 60000, 1, 1, .ok [⟨.ok "average", F64.one⟩]⟩
    else .error .failed
  readMedia payload :=
    if payload = leafMessage then
      .ok ⟨.ok (List.replicate 16 0), 0, 1, .ok "leaf", .ok "image/png", .ok [7], .ok "null"⟩
    else .error .failed
  kitRpc := ⟨fun _ => .error .failed, fun text => if text = "null" then some .null else none⟩

/-- The average is published while the page is being requested. -/
def publishAverage : List Occurrence :=
  [.ingest "kit/k1/measurement/aggregate" averageMessage, .run 0 {}, .run 0 {}, .run 0 {},
    .run 0 {}]

/-- The page has it, and so has an archive of the kit. -/
theorem aggregates_published_publishAverage :
    ∃ c response v file line m m',
      Occurrence.exec leafCodec plainCrates ⟨.restart twoKits ∅, []⟩ publishAverage = some c
      ∧ kitAggregateMeasurements (AggregateCursor.fromStr plainCodecs) none "k1"
          ⟨none, none, none, none⟩ twoKits c.store.store = .ok response
      ∧ response.body = [v]
      ∧ Mqtt.AggregateMeasurement.PublishedBy leafCodec publishAverage "k1" m ∧ v.Shows m
      ∧ writeAggregatesIn .fromStart 1 ⟨none, none, none⟩ c.store.store c.store.store = some file
      ∧ file.lines = [line]
      ∧ line.text .firstMinutes = "1970-01-01T00:00:00Z,1970-01-01T00:01:00Z,1,1,1,1\n"
      ∧ Mqtt.AggregateMeasurement.PublishedBy leafCodec publishAverage "k1" m'
      ∧ line.Shows .firstMinutes file.header m' := by
  have hrun : ∃ c response v kit file line,
      Occurrence.exec leafCodec plainCrates ⟨.restart twoKits ∅, []⟩ publishAverage = some c
      ∧ kitAggregateMeasurements (AggregateCursor.fromStr plainCodecs) none "k1"
          ⟨none, none, none, none⟩ twoKits c.store.store = .ok response
      ∧ response.body = [v]
      ∧ Kit.bySerial "k1" twoKits = some kit ∧ kit.id = 1
      ∧ writeAggregatesIn .fromStart 1 ⟨none, none, none⟩ c.store.store c.store.store = some file
      ∧ file.lines = [line]
      ∧ line.text .firstMinutes = "1970-01-01T00:00:00Z,1970-01-01T00:01:00Z,1,1,1,1\n" := by
    refine ⟨_, _, _, _, _, _, rfl, rfl, rfl, rfl, rfl, rfl, rfl, ?_⟩
    decide +kernel
  obtain ⟨c, response, v, kit, file, line, hrun, hresponse, hbody, hkit, hid, hfile, hlines,
    htext⟩ := hrun
  have hstart : Occurrence.exec leafCodec plainCrates ⟨.restart twoKits ∅, []⟩ [] = some _ := rfl
  obtain ⟨hpages, harchives⟩ := aggregates_published "k1" hstart hrun
  have hv : v ∈ response.body := hbody ▸ List.mem_singleton_self v
  have hline : line ∈ file.lines := hlines ▸ List.mem_singleton_self line
  rcases hpages plainCodecs none _ response hresponse v hv with ⟨row, hrow, -⟩ | ⟨m, hm, hshows⟩
  · cases hrow
  rcases harchives .firstMinutes kit .fromStart _ _ file hkit (hid.symm ▸ hfile) line hline
    with ⟨row, hrow, -⟩ | ⟨m', hm', hwritten⟩
  · cases hrow
  exact ⟨c, response, v, file, line, m, m', hrun, hresponse, hbody, hm, hshows, hfile, hlines,
    htext, hm', hwritten⟩

/-! ## Objects -/

theorem objects_gained {key : String} {data : List UInt8} (h : (services x).step c l = some c')
    (hold : c.store.objects.lookup key ≠ some data)
    (hnew : c'.store.objects.lookup key = some data) :
    ∃ media p, .upload (.put media p) ∈ c.tasks ∧ key = objectKey media.kitSerial media.id
      ∧ media.data = data := by
  rcases Program.step_cases h with ⟨r, rfl, rfl⟩ | ⟨i, e, t, s', k, rfl, ht, hadv, rfl⟩
    | ⟨i, t, rfl, -, -, rfl⟩
  · exact absurd hnew hold
  · cases t with
    | api task =>
        obtain ⟨store, next, hapi, rfl, -⟩ := services_api hadv
        exact absurd hnew hold
    | ingest i' =>
        obtain ⟨next, hi, -⟩ := services_ingest hadv
        cases Ingest.advances_of_advance hi with
        | @inserts raw config _ hinsert =>
            cases raw with
            | raw m | aggregate m =>
                obtain ⟨store, -, rfl⟩ := Option.map_eq_some_iff.mp hinsert
                exact absurd hnew hold
        | cached | uncached | queries | misses | finds | conflicts | sees | forgets =>
            exact absurd hnew hold
    | upload u =>
        obtain ⟨next, hu, -⟩ := services_upload hadv
        cases Upload.advances_of_advance hu with
        | @puts media p hput =>
            by_cases hkey : key = objectKey media.kitSerial media.id
            · subst hkey
              refine ⟨media, p, List.mem_of_getElem? ht, rfl, ?_⟩
              exact Option.some.inj ((AList.lookup_insert c.store.objects).symm.trans hnew)
            · exact absurd ((AList.lookup_insert_ne hkey).symm.trans hnew) hold
        | oversized | looksUp | putFails | inserts | insertFails => exact absurd hnew hold
  · exact absurd hnew hold

/-- **Who downloads media gets what the kit published**: the bytes that are sent were
published on the media topic of the very kit that the user was found to be allowed
to view, under this id. Only objects from before the start are sent beside them. As
everywhere here, an object is put as a whole or not at all. -/
theorem media_published {s₀ : Store} {objects₀ : AList fun _ : String => List UInt8}
    {y : HeaderValues} {userId : Option Int} {mediaId : Uuid} {atMedia atKit atPermission : Store}
    {response : ContentResponse (List UInt8)}
    (hrun : Occurrence.exec codec x ⟨.restart s₀ objects₀, []⟩ os = some c)
    (hresponse : downloadMediaContent y c.store.get userId mediaId atMedia atKit atPermission
      = .ok (some response)) :
    ∃ kit ∈ atKit.kits, MayView userId kit atPermission
      ∧ (objects₀.lookup (objectKey kit.serial mediaId) = some response.stream
        ∨ ∃ m, Mqtt.Media.PublishedBy codec os kit.serial m ∧ m.id = mediaId
          ∧ m.data = response.stream) := by
  cases hmedia : Media.byId mediaId atMedia with
  | none =>
      rw [downloadMediaContent, hmedia] at hresponse
      cases hresponse
  | some row =>
      obtain ⟨hrow, rfl⟩ := Table.find?_eq_some.mp hmedia
      rcases downloadMediaContent_cases hrow with ⟨e, herror, -⟩ | ⟨kit, hkit, hview, hok⟩
      · rw [herror] at hresponse
        cases hresponse
      rw [hok] at hresponse
      obtain ⟨stream, hstream, hsent⟩ := Option.bind_eq_some_iff.mp (Except.ok.inj hresponse)
      obtain ⟨disposition, -, hsent⟩ := Option.bind_eq_some_iff.mp hsent
      obtain ⟨type, -, rfl⟩ := Option.map_eq_some_iff.mp hsent
      refine ⟨kit, (Kit.mem_of_byId hkit).1, hview, ?_⟩
      by_cases hstart : objects₀.lookup (objectKey kit.serial row.id) = some stream
      · exact Or.inl hstart
      obtain ⟨pre, l, post, u, v, hlabels, hpre, hstep, -, hold, hnew⟩ :=
        Run.exec_gained
          (P := fun c => c.store.objects.lookup (objectKey kit.serial row.id) = some stream)
          hstart hstream hrun
      obtain ⟨m, p, ht, hkey, hdata⟩ := objects_gained hstep hold hnew
      obtain ⟨hserial, hid⟩ := objectKey_injective hkey
      have hspawn := arrived_exec hpre _ ht _ rfl
      have hm := publishedBy_of_media (hlabels ▸ List.mem_append_left _ hspawn)
      exact Or.inr ⟨m, hserial ▸ hm, hid.symm, hdata⟩

/-- The picture is published and downloaded. -/
def publishLeaf : List Occurrence :=
  [.upload "kit/k1/media" leafMessage, .run 0 {}, .run 0 {}, .run 0 {}]

theorem media_published_publishLeaf :
    ∃ c response kit m, Occurrence.exec leafCodec plainCrates ⟨.restart twoKits ∅, []⟩ publishLeaf
        = some c
      ∧ downloadMediaContent .withoutControl c.store.get none 0 c.store.store c.store.store
          c.store.store = .ok (some response)
      ∧ response.stream = [7] ∧ kit ∈ c.store.store.kits
      ∧ Mqtt.Media.PublishedBy leafCodec publishLeaf kit.serial m ∧ m.data = [7] := by
  have hrun : ∃ c response,
      Occurrence.exec leafCodec plainCrates ⟨.restart twoKits ∅, []⟩ publishLeaf = some c
      ∧ downloadMediaContent .withoutControl c.store.get none 0 c.store.store c.store.store
          c.store.store = .ok (some response)
      ∧ response.stream = [7] := ⟨_, _, rfl, rfl, rfl⟩
  obtain ⟨c, response, hrun, hresponse, hstream⟩ := hrun
  obtain ⟨kit, hkit, -, hstart | ⟨m, hm, -, hdata⟩⟩ := media_published hrun hresponse
  · cases hstart
  · exact ⟨c, response, kit, m, hrun, hresponse, hstream, hkit, hm, hdata.trans hstream⟩

end

end AstroPlant
