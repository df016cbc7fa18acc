import AstroPlant.Csv
import AstroPlant.FloatDisplay
import AstroPlant.Pages
import AstroPlant.ReadableAggregates
import Mathlib.Data.List.Dedup

/-!
# Reading back the aggregates in an archive

The archive's file of aggregates has a column for each key that a row has, after
five columns of its own. The keys come from the kits, and are written as they
are. So the file is read back, a record for each row and a column for each key,
exactly if no key has a comma, a quote, a line break or a null character in it or
is the name of one of the five (`archive_read_back_iff`). Only quotes could make
such a key a field, and a field takes more of them than it has.

The direction that needs the argument is from the text to the keys. The reader of
`Csv` is total on every text, so a file with a special key is read as something;
that it is not what was written is shown by counting. All quotes of the file are
in its keys (`count_fileRecords`), and a field that is not plain takes more
quotes from the text than it has, so if the records are read back there is no
such field (`Csv.plain_of_weight_le`). The other direction is the round trip for
lines of plain fields (`read_file`).
-/

namespace AstroPlant

/-! ## The text -/

/-- `to_rfc3339_opts(SecondsFormat::Secs, true)`: digits, signs, colons and two
letters. -/
structure Rfc3339 where
  seconds : Timestamp → String
  plain : ∀ t, Csv.isPlain (seconds t).toList = true

def aggregateKeysString (aggregateKeys : List String) : String :=
  (if aggregateKeys.isEmpty then "" else ",") ++ ",".intercalate aggregateKeys

def aggregatesHeader (aggregateKeys : List String) : String :=
  "datetimeStart,datetimeEnd,peripheral,kitConfiguration,quantityType"
    ++ aggregateKeysString aggregateKeys ++ "\n"

def valueString (value : Option F64) : String := (value.map F64.toText).getD ""

namespace AggregateLine

def valuesString (l : AggregateLine) : String :=
  String.join (l.values.map fun value => "," ++ valueString value)

def text (x : Rfc3339) (l : AggregateLine) : String :=
  x.seconds l.datetimeStart ++ "," ++ x.seconds l.datetimeEnd ++ "," ++ i32ToString l.peripheral
    ++ "," ++ i32ToString l.kitConfiguration ++ "," ++ i32ToString l.quantityType
    ++ l.valuesString ++ "\n"

/-- The fields of the line. -/
def fields (x : Rfc3339) (l : AggregateLine) : List String :=
  [x.seconds l.datetimeStart, x.seconds l.datetimeEnd, i32ToString l.peripheral,
    i32ToString l.kitConfiguration, i32ToString l.quantityType] ++ l.values.map valueString

end AggregateLine

def AggregatesFile.text (x : Rfc3339) (f : AggregatesFile) : String :=
  aggregatesHeader f.header ++ String.join (f.lines.map (·.text x))

/-- The file with the keys and the rows in the order of the database. -/
def writeAggregatesIn (o : ScanOrder) (kitId : Int) (filter : ArchiveQuery)
    (atKeys atRows : Store) : Option AggregatesFile :=
  (aggregateKeys (archived kitId filter atKeys)).map fun keys =>
    let aggregateKeys := o.scan keys
    let rows := writeRows aggregateKeys (o.scan (archived kitId filter atRows))
    { header := aggregateKeys, lines := rows.1, complete := rows.2 }

theorem writeAggregatesIn_fromStart : writeAggregatesIn .fromStart = writeAggregates := rfl

/-- What `write_aggregates` writes; nothing if it cannot have the keys. -/
def aggregatesText (x : Rfc3339) (o : ScanOrder) (kitId : Int) (filter : ArchiveQuery)
    (s : Store) : String :=
  ((writeAggregatesIn o kitId filter s s).map (·.text x)).getD ""

/-! ## What should be read back -/

def fixedColumns : List String :=
  ["datetimeStart", "datetimeEnd", "peripheral", "kitConfiguration", "quantityType"]

namespace AggregateMeasurement

variable (m : AggregateMeasurement)

def keys : List String :=
  match m.values with
  | .object fields => fields.map (·.1)
  | _ => []

def value (key : String) : Option F64 :=
  match m.values with
  | .object fields => (fields.lookup key).bind Json.toF64?
  | _ => none

def fixedFields (x : Rfc3339) : List String :=
  [x.seconds m.datetimeStart, x.seconds m.datetimeEnd, i32ToString m.peripheralId,
    i32ToString m.kitConfigurationId, i32ToString m.quantityTypeId]

end AggregateMeasurement

/-- The distinct keys of the rows. -/
def distinctKeys (rows : List AggregateMeasurement) : List String :=
  (rows.flatMap AggregateMeasurement.keys).dedup

/-- The record of a row: its own fields, and under each key the value that it has
for it. -/
structure IsRecord (x : Rfc3339) (header keys : List String) (m : AggregateMeasurement)
    (fields : List String) : Prop where
  length : fields.length = 5 + keys.length
  own : fields.take 5 = m.fixedFields x
  values : ∀ key ∈ keys, ∃ i : Nat, header[i]? = some key
    ∧ fields[i]? = some (valueString (m.value key))

/-- The text is read as a header of distinct columns and a record for each row. -/
def ReadBack (x : Rfc3339) (rows : List AggregateMeasurement) (text : String) : Prop :=
  ∃ header records, Csv.read text = some (header :: records)
    ∧ header.length = 5 + (distinctKeys rows).length ∧ header.Nodup
    ∧ ∃ rows', rows'.Perm rows ∧ List.Forall₂ (IsRecord x header (distinctKeys rows)) rows' records

/-- A key that can be the name of a column. -/
def isColumn (key : String) : Bool :=
  Csv.isPlain key.toList && !key.toList.contains '\x00' && !fixedColumns.contains key

/-! ## Plain texts -/

theorem isPlain_toText (value : F64) : Csv.isPlain value.toText.toList = true :=
  Csv.isPlain_of_forall value.isDisplayed_toText (by decide)

theorem isPlain_valueString (value : Option F64) :
    Csv.isPlain (valueString value).toList = true := by
  cases value with
  | none => rfl
  | some value => exact isPlain_toText value

theorem isPlain_i32ToString (i : Int) : Csv.isPlain (i32ToString i).toList = true := by
  refine Csv.isPlain_of_forall (p := fun c => c = '-' || c.isDigit) (fun c hc => ?_) (by decide)
  rw [Bool.or_eq_true, decide_eq_true_eq]
  exact mem_i32ToString hc

theorem isPlain_fixedFields (x : Rfc3339) (m : AggregateMeasurement) :
    ∀ field ∈ m.fixedFields x, Csv.isPlain field.toList = true := by
  intro field hmem
  simp only [AggregateMeasurement.fixedFields, List.mem_cons, List.not_mem_nil, or_false] at hmem
  rcases hmem with rfl | rfl | rfl | rfl | rfl
  · exact x.plain _
  · exact x.plain _
  · exact isPlain_i32ToString _
  · exact isPlain_i32ToString _
  · exact isPlain_i32ToString _

theorem isPlain_fixedColumns : ∀ column ∈ fixedColumns, Csv.isPlain column.toList = true := by
  decide

/-! ## Rows -/

/-- A row with what a kit has sent, all of it finite. -/
def AggregateMeasurement.IsFinite (m : AggregateMeasurement) : Prop :=
  ∃ raw config, Mqtt.AggregateMeasurement.finite raw = true ∧ m = aggregateRow raw config

theorem keys_aggregateRow (raw : Mqtt.AggregateMeasurement) (config : KitIdAndConfigId) :
    (aggregateRow raw config).keys = raw.values.keys := by
  show (raw.values.entries.map fun e => (e.1, Json.ofF64 e.2)).map (·.1) = raw.values.entries.keys
  rw [List.map_map]
  rfl

theorem lookup_ofF64 (es : List (Σ _ : String, F64)) (key : String) :
    (es.map fun e => (e.1, Json.ofF64 e.2)).lookup key = (es.dlookup key).map Json.ofF64 := by
  induction es with
  | nil => rfl
  | cons e es ih =>
      obtain ⟨key', value⟩ := e
      rw [List.map_cons, List.lookup_cons, ih]
      by_cases hkey : key = key'
      · subst hkey
        rw [beq_self_eq_true, List.dlookup_cons_eq]
        rfl
      · rw [beq_false_of_ne hkey, List.dlookup_cons_ne es (⟨key', value⟩ : Σ _ : String, F64) hkey]

theorem value_aggregateRow {raw : Mqtt.AggregateMeasurement} {config : KitIdAndConfigId}
    (hfinite : raw.finite = true) (key : String) :
    (aggregateRow raw config).value key = raw.values.lookup key := by
  show ((raw.values.entries.map fun e => (e.1, Json.ofF64 e.2)).lookup key).bind Json.toF64? = _
  rw [lookup_ofF64, AList.lookup]
  cases hlookup : raw.values.entries.dlookup key with
  | none => rfl
  | some value =>
      have hmem : (⟨key, value⟩ : Σ _ : String, F64) ∈ raw.values.entries :=
        List.of_mem_dlookup hlookup
      have hvalue : value.isFinite = true := List.all_eq_true.mp hfinite ⟨key, value⟩ hmem
      show (Json.ofF64 value).toF64? = some value
      rw [Json.toF64?_ofF64, if_pos hvalue]

/-- The line of a row. -/
def AggregateMeasurement.line (keys : List String) (m : AggregateMeasurement) : AggregateLine :=
  ⟨m.datetimeStart, m.datetimeEnd, m.peripheralId, m.kitConfigurationId, m.quantityTypeId,
    keys.map m.value⟩

theorem writeRows_eq {keys : List String} {rows : List AggregateMeasurement}
    (hrows : ∀ m ∈ rows, m.IsFinite) : writeRows keys rows = (rows.map (·.line keys), true) := by
  induction rows with
  | nil => rfl
  | cons m ms ih =>
      obtain ⟨raw, config, hfinite, rfl⟩ := hrows m List.mem_cons_self
      have hread := valuesFromJson_aggregateRow raw config
      rw [if_pos hfinite] at hread
      have hvalues : keys.map (Mqtt.collectValues
          (raw.values.entries.map fun e => (e.1, e.2))).lookup
            = keys.map (aggregateRow raw config).value := by
        refine List.map_congr_left fun key _ => ?_
        rw [lookup_collectValues, value_aggregateRow hfinite]
      rw [writeRows, hread, ih fun m hm => hrows m (List.mem_cons_of_mem _ hm)]
      dsimp only
      rw [hvalues]
      rfl

theorem jsonObjectKeys_eq {m : AggregateMeasurement} (hm : m.IsFinite) :
    jsonObjectKeys m.values
      = if m.keys.any (·.toList.contains '\x00') then none else some m.keys := by
  obtain ⟨raw, config, -, rfl⟩ := hm
  rw [keys_aggregateRow]
  show (if (raw.values.entries.map fun e => (e.1, Json.ofF64 e.2)).any (·.1.toList.contains '\x00')
    then none else some ((raw.values.entries.map fun e => (e.1, Json.ofF64 e.2)).map (·.1))) = _
  rw [AList.keys, List.keys, List.any_map, List.any_map, List.map_map]
  rfl

theorem aggregateKeys_eq_some {rows : List AggregateMeasurement} (hrows : ∀ m ∈ rows, m.IsFinite)
    {keys : List String} :
    aggregateKeys rows = some keys
      ↔ (∀ m ∈ rows, m.keys.any (·.toList.contains '\x00') = false) ∧ keys = distinctKeys rows := by
  have hall : (∀ m ∈ rows, m.keys.any (·.toList.contains '\x00') = false) →
      aggregateKeys rows = some (distinctKeys rows) := by
    intro h
    have hkeys : (rows.mapM fun m => jsonObjectKeys m.values)
        = some (rows.map AggregateMeasurement.keys) := by
      induction rows with
      | nil => rfl
      | cons m ms ih =>
          have hm : jsonObjectKeys m.values = some m.keys := by
            rw [jsonObjectKeys_eq (hrows m List.mem_cons_self), h m List.mem_cons_self]
            rfl
          rw [List.mapM_cons, hm, ih (fun m hm => hrows m (List.mem_cons_of_mem _ hm))
            fun m hm => h m (List.mem_cons_of_mem _ hm)]
          rfl
    rw [aggregateKeys, hkeys, Option.map_some, distinctKeys, List.flatMap_def]
  constructor
  · intro h
    have hsome : (rows.mapM fun m => jsonObjectKeys m.values).isSome = true := by
      obtain ⟨keys', hkeys', -⟩ := Option.map_eq_some_iff.mp h
      rw [hkeys']
      rfl
    rw [mapM_isSome, List.all_eq_true] at hsome
    have hfree : ∀ m ∈ rows, m.keys.any (·.toList.contains '\x00') = false := by
      intro m hm
      have hone := hsome m hm
      rw [jsonObjectKeys_eq (hrows m hm)] at hone
      split at hone
      · cases hone
      · exact Bool.eq_false_iff.mpr ‹_›
    exact ⟨hfree, Option.some.inj (h.symm.trans (hall hfree))⟩
  · rintro ⟨h, rfl⟩
    exact hall h

/-! ## Lines -/

/-- The fields that are written for a row. -/
def AggregateMeasurement.record (x : Rfc3339) (keys : List String) (m : AggregateMeasurement) :
    List String :=
  m.fixedFields x ++ keys.map fun key => valueString (m.value key)

def fileRecords (x : Rfc3339) (keys : List String) (rows : List AggregateMeasurement) :
    List (List String) :=
  (fixedColumns ++ keys) :: rows.map (·.record x keys)

theorem toList_intercalate_comma (key : String) (keys : List String) :
    (",".intercalate (key :: keys)).toList
      = key.toList ++ (keys.map String.toList).flatMap (',' :: ·) := by
  induction keys generalizing key with
  | nil => simp
  | cons next keys ih =>
      rw [String.intercalate_cons_cons, String.toList_append, String.toList_append, ih next]
      simp

theorem toList_aggregateKeysString (keys : List String) :
    (aggregateKeysString keys).toList = (keys.map String.toList).flatMap (',' :: ·) := by
  cases keys with
  | nil => rfl
  | cons key keys =>
      rw [aggregateKeysString, String.toList_append, toList_intercalate_comma]
      simp

theorem toList_valuesString (l : AggregateLine) :
    l.valuesString.toList
      = ((l.values.map valueString).map String.toList).flatMap (',' :: ·) := by
  rw [AggregateLine.valuesString, String.toList_join]
  simp [List.flatMap_map]

theorem toList_header (keys : List String) :
    (aggregatesHeader keys).toList = Csv.line ((fixedColumns ++ keys).map String.toList) := by
  have hfixed : "datetimeStart,datetimeEnd,peripheral,kitConfiguration,quantityType".toList
      = "datetimeStart".toList
        ++ (fixedColumns.tail.map String.toList).flatMap (',' :: ·) := by
    decide
  have hcolumns : (fixedColumns ++ keys).map String.toList
      = "datetimeStart".toList :: (fixedColumns.tail ++ keys).map String.toList := rfl
  unfold aggregatesHeader
  rw [hcolumns, Csv.line_cons, String.toList_append, String.toList_append, hfixed,
    toList_aggregateKeysString, List.map_append, List.flatMap_append, List.append_assoc,
    List.append_assoc, List.append_assoc]
  rfl

theorem AggregateLine.toList_text (x : Rfc3339) (l : AggregateLine) :
    (l.text x).toList = Csv.line ((l.fields x).map String.toList) := by
  have hfields : (l.fields x).map String.toList
      = (x.seconds l.datetimeStart).toList
        :: ((l.fields x).tail.take 4 ++ l.values.map valueString).map String.toList := rfl
  rw [hfields, Csv.line_cons, List.map_append, List.flatMap_append, ← toList_valuesString]
  simp [text, fields]

theorem toList_line (x : Rfc3339) (keys : List String) (m : AggregateMeasurement) :
    ((m.line keys).text x).toList = Csv.line ((m.record x keys).map String.toList) := by
  have hvalues : (m.line keys).values.map valueString
      = keys.map fun key => valueString (m.value key) := List.map_map
  rw [AggregateLine.toList_text, AggregateLine.fields, hvalues]
  rfl

theorem toList_text (x : Rfc3339) (keys : List String) (rows : List AggregateMeasurement)
    (complete : Bool) :
    (AggregatesFile.text x ⟨keys, rows.map (·.line keys), complete⟩).toList
      = ((fileRecords x keys rows).map (·.map String.toList)).flatMap Csv.line := by
  have hlines : (String.join ((rows.map (·.line keys)).map (·.text x))).toList
      = ((rows.map (·.record x keys)).map (·.map String.toList)).flatMap Csv.line := by
    simp [List.flatMap_map, toList_line]
  unfold AggregatesFile.text
  rw [String.toList_append, hlines]
  dsimp only
  rw [toList_header]
  rfl

/-! ## Reading back -/

theorem isPlain_record (x : Rfc3339) (keys : List String) (m : AggregateMeasurement) :
    ∀ field ∈ m.record x keys, Csv.isPlain field.toList = true := by
  intro field hmem
  rcases List.mem_append.mp hmem with hmem | hmem
  · exact isPlain_fixedFields x m field hmem
  · obtain ⟨key, -, rfl⟩ := List.mem_map.mp hmem
    exact isPlain_valueString _

theorem count_fileRecords (x : Rfc3339) (keys : List String) (rows : List AggregateMeasurement) :
    (((fileRecords x keys rows).map (·.map String.toList)).flatMap Csv.line).count '"'
      = ((keys.map String.toList).map (·.count '"')).sum := by
  have hplain : ∀ fields : List String, (∀ field ∈ fields, Csv.isPlain field.toList = true) →
      ((fields.map String.toList).map (·.count '"')).sum = 0 := by
    intro fields h
    refine List.sum_eq_zero fun n hn => ?_
    obtain ⟨chars, hchars, rfl⟩ := List.mem_map.mp hn
    obtain ⟨field, hfield, rfl⟩ := List.mem_map.mp hchars
    exact Csv.count_of_plain (h field hfield)
  have hrows : (((rows.map (·.record x keys)).map (·.map String.toList)).flatMap
      Csv.line).count '"' = 0 := by
    rw [List.count_flatMap]
    refine List.sum_eq_zero fun n hn => ?_
    obtain ⟨fields, hfields, rfl⟩ := List.mem_map.mp hn
    obtain ⟨record, hrecord, rfl⟩ := List.mem_map.mp hfields
    obtain ⟨m, -, rfl⟩ := List.mem_map.mp hrecord
    exact (Csv.count_line _).trans (hplain _ (isPlain_record x keys m))
  rw [fileRecords, List.map_cons, List.flatMap_cons, List.count_append, hrows, Csv.count_line,
    List.map_append, List.map_append, List.sum_append, hplain _ isPlain_fixedColumns, Nat.zero_add,
    Nat.add_zero]

theorem isRecord_record (x : Rfc3339) {keys keys' : List String} (hkeys : keys.Perm keys')
    (m : AggregateMeasurement) : IsRecord x (fixedColumns ++ keys) keys' m (m.record x keys) where
  length := by
    rw [AggregateMeasurement.record, List.length_append, List.length_map, hkeys.length_eq]
    rfl
  own := List.take_left' rfl
  values key hkey := by
    obtain ⟨i, hi⟩ := List.mem_iff_getElem?.mp (hkeys.mem_iff.mpr hkey)
    refine ⟨5 + i, ?_, ?_⟩
    · rw [List.getElem?_append_right (Nat.le_add_right 5 i)]
      show keys[5 + i - 5]? = some key
      rw [Nat.add_sub_cancel_left, hi]
    · rw [AggregateMeasurement.record, List.getElem?_append_right (Nat.le_add_right 5 i)]
      show (keys.map fun key => valueString (m.value key))[5 + i - 5]? = _
      rw [Nat.add_sub_cancel_left, List.getElem?_map, hi]
      rfl

section File

variable (x : Rfc3339) {rows rows' : List AggregateMeasurement} {keys : List String}
  {text : String}

/-- A file whose keys are plain is read as it was written. -/
theorem read_file
    (htext : text.toList
      = ((fileRecords x keys rows').map (·.map String.toList)).flatMap Csv.line)
    (hplain : ∀ key ∈ keys, Csv.isPlain key.toList = true) :
    Csv.read text = some (fileRecords x keys rows') := by
  refine Csv.read_lines htext fun fields hfields => ?_
  rcases List.mem_cons.mp hfields with rfl | hfields
  · refine ⟨by simp [fixedColumns], fun field hfield => ?_⟩
    rcases List.mem_append.mp hfield with hfield | hfield
    · exact isPlain_fixedColumns field hfield
    · exact hplain field hfield
  · obtain ⟨m, -, rfl⟩ := List.mem_map.mp hfields
    refine ⟨by simp [AggregateMeasurement.record, AggregateMeasurement.fixedFields], ?_⟩
    exact isPlain_record x keys m

/-- If every key is a column of what is read, the quotes that the keys take as
fields are no more than those in the file, and so the keys are plain. -/
theorem plain_of_columns {header : List String} {records : List (List String)}
    (hkeys : keys.Nodup)
    (htext : text.toList
      = ((fileRecords x keys rows').map (·.map String.toList)).flatMap Csv.line)
    (hread : Csv.read text = some (header :: records)) (hcolumn : ∀ key ∈ keys, key ∈ header) :
    ∀ key ∈ keys, Csv.isPlain key.toList = true := by
  have hweight : Csv.fieldsWeight (keys.map String.toList)
      ≤ Csv.fieldsWeight (header.map String.toList) := by
    obtain ⟨l, hl, hsublist⟩ := List.subperm_of_subset hkeys hcolumn
    have hsum : Csv.fieldsWeight (l.map String.toList)
        = Csv.fieldsWeight (keys.map String.toList) :=
      ((hl.map String.toList).map Csv.weight).sum_eq
    rw [← hsum]
    exact ((hsublist.map String.toList).map Csv.weight).sum_le_sum fun _ _ => Nat.zero_le _
  have hcount := Csv.fieldsWeight_le hread List.mem_cons_self
  rw [htext, count_fileRecords] at hcount
  intro key hkey
  exact Csv.plain_of_weight_le (hweight.trans hcount) _ (List.mem_map_of_mem hkey)

theorem readBack_iff (hkeys : keys.Perm (distinctKeys rows)) (hrows : rows'.Perm rows)
    (htext : text.toList
      = ((fileRecords x keys rows').map (·.map String.toList)).flatMap Csv.line) :
    ReadBack x rows text
      ↔ ∀ key ∈ keys, Csv.isPlain key.toList = true ∧ key ∉ fixedColumns := by
  have hnodup : keys.Nodup := hkeys.nodup_iff.mpr (List.nodup_dedup _)
  constructor
  · rintro ⟨header, records, hread, -, hheaderNodup, rows'', hperm, hrecords⟩
    have hcolumn : ∀ key ∈ keys, key ∈ header := by
      intro key hkey
      obtain ⟨m, hm, -⟩ := List.mem_flatMap.mp (List.mem_dedup.mp (hkeys.mem_iff.mp hkey))
      cases hrecords with
      | nil => cases hperm.mem_iff.mpr hm
      | cons hrecord _ =>
          obtain ⟨i, hi, -⟩ := hrecord.values key (hkeys.mem_iff.mp hkey)
          exact List.mem_of_getElem? hi
    have hplain := plain_of_columns x hnodup htext hread hcolumn
    have hheader : header = fixedColumns ++ keys := by
      have := hread.symm.trans (read_file x htext hplain)
      exact (List.cons.inj (Option.some.inj this)).1
    rw [hheader] at hheaderNodup
    intro key hkey
    refine ⟨hplain key hkey, fun hfixed => ?_⟩
    exact (List.nodup_append.mp hheaderNodup).2.2 key hfixed key hkey rfl
  · intro h
    have hfile := read_file x htext fun key hkey => (h key hkey).1
    refine ⟨_, _, hfile, ?_, ?_, rows', hrows, ?_⟩
    · rw [List.length_append, hkeys.length_eq]
      rfl
    · refine List.nodup_append.mpr ⟨by decide, hnodup, fun column hcolumn key hkey heq => ?_⟩
      exact (h key hkey).2 (heq.symm ▸ hcolumn)
    · exact List.forall₂_map_right_iff.mpr
        (List.forall₂_same.mpr fun m _ => isRecord_record x hkeys m)

end File

theorem isColumn_iff {key : String} :
    isColumn key = true ↔ Csv.isPlain key.toList = true ∧ key.toList.contains '\x00' = false
      ∧ key ∉ fixedColumns := by
  simp [isColumn, and_assoc]

/-- **The archive's CSV is read back** exactly if each key can be the name of a
column. -/
theorem archive_read_back_iff (x : Rfc3339) (o : ScanOrder) {kitId : Int} {s : Store}
    (hfinite : ∀ m ∈ s.aggregateMeasurements, m.kitId = kitId → m.IsFinite)
    (filter : ArchiveQuery) :
    ReadBack x (archived kitId filter s) (aggregatesText x o kitId filter s)
      ↔ ∀ m ∈ archived kitId filter s, ∀ key ∈ m.keys, isColumn key = true := by
  have hrows : ∀ m ∈ archived kitId filter s, m.IsFinite := by
    intro m hm
    obtain ⟨hmem, hfilter⟩ := Table.mem_select.mp hm
    simp only [Bool.and_eq_true, decide_eq_true_eq] at hfilter
    exact hfinite m hmem hfilter.1.1.1
  have hkeys : ∀ keys, aggregateKeys (archived kitId filter s) = some keys ↔ _ :=
    fun keys => @aggregateKeys_eq_some _ hrows keys
  cases hquery : aggregateKeys (archived kitId filter s) with
  | none =>
      -- nothing is written
      have htext : aggregatesText x o kitId filter s = "" := by
        rw [aggregatesText, writeAggregatesIn, hquery]
        rfl
      refine iff_of_false ?_ fun h => ?_
      · rintro ⟨header, records, hread, -⟩
        rw [htext] at hread
        cases hread
      · have hsome := (hkeys _).mpr ⟨fun m hm => ?_, rfl⟩
        · rw [hquery] at hsome
          cases hsome
        · rw [List.any_eq_false]
          intro key hkey
          rw [(isColumn_iff.mp (h m hm key hkey)).2.1]
          exact Bool.false_ne_true
  | some keys =>
      obtain ⟨hnull, rfl⟩ := (hkeys keys).mp hquery
      have hscan : ∀ m ∈ o.scan (archived kitId filter s), m.IsFinite :=
        fun m hm => hrows m ((o.perm _).mem_iff.mp hm)
      have htext : aggregatesText x o kitId filter s
          = AggregatesFile.text x ⟨o.scan (distinctKeys (archived kitId filter s)),
              (o.scan (archived kitId filter s)).map
                (·.line (o.scan (distinctKeys (archived kitId filter s)))), true⟩ := by
        rw [aggregatesText, writeAggregatesIn, hquery]
        dsimp only [Option.map_some, Option.getD_some]
        rw [writeRows_eq hscan]
      rw [readBack_iff x (o.perm _) (o.perm _) ((congrArg String.toList htext).trans
        (toList_text ..))]
      have hmem : ∀ key, key ∈ o.scan (distinctKeys (archived kitId filter s))
          ↔ ∃ m ∈ archived kitId filter s, key ∈ m.keys := by
        intro key
        rw [(o.perm _).mem_iff, distinctKeys, List.mem_dedup, List.mem_flatMap]
      constructor
      · intro h m hm key hkey
        obtain ⟨hplain, hfixed⟩ := h key ((hmem key).mpr ⟨m, hm, hkey⟩)
        have hfree := List.any_eq_false.mp (hnull m hm) key hkey
        exact isColumn_iff.mpr ⟨hplain, Bool.eq_false_iff.mpr hfree, hfixed⟩
      · intro h key hkey
        obtain ⟨m, hm, hkey⟩ := (hmem key).mp hkey
        obtain ⟨hplain, -, hfixed⟩ := isColumn_iff.mp (h m hm key hkey)
        exact ⟨hplain, hfixed⟩

/-- The times of the first minutes. -/
def Rfc3339.firstMinutes : Rfc3339 where
  seconds t := if t < 60000000 then "1970-01-01T00:00:00Z" else "1970-01-01T00:01:00Z"
  plain t := by split <;> decide

/-- The first minute of the first kit, with one in ten under the key. -/
def firstMinute (key : String) : Mqtt.AggregateMeasurement :=
  ⟨1, "k1", 0, 60000000, 1, 1, Mqtt.collectValues [(key, ⟨0x3fb999999999999a#64⟩)]⟩

theorem archive_read_back_iff_average :
    ∃ s, twoKits.insertAggregateMeasurement (aggregateRow (firstMinute "average") ⟨1, 1⟩) = some s
      ∧ aggregatesText .firstMinutes .fromStart 1 ⟨none, none, none⟩ s
        = "datetimeStart,datetimeEnd,peripheral,kitConfiguration,quantityType,average\n"
          ++ "1970-01-01T00:00:00Z,1970-01-01T00:01:00Z,1,1,1,0.1\n"
      ∧ ReadBack .firstMinutes (archived 1 ⟨none, none, none⟩ s)
        (aggregatesText .firstMinutes .fromStart 1 ⟨none, none, none⟩ s) := by
  refine ⟨_, rfl, by decide +kernel, ?_⟩
  refine (archive_read_back_iff .firstMinutes .fromStart (fun m hm _ => ?_) _).mpr
    (by decide +kernel)
  obtain rfl := List.mem_singleton.mp hm
  exact ⟨firstMinute "average", ⟨1, 1⟩, by decide, rfl⟩

/-- A key with a comma in it has two columns. -/
theorem comma_not_read_back :
    ∃ s, twoKits.insertAggregateMeasurement (aggregateRow (firstMinute "q10,q90") ⟨1, 1⟩) = some s
      ∧ aggregatesText .firstMinutes .fromStart 1 ⟨none, none, none⟩ s
        = "datetimeStart,datetimeEnd,peripheral,kitConfiguration,quantityType,q10,q90\n"
          ++ "1970-01-01T00:00:00Z,1970-01-01T00:01:00Z,1,1,1,0.1\n"
      ∧ ¬ ReadBack .firstMinutes (archived 1 ⟨none, none, none⟩ s)
        (aggregatesText .firstMinutes .fromStart 1 ⟨none, none, none⟩ s) := by
  obtain ⟨s, hs, htext, hkeys⟩ : ∃ s,
      twoKits.insertAggregateMeasurement (aggregateRow (firstMinute "q10,q90") ⟨1, 1⟩) = some s
      ∧ aggregatesText .firstMinutes .fromStart 1 ⟨none, none, none⟩ s
        = "datetimeStart,datetimeEnd,peripheral,kitConfiguration,quantityType,q10,q90\n"
          ++ "1970-01-01T00:00:00Z,1970-01-01T00:01:00Z,1,1,1,0.1\n"
      ∧ (distinctKeys (archived 1 ⟨none, none, none⟩ s)).length = 1 :=
    ⟨_, rfl, by decide +kernel, by decide +kernel⟩
  refine ⟨s, hs, htext, ?_⟩
  rintro ⟨header, records, hread, hlength, -⟩
  have hfields : (Csv.read
      ("datetimeStart,datetimeEnd,peripheral,kitConfiguration,quantityType,q10,q90\n"
        ++ "1970-01-01T00:00:00Z,1970-01-01T00:01:00Z,1,1,1,0.1\n")).map (·.map List.length)
      = some [7, 6] := by
    decide +kernel
  rw [← htext, hread] at hfields
  have hseven : header.length = 7 := (List.cons.inj (Option.some.inj hfields)).1
  omega

end AstroPlant
