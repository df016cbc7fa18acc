import AstroPlant.Ingest
import AstroPlant.Kits
import Mathlib.Data.List.Sort

/-!
# Reading aggregate measurements

The values of an aggregate measurement are stored as a JSON object and read back
in two places: by the API, a page at a time, and for the archive of a kit. Both
expect an object of floats, and both fail as a whole when one row holds
something else.

The two walks differ in what happens then. A page with such a row is an error,
and no row of it is served; which pages are served is therefore a matter of their
rows alone (`aggregatesResponse_ok_iff`). The writer of an archive stops at the
row, after having written those before it (`writeRows`), and the header may be of
another state than the rows.
-/

namespace AstroPlant

/-! ## Rows to views -/

/-- `serde_json::from_value` to a map of floats: every field must be a number. -/
def valuesFromJson : Json → Option Mqtt.AggregateValues
  | .object fields =>
      (fields.mapM fun (f : String × Json) => f.2.toF64?.map (f.1, ·)).map Mqtt.collectValues
  | _ => none

/-- `views::AggregateMeasurement`. -/
structure AggregateMeasurementView where
  id : Uuid
  peripheralId : Int
  kitId : Int
  kitConfigurationId : Int
  quantityTypeId : Int
  datetimeStart : Timestamp
  datetimeEnd : Timestamp
  values : Mqtt.AggregateValues

def AggregateMeasurementView.tryFrom (m : AggregateMeasurement) :
    Except Problem AggregateMeasurementView :=
  match valuesFromJson m.values with
  | some values =>
      .ok { m with values }
  | none => .error .INTERNAL_SERVER_ERROR

/-- The values are read back. -/
def AggregateMeasurement.Convertible (m : AggregateMeasurement) : Prop :=
  (valuesFromJson m.values).isSome = true

theorem tryFrom_ok_iff {m : AggregateMeasurement} :
    (∃ v, AggregateMeasurementView.tryFrom m = .ok v) ↔ m.Convertible := by
  unfold AggregateMeasurementView.tryFrom AggregateMeasurement.Convertible
  cases valuesFromJson m.values <;> simp

/-! ## Pages -/

/-- `cursors::AggregateMeasurements`: the last row of the previous page. -/
structure AggregateCursor where
  datetimeStart : Timestamp
  id : Uuid
deriving DecidableEq

def AggregateCursor.PER_PAGE : Nat := 50

/-- There may be a next page if this one is full. -/
def AggregateCursor.nextFromPage (page : List AggregateMeasurement) : Option AggregateCursor :=
  if page.length ≥ PER_PAGE then page.getLast?.map fun m => ⟨m.datetimeStart, m.id⟩ else none

structure AggregatesQuery where
  cursor : Option String
  configuration : Option Int
  peripheral : Option Int
  quantityType : Option Int

namespace AggregateMeasurement

/-- Latest first. -/
def order (a b : AggregateMeasurement) : Bool :=
  b.datetimeStart < a.datetimeStart || (a.datetimeStart = b.datetimeStart && b.id ≤ a.id)

/-- What comes after the cursor in this order. -/
def after (c : AggregateCursor) (m : AggregateMeasurement) : Bool :=
  m.datetimeStart < c.datetimeStart || (m.datetimeStart = c.datetimeStart && m.id < c.id)

def page (kitId : Int) (query : AggregatesQuery) (cursor : Option AggregateCursor) (s : Store) :
    List AggregateMeasurement :=
  ((s.aggregateMeasurements.select fun m =>
      m.kitId = kitId && query.configuration.all (m.kitConfigurationId = ·)
        && query.peripheral.all (m.peripheralId = ·)
        && query.quantityType.all (m.quantityTypeId = ·)
        && cursor.all (after · m)).insertionSort (order · ·)).take AggregateCursor.PER_PAGE

theorem mem_of_mem_page {kitId : Int} {query : AggregatesQuery} {cursor : Option AggregateCursor}
    {s : Store} {m : AggregateMeasurement} (h : m ∈ page kitId query cursor s) :
    m ∈ s.aggregateMeasurements :=
  (Table.mem_select.mp ((List.mem_insertionSort _).mp (List.mem_of_mem_take h))).1

end AggregateMeasurement

structure AggregatesResponse where
  body : List AggregateMeasurementView
  next : Option AggregateCursor

theorem mapM_ok_iff {ε α β : Type} {f : α → Except ε β} {xs : List α} :
    (∃ ys, xs.mapM f = .ok ys) ↔ ∀ a ∈ xs, ∃ b, f a = .ok b := by
  induction xs with
  | nil => simp [pure, Except.pure]
  | cons x xs ih =>
      rw [List.mapM_cons, List.forall_mem_cons, ← ih]
      constructor
      · rintro ⟨ys, h⟩
        obtain ⟨y, hy, h⟩ := bind_ok.mp h
        obtain ⟨ys', hys, -⟩ := bind_ok.mp h
        exact ⟨⟨y, hy⟩, ys', hys⟩
      · rintro ⟨⟨y, hy⟩, ys, hys⟩
        exact ⟨y :: ys, bind_ok.mpr ⟨y, hy, bind_ok.mpr ⟨ys, hys, rfl⟩⟩⟩

/-- The answer with a page: one row that cannot be converted fails it. -/
def aggregatesResponse (page : List AggregateMeasurement) : Except Problem AggregatesResponse := do
  let body ← page.mapM AggregateMeasurementView.tryFrom
  return { body, next := AggregateCursor.nextFromPage page }

theorem aggregatesResponse_ok_iff {page : List AggregateMeasurement} :
    (∃ r, aggregatesResponse page = .ok r) ↔ ∀ m ∈ page, m.Convertible := by
  simp only [← tryFrom_ok_iff, ← mapM_ok_iff]
  constructor
  · rintro ⟨r, h⟩
    obtain ⟨body, hbody, -⟩ := bind_ok.mp h
    exact ⟨body, hbody⟩
  · rintro ⟨body, hbody⟩
    exact ⟨_, bind_ok.mpr ⟨body, hbody, rfl⟩⟩

/-- The handler; its two accesses to the database see two stores. -/
def kitAggregateMeasurements (parse : String → Option AggregateCursor) (userId : Option Int)
    (kitSerial : String) (query : AggregatesQuery) (atPermission atPage : Store) :
    Except Problem AggregatesResponse := do
  let cursor ← match query.cursor with
    | none => .ok none
    | some cursor =>
        match parse cursor with
        | none => .error .BAD_REQUEST
        | some cursor => .ok (some cursor)
  let r ← (futKitPermissionOrForbidden userId kitSerial .view).run atPermission
  aggregatesResponse (AggregateMeasurement.page r.1.2.2.id query cursor atPage)

/-! ## The archive -/

structure ArchiveQuery where
  start : Option Timestamp
  stop : Option Timestamp
  configuration : Option Int

/-- The rows that go into the archive of a kit, in the table's order; the
database may return them in any other. -/
def archived (kitId : Int) (filter : ArchiveQuery) (s : Store) : List AggregateMeasurement :=
  s.aggregateMeasurements.select fun m =>
    m.kitId = kitId && filter.configuration.all (m.kitConfigurationId = ·)
      && filter.start.all (· ≤ m.datetimeStart) && filter.stop.all (m.datetimeEnd ≤ ·)

/-- `json_object_keys`: the names become text, which cannot contain the null
character. -/
def jsonObjectKeys : Json → Option (List String)
  | .object fields =>
      if fields.any (·.1.toList.contains '\x00') then none else some (fields.map (·.1))
  | _ => none

/-- The query for the columns, each once; it fails if it fails for one row. -/
def aggregateKeys (rows : List AggregateMeasurement) : Option (List String) :=
  (rows.mapM fun m => jsonObjectKeys m.values).map fun keys => keys.flatten.dedup

structure AggregateLine where
  datetimeStart : Timestamp
  datetimeEnd : Timestamp
  peripheral : Int
  kitConfiguration : Int
  quantityType : Int
  values : List (Option F64)

/-- The lines that are written, and whether all are: the first row that cannot
be converted ends the loop with an error. -/
def writeRows (keys : List String) : List AggregateMeasurement → List AggregateLine × Bool
  | [] => ([], true)
  | m :: ms =>
      match valuesFromJson m.values with
      | none => ([], false)
      | some values =>
          let rest := writeRows keys ms
          (⟨m.datetimeStart, m.datetimeEnd, m.peripheralId, m.kitConfigurationId,
            m.quantityTypeId, keys.map values.lookup⟩ :: rest.1, rest.2)

structure AggregatesFile where
  header : List String
  lines : List AggregateLine
  complete : Bool

/-- Nothing is written if the first query fails; its two queries see two
stores. -/
def writeAggregates (kitId : Int) (filter : ArchiveQuery) (atKeys atRows : Store) :
    Option AggregatesFile :=
  (aggregateKeys (archived kitId filter atKeys)).map fun keys =>
    let rows := writeRows keys (archived kitId filter atRows)
    { header := keys, lines := rows.1, complete := rows.2 }

end AstroPlant
