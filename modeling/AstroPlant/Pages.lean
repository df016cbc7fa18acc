import AstroPlant.Measurements
import AstroPlant.Services

/-!
# Pages of measurements and media

Both lists are served a page at a time. A full page comes with a link to the
next one: the same query, with a cursor that names the page's last row. The
cursor is JSON text within form-urlencoded text, and the cursor of media is read
back as a cursor of aggregate measurements.

Two codecs lie between a page and the next one, and both belong to libraries:
they are in `Codecs`, and what is relied on is that each reads back what it wrote
(`Codecs.RoundTrips`). A client does nothing but follow the link as it stands.
-/

namespace AstroPlant

/-! ## Text -/

/-- The texts that other crates write and read: JSON, timestamps, UUIDs and
form-urlencoded pairs. -/
structure Codecs where
  jsonToString : Json → String
  jsonFromStr : String → Option Json
  datetimeToString : Timestamp → String
  datetimeFromStr : String → Option Timestamp
  uuidFromStr : String → Option Uuid
  urlencodedToString : List (String × String) → String
  urlencodedFromStr : String → List (String × String)

/-- What is written is read back. -/
structure Codecs.RoundTrips (x : Codecs) : Prop where
  json : ∀ a b, x.jsonFromStr (x.jsonToString (.array [.string a, .string b]))
    = some (.array [.string a, .string b])
  datetime : ∀ t, x.datetimeFromStr (x.datetimeToString t) = some t
  uuid : ∀ id, x.uuidFromStr (hyphenated id) = some id
  urlencoded : ∀ ps, x.urlencodedFromStr (x.urlencodedToString ps) = ps

/-- An integer as text; the range of the type is not part of the model. -/
def i32ToString (i : Int) : String := i.repr

theorem mem_i32ToString {i : Int} {c : Char} (h : c ∈ (i32ToString i).toList) :
    c = '-' ∨ c.isDigit = true := by
  have hnat : ∀ n : Nat, c ∈ n.repr.toList → c.isDigit = true := by
    intro n hc
    rw [Nat.toList_repr] at hc
    exact Nat.isDigit_of_mem_toDigits (by omega) (by omega) hc
  rw [i32ToString, Int.repr_eq_if] at h
  split at h
  · exact Or.inr (hnat _ h)
  · rw [String.toList_append] at h
    rcases List.mem_append.mp h with h | h
    · exact Or.inl (List.mem_singleton.mp h)
    · exact Or.inr (hnat _ h)

def decimal (digits : List Char) : Option Nat :=
  if digits ≠ [] ∧ digits.all Char.isDigit = true then some (Nat.ofDigitChars 10 digits 0) else none

/-- `i32::from_str`: a sign, if any, and digits. -/
def i32FromStr (s : String) : Option Int :=
  match s.toList with
  | '-' :: digits => (decimal digits).map fun (n : Nat) => -(n : Int)
  | '+' :: digits => (decimal digits).map fun (n : Nat) => (n : Int)
  | digits => (decimal digits).map fun (n : Nat) => (n : Int)

/-! ## Cursors -/

def AggregateCursor.toString (x : Codecs) (c : AggregateCursor) : String :=
  x.jsonToString (.array [.string (x.datetimeToString c.datetimeStart), .string (hyphenated c.id)])

def AggregateCursor.fromStr (x : Codecs) (s : String) : Option AggregateCursor :=
  match x.jsonFromStr s with
  | some (.array [.string datetime, .string id]) => do
      let datetimeStart ← x.datetimeFromStr datetime
      let id ← x.uuidFromStr id
      return ⟨datetimeStart, id⟩
  | _ => none

/-- `cursors::Media`. -/
structure MediaCursor where
  datetime : Timestamp
  id : Uuid
deriving DecidableEq

namespace MediaCursor

def PER_PAGE : Nat := 50

/-- There may be a next page if this one is full. -/
def nextFromPage (page : List Media) : Option MediaCursor :=
  if page.length ≥ PER_PAGE then page.getLast?.map fun m => ⟨m.datetime, m.id⟩ else none

def toString (x : Codecs) (c : MediaCursor) : String :=
  x.jsonToString (.array [.string (x.datetimeToString c.datetime), .string (hyphenated c.id)])

end MediaCursor

/-! ## Queries -/

structure MediaQuery where
  cursor : Option String
  configuration : Option Int
  peripheral : Option Int

/-- The pair of a field; a field that is not given is left out. -/
def queryPair {α : Type} (name : String) (write : α → String) (value : Option α) :
    List (String × String) :=
  (value.map fun a => (name, write a)).toList

/-- The text of a field; a field that is given twice is an error. -/
def queryField (name : String) (pairs : List (String × String)) : Option (Option String) :=
  match pairs.filter (·.1 = name) with
  | [] => some none
  | [pair] => some (some pair.2)
  | _ => none

def queryInt (name : String) (pairs : List (String × String)) : Option (Option Int) := do
  match ← queryField name pairs with
  | none => return none
  | some s =>
      let i ← i32FromStr s
      return some i

def AggregatesQuery.toPairs (q : AggregatesQuery) : List (String × String) :=
  queryPair "cursor" id q.cursor ++ queryPair "configuration" i32ToString q.configuration
    ++ queryPair "peripheral" i32ToString q.peripheral
    ++ queryPair "quantityType" i32ToString q.quantityType

def AggregatesQuery.ofPairs (pairs : List (String × String)) : Option AggregatesQuery := do
  let cursor ← queryField "cursor" pairs
  let configuration ← queryInt "configuration" pairs
  let peripheral ← queryInt "peripheral" pairs
  let quantityType ← queryInt "quantityType" pairs
  return { cursor, configuration, peripheral, quantityType }

def MediaQuery.toPairs (q : MediaQuery) : List (String × String) :=
  queryPair "cursor" id q.cursor ++ queryPair "configuration" i32ToString q.configuration
    ++ queryPair "peripheral" i32ToString q.peripheral

def MediaQuery.ofPairs (pairs : List (String × String)) : Option MediaQuery := do
  let cursor ← queryField "cursor" pairs
  let configuration ← queryInt "configuration" pairs
  let peripheral ← queryInt "peripheral" pairs
  return { cursor, configuration, peripheral }

/-! ## Media -/

namespace Media

/-- Latest first. -/
def order (a b : Media) : Bool :=
  b.datetime < a.datetime || (a.datetime = b.datetime && b.id ≤ a.id)

/-- What comes after the cursor in this order. -/
def after (c : AggregateCursor) (m : Media) : Bool :=
  m.datetime < c.datetimeStart || (m.datetime = c.datetimeStart && m.id < c.id)

def page (kitId : Int) (query : MediaQuery) (cursor : Option AggregateCursor) (s : Store) :
    List Media :=
  ((s.media.select fun m =>
      m.kitId = kitId && query.configuration.all (m.kitConfigurationId = ·)
        && query.peripheral.all (m.peripheralId = ·)
        && cursor.all (after · m)).insertionSort (order · ·)).take MediaCursor.PER_PAGE

end Media

structure MediaResponse where
  body : List Media
  next : Option MediaCursor

/-- The handler; its two accesses to the database see two stores. -/
def kitMedia (parse : String → Option AggregateCursor) (userId : Option Int)
    (kitSerial : String) (query : MediaQuery) (atPermission atPage : Store) :
    Except Problem MediaResponse := do
  let cursor ← match query.cursor with
    | none => .ok none
    | some cursor =>
        match parse cursor with
        | none => .error .BAD_REQUEST
        | some cursor => .ok (some cursor)
  let r ← (futKitPermissionOrForbidden userId kitSerial .view).run atPermission
  let page := Media.page r.1.2.2.id query cursor atPage
  return { body := page, next := MediaCursor.nextFromPage page }

/-! ## Links -/

/-- A link with relation `next`. -/
structure Link where
  path : String
  query : String
deriving DecidableEq

def AggregatesQuery.path (kitSerial : String) : String :=
  "/kits/" ++ kitSerial ++ "/aggregate-measurements"

def MediaQuery.path (kitSerial : String) : String := "/kits/" ++ kitSerial ++ "/media"

/-- The query goes on with the cursor. -/
def AggregatesQuery.next (x : Codecs) (kitSerial : String) (q : AggregatesQuery)
    (c : AggregateCursor) : Link where
  path := path kitSerial
  query := x.urlencodedToString { q with cursor := some (c.toString x) }.toPairs

def MediaQuery.next (x : Codecs) (kitSerial : String) (q : MediaQuery) (c : MediaCursor) :
    Link where
  path := path kitSerial
  query := x.urlencodedToString { q with cursor := some (c.toString x) }.toPairs

/-- The query of a request for a link, if it leads to the route of this kit. -/
def AggregatesQuery.ofLink (x : Codecs) (kitSerial : String) (link : Link) :
    Option AggregatesQuery :=
  if link.path = path kitSerial then ofPairs (x.urlencodedFromStr link.query) else none

def MediaQuery.ofLink (x : Codecs) (kitSerial : String) (link : Link) : Option MediaQuery :=
  if link.path = path kitSerial then ofPairs (x.urlencodedFromStr link.query) else none

end AstroPlant
