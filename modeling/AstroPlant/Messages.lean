import AstroPlant.KitRpc
import AstroPlant.Schema

/-!
# Messages from kits

What arrives on the measurement and media topics, and how it is parsed. The
readers of the serialisation library are parameters; their accessors may each
find the message malformed. A message says nothing about its sender: the serial
is the one in the topic it arrived on (`handlePublish_some`).

A parser has two ways to fail. What it finds malformed is an error, which is
logged and dropped (`ignoreErrors`). A time that is out of the range of the date
library is a panic (`timestampToDatetime`), and a panic ends the task that polls
the stream. A message that comes out is known field by field from the readers
(`parsedFrom_of_handlePublish`).
-/

namespace AstroPlant

namespace Mqtt

open KitRpc (CapnpErrorKind DecodeError KitRpcCodec decodeResponse)

/-! ## Messages -/

structure RawMeasurement where
  id : Uuid
  kitSerial : String
  datetime : Timestamp
  peripheral : Int
  quantityType : Int
  value : F64

/-- The values by their type, as a map. -/
abbrev AggregateValues := AList fun _ : String => F64

structure AggregateMeasurement where
  id : Uuid
  kitSerial : String
  datetimeStart : Timestamp
  datetimeEnd : Timestamp
  peripheral : Int
  quantityType : Int
  values : AggregateValues

structure Media where
  id : Uuid
  kitSerial : String
  datetime : Timestamp
  peripheral : Int
  name : String
  type : String
  data : List UInt8
  metadata : Json

inductive Message where
  | rawMeasurement (m : RawMeasurement)
  | aggregateMeasurement (m : AggregateMeasurement)
  | media (m : Media)

def Message.kitSerial : Message → String
  | rawMeasurement m => m.kitSerial
  | aggregateMeasurement m => m.kitSerial
  | media m => m.kitSerial

inductive Error where
  | invalidTopic (topic : String)
  | malformedMessage (kitSerial : String)
  | kitRpcResponse (kitSerial : String) (error : DecodeError)
  | decodingIssue (kitSerial : String) (error : CapnpErrorKind)

/-- What can come of handling a message instead of a result. -/
inductive Failure where
  | error (e : Error)
  | panic

/-! ## Readers -/

structure RawMeasurementReader where
  id : Except CapnpErrorKind (List UInt8)
  datetime : UInt64
  peripheral : Int
  quantityType : Int
  value : F64

structure AggregateValueReader where
  type : Except CapnpErrorKind String
  value : F64

structure AggregateMeasurementReader where
  id : Except CapnpErrorKind (List UInt8)
  datetimeStart : UInt64
  datetimeEnd : UInt64
  peripheral : Int
  quantityType : Int
  values : Except CapnpErrorKind (List AggregateValueReader)

structure MediaReader where
  id : Except CapnpErrorKind (List UInt8)
  datetime : UInt64
  peripheral : Int
  name : Except CapnpErrorKind String
  type : Except CapnpErrorKind String
  data : Except CapnpErrorKind (List UInt8)
  metadata : Except CapnpErrorKind String

/-- The roots of packed messages. -/
structure Codec where
  readRawMeasurement : List UInt8 → Except CapnpErrorKind RawMeasurementReader
  readAggregateMeasurement : List UInt8 → Except CapnpErrorKind AggregateMeasurementReader
  readMedia : List UInt8 → Except CapnpErrorKind MediaReader
  kitRpc : KitRpcCodec

/-! ## Parsing -/

/-- The last second of the year 262143, the last one that the time library
represents; it panics beyond. -/
def maxTimestamp : Nat := 8210298412799

/-- The timestamp is in milliseconds. -/
def timestampToDatetime (timestamp : UInt64) : Except Failure Timestamp :=
  if timestamp.toNat / 1000 ≤ maxTimestamp then .ok (timestamp.toNat * 1000) else .error .panic

/-- `Uuid::from_slice`: sixteen bytes, the most significant first. -/
def uuidFromSlice (bytes : List UInt8) : Option Uuid :=
  if bytes.length = 16 then
    some (BitVec.ofNat 128 (bytes.foldl (fun n b => n * 256 + b.toNat) 0))
  else none

variable (kitSerial : String)

/-- An accessor's result, its error seen as one about the kit's message. -/
def accessed {α : Type} (r : Except CapnpErrorKind α) : Except Failure α :=
  r.mapError fun e => .error (.decodingIssue kitSerial e)

def wellFormed {α : Type} : Option α → Except Failure α
  | some a => .ok a
  | none => .error (.error (.malformedMessage kitSerial))

def parseRawMeasurement (codec : Codec) (payload : List UInt8) : Except Failure RawMeasurement := do
  let rawMeasurement ← accessed kitSerial (codec.readRawMeasurement payload)
  let id ← accessed kitSerial rawMeasurement.id
  let id ← wellFormed kitSerial (uuidFromSlice id)
  let datetime ← timestampToDatetime rawMeasurement.datetime
  return { id, kitSerial, datetime, peripheral := rawMeasurement.peripheral
           quantityType := rawMeasurement.quantityType, value := rawMeasurement.value }

/-- `collect` into a hash map: of the values of one type the last one stays. -/
def collectValues (vs : List (String × F64)) : AggregateValues :=
  vs.foldl (fun m v => m.insert v.1 v.2) ∅

def readValue (v : AggregateValueReader) : Except Failure (String × F64) := do
  let aggregateType ← accessed kitSerial v.type
  return (aggregateType, v.value)

def parseAggregateMeasurement (codec : Codec) (payload : List UInt8) :
    Except Failure AggregateMeasurement := do
  let aggregateMeasurement ← accessed kitSerial (codec.readAggregateMeasurement payload)
  let id ← accessed kitSerial aggregateMeasurement.id
  let id ← wellFormed kitSerial (uuidFromSlice id)
  let datetimeStart ← timestampToDatetime aggregateMeasurement.datetimeStart
  let datetimeEnd ← timestampToDatetime aggregateMeasurement.datetimeEnd
  let values ← accessed kitSerial aggregateMeasurement.values
  let values ← values.mapM (readValue kitSerial)
  return { id, kitSerial, datetimeStart, datetimeEnd
           peripheral := aggregateMeasurement.peripheral
           quantityType := aggregateMeasurement.quantityType, values := collectValues values }

def parseMedia (codec : Codec) (payload : List UInt8) : Except Failure Media := do
  let media ← accessed kitSerial (codec.readMedia payload)
  let id ← accessed kitSerial media.id
  let metadata ← accessed kitSerial media.metadata
  let id ← wellFormed kitSerial (uuidFromSlice id)
  let metadata ← wellFormed kitSerial (codec.kitRpc.fromStr metadata)
  let datetime ← timestampToDatetime media.datetime
  let name ← accessed kitSerial media.name
  let type ← accessed kitSerial media.type
  let data ← accessed kitSerial media.data
  return { id, kitSerial, datetime, peripheral := media.peripheral, name, type, data, metadata }

/-- Errors in measurements and media are ignored; a panic is not an error. -/
def ignoreErrors (m : Except Failure Message) : Except Failure (Option Message) :=
  match m with
  | .ok m => .ok (some m)
  | .error (.error _) => .ok none
  | .error .panic => .error .panic

/-- The message that a publish yields, if any. Requests to the server RPC are
answered by a task of their own, and responses to kit RPC go to the driver. -/
def handlePublish (codec : Codec) (topic : String) (payload : List UInt8) :
    Except Failure (Option Message) :=
  match Topic.tryFrom topic with
  | .error topic => .error (.error (.invalidTopic topic))
  | .ok ⟨kitSerial, kind⟩ =>
      match kind with
      | .rawMeasurement =>
          ignoreErrors ((parseRawMeasurement kitSerial codec payload).map .rawMeasurement)
      | .aggregateMeasurement =>
          ignoreErrors ((parseAggregateMeasurement kitSerial codec payload).map
            .aggregateMeasurement)
      | .media => ignoreErrors ((parseMedia kitSerial codec payload).map .media)
      | .kitRpcResponse =>
          match decodeResponse codec.kitRpc payload with
          | .error e => .error (.error (.kitRpcResponse kitSerial e))
          | .ok _ => .ok none
      | .serverRpcRequest | .serverRpcResponse | .kitRpcRequest => .ok none

/-! ## What parsing keeps -/

variable {kitSerial} {codec : Codec} {payload : List UInt8}

theorem parseRawMeasurement_kitSerial {m : RawMeasurement}
    (h : parseRawMeasurement kitSerial codec payload = .ok m) : m.kitSerial = kitSerial := by
  simp only [parseRawMeasurement, bind_ok] at h
  obtain ⟨_, -, _, -, _, -, _, -, h⟩ := h
  obtain rfl := Except.ok.inj h
  rfl

/-- The values are any list of types and values that the message holds,
collected. -/
theorem parseAggregateMeasurement_ok {m : AggregateMeasurement}
    (h : parseAggregateMeasurement kitSerial codec payload = .ok m) :
    m.kitSerial = kitSerial ∧ ∃ vs, m.values = collectValues vs := by
  simp only [parseAggregateMeasurement, bind_ok] at h
  obtain ⟨_, -, _, -, _, -, _, -, _, -, _, -, vs, -, h⟩ := h
  obtain rfl := Except.ok.inj h
  exact ⟨rfl, vs, rfl⟩

theorem parseMedia_kitSerial {m : Media} (h : parseMedia kitSerial codec payload = .ok m) :
    m.kitSerial = kitSerial := by
  simp only [parseMedia, bind_ok] at h
  obtain ⟨_, -, _, -, _, -, _, -, _, -, _, -, _, -, _, -, _, -, h⟩ := h
  obtain rfl := Except.ok.inj h
  rfl

theorem ignoreErrors_some {α : Type} {r : Except Failure α} {f : α → Message} {m : Message}
    (h : ignoreErrors (r.map f) = .ok (some m)) : ∃ a, r = .ok a ∧ f a = m := by
  cases r with
  | error e => cases e <;> cases h
  | ok a =>
      obtain rfl := Option.some.inj (Except.ok.inj h)
      exact ⟨a, rfl, rfl⟩

/-- **The sender of a message is the serial of its topic.** -/
theorem handlePublish_some {topic : String} {m : Message}
    (h : handlePublish codec topic payload = .ok (some m)) :
    ∃ kind, topic = (Topic.mk m.kitSerial kind).text := by
  unfold handlePublish at h
  split at h
  · cases h
  · rename_i kitSerial kind htopic
    have htext := (Topic.tryFrom_eq_ok.mp htopic).1
    cases kind with
    | rawMeasurement =>
        obtain ⟨a, ha, rfl⟩ := ignoreErrors_some h
        refine ⟨.rawMeasurement, ?_⟩
        rw [Message.kitSerial, parseRawMeasurement_kitSerial ha]
        exact htext
    | aggregateMeasurement =>
        obtain ⟨a, ha, rfl⟩ := ignoreErrors_some h
        refine ⟨.aggregateMeasurement, ?_⟩
        rw [Message.kitSerial, (parseAggregateMeasurement_ok ha).1]
        exact htext
    | media =>
        obtain ⟨a, ha, rfl⟩ := ignoreErrors_some h
        refine ⟨.media, ?_⟩
        rw [Message.kitSerial, parseMedia_kitSerial ha]
        exact htext
    | kitRpcResponse =>
        dsimp only at h
        split at h <;> cases h
    | serverRpcRequest | serverRpcResponse | kitRpcRequest => cases h

/-- The message is what its parser makes of the payload, on the topic of its
sender. -/
def Message.ParsedFrom (codec : Codec) (topic : String) (payload : List UInt8) : Message → Prop
  | rawMeasurement m =>
      Topic.tryFrom topic = .ok ⟨m.kitSerial, .rawMeasurement⟩
        ∧ parseRawMeasurement m.kitSerial codec payload = .ok m
  | aggregateMeasurement m =>
      Topic.tryFrom topic = .ok ⟨m.kitSerial, .aggregateMeasurement⟩
        ∧ parseAggregateMeasurement m.kitSerial codec payload = .ok m
  | media m =>
      Topic.tryFrom topic = .ok ⟨m.kitSerial, .media⟩
        ∧ parseMedia m.kitSerial codec payload = .ok m

theorem parsedFrom_of_handlePublish {topic : String} {m : Message}
    (h : handlePublish codec topic payload = .ok (some m)) : m.ParsedFrom codec topic payload := by
  unfold handlePublish at h
  split at h
  · cases h
  · rename_i kitSerial kind htopic
    cases kind with
    | rawMeasurement =>
        obtain ⟨a, ha, rfl⟩ := ignoreErrors_some h
        obtain rfl := parseRawMeasurement_kitSerial ha
        exact ⟨htopic, ha⟩
    | aggregateMeasurement =>
        obtain ⟨a, ha, rfl⟩ := ignoreErrors_some h
        obtain rfl := (parseAggregateMeasurement_ok ha).1
        exact ⟨htopic, ha⟩
    | media =>
        obtain ⟨a, ha, rfl⟩ := ignoreErrors_some h
        obtain rfl := parseMedia_kitSerial ha
        exact ⟨htopic, ha⟩
    | kitRpcResponse =>
        dsimp only at h
        split at h <;> cases h
    | serverRpcRequest | serverRpcResponse | kitRpcRequest => cases h

end Mqtt

end AstroPlant
