import AstroPlant.Messages

/-!
# Messages that crash the stream

`timestamp_to_datetime` has nothing to return for a timestamp that is out of
range, and a message with one is malformed. But the function from the time
library that it calls panics for all that it cannot represent, long before the
conversion to its argument can fail. So a kit crashes the stream with a message
that is well formed up to such a timestamp, and with no other.

A parser is a sequence of accesses, each of which may find the message malformed,
with a conversion of a timestamp among them. `Parses` says of a parser which
timestamps it comes to and which accesses are left after each; from that it
follows once for all kinds of messages when it panics, when it succeeds and when
it reports an error (`Parses.panics`, `Parses.succeeds`, `Parses.malformed`).
Handling a publish is the parser of its topic's kind, with errors ignored
(`handlePublish_parses`).
-/

namespace AstroPlant

namespace Mqtt

open KitRpc (CapnpErrorKind KitRpcCodec decodeResponse)

/-! ## Timestamps -/

/-- `i64::try_from`. -/
def i64TryFrom (n : Nat) : Option Nat := if n < 2 ^ 63 then some n else none

/-- `NaiveDateTime::from_timestamp`, from the epoch on. -/
def fromTimestamp (secs nsecs : Nat) : Except Failure Timestamp :=
  if secs ≤ maxTimestamp then .ok ↑(secs * 1000000 + nsecs / 1000) else .error .panic

/-- `timestamp_to_datetime`, with the failure that it means to report. -/
def timestampToDatetime? (timestamp : UInt64) : Except Failure (Option Timestamp) :=
  match i64TryFrom (timestamp.toNat / 1000) with
  | none => .ok none
  | some secs => (fromTimestamp secs (1000000 * (timestamp.toNat % 1000))).map some

/-- The time library has a value for this many milliseconds. -/
def Representable (timestamp : UInt64) : Prop := timestamp.toNat / 1000 ≤ maxTimestamp

instance (timestamp : UInt64) : Decidable (Representable timestamp) :=
  inferInstanceAs (Decidable (_ ≤ _))

theorem i64TryFrom_timestamp (timestamp : UInt64) :
    i64TryFrom (timestamp.toNat / 1000) = some (timestamp.toNat / 1000) := by
  have hlt : timestamp.toNat < 2 ^ 64 := timestamp.toNat_lt
  exact if_pos (by omega)

theorem timestampToDatetime?_eq (timestamp : UInt64) :
    timestampToDatetime? timestamp
      = if Representable timestamp then .ok (some ↑(timestamp.toNat * 1000))
        else .error .panic := by
  have hmicros : timestamp.toNat / 1000 * 1000000 + 1000000 * (timestamp.toNat % 1000) / 1000
      = timestamp.toNat * 1000 := by
    omega
  simp only [timestampToDatetime?, i64TryFrom_timestamp, fromTimestamp, hmicros]
  by_cases h : Representable timestamp
  · rw [if_pos h, if_pos (show timestamp.toNat / 1000 ≤ maxTimestamp from h)]
    rfl
  · rw [if_neg h, if_neg (show ¬timestamp.toNat / 1000 ≤ maxTimestamp from h)]
    rfl

/-- A parser makes a malformed message of nothing, which it never gets. -/
theorem timestampToDatetime_eq (kitSerial : String) (timestamp : UInt64) :
    timestampToDatetime timestamp
      = timestampToDatetime? timestamp >>= wellFormed kitSerial := by
  rw [timestampToDatetime?_eq]
  by_cases h : Representable timestamp
  · rw [if_pos h]
    exact if_pos h
  · rw [if_neg h]
    exact if_neg h

/-! ## What is read before and after the timestamps -/

def identified : Except CapnpErrorKind (List UInt8) → Bool
  | .ok id => id.length == 16
  | .error _ => false

def accessible {α : Type} : Except CapnpErrorKind α → Bool
  | .ok _ => true
  | .error _ => false

def parsable (codec : KitRpcCodec) : Except CapnpErrorKind String → Bool
  | .ok text => (codec.fromStr text).isSome
  | .error _ => false

/-- The timestamps that parsing comes to: all that it reads before them is well
formed. -/
def timestamps (codec : Codec) (payload : List UInt8) : TopicKind → List UInt64
  | .rawMeasurement =>
      match codec.readRawMeasurement payload with
      | .ok m => if identified m.id then [m.datetime] else []
      | .error _ => []
  | .aggregateMeasurement =>
      match codec.readAggregateMeasurement payload with
      | .ok m => if identified m.id then [m.datetimeStart, m.datetimeEnd] else []
      | .error _ => []
  | .media =>
      match codec.readMedia payload with
      | .ok m => if identified m.id && parsable codec.kitRpc m.metadata then [m.datetime] else []
      | .error _ => []
  | _ => []

/-- What is read after the timestamps is well formed. -/
def restWellFormed (codec : Codec) (payload : List UInt8) : TopicKind → Bool
  | .rawMeasurement => true
  | .aggregateMeasurement =>
      match codec.readAggregateMeasurement payload with
      | .ok m =>
          match m.values with
          | .ok values => values.all (accessible ·.type)
          | .error _ => false
      | .error _ => false
  | .media =>
      match codec.readMedia payload with
      | .ok m => accessible m.name && accessible m.type && accessible m.data
      | .error _ => false
  | _ => false

/-- The payload is a message of this kind. -/
structure Decodable (codec : Codec) (payload : List UInt8) (kind : TopicKind) : Prop where
  comesTo : timestamps codec payload kind ≠ []
  representable : ∀ t ∈ timestamps codec payload kind, Representable t
  rest : restWellFormed codec payload kind = true

/-! ## What parsers do -/

/-- A parser panics at a timestamp that is out of range, and otherwise succeeds if
what is left is well formed. -/
structure Ends {α : Type} (r : Except Failure α) (ts : List UInt64) (rest : Bool) : Prop where
  panics : r = .error .panic ↔ ∃ t ∈ ts, ¬Representable t
  succeeds : (∃ a, r = .ok a) ↔ (∀ t ∈ ts, Representable t) ∧ rest = true

namespace Ends

variable {α β : Type} {ts : List UInt64} {rest : Bool}

theorem ok (a : α) : Ends (.ok a) [] true := by
  constructor <;> simp

theorem error (e : Error) : Ends (α := α) (.error (.error e)) [] false := by
  constructor <;> simp

theorem timestamp {f : Timestamp → Except Failure β} (t : UInt64)
    (h : ∀ datetime, Ends (f datetime) ts rest) :
    Ends (timestampToDatetime t >>= f) (t :: ts) rest := by
  by_cases ht : Representable t
  · have hok : timestampToDatetime t = .ok (↑t.toNat * 1000) := if_pos ht
    rw [hok]
    show Ends (f (↑t.toNat * 1000)) (t :: ts) rest
    obtain ⟨hpanics, hsucceeds⟩ := h (↑t.toNat * 1000)
    constructor
    · simpa [ht] using hpanics
    · simpa [ht] using hsucceeds
  · have hpanic : timestampToDatetime t = .error .panic := if_neg ht
    rw [hpanic]
    show Ends (.error .panic) (t :: ts) rest
    constructor
    · exact iff_of_true rfl ⟨t, List.mem_cons_self, ht⟩
    · exact iff_of_false (fun h => by cases h.choose_spec) fun h => ht (h.1 t List.mem_cons_self)

theorem accessed {kitSerial : String} {f : α → Except Failure β} (x : Except CapnpErrorKind α)
    (h : ∀ a, x = .ok a → Ends (f a) [] rest) :
    Ends (Mqtt.accessed kitSerial x >>= f) [] (accessible x && rest) := by
  cases x with
  | error e => exact .error _
  | ok a => exact h a rfl

end Ends

/-- A message is wrong before the timestamps, or parsing comes to them. -/
def Parses {α : Type} (r : Except Failure α) (ts : List UInt64) (rest : Bool) : Prop :=
  (∃ e, r = .error (.error e)) ∧ ts = [] ∨ ts ≠ [] ∧ Ends r ts rest

theorem Parses.error {α : Type} (e : Error) (rest : Bool) :
    Parses (α := α) (.error (.error e)) [] rest :=
  Or.inl ⟨⟨e, rfl⟩, rfl⟩

variable {kitSerial : String} {codec : Codec} {payload : List UInt8}

theorem Parses.identified {α : Type} {f : Uuid → Except Failure α} {ts : List UInt64}
    {rest : Bool} (id : Except CapnpErrorKind (List UInt8)) (hts : ts ≠ [])
    (h : ∀ id, Ends (f id) ts rest) :
    Parses (accessed kitSerial id >>= fun id => wellFormed kitSerial (uuidFromSlice id) >>= f)
      (if identified id then ts else []) rest := by
  cases id with
  | error e => exact .error _ _
  | ok id =>
      show Parses (wellFormed kitSerial (uuidFromSlice id) >>= f)
        (if id.length == 16 then ts else []) rest
      by_cases hlength : id.length = 16
      · rw [if_pos (beq_iff_eq.mpr hlength), uuidFromSlice, if_pos hlength]
        exact Or.inr ⟨hts, h _⟩
      · rw [if_neg (mt beq_iff_eq.mp hlength), uuidFromSlice, if_neg hlength]
        exact .error _ _

theorem Parses.malformed {α : Type} {e : Error} {rest : Bool}
    (id : Except CapnpErrorKind (List UInt8)) :
    Parses (α := α) (accessed kitSerial id >>= fun id =>
      wellFormed kitSerial (uuidFromSlice id) >>= fun _ => .error (.error e)) [] rest := by
  cases id with
  | error e => exact .error _ _
  | ok id =>
      show Parses (wellFormed kitSerial (uuidFromSlice id) >>= fun _ => .error (.error e)) [] rest
      cases uuidFromSlice id with
      | none => exact .error _ _
      | some id => exact .error _ _

theorem parseRawMeasurement_parses :
    Parses (parseRawMeasurement kitSerial codec payload)
      (timestamps codec payload .rawMeasurement)
      (restWellFormed codec payload .rawMeasurement) := by
  unfold parseRawMeasurement timestamps restWellFormed
  cases codec.readRawMeasurement payload with
  | error e => exact .error _ _
  | ok m =>
      exact .identified m.id (List.cons_ne_nil _ _) fun id => .timestamp _ fun datetime => .ok _

/-- The values are read up to the first that is malformed. -/
theorem readValues_ends {values : List AggregateValueReader} {β : Type}
    {f : List (String × F64) → Except Failure β} (h : ∀ vs, Ends (f vs) [] true) :
    Ends (values.mapM (readValue kitSerial) >>= f) [] (values.all (accessible ·.type)) := by
  induction values generalizing f with
  | nil => exact h []
  | cons v values ih =>
      rw [List.mapM_cons, bind_assoc]
      unfold readValue
      rw [bind_assoc]
      refine .accessed v.type fun type htype => ?_
      simp only [pure_bind, bind_assoc]
      exact ih fun vs => h ((type, v.value) :: vs)

theorem parseAggregateMeasurement_parses :
    Parses (parseAggregateMeasurement kitSerial codec payload)
      (timestamps codec payload .aggregateMeasurement)
      (restWellFormed codec payload .aggregateMeasurement) := by
  unfold parseAggregateMeasurement timestamps restWellFormed
  cases codec.readAggregateMeasurement payload with
  | error e => exact .error _ _
  | ok m =>
      obtain ⟨id, datetimeStart, datetimeEnd, peripheral, quantityType, values⟩ := m
      refine .identified id (List.cons_ne_nil _ _) fun id => .timestamp _ fun datetimeStart =>
        .timestamp _ fun datetimeEnd => ?_
      cases values with
      | error e => exact .error _
      | ok values => exact readValues_ends fun vs => .ok _

theorem parseMedia_parses :
    Parses (parseMedia kitSerial codec payload) (timestamps codec payload .media)
      (restWellFormed codec payload .media) := by
  unfold parseMedia timestamps restWellFormed
  cases codec.readMedia payload with
  | error e => exact .error _ _
  | ok m =>
      obtain ⟨id, datetime, peripheral, name, type, data, metadata⟩ := m
      cases metadata with
      | error e =>
          show Parses _ (if identified id && false then _ else []) _
          rw [Bool.and_false]
          cases id with
          | error e => exact .error _ _
          | ok id => exact .error _ _
      | ok text =>
          show Parses (accessed kitSerial id >>= fun id =>
              wellFormed kitSerial (uuidFromSlice id) >>= fun id =>
              wellFormed kitSerial (codec.kitRpc.fromStr text) >>= fun metadata =>
              timestampToDatetime datetime >>= _)
            (if identified id && (codec.kitRpc.fromStr text).isSome then _ else []) _
          cases codec.kitRpc.fromStr text with
          | none =>
              rw [Option.isSome_none, Bool.and_false]
              exact .malformed id
          | some metadata =>
              rw [Option.isSome_some, Bool.and_true]
              refine .identified id (List.cons_ne_nil _ _) fun id => .timestamp _ fun datetime => ?_
              have hrest : (accessible name && accessible type && accessible data)
                  = (accessible name && (accessible type && (accessible data && true))) := by
                rw [Bool.and_true, Bool.and_assoc]
              show Ends _ [] (accessible name && accessible type && accessible data)
              rw [hrest]
              exact .accessed name fun name _ => .accessed type fun type _ =>
                .accessed data fun data _ => .ok _

/-! ## Publishes -/

/-- A result, or an error, and nothing for a measurement or a picture that cannot
be decoded. -/
structure Handled (codec : Codec) (topic : String) (payload : List UInt8) : Prop where
  finishes : handlePublish codec topic payload ≠ .error .panic
  ignored : ∀ kitSerial kind, Topic.tryFrom topic = .ok ⟨kitSerial, kind⟩ →
    kind ∈ [.rawMeasurement, .aggregateMeasurement, .media] → ¬Decodable codec payload kind →
      handlePublish codec topic payload = .ok none

/-- The timestamps that a publish leads to. -/
def publishedTimestamps (codec : Codec) (topic : String) (payload : List UInt8) : List UInt64 :=
  match Topic.tryFrom topic with
  | .ok ⟨_, kind⟩ => timestamps codec payload kind
  | .error _ => []

theorem ignoreErrors_panics {α : Type} {r : Except Failure α} {f : α → Message} :
    ignoreErrors (r.map f) = .error .panic ↔ r = .error .panic := by
  cases r with
  | ok a => simp [ignoreErrors, Except.map]
  | error failure => cases failure <;> simp [ignoreErrors, Except.map]

theorem ignoreErrors_none {α : Type} {r : Except Failure α} {f : α → Message}
    (hpanic : r ≠ .error .panic) (hok : ¬∃ a, r = .ok a) :
    ignoreErrors (r.map f) = .ok none := by
  cases r with
  | ok a => exact absurd ⟨a, rfl⟩ hok
  | error failure =>
      cases failure with
      | panic => exact absurd rfl hpanic
      | error e => rfl

theorem Parses.panics {α : Type} {r : Except Failure α} {ts : List UInt64} {rest : Bool}
    (h : Parses r ts rest) : r = .error .panic ↔ ∃ t ∈ ts, ¬Representable t := by
  rcases h with ⟨⟨e, rfl⟩, rfl⟩ | ⟨-, h⟩
  · simp
  · exact h.panics

theorem Parses.succeeds {α : Type} {r : Except Failure α} {ts : List UInt64} {rest : Bool}
    (h : Parses r ts rest) :
    (∃ a, r = .ok a) ↔ ts ≠ [] ∧ (∀ t ∈ ts, Representable t) ∧ rest = true := by
  rcases h with ⟨⟨e, rfl⟩, rfl⟩ | ⟨hts, h⟩
  · simp
  · rw [h.succeeds, and_iff_right hts]

theorem handlePublish_parses {kind : TopicKind} {topic : String}
    (htopic : Topic.tryFrom topic = .ok ⟨kitSerial, kind⟩)
    (hkind : kind ∈ [.rawMeasurement, .aggregateMeasurement, .media]) :
    ∃ (α : Type) (r : Except Failure α) (f : α → Message),
      handlePublish codec topic payload = ignoreErrors (r.map f)
        ∧ Parses r (timestamps codec payload kind) (restWellFormed codec payload kind) := by
  simp only [List.mem_cons, List.not_mem_nil, or_false] at hkind
  rcases hkind with rfl | rfl | rfl
  · exact ⟨_, _, .rawMeasurement, by rw [handlePublish, htopic], parseRawMeasurement_parses⟩
  · exact ⟨_, _, .aggregateMeasurement, by rw [handlePublish, htopic],
      parseAggregateMeasurement_parses⟩
  · exact ⟨_, _, .media, by rw [handlePublish, htopic], parseMedia_parses⟩

theorem handlePublish_panics {topic : String} :
    handlePublish codec topic payload = .error .panic
      ↔ ∃ t ∈ publishedTimestamps codec topic payload, ¬Representable t := by
  unfold publishedTimestamps
  cases htopic : Topic.tryFrom topic with
  | error e => simp [handlePublish, htopic]
  | ok topic' =>
      obtain ⟨kitSerial, kind⟩ := topic'
      by_cases hkind : kind ∈ [.rawMeasurement, .aggregateMeasurement, .media]
      · obtain ⟨α, r, f, heq, hparses⟩ := @handlePublish_parses _ codec payload _ _ htopic hkind
        rw [heq, ignoreErrors_panics]
        exact hparses.panics
      · simp only [handlePublish, htopic]
        cases kind with
        | rawMeasurement | aggregateMeasurement | media => exact absurd (by decide) hkind
        | serverRpcRequest | serverRpcResponse | kitRpcRequest => simp [timestamps]
        | kitRpcResponse => cases decodeResponse codec.kitRpc payload <;> simp [timestamps]

/-- A publish is handled exactly if each timestamp that it leads to is in range. -/
theorem handled_iff {topic : String} : Handled codec topic payload
    ↔ ∀ t ∈ publishedTimestamps codec topic payload, Representable t := by
  have hpanics : handlePublish codec topic payload ≠ .error .panic
      ↔ ∀ t ∈ publishedTimestamps codec topic payload, Representable t := by
    rw [Ne, handlePublish_panics]
    push Not
    rfl
  refine ⟨fun h => hpanics.mp h.finishes, fun h => ⟨hpanics.mpr h, ?_⟩⟩
  intro kitSerial kind htopic hkind hmalformed
  have hfinishes := hpanics.mpr h
  obtain ⟨α, r, f, heq, hparses⟩ := @handlePublish_parses _ codec payload _ _ htopic hkind
  rw [heq] at hfinishes ⊢
  refine ignoreErrors_none (mt ignoreErrors_panics.mpr hfinishes) fun hok => hmalformed ?_
  obtain ⟨hcomesTo, hrepresentable, hrest⟩ := hparses.succeeds.mp hok
  exact ⟨hcomesTo, hrepresentable, hrest⟩

/-- **What crashes the stream**: a message that is well formed up to a timestamp
beyond the year 262143, and nothing else. There the conversion panics where it
should return nothing. -/
theorem publish_handled_iff (codec : Codec) (topic : String) (payload : List UInt8) (t : UInt64) :
    (Handled codec topic payload
        ↔ ∀ t ∈ publishedTimestamps codec topic payload, Representable t)
      ∧ (timestampToDatetime? t
            = .ok (if Representable t then some ↑(t.toNat * 1000) else none)
          ↔ Representable t) := by
  refine ⟨handled_iff, ?_⟩
  rw [timestampToDatetime?_eq]
  by_cases h : Representable t
  · simp [h]
  · simp [h]

/-- Every payload is a raw measurement of the last millisecond that it can be of. -/
def lastMillisecond : Codec where
  readRawMeasurement _ := .ok ⟨.ok (List.replicate 16 0), UInt64.ofNat (2 ^ 64 - 1), 1, 1, F64.one⟩
  readAggregateMeasurement _ := .error .failed
  readMedia _ := .error .failed
  kitRpc := ⟨fun _ => .error .failed, fun _ => none⟩

theorem lastMillisecond_not_handled :
    ¬Handled lastMillisecond "kit/k1/measurement/raw" [] := by
  intro h
  have htimestamps : publishedTimestamps lastMillisecond "kit/k1/measurement/raw" []
      = [UInt64.ofNat (2 ^ 64 - 1)] := by
    decide +kernel
  have hhandled := handled_iff.mp h
  rw [htimestamps] at hhandled
  exact absurd (hhandled _ List.mem_cons_self) (by decide)

end Mqtt

end AstroPlant
