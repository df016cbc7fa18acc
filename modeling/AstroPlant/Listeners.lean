import AstroPlant.Conc
import AstroPlant.Messages

/-!
# Live measurements

Subscriptions to the measurements of a kit and the publisher of measurements
share a registry with one broadcast sender for each kit that is listened to.
The registry is behind a lock that is taken and released several times by a
subscription: to look up the sender, to register a new one when there is none,
to count the receivers at the end, and to remove the sender when there are none
left. Nothing holds from one of these sections to the next.

Senders are numbered in the order in which they are created; the receivers of a
sender are the subscriptions that hold one. What a sender was sent is recorded
in the history of the published measurements.

The answers of the database and of the socket are left open here: a subscription
may be let through or not, and a send may fail, or find the socket closed and say
so. What is proved for every such choice holds for the choices of any server
around it.
-/

namespace AstroPlant

namespace Websocket

open KitRpc (Duration)

/-! ## State -/

/-- Holds the newest measurement for each peripheral and quantity type, with the
time at which it was added. -/
abbrev KitCache := AList fun _ : Int × Int => Duration × Mqtt.RawMeasurement

structure Shared where
  rawMeasurementListeners : AList fun _ : String => Nat
  rawMeasurementCache : AList fun _ : String => KitCache
  /-- How many senders have been created. -/
  created : Nat
  /-- The measurements in the order of their publication, each with the sender
  it was put into. -/
  published : List (Mqtt.RawMeasurement × Option Nat)

def Shared.start : Shared where
  rawMeasurementListeners := ∅
  rawMeasurementCache := ∅
  created := 0
  published := []

/-- What has been put into a sender. -/
def Shared.sent (s : Shared) (sender : Nat) : List Mqtt.RawMeasurement :=
  s.published.filterMap fun p => if p.2 = some sender then some p.1 else none

/-- The number of messages that a sender keeps for its receivers. -/
def capacity : Nat := 8

/-- How long a measurement stays in the cache. -/
def retentionPeriod : Duration := 30 * 60 * 1000

/-- A receiver, the next message it is to read, and the number of measurements
that had been published when it was obtained. -/
structure Receiver where
  sender : Nat
  next : Nat
  since : Nat
deriving DecidableEq

/-- A subscription between its lock sections; `sink` is what the client has
been sent. -/
inductive Subscription where
  | pending (kitSerial : String)
  | dump (kitSerial : String)
  | lookup (kitSerial : String) (sink : List Mqtt.RawMeasurement)
  | register (kitSerial : String) (sink : List Mqtt.RawMeasurement)
  | forward (kitSerial : String) (receiver : Receiver) (lagged : Bool)
      (sink : List Mqtt.RawMeasurement)
  | count (kitSerial : String)
  | remove (kitSerial : String)

/-- A subscription, the publication of a measurement before each of its two
lock sections, or a cleaning of the cache. -/
inductive Task where
  | subscription (subscription : Subscription)
  | cache (rawMeasurement : Mqtt.RawMeasurement)
  | send (rawMeasurement : Mqtt.RawMeasurement)
  | clean

inductive Request where
  | sub (kitSerial : String)
  | publishRawMeasurement (rawMeasurement : Mqtt.RawMeasurement)
  | clean

/-- The branch that a subscription's loop takes: a message, which a closed sink
does not send, or the interval, at which the sink may be found closed. -/
inductive Branch where
  | recv (sent : Bool)
  | tick (closed : Bool)
deriving DecidableEq

/-- What the environment decides in a step. -/
structure Env where
  authorized : Bool := true
  branch : Branch := .tick false
  now : Duration := 0

/-! ## Steps -/

/-- The task holds a receiver of this sender. -/
def Task.receives (sender : Nat) : Task → Bool
  | .subscription (.forward _ receiver _ _) => receiver.sender = sender
  | _ => false

/-- `receiver_count`. -/
def receiverCount (sender : Nat) (ts : List Task) : Nat := ts.countP (·.receives sender)

def Shared.subscribe (s : Shared) (sender : Nat) : Receiver :=
  ⟨sender, (s.sent sender).length, s.published.length⟩

/-- One turn of the forwarding loop. A receiver that has lost messages is moved
to the oldest one that is kept, and its branch is disabled until the interval
ticks. -/
def forwardingLoop (s : Shared) (kitSerial : String) (receiver : Receiver) (lagged : Bool)
    (sink : List Mqtt.RawMeasurement) : Branch → Option Subscription
  | .tick closed =>
      if closed then some (.count kitSerial)
      else some (.forward kitSerial receiver false sink)
  | .recv sent =>
      let messages := s.sent receiver.sender
      if lagged then none
      else if receiver.next + capacity < messages.length then
        some (.forward kitSerial { receiver with next := messages.length - capacity } true sink)
      else
        match messages[receiver.next]? with
        | none => none
        | some rawMeasurement =>
            -- a closed sink answers `Ok(false)`, which is no error
            some (.forward kitSerial { receiver with next := receiver.next + 1 } false
              (if sent then sink ++ [rawMeasurement] else sink))

def Subscription.advance (e : Env) (others : List Task) (s : Shared) :
    Subscription → Option (Shared × Option Subscription)
  | .pending kitSerial => some (s, if e.authorized then some (.dump kitSerial) else none)
  | .dump kitSerial =>
      let cached := ((s.rawMeasurementCache.lookup kitSerial).map
        fun forKit => forKit.entries.map fun e => e.2.2).getD []
      some (s, some (.lookup kitSerial cached))
  | .lookup kitSerial sink =>
      match s.rawMeasurementListeners.lookup kitSerial with
      | some sender => some (s, some (.forward kitSerial (s.subscribe sender) false sink))
      | none => some (s, some (.register kitSerial sink))
  | .register kitSerial sink =>
      some
        ({ s with
            rawMeasurementListeners := s.rawMeasurementListeners.insert kitSerial s.created
            created := s.created + 1 },
          some (.forward kitSerial (s.subscribe s.created) false sink))
  | .forward kitSerial receiver lagged sink =>
      (forwardingLoop s kitSerial receiver lagged sink e.branch).map fun next => (s, some next)
  | .count kitSerial =>
      match s.rawMeasurementListeners.lookup kitSerial with
      -- `expect("invariant")`
      | none => some (s, none)
      | some sender =>
          if receiverCount sender others = 0 then some (s, some (.remove kitSerial))
          else some (s, none)
  | .remove kitSerial =>
      some
        ({ s with rawMeasurementListeners := s.rawMeasurementListeners.erase kitSerial }, none)

/-- The first lock section of `publish_raw_measurement`. -/
def Shared.cache (s : Shared) (now : Duration) (m : Mqtt.RawMeasurement) : Shared :=
  let forKit := (s.rawMeasurementCache.lookup m.kitSerial).getD ∅
  { s with
    rawMeasurementCache :=
      s.rawMeasurementCache.insert m.kitSerial
        (forKit.insert (m.peripheral, m.quantityType) (now, m)) }

/-- The second lock section of `publish_raw_measurement`. -/
def Shared.send (s : Shared) (m : Mqtt.RawMeasurement) : Shared :=
  { s with published := s.published ++ [(m, s.rawMeasurementListeners.lookup m.kitSerial)] }

/-- One round of `keep_raw_measurement_cache_clean`. -/
def Shared.clean (s : Shared) (now : Duration) : Shared :=
  let young : Duration × Mqtt.RawMeasurement → Bool := fun e => now - e.1 < retentionPeriod
  let cleaned : List (Sigma fun _ : String => KitCache) :=
    s.rawMeasurementCache.entries.map fun e => ⟨e.1, HashMap.retain young e.2⟩
  { s with rawMeasurementCache :=
      HashMap.retain (fun forKit => forKit.entries.length > 0) cleaned.toAList }

def program : Program Shared Request Env Task where
  entry
    | .sub kitSerial => .subscription (.pending kitSerial)
    | .publishRawMeasurement rawMeasurement => .cache rawMeasurement
    | .clean => .clean
  advance e t others s :=
    match t with
    | .subscription subscription =>
        (subscription.advance e others s).map fun r => (r.1, r.2.map .subscription)
    | .cache rawMeasurement => some (s.cache e.now rawMeasurement, some (.send rawMeasurement))
    | .send rawMeasurement => some (s.send rawMeasurement, none)
    | .clean => some (s.clean e.now, none)
  faulty _ := false

/-! ## What a step can do -/

/-- A turn of the loop goes on for the same kit or drops the receiver. A message
that it takes is sent, or the sink is closed. -/
theorem forwardingLoop_cases {s : Shared} {kitSerial : String} {receiver : Receiver}
    {lagged : Bool} {sink : List Mqtt.RawMeasurement} {branch : Branch} {sub : Subscription}
    (h : forwardingLoop s kitSerial receiver lagged sink branch = some sub) :
    sub = .count kitSerial ∨ (∃ lagged', sub = .forward kitSerial receiver lagged' sink)
      ∨ (∃ sent next, branch = .recv sent
        ∧ receiver.next + capacity < (s.sent receiver.sender).length
        ∧ sub = .forward kitSerial { receiver with next := next } true sink)
      ∨ (branch = .recv false ∧ receiver.next < (s.sent receiver.sender).length
        ∧ sub = .forward kitSerial { receiver with next := receiver.next + 1 } false sink)
      ∨ ∃ m, (s.sent receiver.sender)[receiver.next]? = some m
        ∧ sub = .forward kitSerial { receiver with next := receiver.next + 1 } false
          (sink ++ [m]) := by
  cases branch with
  | tick closed =>
      simp only [forwardingLoop] at h
      split at h <;> obtain rfl := Option.some.inj h
      · exact Or.inl rfl
      · exact Or.inr (Or.inl ⟨false, rfl⟩)
  | recv sent =>
      simp only [forwardingLoop] at h
      split at h
      · cases h
      · split at h
        · rename_i hlapped
          obtain rfl := Option.some.inj h
          exact Or.inr (Or.inr (Or.inl ⟨sent, _, rfl, hlapped, rfl⟩))
        · split at h
          · cases h
          · rename_i m hm
            obtain rfl := Option.some.inj h
            refine Or.inr (Or.inr (Or.inr ?_))
            cases sent with
            | true => exact Or.inr ⟨m, hm, rfl⟩
            | false => exact Or.inl ⟨rfl, (List.getElem?_eq_some_iff.mp hm).1, rfl⟩

/-- Everything that a task can do in one step: the state after it, and what is
left of the task. -/
inductive Advances (e : Env) (others : List Task) (s : Shared) :
    Task → Shared → Option Task → Prop
  | accept (kitSerial : String) :
      Advances e others s (.subscription (.pending kitSerial)) s
        (some (.subscription (.dump kitSerial)))
  | reject (kitSerial : String) :
      Advances e others s (.subscription (.pending kitSerial)) s none
  | dump (kitSerial : String) {sink : List Mqtt.RawMeasurement}
      (hsink : sink = ((s.rawMeasurementCache.lookup kitSerial).map
        fun forKit => forKit.entries.map fun e => e.2.2).getD []) :
      Advances e others s (.subscription (.dump kitSerial)) s
        (some (.subscription (.lookup kitSerial sink)))
  | subscribe (kitSerial : String) (sink : List Mqtt.RawMeasurement) {sender : Nat}
      (hsender : s.rawMeasurementListeners.lookup kitSerial = some sender) :
      Advances e others s (.subscription (.lookup kitSerial sink)) s
        (some (.subscription (.forward kitSerial (s.subscribe sender) false sink)))
  | missing (kitSerial : String) (sink : List Mqtt.RawMeasurement)
      (hnone : s.rawMeasurementListeners.lookup kitSerial = none) :
      Advances e others s (.subscription (.lookup kitSerial sink)) s
        (some (.subscription (.register kitSerial sink)))
  | register (kitSerial : String) (sink : List Mqtt.RawMeasurement) :
      Advances e others s (.subscription (.register kitSerial sink))
        { s with
          rawMeasurementListeners := s.rawMeasurementListeners.insert kitSerial s.created
          created := s.created + 1 }
        (some (.subscription (.forward kitSerial (s.subscribe s.created) false sink)))
  | loop {kitSerial : String} {receiver : Receiver} {lagged : Bool}
      {sink : List Mqtt.RawMeasurement} {sub : Subscription}
      (hloop : forwardingLoop s kitSerial receiver lagged sink e.branch = some sub) :
      Advances e others s (.subscription (.forward kitSerial receiver lagged sink)) s
        (some (.subscription sub))
  | panics (kitSerial : String) (hnone : s.rawMeasurementListeners.lookup kitSerial = none) :
      Advances e others s (.subscription (.count kitSerial)) s none
  | last (kitSerial : String) {sender : Nat}
      (hsender : s.rawMeasurementListeners.lookup kitSerial = some sender)
      (hcount : receiverCount sender others = 0) :
      Advances e others s (.subscription (.count kitSerial)) s
        (some (.subscription (.remove kitSerial)))
  | notLast (kitSerial : String) {sender : Nat}
      (hsender : s.rawMeasurementListeners.lookup kitSerial = some sender)
      (hcount : receiverCount sender others ≠ 0) :
      Advances e others s (.subscription (.count kitSerial)) s none
  | remove (kitSerial : String) :
      Advances e others s (.subscription (.remove kitSerial))
        { s with rawMeasurementListeners := s.rawMeasurementListeners.erase kitSerial } none
  | cache (m : Mqtt.RawMeasurement) :
      Advances e others s (.cache m) (s.cache e.now m) (some (.send m))
  | send (m : Mqtt.RawMeasurement) : Advances e others s (.send m) (s.send m) none
  | clean : Advances e others s .clean (s.clean e.now) none

theorem advances_of_advance {e : Env} {t : Task} {others : List Task} {s s' : Shared}
    {k : Option Task} (h : program.advance e t others s = some (s', k)) :
    Advances e others s t s' k := by
  cases t with
  | subscription subscription =>
      cases subscription with
      | pending kitSerial =>
          cases h
          split
          · exact .accept kitSerial
          · exact .reject kitSerial
      | dump kitSerial =>
          cases h
          exact .dump kitSerial rfl
      | lookup kitSerial sink =>
          simp only [program, Subscription.advance] at h
          split at h
          · rename_i sender hsender
            cases h
            exact .subscribe kitSerial sink hsender
          · rename_i hnone
            cases h
            exact .missing kitSerial sink hnone
      | register kitSerial sink =>
          cases h
          exact .register kitSerial sink
      | forward kitSerial receiver lagged sink =>
          simp only [program, Subscription.advance, Option.map_map, Option.map_eq_some_iff] at h
          obtain ⟨sub, hloop, h⟩ := h
          cases h
          exact .loop hloop
      | count kitSerial =>
          simp only [program, Subscription.advance] at h
          split at h
          · rename_i hnone
            cases h
            exact .panics kitSerial hnone
          · rename_i sender hsender
            split at h
            · rename_i hcount
              cases h
              exact .last kitSerial hsender hcount
            · rename_i hcount
              cases h
              exact .notLast kitSerial hsender hcount
      | remove kitSerial =>
          cases h
          exact .remove kitSerial
  | cache m =>
      cases h
      exact .cache m
  | send m =>
      cases h
      exact .send m
  | clean =>
      cases h
      exact .clean

end Websocket

end AstroPlant
