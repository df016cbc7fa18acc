import AstroPlant.Pipe
import AstroPlant.Services
import AstroPlant.SubscriptionOrigins

/-!
# From the broker to a socket

The live half of the server. A task takes the messages off the MQTT stream: it
hands measurements to a bounded channel and uploads media itself. A second task
takes the measurements out of the channel and publishes them to the listeners.
Clients come over WebSockets: a handler reads the requests of a socket and
starts subscriptions, each of which asks the database whether the socket's user
may listen to the kit; another task writes what the subscriptions say to the
socket.

The listeners are those of `Websocket`, which leaves the answers of the database
and of the socket open. Here they are decided, and every run is a run of the
listeners (`listens_exec`). The database may change in any way between two
steps.

A socket is written to by one task (`send_all`), which waits for a message or for
the tick of its interval, and then for the socket to take the frame; meanwhile
other things happen and time passes. The receivers of a subscription are bounded,
and so is the channel of the publisher: what does not fit is lost to a receiver
that lags, and makes the pump wait.
-/

namespace AstroPlant

namespace LiveFeed

open KitRpc (Duration)
open Websocket (Shared Subscription)

/-! ## Requests of a client -/

/-- A JSON-RPC request, as far as the handler reads it. -/
structure RpcRequest where
  id : Json
  method : String
  params : Option Json

/-- The library that reads requests, and their parameter `kit_serial`. -/
structure JsonRpc where
  fromStr : String → Option RpcRequest
  kitSerial : Option Json → Option String

inductive MethodKind where
  | subscription
  | unsubscription
deriving DecidableEq

/-- The methods of the RPC module: a subscription and its end. -/
def method (name : String) : Option MethodKind :=
  if name = "subscribe_raw_measurements" then some .subscription
  else if name = "unsubscribe_raw_measurements" then some .unsubscription
  else none

/-- What the server says to a client. -/
inductive RpcMessage where
  | methodNotFound (id : Json)
  | invalidParams (id : Json)
  | notAuthorized (id : Json)
  | accepted (id : Json) (subscriptionId : Nat)
  | measurement (subscriptionId : Nat) (rawMeasurement : Mqtt.RawMeasurement)

/-! ## Sockets -/

inductive Frame where
  | text (message : RpcMessage)
  | ping

namespace Frame

def message : Frame → Option RpcMessage
  | text message => some message
  | ping => none

end Frame

/-- A frame that the socket has accepted: when `send_all` took it up, and when it
was sent. -/
structure Written where
  taken : Duration
  sent : Duration
  frame : Frame

/-- `send_all`: before the branches of its loop, in the `send` of one of them, past
the loop, and ended, which drops its half of the channel. -/
inductive SendAll where
  | loop
  | sending (taken : Duration) (frame : Frame)
  | close
  | done

/-- A socket, with everything that was written to it and when. -/
structure Connection where
  userId : Option Int
  /-- The handler reads on. -/
  reading : Bool
  sendAll : SendAll
  /-- The messages for `send_all`. -/
  queue : List RpcMessage
  /-- When the heartbeat ticks. -/
  heartbeat : Duration
  frames : List Written

namespace Connection

/-- The first tick of an interval is immediate. -/
def connected (userId : Option Int) (now : Duration) : Connection where
  userId
  reading := true
  sendAll := .loop
  queue := []
  heartbeat := now
  frames := []

def isClosed (c : Connection) : Bool :=
  match c.sendAll with
  | .done => true
  | _ => false

/-- `send_all` waits for a branch to be ready. -/
def selects (c : Connection) : Bool :=
  match c.sendAll with
  | .loop => true
  | _ => false

/-- Messages to a sink that is closed are errors, and go nowhere. -/
def send (ms : List RpcMessage) (c : Connection) : Connection :=
  if c.isClosed then c else { c with queue := c.queue ++ ms }

def hangUp (c : Connection) : Connection := { c with reading := false }

end Connection

def HEARTBEAT_INTERVAL : Duration := 4 * 60 * 1000

/-- The deadline of an interval that ticks now. `MissedTickBehavior::Delay` counts
from a tick that is late by more than five milliseconds, and from its deadline
otherwise. -/
def nextTick (deadline now : Duration) : Duration :=
  if deadline + 5 < now then now + HEARTBEAT_INTERVAL else deadline + HEARTBEAT_INTERVAL

/-- When the heartbeat ticks after a frame has been sent: a message resets it. -/
def Frame.heartbeat (now heartbeat : Duration) : Frame → Duration
  | text _ => now + HEARTBEAT_INTERVAL
  | ping => heartbeat

/-- A step of `send_all`: one of the branches of its loop, the end of the `send` in
a branch, which the socket may refuse, or the end of `close`. -/
inductive SinkBranch where
  | message
  | heartbeat
  | sent (accepted : Bool)
  | closeRx
  | close

/-- The signal to close comes with the end of the handler, and is not seen during
a `send`. -/
def Connection.advance (now : Duration) (c : Connection) : SinkBranch → Option Connection
  | .message =>
      match c.sendAll, c.queue with
      | .loop, message :: queue => some { c with queue, sendAll := .sending now (.text message) }
      | _, _ => none
  | .heartbeat =>
      match c.sendAll with
      | .loop =>
          if c.heartbeat ≤ now then
            some { c with heartbeat := nextTick c.heartbeat now, sendAll := .sending now .ping }
          else none
      | _ => none
  | .sent accepted =>
      match c.sendAll with
      | .sending taken frame =>
          if accepted then
            some { c with
              sendAll := .loop
              heartbeat := frame.heartbeat now c.heartbeat
              frames := c.frames ++ [⟨taken, now, frame⟩] }
          else some { c with sendAll := .close }
      | _ => none
  | .closeRx =>
      match c.sendAll with
      | .loop => if c.reading then none else some { c with sendAll := .close }
      | _ => none
  | .close =>
      match c.sendAll with
      | .close => some { c with sendAll := .done }
      | _ => none

/-! ## Tasks -/

/-- What a subscription was asked with: the socket, the request's id, and the
id that the provider gave the subscription. -/
structure Ticket where
  connection : Nat
  id : Json
  subscriptionId : Nat

/-- A task of the listeners; subscriptions are those of a socket. -/
inductive LiveTask where
  | subscription (ticket : Ticket) (subscription : Subscription)
  | cache (rawMeasurement : Mqtt.RawMeasurement)
  | send (rawMeasurement : Mqtt.RawMeasurement)
  | clean

namespace LiveTask

def task : LiveTask → Websocket.Task
  | subscription _ sub => .subscription sub
  | cache m => .cache m
  | send m => .send m
  | clean => .clean

/-- The subscription holds one of the permits of the socket. -/
def ofConnection (n : Nat) : LiveTask → Bool
  | subscription ticket _ => ticket.connection = n
  | _ => false

/-- What is being published. -/
def publishes : LiveTask → Option Mqtt.RawMeasurement
  | cache m | send m => some m
  | _ => none

end LiveTask

/-- The task that takes messages off the MQTT stream: it awaits one, room in the
channel, the end of a send, or an upload. -/
inductive Pump where
  | next
  | send (rawMeasurement : Mqtt.RawMeasurement)
  | flush
  | upload (upload : Upload)
  | panicked

/-- `mpsc::channel(32)` has a slot more for its sender, which is kept waiting
while that slot is in use. -/
abbrev Channel : Type := Pipe Mqtt.RawMeasurement 33

structure State where
  clock : Duration
  services : Services
  shared : Shared
  tasks : List LiveTask
  connections : List Connection
  channel : Channel
  pump : Pump

def State.start (services : Services) : State where
  clock := 0
  services
  shared := .start
  tasks := []
  connections := []
  channel := .empty
  pump := .next

/-- The listeners alone. -/
def State.listeners (s : State) : Conc Shared Websocket.Task := ⟨s.shared, s.tasks.map (·.task)⟩

/-! ## Steps -/

inductive Label where
  | elapse (duration : Duration)
  | database (store : Store)
  | connect (userId : Option Int)
  | text (n : Nat) (message : String) (subscriptionId : Nat)
  | hangUp (n : Nat)
  | sink (n : Nat) (branch : SinkBranch)
  | run (i : Nat) (recv : Bool) (now : Duration)
  | tickCleaner
  | publish (topic : String) (payload : List UInt8)
  | pump (putOk : Bool)
  | forward

/-- The closure that is handed to the socket handler. -/
def authCheck (s : Store) (userId : Option Int) (kitSerial : String) : Bool :=
  ((futKitPermissionOrForbidden userId kitSerial .subscribeRealTimeMeasurements).run s).toBool

def State.updateConnection (s : State) (n : Nat) (f : Connection → Connection) : State :=
  { s with connections := s.connections.modify n f }

/-- `BoundedSubscriptions::new(8)`. -/
def subscriptionPermits : Nat := 8

/-- `handle_ws_message`. What is no request is ignored; so are requests to
unsubscribe, and subscriptions when all permits are in use. -/
def handleWsMessage (rpc : JsonRpc) (n : Nat) (message : String) (subscriptionId : Nat)
    (s : State) : State :=
  match rpc.fromStr message with
  | none => s
  | some req =>
      match method req.method with
      | none => s.updateConnection n (·.send [.methodNotFound req.id])
      | some .unsubscription => s
      | some .subscription =>
          if s.tasks.countP (·.ofConnection n) < subscriptionPermits then
            match rpc.kitSerial req.params with
            | none => s.updateConnection n (·.send [.invalidParams req.id])
            | some kitSerial =>
                { s with
                  tasks := s.tasks ++ [.subscription ⟨n, req.id, subscriptionId⟩
                    (.pending kitSerial)] }
          else s

/-- What the environment of the listeners decides, decided: the database by the
state it is in, and the sink by the socket. -/
def listenerEnv (s : State) (connection : Connection) (sub : Subscription) (recv : Bool)
    (now : Duration) : Websocket.Env where
  authorized :=
    match sub with
    -- `accept` panics when the sink is closed
    | .pending kitSerial =>
        authCheck s.services.store connection.userId kitSerial && !connection.isClosed
    | _ => true
  branch := if recv then .recv (!connection.isClosed) else .tick connection.isClosed
  now

/-- What a step of a subscription says to its client. -/
def said (ticket : Ticket) (sub : Subscription) : Option Subscription → List RpcMessage
  | some (.dump _) => [.accepted ticket.id ticket.subscriptionId]
  | some next =>
      (next.sink.drop sub.sink.length).map (.measurement ticket.subscriptionId)
  | none =>
      match sub with
      | .pending _ => [.notAuthorized ticket.id]
      | _ => []

/-- A step of a task of the listeners among the others. -/
def LiveTask.advance (recv : Bool) (now : Duration) (others : List LiveTask) (s : State) :
    LiveTask → Option (State × Option LiveTask)
  | .subscription ticket sub =>
      match s.connections[ticket.connection]? with
      | none => none
      | some connection =>
          let e := listenerEnv s connection sub recv now
          (sub.advance e (others.map (·.task)) s.shared).map fun r =>
            ({ s with shared := r.1 }.updateConnection ticket.connection
                (·.send (said ticket sub r.2)),
              r.2.map (.subscription ticket))
  | .cache m => some ({ s with shared := s.shared.cache now m }, some (.send m))
  | .send m => some ({ s with shared := s.shared.send m }, none)
  | .clean => some ({ s with shared := s.shared.clean now }, none)

/-- A message of the stream. Errors and measurements of other kinds are passed
over. -/
def Pump.take : Except Mqtt.Failure (Option Mqtt.Message) → Pump
  | .ok (some (.rawMeasurement m)) => .send m
  | .ok (some (.media media)) => .upload (.start media)
  | .error .panic => .panicked
  | _ => .next

/-- The next step of the pump with what it holds. -/
def pumpStep (putOk : Bool) (s : State) : Option State :=
  match s.pump with
  | .send m =>
      (s.channel.write [m]).map fun r => { s with channel := r.1, pump := .flush }
  -- the sender is parked while its own slot is in use
  | .flush => if s.channel.buffer.length ≤ 32 then some { s with pump := .next } else none
  | .upload upload =>
      let r := upload.advance { putOk } s.services
      some { s with services := r.1, pump := (r.2.map Pump.upload).getD .next }
  | _ => none

/-- The forwarding task awaits the end of one publication before it takes the
next measurement. -/
def forwardStep (s : State) : Option State :=
  if s.tasks.all fun t => t.publishes.isNone then
    (s.channel.read 1).map fun channel =>
      { s with channel, tasks := s.tasks ++ (s.channel.buffer.take 1).map LiveTask.cache }
  else none

def step (rpc : JsonRpc) (codec : Mqtt.Codec) (s : State) : Label → Option State
  | .elapse duration => some { s with clock := s.clock + duration }
  | .database store => some { s with services := { s.services with store } }
  | .connect userId =>
      some { s with connections := s.connections ++ [.connected userId s.clock] }
  | .text n message subscriptionId =>
      if s.connections[n]?.any (·.reading) then
        some (handleWsMessage rpc n message subscriptionId s)
      else none
  | .hangUp n => some (s.updateConnection n (·.hangUp))
  | .sink n branch =>
      (s.connections[n]?.bind (·.advance s.clock branch)).map fun connection =>
        s.updateConnection n fun _ => connection
  | .run i recv now =>
      if now ≤ s.clock then
        s.tasks[i]?.bind fun t =>
          (t.advance recv now (s.tasks.eraseIdx i) s).map fun r =>
            { r.1 with tasks := Program.replace s.tasks i r.2 }
      else none
  | .tickCleaner => some { s with tasks := s.tasks ++ [.clean] }
  | .publish topic payload =>
      match s.pump with
      | .next => some { s with pump := .take (Mqtt.handlePublish codec topic payload) }
      | _ => none
  | .pump putOk => pumpStep putOk s
  | .forward => forwardStep s

/-! ## What a step can do -/

variable {rpc : JsonRpc} {codec : Mqtt.Codec} {s s' : State}

/-- The text is a request to subscribe to the kit. -/
structure Asks (rpc : JsonRpc) (message kitSerial : String) (req : RpcRequest) : Prop where
  read : rpc.fromStr message = some req
  subscription : method req.method = some .subscription
  kitSerial : rpc.kitSerial req.params = some kitSerial

/-- Everything that a step can do. -/
inductive Moves (rpc : JsonRpc) (codec : Mqtt.Codec) (s : State) : Label → State → Prop
  | elapse (duration : Duration) :
      Moves rpc codec s (.elapse duration) { s with clock := s.clock + duration }
  | database (store : Store) :
      Moves rpc codec s (.database store) { s with services := { s.services with store } }
  | connect (userId : Option Int) :
      Moves rpc codec s (.connect userId)
        { s with connections := s.connections ++ [.connected userId s.clock] }
  | ignores (n : Nat) (message : String) (subscriptionId : Nat) :
      Moves rpc codec s (.text n message subscriptionId) s
  | refuses (n : Nat) (message : String) (subscriptionId : Nat) {answer : RpcMessage}
      (hanswer : ∃ id, answer = .methodNotFound id ∨ answer = .invalidParams id) :
      Moves rpc codec s (.text n message subscriptionId) (s.updateConnection n (·.send [answer]))
  | subscribes (n : Nat) {message : String} (subscriptionId : Nat) {req : RpcRequest}
      {kitSerial : String} (hreq : Asks rpc message kitSerial req)
      (hconnection : n < s.connections.length)
      (hpermits : s.tasks.countP (·.ofConnection n) < subscriptionPermits) :
      Moves rpc codec s (.text n message subscriptionId)
        { s with
          tasks := s.tasks ++ [.subscription ⟨n, req.id, subscriptionId⟩ (.pending kitSerial)] }
  | hangUp (n : Nat) : Moves rpc codec s (.hangUp n) (s.updateConnection n (·.hangUp))
  | sink (n : Nat) {branch : SinkBranch} {connection connection' : Connection}
      (hconnection : s.connections[n]? = some connection)
      (hadvance : connection.advance s.clock branch = some connection') :
      Moves rpc codec s (.sink n branch) (s.updateConnection n fun _ => connection')
  | subscription {i : Nat} {recv : Bool} {now : Duration} {ticket : Ticket} {sub : Subscription}
      {connection : Connection} {shared : Shared} {next : Option Subscription}
      (htask : s.tasks[i]? = some (.subscription ticket sub))
      (hconnection : s.connections[ticket.connection]? = some connection)
      (hadvance : sub.advance (listenerEnv s connection sub recv now)
        ((s.tasks.eraseIdx i).map (·.task)) s.shared = some (shared, next)) :
      Moves rpc codec s (.run i recv now)
        { s with
          shared
          connections := s.connections.modify ticket.connection (·.send (said ticket sub next))
          tasks := Program.replace s.tasks i (next.map (.subscription ticket)) }
  | cache {i : Nat} {recv : Bool} {now : Duration} {m : Mqtt.RawMeasurement}
      (htask : s.tasks[i]? = some (.cache m)) :
      Moves rpc codec s (.run i recv now)
        { s with shared := s.shared.cache now m, tasks := s.tasks.set i (.send m) }
  | send {i : Nat} {recv : Bool} {now : Duration} {m : Mqtt.RawMeasurement}
      (htask : s.tasks[i]? = some (.send m)) :
      Moves rpc codec s (.run i recv now)
        { s with shared := s.shared.send m, tasks := s.tasks.eraseIdx i }
  | clean {i : Nat} {recv : Bool} {now : Duration} (htask : s.tasks[i]? = some .clean) :
      Moves rpc codec s (.run i recv now)
        { s with shared := s.shared.clean now, tasks := s.tasks.eraseIdx i }
  | tickCleaner : Moves rpc codec s .tickCleaner { s with tasks := s.tasks ++ [.clean] }
  | publish (topic : String) (payload : List UInt8) (hpump : s.pump = .next) :
      Moves rpc codec s (.publish topic payload)
        { s with pump := .take (Mqtt.handlePublish codec topic payload) }
  | enqueue {putOk : Bool} {m : Mqtt.RawMeasurement} {channel : Channel}
      (hpump : s.pump = .send m) (hsent : channel.sent = s.channel.sent ++ [m])
      (hreceived : channel.received = s.channel.received) :
      Moves rpc codec s (.pump putOk) { s with channel, pump := .flush }
  | flushed {putOk : Bool} (hpump : s.pump = .flush) (hroom : s.channel.buffer.length ≤ 32) :
      Moves rpc codec s (.pump putOk) { s with pump := .next }
  | upload {putOk : Bool} {upload : Upload} (hpump : s.pump = .upload upload) :
      Moves rpc codec s (.pump putOk)
        { s with
          services := (upload.advance { putOk } s.services).1
          pump := ((upload.advance { putOk } s.services).2.map Pump.upload).getD .next }
  | forward {m : Mqtt.RawMeasurement} {channel : Channel}
      (hidle : ∀ t ∈ s.tasks, t.publishes = none) (hsent : channel.sent = s.channel.sent)
      (hreceived : channel.received = s.channel.received ++ [m]) :
      Moves rpc codec s .forward { s with channel, tasks := s.tasks ++ [.cache m] }

theorem handleWsMessage_moves {n : Nat} {message : String} {subscriptionId : Nat}
    (hconnection : n < s.connections.length) :
    Moves rpc codec s (.text n message subscriptionId)
      (handleWsMessage rpc n message subscriptionId s) := by
  unfold handleWsMessage
  split
  · exact .ignores n message subscriptionId
  · rename_i req hread
    split
    · exact .refuses n message subscriptionId ⟨req.id, Or.inl rfl⟩
    · exact .ignores n message subscriptionId
    · rename_i hmethod
      split
      · rename_i hpermits
        split
        · exact .refuses n message subscriptionId ⟨req.id, Or.inr rfl⟩
        · rename_i kitSerial hserial
          exact .subscribes n subscriptionId ⟨hread, hmethod, hserial⟩ hconnection hpermits
      · exact .ignores n message subscriptionId

theorem run_moves {i : Nat} {recv : Bool} {now : Duration}
    (h : step rpc codec s (.run i recv now) = some s') :
    Moves rpc codec s (.run i recv now) s' := by
  simp only [step] at h
  split at h
  · obtain ⟨t, ht, h⟩ := Option.bind_eq_some_iff.mp h
    obtain ⟨⟨s₁, next⟩, hadvance, rfl⟩ := Option.map_eq_some_iff.mp h
    cases t with
    | subscription ticket sub =>
        simp only [LiveTask.advance] at hadvance
        split at hadvance
        · cases hadvance
        · rename_i connection hconnection
          obtain ⟨⟨shared, next⟩, hsub, heq⟩ := Option.map_eq_some_iff.mp hadvance
          obtain ⟨rfl, rfl⟩ := Prod.mk.inj heq
          exact .subscription ht hconnection hsub
    | cache m =>
        cases hadvance
        exact .cache ht
    | send m =>
        cases hadvance
        exact .send ht
    | clean =>
        cases hadvance
        exact .clean ht
  · cases h

theorem pump_moves {putOk : Bool} (h : step rpc codec s (.pump putOk) = some s') :
    Moves rpc codec s (.pump putOk) s' := by
  simp only [step, pumpStep] at h
  split at h
  · rename_i m hpump
    obtain ⟨⟨channel, rest⟩, hwrite, rfl⟩ := Option.map_eq_some_iff.mp h
    obtain ⟨hsent, hreceived⟩ := Pipe.write_singleton hwrite
    exact .enqueue hpump hsent hreceived
  · rename_i hpump
    split at h
    · rename_i hroom
      cases h
      exact .flushed hpump hroom
    · cases h
  · rename_i upload hpump
    cases h
    exact .upload hpump
  · cases h

theorem forward_moves (h : step rpc codec s .forward = some s') :
    Moves rpc codec s .forward s' := by
  simp only [step, forwardStep] at h
  split at h
  · rename_i hidle
    obtain ⟨channel, hread, rfl⟩ := Option.map_eq_some_iff.mp h
    obtain ⟨m, hm, hreceived⟩ := Pipe.read_one hread
    rw [hm]
    refine .forward (fun t ht => ?_) (Pipe.sent_read hread) hreceived
    exact Option.isNone_iff_eq_none.mp (List.all_eq_true.mp hidle t ht)
  · cases h

theorem moves_of_step {l : Label} (h : step rpc codec s l = some s') : Moves rpc codec s l s' := by
  cases l with
  | elapse duration =>
      cases h
      exact .elapse duration
  | database store =>
      cases h
      exact .database store
  | connect userId =>
      cases h
      exact .connect userId
  | text n message subscriptionId =>
      simp only [step] at h
      split at h
      · rename_i hreading
        cases h
        refine handleWsMessage_moves ?_
        obtain ⟨connection, hconnection, -⟩ := (Option.any_eq_true _ _).mp hreading
        exact (List.getElem?_eq_some_iff.mp hconnection).1
      · cases h
  | hangUp n =>
      cases h
      exact .hangUp n
  | sink n branch =>
      simp only [step] at h
      obtain ⟨connection', hadvance, rfl⟩ := Option.map_eq_some_iff.mp h
      obtain ⟨connection, hconnection, hadvance⟩ := Option.bind_eq_some_iff.mp hadvance
      exact .sink n hconnection hadvance
  | run i recv now => exact run_moves h
  | tickCleaner =>
      cases h
      exact .tickCleaner
  | publish topic payload =>
      simp only [step] at h
      split at h
      · rename_i hpump
        cases h
        exact .publish topic payload hpump
      · cases h
  | pump putOk => exact pump_moves h
  | forward => exact forward_moves h

end LiveFeed

end AstroPlant
