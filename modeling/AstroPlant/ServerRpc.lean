import AstroPlant.Keyed
import AstroPlant.KitRpc

/-!
# Server RPC

Requests of kits to the server. Each payload that is received on a request topic
is decoded, charged to the rate limiter of its kit, and handed to a task of its
own; the tasks call the handler and publish the responses, in whatever order
they get to run.

The clock is not part of the state: what is received carries the instants at
which the limiter and then the task's creator read it. The state keeps the
history that statements about it need: the requests, the calls of the handler
and the publications. A request and its task have the same position.

The limiter is a parameter: one cell for each kit, which says how long a request
has to wait. It is charged for each payload, whatever comes of the decoding,
before it is known whether there is a request in it.
-/

namespace AstroPlant

namespace ServerRpc

open KitRpc (CapnpErrorKind RpcError RpcErrorWhich)

/-- Nanoseconds on a monotone clock. -/
abbrev Instant := Nat

/-! ## Decoding requests -/

inductive ServerRpcRequestBody where
  | version
  | getActiveConfiguration
  | getQuantityTypes
deriving DecidableEq

structure ServerRpcRequest where
  id : UInt64
  body : ServerRpcRequestBody

/-- A discriminant that the schema does not know is an error of `which`. -/
structure ServerRpcRequestReader where
  id : UInt64
  which : Except CapnpErrorKind ServerRpcRequestBody

/-- The libraries: the root of a packed message, and JSON as text. -/
structure ServerRpcCodec where
  readMessage : List UInt8 → Except CapnpErrorKind ServerRpcRequestReader
  toString : Json → String

inductive DecodeError where
  | withRequestId (id : UInt64) (error : CapnpErrorKind)
  | withoutRequestId (error : CapnpErrorKind)

def decodeRpcRequest (codec : ServerRpcCodec) (message : List UInt8) :
    Except DecodeError ServerRpcRequest := do
  let request ← (codec.readMessage message).mapError .withoutRequestId
  let id := request.id
  let body ← request.which.mapError (.withRequestId id)
  return ⟨id, body⟩

/-! ## Responses -/

inductive ActiveConfiguration where
  | configuration (text : String)
  | none

inductive ServerRpcResponseWhich where
  | error (error : RpcErrorWhich)
  | version (v : String)
  | getQuantityTypes (v : String)
  | getActiveConfiguration (v : ActiveConfiguration)

/-- The message that the bytes of a response are. -/
structure ServerRpcResponseMessage where
  id : UInt64
  which : ServerRpcResponseWhich

structure ServerRpcResponse where
  kitSerial : String
  message : ServerRpcResponseMessage

structure ServerRpcResponseBuilder where
  kitSerial : String
  messageBuilder : ServerRpcResponseMessage

namespace ServerRpcResponseBuilder

/-- The first member of a union is the default. -/
def new (kitSerial : String) (id : UInt64) : ServerRpcResponseBuilder :=
  ⟨kitSerial, ⟨id, .error .other⟩⟩

def set (b : ServerRpcResponseBuilder) (which : ServerRpcResponseWhich) :
    ServerRpcResponseBuilder :=
  { b with messageBuilder := { b.messageBuilder with which := which } }

def setErrorOther (b : ServerRpcResponseBuilder) : ServerRpcResponseBuilder :=
  b.set (.error .other)

def setErrorMethodNotFound (b : ServerRpcResponseBuilder) : ServerRpcResponseBuilder :=
  b.set (.error .methodNotFound)

def setErrorRateLimit (b : ServerRpcResponseBuilder) (millis : UInt64) :
    ServerRpcResponseBuilder :=
  b.set (.error (.rateLimit millis))

/-- The cast of the milliseconds wraps around. -/
def setFromRpcError (b : ServerRpcResponseBuilder) : RpcError → ServerRpcResponseBuilder
  | .other => b.setErrorOther
  | .methodNotFound => b.setErrorMethodNotFound
  | .rateLimit duration => b.setErrorRateLimit (UInt64.ofNat duration)

def setVersion (b : ServerRpcResponseBuilder) (version : String) : ServerRpcResponseBuilder :=
  b.set (.version version)

def setActiveConfiguration (codec : ServerRpcCodec) (b : ServerRpcResponseBuilder) :
    Option Json → ServerRpcResponseBuilder
  | some configuration =>
      b.set (.getActiveConfiguration (.configuration (codec.toString configuration)))
  | none => b.set (.getActiveConfiguration .none)

def setQuantityTypes (codec : ServerRpcCodec) (b : ServerRpcResponseBuilder)
    (quantityTypes : List Json) : ServerRpcResponseBuilder :=
  b.set (.getQuantityTypes (codec.toString (.array quantityTypes)))

def create (b : ServerRpcResponseBuilder) : ServerRpcResponse := ⟨b.kitSerial, b.messageBuilder⟩

end ServerRpcResponseBuilder

/-! ## The handler -/

/-- What the handler answers at the time of a call. -/
structure ServerRpcHandler where
  version : Except RpcError String
  getActiveConfiguration : String → Except RpcError (Option Json)
  getQuantityTypes : Except RpcError (List Json)

/-- A call of the handler. -/
inductive HandlerCall where
  | version
  | getActiveConfiguration (kitSerial : String)
  | getQuantityTypes
deriving DecidableEq

/-- The call that `call_server_rpc_handler` makes. -/
def handlerCall (kitSerial : String) : ServerRpcRequestBody → HandlerCall
  | .version => .version
  | .getActiveConfiguration => .getActiveConfiguration kitSerial
  | .getQuantityTypes => .getQuantityTypes

def callServerRpcHandler (codec : ServerRpcCodec) (handler : ServerRpcHandler)
    (kitSerial : String) (request : ServerRpcRequest) : ServerRpcResponse :=
  let response := ServerRpcResponseBuilder.new kitSerial request.id
  match request.body with
  | .version =>
      match handler.version with
      | .ok v => (response.setVersion v).create
      | .error v => (response.setFromRpcError v).create
  | .getActiveConfiguration =>
      match handler.getActiveConfiguration kitSerial with
      | .ok v => (response.setActiveConfiguration codec v).create
      | .error v => (response.setFromRpcError v).create
  | .getQuantityTypes =>
      match handler.getQuantityTypes with
      | .ok v => (response.setQuantityTypes codec v).create
      | .error v => (response.setFromRpcError v).create

/-! ## The rate limiter -/

/-- The admission state of one key: a check at an instant either admits or tells
the earliest instant at which it would. -/
structure RateLimiter where
  Cell : Type
  fresh : Cell
  check : Instant → Cell → Option Instant × Cell

/-- Admits everything. -/
def unlimited : RateLimiter where
  Cell := Unit
  fresh := ()
  check _ cell := (none, cell)

/-- Whole milliseconds from one instant to a later one, cast to 64 bits. -/
def waitTimeFrom (earliest now : Instant) : UInt64 := UInt64.ofNat ((earliest - now) / 1000000)

/-- The wait time that a request is told, if it is not admitted. The clock is
read once for the check and once more for the wait time. -/
def RateLimiter.waitTime (limiter : RateLimiter) (cell : limiter.Cell)
    (instants : Instant × Instant) : Option UInt64 × limiter.Cell :=
  let (decision, cell) := limiter.check instants.1 cell
  (decision.map fun earliest => waitTimeFrom earliest instants.2, cell)

/-! ## Tasks -/

/-- Where the task of a request stands. -/
inductive TaskPc where
  | spawned
  | handling
  | publishing (response : ServerRpcResponse)
  | finished

structure Task where
  kitSerial : String
  request : Except DecodeError ServerRpcRequest
  rateLimitWaitTime : Option UInt64
  pc : TaskPc

/-- A payload on the request topic of a kit. -/
structure Received where
  kitSerial : String
  payload : List UInt8
  instants : Instant × Instant

/-- A response as it is handed to the MQTT client. -/
structure Publication where
  topic : String
  message : ServerRpcResponseMessage
  task : Nat

structure State (limiter : RateLimiter) where
  rateLimiter : String → limiter.Cell
  tasks : List Task
  received : List Received
  calls : List (Nat × HandlerCall)
  published : List Publication

def State.start (limiter : RateLimiter) : State limiter where
  rateLimiter := fun _ => limiter.fresh
  tasks := []
  received := []
  calls := []
  published := []

inductive Label where
  /-- A message arrives on the connection. -/
  | receive (topic : String) (payload : List UInt8) (instants : Instant × Instant)
  /-- A task runs until it calls the handler or publishes. -/
  | run (task : Nat)
  /-- The handler answers the call of a task. -/
  | handled (task : Nat) (handler : ServerRpcHandler)
  /-- The publication of a task is accepted. -/
  | publish (task : Nat)

variable (codec : ServerRpcCodec) {limiter : RateLimiter}

/-- The limiter is charged whatever comes of the decoding. -/
def handleServerRpcRequest (kitSerial : String) (payload : List UInt8)
    (instants : Instant × Instant) (s : State limiter) : State limiter :=
  let request := decodeRpcRequest codec payload
  let (rateLimitWaitTime, _) := limiter.waitTime (s.rateLimiter kitSerial) instants
  { s with
    rateLimiter := Keyed.put limiter.waitTime s.rateLimiter kitSerial instants
    tasks := s.tasks ++ [⟨kitSerial, request, rateLimitWaitTime, .spawned⟩]
    received := s.received ++ [⟨kitSerial, payload, instants⟩] }

def State.setPc (s : State limiter) (i : Nat) (pc : TaskPc) : State limiter :=
  { s with tasks := s.tasks.modify i fun task => { task with pc := pc } }

/-- What a task does first. -/
def start (task : Task) : TaskPc :=
  match task.request with
  | .error (.withRequestId id _) =>
      .publishing (ServerRpcResponseBuilder.new task.kitSerial id).setErrorMethodNotFound.create
  | .error (.withoutRequestId _) => .finished
  | .ok request =>
      match task.rateLimitWaitTime with
      | some waitTime =>
          .publishing
            ((ServerRpcResponseBuilder.new task.kitSerial request.id).setErrorRateLimit
              waitTime).create
      | none => .handling

/-- The handler call with which a task starts, if it makes one. -/
def Task.call? (task : Task) : Option HandlerCall :=
  match task.request, task.rateLimitWaitTime with
  | .ok request, none => some (handlerCall task.kitSerial request.body)
  | _, _ => none

def runTask (i : Nat) (s : State limiter) : Option (State limiter) := do
  let task ← s.tasks[i]?
  match task.pc with
  | .spawned =>
      some { s.setPc i (start task) with
        calls := s.calls ++ (task.call?.map fun call => (i, call)).toList }
  | _ => none

def handled (i : Nat) (handler : ServerRpcHandler) (s : State limiter) :
    Option (State limiter) := do
  let task ← s.tasks[i]?
  match task.pc, task.request with
  | .handling, .ok request =>
      some (s.setPc i (.publishing (callServerRpcHandler codec handler task.kitSerial request)))
  | _, _ => none

def publish (i : Nat) (s : State limiter) : Option (State limiter) := do
  let task ← s.tasks[i]?
  match task.pc with
  | .publishing response =>
      some { s.setPc i .finished with
        published := s.published ++
          [⟨(Topic.mk response.kitSerial .serverRpcResponse).text, response.message, i⟩] }
  | _ => none

def step (s : State limiter) : Label → Option (State limiter)
  | .receive topic payload instants =>
      match Topic.tryFrom topic with
      | .ok ⟨kitSerial, .serverRpcRequest⟩ =>
          some (handleServerRpcRequest codec kitSerial payload instants s)
      | _ => some s
  | .run i => runTask i s
  | .handled i handler => handled codec i handler s
  | .publish i => publish i s

end ServerRpc

end AstroPlant
