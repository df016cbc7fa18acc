import AstroPlant.HashMap
import AstroPlant.Json
import AstroPlant.Run
import AstroPlant.Topic

/-!
# Kit RPC

Requests of the server to kits. A single driver task owns the waiters: it takes
requests from one channel and the decoded responses of all kits from another,
gives each request the next id, publishes it, and stores the sending half of
the caller's one-shot channel under the kit's serial and the id. Responses
arrive as arbitrary payloads on arbitrary topics.

The state keeps, besides what the program holds, the history that statements
about it need: the calls, the publications, the received messages and the
completions. A caller is identified by the position of its call, a received
message by its position.

The channels between the callers and the driver are bounded, and the driver takes
one thing at a time from them, in an order that is not fixed; it may also stop.
Of decoding the library's part is a parameter (`KitRpcCodec`), each accessor of
which may find its part of the message malformed. A malformed answer that has an
id is an answer to the call with this id all the same.
-/

namespace AstroPlant

namespace KitRpc

/-- Milliseconds. -/
abbrev Duration := Nat

/-! ## Decoding responses -/

/-- The kinds of errors of the message reader. -/
inductive CapnpErrorKind where
  | failed
  | overloaded
  | disconnected
  | unimplemented
deriving DecidableEq

inductive RpcErrorWhich where
  | other
  | methodNotFound
  | rateLimit (millis : UInt64)

structure PeripheralCommandReader where
  mediaType : Except CapnpErrorKind String
  data : Except CapnpErrorKind (List UInt8)
  metadata : Except CapnpErrorKind String

/-- The accessors of a response: each may find its part of the message
malformed. -/
inductive KitRpcResponseWhich where
  | version (v : Except CapnpErrorKind String)
  | uptime (v : UInt64)
  | peripheralCommand (v : Except CapnpErrorKind PeripheralCommandReader)
  | peripheralCommandLock (v : Bool)
  | error (v : Except CapnpErrorKind (Except CapnpErrorKind RpcErrorWhich))

/-- A discriminant that the schema does not know is an error of `which`. -/
structure KitRpcResponseReader where
  id : UInt64
  which : Except CapnpErrorKind KitRpcResponseWhich

/-- The decoders of the libraries: the root of a packed message, and JSON
text. -/
structure KitRpcCodec where
  readMessage : List UInt8 → Except CapnpErrorKind KitRpcResponseReader
  fromStr : String → Option Json

inductive RpcError where
  | other
  | methodNotFound
  | rateLimit (wait : Duration)
deriving DecidableEq

structure PeripheralCommandResponse where
  mediaType : String
  data : List UInt8
  metadata : Json

inductive ResponseBody where
  | version (v : String)
  | uptime (v : Duration)
  | peripheralCommand (v : PeripheralCommandResponse)
  | peripheralCommandLock (v : Bool)
  | error (err : RpcError)

inductive DecodeErrorKind where
  | internal
  | malformed
deriving DecidableEq

def DecodeErrorKind.ofCapnp : CapnpErrorKind → DecodeErrorKind
  | .failed => .malformed
  | _ => .internal

structure DecodeError where
  requestId : Option UInt64
  kind : DecodeErrorKind
deriving DecidableEq

namespace DecodeError

def withRequestId (requestId : UInt64) (error : CapnpErrorKind) : DecodeError :=
  ⟨some requestId, .ofCapnp error⟩

def withoutRequestId (error : CapnpErrorKind) : DecodeError := ⟨none, .ofCapnp error⟩

end DecodeError

def decodeRpcError (error : Except CapnpErrorKind RpcErrorWhich) :
    Except CapnpErrorKind RpcError := do
  match ← error with
  | .other => return .other
  | .methodNotFound => return .methodNotFound
  | .rateLimit millis => return .rateLimit millis.toNat

/-- The response's request id and the response body. -/
def decodeRpcResponse (codec : KitRpcCodec) (message : List UInt8) :
    Except DecodeError (UInt64 × ResponseBody) := do
  let response ← (codec.readMessage message).mapError .withoutRequestId
  let id := response.id
  match ← response.which.mapError (.withRequestId id) with
  | .version v =>
      return (id, .version (← v.mapError (.withRequestId id)))
  | .uptime v => return (id, .uptime (v.toNat * 1000))
  | .peripheralCommand v =>
      let v ← v.mapError (.withRequestId id)
      let mediaType ← v.mediaType.mapError (.withRequestId id)
      let data ← v.data.mapError (.withRequestId id)
      let metadata ← v.metadata.mapError (.withRequestId id)
      match codec.fromStr metadata with
      | some metadata => return (id, .peripheralCommand ⟨mediaType, data, metadata⟩)
      | none => .error ⟨some id, .malformed⟩
  | .peripheralCommandLock v => return (id, .peripheralCommandLock v)
  | .error v =>
      let v ← v.mapError (.withRequestId id)
      let error ← (decodeRpcError v).mapError (.withRequestId id)
      return (id, .error error)

/-- What `ResponseTx::send` makes of a payload: an error with an id is still an
answer to that request; one without is the connection's. -/
def decodeResponse (codec : KitRpcCodec) (payload : List UInt8) :
    Except DecodeError (UInt64 × Except DecodeErrorKind ResponseBody) :=
  match decodeRpcResponse codec payload with
  | .error ⟨some id, kind⟩ => .ok (id, .error kind)
  | .error err => .error err
  | .ok (requestId, body) => .ok (requestId, .ok body)

/-! ## Callers -/

inductive PeripheralCommandLockRequest where
  | status
  | acquire
  | release
deriving DecidableEq

inductive RequestBody where
  | version
  | uptime
  | peripheralCommand (peripheral : String) (command : Json)
  | peripheralCommandLock (peripheral : String) (request : PeripheralCommandLockRequest)

inductive KitRpcResponseError where
  | timedOut
  | malformedResponse
  | invalidResponse
  | rpcError (error : RpcError)
deriving DecidableEq

namespace KitsRpc

/-- What a caller makes of its one-shot channel; `none` is a dropped sender,
and `expected` accepts the bodies of the method's own kind. -/
def respond {α : Type} (expected : ResponseBody → Option α) :
    Option (Except DecodeErrorKind ResponseBody) → Except KitRpcResponseError α
  | none => .error .timedOut
  | some (.error _) => .error .malformedResponse
  | some (.ok body) =>
      match expected body, body with
      | some v, _ => .ok v
      | none, .error err => .error (.rpcError err)
      | none, _ => .error .invalidResponse

def version : Option (Except DecodeErrorKind ResponseBody) → Except KitRpcResponseError String :=
  respond fun | .version v => some v | _ => none

def uptime : Option (Except DecodeErrorKind ResponseBody) → Except KitRpcResponseError Duration :=
  respond fun | .uptime v => some v | _ => none

def peripheralCommand : Option (Except DecodeErrorKind ResponseBody) →
    Except KitRpcResponseError PeripheralCommandResponse :=
  respond fun | .peripheralCommand v => some v | _ => none

def peripheralCommandLock : Option (Except DecodeErrorKind ResponseBody) →
    Except KitRpcResponseError Bool :=
  respond fun | .peripheralCommandLock v => some v | _ => none

/-- A caller is handed something else than a timeout exactly when something was
sent to it. -/
theorem respond_eq_timedOut {α : Type} {expected : ResponseBody → Option α}
    {o : Option (Except DecodeErrorKind ResponseBody)} :
    respond expected o = .error .timedOut ↔ o = none := by
  unfold respond
  split
  · simp
  · simp
  · split <;> simp

end KitsRpc

/-! ## The driver and its channels -/

structure Request where
  kitSerial : String
  body : RequestBody
  caller : Nat

/-- A decoded response in the channel; `payload` is the message it came from. -/
structure Response where
  kitSerial : String
  requestId : UInt64
  body : Except DecodeErrorKind ResponseBody
  payload : Nat

structure Waiter where
  creation : Duration
  caller : Nat

/-- A request as it is handed to the MQTT client. -/
structure Publication where
  topic : String
  requestId : UInt64
  body : RequestBody
  caller : Nat

/-- The end of a call: the message that was sent to the caller and what was
decoded from it, or nothing if the sender was dropped. -/
structure Completion where
  caller : Nat
  outcome : Option (Nat × Except DecodeErrorKind ResponseBody)

/-- Where the driver's loop stands. -/
inductive DriverPc where
  | select
  | publishing (request : Request) (id : UInt64)
  | stopped

abbrev Waiters := AList fun _ : String × UInt64 => Waiter

structure State where
  nextId : UInt64
  waiters : Waiters
  pc : DriverPc
  requests : List Request
  responses : List Response
  requestsOpen : Bool
  responsesOpen : Bool
  now : Duration
  gone : List Nat
  calls : List (String × RequestBody)
  published : List Publication
  received : List (String × List UInt8)
  completions : List Completion

def State.start : State where
  nextId := 0
  waiters := ∅
  pc := .select
  requests := []
  responses := []
  requestsOpen := true
  responsesOpen := true
  now := 0
  gone := []
  calls := []
  published := []
  received := []
  completions := []

/-- Both channels have room for eight messages. -/
def capacity : Nat := 8

/-- The age at which `cleanup` drops a waiter. -/
def timeout : Duration := 30000

/-- The callers whose senders are dropped with a part of the waiters. -/
def callers (es : List (Sigma fun _ : String × UInt64 => Waiter)) : List Nat :=
  es.map fun e => e.2.caller

/-- Dropping senders: every caller that still listens times out. -/
def State.drop (s : State) (cs : List Nat) : State :=
  { s with
    completions := s.completions ++ (cs.filter fun c => c ∉ s.gone).map fun c => ⟨c, none⟩ }

inductive Label where
  /-- A caller sends its request to the driver. -/
  | call (kitSerial : String) (body : RequestBody)
  /-- A caller stops listening. -/
  | hangUp (caller : Nat)
  /-- All handles for making requests are gone. -/
  | closeRequests
  /-- The connection is gone. -/
  | closeResponses
  /-- A message arrives on the connection. -/
  | receive (topic : String) (payload : List UInt8)
  /-- The driver takes a request and hands it to the MQTT client. -/
  | recvRequest
  /-- `publish` returns, with or without an error, and the waiter is stored. -/
  | published
  /-- The driver takes a response. -/
  | recvResponse
  /-- The interval for `cleanup` ticks. -/
  | cleanup
  /-- Time passes. -/
  | elapse (d : Duration)

variable (codec : KitRpcCodec)

/-- `KitsRpc`: a full channel keeps the caller waiting; if the driver has
stopped, the request is dropped with its sender. -/
def call (kitSerial : String) (body : RequestBody) (s : State) : Option State :=
  let caller := s.calls.length
  let s' := { s with calls := s.calls ++ [(kitSerial, body)] }
  if !s.requestsOpen then none
  else
    match s.pc with
    | .stopped => some (s'.drop [caller])
    | _ =>
        if s.requests.length < capacity then
          some { s' with requests := s.requests ++ [⟨kitSerial, body, caller⟩] }
        else none

/-- `handle_kit_rpc_response` and `ResponseTx::send`: the serial is that of the
topic; a full channel keeps the connection waiting. -/
def receive (topic : String) (payload : List UInt8) (s : State) : Option State :=
  let s' := { s with received := s.received ++ [(topic, payload)] }
  if !s.responsesOpen then none
  else
    match Topic.tryFrom topic with
    | .ok ⟨kitSerial, .kitRpcResponse⟩ =>
        match decodeResponse codec payload with
        | .error _ => some s'
        | .ok (requestId, body) =>
            match s.pc with
            | .stopped => some s'
            | _ =>
                if s.responses.length < capacity then
                  some { s' with
                    responses := s.responses ++ [⟨kitSerial, requestId, body, s.received.length⟩] }
                else none
    | _ => some s'

/-- The loop ends: the driver is dropped with its waiters and the receiving
halves of both channels, and so with the requests in them. -/
def stop (s : State) : State :=
  { s.drop (s.requests.map (·.caller) ++ callers s.waiters.entries) with
    pc := .stopped, waiters := ∅, requests := [], responses := [] }

/-- The first half of `handle_request`. -/
def recvRequest (s : State) : Option State :=
  match s.pc with
  | .select =>
      match s.requests with
      | request :: rest =>
          some { s with
            requests := rest
            nextId := s.nextId + 1
            pc := .publishing request s.nextId
            published := s.published ++
              [⟨(Topic.mk request.kitSerial .kitRpcRequest).text, s.nextId, request.body,
                request.caller⟩] }
      | [] => if s.requestsOpen then none else some (stop s)
  | _ => none

/-- The second half of `handle_request`. A waiter that is stored already under
the key would be replaced, and so dropped. -/
def finishRequest (s : State) : Option State :=
  match s.pc with
  | .publishing request id =>
      let key := (request.kitSerial, id)
      let replaced := ((s.waiters.lookup key).map (·.caller)).toList
      some { s.drop replaced with
        waiters := s.waiters.insert key ⟨s.now, request.caller⟩
        pc := .select }
  | _ => none

/-- A response without a waiter is ignored, and so is a caller that has stopped
listening. -/
def recvResponse (s : State) : Option State :=
  match s.pc with
  | .select =>
      match s.responses with
      | response :: rest =>
          let key := (response.kitSerial, response.requestId)
          let s' := { s with responses := rest, waiters := s.waiters.erase key }
          match s.waiters.lookup key with
          | none => some s'
          | some waiter =>
              if waiter.caller ∈ s.gone then some s'
              else some { s' with
                completions := s.completions ++
                  [⟨waiter.caller, some (response.payload, response.body)⟩] }
      | [] => if s.responsesOpen then none else some (stop s)
  | _ => none

def cleanup (s : State) : Option State :=
  match s.pc with
  | .select =>
      let young := fun w : Waiter => s.now - w.creation < timeout
      some { s.drop (callers (s.waiters.entries.filter fun e => !young e.2)) with
        waiters := HashMap.retain young s.waiters }
  | _ => none

def step (s : State) : Label → Option State
  | .call kitSerial body => call kitSerial body s
  | .hangUp caller =>
      if caller < s.calls.length then some { s with gone := caller :: s.gone } else none
  | .closeRequests => some { s with requestsOpen := false }
  | .closeResponses => some { s with responsesOpen := false }
  | .receive topic payload => receive codec topic payload s
  | .recvRequest => recvRequest s
  | .published => finishRequest s
  | .recvResponse => recvResponse s
  | .cleanup => cleanup s
  | .elapse d => some { s with now := s.now + d }

end KitRpc

end AstroPlant
