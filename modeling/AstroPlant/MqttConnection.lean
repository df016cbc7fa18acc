import AstroPlant.KitRpcTimeouts
import AstroPlant.ServerRpc

/-!
# The MQTT connection

The parts of the connection at work together: the task that consumes the stream,
the driver of the kit RPC, and the tasks of the server RPC. Two bounded channels
connect them. Whoever publishes puts a packet into the client's outgoing queue,
which only `poll` empties; the stream task puts the responses of kits into the
driver's channel, which only the driver empties.

The consumer of the stream polls it again whatever it is handed, so an item of
the stream leaves the stream task polling. A poll may take packets out of the
outgoing queue, return one that was received, or both.

The two channels close a cycle (`Deadlocked`): while the driver awaits a slot in
the outgoing queue it takes no responses, and while the stream task awaits a
slot for a response it does not poll. Nothing leads out of such a state
(`deadlocked_step`), and a run stays clear of it exactly when its steps meet
`Safe` (`always_iff_safe`).
-/

namespace AstroPlant

namespace MqttConnection

/-- The libraries, and whether a handler for the server RPC was given. -/
structure Config where
  kitRpcCodec : KitRpc.KitRpcCodec
  serverRpcCodec : ServerRpc.ServerRpcCodec
  limiter : ServerRpc.RateLimiter
  serverRpcHandler : Bool

inductive Outgoing where
  | subscribe (filter : String)
  | kitRpcRequest (publication : KitRpc.Publication)
  | serverRpcResponse (publication : ServerRpc.Publication)

/-- What a poll returns of the packets that were received. -/
inductive Packet where
  | connAck
  | publish (topic : String) (payload : List UInt8)
  | other

/-- Where the stream task stands. -/
inductive StreamPc where
  | polling
  | subscribing
  | responding (topic : String) (payload : List UInt8)

structure State (limiter : ServerRpc.RateLimiter) where
  kitRpc : KitRpc.State
  serverRpc : ServerRpc.State limiter
  outgoing : List Outgoing
  stream : StreamPc

def State.start (limiter : ServerRpc.RateLimiter) : State limiter where
  kitRpc := .start
  serverRpc := .start limiter
  outgoing := []
  stream := .polling

/-- The capacity that `AsyncClient::new` is given. -/
def outgoingCapacity : Nat := 32

inductive Label where
  /-- Callers and the driver of the kit RPC. -/
  | kitRpc (l : KitRpc.Label)
  /-- The tasks of the server RPC. -/
  | serverRpc (l : ServerRpc.Label)
  /-- `poll` takes packets out of the outgoing queue and returns an event, or an
  error. -/
  | poll (taken : Nat) (event : Option Packet) (instants : ServerRpc.Instant × ServerRpc.Instant)
  /-- The subscription is accepted by the outgoing queue. -/
  | subscribe
  /-- The response is accepted by the channel of the driver, or dropped. -/
  | respond

variable (cfg : Config)

/-- What the connection receives is received by the stream task, and the stream
is not dropped. A publication waits for room in the outgoing queue. -/
def kitRpcStep (s : State cfg.limiter) : KitRpc.Label → Option (State cfg.limiter)
  | .receive _ _ => none
  | .closeResponses => none
  | .published =>
      match s.kitRpc.pc with
      | .publishing request id =>
          if s.outgoing.length < outgoingCapacity then
            (KitRpc.step cfg.kitRpcCodec s.kitRpc .published).map fun kitRpc =>
              { s with
                kitRpc := kitRpc
                outgoing := s.outgoing ++
                  [.kitRpcRequest ⟨(Topic.mk request.kitSerial .kitRpcRequest).text, id,
                    request.body, request.caller⟩] }
          else none
      | _ => none
  | l => (KitRpc.step cfg.kitRpcCodec s.kitRpc l).map fun kitRpc => { s with kitRpc := kitRpc }

def serverRpcStep (s : State cfg.limiter) : ServerRpc.Label → Option (State cfg.limiter)
  | .receive _ _ _ => none
  | .publish i =>
      if s.outgoing.length < outgoingCapacity then
        (ServerRpc.step cfg.serverRpcCodec s.serverRpc (.publish i)).map fun serverRpc =>
          { s with
            serverRpc := serverRpc
            outgoing := s.outgoing ++
              (serverRpc.published.getLast?.map Outgoing.serverRpcResponse).toList }
      else none
  | l =>
      (ServerRpc.step cfg.serverRpcCodec s.serverRpc l).map fun serverRpc =>
        { s with serverRpc := serverRpc }

/-- Measurements, media and errors are items of the stream. -/
def handlePublish (topic : String) (payload : List UInt8)
    (instants : ServerRpc.Instant × ServerRpc.Instant) (s : State cfg.limiter) :
    State cfg.limiter :=
  match Topic.tryFrom topic with
  | .ok ⟨kitSerial, .serverRpcRequest⟩ =>
      if cfg.serverRpcHandler then
        { s with
          serverRpc := ServerRpc.handleServerRpcRequest cfg.serverRpcCodec kitSerial payload
            instants s.serverRpc }
      else s
  | .ok ⟨_, .kitRpcResponse⟩ => { s with stream := .responding topic payload }
  | _ => s

def poll (taken : Nat) (event : Option Packet)
    (instants : ServerRpc.Instant × ServerRpc.Instant) (s : State cfg.limiter) :
    Option (State cfg.limiter) :=
  match s.stream with
  | .polling =>
      let s' := { s with outgoing := s.outgoing.drop taken }
      match event with
      | some .connAck => some { s' with stream := .subscribing }
      | some (.publish topic payload) => some (handlePublish cfg topic payload instants s')
      | _ => some s'
  | _ => none

def step (s : State cfg.limiter) : Label → Option (State cfg.limiter)
  | .kitRpc l => kitRpcStep cfg s l
  | .serverRpc l => serverRpcStep cfg s l
  | .poll taken event instants => poll cfg taken event instants s
  | .subscribe =>
      match s.stream with
      | .subscribing =>
          if s.outgoing.length < outgoingCapacity then
            some { s with outgoing := s.outgoing ++ [.subscribe "kit/#"], stream := .polling }
          else none
      | _ => none
  | .respond =>
      match s.stream with
      | .responding topic payload =>
          (KitRpc.step cfg.kitRpcCodec s.kitRpc (.receive topic payload)).map fun kitRpc =>
            { s with kitRpc := kitRpc, stream := .polling }
      | _ => none

/-! ## Waiting for each other -/

/-- The stream task awaits a free slot for a response. -/
def StreamWaits (s : State cfg.limiter) : Prop :=
  ∃ topic payload, s.stream = .responding topic payload ∧ step cfg s .respond = none

/-- The driver awaits a free slot for a request. -/
def DriverWaits (s : State cfg.limiter) : Prop :=
  ∃ request id, s.kitRpc.pc = .publishing request id ∧ step cfg s (.kitRpc .published) = none

def Deadlocked (s : State cfg.limiter) : Prop := StreamWaits cfg s ∧ DriverWaits cfg s

/-- A response of a kit that finds the channel of the driver full. -/
def Unfit (s : KitRpc.State) (topic : String) (payload : List UInt8) : Prop :=
  (∃ kitSerial id body, KitRpc.Answers cfg.kitRpcCodec (topic, payload) kitSerial id body)
    ∧ KitRpc.capacity ≤ s.responses.length

/-- The stream task holds such a response. -/
def HoldsUnfit (s : State cfg.limiter) : Prop :=
  ∃ topic payload, s.stream = .responding topic payload ∧ Unfit cfg s.kitRpc topic payload

/-- The driver has taken a request and not yet published it. -/
def Publishing (s : State cfg.limiter) : Prop :=
  ∃ request id, s.kitRpc.pc = .publishing request id

/-- Both channels are full and each task has something to put into the one that
the other empties. -/
def Cycle (s : State cfg.limiter) : Prop :=
  HoldsUnfit cfg s ∧ Publishing cfg s ∧ outgoingCapacity ≤ s.outgoing.length

/-- The step does not close the cycle: no poll leaves the outgoing queue full and
returns a response that does not fit while the driver is publishing; while the
stream task holds such a response, the driver takes no request before a full
queue, and no task of the server RPC takes its last slot before the driver. -/
def Safe (s : State cfg.limiter) : Label → Prop
  | .poll taken (some (.publish topic payload)) _ =>
      ¬ (Unfit cfg s.kitRpc topic payload ∧ Publishing cfg s
        ∧ outgoingCapacity + taken ≤ s.outgoing.length)
  | .kitRpc .recvRequest =>
      ¬ (HoldsUnfit cfg s ∧ s.kitRpc.requests ≠ [] ∧ outgoingCapacity ≤ s.outgoing.length)
  | .serverRpc (.publish _) =>
      ¬ (HoldsUnfit cfg s ∧ Publishing cfg s ∧ outgoingCapacity ≤ s.outgoing.length + 1)
  | _ => True

/-! ## The cycle in terms of the channels -/

variable {cfg} {s s' : State cfg.limiter}

theorem receive_eq_none {k : KitRpc.State} {topic : String} {payload : List UInt8}
    (hopen : k.responsesOpen = true) :
    KitRpc.step cfg.kitRpcCodec k (.receive topic payload) = none
      ↔ k.pc ≠ .stopped ∧ Unfit cfg k topic payload := by
  simp only [KitRpc.step, KitRpc.receive, hopen, Unfit, KitRpc.Answers, Bool.not_true,
    Bool.false_eq_true, if_false]
  split
  · rename_i kitSerial htopic
    split
    · rename_i err hdec
      simp [hdec]
    · rename_i id body hdec
      split
      · rename_i hpc
        simp [hpc]
      · rename_i hpc
        split
        · rename_i hlt
          simp only [false_iff, reduceCtorEq, not_and, Nat.not_le]
          exact fun _ _ => hlt
        · rename_i hlt
          simp only [true_iff]
          exact ⟨hpc, ⟨kitSerial, id, body, htopic, hdec⟩, Nat.le_of_not_lt hlt⟩
  · rename_i htopic
    simp only [false_iff, reduceCtorEq]
    rintro ⟨-, ⟨kitSerial, id, body, hans, -⟩, -⟩
    exact htopic kitSerial hans

theorem published_enabled (codec : KitRpc.KitRpcCodec) {k : KitRpc.State}
    {request : KitRpc.Request} {id : UInt64} (hpc : k.pc = .publishing request id) :
    ∃ k', KitRpc.step codec k .published = some k' := by
  simp only [KitRpc.step, KitRpc.finishRequest, hpc]
  exact ⟨_, rfl⟩

theorem driverWaits_iff :
    DriverWaits cfg s ↔ Publishing cfg s ∧ outgoingCapacity ≤ s.outgoing.length := by
  have hone : ∀ request id, s.kitRpc.pc = .publishing request id →
      (step cfg s (.kitRpc .published) = none ↔ outgoingCapacity ≤ s.outgoing.length) := by
    intro request id hpc
    obtain ⟨k', hk'⟩ := published_enabled cfg.kitRpcCodec hpc
    simp only [step, kitRpcStep, hpc, hk']
    split
    · rename_i hlt
      simpa using hlt
    · rename_i hlt
      simpa using hlt
  constructor
  · rintro ⟨request, id, hpc, hnone⟩
    exact ⟨⟨request, id, hpc⟩, (hone request id hpc).mp hnone⟩
  · rintro ⟨⟨request, id, hpc⟩, hfull⟩
    exact ⟨request, id, hpc, (hone request id hpc).mpr hfull⟩

theorem streamWaits_iff (hopen : s.kitRpc.responsesOpen = true) :
    StreamWaits cfg s ↔ s.kitRpc.pc ≠ .stopped ∧ HoldsUnfit cfg s := by
  have hone : ∀ topic payload, s.stream = .responding topic payload →
      (step cfg s .respond = none
        ↔ s.kitRpc.pc ≠ .stopped ∧ Unfit cfg s.kitRpc topic payload) := by
    intro topic payload hstream
    simp only [step, hstream, Option.map_eq_none_iff]
    exact receive_eq_none hopen
  constructor
  · rintro ⟨topic, payload, hstream, hnone⟩
    obtain ⟨hpc, hunfit⟩ := (hone topic payload hstream).mp hnone
    exact ⟨hpc, topic, payload, hstream, hunfit⟩
  · rintro ⟨hpc, topic, payload, hstream, hunfit⟩
    exact ⟨topic, payload, hstream, (hone topic payload hstream).mpr ⟨hpc, hunfit⟩⟩

theorem deadlocked_iff (hopen : s.kitRpc.responsesOpen = true) :
    Deadlocked cfg s ↔ Cycle cfg s := by
  rw [Deadlocked, streamWaits_iff hopen, driverWaits_iff, Cycle]
  constructor
  · rintro ⟨⟨-, hholds⟩, hdriver⟩
    exact ⟨hholds, hdriver⟩
  · rintro ⟨hholds, ⟨request, id, hpc⟩, hfull⟩
    exact ⟨⟨by rw [hpc]; simp, hholds⟩, ⟨request, id, hpc⟩, hfull⟩

/-! ## What a step does to the channels -/

/-- Out of a publication only `published` leads, and into one `recvRequest`; every
other step leaves the channel of responses alone meanwhile. -/
theorem kitRpc_local {codec : KitRpc.KitRpcCodec} {k k' : KitRpc.State} {l : KitRpc.Label}
    (hl : l ≠ .recvRequest ∧ l ≠ .published ∧ ∀ topic payload, l ≠ .receive topic payload)
    (hs : KitRpc.step codec k l = some k') :
    (k'.pc = k.pc ∧ k'.responses = k.responses)
      ∨ (k.pc = .select ∧ (k'.pc = .select ∨ k'.pc = .stopped)) := by
  cases l with
  | call kitSerial body =>
      simp only [KitRpc.step, KitRpc.call] at hs
      repeat' split at hs
      all_goals cases hs
      all_goals exact Or.inl ⟨rfl, rfl⟩
  | hangUp caller =>
      simp only [KitRpc.step] at hs
      split at hs
      · obtain rfl := Option.some.inj hs
        exact Or.inl ⟨rfl, rfl⟩
      · cases hs
  | closeRequests | closeResponses | elapse d =>
      obtain rfl := Option.some.inj hs
      exact Or.inl ⟨rfl, rfl⟩
  | receive topic payload => exact absurd rfl (hl.2.2 topic payload)
  | recvRequest => exact absurd rfl hl.1
  | published => exact absurd rfl hl.2.1
  | recvResponse =>
      simp only [KitRpc.step, KitRpc.recvResponse] at hs
      split at hs
      · rename_i hselect
        refine Or.inr ⟨hselect, ?_⟩
        repeat' split at hs
        all_goals cases hs
        all_goals first | exact Or.inl hselect | exact Or.inr rfl
      · cases hs
  | cleanup =>
      simp only [KitRpc.step, KitRpc.cleanup] at hs
      split at hs
      · rename_i hselect
        obtain rfl := Option.some.inj hs
        exact Or.inr ⟨hselect, Or.inl hselect⟩
      · cases hs

theorem kitRpc_open {codec : KitRpc.KitRpcCodec} {k k' : KitRpc.State} {l : KitRpc.Label}
    (hl : l ≠ .closeResponses) (hs : KitRpc.step codec k l = some k')
    (hopen : k.responsesOpen = true) : k'.responsesOpen = true := by
  cases l with
  | closeResponses => exact absurd rfl hl
  | closeRequests | elapse d =>
      obtain rfl := Option.some.inj hs
      exact hopen
  | hangUp caller =>
      simp only [KitRpc.step] at hs
      split at hs
      · obtain rfl := Option.some.inj hs
        exact hopen
      · cases hs
  | call kitSerial body =>
      simp only [KitRpc.step, KitRpc.call] at hs
      repeat' split at hs
      all_goals cases hs
      all_goals exact hopen
  | receive topic payload =>
      simp only [KitRpc.step, KitRpc.receive] at hs
      repeat' split at hs
      all_goals cases hs
      all_goals exact hopen
  | recvRequest | published | recvResponse | cleanup =>
      simp only [KitRpc.step, KitRpc.recvRequest, KitRpc.finishRequest, KitRpc.recvResponse,
        KitRpc.cleanup] at hs
      repeat' split at hs
      all_goals cases hs
      all_goals exact hopen

/-- What the driver does on its own account, the publication apart. -/
theorem kitRpcStep_cases {l : KitRpc.Label} (hs : kitRpcStep cfg s l = some s') :
    ∃ k', KitRpc.step cfg.kitRpcCodec s.kitRpc l = some k' ∧ s'.kitRpc = k'
      ∧ s'.stream = s.stream ∧ l ≠ .closeResponses
      ∧ (∀ topic payload, l ≠ .receive topic payload)
      ∧ (l = .published ∨ s'.outgoing = s.outgoing) := by
  cases l with
  | receive topic payload => cases hs
  | closeResponses => cases hs
  | published =>
      simp only [kitRpcStep] at hs
      split at hs
      · split at hs
        · obtain ⟨k', hk', rfl⟩ := Option.map_eq_some_iff.mp hs
          exact ⟨k', hk', rfl, rfl, by simp, by simp, Or.inl rfl⟩
        · cases hs
      · cases hs
  | call | hangUp | closeRequests | recvRequest | recvResponse | cleanup | elapse =>
      simp only [kitRpcStep, Option.map_eq_some_iff] at hs
      obtain ⟨k', hk', rfl⟩ := hs
      exact ⟨k', hk', rfl, rfl, by simp, by simp, Or.inr rfl⟩

theorem publish_published {limiter : ServerRpc.RateLimiter} {r r' : ServerRpc.State limiter}
    {i : Nat} (h : ServerRpc.publish i r = some r') : ∃ p, r'.published = r.published ++ [p] := by
  obtain ⟨task, -, h⟩ := Option.bind_eq_some_iff.mp h
  split at h
  · obtain rfl := Option.some.inj h
    exact ⟨_, rfl⟩
  · cases h

theorem serverRpcStep_cases {l : ServerRpc.Label} (hs : serverRpcStep cfg s l = some s') :
    s'.kitRpc = s.kitRpc ∧ s'.stream = s.stream
      ∧ ((∃ i packet, l = .publish i ∧ s.outgoing.length < outgoingCapacity
          ∧ s'.outgoing = s.outgoing ++ [packet])
        ∨ (∀ i, l ≠ .publish i) ∧ s'.outgoing = s.outgoing) := by
  cases l with
  | receive topic payload instants => cases hs
  | publish i =>
      simp only [serverRpcStep] at hs
      split at hs
      · rename_i hlt
        obtain ⟨r', hr', rfl⟩ := Option.map_eq_some_iff.mp hs
        obtain ⟨p, hp⟩ := publish_published hr'
        exact ⟨rfl, rfl, Or.inl ⟨i, .serverRpcResponse p, rfl, hlt, by simp [hp]⟩⟩
      · cases hs
  | run i =>
      obtain ⟨r', -, rfl⟩ := Option.map_eq_some_iff.mp hs
      exact ⟨rfl, rfl, Or.inr ⟨by simp, rfl⟩⟩
  | handled i handler =>
      obtain ⟨r', -, rfl⟩ := Option.map_eq_some_iff.mp hs
      exact ⟨rfl, rfl, Or.inr ⟨by simp, rfl⟩⟩

theorem handlePublish_frame (topic : String) (payload : List UInt8)
    (instants : ServerRpc.Instant × ServerRpc.Instant) (s : State cfg.limiter) :
    (handlePublish cfg topic payload instants s).kitRpc = s.kitRpc
      ∧ (handlePublish cfg topic payload instants s).outgoing = s.outgoing
      ∧ ((handlePublish cfg topic payload instants s).stream = s.stream
        ∧ (∀ kitSerial, Topic.tryFrom topic ≠ .ok ⟨kitSerial, .kitRpcResponse⟩)
        ∨ (handlePublish cfg topic payload instants s).stream = .responding topic payload) := by
  unfold handlePublish
  split
  · rename_i htopic
    split
    · exact ⟨rfl, rfl, Or.inl ⟨rfl, by simp [htopic]⟩⟩
    · exact ⟨rfl, rfl, Or.inl ⟨rfl, by simp [htopic]⟩⟩
  · exact ⟨rfl, rfl, Or.inr rfl⟩
  · rename_i hother
    exact ⟨rfl, rfl, Or.inl ⟨rfl, hother⟩⟩

theorem open_step {l : Label} (hopen : s.kitRpc.responsesOpen = true)
    (hs : step cfg s l = some s') : s'.kitRpc.responsesOpen = true := by
  cases l with
  | kitRpc l =>
      obtain ⟨k', hk', hkit, -, hl, -⟩ := kitRpcStep_cases hs
      rw [hkit]
      exact kitRpc_open hl hk' hopen
  | serverRpc l =>
      obtain ⟨hkit, -⟩ := serverRpcStep_cases hs
      rw [hkit]
      exact hopen
  | poll taken event instants =>
      simp only [step, poll] at hs
      repeat' split at hs
      all_goals cases hs
      all_goals first | exact hopen | (rw [(handlePublish_frame _ _ _ _).1]; exact hopen)
  | subscribe =>
      simp only [step] at hs
      repeat' split at hs
      all_goals cases hs
      all_goals exact hopen
  | respond =>
      simp only [step] at hs
      split at hs
      · obtain ⟨k', hk', rfl⟩ := Option.map_eq_some_iff.mp hs
        exact kitRpc_open (by simp) hk' hopen
      · cases hs

/-! ## Entering the cycle -/

theorem holdsUnfit_frame (hstream : s'.stream = s.stream)
    (hresponses : s'.kitRpc.responses = s.kitRpc.responses) :
    HoldsUnfit cfg s' ↔ HoldsUnfit cfg s := by
  simp only [HoldsUnfit, Unfit, hstream, hresponses]

/-- Whoever is not taking a request does not start the driver's waiting. -/
theorem cycle_of_local {l : KitRpc.Label} (hs : kitRpcStep cfg s l = some s')
    (hl : l ≠ .recvRequest) (h : Cycle cfg s') : Cycle cfg s := by
  obtain ⟨k', hk', rfl, hstream, -, hreceive, houtgoing⟩ := kitRpcStep_cases hs
  obtain ⟨hholds, ⟨request, id, hpc⟩, hfull⟩ := h
  by_cases hpublished : l = .published
  · subst hpublished
    simp only [KitRpc.step, KitRpc.finishRequest] at hk'
    split at hk'
    · have hselect := congrArg KitRpc.State.pc (Option.some.inj hk')
      exact absurd (hpc.symm.trans hselect.symm) (by simp)
    · cases hk'
  · rw [houtgoing.resolve_left hpublished] at hfull
    rcases kitRpc_local ⟨hl, hpublished, hreceive⟩ hk' with ⟨hpc', hresponses⟩ | ⟨-, hpc'⟩
    · exact ⟨(holdsUnfit_frame hstream hresponses).mp hholds, ⟨request, id, hpc' ▸ hpc⟩, hfull⟩
    · rcases hpc' with hpc' | hpc' <;> exact absurd (hpc.symm.trans hpc') (by simp)

theorem cycle_recvRequest (hs : kitRpcStep cfg s .recvRequest = some s') :
    Cycle cfg s' ↔ HoldsUnfit cfg s ∧ s.kitRpc.requests ≠ []
      ∧ outgoingCapacity ≤ s.outgoing.length := by
  obtain ⟨k', hk', hkit, hstream, -, -, houtgoing⟩ := kitRpcStep_cases hs
  have houtgoing : s'.outgoing = s.outgoing := houtgoing.resolve_left (by simp)
  simp only [KitRpc.step, KitRpc.recvRequest] at hk'
  split at hk'
  · split at hk'
    · rename_i request rest hrequests
      obtain rfl := Option.some.inj hk'
      have hholds : HoldsUnfit cfg s' ↔ HoldsUnfit cfg s :=
        holdsUnfit_frame hstream (by rw [hkit])
      have hpublishing : Publishing cfg s' := ⟨request, s.kitRpc.nextId, by rw [hkit]⟩
      simp [Cycle, hholds, hpublishing, hrequests, houtgoing]
    · rename_i hempty
      split at hk'
      · cases hk'
      · obtain rfl := Option.some.inj hk'
        have hstopped : ¬ Publishing cfg s' := by
          rintro ⟨request, id, hpc⟩
          rw [hkit] at hpc
          cases hpc
        simp [Cycle, hstopped, hempty]
  · cases hk'

theorem cycle_serverRpc {l : ServerRpc.Label} (hnot : ¬ Cycle cfg s)
    (hs : serverRpcStep cfg s l = some s') :
    ¬ Cycle cfg s' ↔ Safe cfg s (.serverRpc l) := by
  obtain ⟨hkit, hstream, hsend⟩ := serverRpcStep_cases hs
  have hholds : HoldsUnfit cfg s' ↔ HoldsUnfit cfg s := holdsUnfit_frame hstream (by rw [hkit])
  have hpublishing : Publishing cfg s' ↔ Publishing cfg s := by simp only [Publishing, hkit]
  have hcycle : Cycle cfg s'
      ↔ HoldsUnfit cfg s ∧ Publishing cfg s ∧ outgoingCapacity ≤ s'.outgoing.length := by
    rw [Cycle, hholds, hpublishing]
  rw [hcycle]
  rcases hsend with ⟨i, packet, rfl, hlt, houtgoing⟩ | ⟨hother, houtgoing⟩
  · rw [houtgoing, List.length_append, List.length_singleton]
    rfl
  · rw [houtgoing]
    cases l with
    | publish i => exact absurd rfl (hother i)
    | receive | run | handled => exact ⟨fun _ => trivial, fun _ => hnot⟩

theorem cycle_poll {taken : Nat} {event : Option Packet}
    {instants : ServerRpc.Instant × ServerRpc.Instant}
    (hs : poll cfg taken event instants s = some s') :
    ¬ Cycle cfg s' ↔ Safe cfg s (.poll taken event instants) := by
  have hpos : 0 < outgoingCapacity := by decide
  simp only [poll] at hs
  split at hs
  · rename_i hpolling
    have hidle : ∀ t : State cfg.limiter, (∀ topic payload, t.stream ≠ .responding topic payload) →
        ¬ Cycle cfg t := by
      rintro t hstream ⟨⟨topic, payload, hresponding, -⟩, -⟩
      exact hstream topic payload hresponding
    split at hs
    · obtain rfl := Option.some.inj hs
      exact ⟨fun _ => trivial, fun _ => hidle _ (by simp)⟩
    · rename_i topic payload
      obtain rfl := Option.some.inj hs
      obtain ⟨hkit, houtgoing, hstream⟩ := @handlePublish_frame cfg topic payload instants
        { s with outgoing := s.outgoing.drop taken }
      refine not_congr ?_
      simp only [Cycle, HoldsUnfit, Publishing, hkit, houtgoing, List.length_drop]
      rcases hstream with ⟨hstream, hother⟩ | hstream
      · constructor
        · rintro ⟨⟨topic', payload', hresponding, -⟩, -⟩
          rw [hstream, hpolling] at hresponding
          cases hresponding
        · rintro ⟨⟨⟨kitSerial, id, body, hans, -⟩, -⟩, -⟩
          exact absurd hans (hother kitSerial)
      · constructor
        · rintro ⟨⟨topic', payload', hresponding, hunfit⟩, hpublishing, hfull⟩
          rw [hstream] at hresponding
          obtain ⟨rfl, rfl⟩ := StreamPc.responding.inj hresponding
          exact ⟨hunfit, hpublishing, by omega⟩
        · rintro ⟨hunfit, hpublishing, hfull⟩
          exact ⟨⟨topic, payload, hstream, hunfit⟩, hpublishing, by omega⟩
    · rename_i hother₁ hother₂
      obtain rfl := Option.some.inj hs
      have hsafe : Safe cfg s (.poll taken event instants) := by
        rcases event with - | ⟨- | ⟨topic, payload⟩ | -⟩
        · trivial
        · trivial
        · exact absurd rfl (hother₂ topic payload)
        · trivial
      refine ⟨fun _ => hsafe, fun _ => hidle _ fun topic payload => ?_⟩
      simp [hpolling]
  · cases hs

/-- **One step**: out of a state that is not in the cycle, a step enters it
exactly when it is not safe. -/
theorem deadlocked_step_iff {l : Label} (hopen : s.kitRpc.responsesOpen = true)
    (hnot : ¬ Deadlocked cfg s) (hs : step cfg s l = some s') :
    ¬ Deadlocked cfg s' ↔ Safe cfg s l := by
  rw [deadlocked_iff (open_step hopen hs)]
  rw [deadlocked_iff hopen] at hnot
  cases l with
  | kitRpc l =>
      by_cases hl : l = .recvRequest
      · subst hl
        exact not_congr (cycle_recvRequest hs)
      · have hsafe : Safe cfg s (.kitRpc l) := by
          cases l with
          | recvRequest => exact absurd rfl hl
          | _ => trivial
        exact ⟨fun _ => hsafe, fun _ h => hnot (cycle_of_local hs hl h)⟩
  | serverRpc l => exact cycle_serverRpc hnot hs
  | poll taken event instants => exact cycle_poll hs
  | subscribe =>
      simp only [step] at hs
      split at hs
      · split at hs
        · obtain rfl := Option.some.inj hs
          exact ⟨fun _ => trivial, fun _ ⟨⟨_, _, hresponding, _⟩, _⟩ => by cases hresponding⟩
        · cases hs
      · cases hs
  | respond =>
      simp only [step] at hs
      split at hs
      · obtain ⟨k', -, rfl⟩ := Option.map_eq_some_iff.mp hs
        exact ⟨fun _ => trivial, fun _ ⟨⟨_, _, hresponding, _⟩, _⟩ => by cases hresponding⟩
      · cases hs

/-! ## No way out -/

/-- Whatever happens, the two go on waiting. -/
theorem deadlocked_step {l : Label} (hopen : s.kitRpc.responsesOpen = true)
    (h : Deadlocked cfg s) (hs : step cfg s l = some s') : Deadlocked cfg s' := by
  have hopen' := open_step hopen hs
  obtain ⟨⟨topic, payload, hstream, hrespond⟩, ⟨request, id, hpc, hpublished⟩⟩ := h
  obtain ⟨hholds, -, hfull⟩ := (deadlocked_iff hopen).mp
    ⟨⟨topic, payload, hstream, hrespond⟩, ⟨request, id, hpc, hpublished⟩⟩
  refine (deadlocked_iff hopen').mpr ?_
  cases l with
  | kitRpc l =>
      have hl : l ≠ .published := by
        rintro rfl
        exact absurd (hpublished.symm.trans hs) (by simp)
      obtain ⟨k', hk', rfl, hstream', -, hreceive, houtgoing⟩ := kitRpcStep_cases hs
      have hl' : l ≠ .recvRequest := by
        rintro rfl
        simp [KitRpc.step, KitRpc.recvRequest, hpc] at hk'
      rcases kitRpc_local ⟨hl', hl, hreceive⟩ hk' with ⟨hpc', hresponses⟩ | ⟨hselect, -⟩
      · refine ⟨(holdsUnfit_frame hstream' hresponses).mpr hholds,
          ⟨request, id, hpc'.trans hpc⟩, ?_⟩
        rwa [houtgoing.resolve_left hl]
      · exact absurd (hpc.symm.trans hselect) (by simp)
  | serverRpc l =>
      obtain ⟨hkit, hstream', hsend⟩ := serverRpcStep_cases hs
      refine ⟨(holdsUnfit_frame hstream' (by rw [hkit])).mpr hholds,
        ⟨request, id, by rw [hkit, hpc]⟩, ?_⟩
      rcases hsend with ⟨i, packet, -, hlt, -⟩ | ⟨-, houtgoing⟩
      · omega
      · rwa [houtgoing]
  | poll taken event instants =>
      simp only [step, poll, hstream] at hs
      cases hs
  | subscribe =>
      simp only [step, hstream] at hs
      cases hs
  | respond => exact absurd (hrespond.symm.trans hs) (by simp)

theorem open_exec {ls : List Label} (hrun : Run.exec (step cfg) (.start cfg.limiter) ls = some s) :
    s.kitRpc.responsesOpen = true :=
  Run.exec_invariant (I := fun s : State cfg.limiter => s.kitRpc.responsesOpen = true)
    (fun _ _ _ hopen hs => open_step hopen hs) rfl hrun

theorem deadlocked_exec {ls : List Label} (hopen : s.kitRpc.responsesOpen = true)
    (h : Deadlocked cfg s) (hrun : Run.exec (step cfg) s ls = some s') : Deadlocked cfg s' := by
  have hboth := Run.exec_invariant
    (I := fun s : State cfg.limiter => s.kitRpc.responsesOpen = true ∧ Deadlocked cfg s)
    (fun _ _ _ h hs => ⟨open_step h.1 hs, deadlocked_step h.1 h.2 hs⟩) ⟨hopen, h⟩ hrun
  exact hboth.2

/-! ## Runs -/

/-- **The stream task and the driver never wait for each other** in exactly the
runs whose steps are all safe. -/
theorem mqtt_deadlock_free_iff (cfg : Config) (ls : List Label) :
    Run.Always (step cfg) (fun s => ¬ Deadlocked cfg s) (.start cfg.limiter) ls
      ↔ Run.Guarded (step cfg) (Safe cfg) (.start cfg.limiter) ls :=
  Run.always_iff_guarded (J := fun s => s.kitRpc.responsesOpen = true)
    (fun _ _ _ hopen hs => open_step hopen hs)
    (fun _ _ _ hopen hnot hs => deadlocked_step_iff hopen hnot hs) ls rfl
    (by
      rintro ⟨⟨topic, payload, hstream, -⟩, -⟩
      cases hstream)

/-- No kit makes requests, and one kit answers `version`. -/
def quietConfig : Config where
  kitRpcCodec := KitRpc.versionCodec
  serverRpcCodec := ⟨fun _ => .error .failed, fun _ => ""⟩
  limiter := ServerRpc.unlimited
  serverRpcHandler := false

/-- Thirty-three requests are made before a poll empties the outgoing queue, and
the polls that follow return nine responses first. -/
def bothFull : List Label :=
  (List.replicate 32
    [.kitRpc (.call "k1" .version), .kitRpc .recvRequest, .kitRpc .published]).flatten
  ++ [.kitRpc (.call "k1" .version), .kitRpc .recvRequest]
  ++ (List.replicate 8
    [.poll 0 (some (.publish "kit/k1/kit-rpc/response" KitRpc.versionMessage)) (0, 0),
      .respond]).flatten
  ++ [.poll 0 (some (.publish "kit/k1/kit-rpc/response" KitRpc.versionMessage)) (0, 0)]

theorem mqtt_deadlock_bothFull :
    ∃ s, Run.exec (step quietConfig) (.start quietConfig.limiter) bothFull = some s
      ∧ Deadlocked quietConfig s :=
  ⟨_, rfl, ⟨_, _, rfl, rfl⟩, ⟨_, _, rfl, rfl⟩⟩

end MqttConnection

end AstroPlant
