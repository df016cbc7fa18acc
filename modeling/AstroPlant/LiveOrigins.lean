import AstroPlant.Attribution
import AstroPlant.LiveFeed

/-!
# What reaches a socket, and by what right

Whatever the clients, the kits and the database do, a measurement that is said
to a client is one that the broker delivered on the raw measurement topic of the
kit, and the client asked for this kit on this socket and was found to be allowed
to listen to it (`live_measurements_authorized`).

That it is of the kit is a fact about the listeners (`Websocket.sink_origin`);
where it comes from is one about the pump and the channel (`carried_exec`).

What a client is told is in the socket's messages, of which some were written,
some wait in the queue and one may be in the hand of `send_all`
(`Connection.messages`). Each of them is an answer or a measurement, and for a
measurement `Grants` names the events that it goes back to: the request on this
socket, the check that allowed it, and the delivery. These are events of the
past, so what has been established stays established (`Entitles.mono`), while the
invariant moves a measurement from the broker through `Pump`, channel, cache and
sink (`authorized_moves`).
-/

namespace AstroPlant

namespace LiveFeed

open KitRpc (Duration)
open Websocket (Shared Subscription)

variable {rpc : JsonRpc} {codec : Mqtt.Codec} {s s' : State}

/-! ## The listeners -/

/-- With the answers of the database and of the socket decided, a step is one of
the listeners, or none. -/
theorem listeners_moves {l : Label} (h : Moves rpc codec s l s') :
    ∃ ls, Run.exec Websocket.program.step s.listeners ls = some s'.listeners
      ∧ s'.channel.received = s.channel.received ++ Websocket.requests ls := by
  cases h with
  | elapse | database | connect | ignores | refuses | hangUp | sink | publish | flushed | upload =>
      exact ⟨[], rfl, (List.append_nil _).symm⟩
  | enqueue hpump hsent hreceived =>
      exact ⟨[], rfl, hreceived.trans (List.append_nil _).symm⟩
  | @subscribes n _ _ _ kitSerial =>
      refine ⟨[.spawn (.sub kitSerial)], ?_, (List.append_nil _).symm⟩
      simp [Run.exec, Program.step, Websocket.program, State.listeners, LiveTask.task]
  | tickCleaner =>
      refine ⟨[.spawn .clean], ?_, (List.append_nil _).symm⟩
      simp [Run.exec, Program.step, Websocket.program, State.listeners, LiveTask.task]
  | @forward m _ _ _ hreceived =>
      refine ⟨[.spawn (.publishRawMeasurement m)], ?_, hreceived⟩
      simp [Run.exec, Program.step, Websocket.program, State.listeners, LiveTask.task]
  | @subscription i recv now ticket sub connection shared next htask _ hadvance =>
      refine ⟨[.run i (listenerEnv s connection sub recv now)], ?_, (List.append_nil _).symm⟩
      have hadvance' : Websocket.program.advance (listenerEnv s connection sub recv now)
          (.subscription sub) ((s.tasks.map (·.task)).eraseIdx i) s.shared
          = some (shared, next.map .subscription) := by
        rw [List.eraseIdx_map]
        exact Option.map_eq_some_iff.mpr ⟨_, hadvance, rfl⟩
      refine Run.exec_cons.mpr ⟨_, Program.step_run ?_ hadvance', ?_⟩
      · exact List.getElem?_map.trans (congrArg _ htask)
      · simp [Run.exec, State.listeners, Program.map_replace, Function.comp_def, LiveTask.task]
  | @cache i recv now m htask =>
      refine ⟨[.run i { now }], ?_, (List.append_nil _).symm⟩
      refine Run.exec_cons.mpr ⟨_, Program.step_run (t := .cache m)
        (k := some (.send m)) (List.getElem?_map.trans (congrArg _ htask)) rfl, ?_⟩
      simp [Run.exec, State.listeners, Program.replace, LiveTask.task]
  | @send i recv now m htask =>
      refine ⟨[.run i {}], ?_, (List.append_nil _).symm⟩
      refine Run.exec_cons.mpr ⟨_, Program.step_run (t := .send m) (k := none)
        (List.getElem?_map.trans (congrArg _ htask)) rfl, ?_⟩
      simp [Run.exec, State.listeners, Program.replace, List.eraseIdx_map]
  | @clean i recv now htask =>
      refine ⟨[.run i { now }], ?_, (List.append_nil _).symm⟩
      refine Run.exec_cons.mpr ⟨_, Program.step_run (t := .clean) (k := none)
        (List.getElem?_map.trans (congrArg _ htask)) rfl, ?_⟩
      simp [Run.exec, State.listeners, Program.replace, List.eraseIdx_map]

/-- The listeners of a state are those of a run of their own, to which the
forwarding task has given what came out of the channel. -/
def Listens (s : State) : Prop :=
  ∃ ls, Run.exec Websocket.program.step ⟨.start, []⟩ ls = some s.listeners
    ∧ s.channel.received = Websocket.requests ls

theorem listens_start (services : Services) : Listens (.start services) := ⟨[], rfl, rfl⟩

theorem listens_moves {l : Label} (hs : Listens s) (h : Moves rpc codec s l s') : Listens s' := by
  obtain ⟨ls, hls, hreceived⟩ := hs
  obtain ⟨ls', hls', hreceived'⟩ := listeners_moves h
  refine ⟨ls ++ ls', Run.exec_append.mpr ⟨_, hls, hls'⟩, ?_⟩
  rw [hreceived', hreceived, Websocket.requests, Websocket.requests, Websocket.requests,
    List.filterMap_append]

theorem listens_exec {services : Services} {ls : List Label}
    (h : Run.exec (step rpc codec) (.start services) ls = some s) : Listens s :=
  Run.exec_invariant (fun _ _ _ hs h => listens_moves hs (moves_of_step h))
    (listens_start services) h

/-! ## The broker -/

/-- The raw measurement that a publish yields, if it does. -/
def rawMeasurement : Except Mqtt.Failure (Option Mqtt.Message) → Option Mqtt.RawMeasurement
  | .ok (some (.rawMeasurement m)) => some m
  | _ => none

/-- The measurement that the broker delivers. -/
def delivered (codec : Mqtt.Codec) : Label → Option Mqtt.RawMeasurement
  | .publish topic payload => rawMeasurement (Mqtt.handlePublish codec topic payload)
  | _ => none

/-- What the pump has yet to put into the channel. -/
def Pump.pending : Pump → List Mqtt.RawMeasurement
  | .send m => [m]
  | _ => []

/-- All that the broker delivered has been put into the channel, in its order, but
for what the pump holds. -/
def Carried (codec : Mqtt.Codec) (past : List Label) (s : State) : Prop :=
  s.channel.sent ++ s.pump.pending = past.filterMap (delivered codec)

theorem pending_take (r : Except Mqtt.Failure (Option Mqtt.Message)) :
    (Pump.take r).pending = (rawMeasurement r).toList := by
  cases r with
  | error e => cases e <;> rfl
  | ok message =>
      cases message with
      | none => rfl
      | some message => cases message <;> rfl

theorem carried_moves {past : List Label} {l : Label} (hs : Carried codec past s)
    (h : Moves rpc codec s l s') : Carried codec (past ++ [l]) s' := by
  -- a step that delivers nothing, and neither fills nor empties the channel
  have keeps : s'.channel.sent = s.channel.sent → s'.pump.pending = s.pump.pending →
      delivered codec l = none → Carried codec (past ++ [l]) s' := by
    intro hsent hpending hnone
    rw [Carried, hsent, hpending, hs, List.filterMap_append, List.filterMap_cons_none hnone,
      List.filterMap_nil, List.append_nil]
  cases h with
  | elapse | database | connect | ignores | refuses | subscribes | hangUp | sink | subscription
  | cache | send | clean | tickCleaner => exact keeps rfl rfl rfl
  | forward _ hsent => exact keeps hsent rfl rfl
  | flushed hpump => exact keeps rfl (by rw [hpump]; rfl) rfl
  | @upload putOk upload hpump =>
      refine keeps rfl ?_ rfl
      rw [hpump]
      show Pump.pending (Option.getD _ _) = []
      cases (upload.advance { putOk } s.services).2 <;> rfl
  | enqueue hpump hsent =>
      rw [Carried, hpump] at hs
      rw [Carried, hsent, List.filterMap_append, ← hs]
      simp [Pump.pending, delivered]
  | publish topic payload hpump =>
      rw [Carried, hpump] at hs
      rw [Carried, List.filterMap_append, ← hs]
      have hnext : Pump.next.pending = [] := rfl
      simp only [pending_take, delivered, hnext, List.append_nil, List.filterMap_cons,
        List.filterMap_nil]
      cases rawMeasurement (Mqtt.handlePublish codec topic payload) <;> rfl

theorem carried_start (services : Services) : Carried codec [] (.start services) := rfl

theorem carried_exec {services : Services} {ls : List Label}
    (h : Run.exec (step rpc codec) (.start services) ls = some s) : Carried codec ls s :=
  Run.exec_labels (fun _ _ _ _ hs h => carried_moves hs (moves_of_step h))
    (carried_start services) h

/-- What is published was delivered by the broker on the topic of its kit. -/
theorem delivered_eq {l : Label} {m : Mqtt.RawMeasurement} (h : delivered codec l = some m) :
    ∃ topic payload, l = .publish topic payload
      ∧ Topic.tryFrom topic = .ok ⟨m.kitSerial, .rawMeasurement⟩
      ∧ Mqtt.parseRawMeasurement m.kitSerial codec payload = .ok m := by
  cases l with
  | publish topic payload =>
      simp only [delivered, rawMeasurement] at h
      split at h
      · rename_i m' hpublish
        obtain rfl := Option.some.inj h
        obtain ⟨htopic, hparse⟩ := Mqtt.parsedFrom_of_handlePublish hpublish
        exact ⟨topic, payload, rfl, htopic, hparse⟩
      · cases h
  | _ => cases h

/-! ## Permission -/

/-- The message that is being sent. -/
def SendAll.inHand : SendAll → List RpcMessage
  | .sending _ frame => frame.message.toList
  | _ => []

/-- All that has been said to the client, written to the socket or not. -/
def Connection.messages (c : Connection) : List RpcMessage :=
  (c.frames.filterMap fun f => f.frame.message) ++ c.sendAll.inHand ++ c.queue

/-- A step in which a subscription on the socket was found to be allowed. -/
structure Grants (n : Nat) (userId : Option Int) (subscriptionId : Nat) (kitSerial : String)
    (e : Run.Event State Label) : Prop where
  pending : ∃ i recv now id, e.label = .run i recv now
    ∧ e.before.tasks[i]? = some (.subscription ⟨n, id, subscriptionId⟩ (.pending kitSerial))
  permitted : authCheck e.before.services.store userId kitSerial = true

/-- A step in which the socket's client asks for the subscription. -/
def AsksFor (rpc : JsonRpc) (n subscriptionId : Nat) (kitSerial : String)
    (e : Run.Event State Label) : Prop :=
  ∃ message req, e.label = .text n message subscriptionId ∧ Asks rpc message kitSerial req

/-- A subscription was asked for on its socket, and it has been granted if it has
begun. -/
def LiveTask.Entitled (rpc : JsonRpc) (past : List (Run.Event State Label))
    (connections : List Connection) : LiveTask → Prop
  | .subscription ticket sub => ∃ c, connections[ticket.connection]? = some c
      ∧ (∃ e ∈ past, AsksFor rpc ticket.connection ticket.subscriptionId sub.kitSerial e)
      ∧ (sub = .pending sub.kitSerial
        ∨ ∃ e ∈ past, Grants ticket.connection c.userId ticket.subscriptionId sub.kitSerial e)
  | _ => True

/-- A step in which the broker delivers the measurement, on the topic of its kit. -/
def Delivers (codec : Mqtt.Codec) (m : Mqtt.RawMeasurement) (e : Run.Event State Label) : Prop :=
  ∃ topic payload, e.label = .publish topic payload
    ∧ Topic.tryFrom topic = .ok ⟨m.kitSerial, .rawMeasurement⟩
    ∧ Mqtt.parseRawMeasurement m.kitSerial codec payload = .ok m

/-- What the right to a measurement rests on: the client of the socket has asked
for its kit, was found to be allowed to listen, and the kit has sent it. -/
structure Entitles (rpc : JsonRpc) (codec : Mqtt.Codec) (past : List (Run.Event State Label))
    (n : Nat) (c : Connection) (subscriptionId : Nat) (m : Mqtt.RawMeasurement) : Prop where
  asked : ∃ e ∈ past, AsksFor rpc n subscriptionId m.kitSerial e
  granted : ∃ e ∈ past, Grants n c.userId subscriptionId m.kitSerial e
  delivered : ∃ e ∈ past, Delivers codec m e

structure Authorized (rpc : JsonRpc) (codec : Mqtt.Codec) (past : List (Run.Event State Label))
    (s : State) : Prop where
  tasks : ∀ t ∈ s.tasks, t.Entitled rpc past s.connections
  messages : ∀ n c, s.connections[n]? = some c → ∀ subscriptionId m,
    .measurement subscriptionId m ∈ c.messages → Entitles rpc codec past n c subscriptionId m

/-! ## What a step says -/

theorem Connection.messages_send {c : Connection} {ms : List RpcMessage} {message : RpcMessage}
    (h : message ∈ (c.send ms).messages) : message ∈ c.messages ∨ message ∈ ms := by
  unfold send at h
  split at h
  · exact Or.inl h
  · rw [messages, ← List.append_assoc] at h
    exact List.mem_append.mp h

@[simp] theorem Connection.send_userId (c : Connection) (ms : List RpcMessage) :
    (c.send ms).userId = c.userId := by
  unfold send
  split <;> rfl

/-- The messages are written in their order, or lost; there are none besides. -/
theorem Connection.advance_keeps {now : Duration} {c c' : Connection} {branch : SinkBranch}
    (h : c.advance now branch = some c') :
    c'.userId = c.userId ∧ ∀ message ∈ c'.messages, message ∈ c.messages := by
  cases branch with
  | message =>
      simp only [advance] at h
      split at h
      · rename_i message queue hloop hqueue
        obtain rfl := Option.some.inj h
        refine ⟨rfl, fun other hother => ?_⟩
        simpa [messages, hloop, hqueue, SendAll.inHand, Frame.message] using hother
      · cases h
  | heartbeat =>
      simp only [advance] at h
      split at h
      · rename_i hloop
        split at h
        · obtain rfl := Option.some.inj h
          refine ⟨rfl, fun other hother => ?_⟩
          simpa [messages, hloop, SendAll.inHand, Frame.message] using hother
        · cases h
      · cases h
  | sent accepted =>
      simp only [advance] at h
      split at h
      · rename_i taken frame hsending
        split at h <;> obtain rfl := Option.some.inj h
        · refine ⟨rfl, fun other hother => ?_⟩
          cases hmessage : frame.message <;>
            simpa [messages, hsending, SendAll.inHand, hmessage] using hother
        · refine ⟨rfl, fun other hother => ?_⟩
          simp only [messages, hsending, SendAll.inHand, List.mem_append] at hother ⊢
          tauto
      · cases h
  | closeRx =>
      simp only [advance] at h
      split at h
      · rename_i hloop
        split at h
        · cases h
        · obtain rfl := Option.some.inj h
          refine ⟨rfl, fun other hother => ?_⟩
          simpa [messages, hloop, SendAll.inHand] using hother
      · cases h
  | close =>
      simp only [advance] at h
      split at h
      · rename_i hclose
        obtain rfl := Option.some.inj h
        refine ⟨rfl, fun other hother => ?_⟩
        simpa [messages, hclose, SendAll.inHand] using hother
      · cases h

/-- A subscription stays with its kit, and begins when it is found to be allowed. -/
theorem subscription_advance {e : Websocket.Env} {others : List Websocket.Task}
    {shared shared' : Shared} {sub next : Subscription}
    (h : sub.advance e others shared = some (shared', some next)) :
    next.kitSerial = sub.kitSerial ∧ next ≠ .pending next.kitSerial
      ∧ (sub = .pending sub.kitSerial → e.authorized = true ∧ next.sink = []) := by
  have hadvance : Websocket.program.advance e (.subscription sub) others shared
      = some (shared', some (.subscription next)) := Option.map_eq_some_iff.mpr ⟨_, h, rfl⟩
  cases sub with
  | pending kitSerial =>
      simp only [Subscription.advance, Option.some.injEq, Prod.mk.injEq,
        ite_eq_iff, reduceCtorEq, and_false, or_false] at h
      obtain ⟨-, hauthorized, rfl⟩ := h
      exact ⟨rfl, Subscription.noConfusion, fun _ => ⟨hauthorized, rfl⟩⟩
  | forward kitSerial receiver lagged sink =>
      cases Websocket.advances_of_advance hadvance with
      | loop hloop =>
          rcases Websocket.forwardingLoop_cases hloop with rfl | ⟨_, rfl⟩ | ⟨_, _, -, -, rfl⟩
            | ⟨-, -, rfl⟩ | ⟨_, -, rfl⟩
          all_goals refine ⟨rfl, ?_, ?_⟩ <;> rintro ⟨⟩
  | _ =>
      cases Websocket.advances_of_advance hadvance
      all_goals refine ⟨rfl, ?_, ?_⟩ <;> rintro ⟨⟩

theorem measurement_said {ticket : Ticket} {sub : Subscription} {next : Option Subscription}
    {subscriptionId : Nat} {m : Mqtt.RawMeasurement}
    (h : .measurement subscriptionId m ∈ said ticket sub next) :
    subscriptionId = ticket.subscriptionId ∧ ∃ sub' ∈ next, m ∈ sub'.sink := by
  cases next with
  | none =>
      cases sub <;> simp [said] at h
  | some sub' =>
      cases sub' with
      | dump _ => simp [said] at h
      | _ =>
          obtain ⟨m', hm', heq⟩ := List.mem_map.mp h
          cases heq
          exact ⟨rfl, _, rfl, List.mem_of_mem_drop hm'⟩

/-! ## Runs -/

variable {past past' : List (Run.Event State Label)}

theorem Entitles.mono {n : Nat} {c : Connection} {subscriptionId : Nat} {m : Mqtt.RawMeasurement}
    (hpast : ∀ e ∈ past, e ∈ past') (h : Entitles rpc codec past n c subscriptionId m) :
    Entitles rpc codec past' n c subscriptionId m where
  asked := h.asked.imp fun e he => ⟨hpast e he.1, he.2⟩
  granted := h.granted.imp fun e he => ⟨hpast e he.1, he.2⟩
  delivered := h.delivered.imp fun e he => ⟨hpast e he.1, he.2⟩

/-- The sockets stay, with their users. -/
def SameUsers (connections connections' : List Connection) : Prop :=
  ∀ (n : Nat) (c : Connection), connections[n]? = some c →
    ∃ c' : Connection, connections'[n]? = some c' ∧ c'.userId = c.userId

theorem sameUsers_refl (connections : List Connection) : SameUsers connections connections :=
  fun _ c hc => ⟨c, hc, rfl⟩

theorem sameUsers_modify {connections : List Connection} {n : Nat} {f : Connection → Connection}
    (hf : ∀ c, connections[n]? = some c → (f c).userId = c.userId) :
    SameUsers connections (connections.modify n f) := by
  intro k c hc
  rw [List.getElem?_modify, hc]
  by_cases hk : n = k
  · subst hk
    exact ⟨f c, by simp, hf c hc⟩
  · exact ⟨c, by simp [hk], rfl⟩

theorem LiveTask.Entitled.mono {connections connections' : List Connection} {t : LiveTask}
    (hpast : ∀ e ∈ past, e ∈ past') (hsame : SameUsers connections connections')
    (h : t.Entitled rpc past connections) : t.Entitled rpc past' connections' := by
  cases t with
  | subscription ticket sub =>
      obtain ⟨c, hc, ⟨e, he, hasks⟩, hgrants⟩ := h
      obtain ⟨c', hc', huser⟩ := hsame _ c hc
      refine ⟨c', hc', ⟨e, hpast e he, hasks⟩, hgrants.imp_right ?_⟩
      rintro ⟨e', he', hgrants⟩
      exact ⟨e', hpast e' he', huser ▸ hgrants⟩
  | cache | send | clean => trivial

/-- One socket says what it has said, and what its client has a right to. -/
theorem messages_modify {n : Nat} {f : Connection → Connection} (hs : Authorized rpc codec past s)
    (hpast : ∀ e ∈ past, e ∈ past')
    (hf : ∀ c, s.connections[n]? = some c → (f c).userId = c.userId
      ∧ ∀ subscriptionId m, .measurement subscriptionId m ∈ (f c).messages →
        .measurement subscriptionId m ∈ c.messages
          ∨ Entitles rpc codec past' n c subscriptionId m) :
    ∀ k c, (s.connections.modify n f)[k]? = some c → ∀ subscriptionId m,
      .measurement subscriptionId m ∈ c.messages →
        Entitles rpc codec past' k c subscriptionId m := by
  intro k c hk subscriptionId m hm
  rw [List.getElem?_modify] at hk
  obtain ⟨c₀, hc₀, hc⟩ := Option.map_eq_some_iff.mp hk
  by_cases hn : n = k
  · subst hn
    rw [if_pos rfl] at hc
    subst hc
    obtain ⟨huser, hmessages⟩ := hf c₀ hc₀
    have hentitled : Entitles rpc codec past' n c₀ subscriptionId m := by
      rcases hmessages subscriptionId m hm with hold | hnew
      · exact (hs.messages n c₀ hc₀ subscriptionId m hold).mono hpast
      · exact hnew
    obtain ⟨e, he, hgrants⟩ := hentitled.granted
    exact ⟨hentitled.asked, ⟨e, he, huser.symm ▸ hgrants⟩, hentitled.delivered⟩
  · rw [if_neg hn] at hc
    subst hc
    exact (hs.messages k c₀ hc₀ subscriptionId m hm).mono hpast

theorem authorized_subscription {i : Nat} {recv : Bool} {now : Duration} {ticket : Ticket}
    {sub : Subscription} {connection : Connection} {shared : Shared} {next : Option Subscription}
    (hs : Authorized rpc codec past s)
    (htask : s.tasks[i]? = some (.subscription ticket sub))
    (hconnection : s.connections[ticket.connection]? = some connection)
    (hadvance : sub.advance (listenerEnv s connection sub recv now)
      ((s.tasks.eraseIdx i).map (·.task)) s.shared = some (shared, next))
    (hsink : ∀ sub' ∈ next, ∀ m ∈ sub'.sink, m.kitSerial = sub'.kitSerial
      ∧ ∃ e ∈ past, Delivers codec m e)
    {e : Run.Event State Label} (hbefore : e.before = s) (hlabel : e.label = .run i recv now)
    (hafter : s'.tasks = Program.replace s.tasks i (next.map (.subscription ticket)))
    (hconnections : s'.connections
      = s.connections.modify ticket.connection (·.send (said ticket sub next))) :
    Authorized rpc codec (past ++ [e]) s' := by
  have hpast : ∀ e' ∈ past, e' ∈ past ++ [e] := fun e' => List.mem_append_left _
  have hsame : SameUsers s.connections s'.connections := by
    rw [hconnections]
    exact sameUsers_modify fun c _ => Connection.send_userId c _
  obtain ⟨c, hc, ⟨asking, hasking, hasks⟩, hbegun⟩ := hs.tasks _ (List.mem_of_getElem? htask)
  obtain rfl := Option.some.inj (hconnection.symm.trans hc)
  -- the subscription has been granted, be it in this step
  have hgranted : ∀ sub' ∈ next, ∃ e' ∈ past ++ [e],
      Grants ticket.connection connection.userId ticket.subscriptionId sub.kitSerial e' := by
    intro sub' hsub'
    rcases hbegun with hpending | ⟨e', he', hgrants⟩
    · rw [Option.mem_def.mp hsub'] at hadvance
      obtain ⟨-, -, hstarts⟩ := subscription_advance hadvance
      refine ⟨e, List.mem_append_right _ (List.mem_singleton.mpr rfl), ?_, ?_⟩
      · refine ⟨i, recv, now, ticket.id, hlabel, ?_⟩
        rw [hbefore, htask, hpending]
        rfl
      · obtain ⟨hauthorized, -⟩ := hstarts hpending
        rw [hpending] at hauthorized
        rw [hbefore]
        exact (Bool.and_eq_true_iff.mp hauthorized).1
    · exact ⟨e', hpast e' he', hgrants⟩
  constructor
  · intro t ht
    rw [hafter] at ht
    rcases Program.mem_replace ht with ht | ht
    · obtain ⟨sub', hsub', rfl⟩ := Option.mem_map.mp ht
      have hadvance' := hadvance
      rw [Option.mem_def.mp hsub'] at hadvance'
      obtain ⟨hkit, -, -⟩ := subscription_advance hadvance'
      obtain ⟨c', hc', huser⟩ := hsame _ connection hconnection
      refine ⟨c', hc', ⟨asking, hpast _ hasking, ?_⟩, Or.inr ?_⟩
      · rw [hkit]
        exact hasks
      · rw [hkit, huser]
        exact hgranted sub' hsub'
    · exact (hs.tasks t (List.mem_of_mem_eraseIdx ht)).mono hpast hsame
  · rw [hconnections]
    refine messages_modify hs hpast fun c hc => ⟨Connection.send_userId c _, ?_⟩
    intro subscriptionId m hm
    refine (Connection.messages_send hm).imp_right fun hsaid => ?_
    obtain ⟨rfl, sub', hsub', hmem⟩ := measurement_said hsaid
    obtain rfl := Option.some.inj (hconnection.symm.trans hc)
    have hadvance' := hadvance
    rw [Option.mem_def.mp hsub'] at hadvance'
    obtain ⟨hkit, -, -⟩ := subscription_advance hadvance'
    obtain ⟨hserial, delivery, hdelivery, hdelivers⟩ := hsink sub' hsub' m hmem
    constructor
    · rw [hserial, hkit]
      exact ⟨asking, hpast _ hasking, hasks⟩
    · rw [hserial, hkit]
      exact hgranted sub' hsub'
    · exact ⟨delivery, hpast _ hdelivery, hdelivers⟩

/-- What a subscription was sent is of its kit, and came through the channel. -/
theorem Listens.sink (hs : Listens s) {ticket : Ticket} {sub : Subscription}
    (hsub : .subscription ticket sub ∈ s.tasks) {m : Mqtt.RawMeasurement} (hm : m ∈ sub.sink) :
    m.kitSerial = sub.kitSerial ∧ m ∈ s.channel.received := by
  obtain ⟨ls, hrun, hreceived⟩ := hs
  rw [hreceived]
  exact Websocket.sink_origin hrun (List.mem_map.mpr ⟨_, hsub, rfl⟩) hm

theorem Carried.received {ls : List Label} (hs : Carried codec ls s) {m : Mqtt.RawMeasurement}
    (hm : m ∈ s.channel.received) : ∃ l ∈ ls, delivered codec l = some m := by
  refine List.mem_filterMap.mp ?_
  rw [← hs]
  exact List.mem_append_left _ (List.mem_append_left _ hm)

/-- A step that starts no subscription and says nothing. -/
theorem authorized_of_quiet {l : Label} (hs : Authorized rpc codec past s)
    (hconnections : s'.connections = s.connections)
    (htasks : ∀ t ∈ s'.tasks, t ∈ s.tasks ∨ ∀ ticket sub, t ≠ .subscription ticket sub) :
    Authorized rpc codec (past ++ [⟨s, l, s'⟩]) s' := by
  have hpast : ∀ e ∈ past, e ∈ past ++ [⟨s, l, s'⟩] := fun e => List.mem_append_left _
  constructor
  · intro t ht
    rcases htasks t ht with hold | hinternal
    · refine (hs.tasks t hold).mono hpast ?_
      rw [hconnections]
      exact sameUsers_refl _
    · cases t with
      | subscription ticket sub => exact absurd rfl (hinternal ticket sub)
      | cache | send | clean => trivial
  · intro n c hc subscriptionId m hm
    rw [hconnections] at hc
    exact (hs.messages n c hc subscriptionId m hm).mono hpast

/-- A step of one socket, which stays with its user and is sent no measurement. -/
theorem authorized_of_modify {l : Label} (hs : Authorized rpc codec past s) {n : Nat}
    {f : Connection → Connection} (hconnections : s'.connections = s.connections.modify n f)
    (htasks : s'.tasks = s.tasks)
    (hf : ∀ c, s.connections[n]? = some c → (f c).userId = c.userId
      ∧ ∀ subscriptionId m, .measurement subscriptionId m ∈ (f c).messages →
        .measurement subscriptionId m ∈ c.messages) :
    Authorized rpc codec (past ++ [⟨s, l, s'⟩]) s' := by
  have hpast : ∀ e ∈ past, e ∈ past ++ [⟨s, l, s'⟩] := fun e => List.mem_append_left _
  constructor
  · intro t ht
    rw [htasks] at ht
    rw [hconnections]
    exact (hs.tasks t ht).mono hpast (sameUsers_modify fun c hc => (hf c hc).1)
  · rw [hconnections]
    exact messages_modify hs hpast fun c hc =>
      ⟨(hf c hc).1, fun subscriptionId m hm => Or.inl ((hf c hc).2 subscriptionId m hm)⟩

theorem authorized_moves {l : Label} (hs : Authorized rpc codec past s) (hlistens : Listens s')
    (hcarried : Carried codec (past.map (·.label)) s) (h : Moves rpc codec s l s') :
    Authorized rpc codec (past ++ [⟨s, l, s'⟩]) s' := by
  have hpast : ∀ e ∈ past, e ∈ past ++ [⟨s, l, s'⟩] := fun e => List.mem_append_left _
  cases h with
  | elapse | database | ignores | publish | enqueue | flushed | upload =>
      exact authorized_of_quiet hs rfl fun t ht => Or.inl ht
  | connect userId =>
      constructor
      · refine fun t ht => (hs.tasks t ht).mono hpast fun n c hc => ⟨c, ?_, rfl⟩
        rw [List.getElem?_append_left (List.getElem?_eq_some_iff.mp hc).1]
        exact hc
      · intro n c hc subscriptionId m hm
        rcases Run.getElem?_append_singleton hc with hc | ⟨-, rfl⟩
        · exact (hs.messages n c hc subscriptionId m hm).mono hpast
        · simp [Connection.messages, Connection.connected, SendAll.inHand] at hm
  | refuses n message subscriptionId hanswer =>
      refine authorized_of_modify hs rfl rfl fun c _ =>
        ⟨Connection.send_userId c _, fun id m hm => ?_⟩
      refine (Connection.messages_send hm).resolve_right fun hanswer' => ?_
      obtain ⟨_, rfl | rfl⟩ := hanswer <;> simp at hanswer'
  | hangUp n => exact authorized_of_modify hs rfl rfl fun c _ => ⟨rfl, fun _ _ hm => hm⟩
  | @sink n branch connection connection' hconnection hadvance =>
      refine authorized_of_modify hs rfl rfl fun c hc => ?_
      obtain rfl := Option.some.inj (hconnection.symm.trans hc)
      obtain ⟨huser, hmessages⟩ := Connection.advance_keeps hadvance
      exact ⟨huser, fun _ _ hm => hmessages _ hm⟩
  | @subscribes n message subscriptionId req kitSerial hasks hconnection hpermits =>
      constructor
      · intro t ht
        rcases List.mem_append.mp ht with ht | ht
        · exact (hs.tasks t ht).mono hpast (sameUsers_refl _)
        · obtain rfl := List.mem_singleton.mp ht
          refine ⟨_, List.getElem?_eq_getElem hconnection, ⟨_, List.mem_append_right _
            (List.mem_singleton.mpr rfl), message, req, rfl, hasks⟩, Or.inl rfl⟩
      · exact fun k c hc id m hm => (hs.messages k c hc id m hm).mono hpast
  | @subscription i recv now ticket sub connection shared next htask hconnection hadvance =>
      refine authorized_subscription hs htask hconnection hadvance ?_ rfl rfl rfl rfl
      intro sub' hsub' m hm
      have hmem : LiveTask.subscription ticket sub'
          ∈ Program.replace s.tasks i (next.map (.subscription ticket)) := by
        rw [Option.mem_def.mp hsub']
        exact Program.mem_replace_self htask
      obtain ⟨hkit, hreceived⟩ := hlistens.sink hmem hm
      obtain ⟨l, hl, hdelivered⟩ := hcarried.received hreceived
      obtain ⟨e, he, rfl⟩ := List.mem_map.mp hl
      exact ⟨hkit, e, he, delivered_eq hdelivered⟩
  | cache htask =>
      refine authorized_of_quiet hs rfl fun t ht => ?_
      rcases List.mem_or_eq_of_mem_set ht with ht | rfl
      · exact Or.inl ht
      · exact Or.inr nofun
  | send htask | clean htask =>
      exact authorized_of_quiet hs rfl fun t ht => Or.inl (List.mem_of_mem_eraseIdx ht)
  | tickCleaner | forward =>
      refine authorized_of_quiet hs rfl fun t ht => (List.mem_append.mp ht).imp_right fun ht => ?_
      obtain rfl := List.mem_singleton.mp ht
      exact nofun

theorem authorized_start (services : Services) : Authorized rpc codec [] (.start services) := by
  constructor <;> simp [State.start]

/-- **The right to what is said.** In every run, whatever clients ask, kits send
and the database comes to hold, for a measurement that is said to a client the
client has asked for its kit on this socket, was found to be allowed to listen
to it, and the broker has delivered it on the topic of the kit. -/
theorem live_measurements_authorized (rpc : JsonRpc) (codec : Mqtt.Codec) (services : Services)
    {ls : List Label} {s : State}
    (h : Run.exec (step rpc codec) (.start services) ls = some s) :
    ∀ n c, s.connections[n]? = some c → ∀ subscriptionId m,
      .measurement subscriptionId m ∈ c.messages →
        Entitles rpc codec (Run.history (step rpc codec) (.start services) ls) n c
          subscriptionId m := by
  have hinvariant := Run.exec_history
    (I := fun past s => Listens s ∧ Carried codec (past.map (·.label)) s
      ∧ Authorized rpc codec past s) ?_
    ⟨listens_start services, carried_start services, authorized_start services⟩ h
  · exact hinvariant.2.2.messages
  · intro past s l s' ⟨hlistens, hcarried, hauthorized⟩ hstep
    have hmoves := moves_of_step hstep
    have hlistens' := listens_moves hlistens hmoves
    refine ⟨hlistens', ?_, authorized_moves hauthorized hlistens' hcarried hmoves⟩
    rw [List.map_append]
    exact carried_moves hcarried hmoves

/-! ## A measurement on its way -/

/-- The packed message with the values of the reader below. -/
def temperatureMessage : List UInt8 :=
  [0x10, 0x08, 0x50, 0x03, 0x02, 0x00, 0x00, 0x11, 0x01, 0x01, 0xc0, 0xf0, 0x3f, 0x11, 0x05, 0x82,
    0x00, 0x02]

/-- Reads that message, and finds everything else malformed. -/
def temperatureCodec : Mqtt.Codec where
  readRawMeasurement payload :=
    if payload = temperatureMessage then
      .ok ⟨.ok (List.replicate 16 0), 0, 1, 1, F64.one⟩
    else .error .failed
  readAggregateMeasurement _ := .error .failed
  readMedia _ := .error .failed
  kitRpc := ⟨fun _ => .error .failed, fun _ => none⟩

def subscribeText : String :=
  "\x7b\"id\": 1, \"method\": \"subscribe_raw_measurements\", \"params\": [\"k1\"]\x7d"

/-- Reads that request, and takes everything else for none. -/
def subscribeRpc : JsonRpc where
  fromStr message :=
    if message = subscribeText then
      some ⟨.ofNat 1, "subscribe_raw_measurements", some (.array [.string "k1"])⟩
    else none
  kitSerial
    | some (.array [.string kitSerial]) => some kitSerial
    | _ => none

/-- Anyone may listen to the first kit. -/
def listenToFirstKit : List Label :=
  [.connect none, .text 0 subscribeText 5, .run 0 true 0, .run 0 true 0, .run 0 true 0,
    .run 0 true 0, .publish "kit/k1/measurement/raw" temperatureMessage, .pump true, .pump true,
    .forward, .run 1 true 0, .run 1 true 0, .run 0 true 0, .sink 0 .message,
    .sink 0 (.sent true), .sink 0 .message]

theorem live_measurements_authorized_listenToFirstKit :
    ∃ s c m, Run.exec (step subscribeRpc temperatureCodec) (.start (.start twoKits))
        listenToFirstKit = some s
      ∧ s.connections[0]? = some c ∧ c.messages = [.accepted (.ofNat 1) 5, .measurement 5 m]
      ∧ Entitles subscribeRpc temperatureCodec
        (Run.history (step subscribeRpc temperatureCodec) (.start (.start twoKits))
          listenToFirstKit) 0 c 5 m := by
  have hrun : ∃ s c m, Run.exec (step subscribeRpc temperatureCodec) (.start (.start twoKits))
        listenToFirstKit = some s
      ∧ s.connections[0]? = some c ∧ c.messages = [.accepted (.ofNat 1) 5, .measurement 5 m] :=
    ⟨_, _, _, rfl, rfl, rfl⟩
  obtain ⟨s, c, m, hrun, hc, hmessages⟩ := hrun
  refine ⟨s, c, m, hrun, hc, hmessages, ?_⟩
  refine live_measurements_authorized subscribeRpc temperatureCodec (.start twoKits) hrun 0 c hc
    5 m ?_
  rw [hmessages]
  exact List.mem_cons_of_mem _ (List.mem_singleton.mpr rfl)

end LiveFeed

end AstroPlant
