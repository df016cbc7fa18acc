import AstroPlant.KitRpcTimeouts
import AstroPlant.LeakedMedia
import AstroPlant.MediaDownloads
import AstroPlant.MemberAuthority

/-!
# Requests to kits over HTTP

The routes below `/kit-rpc`. A handler asks the database whether the user may
command the kit, hands the request to the driver of `KitRpc` and awaits its
one-shot channel. Handlers run side by side, the database changes between their
steps, clients go away while their handlers wait, and kits answer for each other,
late, twice or not at all.

What reaches a kit was asked for by a super member of that kit, once, and what a
client is told in return is what that kit answered (`kit_requests_attributed`).

There are two invariants. `Owned` is about who waits for what: a handler that has
called is the only one with its call, so an answer cannot go to two handlers.
`Sound` is about what has been true in the past: a handler that is past its check
was entitled when the check was made (`Entitled`), and a call was made by such a
handler. What the driver does with the call is not proved again: its steps here
are steps of `KitRpc` (`driver_run`), so correlation is that of
`KitRpcCorrelation`.
-/

namespace AstroPlant

namespace KitRequests

open KitRpc (Duration DecodeErrorKind KitRpcCodec KitRpcResponseError PublishedTo ReceivedFrom
  RequestBody ResponseBody)

/-! ## Routes -/

inductive Route where
  | version
  | uptime
  | peripheralCommand (peripheral : String) (command : Json)

structure Request where
  userId : Option Int
  kitSerial : String
  route : Route

inductive ResponseValue where
  | serializable (value : Json)
  | data (mediaType : String) (data : List UInt8)

/-- How a duration is printed by `{:?}`, for whole milliseconds: in the unit that
leaves something before the point, and without zeros at the end. -/
def debugDuration (d : Duration) : String :=
  if 1000 ≤ d then
    let fraction := ((String.ofList (Nat.toDigits 10 (1000 + d % 1000))).drop 1).dropEndWhile '0'
    toString (d / 1000) ++ (if fraction.isEmpty then "" else "." ++ fraction) ++ "s"
  else if 0 < d then toString d ++ "ms"
  else "0ns"

def debugRpcError : KitRpc.RpcError → String
  | .other => "Other"
  | .methodNotFound => "MethodNotFound"
  | .rateLimit wait => "RateLimit(" ++ debugDuration wait ++ ")"

def debugKitRpcResponseError : KitRpcResponseError → String
  | .timedOut => "TimedOut"
  | .malformedResponse => "MalformedResponse"
  | .invalidResponse => "InvalidResponse"
  | .rpcError error => "RpcError(" ++ debugRpcError error ++ ")"

def kitRpcResponseErrorIntoProblem (error : KitRpcResponseError) : Problem :=
  .kitRpc (.kitRpcResponseError (debugKitRpcResponseError error))

namespace Route

def action : Route → KitAction
  | version => .rpcVersion
  | uptime => .rpcUptime
  | peripheralCommand _ _ => .rpcPeripheralCommand

/-- What the kit is asked. -/
def body : Route → RequestBody
  | version => .version
  | uptime => .uptime
  | peripheralCommand peripheral command => .peripheralCommand peripheral command

/-- The end of the handler, with what has become of its one-shot channel. -/
def respond (outcome : Option (Except DecodeErrorKind ResponseBody)) :
    Route → Except Problem ResponseValue
  | version => do
      let version ← (KitRpc.KitsRpc.version outcome).mapError kitRpcResponseErrorIntoProblem
      return .serializable (.string version)
  | uptime => do
      let uptime ← (KitRpc.KitsRpc.uptime outcome).mapError kitRpcResponseErrorIntoProblem
      return .serializable (.ofNat (uptime / 1000))
  | peripheralCommand _ _ => do
      let response ←
        (KitRpc.KitsRpc.peripheralCommand outcome).mapError kitRpcResponseErrorIntoProblem
      return .data response.mediaType response.data

/-- How the route renders the kit's answer. -/
def render : Route → ResponseBody → Option ResponseValue
  | version, .version v => some (.serializable (.string v))
  | uptime, .uptime v => some (.serializable (.ofNat (v / 1000)))
  | peripheralCommand _ _, .peripheralCommand v => some (.data v.mediaType v.data)
  | _, _ => none

end Route

/-! ## Handlers -/

inductive Reply where
  | response (value : ResponseValue)
  | problem (problem : Problem)
  | panic

/-- `into_response`: a media type that is no header value is a panic. -/
def intoReply (x : HeaderValues) : Except Problem ResponseValue → Reply
  | .error problem => .problem problem
  | .ok (.serializable value) => .response (.serializable value)
  | .ok (.data mediaType data) =>
      match x.parse mediaType with
      | some contentType => .response (.data contentType data)
      | none => .panic

/-- Where a handler stands. A caller is known by the position of its call. -/
inductive Stage where
  | check
  | call (kitSerial : String)
  | await (caller : Nat)
  | replied (caller : Option Nat) (reply : Reply)
  | gone (caller : Option Nat)

structure Handler where
  request : Request
  stage : Stage

namespace Handler

/-- The call that the handler has made. -/
def caller (h : Handler) : Option Nat :=
  match h.stage with
  | .await caller => some caller
  | .replied caller _ | .gone caller => caller
  | _ => none

def reply (h : Handler) : Option Reply :=
  match h.stage with
  | .replied _ reply => some reply
  | _ => none

variable (x : HeaderValues) (codec : KitRpcCodec) (store : Store) (driver : KitRpc.State)

/-- The handler up to its next suspension. -/
def advance (h : Handler) : Option (KitRpc.State × Handler) :=
  match h.stage with
  | .check =>
      match (futKitPermissionOrForbidden h.request.userId h.request.kitSerial
        h.request.route.action).run store with
      | .error problem => some (driver, { h with stage := .replied none (.problem problem) })
      | .ok ((_, _, kit), _) => some (driver, { h with stage := .call kit.serial })
  | .call kitSerial =>
      (KitRpc.step codec driver (.call kitSerial h.request.route.body)).map fun driver' =>
        (driver', { h with stage := .await driver.calls.length })
  | .await caller =>
      (driver.completions.find? (·.caller = caller)).map fun completion =>
        let reply := intoReply x (h.request.route.respond (completion.outcome.map (·.2)))
        (driver, { h with stage := .replied (some caller) reply })
  | _ => none

/-- The client goes away, and the handler is dropped with its half of the
one-shot channel. -/
def disconnect (h : Handler) : Option (KitRpc.State × Handler) :=
  match h.stage with
  | .check | .call _ => some (driver, { h with stage := .gone none })
  | .await caller =>
      (KitRpc.step codec driver (.hangUp caller)).map fun driver' =>
        (driver', { h with stage := .gone (some caller) })
  | _ => none

end Handler

structure State where
  store : Store
  driver : KitRpc.State
  handlers : List Handler

def State.start (store : Store) : State where
  store
  driver := .start
  handlers := []

inductive Label where
  | database (store : Store)
  | request (request : Request)
  | advance (n : Nat)
  | disconnect (n : Nat)
  | driver (l : KitRpc.Label)

/-- The steps that are not taken by handlers. The router holds a handle for
making requests, so that their channel is not closed. -/
def ofDriver : KitRpc.Label → Bool
  | .call _ _ | .hangUp _ | .closeRequests => false
  | _ => true

def step (x : HeaderValues) (codec : KitRpcCodec) (s : State) : Label → Option State
  | .database store => some { s with store }
  | .request request => some { s with handlers := s.handlers ++ [⟨request, .check⟩] }
  | .advance n =>
      (s.handlers[n]?.bind fun h => h.advance x codec s.store s.driver).map fun r =>
        { s with driver := r.1, handlers := s.handlers.set n r.2 }
  | .disconnect n =>
      (s.handlers[n]?.bind fun h => h.disconnect codec s.driver).map fun r =>
        { s with driver := r.1, handlers := s.handlers.set n r.2 }
  | .driver l =>
      if ofDriver l then
        (KitRpc.step codec s.driver l).map fun driver => { s with driver }
      else none

/-! ## What a step can do -/

variable {x : HeaderValues} {codec : KitRpcCodec} {s s' : State}

/-- Everything that a step can do. -/
inductive Moves (x : HeaderValues) (codec : KitRpcCodec) (s : State) : Label → State → Prop
  | database (store : Store) : Moves x codec s (.database store) { s with store }
  | request (request : Request) :
      Moves x codec s (.request request) { s with handlers := s.handlers ++ [⟨request, .check⟩] }
  | refused {n : Nat} {h : Handler} {problem : Problem} (hh : s.handlers[n]? = some h)
      (hstage : h.stage = .check)
      (hrun : (futKitPermissionOrForbidden h.request.userId h.request.kitSerial
        h.request.route.action).run s.store = .error problem) :
      Moves x codec s (.advance n)
        { s with handlers := s.handlers.set n ⟨h.request, .replied none (.problem problem)⟩ }
  | permitted {n : Nat} {h : Handler} {r : Option User × Option KitMembership × Kit}
      {store : Store} (hh : s.handlers[n]? = some h) (hstage : h.stage = .check)
      (hrun : (futKitPermissionOrForbidden h.request.userId h.request.kitSerial
        h.request.route.action).run s.store = .ok (r, store)) :
      Moves x codec s (.advance n)
        { s with handlers := s.handlers.set n ⟨h.request, .call r.2.2.serial⟩ }
  | called {n : Nat} {h : Handler} {kitSerial : String} {driver : KitRpc.State}
      (hh : s.handlers[n]? = some h) (hstage : h.stage = .call kitSerial)
      (hstep : KitRpc.step codec s.driver (.call kitSerial h.request.route.body) = some driver) :
      Moves x codec s (.advance n)
        { s with driver
                 handlers := s.handlers.set n ⟨h.request, .await s.driver.calls.length⟩ }
  | answered {n : Nat} {h : Handler} {completion : KitRpc.Completion}
      (hh : s.handlers[n]? = some h) (hstage : h.stage = .await completion.caller)
      (hmem : completion ∈ s.driver.completions) :
      Moves x codec s (.advance n)
        { s with handlers := s.handlers.set n ⟨h.request, .replied (some completion.caller)
          (intoReply x (h.request.route.respond (completion.outcome.map (·.2))))⟩ }
  | dropped {n : Nat} {h : Handler} (hh : s.handlers[n]? = some h) (hcaller : h.caller = none) :
      Moves x codec s (.disconnect n)
        { s with handlers := s.handlers.set n ⟨h.request, .gone none⟩ }
  | hungUp {n : Nat} {h : Handler} {caller : Nat} {driver : KitRpc.State}
      (hh : s.handlers[n]? = some h) (hstage : h.stage = .await caller)
      (hstep : KitRpc.step codec s.driver (.hangUp caller) = some driver) :
      Moves x codec s (.disconnect n)
        { s with driver, handlers := s.handlers.set n ⟨h.request, .gone (some caller)⟩ }
  | driver {l : KitRpc.Label} {driver : KitRpc.State} (hl : ofDriver l = true)
      (hstep : KitRpc.step codec s.driver l = some driver) :
      Moves x codec s (.driver l) { s with driver }

theorem moves_of_advance {n : Nat} (hstep : step x codec s (.advance n) = some s') :
    Moves x codec s (.advance n) s' := by
  simp only [step, Option.map_eq_some_iff, Option.bind_eq_some_iff] at hstep
  obtain ⟨r, ⟨h, hh, hadvance⟩, rfl⟩ := hstep
  cases hstage : h.stage with
  | check =>
      simp only [Handler.advance, hstage] at hadvance
      cases hrun : (futKitPermissionOrForbidden h.request.userId h.request.kitSerial
          h.request.route.action).run s.store with
      | error problem =>
          rw [hrun] at hadvance
          obtain rfl := Option.some.inj hadvance
          exact .refused hh hstage hrun
      | ok r =>
          rw [hrun] at hadvance
          obtain rfl := Option.some.inj hadvance
          exact .permitted hh hstage hrun
  | call kitSerial =>
      simp only [Handler.advance, hstage, Option.map_eq_some_iff] at hadvance
      obtain ⟨driver, hcall, rfl⟩ := hadvance
      exact .called hh hstage hcall
  | await caller =>
      simp only [Handler.advance, hstage, Option.map_eq_some_iff] at hadvance
      obtain ⟨completion, hfind, rfl⟩ := hadvance
      have hcaller := List.find?_some hfind
      simp only [decide_eq_true_eq] at hcaller
      subst hcaller
      exact .answered hh hstage (List.mem_of_find?_eq_some hfind)
  | replied _ _ | gone _ =>
      simp only [Handler.advance, hstage] at hadvance
      cases hadvance

theorem moves_of_disconnect {n : Nat} (hstep : step x codec s (.disconnect n) = some s') :
    Moves x codec s (.disconnect n) s' := by
  simp only [step, Option.map_eq_some_iff, Option.bind_eq_some_iff] at hstep
  obtain ⟨r, ⟨h, hh, hdisconnect⟩, rfl⟩ := hstep
  cases hstage : h.stage with
  | check | call _ =>
      simp only [Handler.disconnect, hstage] at hdisconnect
      obtain rfl := Option.some.inj hdisconnect
      exact .dropped hh (by simp only [Handler.caller, hstage])
  | await caller =>
      simp only [Handler.disconnect, hstage, Option.map_eq_some_iff] at hdisconnect
      obtain ⟨driver, hhangUp, rfl⟩ := hdisconnect
      exact .hungUp hh hstage hhangUp
  | replied _ _ | gone _ =>
      simp only [Handler.disconnect, hstage] at hdisconnect
      cases hdisconnect

theorem moves_of_step {l : Label} (hstep : step x codec s l = some s') : Moves x codec s l s' := by
  cases l with
  | database store =>
      obtain rfl := Option.some.inj hstep
      exact .database store
  | request request =>
      obtain rfl := Option.some.inj hstep
      exact .request request
  | advance n => exact moves_of_advance hstep
  | disconnect n => exact moves_of_disconnect hstep
  | driver l =>
      simp only [step] at hstep
      split at hstep
      · rename_i hl
        obtain ⟨driver, hdriver, rfl⟩ := Option.map_eq_some_iff.mp hstep
        exact .driver hl hdriver
      · cases hstep

/-! ## The driver under handlers -/

/-- The call that a step of the driver is. -/
def calledBy : KitRpc.Label → List (String × RequestBody)
  | .call kitSerial body => [(kitSerial, body)]
  | _ => []

/-- A step of the driver adds the call that it is, and keeps what was completed. -/
theorem driver_grows {driver driver' : KitRpc.State} {l : KitRpc.Label}
    (hstep : KitRpc.step codec driver l = some driver') :
    driver'.calls = driver.calls ++ calledBy l ∧ driver.completions <+: driver'.completions := by
  cases l with
  | call kitSerial body =>
      simp only [KitRpc.step, KitRpc.call] at hstep
      repeat' split at hstep
      all_goals cases hstep
      all_goals exact ⟨rfl, by simp [KitRpc.State.drop]⟩
  | receive topic payload =>
      simp only [KitRpc.step, KitRpc.receive] at hstep
      repeat' split at hstep
      all_goals cases hstep
      all_goals exact ⟨(List.append_nil _).symm, List.prefix_refl _⟩
  | hangUp caller =>
      simp only [KitRpc.step] at hstep
      split at hstep <;> cases hstep
      exact ⟨(List.append_nil _).symm, List.prefix_refl _⟩
  | closeRequests | closeResponses | elapse d =>
      obtain rfl := Option.some.inj hstep
      exact ⟨(List.append_nil _).symm, List.prefix_refl _⟩
  | recvRequest | published | recvResponse | cleanup =>
      simp only [KitRpc.step, KitRpc.recvRequest, KitRpc.finishRequest, KitRpc.recvResponse,
        KitRpc.cleanup] at hstep
      repeat' split at hstep
      all_goals cases hstep
      all_goals exact ⟨(List.append_nil _).symm, by simp [KitRpc.State.drop, KitRpc.stop]⟩

theorem driver_run {store : Store} {ls : List Label}
    (h : Run.exec (step x codec) (.start store) ls = some s) :
    ∃ run, Run.exec (KitRpc.step codec) .start run = some s.driver := by
  have hsnoc : ∀ {driver driver' : KitRpc.State} {l : KitRpc.Label},
      (∃ run, Run.exec (KitRpc.step codec) .start run = some driver) →
      KitRpc.step codec driver l = some driver' →
      ∃ run, Run.exec (KitRpc.step codec) .start run = some driver' := by
    rintro driver driver' l ⟨run, hrun⟩ hstep
    exact ⟨run ++ [l], Run.exec_append.mpr
      ⟨driver, hrun, Run.exec_cons.mpr ⟨driver', hstep, rfl⟩⟩⟩
  refine Run.exec_invariant
    (I := fun s : State => ∃ run, Run.exec (KitRpc.step codec) .start run = some s.driver)
    (fun s l s' hs hstep => ?_) ⟨[], rfl⟩ h
  cases moves_of_step hstep with
  | called _ _ hcall => exact hsnoc hs hcall
  | hungUp _ _ hhangUp => exact hsnoc hs hhangUp
  | driver _ hdriver => exact hsnoc hs hdriver
  | _ => exact hs

/-! ## Every call belongs to a handler -/

/-- The handlers that have made the call. -/
def State.owners (s : State) (caller : Nat) : Nat := (s.handlers.map (·.caller)).count (some caller)

/-- Each call was made by one handler, and no handler claims another. -/
def Owned (s : State) : Prop :=
  ∀ caller, s.owners caller = KitRpc.below s.driver.calls.length caller

theorem owners_set {s : State} {n : Nat} {h : Handler} (hh : s.handlers[n]? = some h)
    (h' : Handler) (driver : KitRpc.State) (caller : Nat) :
    State.owners { s with driver, handlers := s.handlers.set n h' } caller
        + [h.caller].count (some caller)
      = s.owners caller + [h'.caller].count (some caller) := by
  obtain ⟨hn, rfl⟩ := List.getElem?_eq_some_iff.mp hh
  have hmem : (s.handlers[n]).caller = some caller → 0 < s.owners caller := fun hc =>
    List.count_pos_iff.mpr (hc ▸ List.mem_map.mpr ⟨_, List.getElem_mem hn, rfl⟩)
  simp only [State.owners, List.map_set, List.count_singleton, beq_iff_eq] at hmem ⊢
  rw [List.count_set (by simpa using hn)]
  simp only [List.getElem_map, beq_iff_eq]
  split <;> split <;> simp_all

theorem owned_set {n : Nat} {h h' : Handler} {driver : KitRpc.State} (hs : Owned s)
    (hh : s.handlers[n]? = some h) (hcaller : h'.caller = h.caller)
    (hcalls : driver.calls = s.driver.calls) :
    Owned { s with driver, handlers := s.handlers.set n h' } := by
  intro caller
  have hset := owners_set hh h' driver caller
  rw [hcaller] at hset
  rw [Nat.add_right_cancel hset, hs caller, hcalls]

theorem owned_moves {l : Label} (hs : Owned s) (hmoves : Moves x codec s l s') : Owned s' := by
  cases hmoves with
  | database store => exact hs
  | request request =>
      intro caller
      rw [← hs caller]
      simp [State.owners, Handler.caller]
  | refused hh hstage _ | permitted hh hstage _ =>
      exact owned_set hs hh (by simp only [Handler.caller, hstage]) rfl
  | called hh hstage hcall =>
      rename_i n h kitSerial driver
      intro caller
      have hset := owners_set hh ⟨h.request, .await s.driver.calls.length⟩ driver caller
      simp only [Handler.caller, hstage, List.count_singleton] at hset
      rw [(driver_grows hcall).1, calledBy, List.length_append, List.length_singleton,
        KitRpc.below_succ, ← hs caller, List.count_singleton]
      simpa using hset
  | answered hh hstage _ => exact owned_set hs hh (by simp only [Handler.caller, hstage]) rfl
  | dropped hh hcaller => exact owned_set hs hh hcaller.symm rfl
  | hungUp hh hstage hhangUp =>
      exact owned_set hs hh (by simp only [Handler.caller, hstage])
        ((driver_grows hhangUp).1.trans (List.append_nil _))
  | driver hl hdriver =>
      rename_i l driver
      have hnone : calledBy l = [] := by
        cases l <;> first | rfl | cases hl
      intro caller
      rw [(driver_grows hdriver).1, hnone, List.append_nil]
      exact hs caller

/-! ## What handlers know -/

/-- The check of the handler found its user to be a super member of the kit. -/
def Entitled (past : List (Run.Event State Label)) (n : Nat) (request : Request) : Prop :=
  ∃ e ∈ past, e.label = .advance n ∧ ∃ userId ∈ request.userId,
    ∃ kit, Kit.bySerial request.kitSerial e.before.store = some kit
      ∧ SuperMember e.before.store userId kit.id

/-- What the stage of a handler says. -/
structure Handler.Sound (x : HeaderValues) (past : List (Run.Event State Label))
    (driver : KitRpc.State) (n : Nat) (h : Handler) : Prop where
  permitted : ∀ kitSerial, h.stage = .call kitSerial →
    kitSerial = h.request.kitSerial ∧ Entitled past n h.request
  called : ∀ caller, h.caller = some caller →
    driver.calls[caller]? = some (h.request.kitSerial, h.request.route.body)
      ∧ Entitled past n h.request
  replied : ∀ reply, h.reply = some reply →
    (∃ problem, reply = .problem problem ∧ h.caller = none ∧ problem.toStatusCode ≠ 502)
      ∨ ∃ completion ∈ driver.completions, h.caller = some completion.caller
        ∧ reply = intoReply x (h.request.route.respond (completion.outcome.map (·.2)))

theorem Entitled.mono {past past' : List (Run.Event State Label)} {n : Nat} {request : Request}
    (hpast : past <+: past') (h : Entitled past n request) : Entitled past' n request := by
  obtain ⟨e, he, hrest⟩ := h
  exact ⟨e, hpast.subset he, hrest⟩

theorem Handler.Sound.mono {past past' : List (Run.Event State Label)}
    {driver driver' : KitRpc.State} {n : Nat} {h : Handler} (hpast : past <+: past')
    (hcalls : driver.calls <+: driver'.calls)
    (hcompletions : driver.completions <+: driver'.completions)
    (hs : h.Sound x past driver n) : h.Sound x past' driver' n where
  permitted kitSerial hstage := (hs.permitted kitSerial hstage).imp_right (·.mono hpast)
  called caller hcaller := (hs.called caller hcaller).imp (KitRpc.getElem?_of_prefix hcalls)
    (·.mono hpast)
  replied reply hreply := by
    refine (hs.replied reply hreply).imp_right ?_
    rintro ⟨completion, hmem, hrest⟩
    exact ⟨completion, hcompletions.subset hmem, hrest⟩

theorem Route.action_super (route : Route) (u : User) (m : KitMembership) (kit : Kit)
    (h : route.action.permitted (.userWithMembership u m) kit = true) : m.accessSuper = true := by
  cases route <;> exact h

theorem Route.action_readOnly (route : Route) : route.action.readOnly = false := by
  cases route <;> rfl

theorem entitled_of_check {past : List (Run.Event State Label)} {n : Nat} {request : Request}
    {r : Option User × Option KitMembership × Kit} {store : Store}
    (hrun : (futKitPermissionOrForbidden request.userId request.kitSerial
      request.route.action).run s.store = .ok (r, store)) :
    r.2.2.serial = request.kitSerial ∧ Entitled (past ++ [⟨s, .advance n, s'⟩]) n request := by
  obtain ⟨-, hkit, hpermitted⟩ := futKitPermissionOrForbidden_ok hrun
  have hserial := List.find?_some hkit
  simp only [decide_eq_true_eq] at hserial
  obtain ⟨userId, huser, -, hsuper⟩ := superMember_of_superOnly request.route.action_readOnly
    (fun u m => request.route.action_super u m r.2.2) hpermitted
  exact ⟨hserial, _, List.mem_append_right _ (List.mem_singleton.mpr rfl), rfl, userId, huser,
    r.2.2, hkit, hsuper⟩

/-- All handlers of a state. -/
def Sound (x : HeaderValues) (past : List (Run.Event State Label)) (s : State) : Prop :=
  ∀ (n : Nat) (h : Handler), s.handlers[n]? = some h → h.Sound x past s.driver n

theorem sound_set {past past' : List (Run.Event State Label)} {n : Nat} {h' : Handler}
    {driver : KitRpc.State} (hs : Sound x past s) (hpast : past <+: past')
    (hcalls : s.driver.calls <+: driver.calls)
    (hcompletions : s.driver.completions <+: driver.completions) (hh' : h'.Sound x past' driver n) :
    Sound x past' { s with driver, handlers := s.handlers.set n h' } := by
  intro k h hk
  rcases eq_or_ne n k with rfl | hne
  · obtain ⟨hn, rfl⟩ := List.getElem?_eq_some_iff.mp hk
    rw [List.getElem_set_self]
    exact hh'
  · rw [List.getElem?_set_ne hne] at hk
    exact (hs k h hk).mono hpast hcalls hcompletions

theorem sound_moves {past : List (Run.Event State Label)} {l : Label} (hs : Sound x past s)
    (hmoves : Moves x codec s l s') : Sound x (past ++ [⟨s, l, s'⟩]) s' := by
  have hpast : past <+: past ++ [⟨s, l, s'⟩] := List.prefix_append _ _
  have hsame : ∀ {n : Nat} {h' : Handler}, h'.Sound x (past ++ [⟨s, l, s'⟩]) s.driver n →
      Sound x (past ++ [⟨s, l, s'⟩]) { s with handlers := s.handlers.set n h' } :=
    sound_set hs hpast (List.prefix_refl _) (List.prefix_refl _)
  cases hmoves with
  | database store =>
      exact fun n h hh => (hs n h hh).mono hpast (List.prefix_refl _) (List.prefix_refl _)
  | request request =>
      intro n h hh
      rcases Run.getElem?_append_singleton hh with hh | ⟨-, rfl⟩
      · exact (hs n h hh).mono hpast (List.prefix_refl _) (List.prefix_refl _)
      · constructor <;> simp [Handler.caller, Handler.reply]
  | refused hh hstage hrun =>
      rename_i problem
      refine hsame ⟨by simp, by simp [Handler.caller], fun reply hreply => Or.inl ?_⟩
      obtain rfl := Option.some.inj hreply
      refine ⟨problem, rfl, rfl, ?_⟩
      rcases futKitPermissionOrForbidden_error hrun with rfl | rfl <;> decide
  | permitted hh hstage hrun =>
      obtain ⟨hserial, hentitled⟩ := entitled_of_check hrun
      refine hsame ⟨fun kitSerial hcall => ?_, by simp [Handler.caller], by simp [Handler.reply]⟩
      obtain rfl := Stage.call.inj hcall
      exact ⟨hserial, hentitled⟩
  | called hh hstage hcall =>
      rename_i n h kitSerial driver
      obtain ⟨hcalls, hcompletions⟩ := driver_grows hcall
      obtain ⟨rfl, hentitled⟩ := (hs n h hh).permitted kitSerial hstage
      refine sound_set hs hpast (hcalls ▸ List.prefix_append _ _) hcompletions
        ⟨by simp, fun caller hcaller => ?_, by simp [Handler.reply]⟩
      obtain rfl := Option.some.inj hcaller
      refine ⟨?_, hentitled.mono hpast⟩
      rw [hcalls, List.getElem?_append_right (Nat.le_refl _), Nat.sub_self]
      rfl
  | answered hh hstage hmem =>
      rename_i n h completion
      obtain ⟨hcall, hentitled⟩ := (hs n h hh).called completion.caller
        (by simp only [Handler.caller, hstage])
      refine hsame ⟨by simp, fun caller hcaller => ?_, fun reply hreply => Or.inr ?_⟩
      · obtain rfl := Option.some.inj hcaller
        exact ⟨hcall, hentitled.mono hpast⟩
      · obtain rfl := Option.some.inj hreply
        exact ⟨completion, hmem, rfl, rfl⟩
  | dropped hh hcaller => exact hsame ⟨by simp, by simp [Handler.caller], by simp [Handler.reply]⟩
  | hungUp hh hstage hhangUp =>
      rename_i n h caller driver
      obtain ⟨hcalls, hcompletions⟩ := driver_grows hhangUp
      obtain ⟨hcall, hentitled⟩ := (hs n h hh).called caller
        (by simp only [Handler.caller, hstage])
      refine sound_set hs hpast (hcalls ▸ List.prefix_append _ _) hcompletions
        ⟨by simp, fun caller hcaller => ?_, by simp [Handler.reply]⟩
      obtain rfl := Option.some.inj hcaller
      exact ⟨KitRpc.getElem?_of_prefix (hcalls ▸ List.prefix_append _ _) hcall,
        hentitled.mono hpast⟩
  | driver hl hdriver =>
      obtain ⟨hcalls, hcompletions⟩ := driver_grows hdriver
      exact fun n h hh => (hs n h hh).mono hpast (hcalls ▸ List.prefix_append _ _) hcompletions

/-! ## Runs -/

theorem owned_sound_exec {store : Store} {ls : List Label}
    (h : Run.exec (step x codec) (.start store) ls = some s) :
    Owned s ∧ Sound x (Run.history (step x codec) (.start store) ls) s := by
  refine Run.exec_history (I := fun past s => Owned s ∧ Sound x past s)
    (fun past s l s' hs hstep => ?_) ⟨fun caller => rfl, fun n h hh => by cases hh⟩ h
  exact ⟨owned_moves hs.1 (moves_of_step hstep), sound_moves hs.2 (moves_of_step hstep)⟩

theorem Owned.sole (hs : Owned s) {n n' : Nat} {h h' : Handler} {caller : Nat}
    (hh : s.handlers[n]? = some h) (hh' : s.handlers[n']? = some h')
    (hcaller : h.caller = some caller) (hcaller' : h'.caller = some caller) : n = n' := by
  have hcount : (s.handlers.map (·.caller)).count (some caller) ≤ 1 :=
    (hs caller).trans_le (KitRpc.below_le_one _ _)
  have hlt : ∀ {i j : Nat} {a b : Handler}, s.handlers[i]? = some a → s.handlers[j]? = some b →
      a.caller = some caller → b.caller = some caller → ¬ i < j := by
    intro i j a b ha hb hac hbc hij
    have hbefore : 0 < ((s.handlers.map (·.caller)).take j).count (some caller) := by
      refine List.count_pos_iff.mpr (List.mem_iff_getElem?.mpr ⟨i, ?_⟩)
      rw [List.getElem?_take_of_lt hij, List.getElem?_map, ha, Option.map_some, hac]
    have hafter : 0 < ((s.handlers.map (·.caller)).drop j).count (some caller) := by
      refine List.count_pos_iff.mpr (List.mem_iff_getElem?.mpr ⟨0, ?_⟩)
      rw [List.getElem?_drop, Nat.add_zero, List.getElem?_map, hb, Option.map_some, hbc]
    rw [← List.take_append_drop j (s.handlers.map (·.caller)), List.count_append] at hcount
    omega
  exact Nat.le_antisymm (Nat.le_of_not_lt (hlt hh' hh hcaller' hcaller))
    (Nat.le_of_not_lt (hlt hh hh' hcaller hcaller'))

/-- What is told from a kit is a rendering of what the kit sent. -/
theorem Route.respond_ok {route : Route} {outcome : Option (Except DecodeErrorKind ResponseBody)}
    {value : ResponseValue} (h : route.respond outcome = .ok value) :
    ∃ body, outcome = some (.ok body) ∧ route.render body = some value := by
  rcases outcome with _ | (e | body)
  · cases route <;> cases h
  · cases route <;> cases h
  · refine ⟨body, rfl, ?_⟩
    cases route <;> cases body <;> cases h <;> rfl

theorem status_of_respond {route : Route} {outcome : Option (Except DecodeErrorKind ResponseBody)}
    {problem : Problem} (h : intoReply x (route.respond outcome) = .problem problem) :
    problem.toStatusCode = 502 := by
  have herror : ∀ {α : Type} {r : Except KitRpcResponseError α} {f : α → ResponseValue},
      intoReply x (do return f (← r.mapError kitRpcResponseErrorIntoProblem)) = .problem problem →
      problem.toStatusCode = 502 := by
    intro α r f h
    cases r with
    | error e =>
        obtain rfl := Reply.problem.inj h
        rfl
    | ok v =>
        have hnot : ∀ value, intoReply x (.ok value) ≠ .problem problem := by
          intro value hvalue
          cases value with
          | serializable _ => cases hvalue
          | data mediaType _ =>
              simp only [intoReply] at hvalue
              split at hvalue <;> cases hvalue
        exact absurd h (hnot (f v))
  cases route <;> exact herror h

/-- The request of the handler that the publication is made for. -/
structure Commissioned (past : List (Run.Event State Label)) (n : Nat) (h : Handler)
    (p : KitRpc.Publication) : Prop where
  caller : h.caller = some p.caller
  topic : p.topic = (Topic.mk h.request.kitSerial .kitRpcRequest).text
  body : p.body = h.request.route.body
  entitled : Entitled past n h.request

theorem published_exec {run : List KitRpc.Label} {driver : KitRpc.State}
    (hrun : Run.exec (KitRpc.step codec) .start run = some driver)
    (hfew : driver.calls.length < 2 ^ 64) :
    ∀ p ∈ driver.published, ∃ kitSerial, driver.calls[p.caller]? = some (kitSerial, p.body)
      ∧ p.topic = (Topic.mk kitSerial .kitRpcRequest).text := by
  suffices hinv : driver.calls.length < 2 ^ 64 → KitRpc.Inv codec driver
      ∧ ∀ p ∈ driver.published, ∃ kitSerial, driver.calls[p.caller]? = some (kitSerial, p.body)
        ∧ p.topic = (Topic.mk kitSerial .kitRpcRequest).text from (hinv hfew).2
  clear hfew
  refine Run.exec_invariant
    (I := fun driver : KitRpc.State => driver.calls.length < 2 ^ 64 → KitRpc.Inv codec driver
      ∧ ∀ p ∈ driver.published, ∃ kitSerial, driver.calls[p.caller]? = some (kitSerial, p.body)
        ∧ p.topic = (Topic.mk kitSerial .kitRpcRequest).text)
    (fun s l s' ih hs hfew' => ?_) (fun _ => ⟨KitRpc.inv_start, fun p hp => by cases hp⟩) hrun
  have hfew := Nat.lt_of_le_of_lt (KitRpc.calls_le hs) hfew'
  obtain ⟨hinv, hpublished⟩ := ih hfew
  refine ⟨KitRpc.inv_step hinv hfew hs, ?_⟩
  have hold : s.calls <+: s'.calls → ∀ p ∈ s.published,
      ∃ kitSerial, s'.calls[p.caller]? = some (kitSerial, p.body)
        ∧ p.topic = (Topic.mk kitSerial .kitRpcRequest).text := by
    intro hcalls p hp
    obtain ⟨kitSerial, hcall, htopic⟩ := hpublished p hp
    exact ⟨kitSerial, KitRpc.getElem?_of_prefix hcalls hcall, htopic⟩
  cases KitRpc.step_effect hinv hs with
  | quiet _ _ _ hsame hcalls => exact fun p hp => hold hcalls p (hsame ▸ hp)
  | requested _ hrequests =>
      intro p hp
      rcases List.mem_append.mp hp with hp | hp
      · exact hold (List.prefix_refl _) p hp
      · obtain rfl := List.mem_singleton.mp hp
        exact ⟨_, hinv.requests _ (hrequests ▸ List.mem_cons_self), rfl⟩
  | _ => exact hold (List.prefix_refl _)

theorem commissioned_exec {store : Store} {ls : List Label}
    (h : Run.exec (step x codec) (.start store) ls = some s)
    (hfew : s.driver.calls.length < 2 ^ 64) :
    ∀ p ∈ s.driver.published, ∃ n h, s.handlers[n]? = some h
      ∧ Commissioned (Run.history (step x codec) (.start store) ls) n h p := by
  obtain ⟨howned, hsound⟩ := owned_sound_exec h
  obtain ⟨run, hrun⟩ := driver_run h
  intro p hp
  obtain ⟨kitSerial, hcall, htopic⟩ := published_exec hrun hfew p hp
  have hlt : p.caller < s.driver.calls.length := (List.getElem?_eq_some_iff.mp hcall).1
  have howner : 0 < s.owners p.caller := by
    rw [howned p.caller, KitRpc.below, if_pos hlt]
    exact Nat.one_pos
  obtain ⟨h, hmem, hcaller⟩ := List.mem_map.mp (List.count_pos_iff.mp howner)
  obtain ⟨n, hn⟩ := List.mem_iff_getElem?.mp hmem
  obtain ⟨hcall', hentitled⟩ := (hsound n h hn).called p.caller hcaller
  obtain ⟨rfl, hbody⟩ := Prod.mk.inj (Option.some.inj (hcall.symm.trans hcall'))
  exact ⟨n, h, hn, hcaller, htopic, hbody, hentitled⟩

/-- Whom the traffic with kits is for. -/
structure Attributed (x : HeaderValues) (codec : KitRpcCodec)
    (past : List (Run.Event State Label)) (s : State) : Prop where
  /-- What is published to a kit is for one request, of a super member of it. -/
  commissioned : ∀ p ∈ s.driver.published,
    ∃! n, ∃ h, s.handlers[n]? = some h ∧ Commissioned past n h p
  /-- No request is published twice. -/
  once : (s.driver.published.map (·.caller)).Nodup
  /-- A reply renders what the kit sent under the id of the request. -/
  answered : ∀ (n : Nat) (h : Handler) (value : ResponseValue), s.handlers[n]? = some h →
    h.reply = some (.response value) →
    ∃ p ∈ s.driver.published, Commissioned past n h p
      ∧ ∃ i body v, ReceivedFrom codec s.driver h.request.kitSerial p.requestId i (.ok body)
        ∧ h.request.route.render body = some v ∧ intoReply x (.ok v) = .response value
  /-- A request that is refused reaches no kit. -/
  refused : ∀ (n : Nat) (h : Handler) (problem : Problem), s.handlers[n]? = some h →
    h.reply = some (.problem problem) → problem.toStatusCode ≠ 502 →
    ∀ p ∈ s.driver.published, h.caller ≠ some p.caller

/-- **Commands are the super members'.** In every run, whatever clients, kits and
the database do. -/
theorem kit_requests_attributed (x : HeaderValues) (codec : KitRpcCodec) (store : Store)
    {ls : List Label} {s : State} (h : Run.exec (step x codec) (.start store) ls = some s)
    (hfew : s.driver.calls.length < 2 ^ 64) :
    Attributed x codec (Run.history (step x codec) (.start store) ls) s := by
  obtain ⟨howned, hsound⟩ := owned_sound_exec h
  obtain ⟨run, hrun⟩ := driver_run h
  have hinv := KitRpc.inv_exec hrun hfew
  have hcommissioned := commissioned_exec h hfew
  refine ⟨fun p hp => ?_, hinv.correlated.published_once, fun n h value hn hreply => ?_,
    fun n h problem hn hreply hstatus p hp hcaller => ?_⟩
  · obtain ⟨n, h, hn, hp'⟩ := hcommissioned p hp
    refine ⟨n, ⟨h, hn, hp'⟩, ?_⟩
    rintro n' ⟨h', hn', hp''⟩
    exact howned.sole hn' hn hp''.caller hp'.caller
  · rcases (hsound n h hn).replied _ hreply with ⟨problem, hproblem, -⟩
      | ⟨completion, hmem, hcaller, hvalue⟩
    · cases hproblem
    · cases hrespond : h.request.route.respond (completion.outcome.map (·.2)) with
      | error problem =>
          rw [hrespond] at hvalue
          cases hvalue
      | ok v =>
          rw [hrespond] at hvalue
          obtain ⟨body, hbody, hrender⟩ := Route.respond_ok hrespond
          obtain ⟨⟨i, _⟩, houtcome, rfl⟩ := Option.map_eq_some_iff.mp hbody
          obtain ⟨kitSerial, id, ⟨requested, hcall, hpub⟩, hreceived⟩ :=
            hinv.completions completion hmem i _ houtcome
          obtain ⟨n', h', hn', hp'⟩ := hcommissioned _ hpub
          obtain rfl := howned.sole hn' hn hp'.caller hcaller
          obtain rfl := Option.some.inj (hn'.symm.trans hn)
          have hcall' := ((hsound n' h' hn).called completion.caller hcaller).1
          obtain ⟨rfl, -⟩ := Prod.mk.inj (Option.some.inj (hcall.symm.trans hcall'))
          exact ⟨_, hpub, hp', i, body, v, hreceived, hrender, hvalue.symm⟩
  · rcases (hsound n h hn).replied _ hreply with ⟨_, -, hnone, -⟩ | ⟨completion, -, -, hproblem⟩
    · rw [hnone] at hcaller
      cases hcaller
    · refine hstatus ?_
      exact status_of_respond hproblem.symm

/-- The super member of the first kit asks it for its version, and so does somebody
else. -/
def askFirstKit : List Label :=
  [.request ⟨some 1, "k1", .version⟩, .request ⟨none, "k1", .version⟩, .advance 0, .advance 1,
    .advance 0, .driver .recvRequest, .driver .published,
    .driver (.receive "kit/k1/kit-rpc/response" KitRpc.versionMessage), .driver .recvResponse,
    .advance 0]

theorem kit_requests_attributed_askFirstKit :
    ∃ s, Run.exec (step .withoutControl KitRpc.versionCodec) (.start administeredKit) askFirstKit
        = some s
      ∧ s.handlers.map (·.reply)
        = [some (.response (.serializable (.string "1"))), some (.problem .FORBIDDEN)]
      ∧ Attributed .withoutControl KitRpc.versionCodec
        (Run.history (step .withoutControl KitRpc.versionCodec) (.start administeredKit)
          askFirstKit) s := by
  have hrun : ∃ s, Run.exec (step .withoutControl KitRpc.versionCodec) (.start administeredKit)
        askFirstKit = some s
      ∧ s.handlers.map (·.reply)
        = [some (.response (.serializable (.string "1"))), some (.problem .FORBIDDEN)]
      ∧ s.driver.calls.length < 2 ^ 64 := ⟨_, rfl, rfl, by decide⟩
  obtain ⟨s, hrun, hreplies, hfew⟩ := hrun
  exact ⟨s, hrun, hreplies, kit_requests_attributed _ _ _ hrun hfew⟩

end KitRequests

end AstroPlant
