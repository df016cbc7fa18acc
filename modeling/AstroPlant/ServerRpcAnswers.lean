import AstroPlant.ServerRpc
import Mathlib.Algebra.GroupWithZero.Nat

/-!
# Requests of kits are answered once, and kits do not affect each other

*Answers*: a request moves with its task from `spawned` to `finished`, and
`Stage` says at each point what has been published and which call of the handler
has been made for it.

Nothing stands in a task's way: whatever the handler answers, the tasks can be run
to their ends (`Inv.ends`).

*Isolation*: what comes of a request is decided when it is received, by the
decoding and by the limiter's state for the kit (`decision`). The rate limiter is
a family of machines with the serials as keys, so the outcomes of a kit are
those of its own requests.
-/

namespace AstroPlant

namespace ServerRpc

/-- What comes of a request. -/
inductive Outcome where
  | unreadable
  | methodNotFound (id : UInt64)
  | rateLimited (id : UInt64) (waitTime : UInt64)
  | handled (request : ServerRpcRequest)

def outcome (request : Except DecodeError ServerRpcRequest) (waitTime : Option UInt64) : Outcome :=
  match request with
  | .error (.withRequestId id _) => .methodNotFound id
  | .error (.withoutRequestId _) => .unreadable
  | .ok request =>
      match waitTime with
      | some waitTime => .rateLimited request.id waitTime
      | none => .handled request

def Task.outcome (task : Task) : Outcome := ServerRpc.outcome task.request task.rateLimitWaitTime

@[simp] theorem Task.outcome_pc (task : Task) (pc : TaskPc) :
    ({ task with pc := pc } : Task).outcome = task.outcome := rfl

namespace Outcome

/-- The id that the answer carries. -/
def id? : Outcome → Option UInt64
  | .unreadable => none
  | .methodNotFound id => some id
  | .rateLimited id _ => some id
  | .handled request => some request.id

/-- The call of the handler. -/
def call? (kitSerial : String) : Outcome → Option HandlerCall
  | .handled request => some (handlerCall kitSerial request.body)
  | _ => none

end Outcome

variable (codec : ServerRpcCodec) {limiter : RateLimiter}

/-- The requests that a list of labels delivers. -/
def requests : List Label → List Received :=
  List.filterMap fun
    | .receive topic payload instants =>
        match Topic.tryFrom topic with
        | .ok ⟨kitSerial, .serverRpcRequest⟩ => some ⟨kitSerial, payload, instants⟩
        | _ => none
    | _ => none

namespace State

/-- The responses that have been published for a request. -/
def responses (s : State limiter) (i : Nat) : List Publication :=
  s.published.filter fun p => p.task = i

/-- The outcomes of the requests of a kit. -/
def outcomes (s : State limiter) (kitSerial : String) : List Outcome :=
  Keyed.ofKey kitSerial (s.tasks.map fun task => (task.kitSerial, task.outcome))

end State

/-! ## The responses -/

variable {codec} in
/-- Whatever the handler answers, the response is for the kit and the request. -/
theorem callServerRpcHandler_spec (handler : ServerRpcHandler) (kitSerial : String)
    (request : ServerRpcRequest) :
    (callServerRpcHandler codec handler kitSerial request).kitSerial = kitSerial
      ∧ (callServerRpcHandler codec handler kitSerial request).message.id = request.id := by
  have herror : ∀ (b : ServerRpcResponseBuilder) (v : KitRpc.RpcError),
      (b.setFromRpcError v).create.kitSerial = b.kitSerial
        ∧ (b.setFromRpcError v).create.message.id = b.messageBuilder.id := by
    intro b v
    cases v <;> exact ⟨rfl, rfl⟩
  unfold callServerRpcHandler
  split
  · split
    · exact ⟨rfl, rfl⟩
    · exact herror _ _
  · split
    · rename_i v _
      cases v <;> exact ⟨rfl, rfl⟩
    · exact herror _ _
  · split
    · exact ⟨rfl, rfl⟩
    · exact herror _ _

/-- Exactly one response to the kit that carries the id, and none if there is no
id to carry. -/
def AnsweredOnce (kitSerial : String) (id? : Option UInt64) (responses : List Publication) :
    Prop :=
  match id? with
  | none => responses = []
  | some id => ∃ p, responses = [p] ∧ p.topic = (Topic.mk kitSerial .serverRpcResponse).text
      ∧ p.message.id = id

/-- What has been done for a request, by where its task stands. -/
def Stage (task : Task) (calls : List HandlerCall) (responses : List Publication) : Prop :=
  match task.pc with
  | .spawned => calls = [] ∧ responses = []
  | .handling => (∃ request, task.outcome = .handled request)
      ∧ calls = (task.outcome.call? task.kitSerial).toList ∧ responses = []
  | .publishing response =>
      (response.kitSerial = task.kitSerial ∧ task.outcome.id? = some response.message.id)
        ∧ calls = (task.outcome.call? task.kitSerial).toList ∧ responses = []
  | .finished => calls = (task.outcome.call? task.kitSerial).toList
      ∧ AnsweredOnce task.kitSerial task.outcome.id? responses

theorem Task.call?_eq (task : Task) : task.call? = task.outcome.call? task.kitSerial := by
  unfold Task.call? Task.outcome ServerRpc.outcome
  split
  · rename_i hrequest hwait
    rw [hrequest, hwait]
    rfl
  · rename_i hother
    cases hrequest : task.request with
    | error err => cases err <;> rfl
    | ok request =>
        cases hwait : task.rateLimitWaitTime with
        | some waitTime => rfl
        | none => exact absurd hwait (hother request hrequest)

theorem stage_start (task : Task) :
    Stage { task with pc := start task } task.call?.toList [] := by
  rw [Task.call?_eq]
  unfold Stage start Task.outcome ServerRpc.outcome
  cases task.request with
  | error err =>
      cases err with
      | withRequestId id error => exact ⟨⟨rfl, rfl⟩, rfl, rfl⟩
      | withoutRequestId error => exact ⟨rfl, rfl⟩
  | ok request =>
      cases task.rateLimitWaitTime with
      | some waitTime => exact ⟨⟨rfl, rfl⟩, rfl, rfl⟩
      | none => exact ⟨⟨request, rfl⟩, rfl, rfl⟩

/-! ## The invariant -/

/-- The decision about a request: decoding, and the limiter of its kit. -/
def decision (limiter : RateLimiter) (cell : limiter.Cell)
    (m : List UInt8 × (Instant × Instant)) : Outcome × limiter.Cell :=
  let (waitTime, cell) := limiter.waitTime cell m.2
  (outcome (decodeRpcRequest codec m.1) waitTime, cell)

/-- The received requests as inputs of the family of limiters. -/
def inputs (received : List Received) : List (String × (List UInt8 × (Instant × Instant))) :=
  received.map fun m => (m.kitSerial, (m.payload, m.instants))

structure Inv (s : State limiter) : Prop where
  length : s.tasks.length = s.received.length
  tasks : ∀ (i : Nat) (m : Received) (task : Task), s.received[i]? = some m →
    s.tasks[i]? = some task →
    task.kitSerial = m.kitSerial ∧ task.request = decodeRpcRequest codec m.payload
  stages : ∀ (i : Nat) (task : Task), s.tasks[i]? = some task →
    Stage task (Keyed.ofKey i s.calls) (s.responses i)
  calls : ∀ c ∈ s.calls, c.1 < s.tasks.length
  published : ∀ p ∈ s.published, p.task < s.tasks.length
  rateLimiter : s.rateLimiter
    = Keyed.states (decision codec limiter) (fun _ => limiter.fresh) (inputs s.received)
  outcomes : (s.tasks.map fun task => (task.kitSerial, task.outcome))
    = Keyed.run (decision codec limiter) (fun _ => limiter.fresh) (inputs s.received)

theorem inv_start : Inv codec (.start limiter) where
  length := rfl
  tasks i m task hm := by simp [State.start] at hm
  stages i task htask := by simp [State.start] at htask
  calls c hc := by cases hc
  published p hp := by cases hp
  rateLimiter := rfl
  outcomes := rfl

variable {codec} {s s' : State limiter}

theorem ofKey_append_other {α : Type} {i j : Nat} (h : j ≠ i) (xs : List (Nat × α)) (o : Option α) :
    Keyed.ofKey j (xs ++ (o.map fun a => (i, a)).toList) = Keyed.ofKey j xs := by
  cases o with
  | none => simp
  | some a => simp [Keyed.ofKey, Ne.symm h]

theorem ofKey_append_self {α : Type} (i : Nat) (xs : List (Nat × α)) (o : Option α) :
    Keyed.ofKey i (xs ++ (o.map fun a => (i, a)).toList) = Keyed.ofKey i xs ++ o.toList := by
  cases o with
  | none => simp
  | some a => simp [Keyed.ofKey]

/-- The task that has moved on, or another one, which is as it was. -/
theorem tasks_setPc {s : State limiter} {i j : Nat} {pc : TaskPc} {task task' : Task}
    (hi : s.tasks[i]? = some task) (h : (s.setPc i pc).tasks[j]? = some task') :
    j = i ∧ task' = { task with pc } ∨ j ≠ i ∧ s.tasks[j]? = some task' := by
  simp only [State.setPc, List.getElem?_modify] at h
  by_cases hj : i = j
  · subst hj
    simp only [hi, if_true, Option.map_eq_map, Option.map_some, Option.some.injEq] at h
    exact Or.inl ⟨rfl, h.symm⟩
  · simp only [hj, if_false, Option.map_eq_map, Option.map_id'] at h
    exact Or.inr ⟨Ne.symm hj, h⟩

/-- A task moves on: the calls and responses of the other tasks are the same. -/
theorem Inv.move (h : Inv codec s) {i : Nat} {task : Task} (hi : s.tasks[i]? = some task)
    {pc : TaskPc} (call : Option HandlerCall) {published : List Publication}
    (hothers : ∀ j, j ≠ i → published.filter (fun p => p.task = j) = s.responses j)
    (hbound : ∀ p ∈ published, p.task < s.tasks.length)
    (hstage : Stage { task with pc := pc } (Keyed.ofKey i s.calls ++ call.toList)
      (published.filter fun p => p.task = i)) :
    Inv codec { s.setPc i pc with
      calls := s.calls ++ (call.map fun call => (i, call)).toList
      published := published } where
  length := by simpa [State.setPc] using h.length
  tasks j m task' hm htask' := by
    rcases tasks_setPc hi htask' with ⟨rfl, rfl⟩ | ⟨-, htask'⟩
    · exact h.tasks j m task hm hi
    · exact h.tasks j m task' hm htask'
  stages j task' htask' := by
    rcases tasks_setPc hi htask' with ⟨rfl, rfl⟩ | ⟨hj, htask'⟩
    · rw [ofKey_append_self]
      exact hstage
    · rw [ofKey_append_other hj, State.responses, hothers j hj]
      exact h.stages j task' htask'
  calls c hc := by
    have hlt := (List.getElem?_eq_some_iff.mp hi).1
    simp only [State.setPc, List.length_modify]
    rcases List.mem_append.mp hc with hc | hc
    · exact h.calls c hc
    · cases call with
      | none => cases hc
      | some call =>
          rw [List.mem_singleton.mp hc]
          exact hlt
  published p hp := by
    simpa [State.setPc] using hbound p hp
  rateLimiter := h.rateLimiter
  outcomes := by
    refine Eq.trans (List.ext_getElem? fun j => ?_) h.outcomes
    simp only [State.setPc, List.getElem?_map, List.getElem?_modify]
    by_cases hj : i = j
    · subst hj
      simp [hi, Task.outcome]
    · simp [hj]

theorem filter_eq_nil {s : State limiter} (h : ∀ p ∈ s.published, p.task < s.tasks.length) :
    s.responses s.tasks.length = [] := by
  refine List.filter_eq_nil_iff.mpr fun p hp => ?_
  have := h p hp
  simp only [decide_eq_true_eq]
  omega

theorem ofKey_eq_nil {s : State limiter} (h : ∀ c ∈ s.calls, c.1 < s.tasks.length) :
    Keyed.ofKey s.tasks.length s.calls = [] := by
  refine List.map_eq_nil_iff.mpr (List.filter_eq_nil_iff.mpr fun c hc => ?_)
  have := h c hc
  simp only [decide_eq_true_eq]
  omega

theorem inv_receive (h : Inv codec s) (kitSerial : String) (payload : List UInt8)
    (instants : Instant × Instant) :
    Inv codec (handleServerRpcRequest codec kitSerial payload instants s) where
  length := by simp [handleServerRpcRequest, h.length]
  tasks i m task hm htask := by
    rcases Run.getElem?_append_singleton htask with htask | ⟨rfl, rfl⟩
    · have hlt := (List.getElem?_eq_some_iff.mp htask).1
      simp only [handleServerRpcRequest] at hm
      rw [List.getElem?_append_left (h.length ▸ hlt)] at hm
      exact h.tasks i m task hm htask
    · rcases Run.getElem?_append_singleton hm with hm | ⟨-, rfl⟩
      · have hlt := (List.getElem?_eq_some_iff.mp hm).1
        have hlength := h.length
        omega
      · exact ⟨rfl, rfl⟩
  stages i task htask := by
    rcases Run.getElem?_append_singleton htask with htask | ⟨rfl, rfl⟩
    · exact h.stages i task htask
    · exact ⟨ofKey_eq_nil h.calls, filter_eq_nil h.published⟩
  calls c hc := by
    have := h.calls c hc
    simp only [handleServerRpcRequest, List.length_append, List.length_singleton]
    omega
  published p hp := by
    have := h.published p hp
    simp only [handleServerRpcRequest, List.length_append, List.length_singleton]
    omega
  rateLimiter := by
    have hinputs : inputs (handleServerRpcRequest codec kitSerial payload instants s).received
        = inputs s.received ++ [(kitSerial, (payload, instants))] := by
      simp [inputs, handleServerRpcRequest]
    rw [hinputs, Keyed.states_snoc, ← h.rateLimiter]
    rfl
  outcomes := by
    have hinputs : inputs (handleServerRpcRequest codec kitSerial payload instants s).received
        = inputs s.received ++ [(kitSerial, (payload, instants))] := by
      simp [inputs, handleServerRpcRequest]
    rw [hinputs, Keyed.run_snoc, ← h.rateLimiter, ← h.outcomes]
    simp [handleServerRpcRequest, Task.outcome, decision]

theorem inv_run (h : Inv codec s) {i : Nat} (hs : runTask i s = some s') : Inv codec s' := by
  obtain ⟨task, hi, hs⟩ := Option.bind_eq_some_iff.mp hs
  split at hs
  · rename_i hpc
    obtain rfl := Option.some.inj hs
    have hstage := h.stages i task hi
    simp only [Stage, hpc] at hstage
    have hstart := stage_start task
    refine h.move hi task.call? (fun _ _ => rfl) h.published ?_
    have hnone : ((s.setPc i (start task)).published.filter fun p => p.task = i) = [] := hstage.2
    rw [hstage.1, hnone, List.nil_append]
    exact hstart
  · cases hs

theorem inv_handled (h : Inv codec s) {i : Nat} {handler : ServerRpcHandler}
    (hs : handled codec i handler s = some s') : Inv codec s' := by
  obtain ⟨task, hi, hs⟩ := Option.bind_eq_some_iff.mp hs
  split at hs
  · rename_i request hpc hrequest
    obtain rfl := Option.some.inj hs
    have hstage := h.stages i task hi
    simp only [Stage, hpc] at hstage
    obtain ⟨⟨request', houtcome⟩, hcalls, hresponses⟩ := hstage
    obtain ⟨hkit, hid⟩ := @callServerRpcHandler_spec codec handler task.kitSerial request
    have hsame : request' = request := by
      simp only [Task.outcome, outcome, hrequest] at houtcome
      split at houtcome
      · cases houtcome
      · exact (Outcome.handled.inj houtcome).symm
    have hmove := @Inv.move codec limiter s h i task hi
      (.publishing (callServerRpcHandler codec handler task.kitSerial request)) none s.published
      (fun _ _ => rfl) h.published ⟨⟨hkit, ?_⟩, by simpa using hcalls, hresponses⟩
    · simpa [State.setPc] using hmove
    · rw [hid, ← hsame]
      show task.outcome.id? = some request'.id
      rw [houtcome]
      rfl
  · cases hs

theorem inv_publish (h : Inv codec s) {i : Nat} (hs : publish i s = some s') : Inv codec s' := by
  obtain ⟨task, hi, hs⟩ := Option.bind_eq_some_iff.mp hs
  split at hs
  · rename_i response hpc
    obtain rfl := Option.some.inj hs
    have hstage := h.stages i task hi
    simp only [Stage, hpc] at hstage
    obtain ⟨⟨hkit, hid⟩, hcalls, hresponses⟩ := hstage
    have hmove := @Inv.move codec limiter s h i task hi .finished none
      (s.published ++
        [⟨(Topic.mk response.kitSerial .serverRpcResponse).text, response.message, i⟩])
      (fun j hj => by simp [State.responses, Ne.symm hj]) ?_ ⟨by simpa using hcalls, ?_⟩
    · simpa [State.setPc] using hmove
    · intro p hp
      rcases List.mem_append.mp hp with hp | hp
      · exact h.published p hp
      · rw [List.mem_singleton.mp hp]
        exact (List.getElem?_eq_some_iff.mp hi).1
    · have hnone : (s.published.filter fun p => p.task = i) = [] := hresponses
      rw [Task.outcome_pc, hid, List.filter_append, hnone]
      exact ⟨⟨(Topic.mk response.kitSerial .serverRpcResponse).text, response.message, i⟩,
        by simp, by rw [hkit], rfl⟩
  · cases hs

theorem inv_step (h : Inv codec s) {l : Label} (hs : step codec s l = some s') :
    Inv codec s' := by
  cases l with
  | receive topic payload instants =>
      simp only [step] at hs
      split at hs
      · rename_i kitSerial _
        obtain rfl := Option.some.inj hs
        exact inv_receive h kitSerial payload instants
      · obtain rfl := Option.some.inj hs
        exact h
  | run i => exact inv_run h hs
  | handled i handler => exact inv_handled h hs
  | publish i => exact inv_publish h hs

theorem inv_exec {ls : List Label} (hrun : Run.exec (step codec) (.start limiter) ls = some s) :
    Inv codec s :=
  Run.exec_invariant (fun _ _ _ h hs => inv_step h hs) (inv_start codec) hrun

theorem requests_cons (l : Label) (ls : List Label) :
    requests (l :: ls) = requests [l] ++ requests ls := by
  rw [requests, ← List.singleton_append, List.filterMap_append]

/-! ## Tasks end -/

/-- How many steps are left, at most. -/
def TaskPc.remaining : TaskPc → Nat
  | .spawned => 3
  | .handling => 2
  | .publishing _ => 1
  | .finished => 0

/-- The step that a task waits for, where the handler answers like this. -/
def Task.next (handler : ServerRpcHandler) (i : Nat) (task : Task) : Label :=
  match task.pc with
  | .spawned => .run i
  | .handling => .handled i handler
  | .publishing _ | .finished => .publish i

theorem remaining_start (task : Task) : (start task).remaining < 3 := by
  unfold start
  cases task.request with
  | error err => cases err <;> simp [TaskPc.remaining]
  | ok request => cases task.rateLimitWaitTime <;> simp [TaskPc.remaining]

/-- The step that a task waits for can be taken, and brings it nearer to its end. -/
theorem Inv.advances (h : Inv codec s) {i : Nat} {task : Task} (hi : s.tasks[i]? = some task)
    (hpc : task.pc ≠ .finished) (handler : ServerRpcHandler) :
    ∃ s' pc, step codec s (task.next handler i) = some s' ∧ s'.tasks = (s.setPc i pc).tasks
      ∧ pc.remaining < task.pc.remaining := by
  have hstage := h.stages i task hi
  cases hat : task.pc with
  | spawned =>
      refine ⟨{ s.setPc i (start task) with
          calls := s.calls ++ (task.call?.map fun call => (i, call)).toList }, start task, ?_, rfl,
        remaining_start task⟩
      simp only [Task.next, hat, step, runTask, hi, bind, Option.bind]
  | handling =>
      simp only [Stage, hat] at hstage
      obtain ⟨⟨request, houtcome⟩, -⟩ := hstage
      have hrequest : task.request = .ok request := by
        unfold Task.outcome ServerRpc.outcome at houtcome
        cases hrequest : task.request with
        | error err => cases err <;> rw [hrequest] at houtcome <;> cases houtcome
        | ok request' =>
            rw [hrequest] at houtcome
            cases hwait : task.rateLimitWaitTime with
            | some waitTime =>
                rw [hwait] at houtcome
                cases houtcome
            | none =>
                rw [hwait] at houtcome
                rw [Outcome.handled.inj houtcome]
      refine ⟨s.setPc i (.publishing (callServerRpcHandler codec handler task.kitSerial request)),
        _, ?_, rfl, Nat.lt_succ_self 1⟩
      simp only [Task.next, hat, step, handled, hi, hrequest, bind, Option.bind]
  | publishing response =>
      refine ⟨{ s.setPc i .finished with
          published := s.published ++
            [⟨(Topic.mk response.kitSerial .serverRpcResponse).text, response.message, i⟩] },
        .finished, ?_, rfl, Nat.lt_succ_self 0⟩
      simp only [Task.next, hat, step, publish, hi, bind, Option.bind]
  | finished => exact absurd hat hpc

theorem sum_modify {α : Type} {xs : List α} {i : Nat} {a : α} (hi : xs[i]? = some a) (f : α → α)
    (g : α → Nat) : ((xs.modify i f).map g).sum + g a = (xs.map g).sum + g (f a) := by
  induction xs generalizing i with
  | nil => cases hi
  | cons x xs ih =>
      cases i with
      | zero =>
          obtain rfl := Option.some.inj hi
          simp only [List.modify_zero_cons, List.map_cons, List.sum_cons]
          omega
      | succ i =>
          have hrest := ih hi
          simp only [List.modify_succ_cons, List.map_cons, List.sum_cons]
          omega

def State.remaining (s : State limiter) : Nat := (s.tasks.map fun task => task.pc.remaining).sum

/-- **All tasks come to their ends**, each with the answer that the handler has for
it, if no more requests arrive. -/
theorem Inv.ends (h : Inv codec s) (handlers : Nat → ServerRpcHandler) :
    ∃ ls s', Run.exec (step codec) s ls = some s' ∧ requests ls = []
      ∧ (∀ i handler, Label.handled i handler ∈ ls → handler = handlers i)
      ∧ ∀ task ∈ s'.tasks, task.pc = .finished := by
  induction hn : s.remaining using Nat.strong_induction_on generalizing s with
  | _ n ih =>
      by_cases hall : ∀ task ∈ s.tasks, task.pc = .finished
      · exact ⟨[], s, rfl, rfl, fun _ _ hl => (by cases hl), hall⟩
      · simp only [not_forall] at hall
        obtain ⟨task, htask, hpc⟩ := hall
        obtain ⟨i, hi⟩ := List.getElem?_of_mem htask
        obtain ⟨s₁, pc, hstep, htasks, hlt⟩ := h.advances hi hpc (handlers i)
        have hless : s₁.remaining < n := by
          have hsum : (s.setPc i pc).remaining + task.pc.remaining = s.remaining + pc.remaining :=
            sum_modify hi (fun task => { task with pc := pc }) fun task => task.pc.remaining
          rw [State.remaining, htasks, ← State.remaining]
          omega
        obtain ⟨ls, s', hrun, hrequests, hhandlers, hdone⟩ := ih _ hless (inv_step h hstep) rfl
        have hnext : requests [task.next (handlers i) i] = [] := by
          unfold Task.next
          cases task.pc <;> rfl
        refine ⟨task.next (handlers i) i :: ls, s', Run.exec_cons.mpr ⟨s₁, hstep, hrun⟩, ?_, ?_,
          hdone⟩
        · rw [requests_cons, hnext, hrequests, List.append_nil]
        · intro j handler hmem
          rcases List.mem_cons.mp hmem with heq | hmem
          · unfold Task.next at heq
            cases hat : task.pc <;> rw [hat] at heq <;> cases heq
            rfl
          · exact hhandlers j handler hmem

/-! ## Runs -/

/-- The messages with which the requests of a kit arrive. -/
def ofKit (kitSerial : String) (l : Label) : Bool :=
  (requests [l]).any fun m => m.kitSerial = kitSerial

/-- The packed messages `(id = 7, version = void)` and
`(id = 8, getActiveConfiguration = void)`. -/
def versionRequest : List UInt8 := [0x10, 0x02, 0x10, 0x02, 0x01, 0x07, 0x00]

def configurationRequest : List UInt8 := [0x10, 0x02, 0x10, 0x02, 0x11, 0x08, 0x03]

/-- The handler knows its version and cannot get at configurations. -/
def brokenHandler : ServerRpcHandler where
  version := .ok "1"
  getActiveConfiguration _ := .error .other
  getQuantityTypes := .ok []

/-- The second request of the first kit comes too early; the tasks run in
another order. -/
def twoKits : List Label :=
  [.receive "kit/k1/server-rpc/request" configurationRequest (0, 0),
    .receive "kit/k2/server-rpc/request" versionRequest (1000000, 1000000),
    .receive "kit/k1/server-rpc/request" versionRequest (2000000, 3000000),
    .receive "kit/k1/server-rpc/request" [] (4000000, 4000000),
    .run 3, .run 2, .publish 2, .run 1, .run 0, .handled 1 brokenHandler,
    .handled 0 brokenHandler, .publish 0, .publish 1]

end ServerRpc

end AstroPlant
