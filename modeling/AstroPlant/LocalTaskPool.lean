import AstroPlant.NotifyQueue
import AstroPlant.Run

/-!
# The task pool of the ingest service

Runners put the sending half of a oneshot channel in a queue and notify; a call
of `enqueue` takes the first one and sends its task, or waits for a
notification. All of it runs on one thread, so what a poll does is one step:
a poll of a call, or of a runner, which polls the task it has.

A log records which runner starts and finishes which task; a task is named by
the number of its `enqueue` call.

A step is partial: it is not enabled when what is polled would not move, so a run
shows only polls that do something. Dropping the pool closes the channels of the
runners that are waiting; those that have a task go on with it to its end.
-/

namespace AstroPlant

/-- The runner's half of its channel. -/
inductive Oneshot where
  | open
  | sent (task : Nat)
  | closed
deriving DecidableEq

/-- A runner at the head of its loop, at `task_rx.await` and at `task.await`. -/
inductive Runner where
  | ready
  | waiting (rx : Oneshot)
  | running (task : Nat)
  | stopped
deriving DecidableEq

namespace Runner

/-- `task_tx.send(task)`: the task is lost if nobody waits for it. -/
def send (task : Nat) : Runner → Runner
  | waiting .open => waiting (.sent task)
  | r => r

/-- `task_tx` is dropped. -/
def close : Runner → Runner
  | waiting .open => waiting .closed
  | r => r

/-- The task that has been handed to the runner, until it has finished. -/
def task? : Runner → Option Nat
  | waiting (.sent i) | running i => some i
  | _ => none

/-- The task that the runner has started. -/
def running? : Runner → Option Nat
  | running i => some i
  | _ => none

end Runner

inductive Event where
  | started (runner task : Nat)
  | finished (runner task : Nat)
deriving DecidableEq

/-- The pool, its calls and its runners. `runners` is both the queue and
`notify`; the runners hold it weakly, so that it is gone once the pool is
dropped. -/
structure LocalTaskPool where
  runners : NotifyQueue Nat
  dropped : Bool
  spawned : List Runner
  log : List Event
deriving DecidableEq

namespace LocalTaskPool

def start (numRunners : Nat) : LocalTaskPool :=
  ⟨.empty, false, List.replicate numRunners .ready, []⟩

/-! ## Runners -/

/-- From the head of the loop to `task_rx.await`. Without a pool the sender is
dropped at once. -/
def ready (p : LocalTaskPool) (r : Nat) : LocalTaskPool :=
  if p.dropped then { p with spawned := p.spawned.set r .stopped }
  else { p with runners := p.runners.push r, spawned := p.spawned.set r (.waiting .open) }

/-- `task_rx.await` returns the task. -/
def take (p : LocalTaskPool) (r i : Nat) : LocalTaskPool :=
  { p with spawned := p.spawned.set r (.running i), log := p.log ++ [.started r i] }

/-- `task.await` returns, with or without an error. -/
def finish (p : LocalTaskPool) (r i : Nat) : LocalTaskPool :=
  { p with spawned := p.spawned.set r .ready, log := p.log ++ [.finished r i] }

/-- Poll the task of a runner, and go on if it is done. -/
def pollTask (p : LocalTaskPool) (r i : Nat) (done : Bool) : LocalTaskPool :=
  if done then (p.finish r i).ready r else p

def pollRunner (p : LocalTaskPool) (r : Nat) (done : Bool) : Option LocalTaskPool :=
  match p.spawned[r]? with
  | none => none
  | some .ready => some (p.ready r)
  | some (.waiting .open) => some p
  | some (.waiting (.sent i)) => some ((p.take r i).pollTask r i done)
  | some (.waiting .closed) => some { p with spawned := p.spawned.set r .stopped }
  | some (.running i) => some (p.pollTask r i done)
  | some .stopped => some p

/-! ## Calls -/

def enqueue (p : LocalTaskPool) : Option LocalTaskPool :=
  if p.dropped then none else some { p with runners := p.runners.call }

def pollEnqueue (p : LocalTaskPool) (i : Nat) : Option LocalTaskPool :=
  match p.runners.poll i with
  | none => none
  | some (runners, none) => some { p with runners }
  | some (runners, some r) =>
      some { p with runners, spawned := p.spawned.modify r (Runner.send i) }

/-- The pool is dropped, and with it the senders in the queue. A call borrows
the pool, so none is left. -/
def drop (p : LocalTaskPool) : Option LocalTaskPool :=
  if p.dropped = false ∧ p.runners.consumers.all (· = .returned) = true then
    some { p with
      runners := p.runners.clear
      dropped := true
      spawned := p.runners.items.foldl (fun rs r => rs.modify r Runner.close) p.spawned }
  else none

inductive Label where
  | enqueue
  | pollEnqueue (i : Nat)
  | pollRunner (r : Nat) (done : Bool)
  | drop
deriving DecidableEq

def step (p : LocalTaskPool) : Label → Option LocalTaskPool
  | .enqueue => p.enqueue
  | .pollEnqueue i => p.pollEnqueue i
  | .pollRunner r done => p.pollRunner r done
  | .drop => p.drop

/-! ## What the log says -/

/-- The tasks that the runner has started. -/
def startedBy (log : List Event) (r : Nat) : List Nat :=
  log.filterMap fun
    | .started r' i => if r' = r then some i else none
    | .finished _ _ => none

def finishedBy (log : List Event) (r : Nat) : List Nat :=
  log.filterMap fun
    | .started _ _ => none
    | .finished r' i => if r' = r then some i else none

/-- How the task has been started. -/
def starts (log : List Event) (i : Nat) : List Event :=
  log.filter fun
    | .started _ i' => i' = i
    | .finished _ _ => false

/-- A runner starts a task after it has finished all it has started before. -/
def OneByOne (log : List Event) : Prop :=
  ∀ before r i after, log = before ++ .started r i :: after →
    ∀ j, .started r j ∈ before → .finished r j ∈ before

def Returned (p : LocalTaskPool) (i : Nat) : Prop := p.runners.consumers[i]? = some .returned

instance (p : LocalTaskPool) : DecidablePred p.Returned :=
  fun _ => inferInstanceAs (Decidable (_ = _))

/-- The tasks that are handed over or running: their call has returned and they
have not finished. -/
def inFlight (p : LocalTaskPool) : List Nat :=
  (List.range p.runners.consumers.length).filter fun i =>
    p.Returned i && p.log.all fun
      | .started _ _ => true
      | .finished _ i' => i' ≠ i

theorem mem_startedBy {log : List Event} {r i : Nat} :
    i ∈ startedBy log r ↔ .started r i ∈ log := by
  rw [startedBy, List.mem_filterMap]
  constructor
  · rintro ⟨e, he, hi⟩
    cases e with
    | started r' i' =>
        obtain ⟨rfl, htask⟩ := Option.ite_none_right_eq_some.mp hi
        rw [← Option.some.inj htask]
        exact he
    | finished r' i' => cases hi
  · intro he
    exact ⟨_, he, if_pos rfl⟩

theorem mem_finishedBy {log : List Event} {r i : Nat} :
    i ∈ finishedBy log r ↔ .finished r i ∈ log := by
  rw [finishedBy, List.mem_filterMap]
  constructor
  · rintro ⟨e, he, hi⟩
    cases e with
    | started r' i' => cases hi
    | finished r' i' =>
        obtain ⟨rfl, htask⟩ := Option.ite_none_right_eq_some.mp hi
        rw [← Option.some.inj htask]
        exact he
  · intro he
    exact ⟨_, he, if_pos rfl⟩

theorem mem_starts {log : List Event} {i : Nat} {e : Event} :
    e ∈ starts log i ↔ ∃ r, e = .started r i ∧ e ∈ log := by
  rw [starts, List.mem_filter]
  cases e with
  | started r i' =>
      simp only [decide_eq_true_eq, Event.started.injEq]
      constructor
      · rintro ⟨he, rfl⟩
        exact ⟨r, ⟨rfl, rfl⟩, he⟩
      · rintro ⟨r', ⟨-, rfl⟩, he⟩
        exact ⟨he, rfl⟩
  | finished r i' => simp

theorem startedBy_append (log es : List Event) (r : Nat) :
    startedBy (log ++ es) r = startedBy log r ++ startedBy es r := List.filterMap_append

theorem finishedBy_append (log es : List Event) (r : Nat) :
    finishedBy (log ++ es) r = finishedBy log r ++ finishedBy es r := List.filterMap_append

theorem starts_append (log es : List Event) (i : Nat) :
    starts (log ++ es) i = starts log i ++ starts es i := List.filter_append ..

theorem OneByOne.concat {log : List Event} {e : Event} (h : OneByOne log)
    (he : ∀ r i, e = .started r i → ∀ j, .started r j ∈ log → .finished r j ∈ log) :
    OneByOne (log ++ [e]) := by
  intro before r i after heq j hj
  rcases List.eq_nil_or_concat after with rfl | ⟨after, e', rfl⟩
  · obtain ⟨rfl, hlast⟩ := List.append_inj' heq rfl
    exact he r i (List.singleton_inj.mp hlast) j hj
  · rw [List.concat_eq_append, ← List.cons_append, ← List.append_assoc] at heq
    obtain ⟨hlog, -⟩ := List.append_inj' heq rfl
    exact h before r i after hlog j hj

end LocalTaskPool

end AstroPlant
