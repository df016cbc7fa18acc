import AstroPlant.Ingest
import AstroPlant.TasksOnce

/-!
# The ingest service, up to its shutdown

`ingest` reads the stream and enqueues a task for each measurement, and `main`
runs it together with the runners. When the stream ends, `main` polls the
runners until they have stopped, so no accepted task is lost. When the stream
fails, `main` returns at once; a task that is in flight then is dropped
(`accepted_finish_iff`).

The pool is that of `LocalTaskPool`, and `Valid` is its invariant. Only two
things can happen to an accepted task: it is finished, or the pool is dropped
while it is in flight (`inFlight_drop`). The first way out of `main` waits until
the runners have stopped, and a runner stops between two tasks only
(`inFlight_of_stopped`); the other one does not wait, and loses what is in flight
(`allFinished_step`).
-/

namespace AstroPlant

namespace IngestService

/-- `astroplant_mqtt::Error`. -/
inductive StreamError where
  | message (e : Mqtt.Error)
  | mqtt
  | mqttClientError

/-- `ingest` gives up on these. -/
def StreamError.fatal : StreamError → Bool
  | message _ => false
  | mqtt | mqttClientError => true

/-- Where `main` is: in `ingest`, at the stream or in a call of `enqueue`; at
`local.await`; or it has returned, with or without an error. -/
inductive Main where
  | stream
  | enqueue (call : Nat)
  | finishing
  | returned (ok : Bool)
deriving DecidableEq

end IngestService

/-- `tasks` are the measurements by the number of their call. -/
structure IngestService where
  pool : LocalTaskPool
  tasks : List Measurement
  main : IngestService.Main

namespace IngestService

def start : IngestService := ⟨.start 8, [], .stream⟩

def accept (s : IngestService) (m : Measurement) : Option IngestService :=
  s.pool.enqueue.map fun pool =>
    { pool, tasks := s.tasks ++ [m], main := .enqueue s.pool.runners.consumers.length }

/-- `ingest` returns, which drops the pool. Its error is that of `run_until`,
and `main` returns it. -/
def leave (s : IngestService) (ok : Bool) : Option IngestService :=
  s.pool.drop.map fun pool =>
    { s with pool, main := if ok then .finishing else .returned false }

/-- The next item of the stream, or its end. -/
def next (s : IngestService) : Option (Except StreamError Mqtt.Message) → Option IngestService
  | some (.ok (.rawMeasurement m)) => s.accept (.raw m)
  | some (.ok (.aggregateMeasurement m)) => s.accept (.aggregate m)
  | some (.ok (.media _)) => some s
  | some (.error e) => if e.fatal then s.leave false else some s
  | none => s.leave true

inductive Label where
  | next (item : Option (Except StreamError Mqtt.Message))
  | pollEnqueue
  | pollRunner (r : Nat) (done : Bool)
  | pollLocal

def step (s : IngestService) : Label → Option IngestService
  | .next item =>
      match s.main with
      | .stream => s.next item
      | _ => none
  | .pollEnqueue =>
      match s.main with
      | .enqueue i =>
          (s.pool.pollEnqueue i).map fun pool =>
            { s with pool, main := if pool.Returned i then .stream else .enqueue i }
      | _ => none
  | .pollRunner r done =>
      match s.main with
      | .returned _ => none
      | _ => (s.pool.pollRunner r done).map fun pool => { s with pool }
  | .pollLocal =>
      match s.main with
      | .finishing =>
          if s.pool.spawned.all (· = .stopped) then some { s with main := .returned true }
          else none
      | _ => none

/-- When `main` has returned, the tasks have finished whose `enqueue` did. -/
def AllFinished (s : IngestService) : Prop :=
  ∀ ok, s.main = .returned ok → s.pool.inFlight = []

/-- The stream does not fail while a task is handed over or running. -/
def IdleAtFailure (s : IngestService) : Label → Prop
  | .next (some (.error e)) => e.fatal = true → s.pool.inFlight = []
  | _ => True

theorem inFlight_drop {p p' : LocalTaskPool} (h : p.drop = some p') : p'.inFlight = p.inFlight := by
  unfold LocalTaskPool.drop at h
  split at h
  · exact Option.some.inj h ▸ rfl
  · cases h

theorem valid_step {s s' : IngestService} {l : Label} (h : s.pool.Valid 8)
    (hs : step s l = some s') : s'.pool.Valid 8 := by
  have haccept : ∀ m, s.accept m = some s' → s'.pool.Valid 8 := by
    intro m hm
    obtain ⟨pool, hpool, rfl⟩ := Option.map_eq_some_iff.mp hm
    exact h.enqueue hpool
  have hleave : ∀ ok, s.leave ok = some s' → s'.pool.Valid 8 := by
    intro ok hok
    obtain ⟨pool, hpool, rfl⟩ := Option.map_eq_some_iff.mp hok
    exact h.drop hpool
  cases l with
  | next item =>
      simp only [step] at hs
      split at hs
      · unfold next at hs
        split at hs
        · exact haccept _ hs
        · exact haccept _ hs
        · exact Option.some.inj hs ▸ h
        · split at hs
          · exact hleave _ hs
          · exact Option.some.inj hs ▸ h
        · exact hleave _ hs
      · cases hs
  | pollEnqueue =>
      simp only [step] at hs
      split at hs
      · obtain ⟨pool, hpool, rfl⟩ := Option.map_eq_some_iff.mp hs
        exact h.pollEnqueue hpool
      · cases hs
  | pollRunner r done =>
      simp only [step] at hs
      split at hs
      · cases hs
      · obtain ⟨pool, hpool, rfl⟩ := Option.map_eq_some_iff.mp hs
        exact h.pollRunner hpool
  | pollLocal =>
      simp only [step] at hs
      split at hs
      · split at hs
        · exact Option.some.inj hs ▸ h
        · cases hs
      · cases hs

theorem inFlight_of_stopped {p : LocalTaskPool} {N : Nat} (h : p.Valid N)
    (hstopped : p.spawned.all (· = .stopped) = true) : p.inFlight = [] := by
  refine List.eq_nil_iff_forall_not_mem.mpr fun i hi => ?_
  obtain ⟨x, hx, hi⟩ := List.mem_filterMap.mp (h.inFlight_subset hi)
  obtain rfl := of_decide_eq_true (List.all_eq_true.mp hstopped x hx)
  cases hi

theorem allFinished_step {s s' : IngestService} {l : Label} (h : s.pool.Valid 8)
    (hs : step s l = some s') : AllFinished s' ↔ IdleAtFailure s l := by
  have hgoes : ∀ {t : IngestService}, (∀ ok, t.main ≠ .returned ok) → AllFinished t :=
    fun hmain ok hok => absurd hok (hmain ok)
  cases l with
  | next item =>
      simp only [step] at hs
      split at hs
      · rename_i hmain
        have haccept : ∀ m, s.accept m = some s' → AllFinished s' := by
          intro m hm
          obtain ⟨pool, hpool, rfl⟩ := Option.map_eq_some_iff.mp hm
          exact hgoes fun ok => by simp
        unfold next at hs
        split at hs
        · exact iff_of_true (haccept _ hs) trivial
        · exact iff_of_true (haccept _ hs) trivial
        · obtain rfl := Option.some.inj hs
          exact iff_of_true (hgoes fun ok => by simp [hmain]) trivial
        · split at hs
          · rename_i hfatal
            obtain ⟨pool, hpool, rfl⟩ := Option.map_eq_some_iff.mp hs
            rw [IdleAtFailure, ← inFlight_drop hpool]
            exact ⟨fun hall _ => hall false rfl, fun hidle _ _ => hidle hfatal⟩
          · rename_i hfatal
            obtain rfl := Option.some.inj hs
            exact iff_of_true (hgoes fun ok => by simp [hmain]) fun hf => absurd hf hfatal
        · obtain ⟨pool, hpool, rfl⟩ := Option.map_eq_some_iff.mp hs
          exact iff_of_true (hgoes fun ok => by simp) trivial
      · cases hs
  | pollEnqueue =>
      simp only [step] at hs
      split at hs
      · obtain ⟨pool, hpool, rfl⟩ := Option.map_eq_some_iff.mp hs
        refine iff_of_true (hgoes fun ok => ?_) trivial
        split <;> simp
      · cases hs
  | pollRunner r done =>
      simp only [step] at hs
      split at hs
      · cases hs
      · rename_i hmain
        obtain ⟨pool, hpool, rfl⟩ := Option.map_eq_some_iff.mp hs
        exact iff_of_true (hgoes hmain) trivial
  | pollLocal =>
      simp only [step] at hs
      split at hs
      · split at hs
        · rename_i hstopped
          obtain rfl := Option.some.inj hs
          exact iff_of_true (fun _ _ => inFlight_of_stopped h hstopped) trivial
        · cases hs
      · cases hs

/-- **Shutdown.** In the states of a run no accepted measurement is dropped
exactly when the stream fails, if it does, while no task is in flight. -/
theorem accepted_finish_iff (ls : List Label) :
    Run.Always step AllFinished start ls ↔ Run.Guarded step IdleAtFailure start ls :=
  Run.always_iff_guarded (J := fun s => s.pool.Valid 8) (fun _ _ _ h hs => valid_step h hs)
    (fun _ _ _ h _ hs => allFinished_step h hs) ls LocalTaskPool.valid_start
    fun ok hok => by cases hok

/-- The connection is lost right after a measurement has been handed over. -/
def lostConnection : List Label :=
  [.pollRunner 0 false, .next (some (.ok (.rawMeasurement ⟨7, "k1", 0, 1, 1, .one⟩))), .pollEnqueue,
    .next (some (.error .mqtt))]

theorem accepted_measurement_dropped :
    ∃ s, Run.exec step start lostConnection = some s ∧ s.main = .returned false
      ∧ s.pool.Returned 0 ∧ s.pool.log = [] ∧ ¬ AllFinished s := by
  refine ⟨_, rfl, rfl, rfl, rfl, fun h => ?_⟩
  exact absurd (h false rfl) (by decide)

end IngestService

end AstroPlant
