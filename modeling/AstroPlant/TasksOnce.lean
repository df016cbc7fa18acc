import AstroPlant.LocalTaskPool
import Mathlib.Data.List.Perm.Subperm

/-!
# Every task runs once

`Valid` says what the queue, the runners and the log have to do with each
other; every poll keeps it. A task is then in one place, with a runner that has
it or had it, and polling that runner starts it, whatever happens to the pool.

Three components make the invariant. `Queued` is that the queue holds the senders
of idle runners, each once. `InOrder` is that a runner's part of the log
alternates between starts and finishes, the last of which says what it is doing.
And the places a task can be in, counted, are one (`places`). `Valid.step` is the
step lemma, one poll a case. That nothing is started twice, or out of the order
in which a runner was given it, is read off the invariant; that a task is started
is a property of one poll of its runner (`started_of_poll`), which is always
possible (`pollRunner_isSome`).
-/

namespace AstroPlant

namespace LocalTaskPool

variable {N : Nat} {p p' : LocalTaskPool} {r r' i : Nat} {spawned : List Runner} {x y : Runner}
  {log : List Event}

/-! ## The parts of the invariant -/

/-- The queue holds the senders to the runners that wait. -/
def Queued (items : List Nat) (spawned : List Runner) : Prop :=
  items.Nodup ∧ ∀ r, r ∈ items ↔ spawned[r]? = some (.waiting .open)

/-- A runner has finished what it has started, but for what it is running. -/
def InOrder (log : List Event) (spawned : List Runner) : Prop :=
  ∀ r, startedBy log r = finishedBy log r ++ ((spawned[r]?).bind Runner.running?).toList

/-- In how many places a task is: it has been started or is on its way. -/
def places (log : List Event) (spawned : List Runner) (i : Nat) : Nat :=
  (starts log i).length + spawned.count (.waiting (.sent i))

theorem running_of_task (hx : x.task? = none) : x.running? = none := by
  cases x with
  | running i => cases hx
  | ready | waiting rx | stopped => rfl

theorem task_of_running (hx : x.running? = some i) : x.task? = some i := by
  cases x with
  | running j => exact hx
  | ready | waiting rx | stopped => cases hx

theorem ne_of_task (hx : x.task? = none) : x ≠ .waiting (.sent i) := by
  rintro rfl
  cases hx

theorem modify_of_getElem? (hx : spawned[r]? = some x) (f : Runner → Runner) :
    spawned.modify r f = spawned.set r (f x) := by
  rw [List.modify_eq_set_getElem?, hx]
  rfl

theorem Queued.set {items : List Nat} (h : Queued items spawned) (hx : spawned[r]? = some x)
    (hxo : x ≠ .waiting .open) (hyo : y ≠ .waiting .open) : Queued items (spawned.set r y) := by
  refine ⟨h.1, fun r' => ?_⟩
  rw [h.2, List.getElem?_set]
  split
  · rename_i hr
    subst hr
    rw [if_pos (List.getElem?_eq_some_iff.mp hx).1, hx, Option.some_inj, Option.some_inj]
    exact iff_of_false hxo hyo
  · rfl

theorem Queued.push {items : List Nat} (h : Queued items spawned) (hx : spawned[r]? = some x)
    (hxo : x ≠ .waiting .open) : Queued (items ++ [r]) (spawned.set r (.waiting .open)) := by
  have hnot : r ∉ items := by
    rw [h.2, hx, Option.some_inj]
    exact hxo
  constructor
  · rw [List.nodup_append]
    refine ⟨h.1, List.nodup_singleton r, fun a ha b hb => ?_⟩
    rw [List.mem_singleton.mp hb]
    rintro rfl
    exact hnot ha
  · intro r'
    rw [List.mem_append, List.mem_singleton, h.2, List.getElem?_set]
    split
    · rename_i hr
      subst hr
      rw [if_pos (List.getElem?_eq_some_iff.mp hx).1]
      exact iff_of_true (Or.inr rfl) rfl
    · rename_i hr
      rw [or_iff_left (Ne.symm hr)]

theorem Queued.pop {items : List Nat} (h : Queued (r :: items) spawned)
    (hyo : y ≠ .waiting .open) : Queued items (spawned.set r y) := by
  have hr := (h.2 r).mp List.mem_cons_self
  obtain ⟨hnot, hnodup⟩ := List.nodup_cons.mp h.1
  refine ⟨hnodup, fun r' => ?_⟩
  have hr' := h.2 r'
  rw [List.mem_cons] at hr'
  rw [List.getElem?_set]
  split
  · rename_i heq
    subst heq
    rw [if_pos (List.getElem?_eq_some_iff.mp hr).1, Option.some_inj]
    exact iff_of_false hnot hyo
  · rename_i hne
    rw [← hr', or_iff_right (Ne.symm hne)]

theorem InOrder.set (es : List Event) (h : InOrder log spawned) (hx : spawned[r]? = some x)
    (hes : ∀ r', r ≠ r' → startedBy es r' = [] ∧ finishedBy es r' = [])
    (hxy : x.running?.toList ++ startedBy es r = finishedBy es r ++ y.running?.toList) :
    InOrder (log ++ es) (spawned.set r y) := by
  intro r'
  have hr' := h r'
  rw [startedBy_append, finishedBy_append, List.getElem?_set]
  split
  · rename_i hr
    subst hr
    rw [hx, Option.bind_some] at hr'
    rw [if_pos (List.getElem?_eq_some_iff.mp hx).1, hr', List.append_assoc, List.append_assoc, hxy]
    rfl
  · rename_i hr
    obtain ⟨hstarted, hfinished⟩ := hes r' hr
    rw [hstarted, hfinished, List.append_nil, List.append_nil, hr']

theorem InOrder.idle (h : InOrder log spawned) (hx : spawned[r]? = some x)
    (hxy : x.running? = y.running?) : InOrder log (spawned.set r y) := by
  have hset := h.set [] (y := y) hx (fun _ _ => ⟨rfl, rfl⟩)
    (by simp [hxy, startedBy, finishedBy])
  rwa [List.append_nil] at hset

theorem InOrder.take (h : InOrder log spawned) (hx : spawned[r]? = some x)
    (hxr : x.running? = none) : InOrder (log ++ [.started r i]) (spawned.set r (.running i)) := by
  refine h.set _ hx (fun r' hr => ?_) ?_
  · simp [startedBy, finishedBy, hr]
  · rw [hxr]
    simp [startedBy, finishedBy, Runner.running?]

theorem InOrder.finish (h : InOrder log spawned) (hx : spawned[r]? = some (.running i)) :
    InOrder (log ++ [.finished r i]) (spawned.set r .ready) := by
  refine h.set _ hx (fun r' hr => ?_) ?_
  · simp [startedBy, finishedBy, hr]
  · simp [startedBy, finishedBy, Runner.running?]

/-- A runner that is not running has finished all it has started. -/
theorem InOrder.finished (h : InOrder log spawned) (hx : spawned[r]? = some x)
    (hxr : x.running? = none) (hi : .started r i ∈ log) : .finished r i ∈ log := by
  have hr := h r
  rw [hx, Option.bind_some, hxr, Option.toList_none, List.append_nil] at hr
  rw [← mem_finishedBy, ← hr, mem_startedBy]
  exact hi

theorem places_set (log : List Event) (y : Runner) (i : Nat) (hx : spawned[r]? = some x) :
    places log (spawned.set r y) i + (if x = .waiting (.sent i) then 1 else 0)
      = places log spawned i + (if y = .waiting (.sent i) then 1 else 0) := by
  have hcount := count_set_add y (.waiting (.sent i)) hx
  unfold places
  omega

theorem places_started (log : List Event) (spawned : List Runner) (r i j : Nat) :
    places (log ++ [.started r i]) spawned j
      = places log spawned j + (if i = j then 1 else 0) := by
  have hstarts : (starts [.started r i] j).length = if i = j then 1 else 0 := by
    by_cases hij : i = j <;> simp [starts, hij]
  rw [places, starts_append, List.length_append, hstarts, places]
  omega

theorem places_finished (j : Nat) :
    places (log ++ [.finished r i]) spawned j = places log spawned j := by
  have hstarts : starts [.finished r i] j = [] := rfl
  rw [places, starts_append, hstarts, List.append_nil, places]

/-! ## The invariant -/

structure Valid (numRunners : Nat) (p : LocalTaskPool) : Prop where
  spawned : p.spawned.length = numRunners
  runners : p.runners.Valid
  queued : Queued p.runners.items p.spawned
  inOrder : InOrder p.log p.spawned
  oneByOne : OneByOne p.log
  /-- A task has a place once its call has returned. -/
  once : ∀ i, places p.log p.spawned i = if p.Returned i then 1 else 0
  known : ∀ r i, .started r i ∈ p.log → r < numRunners

theorem valid_start : (start N).Valid N where
  spawned := List.length_replicate
  runners := NotifyQueue.valid_empty
  queued := by
    refine ⟨List.nodup_nil, fun r => ?_⟩
    simp only [start, NotifyQueue.empty, List.not_mem_nil, List.getElem?_replicate, false_iff]
    split <;> simp
  inOrder r := by
    simp only [start, List.getElem?_replicate]
    split <;> rfl
  oneByOne before r i after h := by simp [start] at h
  once i := by simp [places, start, starts, Returned, NotifyQueue.empty, List.count_replicate]
  known r i h := by cases h

theorem Valid.idle (h : p.Valid N) (hx : p.spawned[r]? = some x) (hxt : x.task? = none)
    (hyt : y.task? = none) (hxo : x ≠ .waiting .open) (hyo : y ≠ .waiting .open) :
    Valid N { p with spawned := p.spawned.set r y } where
  spawned := List.length_set.trans h.spawned
  runners := h.runners
  queued := h.queued.set hx hxo hyo
  inOrder := h.inOrder.idle hx ((running_of_task hxt).trans (running_of_task hyt).symm)
  oneByOne := h.oneByOne
  once i := by
    have hplaces := places_set p.log y i hx
    rw [if_neg (ne_of_task hxt), if_neg (ne_of_task hyt), h.once i] at hplaces
    exact hplaces
  known := h.known

theorem Valid.ready (h : p.Valid N) (hr : p.spawned[r]? = some .ready) :
    (p.ready r).Valid N := by
  unfold LocalTaskPool.ready
  split
  · exact h.idle hr rfl rfl (by simp) (by simp)
  · exact {
      spawned := List.length_set.trans h.spawned
      runners := h.runners.push r
      queued := by
        rw [NotifyQueue.items_push]
        exact h.queued.push hr (by simp)
      inOrder := h.inOrder.idle hr rfl
      oneByOne := h.oneByOne
      once := fun i => by
        have hplaces := places_set p.log (.waiting .open) i hr
        rw [if_neg (by simp), if_neg (by simp), h.once i] at hplaces
        exact hplaces.trans (if_congr (h.runners.returned_push r i).symm rfl rfl)
      known := h.known }

theorem Valid.take (h : p.Valid N) (hr : p.spawned[r]? = some (.waiting (.sent i))) :
    (p.take r i).Valid N where
  spawned := List.length_set.trans h.spawned
  runners := h.runners
  queued := h.queued.set hr (by simp) (by simp)
  inOrder := h.inOrder.take hr rfl
  oneByOne := h.oneByOne.concat fun r' i' he j hj => by
    obtain ⟨rfl, rfl⟩ := Event.started.inj he
    exact h.inOrder.finished hr rfl hj
  once j := by
    have hplaces := places_set p.log (.running i) j hr
    have hstarted := places_started p.log (p.spawned.set r (.running i)) r i j
    have hij : (Runner.waiting (.sent i) = .waiting (.sent j)) = (i = j) := by simp
    rw [h.once, if_neg (c := Runner.running i = _) (by simp)] at hplaces
    simp only [hij] at hplaces
    exact hstarted.trans hplaces
  known r' i' he := by
    rcases List.mem_append.mp he with he | he
    · exact h.known r' i' he
    · obtain ⟨rfl, rfl⟩ := Event.started.inj (List.mem_singleton.mp he)
      exact h.spawned ▸ (List.getElem?_eq_some_iff.mp hr).1

theorem Valid.finish (h : p.Valid N) (hr : p.spawned[r]? = some (.running i)) :
    (p.finish r i).Valid N where
  spawned := List.length_set.trans h.spawned
  runners := h.runners
  queued := h.queued.set hr (by simp) (by simp)
  inOrder := h.inOrder.finish hr
  oneByOne := h.oneByOne.concat fun _ _ he => by cases he
  once j := by
    have hplaces := places_set p.log .ready j hr
    rw [if_neg (by simp), if_neg (by simp), h.once j] at hplaces
    exact (places_finished j).trans hplaces
  known r' i' he := by
    rcases List.mem_append.mp he with he | he
    · exact h.known r' i' he
    · cases List.mem_singleton.mp he

theorem getElem?_set_self (hx : spawned[r]? = some x) : (spawned.set r y)[r]? = some y := by
  rw [List.getElem?_set_self (List.getElem?_eq_some_iff.mp hx).1]

theorem Valid.pollTask (h : p.Valid N) (hr : p.spawned[r]? = some (.running i)) (done : Bool) :
    (p.pollTask r i done).Valid N := by
  cases done with
  | false => exact h
  | true => exact (h.finish hr).ready (getElem?_set_self hr)

theorem Valid.pollRunner {done : Bool} (h : p.Valid N) (hp : p.pollRunner r done = some p') :
    p'.Valid N := by
  unfold LocalTaskPool.pollRunner at hp
  split at hp
  · cases hp
  · rename_i hr
    exact Option.some.inj hp ▸ h.ready hr
  · exact Option.some.inj hp ▸ h
  · rename_i i hr
    exact Option.some.inj hp ▸ (h.take hr).pollTask (getElem?_set_self hr) done
  · rename_i hr
    exact Option.some.inj hp ▸ h.idle hr rfl rfl (by simp) (by simp)
  · rename_i i hr
    exact Option.some.inj hp ▸ h.pollTask hr done
  · exact Option.some.inj hp ▸ h

/-! ## Calls -/

theorem Valid.enqueue (h : p.Valid N) (hp : p.enqueue = some p') : p'.Valid N := by
  unfold LocalTaskPool.enqueue at hp
  split at hp
  · cases hp
  obtain rfl := Option.some.inj hp
  exact {
    spawned := h.spawned
    runners := h.runners.call
    queued := h.queued
    inOrder := h.inOrder
    oneByOne := h.oneByOne
    once := fun i => (h.once i).trans (if_congr NotifyQueue.returned_call.symm rfl rfl)
    known := h.known }

theorem returned_set {cs : List Consumer} {c c' : Consumer} {j : Nat} (hi : cs[i]? = some c)
    (hc : c ≠ .returned) : (cs.set i c')[j]? = some .returned
      ↔ cs[j]? = some .returned ∨ i = j ∧ c' = .returned := by
  rw [List.getElem?_set]
  split
  · rename_i hij
    subst hij
    rw [if_pos (List.getElem?_eq_some_iff.mp hi).1, hi, Option.some_inj, Option.some_inj,
      or_iff_right hc]
    exact (and_iff_right rfl).symm
  · rename_i hij
    rw [or_iff_left fun h => hij h.1]

theorem Valid.pollEnqueue (h : p.Valid N) (hp : p.pollEnqueue i = some p') : p'.Valid N := by
  unfold LocalTaskPool.pollEnqueue at hp
  split at hp
  · cases hp
  · rename_i q hq
    obtain rfl := Option.some.inj hp
    have hcalls : q.items = p.runners.items
        ∧ ∀ j, q.consumers[j]? = some .returned ↔ p.Returned j := by
      rcases NotifyQueue.poll_cases hq with ⟨-, rfl, -⟩ | ⟨c, hc, hcw, ⟨y, -, hy, -⟩ | ⟨-, -, rfl⟩⟩
      · exact ⟨rfl, fun _ => Iff.rfl⟩
      · cases hy
      · refine ⟨rfl, fun j => (returned_set hc ?_).trans (or_iff_left (by simp))⟩
        rcases hcw with rfl | rfl <;> simp
    exact {
      spawned := h.spawned
      runners := h.runners.poll hq
      queued := by
        rw [hcalls.1]
        exact h.queued
      inOrder := h.inOrder
      oneByOne := h.oneByOne
      once := fun j => (h.once j).trans (if_congr (hcalls.2 j).symm rfl rfl)
      known := h.known }
  · -- the runner waits for the task, as its sender was in the queue
    rename_i q r hq
    obtain rfl := Option.some.inj hp
    rcases NotifyQueue.poll_cases hq with ⟨-, -, hr⟩
      | ⟨c, hc, hcw, ⟨y, hitems, hy, hset⟩ | ⟨-, hr, -⟩⟩
    · cases hr
    · obtain rfl := Option.some.inj hy
      have hcr : c ≠ .returned := by
        rcases hcw with rfl | rfl <;> simp
      have hqueued := h.queued
      rw [hitems] at hqueued
      have hr : p.spawned[r]? = some (.waiting .open) := (hqueued.2 r).mp List.mem_cons_self
      rw [modify_of_getElem? hr]
      exact {
        spawned := List.length_set.trans h.spawned
        runners := h.runners.poll hq
        queued := hqueued.pop (by simp [Runner.send])
        inOrder := h.inOrder.idle hr rfl
        oneByOne := h.oneByOne
        once := fun j => by
          have hplaces := places_set p.log (Runner.send i (.waiting .open)) j hr
          have hij : (Runner.send i (.waiting .open) = .waiting (.sent j)) = (i = j) := by
            simp [Runner.send]
          rw [if_neg (c := Runner.waiting Oneshot.open = _) (by simp), h.once j] at hplaces
          simp only [hij] at hplaces
          have hnot : ¬ p.Returned i := fun hi => hcr (Option.some.inj (hc.symm.trans hi))
          have hreturned : (p.runners.consumers.set i .returned)[j]? = some .returned
              ↔ p.Returned j ∨ i = j :=
            (returned_set hc hcr).trans (or_congr_right (and_iff_left rfl))
          rw [hset]
          refine hplaces.trans (Eq.trans ?_ (if_congr hreturned.symm rfl rfl))
          by_cases hj : i = j
          · subst hj
            simp [hnot]
          · simp [hj]
        known := h.known }
    · cases hr

/-- The senders in the queue are dropped, one after the other. -/
theorem close_all {items : List Nat} (hqueued : Queued items spawned)
    (horder : InOrder log spawned) :
    let closed := items.foldl (fun rs r => rs.modify r Runner.close) spawned
    closed.length = spawned.length ∧ Queued [] closed ∧ InOrder log closed
      ∧ ∀ i, places log closed i = places log spawned i := by
  induction items generalizing spawned with
  | nil => exact ⟨rfl, hqueued, horder, fun _ => rfl⟩
  | cons r items ih =>
      have hr : spawned[r]? = some (.waiting .open) := (hqueued.2 r).mp List.mem_cons_self
      have hpop := hqueued.pop (y := Runner.close (.waiting .open)) (by simp [Runner.close])
      obtain ⟨hlength, hrest, horder', hplaces⟩ := ih hpop (horder.idle hr rfl)
      rw [List.foldl_cons, modify_of_getElem? hr]
      refine ⟨hlength.trans List.length_set, hrest, horder', fun i => (hplaces i).trans ?_⟩
      have hset := places_set log (Runner.close (.waiting .open)) i hr
      rwa [if_neg (by simp), if_neg (by simp [Runner.close])] at hset

theorem Valid.drop (h : p.Valid N) (hp : p.drop = some p') : p'.Valid N := by
  unfold LocalTaskPool.drop at hp
  split at hp
  · obtain rfl := Option.some.inj hp
    obtain ⟨hlength, hqueued, horder, hplaces⟩ := close_all h.queued h.inOrder
    exact {
      spawned := hlength.trans h.spawned
      runners := h.runners.clear
      queued := hqueued
      inOrder := horder
      oneByOne := h.oneByOne
      once := fun i => (hplaces i).trans (h.once i)
      known := h.known }
  · cases hp

theorem Valid.step {l : Label} (h : p.Valid N) (hp : p.step l = some p') : p'.Valid N := by
  cases l with
  | enqueue => exact h.enqueue hp
  | pollEnqueue i => exact h.pollEnqueue hp
  | pollRunner r done => exact h.pollRunner hp
  | drop => exact h.drop hp

theorem valid_exec {ls : List Label} (hp : Run.exec step (start N) ls = some p) : p.Valid N :=
  Run.exec_invariant (fun _ _ _ h hs => h.step hs) valid_start hp

/-! ## Where a task is -/

theorem Valid.started_or_sent (h : p.Valid N) (hi : p.Returned i) :
    ∃ r < N, starts p.log i = [.started r i]
      ∨ starts p.log i = [] ∧ p.spawned[r]? = some (.waiting (.sent i)) := by
  have honce := h.once i
  rw [if_pos hi] at honce
  unfold places at honce
  by_cases hstarts : (starts p.log i).length = 0
  · have hpos : 0 < p.spawned.count (.waiting (.sent i)) := by omega
    obtain ⟨r, hr⟩ := List.mem_iff_getElem?.mp (List.count_pos_iff.mp hpos)
    exact ⟨r, h.spawned ▸ (List.getElem?_eq_some_iff.mp hr).1,
      Or.inr ⟨List.length_eq_zero_iff.mp hstarts, hr⟩⟩
  · obtain ⟨e, he⟩ := List.length_eq_one_iff.mp (show (starts p.log i).length = 1 by omega)
    obtain ⟨r, rfl, hmem⟩ := mem_starts.mp (he ▸ List.mem_singleton.mpr rfl)
    exact ⟨r, h.known r i hmem, Or.inl he⟩

theorem started_of_starts (h : starts log i = [.started r i]) : .started r i ∈ log := by
  obtain ⟨-, -, hmem⟩ := mem_starts.mp (h ▸ List.mem_singleton.mpr rfl)
  exact hmem

/-- A task whose call has returned is started at most once. -/
theorem Valid.starts_eq (h : p.Valid N) (hr : .started r i ∈ p.log) :
    starts p.log i = [.started r i] := by
  have hmem : .started r i ∈ starts p.log i := mem_starts.mpr ⟨r, rfl, hr⟩
  have hlength : (starts p.log i).length ≤ 1 := by
    have honce := h.once i
    unfold places at honce
    split at honce <;> omega
  have hpos := List.length_pos_of_mem hmem
  obtain ⟨e, he⟩ := List.length_eq_one_iff.mp (show (starts p.log i).length = 1 by omega)
  rw [he] at hmem ⊢
  rw [List.mem_singleton.mp hmem]

theorem mem_inFlight : i ∈ p.inFlight ↔ p.Returned i ∧ ∀ r, .finished r i ∉ p.log := by
  simp only [inFlight, List.mem_filter, List.mem_range, Bool.and_eq_true, decide_eq_true_eq,
    List.all_eq_true]
  constructor
  · rintro ⟨-, hi, hall⟩
    refine ⟨hi, fun r hr => ?_⟩
    have hne := hall _ hr
    simp at hne
  · rintro ⟨hi, hnone⟩
    refine ⟨(List.getElem?_eq_some_iff.mp hi).1, hi, fun e he => ?_⟩
    cases e with
    | started r i' => rfl
    | finished r i' =>
        refine decide_eq_true ?_
        rintro rfl
        exact hnone r he

theorem Valid.inFlight_subset (h : p.Valid N) :
    p.inFlight ⊆ p.spawned.filterMap Runner.task? := by
  intro i hi
  obtain ⟨hreturned, hnone⟩ := mem_inFlight.mp hi
  obtain ⟨r, -, hr | ⟨-, hr⟩⟩ := h.started_or_sent hreturned
  · have hmem : i ∈ startedBy p.log r := mem_startedBy.mpr (started_of_starts hr)
    rw [h.inOrder r, List.mem_append, or_iff_right (mt mem_finishedBy.mp (hnone r)),
      Option.mem_toList, Option.bind_eq_some_iff] at hmem
    obtain ⟨x, hx, hrunning⟩ := hmem
    exact List.mem_filterMap.mpr ⟨x, List.mem_of_getElem? hx, task_of_running hrunning⟩
  · exact List.mem_filterMap.mpr ⟨_, List.mem_of_getElem? hr, rfl⟩

theorem Valid.inFlight_le (h : p.Valid N) : p.inFlight.length ≤ N := by
  have hnodup : p.inFlight.Nodup := List.nodup_range.filter _
  calc p.inFlight.length
      ≤ (p.spawned.filterMap Runner.task?).length := (hnodup.subperm h.inFlight_subset).length_le
    _ ≤ p.spawned.length := List.length_filterMap_le ..
    _ = N := h.spawned

/-! ## A task that has been sent -/

/-- Whatever happens to a runner, it is not what another runner's poll does. -/
theorem pollRunner_other {done : Bool} (hr : r ≠ r') (hp : p.pollRunner r' done = some p') :
    p'.spawned[r]? = p.spawned[r]? := by
  have hset : ∀ (rs : List Runner) y, (rs.set r' y)[r]? = rs[r]? :=
    fun rs y => List.getElem?_set_ne (Ne.symm hr)
  have hready : ∀ q : LocalTaskPool, (q.ready r').spawned[r]? = q.spawned[r]? := by
    intro q
    unfold LocalTaskPool.ready
    split <;> exact hset _ _
  have htask : ∀ (q : LocalTaskPool) i, (q.pollTask r' i done).spawned[r]? = q.spawned[r]? := by
    intro q i
    cases done with
    | false => rfl
    | true => exact (hready _).trans (hset _ _)
  unfold LocalTaskPool.pollRunner at hp
  split at hp
  · cases hp
  · exact Option.some.inj hp ▸ hready p
  · exact Option.some.inj hp ▸ rfl
  · exact Option.some.inj hp ▸ (htask _ _).trans (hset _ _)
  · exact Option.some.inj hp ▸ hset _ _
  · exact Option.some.inj hp ▸ htask _ _
  · exact Option.some.inj hp ▸ rfl

theorem log_pollTask (p : LocalTaskPool) (r i : Nat) (done : Bool) :
    p.log <+: (p.pollTask r i done).log := by
  cases done with
  | false => exact List.prefix_rfl
  | true =>
      have hready : ((p.finish r i).ready r).log = (p.finish r i).log := by
        unfold LocalTaskPool.ready
        split <;> rfl
      rw [LocalTaskPool.pollTask, if_pos rfl, hready]
      exact List.prefix_append _ _

theorem log_step {l : Label} (hp : p.step l = some p') : p.log <+: p'.log := by
  cases l with
  | enqueue =>
      simp only [LocalTaskPool.step, LocalTaskPool.enqueue] at hp
      split at hp
      · cases hp
      · exact Option.some.inj hp ▸ List.prefix_rfl
  | pollEnqueue i =>
      simp only [LocalTaskPool.step, LocalTaskPool.pollEnqueue] at hp
      split at hp
      · cases hp
      · exact Option.some.inj hp ▸ List.prefix_rfl
      · exact Option.some.inj hp ▸ List.prefix_rfl
  | pollRunner r done =>
      simp only [LocalTaskPool.step, LocalTaskPool.pollRunner] at hp
      split at hp
      · cases hp
      · refine Option.some.inj hp ▸ ?_
        unfold LocalTaskPool.ready
        split <;> exact List.prefix_rfl
      · exact Option.some.inj hp ▸ List.prefix_rfl
      · rename_i i hr
        have htake : p.log <+: (p.take r i).log := List.prefix_append _ _
        exact Option.some.inj hp ▸ htake.trans (log_pollTask _ _ _ _)
      · exact Option.some.inj hp ▸ List.prefix_rfl
      · exact Option.some.inj hp ▸ log_pollTask _ _ _ _
      · exact Option.some.inj hp ▸ List.prefix_rfl
  | drop =>
      simp only [LocalTaskPool.step, LocalTaskPool.drop] at hp
      split at hp
      · exact Option.some.inj hp ▸ List.prefix_rfl
      · cases hp

theorem started_exec {ls : List Label} (hr : .started r i ∈ p.log)
    (hp : Run.exec step p ls = some p') : .started r i ∈ p'.log :=
  Run.exec_invariant (I := fun p => .started r i ∈ p.log)
    (fun _ _ _ h hs => (log_step hs).subset h) hr hp

theorem modify_sent {rs : List Runner} (f : Runner → Runner)
    (hf : f (.waiting (.sent i)) = .waiting (.sent i)) (hr : rs[r]? = some (.waiting (.sent i))) :
    (rs.modify r' f)[r]? = some (.waiting (.sent i)) := by
  rw [List.getElem?_modify, hr]
  split
  · exact congrArg some hf
  · rfl

/-- A task that has been sent stays there until its runner is polled, also when
the pool is dropped. -/
theorem sent_step {l : Label} (hr : p.spawned[r]? = some (.waiting (.sent i)))
    (hl : ∀ done, l ≠ .pollRunner r done) (hp : p.step l = some p') :
    p'.spawned[r]? = some (.waiting (.sent i)) := by
  cases l with
  | enqueue =>
      simp only [LocalTaskPool.step, LocalTaskPool.enqueue] at hp
      split at hp
      · cases hp
      · exact Option.some.inj hp ▸ hr
  | pollEnqueue j =>
      simp only [LocalTaskPool.step, LocalTaskPool.pollEnqueue] at hp
      split at hp
      · cases hp
      · exact Option.some.inj hp ▸ hr
      · exact Option.some.inj hp ▸ modify_sent _ rfl hr
  | pollRunner r' done =>
      have hne : r ≠ r' := fun h => hl done (h ▸ rfl)
      exact (pollRunner_other hne hp).trans hr
  | drop =>
      simp only [LocalTaskPool.step, LocalTaskPool.drop] at hp
      split at hp
      · refine Option.some.inj hp ▸ ?_
        show (p.runners.items.foldl (fun rs r => rs.modify r Runner.close) p.spawned)[r]? = _
        generalize p.spawned = rs at hr
        induction p.runners.items generalizing rs with
        | nil => exact hr
        | cons r' items ih => exact ih _ (modify_sent _ rfl hr)
      · cases hp

theorem started_of_poll {done : Bool} (hr : p.spawned[r]? = some (.waiting (.sent i)))
    (hp : p.pollRunner r done = some p') : .started r i ∈ p'.log := by
  rw [LocalTaskPool.pollRunner, hr] at hp
  refine Option.some.inj hp ▸ (log_pollTask _ _ _ _).subset ?_
  exact List.mem_append_right _ (List.mem_singleton.mpr rfl)

theorem started_of_sent {ls : List Label} (hr : p.spawned[r]? = some (.waiting (.sent i)))
    (hp : Run.exec step p ls = some p') (hpoll : ∃ done, .pollRunner r done ∈ ls) :
    .started r i ∈ p'.log := by
  obtain ⟨done, hmem⟩ := hpoll
  induction ls generalizing p with
  | nil => cases hmem
  | cons l ls ih =>
      obtain ⟨p₁, hstep, hrest⟩ := Run.exec_cons.mp hp
      by_cases hl : ∃ done', l = .pollRunner r done'
      · obtain ⟨done', rfl⟩ := hl
        exact started_exec (started_of_poll hr hstep) hrest
      · have hne : ∀ done', l ≠ .pollRunner r done' := fun done' h => hl ⟨done', h⟩
        rcases List.mem_cons.mp hmem with h | hmem
        · exact absurd h.symm (hne done)
        · exact ih (sent_step hr hne hstep) hrest hmem

theorem pollRunner_isSome (hr : r < p.spawned.length) (done : Bool) :
    (p.pollRunner r done).isSome = true := by
  unfold LocalTaskPool.pollRunner
  rw [List.getElem?_eq_getElem hr]
  split <;> simp_all

/-- At any time at most `N` tasks are in flight; a task whose call has returned
has been started once, or will be by the next poll of the runner that has it;
runners take one task after the other; and no call sleeps on while a runner
waits. -/
theorem tasks_once {ls : List Label} (hrun : Run.exec step (start N) ls = some p) :
    p.inFlight.length ≤ N
      ∧ (∀ i, p.Returned i → ∃ r < N,
        (starts p.log i = [.started r i]
            ∨ starts p.log i = [] ∧ p.spawned[r]? = some (.waiting (.sent i)))
          ∧ ∀ ls' p', Run.exec step p ls' = some p' →
            (∀ done, (p'.pollRunner r done).isSome = true)
            ∧ (starts p.log i = [.started r i] ∨ (∃ done, .pollRunner r done ∈ ls') →
              starts p'.log i = [.started r i]))
      ∧ OneByOne p.log
      ∧ ¬ p.runners.Stalled := by
  have h := valid_exec hrun
  refine ⟨h.inFlight_le, fun i hi => ?_, h.oneByOne, h.runners.not_stalled⟩
  obtain ⟨r, hrN, hplace⟩ := h.started_or_sent hi
  refine ⟨r, hrN, hplace, fun ls' p' hrun' => ?_⟩
  have h' : p'.Valid N := Run.exec_invariant (fun _ _ _ h hs => h.step hs) h hrun'
  refine ⟨pollRunner_isSome (h'.spawned ▸ hrN), fun hpoll => ?_⟩
  have hstarted : starts p.log i = [.started r i] → .started r i ∈ p'.log :=
    fun hstarts => started_exec (started_of_starts hstarts) hrun'
  refine h'.starts_eq ?_
  rcases hplace with hstarts | ⟨hnone, hsent⟩
  · exact hstarted hstarts
  · rcases hpoll with hstarts | hpoll
    · exact hstarted hstarts
    · exact started_of_sent hsent hrun' hpoll

/-- The second call sleeps until the only runner has finished the first task;
the pool is dropped while the second task is on its way. -/
theorem tasks_once_overlapping :
    ∃ p, Run.exec step (start 1) [.pollRunner 0 false, .enqueue, .pollEnqueue 0, .enqueue,
        .pollEnqueue 1, .pollRunner 0 true, .pollEnqueue 1, .drop, .pollRunner 0 true] = some p
      ∧ p.log = [.started 0 0, .finished 0 0, .started 0 1, .finished 0 1]
      ∧ p.inFlight.length ≤ 1 ∧ ¬ p.runners.Stalled := by
  have hrun : ∃ p, Run.exec step (start 1) [.pollRunner 0 false, .enqueue, .pollEnqueue 0,
      .enqueue, .pollEnqueue 1, .pollRunner 0 true, .pollEnqueue 1, .drop, .pollRunner 0 true]
      = some p ∧ p.log = [.started 0 0, .finished 0 0, .started 0 1, .finished 0 1] :=
    ⟨_, rfl, rfl⟩
  obtain ⟨p, hrun, hlog⟩ := hrun
  obtain ⟨hle, -, -, hstalled⟩ := tasks_once hrun
  exact ⟨p, hrun, hlog, hle, hstalled⟩

end LocalTaskPool

end AstroPlant
