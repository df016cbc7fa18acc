import AstroPlant.Conc
import Mathlib.Algebra.GroupWithZero.Nat

/-!
# Tasks over a bounded pool

A pool of `N` connections, and tasks that acquire, use and release them. An
acquisition waits until a connection is free; everything else can always go on,
and may end the task by an error, which releases all it holds.

A task *nests* if it still has an acquisition to make while it holds a
connection. Where no task ever acquires while holding two connections, the pool
can only stop if `N` tasks nest (`progress_of_nesting_lt`): in a state without
a step, each connection is held by a task of its own that waits for a second
one.

The bound is not far from sharp: with as many nesting tasks as connections each
may come to hold one. What a task does is given beforehand, as a list of
operations, so whether it nests can be computed from its request, and a server
can be judged by how many of its requests may nest at the same time
(`progress_exec`).
-/

namespace AstroPlant

namespace Pool

/-- `await` is waiting for anything but the pool. -/
inductive Op where
  | get
  | query
  | await
  | drop
deriving DecidableEq

structure Task where
  held : Nat
  todo : List Op
deriving DecidableEq

/-- How an operation ends; an error ends the task. -/
inductive Outcome where
  | ok
  | err
deriving DecidableEq

/-- The connections that are out. -/
def taken (ts : List Task) : Nat := (ts.map (·.held)).sum

namespace Task

/-- Only an acquisition can be kept waiting. -/
def enabled (N : Nat) (t : Task) (others : List Task) : Bool :=
  match t.todo with
  | .get :: _ => t.held + taken others < N
  | _ => true

/-- The task after its next operation; a task with nothing left to do ends. -/
def next (t : Task) : Option Task :=
  match t.todo with
  | [] => none
  | .get :: rest => some ⟨t.held + 1, rest⟩
  | .drop :: rest => some ⟨t.held - 1, rest⟩
  | .query :: rest | .await :: rest => some ⟨t.held, rest⟩

/-- An acquisition is still to come at a point where a connection is held. -/
def nestsFrom (held : Nat) : List Op → Bool
  | [] => false
  | .get :: rest => 0 < held || nestsFrom (held + 1) rest
  | .drop :: rest => nestsFrom (held - 1) rest
  | .query :: rest | .await :: rest => nestsFrom held rest

/-- No acquisition is made while two connections are held. -/
def shallowFrom (held : Nat) : List Op → Bool
  | [] => true
  | .get :: rest => held ≤ 1 && shallowFrom (held + 1) rest
  | .drop :: rest => shallowFrom (held - 1) rest
  | .query :: rest | .await :: rest => shallowFrom held rest

def nests (t : Task) : Bool := nestsFrom t.held t.todo

def shallow (t : Task) : Bool := shallowFrom t.held t.todo

theorem nests_of_next {t t' : Task} (h : t.next = some t') (hn : t'.nests = true) :
    t.nests = true := by
  obtain ⟨held, todo⟩ := t
  cases todo with
  | nil => cases h
  | cons op rest =>
      cases op <;> obtain rfl := Option.some.inj h <;>
        simp_all [nests, nestsFrom]

theorem shallow_of_next {t t' : Task} (h : t.next = some t') (hs : t.shallow = true) :
    t'.shallow = true := by
  obtain ⟨held, todo⟩ := t
  cases todo with
  | nil => cases h
  | cons op rest =>
      cases op <;> obtain rfl := Option.some.inj h <;>
        simp_all [shallow, shallowFrom]

/-- A task that waits for a connection holds at most one, and nests if it holds
one. -/
theorem held_le_of_waiting {N : Nat} {t : Task} {others : List Task}
    (hs : t.shallow = true) (hw : t.enabled N others = false) :
    t.held ≤ if t.nests then 1 else 0 := by
  obtain ⟨held, todo⟩ := t
  cases todo with
  | nil => cases hw
  | cons op rest =>
      cases op with
      | get =>
          simp only [shallow, shallowFrom, Bool.and_eq_true, decide_eq_true_eq] at hs
          simp only [nests, nestsFrom, Bool.or_eq_true, decide_eq_true_eq]
          split <;> omega
      | query | await | drop => cases hw

theorem le_taken_of_waiting {N : Nat} {t : Task} {others : List Task}
    (hw : t.enabled N others = false) : N ≤ t.held + taken others := by
  obtain ⟨held, todo⟩ := t
  cases todo with
  | nil => cases hw
  | cons op rest =>
      cases op with
      | get => simpa [enabled] using hw
      | query | await | drop => cases hw

end Task

/-! ## The program -/

def program {ρ : Type} (N : Nat) (ops : ρ → List Op) : Program Unit ρ Outcome Task where
  entry r := ⟨0, ops r⟩
  advance e t others _ :=
    if t.enabled N others then
      some ((), match e with
        | .ok => t.next
        | .err => none)
    else none
  faulty _ := false

/-- How many tasks nest. -/
def nesting (ts : List Task) : Nat := ts.countP (·.nests)

/-- Some task can take a step. -/
def canStep (N : Nat) (ts : List Task) : Bool :=
  (List.range ts.length).any fun i => (ts[i]?).any (·.enabled N (ts.eraseIdx i))

/-- Unless all tasks have ended, some task can take a step. -/
def Progress (N : Nat) (c : Conc Unit Task) : Prop :=
  c.tasks ≠ [] → canStep N c.tasks = true

/-- An arrival after which at most `cap` tasks nest. -/
def WithinCap {ρ : Type} (ops : ρ → List Op) (cap : Nat) (c : Conc Unit Task)
    (l : Sched ρ Outcome) : Prop :=
  Program.Ok (fun r ts _ => nesting (ts ++ [⟨0, ops r⟩]) ≤ cap) (fun _ _ _ _ => True) c l

instance {ρ : Type} (ops : ρ → List Op) (cap : Nat) (c : Conc Unit Task)
    (l : Sched ρ Outcome) : Decidable (WithinCap ops cap c l) :=
  inferInstanceAs (Decidable (Program.Ok _ _ c l))

variable {ρ : Type} {N cap : Nat} {ops : ρ → List Op}

/-- `canStep` says what it should: a step of the program is enabled. -/
theorem canStep_iff {c : Conc Unit Task} :
    canStep N c.tasks = true ↔ ∃ i e, ((program N ops).step c (.run i e)).isSome = true := by
  simp only [canStep, List.any_eq_true, List.mem_range, Option.any_eq_true]
  constructor
  · rintro ⟨i, -, t, ht, hen⟩
    exact ⟨i, .ok, by simp [Program.step, ht, program, hen]⟩
  · rintro ⟨i, e, h⟩
    obtain ⟨c', hc'⟩ := Option.isSome_iff_exists.mp h
    rcases Program.step_cases hc' with ⟨r, hl, -⟩ | ⟨i', e', t, s', k, hl, ht, hadv, -⟩
      | ⟨i', t, hl, -⟩
    · cases hl
    · cases hl
      refine ⟨i, (List.getElem?_eq_some_iff.mp ht).1, t, ht, ?_⟩
      simp only [program] at hadv
      split at hadv
      · assumption
      · cases hadv
    · cases hl

/-! ## Progress -/

theorem taken_eraseIdx {ts : List Task} {i : Nat} {t : Task} (h : ts[i]? = some t) :
    t.held + taken (ts.eraseIdx i) = taken ts := by
  induction ts generalizing i with
  | nil => cases h
  | cons u us ih =>
      cases i with
      | zero =>
          obtain rfl := Option.some.inj h
          simp [taken]
      | succ i =>
          have := ih (i := i) h
          simp only [taken, List.eraseIdx_cons_succ, List.map_cons, List.sum_cons] at this ⊢
          omega

theorem taken_le_nesting {ts : List Task}
    (h : ∀ t ∈ ts, t.held ≤ if t.nests then 1 else 0) : taken ts ≤ nesting ts := by
  induction ts with
  | nil => exact Nat.le_refl _
  | cons t ts ih =>
      have ht := h t (by simp)
      have hts := ih fun u hu => h u (by simp [hu])
      simp only [taken, nesting, List.map_cons, List.sum_cons, List.countP_cons] at hts ⊢
      omega

/-- **Fewer nesting tasks than connections: no standstill.** -/
theorem progress_of_nesting_lt {c : Conc Unit Task} (hs : ∀ t ∈ c.tasks, t.shallow = true)
    (hn : nesting c.tasks < N) : Progress N c := by
  intro hne
  refine Decidable.byContradiction fun hstuck => ?_
  have hwait : ∀ (i : Nat) (t : Task), c.tasks[i]? = some t →
      t.enabled N (c.tasks.eraseIdx i) = false := by
    intro i t ht
    cases hen : t.enabled N (c.tasks.eraseIdx i) with
    | false => rfl
    | true =>
        refine absurd (List.any_eq_true.mpr ⟨i, ?_, by simp [ht, hen]⟩) hstuck
        exact List.mem_range.mpr (List.getElem?_eq_some_iff.mp ht).1
  have hheld : taken c.tasks ≤ nesting c.tasks := by
    refine taken_le_nesting fun t ht => ?_
    obtain ⟨i, hi⟩ := List.mem_iff_getElem?.mp ht
    exact Task.held_le_of_waiting (hs t ht) (hwait i t hi)
  obtain ⟨t, ht⟩ := List.exists_mem_of_ne_nil _ hne
  obtain ⟨i, hi⟩ := List.mem_iff_getElem?.mp ht
  have hfull := Task.le_taken_of_waiting (hwait i t hi)
  rw [taken_eraseIdx hi] at hfull
  omega

/-- What a run keeps: the number of nesting tasks stays within the cap that its
arrivals respect, and no task acquires while holding two. -/
structure Within (cap : Nat) (c : Conc Unit Task) : Prop where
  nesting_le : nesting c.tasks ≤ cap
  shallow : ∀ t ∈ c.tasks, t.shallow = true

theorem within_step (hops : ∀ r, Task.shallowFrom 0 (ops r) = true) {c c' : Conc Unit Task}
    {l : Sched ρ Outcome} (hc : Within cap c) (hok : WithinCap ops cap c l)
    (h : (program N ops).step c l = some c') : Within cap c' := by
  rcases Program.step_cases h with ⟨r, rfl, rfl⟩ | ⟨i, e, t, s', k, rfl, ht, hadv, rfl⟩
    | ⟨i, t, rfl, -, hf, -⟩
  · refine ⟨hok, fun t ht => ?_⟩
    rcases List.mem_append.mp ht with ht | ht
    · exact hc.shallow t ht
    · rw [List.mem_singleton.mp ht]
      exact hops r
  · have hk : ∀ t' ∈ k, t.next = some t' := by
      intro t' ht'
      simp only [program] at hadv
      split at hadv
      · cases e <;> cases hadv
        · exact ht'
        · cases ht'
      · cases hadv
    refine ⟨?_, fun u hu => ?_⟩
    · exact Nat.le_trans (Program.countP_replace_le ht
        fun t' ht' => Task.nests_of_next (hk t' ht')) hc.nesting_le
    · rcases Program.mem_replace hu with hu | hu
      · exact Task.shallow_of_next (hk u hu) (hc.shallow t (List.mem_of_getElem? ht))
      · exact hc.shallow u (List.mem_of_mem_eraseIdx hu)
  · cases hf

/-- **Progress along a run** whose arrivals keep the number of nesting tasks
below the size of the pool. -/
theorem progress_exec (hops : ∀ r, Task.shallowFrom 0 (ops r) = true) (hcap : cap < N)
    {ls : List (Sched ρ Outcome)} {c : Conc Unit Task}
    (hrun : Run.exec (program N ops).step ⟨(), []⟩ ls = some c)
    (hok : Run.Guarded (program N ops).step (WithinCap ops cap) ⟨(), []⟩ ls) :
    Progress N c := by
  have hw : Within cap c :=
    Run.exec_invariant_guarded (fun _ _ _ hc hl hs => within_step hops hc hl hs)
      ⟨Nat.zero_le _, fun _ ht => by cases ht⟩ hok hrun
  exact progress_of_nesting_lt hw.shallow (Nat.lt_of_le_of_lt hw.nesting_le hcap)

end Pool

end AstroPlant
