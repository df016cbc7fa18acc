import AstroPlant.Run
import Mathlib.Data.List.Perm.Basic

/-!
# Tasks over a shared state

A server is a shared state and a list of unfinished tasks. Three things can
happen:

- `spawn r`: a request `r` arrives and becomes a task;
- `run i e`: the `i`-th task takes its next atomic step. The step may read the
  other tasks (whoever holds a lock or a connection is one of them); `e` is what
  the environment decides in it, and a step that is not enabled is blocked;
- `fault i`: the `i`-th task ends without its step having had any effect (a
  database error, a rolled back transaction).

The proof rule is the usual one for such programs: a global invariant `I` of
the shared state, a local assertion `T` about each task, and for each atomic
step that it re-establishes `I`, leaves its own task in a state with `T` and
does not break `T` of the others.
-/

namespace AstroPlant

/-- A shared state and the tasks that have not ended. -/
structure Conc (σ τ : Type) where
  store : σ
  tasks : List τ

/-- Who moves next; `ε` is what the environment decides in a step. -/
inductive Sched (ρ ε : Type) where
  | spawn (r : ρ)
  | run (i : Nat) (e : ε)
  | fault (i : Nat)

/-- What requests become, how a task advances among the others, and which
tasks can end by a fault in the state they are in. -/
structure Program (σ ρ ε τ : Type) where
  entry : ρ → τ
  advance : ε → τ → List τ → σ → Option (σ × Option τ)
  faulty : τ → Bool

namespace Program

variable {σ ρ ε τ : Type}

/-- The task list after the `i`-th task moved on to `k`, or ended. -/
def replace (ts : List τ) (i : Nat) : Option τ → List τ
  | some t => ts.set i t
  | none => ts.eraseIdx i

def step (P : Program σ ρ ε τ) (c : Conc σ τ) : Sched ρ ε → Option (Conc σ τ)
  | .spawn r => some { c with tasks := c.tasks ++ [P.entry r] }
  | .run i e =>
      match c.tasks[i]? with
      | none => none
      | some t =>
          match P.advance e t (c.tasks.eraseIdx i) c.store with
          | none => none
          | some (s', k) => some { store := s', tasks := replace c.tasks i k }
  | .fault i =>
      match c.tasks[i]? with
      | none => none
      | some t =>
          if P.faulty t then some { c with tasks := c.tasks.eraseIdx i } else none

/-- The condition on a run's steps made of a condition on arrivals and one on
the steps of tasks. -/
def Ok (okSpawn : ρ → List τ → σ → Prop) (okRun : ε → τ → List τ → σ → Prop)
    (c : Conc σ τ) : Sched ρ ε → Prop
  | .spawn r => okSpawn r c.tasks c.store
  | .run i e => ∀ t ∈ c.tasks[i]?, okRun e t (c.tasks.eraseIdx i) c.store
  | .fault _ => True

instance Ok.decidable {okSpawn : ρ → List τ → σ → Prop} {okRun : ε → τ → List τ → σ → Prop}
    [∀ r ts s, Decidable (okSpawn r ts s)] [∀ e t ts s, Decidable (okRun e t ts s)]
    (c : Conc σ τ) : ∀ l : Sched ρ ε, Decidable (Ok okSpawn okRun c l)
  | .spawn r => inferInstanceAs (Decidable (okSpawn r c.tasks c.store))
  | .run i e =>
      inferInstanceAs (Decidable (∀ t ∈ c.tasks[i]?, okRun e t (c.tasks.eraseIdx i) c.store))
  | .fault _ => .isTrue trivial

theorem ok_alone {okSpawn : ρ → List τ → σ → Prop} {okRun : ε → τ → List τ → σ → Prop}
    {c : Conc σ τ} {t : τ} {e : ε} (htasks : c.tasks = [t]) (h : okRun e t [] c.store) :
    Ok okSpawn okRun c (.run 0 e) := by
  intro t' ht
  rw [htasks] at ht ⊢
  obtain rfl := Option.some.inj ht
  exact h

/-! ## What a step can do -/

theorem mem_replace {ts : List τ} {i : Nat} {k : Option τ} {u : τ}
    (h : u ∈ replace ts i k) : u ∈ k ∨ u ∈ ts.eraseIdx i := by
  cases k with
  | none => exact Or.inr h
  | some t =>
      obtain ⟨j, hj, rfl⟩ := List.mem_iff_getElem.mp h
      rw [replace, List.length_set] at hj
      by_cases hij : i = j
      · subst hij
        left
        simp [replace]
      · right
        refine List.mem_eraseIdx_iff_getElem?.mpr ⟨j, fun hji => hij hji.symm, ?_⟩
        simp [replace, hij, hj]

theorem mem_replace_of_mem {ts : List τ} {i : Nat} {k : Option τ} {u : τ}
    (h : u ∈ ts.eraseIdx i) : u ∈ replace ts i k := by
  cases k with
  | none => exact h
  | some t =>
      obtain ⟨j, hji, hj⟩ := List.mem_eraseIdx_iff_getElem?.mp h
      refine List.mem_iff_getElem?.mpr ⟨j, ?_⟩
      rw [replace, List.getElem?_set_ne (Ne.symm hji)]
      exact hj

theorem mem_replace_self {ts : List τ} {i : Nat} {t t' : τ} (h : ts[i]? = some t) :
    t' ∈ replace ts i (some t') := by
  refine List.mem_iff_getElem?.mpr ⟨i, ?_⟩
  rw [replace, List.getElem?_set_self (List.getElem?_eq_some_iff.mp h).1]

theorem perm_of_getElem? {ts : List τ} {i : Nat} {t : τ} (h : ts[i]? = some t) :
    ts.Perm (t :: ts.eraseIdx i) := by
  obtain ⟨hi, rfl⟩ := List.getElem?_eq_some_iff.mp h
  exact (List.getElem_cons_eraseIdx_perm hi).symm

theorem replace_perm {ts : List τ} {i : Nat} {t : τ} (k : Option τ) (h : ts[i]? = some t) :
    (replace ts i k).Perm (k.toList ++ ts.eraseIdx i) := by
  obtain ⟨hi, -⟩ := List.getElem?_eq_some_iff.mp h
  cases k with
  | none => exact .refl _
  | some t' => exact List.set_perm_cons_eraseIdx hi t'

theorem forall_mem_replace {ts : List τ} {i : Nat} {t : τ} {k : Option τ} {p : τ → Prop}
    (h : ts[i]? = some t) :
    (∀ u ∈ replace ts i k, p u) ↔ (∀ u ∈ k, p u) ∧ ∀ u ∈ ts.eraseIdx i, p u := by
  simp only [(replace_perm k h).mem_iff, List.mem_append, Option.mem_toList, or_imp, forall_and]
  rfl

/-- A step of one task does not add a task with `p`, unless the task turns into
one. -/
theorem countP_replace_le {ts : List τ} {i : Nat} {t : τ} {k : Option τ} {p : τ → Bool}
    (ht : ts[i]? = some t) (hk : ∀ t' ∈ k, p t' = true → p t = true) :
    (replace ts i k).countP p ≤ ts.countP p := by
  induction ts generalizing i with
  | nil => cases ht
  | cons u us ih =>
      cases i with
      | zero =>
          obtain rfl := Option.some.inj ht
          cases k with
          | none =>
              simp only [replace, List.eraseIdx_cons_zero, List.countP_cons]
              omega
          | some t' =>
              have := hk t' rfl
              simp only [replace, List.set_cons_zero, List.countP_cons]
              split <;> split <;> simp_all
      | succ i =>
          have := ih (i := i) ht
          cases k with
          | none =>
              simp only [replace, List.eraseIdx_cons_succ, List.countP_cons] at this ⊢
              omega
          | some t' =>
              simp only [replace, List.set_cons_succ, List.countP_cons] at this ⊢
              omega

/-- Everything a step can do, guards included. -/
theorem step_cases {P : Program σ ρ ε τ} {c c' : Conc σ τ} {l : Sched ρ ε}
    (h : P.step c l = some c') :
    (∃ r, l = .spawn r ∧ c' = { c with tasks := c.tasks ++ [P.entry r] })
      ∨ (∃ i e t s' k, l = .run i e ∧ c.tasks[i]? = some t
          ∧ P.advance e t (c.tasks.eraseIdx i) c.store = some (s', k)
          ∧ c' = { store := s', tasks := replace c.tasks i k })
      ∨ (∃ i t, l = .fault i ∧ c.tasks[i]? = some t ∧ P.faulty t = true
          ∧ c' = { c with tasks := c.tasks.eraseIdx i }) := by
  cases l with
  | spawn r => exact Or.inl ⟨r, rfl, (Option.some.inj h).symm⟩
  | run i e =>
      refine Or.inr (Or.inl ?_)
      simp only [step] at h
      split at h
      · cases h
      · rename_i t ht
        split at h
        · cases h
        · rename_i s' k hadv
          exact ⟨i, e, t, s', k, rfl, ht, hadv, (Option.some.inj h).symm⟩
  | fault i =>
      refine Or.inr (Or.inr ?_)
      simp only [step] at h
      split at h
      · cases h
      · rename_i t ht
        split at h
        · rename_i hf
          exact ⟨i, t, rfl, ht, hf, (Option.some.inj h).symm⟩
        · cases h

theorem step_run {P : Program σ ρ ε τ} {c : Conc σ τ} {i : Nat} {t : τ} {e : ε} {s' : σ}
    {k : Option τ} (ht : c.tasks[i]? = some t)
    (h : P.advance e t (c.tasks.eraseIdx i) c.store = some (s', k)) :
    P.step c (.run i e) = some ⟨s', replace c.tasks i k⟩ := by
  simp only [step, ht, h]

theorem map_replace {α β : Type} (f : α → β) (ts : List α) (i : Nat) (k : Option α) :
    (replace ts i k).map f = replace (ts.map f) i (k.map f) := by
  cases k with
  | none => simp [replace, List.eraseIdx_map]
  | some t => simp [replace, List.map_set]

theorem exec_run_alone {P : Program σ ρ ε τ} {s s' : σ} {t : τ} {e : ε} {k : Option τ}
    {ls : List (Sched ρ ε)} (h : P.advance e t [] s = some (s', k)) :
    Run.exec P.step ⟨s, [t]⟩ (.run 0 e :: ls) = Run.exec P.step ⟨s', k.toList⟩ ls := by
  have hstep : P.step ⟨s, [t]⟩ (.run 0 e) = some ⟨s', k.toList⟩ := by
    simp only [step, List.getElem?_cons_zero, List.eraseIdx_cons_zero, h]
    cases k <;> rfl
  simp only [Run.exec, hstep]

/-! ## The invariant rule -/

/-- The global invariant and the local assertion of every task. -/
def Holds (I : σ → Prop) (T : σ → τ → Prop) (c : Conc σ τ) : Prop :=
  I c.store ∧ ∀ t ∈ c.tasks, T c.store t

/-- **The rule for one step.** An arriving task has `T`; a step of a task
keeps `I`, leaves the task with `T` and breaks no other task's `T`. -/
theorem holds_step (P : Program σ ρ ε τ) {I : σ → Prop} {T : σ → τ → Prop}
    {okSpawn : ρ → List τ → σ → Prop} {okRun : ε → τ → List τ → σ → Prop}
    (hspawn : ∀ r ts s, okSpawn r ts s → I s → T s (P.entry r))
    (hrun : ∀ e t ts s s' k, okRun e t ts s → I s → T s t → (∀ u ∈ ts, T s u) →
      P.advance e t ts s = some (s', k) →
      I s' ∧ (∀ t' ∈ k, T s' t') ∧ ∀ u ∈ ts, T s' u)
    {c c' : Conc σ τ} {l : Sched ρ ε} (hc : Holds I T c)
    (hok : Ok okSpawn okRun c l) (h : P.step c l = some c') : Holds I T c' := by
  obtain ⟨hI, hT⟩ := hc
  rcases step_cases h with ⟨r, rfl, rfl⟩ | ⟨i, e, t, s', k, rfl, ht, hadv, rfl⟩
    | ⟨i, t, rfl, ht, -, rfl⟩
  · refine ⟨hI, fun u hu => ?_⟩
    rcases List.mem_append.mp hu with hu | hu
    · exact hT u hu
    · rw [List.mem_singleton.mp hu]
      exact hspawn r _ _ hok hI
  · have hothers : ∀ u ∈ c.tasks.eraseIdx i, T c.store u :=
      fun u hu => hT u (List.mem_of_mem_eraseIdx hu)
    obtain ⟨hI', hk, hts⟩ := hrun e t _ _ s' k (hok t ht) hI
      (hT t (List.mem_of_getElem? ht)) hothers hadv
    exact ⟨hI', fun u hu => (mem_replace hu).elim (hk u) (hts u)⟩
  · exact ⟨hI, fun u hu => hT u (List.mem_of_mem_eraseIdx hu)⟩

/-- **The rule for runs**, over the steps that meet the two conditions. -/
theorem holds_exec_guarded (P : Program σ ρ ε τ) {I : σ → Prop} {T : σ → τ → Prop}
    {okSpawn : ρ → List τ → σ → Prop} {okRun : ε → τ → List τ → σ → Prop}
    (hspawn : ∀ r ts s, okSpawn r ts s → I s → T s (P.entry r))
    (hrun : ∀ e t ts s s' k, okRun e t ts s → I s → T s t → (∀ u ∈ ts, T s u) →
      P.advance e t ts s = some (s', k) →
      I s' ∧ (∀ t' ∈ k, T s' t') ∧ ∀ u ∈ ts, T s' u)
    {c c' : Conc σ τ} {ls : List (Sched ρ ε)} (hc : Holds I T c)
    (hok : Run.Guarded P.step (Ok okSpawn okRun) c ls)
    (h : Run.exec P.step c ls = some c') : Holds I T c' :=
  Run.exec_invariant_guarded
    (fun _ _ _ hI hl hs => holds_step P hspawn hrun hI hl hs) hc hok h

/-- The assertions of all tasks, and a relation between any two of them. -/
def HoldsPairwise (I : σ → Prop) (T : σ → τ → Prop) (R : τ → τ → Prop) (c : Conc σ τ) : Prop :=
  Holds I T c ∧ c.tasks.Pairwise R

/-- **The rule for one step, with a relation between tasks**: what one task has
locked and another one has not, for example. -/
theorem holdsPairwise_step (P : Program σ ρ ε τ) {I : σ → Prop} {T : σ → τ → Prop}
    {R : τ → τ → Prop} {okSpawn : ρ → List τ → σ → Prop} {okRun : ε → τ → List τ → σ → Prop}
    (hsymm : ∀ t u, R t u → R u t)
    (hspawn : ∀ r ts s, okSpawn r ts s → I s → T s (P.entry r) ∧ ∀ u, R (P.entry r) u)
    (hrun : ∀ e t ts s s' k, okRun e t ts s → I s → T s t → (∀ u ∈ ts, T s u ∧ R t u) →
      P.advance e t ts s = some (s', k) →
      I s' ∧ (∀ t' ∈ k, T s' t' ∧ ∀ u ∈ ts, R t' u) ∧ ∀ u ∈ ts, T s' u)
    {c c' : Conc σ τ} {l : Sched ρ ε} (hc : HoldsPairwise I T R c)
    (hok : Ok okSpawn okRun c l) (h : P.step c l = some c') : HoldsPairwise I T R c' := by
  obtain ⟨⟨hI, hT⟩, hR⟩ := hc
  rcases step_cases h with ⟨r, rfl, rfl⟩ | ⟨i, e, t, s', k, rfl, ht, hadv, rfl⟩
    | ⟨i, t, rfl, ht, -, rfl⟩
  · obtain ⟨hTr, hRr⟩ := hspawn r _ _ hok hI
    refine ⟨⟨hI, fun u hu => ?_⟩, ?_⟩
    · rcases List.mem_append.mp hu with hu | hu
      · exact hT u hu
      · rw [List.mem_singleton.mp hu]
        exact hTr
    · refine List.pairwise_append.mpr ⟨hR, List.pairwise_singleton _ _, fun u _ v hv => ?_⟩
      rw [List.mem_singleton.mp hv]
      exact hsymm _ _ (hRr u)
  · have hothers : (t :: c.tasks.eraseIdx i).Pairwise R :=
      ((perm_of_getElem? ht).pairwise_iff fun {t u} => hsymm t u).mp hR
    obtain ⟨hRt, hRts⟩ := List.pairwise_cons.mp hothers
    obtain ⟨hI', hk, hts⟩ := hrun e t _ _ s' k (hok t ht) hI
      (hT t (List.mem_of_getElem? ht))
      (fun u hu => ⟨hT u (List.mem_of_mem_eraseIdx hu), hRt u hu⟩) hadv
    refine ⟨⟨hI', fun u hu => (mem_replace hu).elim (fun hu => (hk u hu).1) (hts u)⟩, ?_⟩
    refine ((replace_perm k ht).pairwise_iff fun {t u} => hsymm t u).mpr ?_
    cases k with
    | none => exact hRts
    | some t' => exact List.pairwise_cons.mpr ⟨(hk t' rfl).2, hRts⟩
  · exact ⟨⟨hI, fun u hu => hT u (List.mem_of_mem_eraseIdx hu)⟩,
      hR.sublist (List.eraseIdx_sublist _ _)⟩

theorem ok_true (c : Conc σ τ) (l : Sched ρ ε) :
    Ok (fun _ _ _ => True) (fun _ _ _ _ => True) c l := by
  cases l with
  | spawn r => trivial
  | run i e => exact fun _ _ => trivial
  | fault i => trivial

theorem holds_exec (P : Program σ ρ ε τ) {I : σ → Prop} {T : σ → τ → Prop}
    (hspawn : ∀ r s, I s → T s (P.entry r))
    (hrun : ∀ e t ts s s' k, I s → T s t → (∀ u ∈ ts, T s u) →
      P.advance e t ts s = some (s', k) →
      I s' ∧ (∀ t' ∈ k, T s' t') ∧ ∀ u ∈ ts, T s' u)
    {c c' : Conc σ τ} {ls : List (Sched ρ ε)} (hc : Holds I T c)
    (h : Run.exec P.step c ls = some c') : Holds I T c' :=
  Run.exec_invariant
    (fun c l _ hI hs => holds_step P (fun r _ s _ hI => hspawn r s hI)
      (fun e t ts s s' k _ => hrun e t ts s s' k) hI (ok_true c l) hs) hc h

/-- The rule when tasks need no assertion of their own: every atomic step keeps
the global invariant. -/
theorem store_exec (P : Program σ ρ ε τ) {I : σ → Prop}
    (hrun : ∀ e t ts s s' k, I s → P.advance e t ts s = some (s', k) → I s')
    {c c' : Conc σ τ} {ls : List (Sched ρ ε)} (hc : I c.store)
    (h : Run.exec P.step c ls = some c') : I c'.store :=
  (holds_exec P (I := I) (T := fun _ _ => True) (fun _ _ _ => trivial)
    (fun e t ts s s' k hI _ _ ha =>
      ⟨hrun e t ts s s' k hI ha, fun _ _ => trivial, fun _ _ => trivial⟩)
    ⟨hc, fun _ _ => trivial⟩ h).1

/-- **The sharp rule for the shared state.** If `J` is kept by every step of a
task and, where `J` and `I` hold, a step keeps `I` exactly when it meets `okRun`,
then `I` holds throughout a run exactly when all its steps meet `okRun`. -/
theorem store_always_iff (P : Program σ ρ ε τ) {J I : σ → Prop}
    {okRun : ε → τ → List τ → σ → Prop}
    (hJ : ∀ e t ts s s' k, J s → P.advance e t ts s = some (s', k) → J s')
    (hI : ∀ e t ts s s' k, J s → I s → P.advance e t ts s = some (s', k) →
      (I s' ↔ okRun e t ts s))
    {c : Conc σ τ} (ls : List (Sched ρ ε)) (hj : J c.store) (hi : I c.store) :
    Run.Always P.step (fun c => I c.store) c ls
      ↔ Run.Guarded P.step (Ok (fun _ _ _ => True) okRun) c ls := by
  refine Run.always_iff_guarded (J := fun c => J c.store) ?_ ?_ ls hj hi
  · intro c l c' hj h
    rcases step_cases h with ⟨r, rfl, rfl⟩ | ⟨i, e, t, s', k, rfl, ht, hadv, rfl⟩
      | ⟨i, t, rfl, ht, -, rfl⟩
    · exact hj
    · exact hJ e t _ _ s' k hj hadv
    · exact hj
  · intro c l c' hj hi h
    rcases step_cases h with ⟨r, rfl, rfl⟩ | ⟨i, e, t, s', k, rfl, ht, hadv, rfl⟩
      | ⟨i, t, rfl, ht, -, rfl⟩
    · exact ⟨fun _ => trivial, fun _ => hi⟩
    · simp only [Ok, ht, Option.mem_some_iff, forall_eq']
      exact hI e t _ _ s' k hj hi hadv
    · exact ⟨fun _ => trivial, fun _ => hi⟩

end Program

end AstroPlant
