import AstroPlant.Conc

/-!
# Programs with a journal

A law about who may do what speaks of steps, of the request a step is taken for
and of the states around it; a state of the program knows neither. The
journaled program takes the steps of the program and writes each of them down:
every task remembers its request, and the journal holds what has been done, the
latest step first.

The journal is only watched: forgetting it gives back the runs of the program
(`exec_journaled`). A law about steps is then a law about the states of a run,
and `journal_always_iff` is its sharp form: where a step is lawful exactly when
it meets `ok`, a run keeps the law exactly when all its steps meet `ok`.

A step is recorded with the store before and after it, so a law may compare the
two; it may also look back, at what the journal held before. For a law about one
step `Guarded` would do. The journal is for the laws on requests, which take many
steps.
-/

namespace AstroPlant

/-- A step of a task: the request it was taken for, the task as it was, and the
states before and after. -/
structure Entry (σ ρ τ : Type) where
  request : ρ
  task : τ
  before : σ
  after : σ

/-- A state with the steps that led to it. -/
structure Journaled (σ ρ τ : Type) where
  store : σ
  journal : List (Entry σ ρ τ)

namespace Program

variable {σ ρ ε τ : Type}

def journaled (P : Program σ ρ ε τ) : Program (Journaled σ ρ τ) ρ ε (ρ × τ) where
  entry r := (r, P.entry r)
  advance e t ts s :=
    (P.advance e t.2 (ts.map Prod.snd) s.store).map fun next =>
      (⟨next.1, ⟨t.1, t.2, s.store, next.1⟩ :: s.journal⟩, next.2.map (t.1, ·))
  faulty t := P.faulty t.2

theorem journaled_advance {P : Program σ ρ ε τ} {e : ε} {r : ρ} {t : τ} {ts : List (ρ × τ)}
    {s s' : Journaled σ ρ τ} {k : Option (ρ × τ)}
    (h : P.journaled.advance e (r, t) ts s = some (s', k)) :
    ∃ store next, P.advance e t (ts.map Prod.snd) s.store = some (store, next)
      ∧ s' = ⟨store, ⟨r, t, s.store, store⟩ :: s.journal⟩ ∧ k = next.map (r, ·) := by
  obtain ⟨⟨store, next⟩, hadv, heq⟩ := Option.map_eq_some_iff.mp h
  obtain ⟨rfl, rfl⟩ := Prod.mk.inj heq
  exact ⟨store, next, hadv, rfl, rfl⟩

/-! ## Forgetting the journal -/

def forget (c : Conc (Journaled σ ρ τ) (ρ × τ)) : Conc σ τ where
  store := c.store.store
  tasks := c.tasks.map Prod.snd

/-- The journaled program can take a step exactly when the program can. -/
theorem step_journaled (P : Program σ ρ ε τ) (c : Conc (Journaled σ ρ τ) (ρ × τ))
    (l : Sched ρ ε) : (P.journaled.step c l).map forget = P.step (forget c) l := by
  cases l with
  | spawn r => simp [step, journaled, forget]
  | run i e =>
      simp only [step, forget, List.getElem?_map]
      cases c.tasks[i]? with
      | none => rfl
      | some t =>
          simp only [journaled, Option.map_some, List.eraseIdx_map]
          cases P.advance e t.2 ((c.tasks.eraseIdx i).map Prod.snd) c.store.store with
          | none => rfl
          | some next =>
              simp only [Option.map_some, forget, map_replace, Option.map_map]
              cases next.2 <;> rfl
  | fault i =>
      simp only [step, forget, List.getElem?_map]
      cases c.tasks[i]? with
      | none => rfl
      | some t =>
          by_cases hf : P.journaled.faulty t = true
          · have hf' : P.faulty t.2 = true := hf
            simp [hf, hf', forget, List.eraseIdx_map]
          · have hf' : ¬P.faulty t.2 = true := hf
            simp [hf, hf']

/-- **The journal is only watched**: the runs of the journaled program are the
runs of the program. -/
theorem exec_journaled (P : Program σ ρ ε τ) (c : Conc (Journaled σ ρ τ) (ρ × τ))
    (ls : List (Sched ρ ε)) :
    (Run.exec P.journaled.step c ls).map forget = Run.exec P.step (forget c) ls :=
  Run.exec_map forget (step_journaled P) c ls

/-! ## Whose steps they are -/

/-- Tasks or steps of the journal belong to the request. -/
def Requested (c : Conc (Journaled σ ρ τ) (ρ × τ)) (r : ρ) : Prop :=
  (∃ t ∈ c.tasks, t.1 = r) ∨ ∃ e ∈ c.store.journal, e.request = r

theorem requested_step {P : Program σ ρ ε τ} {c c' : Conc (Journaled σ ρ τ) (ρ × τ)}
    {l : Sched ρ ε} {r : ρ} (h : P.journaled.step c l = some c') (hr : Requested c' r) :
    Requested c r ∨ l = .spawn r := by
  rcases step_cases h with ⟨r', rfl, rfl⟩ | ⟨i, e, ⟨r', t⟩, s', k, rfl, ht, hadv, rfl⟩
    | ⟨i, t, rfl, -, -, rfl⟩
  · rcases hr with ⟨t, ht, rfl⟩ | hr
    · rcases List.mem_append.mp ht with ht | ht
      · exact Or.inl (Or.inl ⟨t, ht, rfl⟩)
      · obtain rfl := List.mem_singleton.mp ht
        exact Or.inr rfl
    · exact Or.inl (Or.inr hr)
  · obtain ⟨store, next, -, rfl, rfl⟩ := journaled_advance hadv
    have htask : Requested c r' := Or.inl ⟨_, List.mem_of_getElem? ht, rfl⟩
    left
    rcases hr with ⟨t', ht', rfl⟩ | ⟨e', he', rfl⟩
    · rcases mem_replace ht' with ht' | ht'
      · obtain ⟨next', -, rfl⟩ := Option.map_eq_some_iff.mp ht'
        exact htask
      · exact Or.inl ⟨t', List.mem_of_mem_eraseIdx ht', rfl⟩
    · rcases List.mem_cons.mp he' with rfl | he'
      · exact htask
      · exact Or.inr ⟨e', he', rfl⟩
  · rcases hr with ⟨t', ht', rfl⟩ | hr
    · exact Or.inl (Or.inl ⟨t', List.mem_of_mem_eraseIdx ht', rfl⟩)
    · exact Or.inl (Or.inr hr)

/-! ## Laws about steps -/

/-- Every step in the journal meets the law. -/
def Lawful (law : Entry σ ρ τ → Prop) (c : Conc (Journaled σ ρ τ) (ρ × τ)) : Prop :=
  ∀ entry ∈ c.store.journal, law entry

theorem lawful_cons {law : Entry σ ρ τ → Prop} {store : σ} {entry : Entry σ ρ τ}
    {journal : List (Entry σ ρ τ)} {ts : List (ρ × τ)} :
    Lawful law ⟨⟨store, entry :: journal⟩, ts⟩ ↔ law entry ∧ ∀ e ∈ journal, law e := by
  simp [Lawful]

/-- **The rule for laws about steps.** The program keeps `I`, and `T` is what is
known of a request and its task; no step breaks `T` of the others. If a step is
lawful exactly when it meets `ok`, a run is lawful throughout exactly when all
its steps meet `ok`. -/
theorem journal_always_iff (P : Program σ ρ ε τ) {law : Entry σ ρ τ → Prop} {I : σ → Prop}
    {T : σ → ρ × τ → Prop} (ok : ε → ρ × τ → σ → Prop)
    (hentry : ∀ r s, I s → T s (r, P.entry r))
    (hrun : ∀ e r t ts s s' k, I s → T s (r, t) → P.advance e t ts s = some (s', k) →
      I s' ∧ (∀ t' ∈ k, T s' (r, t')) ∧ ∀ u, T s u → T s' u)
    (hlaw : ∀ e r t ts s s' k, I s → T s (r, t) → P.advance e t ts s = some (s', k) →
      (law ⟨r, t, s, s'⟩ ↔ ok e (r, t) s))
    {s : σ} (hs : I s) (ls : List (Sched ρ ε)) :
    Run.Always P.journaled.step (Lawful law) ⟨⟨s, []⟩, []⟩ ls
      ↔ Run.Guarded P.journaled.step
          (Ok (fun _ _ _ => True) fun e t _ s => ok e t s.store) ⟨⟨s, []⟩, []⟩ ls := by
  refine Run.always_iff_guarded
    (J := Holds (fun s => I s.store) fun s t => T s.store t) ?_ ?_ ls ?_ ?_
  · intro c l c' hc hstep
    refine holds_step P.journaled (fun r _ s _ hI => hentry r _ hI) ?_ hc (ok_true c l) hstep
    rintro e ⟨r, t⟩ ts s s' k - hI ht hts hadv
    obtain ⟨store, next, hnext, rfl, rfl⟩ := journaled_advance hadv
    obtain ⟨hI', hk, hothers⟩ := hrun e r t _ _ _ _ hI ht hnext
    refine ⟨hI', fun t' ht' => ?_, fun u hu => hothers u (hts u hu)⟩
    obtain ⟨t₁, ht₁, rfl⟩ := Option.map_eq_some_iff.mp ht'
    exact hk t₁ ht₁
  · intro c l c' hc hlawful hstep
    rcases step_cases hstep with ⟨r, rfl, rfl⟩ | ⟨i, e, ⟨r, t⟩, s', k, rfl, ht, hadv, rfl⟩
      | ⟨i, t, rfl, ht, -, rfl⟩
    · exact iff_of_true hlawful trivial
    · obtain ⟨store, next, hnext, rfl, rfl⟩ := journaled_advance hadv
      rw [lawful_cons, hlaw e r t _ _ _ _ hc.1 (hc.2 _ (List.mem_of_getElem? ht)) hnext]
      constructor
      · rintro ⟨hok, -⟩ t' ht'
        rw [ht] at ht'
        obtain rfl := Option.some.inj ht'
        exact hok
      · intro hok
        exact ⟨hok _ ht, hlawful⟩
    · exact iff_of_true hlawful trivial
  · exact ⟨hs, fun t ht => by cases ht⟩
  · intro entry hentry
    cases hentry

end Program

end AstroPlant
