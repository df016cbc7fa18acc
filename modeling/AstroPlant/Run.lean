/-!
# Runs of a labelled step function

A system is a partial step function `step : σ → ℓ → Option σ`: a label names
who moves and carries every choice that is not the program's own, and `none`
says that the label is not enabled. A run is a list of labels, so a statement
"for every interleaving" is a statement about every list.

Three notions are enough for most developments over this file:

- `exec` runs a list of labels;
- `Guarded ok` says that every step a run takes meets `ok` in the state before
  it;
- `Always P` says that `P` holds in every state a run passes through.

A statement about what happened earlier in a run is one about its `history`:
the steps it took, with the states around them.

`exec_invariant` is the induction over a run, stated once. `always_iff_guarded`
is its sharp form: where one step keeps `P` exactly when it meets `ok`, a run
keeps `P` throughout exactly when all its steps meet `ok`.
-/

namespace AstroPlant

namespace Run

variable {σ ℓ : Type}

/-- Run a list of labels; `none` as soon as a label is not enabled. -/
def exec (step : σ → ℓ → Option σ) : σ → List ℓ → Option σ
  | s, [] => some s
  | s, l :: ls =>
      match step s l with
      | none => none
      | some s' => exec step s' ls

/-- Every step the run takes meets `ok` in the state before it. -/
def Guarded (step : σ → ℓ → Option σ) (ok : σ → ℓ → Prop) : σ → List ℓ → Prop
  | _, [] => True
  | s, l :: ls =>
      match step s l with
      | none => True
      | some s' => ok s l ∧ Guarded step ok s' ls

/-- `P` holds in every state of the run, the first and the last included. -/
def Always (step : σ → ℓ → Option σ) (P : σ → Prop) : σ → List ℓ → Prop
  | s, [] => P s
  | s, l :: ls =>
      match step s l with
      | none => P s
      | some s' => P s ∧ Always step P s' ls

variable {step : σ → ℓ → Option σ}

theorem exec_cons {s : σ} {l : ℓ} {ls : List ℓ} {t : σ} :
    exec step s (l :: ls) = some t ↔
      ∃ s', step s l = some s' ∧ exec step s' ls = some t := by
  simp only [exec]
  cases step s l <;> simp

theorem guarded_cons {ok : σ → ℓ → Prop} {s s' : σ} {l : ℓ} {ls : List ℓ}
    (hs : step s l = some s') :
    Guarded step ok s (l :: ls) ↔ ok s l ∧ Guarded step ok s' ls := by
  simp [Guarded, hs]

theorem guarded_true (s : σ) (ls : List ℓ) :
    Guarded step (fun _ _ => True) s ls := by
  induction ls generalizing s with
  | nil => trivial
  | cons l ls ih =>
      simp only [Guarded]
      split
      · trivial
      · exact ⟨trivial, ih _⟩

theorem Guarded.mono {ok ok' : σ → ℓ → Prop} (h : ∀ s l, ok s l → ok' s l)
    {s : σ} {ls : List ℓ} (hg : Guarded step ok s ls) : Guarded step ok' s ls := by
  induction ls generalizing s with
  | nil => trivial
  | cons l ls ih =>
      simp only [Guarded] at hg ⊢
      split
      · trivial
      · rename_i s' hs
        simp only [hs] at hg
        exact ⟨h _ _ hg.1, ih hg.2⟩

theorem Always.mono {P Q : σ → Prop} (h : ∀ s, P s → Q s) {s : σ} {ls : List ℓ}
    (hs : Always step P s ls) : Always step Q s ls := by
  induction ls generalizing s with
  | nil => exact h s hs
  | cons l ls ih =>
      simp only [Always] at hs ⊢
      split
      · rename_i hl
        simp only [hl] at hs
        exact h s hs
      · rename_i s' hl
        simp only [hl] at hs
        exact ⟨h s hs.1, ih hs.2⟩

theorem Always.last {P : σ → Prop} {s t : σ} {ls : List ℓ} (hs : Always step P s ls)
    (he : exec step s ls = some t) : P t := by
  induction ls generalizing s with
  | nil =>
      obtain rfl := Option.some.inj he
      exact hs
  | cons l ls ih =>
      obtain ⟨s', hl, he'⟩ := exec_cons.mp he
      simp only [Always, hl] at hs
      exact ih hs.2 he'

/-- A guarded run splits at any point into two guarded runs. -/
theorem guarded_append {ok : σ → ℓ → Prop} {s s' : σ} {ls ls' : List ℓ}
    (he : exec step s ls = some s') :
    Guarded step ok s (ls ++ ls') ↔ Guarded step ok s ls ∧ Guarded step ok s' ls' := by
  induction ls generalizing s with
  | nil =>
      obtain rfl := Option.some.inj he
      simp [Guarded]
  | cons l ls ih =>
      obtain ⟨s₁, h₁, h₂⟩ := exec_cons.mp he
      rw [List.cons_append, guarded_cons h₁, guarded_cons h₁, ih h₂, and_assoc]

instance Guarded.decidable {ok : σ → ℓ → Prop} [∀ s l, Decidable (ok s l)] :
    ∀ (s : σ) (ls : List ℓ), Decidable (Guarded step ok s ls)
  | _, [] => .isTrue trivial
  | s, l :: ls =>
      match h : step s l with
      | none => .isTrue (by simp [Guarded, h])
      | some s' =>
          have : Decidable (Guarded step ok s' ls) := Guarded.decidable s' ls
          decidable_of_iff (ok s l ∧ Guarded step ok s' ls) (guarded_cons h).symm

/-! ## Induction over a run -/

/-- What holds at the start and is kept by every step that meets `ok` holds
after every run whose steps all meet `ok`. -/
theorem exec_invariant_guarded {ok : σ → ℓ → Prop} {I : σ → Prop}
    (hstep : ∀ s l s', I s → ok s l → step s l = some s' → I s')
    {s : σ} {ls : List ℓ} {t : σ} (h₀ : I s) (hok : Guarded step ok s ls)
    (he : exec step s ls = some t) : I t := by
  induction ls generalizing s with
  | nil =>
      obtain rfl := Option.some.inj he
      exact h₀
  | cons l ls ih =>
      obtain ⟨s', hs, he'⟩ := exec_cons.mp he
      obtain ⟨hl, hok'⟩ := (guarded_cons hs).mp hok
      exact ih (hstep s l s' h₀ hl hs) hok' he'

/-- The unguarded form: an inductive invariant holds after every run. -/
theorem exec_invariant {I : σ → Prop}
    (hstep : ∀ s l s', I s → step s l = some s' → I s')
    {s : σ} {ls : List ℓ} {t : σ} (h₀ : I s) (he : exec step s ls = some t) : I t :=
  exec_invariant_guarded (fun s l s' hI _ hs => hstep s l s' hI hs) h₀
    (guarded_true s ls) he

/-- **The sharp form.** Suppose `J` is an invariant and, from a state with `J`
and `P`, a step keeps `P` exactly when it meets `ok`. Then a run from such a
state passes only through states with `P` exactly when all its steps meet
`ok`. Here the steps of the run are known to meet `assumed`. -/
theorem always_iff_guarded_under {assumed ok : σ → ℓ → Prop} {J P : σ → Prop}
    (hJ : ∀ s l s', J s → assumed s l → step s l = some s' → J s')
    (hP : ∀ s l s', J s → P s → assumed s l → step s l = some s' → (P s' ↔ ok s l))
    {s : σ} (ls : List ℓ) (hassumed : Guarded step assumed s ls) (hj : J s) (hp : P s) :
    Always step P s ls ↔ Guarded step ok s ls := by
  induction ls generalizing s with
  | nil => simp [Always, Guarded, hp]
  | cons l ls ih =>
      simp only [Always, Guarded] at hassumed ⊢
      split
      · simp [hp]
      · rename_i s' hs
        simp only [hs] at hassumed
        obtain ⟨hl, hassumed⟩ := hassumed
        have hstep := hP s l s' hj hp hl hs
        have hj' := hJ s l s' hj hl hs
        constructor
        · rintro ⟨-, hrest⟩
          have hp' : P s' := by
            cases ls with
            | nil => exact hrest
            | cons l' ls' =>
                simp only [Always] at hrest
                split at hrest
                · exact hrest
                · exact hrest.1
          exact ⟨hstep.mp hp', (ih hassumed hj' hp').mp hrest⟩
        · rintro ⟨hok, hrest⟩
          have hp' : P s' := hstep.mpr hok
          exact ⟨hp, (ih hassumed hj' hp').mpr hrest⟩

theorem always_iff_guarded {ok : σ → ℓ → Prop} {J P : σ → Prop}
    (hJ : ∀ s l s', J s → step s l = some s' → J s')
    (hP : ∀ s l s', J s → P s → step s l = some s' → (P s' ↔ ok s l))
    {s : σ} (ls : List ℓ) (hj : J s) (hp : P s) :
    Always step P s ls ↔ Guarded step ok s ls :=
  always_iff_guarded_under (fun s l s' hJs (_ : True) => hJ s l s' hJs)
    (fun s l s' hJs hPs (_ : True) => hP s l s' hJs hPs) ls (guarded_true s ls) hj hp

/-- What is true after a run, and was not before it, became true in one of its steps. -/
theorem exec_gained {P : σ → Prop} {s t : σ} {ls : List ℓ} (hs : ¬ P s) (ht : P t)
    (he : exec step s ls = some t) :
    ∃ ls₁ l ls₂ u v, ls = ls₁ ++ l :: ls₂ ∧ exec step s ls₁ = some u ∧ step u l = some v
      ∧ exec step v ls₂ = some t ∧ ¬ P u ∧ P v := by
  induction ls generalizing s with
  | nil =>
      obtain rfl := Option.some.inj he
      exact absurd ht hs
  | cons l ls ih =>
      obtain ⟨s', hs', he'⟩ := exec_cons.mp he
      by_cases h : P s'
      · exact ⟨[], l, ls, s, s', rfl, rfl, hs', he', hs, h⟩
      · obtain ⟨ls₁, l', ls₂, u, v, rfl, hrun, hstep, hrest, hu, hv⟩ := ih h he'
        exact ⟨l :: ls₁, l', ls₂, u, v, rfl, exec_cons.mpr ⟨s', hs', hrun⟩, hstep, hrest, hu, hv⟩

/-! ## Watching a run -/

/-- Where `f` takes the steps of one system to those of another, it takes runs to runs. -/
theorem exec_map {σ' : Type} {step' : σ' → ℓ → Option σ'} (f : σ → σ')
    (hf : ∀ s l, (step s l).map f = step' (f s) l) (s : σ) (ls : List ℓ) :
    (exec step s ls).map f = exec step' (f s) ls := by
  induction ls generalizing s with
  | nil => rfl
  | cons l ls ih =>
      simp only [exec]
      rw [← hf s l]
      cases step s l with
      | none => rfl
      | some s' => exact ih s'

variable {γ : Type}

/-- The steps of a system, with notes that no step reads. -/
def watch (step : σ → ℓ → Option σ) (note : γ → σ → ℓ → γ) (p : σ × γ) (l : ℓ) :
    Option (σ × γ) :=
  (step p.1 l).map fun s' => (s', note p.2 p.1 l)

theorem exec_watch (note : γ → σ → ℓ → γ) (p : σ × γ) (ls : List ℓ) :
    (exec (watch step note) p ls).map Prod.fst = exec step p.1 ls := by
  refine exec_map Prod.fst (fun p l => ?_) p ls
  cases h : step p.1 l <;> simp [watch, h]

/-! ## The history of a run -/

/-- A step with the states around it. -/
structure Event (σ ℓ : Type) where
  before : σ
  label : ℓ
  after : σ

/-- The steps that a run takes, up to the first label that is not enabled. -/
def history (step : σ → ℓ → Option σ) : σ → List ℓ → List (Event σ ℓ)
  | _, [] => []
  | s, l :: ls =>
      match step s l with
      | none => []
      | some s' => ⟨s, l, s'⟩ :: history step s' ls

/-- Induction over a run whose steps all meet `ok`, for statements about its past and
its last state. -/
theorem exec_history_guarded {ok : σ → ℓ → Prop} {I : List (Event σ ℓ) → σ → Prop}
    (hstep : ∀ past s l s', I past s → ok s l → step s l = some s' → I (past ++ [⟨s, l, s'⟩]) s')
    {s : σ} {ls : List ℓ} {t : σ} (h₀ : I [] s) (hok : Guarded step ok s ls)
    (he : exec step s ls = some t) : I (history step s ls) t := by
  suffices h : ∀ past s, I past s → Guarded step ok s ls → exec step s ls = some t →
      I (past ++ history step s ls) t from h [] s h₀ hok he
  clear h₀ hok he s
  induction ls with
  | nil =>
      intro past s h _ he
      obtain rfl := Option.some.inj he
      simpa [history] using h
  | cons l ls ih =>
      intro past s h hok he
      obtain ⟨s', hs, he'⟩ := exec_cons.mp he
      obtain ⟨hl, hok'⟩ := (guarded_cons hs).mp hok
      simpa [history, hs] using ih _ s' (hstep past s l s' h hl hs) hok' he'

theorem exec_history {I : List (Event σ ℓ) → σ → Prop}
    (hstep : ∀ past s l s', I past s → step s l = some s' → I (past ++ [⟨s, l, s'⟩]) s')
    {s : σ} {ls : List ℓ} {t : σ} (h₀ : I [] s) (he : exec step s ls = some t) :
    I (history step s ls) t :=
  exec_history_guarded (fun past s l s' hI _ hs => hstep past s l s' hI hs) h₀
    (guarded_true s ls) he

/-- A run is guarded if all the steps of its history are. -/
theorem guarded_of_history {ok : σ → ℓ → Prop} {s : σ} {ls : List ℓ}
    (h : ∀ e ∈ history step s ls, ok e.before e.label) : Guarded step ok s ls := by
  induction ls generalizing s with
  | nil => trivial
  | cons l ls ih =>
      simp only [history] at h
      simp only [Guarded]
      split
      · trivial
      · rename_i s' hs
        simp only [hs, List.mem_cons, forall_eq_or_imp] at h
        exact ⟨h.1, ih h.2⟩

/-- Induction over a run for statements about the labels it has taken. -/
theorem exec_labels {I : List ℓ → σ → Prop}
    (hstep : ∀ past s l s', I past s → step s l = some s' → I (past ++ [l]) s') {s : σ}
    {ls : List ℓ} {t : σ} (h₀ : I [] s) (he : exec step s ls = some t) : I ls t := by
  suffices h : ∀ past s, I past s → exec step s ls = some t → I (past ++ ls) t from h [] s h₀ he
  clear h₀ he s
  induction ls with
  | nil =>
      intro past s h he
      obtain rfl := Option.some.inj he
      simpa using h
  | cons l ls ih =>
      intro past s h he
      obtain ⟨s', hs, he'⟩ := exec_cons.mp he
      simpa using ih _ s' (hstep past s l s' h hs) he'

/-- What a run has done before an event of its history is a run of its own. -/
theorem history_split {s : σ} {ls : List ℓ} {p q : List (Event σ ℓ)} {e : Event σ ℓ}
    (h : history step s ls = p ++ e :: q) :
    ∃ ls₁ ls₂, ls = ls₁ ++ e.label :: ls₂ ∧ exec step s ls₁ = some e.before
      ∧ history step s ls₁ = p ∧ step e.before e.label = some e.after := by
  induction ls generalizing s p with
  | nil => simp [history] at h
  | cons l ls ih =>
      simp only [history] at h
      split at h
      · simp at h
      · rename_i s' hs
        cases p with
        | nil =>
            obtain ⟨rfl, -⟩ := List.cons.inj h
            exact ⟨[], ls, rfl, rfl, rfl, hs⟩
        | cons e' p =>
            obtain ⟨rfl, hrest⟩ := List.cons.inj h
            obtain ⟨ls₁, ls₂, rfl, hrun, hpast, hstep⟩ := ih hrest
            exact ⟨l :: ls₁, ls₂, rfl, exec_cons.mpr ⟨s', hs, hrun⟩, by simp [history, hs, hpast],
              hstep⟩

theorem getElem?_append_singleton {α : Type} {l : List α} {a b : α} {n : Nat}
    (h : (l ++ [a])[n]? = some b) : l[n]? = some b ∨ n = l.length ∧ b = a := by
  rcases Nat.lt_or_ge n l.length with hn | hn
  · rw [List.getElem?_append_left hn] at h
    exact Or.inl h
  · rw [List.getElem?_append_right hn] at h
    obtain ⟨hlt, heq⟩ := List.getElem?_eq_some_iff.mp h
    simp only [List.length_singleton] at hlt
    refine Or.inr ⟨by omega, ?_⟩
    simpa using heq.symm

theorem exec_append {s t : σ} {ls ls' : List ℓ} :
    exec step s (ls ++ ls') = some t ↔
      ∃ s', exec step s ls = some s' ∧ exec step s' ls' = some t := by
  induction ls generalizing s with
  | nil => simp [exec]
  | cons l ls ih =>
      simp only [List.cons_append, exec]
      split
      · simp
      · exact ih

/-! ## States on the way

What takes its time sees more than one state of a run. -/

/-- A run from `s` passes through these states, one after the other. -/
structure Visits (step : σ → ℓ → Option σ) (s : σ) (seen : Nat → σ) : Prop where
  first : ∃ ls, exec step s ls = some (seen 0)
  next : ∀ n, ∃ ls, exec step (seen n) ls = some (seen (n + 1))

namespace Visits

variable {s : σ} {seen : Nat → σ}

theorem between (h : Visits step s seen) {m n : Nat} (hmn : m ≤ n) :
    ∃ ls, exec step (seen m) ls = some (seen n) := by
  induction hmn with
  | refl => exact ⟨[], rfl⟩
  | step _ ih =>
      obtain ⟨ls, hls⟩ := ih
      obtain ⟨ls', hls'⟩ := h.next _
      exact ⟨ls ++ ls', exec_append.mpr ⟨_, hls, hls'⟩⟩

theorem fromStart (h : Visits step s seen) (n : Nat) : ∃ ls, exec step s ls = some (seen n) := by
  obtain ⟨ls, hls⟩ := h.first
  obtain ⟨ls', hls'⟩ := h.between (Nat.zero_le n)
  exact ⟨ls ++ ls', exec_append.mpr ⟨_, hls, hls'⟩⟩

theorem const (h : ∃ ls, exec step s ls = some (seen 0)) (hseen : ∀ n, seen n = seen 0) :
    Visits step s seen where
  first := h
  next n := ⟨[], congrArg some ((hseen n).trans (hseen (n + 1)).symm)⟩

end Visits

end Run

end AstroPlant
