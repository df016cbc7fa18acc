/-!
# Transactions

A transaction reads and changes a state and may fail: `StateT σ (Except ε)`.
`commit` is what a client of the store sees of it: a failed transaction is
rolled back, so the state is the one before it.

The `run_*_ok` lemmas invert a successful run, one per way of building a
transaction. Proofs about a transaction peel it apart with them and never
unfold the monad.

What commits at the end is all of a transaction or nothing, and no other
transaction sees its middle. That is more than the isolation level of the
source's database gives in general. It is used for a transaction of one
statement, or of several that are known to conflict with nobody; where it matters
that they are several, the statements are modelled as steps of their own.
-/

namespace AstroPlant

theorem bind_ok {ε α β : Type} {x : Except ε α} {f : α → Except ε β} {b : β} :
    (x >>= f) = .ok b ↔ ∃ a, x = .ok a ∧ f a = .ok b := by
  cases x <;> simp [bind, Except.bind]

abbrev Tx (σ ε α : Type) := StateT σ (Except ε) α

namespace Tx

variable {σ ε α β : Type}

/-- Read from the state. -/
def read (f : σ → α) : Tx σ ε α := fun s => .ok (f s, s)

/-- Change the state, by a statement that may fail. -/
def write (f : σ → Except ε (α × σ)) : Tx σ ε α := f

/-- The value, or failure `e` when there is none. -/
def ofOption (e : ε) : Option α → Tx σ ε α
  | some a => pure a
  | none => throw e

/-- The result of a computation that does not touch the state. -/
def ofExcept : Except ε α → Tx σ ε α
  | .ok a => pure a
  | .error e => throw e

/-- Fail with `e` unless the condition holds. -/
def ensure (c : Bool) (e : ε) : Tx σ ε Unit :=
  if c then pure () else throw e

/-- Run only under a condition. -/
def onlyIf (c : Bool) (t : Tx σ ε Unit) : Tx σ ε Unit :=
  if c then t else pure ()

/-- The same transaction, its errors seen as those of the caller. -/
def adapt {ε' : Type} (f : ε → ε') (t : Tx σ ε α) : Tx σ ε' α := fun s =>
  match t.run s with
  | .ok r => .ok r
  | .error e => .error (f e)

/-- What the client sees: the answer, and the state after commit or
rollback. -/
def commit (t : Tx σ ε α) (s : σ) : Except ε α × σ :=
  match t.run s with
  | .ok (a, s') => (.ok a, s')
  | .error e => (.error e, s)

/-! ## Inverting a successful run -/

theorem run_bind_ok {x : Tx σ ε α} {f : α → Tx σ ε β} {s s' : σ} {b : β} :
    (x >>= f).run s = .ok (b, s') ↔
      ∃ a s₁, x.run s = .ok (a, s₁) ∧ (f a).run s₁ = .ok (b, s') := by
  rw [StateT.run_bind]
  cases hx : x.run s with
  | error e => simp [bind, Except.bind]
  | ok p =>
      obtain ⟨a, s₁⟩ := p
      simp only [bind, Except.bind, Except.ok.injEq, Prod.mk.injEq]
      constructor
      · exact fun h => ⟨a, s₁, ⟨rfl, rfl⟩, h⟩
      · rintro ⟨a', s₁', ⟨rfl, rfl⟩, h⟩
        exact h

@[simp] theorem run_pure_ok {a b : α} {s s' : σ} :
    (pure a : Tx σ ε α).run s = .ok (b, s') ↔ a = b ∧ s = s' := by
  rw [StateT.run_pure]
  simp [pure, Except.pure]

@[simp] theorem run_throw_ok {e : ε} {a : α} {s s' : σ} :
    ¬(throw e : Tx σ ε α).run s = .ok (a, s') := by
  intro h
  cases h

@[simp] theorem run_read_ok {f : σ → α} {a : α} {s s' : σ} :
    (read f : Tx σ ε α).run s = .ok (a, s') ↔ f s = a ∧ s = s' := by
  simp [read, StateT.run]

@[simp] theorem run_write_ok {f : σ → Except ε (α × σ)} {a : α} {s s' : σ} :
    (write f).run s = .ok (a, s') ↔ f s = .ok (a, s') := Iff.rfl

@[simp] theorem run_ofOption_ok {e : ε} {o : Option α} {a : α} {s s' : σ} :
    (ofOption e o : Tx σ ε α).run s = .ok (a, s') ↔ o = some a ∧ s = s' := by
  cases o with
  | none => exact iff_of_false run_throw_ok fun h => by cases h.1
  | some b => rw [ofOption, run_pure_ok, Option.some.injEq]

@[simp] theorem run_ofExcept_ok {x : Except ε α} {a : α} {s s' : σ} :
    (ofExcept x : Tx σ ε α).run s = .ok (a, s') ↔ x = .ok a ∧ s = s' := by
  cases x with
  | error e => exact iff_of_false run_throw_ok fun h => by cases h.1
  | ok b => rw [ofExcept, run_pure_ok, Except.ok.injEq]

@[simp] theorem run_ensure_ok {c : Bool} {e : ε} {a : Unit} {s s' : σ} :
    (ensure c e : Tx σ ε Unit).run s = .ok (a, s') ↔ c = true ∧ s = s' := by
  cases c with
  | false => exact iff_of_false run_throw_ok fun h => by cases h.1
  | true =>
      rw [ensure, if_pos rfl, run_pure_ok]
      simp

@[simp] theorem run_adapt_ok {ε' : Type} {f : ε → ε'} {t : Tx σ ε α} {a : α} {s s' : σ} :
    (adapt f t).run s = .ok (a, s') ↔ t.run s = .ok (a, s') := by
  simp only [adapt, StateT.run]
  split
  · rename_i r h
    simp [h]
  · rename_i e h
    simp [h]

theorem run_onlyIf_ok {c : Bool} {t : Tx σ ε Unit} {a : Unit} {s s' : σ} :
    (onlyIf c t).run s = .ok (a, s') ↔
      (c = true ∧ t.run s = .ok (a, s')) ∨ (c = false ∧ s = s') := by
  cases c with
  | true => simp [onlyIf]
  | false =>
      rw [onlyIf, if_neg (by simp), run_pure_ok]
      simp

/-! Statements that leave the state alone, followed by the rest of the
transaction. -/

theorem run_read_bind {f : σ → α} {g : α → Tx σ ε β} {s : σ} :
    (read f >>= g).run s = (g (f s)).run s := rfl

theorem run_ofOption_bind_ok {e : ε} {o : Option α} {g : α → Tx σ ε β} {s s' : σ} {b : β} :
    (ofOption e o >>= g).run s = .ok (b, s') ↔ ∃ a, o = some a ∧ (g a).run s = .ok (b, s') := by
  rw [run_bind_ok]
  constructor
  · rintro ⟨a, s₁, h₁, h₂⟩
    obtain ⟨ha, rfl⟩ := run_ofOption_ok.mp h₁
    exact ⟨a, ha, h₂⟩
  · rintro ⟨a, ha, h⟩
    exact ⟨a, s, run_ofOption_ok.mpr ⟨ha, rfl⟩, h⟩

theorem run_ofExcept_bind_ok {x : Except ε α} {g : α → Tx σ ε β} {s s' : σ} {b : β} :
    (ofExcept x >>= g).run s = .ok (b, s') ↔ ∃ a, x = .ok a ∧ (g a).run s = .ok (b, s') := by
  rw [run_bind_ok]
  constructor
  · rintro ⟨a, s₁, h₁, h₂⟩
    obtain ⟨ha, rfl⟩ := run_ofExcept_ok.mp h₁
    exact ⟨a, ha, h₂⟩
  · rintro ⟨a, ha, h⟩
    exact ⟨a, s, run_ofExcept_ok.mpr ⟨ha, rfl⟩, h⟩

theorem run_ensure_bind_ok {c : Bool} {e : ε} {g : Unit → Tx σ ε β} {s s' : σ} {b : β} :
    (ensure c e >>= g).run s = .ok (b, s') ↔ c = true ∧ (g ()).run s = .ok (b, s') := by
  rw [run_bind_ok]
  constructor
  · rintro ⟨_, s₁, h₁, h₂⟩
    obtain ⟨hc, rfl⟩ := run_ensure_ok.mp h₁
    exact ⟨hc, h₂⟩
  · rintro ⟨hc, h⟩
    exact ⟨(), s, run_ensure_ok.mpr ⟨hc, rfl⟩, h⟩

/-! ## Commit and rollback -/

theorem commit_ok {t : Tx σ ε α} {s s' : σ} {a : α} (h : t.run s = .ok (a, s')) :
    t.commit s = (.ok a, s') := by
  simp [commit, h]

theorem commit_error {t : Tx σ ε α} {s : σ} {e : ε} (h : t.run s = .error e) :
    t.commit s = (.error e, s) := by
  simp [commit, h]

/-- Committing either changes nothing or is a successful run. -/
theorem commit_cases (t : Tx σ ε α) (s : σ) :
    (∃ e, t.commit s = (.error e, s))
      ∨ ∃ a s', t.run s = .ok (a, s') ∧ t.commit s = (.ok a, s') := by
  cases h : t.run s with
  | error e => exact Or.inl ⟨e, commit_error h⟩
  | ok p => exact Or.inr ⟨p.1, p.2, rfl, commit_ok h⟩

end Tx

end AstroPlant
