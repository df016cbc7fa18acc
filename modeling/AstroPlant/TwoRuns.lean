import AstroPlant.Tx
import Mathlib.Data.List.Forall2

/-!
# Two runs side by side

What an observer cannot tell apart, for lists of rows and for transactions that
only read. Two lists are alike if they hold the same rows in the same order and
the rows that are not secret are equal. A transaction run on two states behaves
alike if it fails in both with the same error, or gives related values in both;
the rules for this follow the way the transaction is built.

The secret is a predicate on what rows are known by, so a row that is secret may
differ in the two lists in everything else, its place excepted. A search by what
rows are known by finds rows at the same place (`Alike.find?`), and the same row
if it is not secret (`find?_eq`).
-/

namespace AstroPlant

/-! ## Rows -/

theorem optionRel_mono {α β : Type} {R S : α → β → Prop} (hRS : ∀ a b, R a b → S a b)
    {o : Option α} {o' : Option β} (h : Option.Rel R o o') : Option.Rel S o o' := by
  cases h with
  | none => exact .none
  | some h => exact .some (hRS _ _ h)

theorem optionRel_cases {α β : Type} {R : α → β → Prop} {o : Option α} {o' : Option β}
    (h : Option.Rel R o o') :
    (o = none ∧ o' = none) ∨ ∃ a a', o = some a ∧ o' = some a' ∧ R a a' := by
  cases h with
  | none => exact Or.inl ⟨rfl, rfl⟩
  | some h => exact Or.inr ⟨_, _, rfl, rfl, h⟩

/-- The same row, in two states: it is known by `ident`, which also tells whether
its contents are secret. -/
structure SameRow {ρ ι : Type} (ident : ρ → ι) (secret : ι → Prop) (r r' : ρ) : Prop where
  ident_eq : ident r = ident r'
  eq : ¬secret (ident r) → r = r'

/-- The same rows in the same order. -/
def Alike {ρ ι : Type} (ident : ρ → ι) (secret : ι → Prop) : List ρ → List ρ → Prop :=
  List.Forall₂ (SameRow ident secret)

namespace Alike

variable {ρ ι : Type} {ident : ρ → ι} {secret : ι → Prop} {rs rs' : List ρ} {p p' : ρ → Bool}

theorem refl (rs : List ρ) : Alike ident secret rs rs :=
  List.forall₂_same.mpr fun _ _ => ⟨rfl, fun _ => rfl⟩

/-- Whoever selects no secret rows selects the same rows. -/
theorem filter_eq (h : Alike ident secret rs rs')
    (hp : ∀ r ∈ rs, p r = true → ¬secret (ident r))
    (hp' : ∀ r ∈ rs', p' r = true → ¬secret (ident r))
    (heq : ∀ r, ¬secret (ident r) → p r = p' r) : rs.filter p = rs'.filter p' := by
  induction h with
  | nil => rfl
  | @cons r r' rs rs' hr _ ih =>
      obtain ⟨hpr, hp⟩ := List.forall_mem_cons.mp hp
      obtain ⟨hpr', hp'⟩ := List.forall_mem_cons.mp hp'
      by_cases hsecret : secret (ident r)
      · have hr₀ : ¬p r = true := fun h => hpr h hsecret
        have hr₀' : ¬p' r' = true := fun h => hpr' h (hr.ident_eq ▸ hsecret)
        rw [List.filter_cons_of_neg hr₀, List.filter_cons_of_neg hr₀', ih hp hp']
      · rw [← hr.eq hsecret, List.filter_cons, List.filter_cons, heq r hsecret, ih hp hp']

/-- Whoever looks a row up by what it is known by finds the same row. -/
theorem find? (h : Alike ident secret rs rs') (hp : ∀ r r', ident r = ident r' → p r = p' r') :
    Option.Rel (fun r r' => SameRow ident secret r r' ∧ r ∈ rs ∧ r' ∈ rs' ∧ p r = true)
      (rs.find? p) (rs'.find? p') := by
  induction h with
  | nil => exact .none
  | @cons r r' rs rs' hr _ ih =>
      rw [List.find?_cons, List.find?_cons, ← hp r r' hr.ident_eq]
      cases hfound : p r with
      | true => exact .some ⟨hr, List.mem_cons_self, List.mem_cons_self, hfound⟩
      | false =>
          refine optionRel_mono (fun a a' ha => ?_) ih
          exact ⟨ha.1, List.mem_cons_of_mem r ha.2.1, List.mem_cons_of_mem r' ha.2.2.1, ha.2.2.2⟩

theorem find?_eq (h : Alike ident secret rs rs') (hp : ∀ r r', ident r = ident r' → p r = p r')
    (hopen : ∀ r, p r = true → ¬secret (ident r)) : rs.find? p = rs'.find? p := by
  rcases optionRel_cases (h.find? hp) with ⟨hnone, hnone'⟩ | ⟨r, r', hsome, hsome', hr, -, -, hpr⟩
  · rw [hnone, hnone']
  · rw [hsome, hsome', hr.eq (hopen r hpr)]

end Alike

/-- Of partial functions that are defined at the same places, the lists of values
are the same exactly if the values are. -/
theorem filterMap_eq_iff {α β : Type} {f g : α → Option β} {l : List α}
    (h : ∀ a ∈ l, (f a).isSome = (g a).isSome) :
    l.filterMap f = l.filterMap g ↔ ∀ a ∈ l, f a = g a := by
  refine ⟨fun heq => ?_, List.filterMap_congr⟩
  induction l with
  | nil => exact fun a ha => absurd ha List.not_mem_nil
  | cons b l ih =>
      have hl : ∀ a ∈ l, (f a).isSome = (g a).isSome :=
        fun a ha => h a (List.mem_cons_of_mem b ha)
      have hb := h b List.mem_cons_self
      cases hf : f b with
      | none =>
          have hg : g b = none := by simpa [hf] using hb
          rw [List.filterMap_cons_none hf, List.filterMap_cons_none hg] at heq
          exact List.forall_mem_cons.mpr ⟨hf.trans hg.symm, ih hl heq⟩
      | some c =>
          obtain ⟨d, hg⟩ := Option.isSome_iff_exists.mp (hb.symm.trans (by rw [hf]; rfl))
          rw [List.filterMap_cons_some hf, List.filterMap_cons_some hg] at heq
          obtain ⟨rfl, hrest⟩ := List.cons.inj heq
          exact List.forall_mem_cons.mpr ⟨hf.trans hg.symm, ih hl hrest⟩

/-! ## Transactions that read -/

namespace Tx

variable {σ ε α α' β β' : Type}

/-- Both fail with the same error, or both succeed with related values and leave
their states alone. -/
def Both (R : α → α' → Prop) (s s' : σ) (t : Tx σ ε α) (t' : Tx σ ε α') : Prop :=
  (∃ e, t.run s = .error e ∧ t'.run s' = .error e)
    ∨ ∃ a a', t.run s = .ok (a, s) ∧ t'.run s' = .ok (a', s') ∧ R a a'

namespace Both

variable {R : α → α' → Prop} {S : β → β' → Prop} {s s' : σ}

theorem pure {a : α} {a' : α'} (h : R a a') :
    Both R s s' (Pure.pure a : Tx σ ε α) (Pure.pure a') := Or.inr ⟨a, a', rfl, rfl, h⟩

theorem throw (e : ε) : Both R s s' (MonadExcept.throw e : Tx σ ε α) (MonadExcept.throw e) :=
  Or.inl ⟨e, rfl, rfl⟩

theorem read {f : σ → α} {f' : σ → α'} (h : R (f s) (f' s')) :
    Both R s s' (Tx.read f : Tx σ ε α) (Tx.read f') := Or.inr ⟨_, _, rfl, rfl, h⟩

theorem bind {t : Tx σ ε α} {t' : Tx σ ε α'} {f : α → Tx σ ε β} {f' : α' → Tx σ ε β'}
    (h : Both R s s' t t') (hf : ∀ a a', R a a' → Both S s s' (f a) (f' a')) :
    Both S s s' (t >>= f) (t' >>= f') := by
  simp only [Both, StateT.run_bind]
  rcases h with ⟨e, h, h'⟩ | ⟨a, a', h, h', ha⟩
  · rw [h, h']
    exact Or.inl ⟨e, rfl, rfl⟩
  · rw [h, h']
    exact hf a a' ha

theorem ofOption {e : ε} {o : Option α} {o' : Option α'}
    (h : Option.Rel R o o') : Both R s s' (Tx.ofOption e o) (Tx.ofOption e o') := by
  cases h with
  | none => exact throw e
  | some ha => exact pure ha

theorem ofExcept (x : Except ε α) :
    Both (· = ·) s s' (Tx.ofExcept x) (Tx.ofExcept x) := by
  cases x with
  | error e => exact throw e
  | ok a => exact pure rfl

theorem ensure {c c' : Bool} (e : ε) (h : c = c') :
    Both (fun _ _ => c = true ∧ c' = true) s s' (Tx.ensure c e) (Tx.ensure c' e) := by
  subst h
  cases c with
  | true => exact pure ⟨rfl, rfl⟩
  | false => exact throw e

end Both

end Tx

end AstroPlant
