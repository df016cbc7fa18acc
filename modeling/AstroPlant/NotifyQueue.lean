import Mathlib.Data.List.Nodup

/-!
# A queue whose consumers wait for a notification

`Notify` stores at most one permit, and one notification wakes one waiter. A
producer pushes an item and then notifies; a consumer takes an item, or waits
and tries again once it is notified.

Permits do not add up while items do, so it takes an invariant to see that no
item is left lying while all consumers sleep: as long as somebody sleeps, there
are no more items than consumers that have been woken (`Valid.wakes`).

A poll goes round the loop of the source until it has an item or has to wait, and
two rounds are enough (`rounds_ends`). What a consumer holds while it is woken
and has not been polled is neither an item nor a permit, and is why the bound
counts the consumers and not the notifications.
-/

namespace AstroPlant

theorem count_set_add {κ : Type} [DecidableEq κ] {xs : List κ} {i : Nat} {x : κ} (y a : κ)
    (hx : xs[i]? = some x) :
    (xs.set i y).count a + (if x = a then 1 else 0) = xs.count a + (if y = a then 1 else 0) := by
  obtain ⟨hi, rfl⟩ := List.getElem?_eq_some_iff.mp hx
  have hpos : xs[i] = a → 0 < xs.count a :=
    fun h => List.count_pos_iff.mpr (h ▸ List.getElem_mem hi)
  rw [List.count_set hi]
  simp only [beq_iff_eq]
  split <;> split <;> simp_all

/-- Waiters and a stored permit exclude each other. -/
inductive Notify where
  | permit
  | waiters (ids : List Nat)
deriving DecidableEq

namespace Notify

def waiting : Notify → List Nat
  | permit => []
  | waiters ids => ids

/-- Wakes the first waiter. -/
def notifyOne : Notify → Notify × Option Nat
  | permit | waiters [] => (permit, none)
  | waiters (i :: ids) => (waiters ids, some i)

/-- The first poll of `notified`: whether it is ready at once. -/
def notified (i : Nat) : Notify → Notify × Bool
  | permit => (waiters [], true)
  | waiters ids => (waiters (ids ++ [i]), false)

/-- Either nobody waits, or the one who has waited longest is woken. -/
theorem notifyOne_cases {n n' : Notify} {woken : Option Nat} (h : n.notifyOne = (n', woken)) :
    (n.waiting = [] ∧ n'.waiting = [] ∧ woken = none)
      ∨ ∃ i, n.waiting = i :: n'.waiting ∧ woken = some i := by
  match n with
  | permit =>
      obtain ⟨rfl, rfl⟩ := Prod.mk.inj h
      exact Or.inl ⟨rfl, rfl, rfl⟩
  | waiters [] =>
      obtain ⟨rfl, rfl⟩ := Prod.mk.inj h
      exact Or.inl ⟨rfl, rfl, rfl⟩
  | waiters (i :: ids) =>
      obtain ⟨rfl, rfl⟩ := Prod.mk.inj h
      exact Or.inr ⟨i, rfl, rfl⟩

end Notify

/-- A consumer's call. -/
inductive Consumer where
  | called
  | asleep
  | woken
  | returned
deriving DecidableEq

structure NotifyQueue (α : Type) where
  items : List α
  notify : Notify
  consumers : List Consumer
deriving DecidableEq

namespace NotifyQueue

variable {α : Type}

def empty : NotifyQueue α := ⟨[], .waiters [], []⟩

def wake (consumers : List Consumer) : Option Nat → List Consumer
  | none => consumers
  | some i => consumers.set i .woken

def push (q : NotifyQueue α) (x : α) : NotifyQueue α :=
  let (notify, woken) := q.notify.notifyOne
  { items := q.items ++ [x], notify, consumers := wake q.consumers woken }

def call (q : NotifyQueue α) : NotifyQueue α :=
  { q with consumers := q.consumers ++ [.called] }

/-- How one round of a consumer's loop ends. -/
inductive Round (α : Type) where
  | got (x : α)
  | again
  | pending

/-- One round: take an item, or else wait for a notification. -/
def round (q : NotifyQueue α) (i : Nat) : NotifyQueue α × Round α :=
  match q.items with
  | x :: items => ({ q with items, consumers := q.consumers.set i .returned }, .got x)
  | [] =>
      match q.notify.notified i with
      | (notify, true) => ({ q with notify }, .again)
      | (notify, false) => ({ q with notify, consumers := q.consumers.set i .asleep }, .pending)

/-- The rounds of one poll; there is no third one (`rounds_ends`). -/
def rounds (q : NotifyQueue α) (i : Nat) : NotifyQueue α × Round α :=
  match q.round i with
  | (q', .again) => q'.round i
  | r => r

/-- Poll a consumer: the item that it has got, if any. A sleeper stays asleep. -/
def poll (q : NotifyQueue α) (i : Nat) : Option (NotifyQueue α × Option α) :=
  match q.consumers[i]? with
  | some .called | some .woken =>
      match q.rounds i with
      | (q', .got x) => some (q', some x)
      | (q', _) => some (q', none)
  | some .asleep => some (q, none)
  | some .returned | none => none

/-- The items are dropped. -/
def clear (q : NotifyQueue α) : NotifyQueue α := { q with items := [] }

def Pending (q : NotifyQueue α) (i : Nat) : Prop :=
  ∃ c, q.consumers[i]? = some c ∧ c ≠ .returned

/-- There are items and consumers, and all consumers sleep. -/
def Stalled (q : NotifyQueue α) : Prop :=
  q.items ≠ [] ∧ (∃ i, q.Pending i) ∧ ∀ i, q.Pending i → q.consumers[i]? = some .asleep

/-! ## What a poll does -/

theorem rounds_of_items {q : NotifyQueue α} {i : Nat} {x : α} {items : List α}
    (h : q.items = x :: items) :
    q.rounds i = ({ q with items, consumers := q.consumers.set i .returned }, .got x) := by
  simp [rounds, round, h]

theorem rounds_of_empty {q : NotifyQueue α} {i : Nat} (h : q.items = []) :
    q.rounds i = ({ q with
      notify := .waiters (q.notify.waiting ++ [i]), consumers := q.consumers.set i .asleep },
      .pending) := by
  cases hn : q.notify <;> simp [rounds, round, h, hn, Notify.notified, Notify.waiting]

/-- After the stored permit has been used up the next round waits. -/
theorem rounds_ends (q : NotifyQueue α) (i : Nat) : (q.rounds i).2 ≠ .again := by
  cases h : q.items with
  | nil => simp [rounds_of_empty h]
  | cons x items => simp [rounds_of_items h]

theorem poll_cases {q q' : NotifyQueue α} {i : Nat} {x : Option α} (h : q.poll i = some (q', x)) :
    (q.consumers[i]? = some .asleep ∧ q' = q ∧ x = none)
      ∨ ∃ c, q.consumers[i]? = some c ∧ (c = .called ∨ c = .woken)
        ∧ ((∃ y, q.items = y :: q'.items ∧ x = some y
            ∧ q' = { q with items := q'.items, consumers := q.consumers.set i .returned })
          ∨ (q.items = [] ∧ x = none
            ∧ q' = { q with
              notify := .waiters (q.notify.waiting ++ [i])
              consumers := q.consumers.set i .asleep })) := by
  have hawake : ∀ c, q.consumers[i]? = some c → c = .called ∨ c = .woken →
      (match q.rounds i with
        | (q', .got x) => some (q', some x)
        | (q', _) => some (q', none)) = some (q', x) →
      ∃ c, q.consumers[i]? = some c ∧ (c = .called ∨ c = .woken)
        ∧ ((∃ y, q.items = y :: q'.items ∧ x = some y
            ∧ q' = { q with items := q'.items, consumers := q.consumers.set i .returned })
          ∨ (q.items = [] ∧ x = none
            ∧ q' = { q with
              notify := .waiters (q.notify.waiting ++ [i])
              consumers := q.consumers.set i .asleep })) := by
    intro c hc hcw h
    refine ⟨c, hc, hcw, ?_⟩
    cases hitems : q.items with
    | nil =>
        rw [rounds_of_empty hitems] at h
        obtain ⟨rfl, rfl⟩ := Prod.mk.inj (Option.some.inj h)
        exact Or.inr ⟨rfl, rfl, by rw [hitems]⟩
    | cons y items =>
        rw [rounds_of_items hitems] at h
        obtain ⟨rfl, rfl⟩ := Prod.mk.inj (Option.some.inj h)
        exact Or.inl ⟨y, rfl, rfl, rfl⟩
  unfold poll at h
  split at h
  · rename_i hc
    exact Or.inr (hawake .called hc (Or.inl rfl) h)
  · rename_i hc
    exact Or.inr (hawake .woken hc (Or.inr rfl) h)
  · rename_i hc
    obtain ⟨rfl, rfl⟩ := Prod.mk.inj (Option.some.inj h)
    exact Or.inl ⟨hc, rfl, rfl⟩
  · cases h
  · cases h

/-! ## No lost wake-up -/

structure Valid (q : NotifyQueue α) : Prop where
  waiting : ∀ i, i ∈ q.notify.waiting ↔ q.consumers[i]? = some .asleep
  nodup : q.notify.waiting.Nodup
  /-- Each item is on its way to a woken consumer, as long as another one sleeps. -/
  wakes : q.notify.waiting ≠ [] → q.items.length ≤ q.consumers.count .woken

theorem Valid.not_stalled {q : NotifyQueue α} (h : q.Valid) : ¬ q.Stalled := by
  rintro ⟨hitems, ⟨i, hi⟩, hasleep⟩
  have hwaiting : q.notify.waiting ≠ [] := List.ne_nil_of_mem ((h.waiting i).mpr (hasleep i hi))
  have hwoken : 0 < q.consumers.count .woken :=
    Nat.lt_of_lt_of_le (List.length_pos_of_ne_nil hitems) (h.wakes hwaiting)
  obtain ⟨j, hj⟩ := List.mem_iff_getElem?.mp (List.count_pos_iff.mp hwoken)
  have hsleeps := hasleep j ⟨.woken, hj, by decide⟩
  rw [hj] at hsleeps
  cases hsleeps

theorem valid_empty : (empty : NotifyQueue α).Valid where
  waiting i := by simp [empty, Notify.waiting]
  nodup := List.nodup_nil
  wakes h := absurd rfl h

theorem Valid.call {q : NotifyQueue α} (h : q.Valid) : q.call.Valid where
  waiting i := by
    rw [show q.call.notify = q.notify from rfl, h.waiting, NotifyQueue.call,
      List.getElem?_append]
    split
    · rfl
    · rename_i hi
      rw [List.getElem?_eq_none (by omega), List.getElem?_singleton]
      split <;> simp
  nodup := h.nodup
  wakes hw := by
    rw [NotifyQueue.call, List.count_append]
    exact Nat.le_add_right_of_le (h.wakes hw)

theorem Valid.clear {q : NotifyQueue α} (h : q.Valid) : q.clear.Valid where
  waiting := h.waiting
  nodup := h.nodup
  wakes _ := Nat.zero_le _

theorem Valid.push {q : NotifyQueue α} (h : q.Valid) (x : α) : (q.push x).Valid := by
  rcases hn : q.notify.notifyOne with ⟨n, woken⟩
  have hcases := Notify.notifyOne_cases hn
  have hpush : q.push x = ⟨q.items ++ [x], n, wake q.consumers woken⟩ := by
    rw [NotifyQueue.push, hn]
  rw [hpush]
  clear hpush hn
  rcases hcases with ⟨hempty, hempty', rfl⟩ | ⟨i, hwaiting, rfl⟩
  · refine ⟨fun j => ?_, ?_, fun hw => absurd hempty' hw⟩
    · rw [wake, ← h.waiting, hempty, hempty']
    · rw [hempty']
      exact List.nodup_nil
  · have hnodup := h.nodup
    rw [hwaiting, List.nodup_cons] at hnodup
    have hi : q.consumers[i]? = some .asleep :=
      (h.waiting i).mp (by rw [hwaiting]; exact List.mem_cons_self)
    refine ⟨fun j => ?_, hnodup.2, fun _ => ?_⟩
    · rw [wake, List.getElem?_set]
      split
      · rename_i hij
        subst hij
        split <;> simp [hnodup.1]
      · rename_i hij
        rw [← h.waiting, hwaiting, List.mem_cons, or_iff_right (Ne.symm hij)]
    · have hle := h.wakes (by simp [hwaiting])
      have hcount := count_set_add .woken .woken hi
      simp only [reduceCtorEq, if_false, if_true] at hcount
      show (q.items ++ [x]).length ≤ (q.consumers.set i .woken).count .woken
      rw [List.length_append, List.length_singleton]
      omega

@[simp] theorem items_push (q : NotifyQueue α) (x : α) : (q.push x).items = q.items ++ [x] := rfl

theorem returned_call {q : NotifyQueue α} {i : Nat} :
    q.call.consumers[i]? = some .returned ↔ q.consumers[i]? = some .returned := by
  rw [call, List.getElem?_append]
  split
  · rfl
  · rename_i hi
    rw [List.getElem?_eq_none (Nat.le_of_not_lt hi), List.getElem?_singleton]
    split <;> simp

theorem Valid.returned_push {q : NotifyQueue α} (h : q.Valid) (x : α) (i : Nat) :
    (q.push x).consumers[i]? = some .returned ↔ q.consumers[i]? = some .returned := by
  rcases hn : q.notify.notifyOne with ⟨n, woken⟩
  have hcases := Notify.notifyOne_cases hn
  have hpush : (q.push x).consumers = wake q.consumers woken := by
    rw [NotifyQueue.push, hn]
  rw [hpush]
  rcases hcases with ⟨-, -, rfl⟩ | ⟨j, hwaiting, rfl⟩
  · rfl
  · have hj : q.consumers[j]? = some .asleep :=
      (h.waiting j).mp (by rw [hwaiting]; exact List.mem_cons_self)
    rw [wake, List.getElem?_set]
    split
    · rename_i hij
      subst hij
      rw [hj]
      split <;> simp
    · rfl

theorem Valid.poll {q q' : NotifyQueue α} {i : Nat} {x : Option α} (h : q.Valid)
    (hp : q.poll i = some (q', x)) : q'.Valid := by
  rcases poll_cases hp with ⟨-, rfl, -⟩ | ⟨c, hc, hawake, hcase⟩
  · exact h
  have hi : i < q.consumers.length := (List.getElem?_eq_some_iff.mp hc).1
  have hnot : i ∉ q.notify.waiting := by
    rw [h.waiting, hc]
    rcases hawake with rfl | rfl <;> simp
  rcases hcase with ⟨y, hitems, -, hq'⟩ | ⟨hitems, -, rfl⟩
  · rw [hq']
    refine ⟨fun j => ?_, h.nodup, fun hw => ?_⟩
    · rw [h.waiting, List.getElem?_set]
      split
      · rename_i hij
        subst hij
        rcases hawake with rfl | rfl <;> rw [hc] <;> simp
      · rfl
    · have hle := h.wakes hw
      have hcount := count_set_add .returned .woken hc
      rw [hitems, List.length_cons] at hle
      simp only [reduceCtorEq, if_false] at hcount
      show q'.items.length ≤ (q.consumers.set i .returned).count .woken
      split at hcount <;> omega
  · refine ⟨fun j => ?_, ?_, fun _ => ?_⟩
    · rw [Notify.waiting, List.mem_append, List.mem_singleton, h.waiting, List.getElem?_set]
      split
      · rename_i hij
        subst hij
        simp [hi]
      · rename_i hij
        rw [or_iff_left (Ne.symm hij)]
    · rw [Notify.waiting, List.nodup_append]
      refine ⟨h.nodup, List.nodup_singleton i, fun a ha b hb => ?_⟩
      rw [List.mem_singleton.mp hb]
      rintro rfl
      exact hnot ha
    · rw [hitems]
      exact Nat.zero_le _

end NotifyQueue

end AstroPlant
