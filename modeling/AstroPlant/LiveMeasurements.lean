import AstroPlant.Listeners

/-!
# When live measurements arrive

A subscription is served while the sender it listens to is the registered one:
then what is published is put into its channel. Registering a sender and
removing one are separate from the lookup and from the count that led to them,
so they can take the sender away from under another subscription
(`first_subscribers_collide`). That is all that can go wrong: every
subscription is served throughout a run exactly if each of the two writes finds
no receiver of the sender that it replaces or removes (`live_iff_undisturbed`).

The registry only ever names senders that have been created (`Registered`), so a
receiver is either of the registered sender or of one that gets nothing any more
(`served_send`). A step other than the two writes leaves the registry as it is,
and then every subscription is served as before (`served_of_eq`); a write leaves
a subscription served exactly if it is undisturbing for it (`served_write_iff`).
-/

namespace AstroPlant

namespace Websocket

/-- The receiver's sender is registered, and was put every measurement of the
kit that was published since the receiver was obtained. -/
def Task.Served (s : Shared) : Task → Prop
  | .subscription (.forward kitSerial receiver _ _) =>
      s.rawMeasurementListeners.lookup kitSerial = some receiver.sender
        ∧ ∀ p ∈ s.published.drop receiver.since, p.1.kitSerial = kitSerial →
          p.2 = some receiver.sender
  | _ => True

/-- Every subscription that holds a receiver is served. -/
def Live (c : Conc Shared Task) : Prop := ∀ t ∈ c.tasks, t.Served c.store

/-- If this step is one of the two writes, the sender that is registered, if
any, has no receiver. -/
def Task.undisturbing (others : List Task) (s : Shared) : Task → Bool
  | .subscription (.register kitSerial _) | .subscription (.remove kitSerial) =>
      match s.rawMeasurementListeners.lookup kitSerial with
      | none => true
      | some sender => receiverCount sender others = 0
  | _ => true

def Undisturbed : Conc Shared Task → Sched Request Env → Prop :=
  Program.Ok (fun _ _ _ => True) fun _ t others s => t.undisturbing others s = true

/-! ## Senders are not shared -/

/-- Registered senders have been created, each for one kit. -/
structure Registered (s : Shared) : Prop where
  created : ∀ k, ∀ n ∈ s.rawMeasurementListeners.lookup k, n < s.created
  distinct : ∀ k k' n, n ∈ s.rawMeasurementListeners.lookup k →
    n ∈ s.rawMeasurementListeners.lookup k' → k = k'

theorem registered_start : Registered .start := by
  constructor <;> simp [Shared.start]

theorem registered_register {s : Shared} (h : Registered s) (kitSerial : String) :
    Registered { s with
      rawMeasurementListeners := s.rawMeasurementListeners.insert kitSerial s.created
      created := s.created + 1 } := by
  have hlookup : ∀ k n, n ∈ (s.rawMeasurementListeners.insert kitSerial s.created).lookup k →
      (k = kitSerial ∧ n = s.created)
        ∨ (k ≠ kitSerial ∧ n ∈ s.rawMeasurementListeners.lookup k) := by
    intro k n hn
    by_cases hk : k = kitSerial
    · subst hk
      rw [AList.lookup_insert] at hn
      exact Or.inl ⟨rfl, (Option.some.inj hn).symm⟩
    · rw [AList.lookup_insert_ne hk] at hn
      exact Or.inr ⟨hk, hn⟩
  constructor
  · intro k n hn
    show n < s.created + 1
    rcases hlookup k n hn with ⟨-, rfl⟩ | ⟨-, hn⟩
    · omega
    · have := h.created k n hn
      omega
  · intro k k' n hn hn'
    rcases hlookup k n hn with ⟨rfl, rfl⟩ | ⟨-, hold⟩ <;>
      rcases hlookup k' _ hn' with ⟨rfl, heq⟩ | ⟨-, hold'⟩
    · rfl
    · exact absurd (h.created k' _ hold') (Nat.lt_irrefl _)
    · rw [heq] at hold
      exact absurd (h.created k _ hold) (Nat.lt_irrefl _)
    · exact h.distinct k k' n hold hold'

theorem registered_remove {s : Shared} (h : Registered s) (kitSerial : String) :
    Registered { s with
      rawMeasurementListeners := s.rawMeasurementListeners.erase kitSerial } := by
  have hold : ∀ k n, n ∈ (s.rawMeasurementListeners.erase kitSerial).lookup k →
      n ∈ s.rawMeasurementListeners.lookup k := by
    intro k n hn
    by_cases hk : k = kitSerial
    · subst hk
      rw [AList.lookup_erase] at hn
      cases hn
    · rwa [AList.lookup_erase_ne hk] at hn
  exact ⟨fun k n hn => h.created k n (hold k n hn),
    fun k k' n hn hn' => h.distinct k k' n (hold k n hn) (hold k' n hn')⟩

/-! ## What a step can do -/

/-- A turn of the loop keeps the receiver's sender, or drops the receiver. -/
theorem served_forwardingLoop {s : Shared} {kitSerial : String} {receiver : Receiver}
    {lagged : Bool} {sink : List Mqtt.RawMeasurement} {branch : Branch} {next : Subscription}
    (h : forwardingLoop s kitSerial receiver lagged sink branch = some next)
    (hs : (Task.subscription (.forward kitSerial receiver lagged sink)).Served s) :
    (Task.subscription next).Served s := by
  rcases forwardingLoop_cases h with rfl | ⟨_, rfl⟩ | ⟨_, _, -, -, rfl⟩ | ⟨-, -, rfl⟩ | ⟨_, -, rfl⟩
  · trivial
  · exact hs
  · exact hs
  · exact hs
  · exact hs

theorem served_subscribe {s : Shared} {kitSerial : String} {sender : Nat} {lagged : Bool}
    {sink : List Mqtt.RawMeasurement}
    (h : s.rawMeasurementListeners.lookup kitSerial = some sender) :
    (Task.subscription (.forward kitSerial (s.subscribe sender) lagged sink)).Served s := by
  refine ⟨h, fun p hp => ?_⟩
  simp [Shared.subscribe] at hp

/-- The two writes to the registry, the publication of a measurement, and the
steps that leave both alone. -/
theorem advance_cases {e : Env} {t : Task} {others : List Task} {s s' : Shared}
    {k : Option Task} (h : program.advance e t others s = some (s', k)) :
    (∃ kitSerial sink, t = .subscription (.register kitSerial sink)
        ∧ s' = { s with
            rawMeasurementListeners := s.rawMeasurementListeners.insert kitSerial s.created
            created := s.created + 1 }
        ∧ k = some (.subscription (.forward kitSerial (s.subscribe s.created) false sink)))
      ∨ (∃ kitSerial, t = .subscription (.remove kitSerial)
        ∧ s' = { s with
            rawMeasurementListeners := s.rawMeasurementListeners.erase kitSerial }
        ∧ k = none)
      ∨ (∃ m, t = .send m ∧ s' = s.send m ∧ k = none)
      ∨ (s'.rawMeasurementListeners = s.rawMeasurementListeners ∧ s'.created = s.created
        ∧ s'.published = s.published ∧ (t.Served s → ∀ t' ∈ k, t'.Served s)
        ∧ t.undisturbing others s = true) := by
  cases advances_of_advance h with
  | register kitSerial sink => exact Or.inl ⟨kitSerial, sink, rfl, rfl, rfl⟩
  | remove kitSerial => exact Or.inr (Or.inl ⟨kitSerial, rfl, rfl, rfl⟩)
  | send m => exact Or.inr (Or.inr (Or.inl ⟨m, rfl, rfl, rfl⟩))
  | subscribe kitSerial sink hsender =>
      refine Or.inr (Or.inr (Or.inr ⟨rfl, rfl, rfl, fun _ t' ht' => ?_, rfl⟩))
      cases ht'
      exact served_subscribe hsender
  | loop hloop =>
      refine Or.inr (Or.inr (Or.inr ⟨rfl, rfl, rfl, fun hs t' ht' => ?_, rfl⟩))
      cases ht'
      exact served_forwardingLoop hloop hs
  | accept | dump | missing | last | cache =>
      refine Or.inr (Or.inr (Or.inr ⟨rfl, rfl, rfl, fun _ t' ht' => ?_, rfl⟩))
      cases ht'
      trivial
  | reject | panics | notLast | clean =>
      exact Or.inr (Or.inr (Or.inr ⟨rfl, rfl, rfl, fun _ t' ht' => (by cases ht'), rfl⟩))

theorem registered_advance {e : Env} {t : Task} {others : List Task} {s s' : Shared}
    {k : Option Task} (hs : Registered s) (h : program.advance e t others s = some (s', k)) :
    Registered s' := by
  rcases advance_cases h with ⟨kitSerial, sink, -, rfl, -⟩ | ⟨kitSerial, -, rfl, -⟩
    | ⟨m, -, rfl, -⟩ | ⟨hlisteners, hcreated, -⟩
  · exact registered_register hs kitSerial
  · exact registered_remove hs kitSerial
  · exact ⟨hs.created, hs.distinct⟩
  · constructor
    · rw [hlisteners, hcreated]
      exact hs.created
    · rw [hlisteners]
      exact hs.distinct

theorem registered_step {c c' : Conc Shared Task} {l : Sched Request Env}
    (hc : Registered c.store) (h : program.step c l = some c') : Registered c'.store := by
  rcases Program.step_cases h with ⟨r, -, rfl⟩ | ⟨i, e, t, s', k, -, -, hadv, rfl⟩
    | ⟨i, t, -, -, -, rfl⟩
  · exact hc
  · exact registered_advance hc hadv
  · exact hc

/-! ## The other subscriptions -/

theorem served_of_eq {s s' : Shared} {t : Task}
    (hlisteners : s'.rawMeasurementListeners = s.rawMeasurementListeners)
    (hpublished : s'.published = s.published) (ht : t.Served s) : t.Served s' := by
  cases t with
  | subscription subscription =>
      cases subscription with
      | forward kitSerial receiver lagged sink =>
          unfold Task.Served
          rw [hlisteners, hpublished]
          exact ht
      | _ => trivial
  | _ => trivial

/-- What is published is put into the sender that is registered for the kit, so
into that of each subscription that is served. -/
theorem served_send {s : Shared} {m : Mqtt.RawMeasurement} {t : Task} (ht : t.Served s) :
    t.Served (s.send m) := by
  cases t with
  | subscription subscription =>
      cases subscription with
      | forward kitSerial receiver lagged sink =>
          obtain ⟨hlookup, hpublished⟩ := ht
          refine ⟨hlookup, fun p hp hk => ?_⟩
          simp only [Shared.send, List.drop_append] at hp
          rcases List.mem_append.mp hp with hp | hp
          · exact hpublished p hp hk
          · obtain rfl := List.mem_singleton.mp (List.mem_of_mem_drop hp)
            dsimp only at hk ⊢
            rw [hk]
            exact hlookup
      | _ => trivial
  | _ => trivial

/-- **The key step.** Where the sender of one kit is replaced or removed, the
other subscriptions stay served exactly if that sender has no receiver. -/
theorem served_write_iff {s s' : Shared} {others : List Task} {kitSerial : String}
    (hs : Registered s) (hserved : ∀ u ∈ others, u.Served s)
    (hpublished : s'.published = s.published)
    (hother : ∀ k, k ≠ kitSerial →
      s'.rawMeasurementListeners.lookup k = s.rawMeasurementListeners.lookup k)
    (hself : ∀ sender ∈ s.rawMeasurementListeners.lookup kitSerial,
      s'.rawMeasurementListeners.lookup kitSerial ≠ some sender) :
    (∀ u ∈ others, u.Served s')
      ↔ ∀ sender ∈ s.rawMeasurementListeners.lookup kitSerial, receiverCount sender others = 0 := by
  constructor
  · intro hserved' sender hsender
    refine List.countP_eq_zero.mpr fun u hu hreceives => ?_
    have hold := hserved u hu
    have hnew := hserved' u hu
    cases u with
    | subscription subscription =>
        cases subscription with
        | forward k receiver lagged sink =>
            obtain rfl : receiver.sender = sender := by simpa [Task.receives] using hreceives
            -- the subscription listens to this very kit
            obtain rfl := hs.distinct k kitSerial _ hold.1 hsender
            exact hself _ hsender hnew.1
        | _ => cases hreceives
    | _ => cases hreceives
  · intro hfree u hu
    have hold := hserved u hu
    cases u with
    | subscription subscription =>
        cases subscription with
        | forward k receiver lagged sink =>
            by_cases hk : k = kitSerial
            · subst hk
              have hnone := List.countP_eq_zero.mp (hfree _ hold.1) _ hu
              exact absurd (by simp [Task.receives]) hnone
            · constructor
              · rw [hother k hk]
                exact hold.1
              · rw [hpublished]
                exact hold.2
        | _ => trivial
    | _ => trivial

/-! ## Runs -/

theorem undisturbing_register {s : Shared} {others : List Task} {kitSerial : String}
    {sink : List Mqtt.RawMeasurement} :
    (Task.subscription (.register kitSerial sink)).undisturbing others s = true
      ↔ ∀ sender ∈ s.rawMeasurementListeners.lookup kitSerial, receiverCount sender others = 0 := by
  simp only [Task.undisturbing]
  split <;> simp_all

theorem undisturbing_remove {s : Shared} {others : List Task} {kitSerial : String} :
    (Task.subscription (.remove kitSerial)).undisturbing others s = true
      ↔ ∀ sender ∈ s.rawMeasurementListeners.lookup kitSerial, receiverCount sender others = 0 := by
  simp only [Task.undisturbing]
  split <;> simp_all

/-- **One step keeps all subscriptions served exactly if it is undisturbing.** -/
theorem live_step {c c' : Conc Shared Task} {l : Sched Request Env} (hs : Registered c.store)
    (hc : Live c) (h : program.step c l = some c') : Live c' ↔ Undisturbed c l := by
  rcases Program.step_cases h with ⟨r, rfl, rfl⟩ | ⟨i, e, t, s', k, rfl, ht, hadv, rfl⟩
    | ⟨i, t, rfl, -, hf, -⟩
  · refine iff_of_true (fun u hu => ?_) trivial
    rcases List.mem_append.mp hu with hu | hu
    · exact hc u hu
    · rw [List.mem_singleton.mp hu]
      cases r <;> trivial
  · have hothers : ∀ u ∈ c.tasks.eraseIdx i, u.Served c.store :=
      fun u hu => hc u (List.mem_of_mem_eraseIdx hu)
    have hlive : Live ⟨s', Program.replace c.tasks i k⟩
        ↔ (∀ t' ∈ k, t'.Served s') ∧ ∀ u ∈ c.tasks.eraseIdx i, u.Served s' := by
      constructor
      · refine fun hl => ⟨fun t' ht' => ?_, fun u hu => hl u (Program.mem_replace_of_mem hu)⟩
        obtain rfl : k = some t' := ht'
        exact hl t' (Program.mem_replace_self ht)
      · exact fun ⟨hk, hts⟩ u hu => (Program.mem_replace hu).elim (hk u) (hts u)
    have hok : Undisturbed c (.run i e) ↔ t.undisturbing (c.tasks.eraseIdx i) c.store = true := by
      simp [Undisturbed, Program.Ok, ht]
    rw [hlive, hok]
    rcases advance_cases hadv with ⟨kitSerial, sink, rfl, rfl, rfl⟩ | ⟨kitSerial, rfl, rfl, rfl⟩
      | ⟨m, rfl, rfl, rfl⟩ | ⟨hlisteners, -, hpublished, hk, hok⟩
    · rw [undisturbing_register]
      refine (and_iff_right ?_).trans (served_write_iff hs hothers ?_ ?_ ?_)
      · intro t' ht'
        cases ht'
        refine ⟨AList.lookup_insert _, fun p hp => ?_⟩
        simp [Shared.subscribe] at hp
      · rfl
      · exact fun k hk => AList.lookup_insert_ne hk
      · intro sender hsender hsame
        rw [AList.lookup_insert] at hsame
        obtain rfl := Option.some.inj hsame
        exact absurd (hs.created _ _ hsender) (Nat.lt_irrefl _)
    · rw [undisturbing_remove]
      refine (and_iff_right ?_).trans (served_write_iff hs hothers ?_ ?_ ?_)
      · intro t' ht'
        cases ht'
      · rfl
      · exact fun k hk => AList.lookup_erase_ne hk
      · intro sender hsender hsame
        rw [AList.lookup_erase] at hsame
        cases hsame
    · exact iff_of_true ⟨fun t' ht' => (by cases ht'), fun u hu => served_send (hothers u hu)⟩ rfl
    · refine iff_of_true ⟨fun t' ht' => ?_, fun u hu => ?_⟩ hok
      · exact served_of_eq hlisteners hpublished (hk (hc t (List.mem_of_getElem? ht)) t' ht')
      · exact served_of_eq hlisteners hpublished (hothers u hu)
  · cases hf

/-- **Live delivery.** In all states of a run every subscription is served,
exactly if no write to the registry along the run disturbs another one. -/
theorem live_iff_undisturbed (ls : List (Sched Request Env)) :
    Run.Always program.step Live ⟨.start, []⟩ ls
      ↔ Run.Guarded program.step Undisturbed ⟨.start, []⟩ ls :=
  Run.always_iff_guarded (J := fun c => Registered c.store)
    (fun _ _ _ hs h => registered_step hs h) (fun _ _ _ hs hc h => live_step hs hc h) ls
    registered_start fun t ht => by cases ht

/-- Two subscriptions to a kit, each of which finds no sender. -/
def twoFirstSubscribers : List (Sched Request Env) :=
  [.spawn (.sub "k1"), .spawn (.sub "k1"),
    .run 0 {}, .run 0 {}, .run 0 {}, .run 1 {}, .run 1 {}, .run 1 {},
    .run 0 {}, .run 1 {}, .spawn (.publishRawMeasurement ⟨1, "k1", 0, 1, 1, F64.one⟩),
    .run 2 {}, .run 2 {}]

/-- The second one replaces the sender of the first one, which then misses what
is published. -/
theorem first_subscribers_collide :
    ∃ c, Run.exec program.step ⟨.start, []⟩ twoFirstSubscribers = some c
      ∧ c.tasks = [.subscription (.forward "k1" ⟨0, 0, 0⟩ false []),
          .subscription (.forward "k1" ⟨1, 0, 0⟩ false [])]
      ∧ (c.store.sent 0).length = 0 ∧ (c.store.sent 1).length = 1 ∧ ¬Live c := by
  refine ⟨_, rfl, rfl, rfl, rfl, fun h => ?_⟩
  exact absurd (h _ (List.mem_cons_self ..)).1 (by decide)

end Websocket

end AstroPlant
