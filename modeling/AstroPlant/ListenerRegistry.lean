import AstroPlant.LiveMeasurements

/-!
# The registry of listeners

A subscription that ends looks its kit up in the registry once more, and expects
to find it. It does so as long as the registry has an entry for each kit of
which a subscription holds a receiver, or has dropped one and not yet looked up
the count (`Registry.needed`). Nothing but the removal of an entry can break
this: a subscription that has counted no receivers removes the entry later, and
a new subscription may have found it meanwhile.

Entries do not leak, however the tasks interleave: the entry of a kit has a
receiver, or a subscription of the kit that is at its end (`Backed`).

Three assertions about a task carry the argument: the sender that its receiver
was made from exists (`Task.Bound`), the task keeps an entry from being idle
(`Task.backs`), and the task needs an entry (`Task.needs`). Only two kinds of
steps write the registry, and `RegistryStep` is the list of them. The first two
assertions hold in every run, so no entry leaks (`Sound.no_leak`). The third one
breaks exactly where an entry is removed that another task needs
(`needed_remove`).
-/

namespace AstroPlant

namespace Websocket

/-- The task holds a receiver for the kit. -/
def Task.live (kitSerial : String) : Task → Bool
  | .subscription (.forward k _ _ _) => k = kitSerial
  | _ => false

/-- The task holds a receiver for the kit, or has dropped it and not yet looked
up the count. -/
def Task.needs (kitSerial : String) : Task → Bool
  | .subscription (.forward k _ _ _) => k = kitSerial
  | .subscription (.count k) => k = kitSerial
  | _ => false

/-- The task has left one lock section and is going to enter another. -/
def Task.between : Task → Bool
  | .subscription (.lookup _ _) | .subscription (.register _ _) => true
  | .subscription (.count _) | .subscription (.remove _) => true
  | .send _ => true
  | _ => false

structure Registry (c : Conc Shared Task) : Prop where
  /-- The lookup at the end of a subscription finds an entry. -/
  needed : ∀ t ∈ c.tasks, ∀ kitSerial, t.needs kitSerial = true →
    ∃ sender, c.store.rawMeasurementListeners.lookup kitSerial = some sender
  /-- With no task between its lock sections there are only entries that are
  listened to. -/
  no_leak : (∀ t ∈ c.tasks, t.between = false) → ∀ kitSerial sender,
    c.store.rawMeasurementListeners.lookup kitSerial = some sender →
    ∃ t ∈ c.tasks, t.live kitSerial = true

/-- If this step removes the entry of a kit, no other subscription of the kit
holds a receiver or is about to count. -/
def Task.keepsNeeded (others : List Task) : Task → Bool
  | .subscription (.remove kitSerial) => others.all fun u => !u.needs kitSerial
  | _ => true

def KeepsNeeded : Conc Shared Task → Sched Request Env → Prop :=
  Program.Ok (fun _ _ _ => True) fun _ t others _ => t.keepsNeeded others = true

/-! ## What a step does to the registry -/

/-- A task that neither holds a receiver nor has dropped one. -/
def Task.uninvolved : Task → Bool
  | .subscription (.forward _ _ _ _) => false
  | .subscription (.count _) | .subscription (.remove _) => false
  | _ => true

/-- What the step of a task does to the registry, and what the task is next. -/
inductive RegistryStep (others : List Task) (s : Shared) : Task → Shared → Option Task → Prop
  | register (kitSerial : String) (sink : List Mqtt.RawMeasurement) :
      RegistryStep others s (.subscription (.register kitSerial sink))
        { s with
          rawMeasurementListeners := s.rawMeasurementListeners.insert kitSerial s.created
          created := s.created + 1 }
        (some (.subscription (.forward kitSerial (s.subscribe s.created) false sink)))
  | subscribe (kitSerial : String) (sink : List Mqtt.RawMeasurement) {sender : Nat}
      (hsender : s.rawMeasurementListeners.lookup kitSerial = some sender) :
      RegistryStep others s (.subscription (.lookup kitSerial sink)) s
        (some (.subscription (.forward kitSerial (s.subscribe sender) false sink)))
  | loop (kitSerial : String) {receiver receiver' : Receiver} (lagged lagged' : Bool)
      (sink sink' : List Mqtt.RawMeasurement) (hsender : receiver'.sender = receiver.sender) :
      RegistryStep others s (.subscription (.forward kitSerial receiver lagged sink)) s
        (some (.subscription (.forward kitSerial receiver' lagged' sink')))
  | drop (kitSerial : String) (receiver : Receiver) (lagged : Bool)
      (sink : List Mqtt.RawMeasurement) :
      RegistryStep others s (.subscription (.forward kitSerial receiver lagged sink)) s
        (some (.subscription (.count kitSerial)))
  | panics (kitSerial : String) (hnone : s.rawMeasurementListeners.lookup kitSerial = none) :
      RegistryStep others s (.subscription (.count kitSerial)) s none
  | last (kitSerial : String) :
      RegistryStep others s (.subscription (.count kitSerial)) s
        (some (.subscription (.remove kitSerial)))
  | notLast (kitSerial : String) {sender : Nat}
      (hsender : s.rawMeasurementListeners.lookup kitSerial = some sender)
      (hcount : receiverCount sender others ≠ 0) :
      RegistryStep others s (.subscription (.count kitSerial)) s none
  | remove (kitSerial : String) :
      RegistryStep others s (.subscription (.remove kitSerial))
        { s with rawMeasurementListeners := s.rawMeasurementListeners.erase kitSerial } none
  | elsewhere {t : Task} {s' : Shared} {k : Option Task} (ht : t.uninvolved = true)
      (hk : ∀ t' ∈ k, t'.uninvolved = true)
      (hlisteners : s'.rawMeasurementListeners = s.rawMeasurementListeners)
      (hcreated : s'.created = s.created) : RegistryStep others s t s' k

theorem registryStep_of_forwardingLoop {others : List Task} {s : Shared} {kitSerial : String}
    {receiver : Receiver} {lagged : Bool} {sink : List Mqtt.RawMeasurement} {branch : Branch}
    {next : Subscription}
    (h : forwardingLoop s kitSerial receiver lagged sink branch = some next) :
    RegistryStep others s (.subscription (.forward kitSerial receiver lagged sink)) s
      (some (.subscription next)) := by
  rcases forwardingLoop_cases h with rfl | ⟨_, rfl⟩ | ⟨_, _, -, -, rfl⟩ | ⟨-, -, rfl⟩ | ⟨_, -, rfl⟩
  · exact .drop _ _ _ _
  · exact .loop _ _ _ _ _ rfl
  · exact .loop _ _ _ _ _ rfl
  · exact .loop _ _ _ _ _ rfl
  · exact .loop _ _ _ _ _ rfl

theorem registryStep_of_advance {e : Env} {t : Task} {others : List Task} {s s' : Shared}
    {k : Option Task} (h : program.advance e t others s = some (s', k)) :
    RegistryStep others s t s' k := by
  cases advances_of_advance h with
  | register kitSerial sink => exact .register kitSerial sink
  | remove kitSerial => exact .remove kitSerial
  | subscribe kitSerial sink hsender => exact .subscribe kitSerial sink hsender
  | loop hloop => exact registryStep_of_forwardingLoop hloop
  | panics kitSerial hnone => exact .panics kitSerial hnone
  | last kitSerial => exact .last kitSerial
  | notLast kitSerial hsender hcount => exact .notLast kitSerial hsender hcount
  | accept | dump | missing | cache =>
      exact .elsewhere rfl (fun t' ht' => by cases ht'; rfl) rfl rfl
  | reject | send | clean => exact .elsewhere rfl (fun t' ht' => by cases ht') rfl rfl

/-! ## Entries do not leak -/

/-- The receiver's sender is not registered for another kit. -/
def Task.Bound (s : Shared) : Task → Prop
  | .subscription (.forward kitSerial receiver _ _) => receiver.sender < s.created
      ∧ ∀ k, receiver.sender ∈ s.rawMeasurementListeners.lookup k → k = kitSerial
  | _ => True

/-- Why the sender is registered for the kit: the task holds a receiver of it, or
is going to look at the entry. -/
def Task.backs (kitSerial : String) (sender : Nat) : Task → Bool
  | .subscription (.forward k receiver _ _) => k = kitSerial && receiver.sender = sender
  | .subscription (.count k) => k = kitSerial
  | .subscription (.remove k) => k = kitSerial
  | _ => false

def Backed (c : Conc Shared Task) : Prop :=
  ∀ kitSerial sender, c.store.rawMeasurementListeners.lookup kitSerial = some sender →
    ∃ t ∈ c.tasks, t.backs kitSerial sender = true

theorem bound_of_uninvolved {s : Shared} {t : Task} (h : t.uninvolved = true) : t.Bound s := by
  cases t with
  | subscription subscription =>
      cases subscription with
      | forward => cases h
      | _ => trivial
  | _ => trivial

theorem backs_of_uninvolved {t : Task} (h : t.uninvolved = true) (kitSerial : String)
    (sender : Nat) : t.backs kitSerial sender = false := by
  cases t with
  | subscription subscription =>
      cases subscription with
      | forward | count | remove => cases h
      | _ => rfl
  | _ => rfl

theorem needs_of_uninvolved {t : Task} (h : t.uninvolved = true) (kitSerial : String) :
    t.needs kitSerial = false := by
  cases t with
  | subscription subscription =>
      cases subscription with
      | forward | count => cases h
      | _ => rfl
  | _ => rfl

theorem Task.Bound.mono {s s' : Shared} {t : Task} (ht : t.Bound s)
    (hcreated : s.created ≤ s'.created)
    (hlookup : ∀ k sender, sender < s.created → sender ∈ s'.rawMeasurementListeners.lookup k →
      sender ∈ s.rawMeasurementListeners.lookup k) : t.Bound s' := by
  cases t with
  | subscription subscription =>
      cases subscription with
      | forward kitSerial receiver lagged sink =>
          obtain ⟨hlt, hkit⟩ := ht
          exact ⟨Nat.lt_of_lt_of_le hlt hcreated, fun k hk => hkit k (hlookup k _ hlt hk)⟩
      | _ => trivial
  | _ => trivial

theorem bound_step {others : List Task} {s s' : Shared} {t : Task} {k : Option Task}
    (hs : Registered s) (ht : t.Bound s) (hothers : ∀ u ∈ others, u.Bound s)
    (h : RegistryStep others s t s' k) :
    (∀ t' ∈ k, t'.Bound s') ∧ ∀ u ∈ others, u.Bound s' := by
  cases h with
  | register kitSerial sink =>
      have hlookup : ∀ k sender, sender < s.created →
          sender ∈ (s.rawMeasurementListeners.insert kitSerial s.created).lookup k →
          sender ∈ s.rawMeasurementListeners.lookup k := by
        intro k sender hlt hk
        by_cases hkit : k = kitSerial
        · subst hkit
          rw [AList.lookup_insert] at hk
          obtain rfl := Option.some.inj hk
          omega
        · rwa [AList.lookup_insert_ne hkit] at hk
      refine ⟨fun t' ht' => ?_, fun u hu => (hothers u hu).mono (Nat.le_succ _) hlookup⟩
      cases ht'
      refine ⟨Nat.lt_succ_self _, fun k hk => ?_⟩
      by_cases hkit : k = kitSerial
      · exact hkit
      · have hk : s.created ∈ s.rawMeasurementListeners.lookup k := by
          rwa [AList.lookup_insert_ne hkit] at hk
        exact absurd (hs.created k _ hk) (Nat.lt_irrefl _)
  | subscribe kitSerial sink hsender =>
      refine ⟨fun t' ht' => ?_, hothers⟩
      cases ht'
      exact ⟨hs.created kitSerial _ hsender, fun k hk => hs.distinct k kitSerial _ hk hsender⟩
  | loop kitSerial lagged lagged' sink sink' hsender =>
      refine ⟨fun t' ht' => ?_, hothers⟩
      cases ht'
      exact ⟨hsender ▸ ht.1, fun k hk => ht.2 k (hsender ▸ hk)⟩
  | drop | last =>
      refine ⟨fun t' ht' => ?_, hothers⟩
      cases ht'
      trivial
  | panics | notLast => exact ⟨fun t' ht' => (by cases ht'), hothers⟩
  | remove kitSerial =>
      refine ⟨fun t' ht' => (by cases ht'), fun u hu => (hothers u hu).mono (Nat.le_refl _) ?_⟩
      intro k sender _ hk
      by_cases hkit : k = kitSerial
      · subst hkit
        rw [AList.lookup_erase] at hk
        cases hk
      · rwa [AList.lookup_erase_ne hkit] at hk
  | elsewhere _ hk hlisteners hcreated =>
      refine ⟨fun t' ht' => bound_of_uninvolved (hk t' ht'), fun u hu => ?_⟩
      refine (hothers u hu).mono (Nat.le_of_eq hcreated.symm) fun k sender _ hk => ?_
      rwa [hlisteners] at hk

/-- What backs an entry after a step: the task as it is next, or another one. -/
theorem backed_step {others : List Task} {s s' : Shared} {t : Task} {k : Option Task}
    (hothers : ∀ u ∈ others, u.Bound s)
    (hbacked : ∀ kitSerial sender, s.rawMeasurementListeners.lookup kitSerial = some sender →
      t.backs kitSerial sender = true ∨ ∃ u ∈ others, u.backs kitSerial sender = true)
    (h : RegistryStep others s t s' k) (kitSerial : String) (sender : Nat)
    (hentry : s'.rawMeasurementListeners.lookup kitSerial = some sender) :
    (∃ t' ∈ k, t'.backs kitSerial sender = true)
      ∨ ∃ u ∈ others, u.backs kitSerial sender = true := by
  cases h with
  | register k₀ sink =>
      by_cases hkit : kitSerial = k₀
      · subst hkit
        have hsender : s.created = sender := by
          rw [AList.lookup_insert] at hentry
          exact Option.some.inj hentry
        exact Or.inl ⟨_, rfl, by simp [Task.backs, Shared.subscribe, hsender]⟩
      · rw [AList.lookup_insert_ne hkit] at hentry
        exact Or.inr ((hbacked kitSerial sender hentry).resolve_left (by simp [Task.backs]))
  | subscribe k₀ sink hsender =>
      exact Or.inr ((hbacked kitSerial sender hentry).resolve_left (by simp [Task.backs]))
  | loop k₀ lagged lagged' sink sink' hsender =>
      rcases hbacked kitSerial sender hentry with ht | hu
      · refine Or.inl ⟨_, rfl, ?_⟩
        simpa [Task.backs, hsender] using ht
      · exact Or.inr hu
  | drop k₀ receiver lagged sink =>
      rcases hbacked kitSerial sender hentry with ht | hu
      · simp only [Task.backs, Bool.and_eq_true, decide_eq_true_eq] at ht
        exact Or.inl ⟨_, rfl, by simp [Task.backs, ht.1]⟩
      · exact Or.inr hu
  | panics k₀ hnone =>
      rcases hbacked kitSerial sender hentry with ht | hu
      · obtain rfl : k₀ = kitSerial := by simpa [Task.backs] using ht
        exact absurd (hentry.symm.trans hnone) (by simp)
      · exact Or.inr hu
  | last k₀ =>
      rcases hbacked kitSerial sender hentry with ht | hu
      · exact Or.inl ⟨_, rfl, ht⟩
      · exact Or.inr hu
  | @notLast k₀ sender₀ hsender hcount =>
      rcases hbacked kitSerial sender hentry with ht | hu
      · obtain rfl : k₀ = kitSerial := by simpa [Task.backs] using ht
        obtain rfl := Option.some.inj (hentry.symm.trans hsender)
        -- whoever holds a receiver of this sender holds it for this kit
        obtain ⟨u, hu, hreceives⟩ := List.countP_pos_iff.mp (Nat.pos_of_ne_zero hcount)
        refine Or.inr ⟨u, hu, ?_⟩
        have hbound := hothers u hu
        cases u with
        | subscription subscription =>
            cases subscription with
            | forward k' receiver lagged sink =>
                obtain rfl : receiver.sender = sender := by simpa [Task.receives] using hreceives
                simp [Task.backs, hbound.2 k₀ hentry]
            | _ => cases hreceives
        | _ => cases hreceives
      · exact Or.inr hu
  | remove k₀ =>
      by_cases hkit : kitSerial = k₀
      · subst hkit
        rw [AList.lookup_erase] at hentry
        cases hentry
      · rw [AList.lookup_erase_ne hkit] at hentry
        refine Or.inr ((hbacked kitSerial sender hentry).resolve_left ?_)
        simp [Task.backs, Ne.symm hkit]
  | elsewhere ht _ hlisteners _ =>
      rw [hlisteners] at hentry
      refine Or.inr ((hbacked kitSerial sender hentry).resolve_left ?_)
      simp [backs_of_uninvolved ht]

/-! ## One step -/

/-- What holds of the registry however the tasks interleave. -/
structure Sound (c : Conc Shared Task) : Prop where
  registered : Registered c.store
  bound : ∀ t ∈ c.tasks, t.Bound c.store
  backed : Backed c

theorem exists_mem_replace {ts : List Task} {i : Nat} {t : Task} {k : Option Task}
    {p : Task → Prop} (h : ts[i]? = some t) :
    (∃ u ∈ Program.replace ts i k, p u) ↔ (∃ u ∈ k, p u) ∨ ∃ u ∈ ts.eraseIdx i, p u := by
  simp only [(Program.replace_perm k h).mem_iff, List.mem_append, Option.mem_toList]
  constructor
  · rintro ⟨u, hu | hu, hp⟩
    · exact Or.inl ⟨u, hu, hp⟩
    · exact Or.inr ⟨u, hu, hp⟩
  · rintro (⟨u, hu, hp⟩ | ⟨u, hu, hp⟩)
    · exact ⟨u, Or.inl hu, hp⟩
    · exact ⟨u, Or.inr hu, hp⟩

theorem sound_step {c c' : Conc Shared Task} {l : Sched Request Env} (hc : Sound c)
    (h : program.step c l = some c') : Sound c' := by
  have hregistered := registered_step hc.registered h
  rcases Program.step_cases h with ⟨r, rfl, rfl⟩ | ⟨i, e, t, s', k, rfl, ht, hadv, rfl⟩
    | ⟨i, t, rfl, -, hf, -⟩
  · refine ⟨hregistered, fun u hu => ?_, fun kitSerial sender hentry => ?_⟩
    · rcases List.mem_append.mp hu with hu | hu
      · exact hc.bound u hu
      · rw [List.mem_singleton.mp hu]
        cases r <;> trivial
    · obtain ⟨u, hu, hbacks⟩ := hc.backed kitSerial sender hentry
      exact ⟨u, List.mem_append_left _ hu, hbacks⟩
  · have hstep := registryStep_of_advance hadv
    have hothers : ∀ u ∈ c.tasks.eraseIdx i, u.Bound c.store :=
      fun u hu => hc.bound u (List.mem_of_mem_eraseIdx hu)
    obtain ⟨hk, hts⟩ :=
      bound_step hc.registered (hc.bound t (List.mem_of_getElem? ht)) hothers hstep
    refine ⟨hregistered, fun u hu => (Program.mem_replace hu).elim (hk u) (hts u), ?_⟩
    intro kitSerial sender hentry
    refine (exists_mem_replace ht).mpr (backed_step hothers (fun k₀ n hn => ?_) hstep _ _ hentry)
    obtain ⟨u, hu, hbacks⟩ := hc.backed k₀ n hn
    rcases List.mem_cons.mp ((Program.perm_of_getElem? ht).mem_iff.mp hu) with rfl | hu
    · exact Or.inl hbacks
    · exact Or.inr ⟨u, hu, hbacks⟩
  · cases hf

/-- With no task between its lock sections, whatever backs an entry holds a
receiver. -/
theorem Sound.no_leak {c : Conc Shared Task} (hc : Sound c)
    (hquiet : ∀ t ∈ c.tasks, t.between = false) (kitSerial : String) (sender : Nat)
    (hentry : c.store.rawMeasurementListeners.lookup kitSerial = some sender) :
    ∃ t ∈ c.tasks, t.live kitSerial = true := by
  obtain ⟨t, ht, hbacks⟩ := hc.backed kitSerial sender hentry
  refine ⟨t, ht, ?_⟩
  have hnot := hquiet t ht
  cases t with
  | subscription subscription =>
      cases subscription with
      | forward k receiver lagged sink =>
          simp only [Task.backs, Bool.and_eq_true] at hbacks
          exact hbacks.1
      | count | remove => cases hnot
      | _ => cases hbacks
  | _ => cases hbacks

/-- The entries that are needed. -/
def Needed (c : Conc Shared Task) : Prop :=
  ∀ t ∈ c.tasks, ∀ kitSerial, t.needs kitSerial = true →
    ∃ sender, c.store.rawMeasurementListeners.lookup kitSerial = some sender

/-- The entry of a kit is removed: the others find theirs exactly if none needs it. -/
theorem needed_remove {us : List Task} {s : Shared} {k₀ : String}
    (hs : ∀ u ∈ us, ∀ kitSerial, u.needs kitSerial = true →
      ∃ sender, s.rawMeasurementListeners.lookup kitSerial = some sender) :
    (∀ u ∈ us, ∀ kitSerial, u.needs kitSerial = true →
        ∃ sender, (s.rawMeasurementListeners.erase k₀).lookup kitSerial = some sender)
      ↔ ∀ u ∈ us, u.needs k₀ = false := by
  constructor
  · intro herased u hu
    cases hneeds : u.needs k₀ with
    | false => rfl
    | true =>
        obtain ⟨sender, hsender⟩ := herased u hu k₀ hneeds
        rw [AList.lookup_erase] at hsender
        cases hsender
  · intro hfree u hu kitSerial hneeds
    have hkit : kitSerial ≠ k₀ := by
      rintro rfl
      exact absurd ((hfree u hu).symm.trans hneeds) (by simp)
    obtain ⟨sender, hsender⟩ := hs u hu kitSerial hneeds
    exact ⟨sender, (AList.lookup_erase_ne hkit).trans hsender⟩

/-- **One step** keeps the needed entries exactly if it does not remove one. -/
theorem needed_run {i : Nat} {ts : List Task} {t : Task} {s s' : Shared} {k : Option Task}
    (hc : Needed ⟨s, ts⟩) (ht : ts[i]? = some t)
    (h : RegistryStep (ts.eraseIdx i) s t s' k) :
    Needed ⟨s', Program.replace ts i k⟩ ↔ t.keepsNeeded (ts.eraseIdx i) = true := by
  have hself : ∀ kitSerial, t.needs kitSerial = true →
      ∃ sender, s.rawMeasurementListeners.lookup kitSerial = some sender :=
    hc t (List.mem_of_getElem? ht)
  have hothers : ∀ u ∈ ts.eraseIdx i, ∀ kitSerial, u.needs kitSerial = true →
      ∃ sender, s.rawMeasurementListeners.lookup kitSerial = some sender :=
    fun u hu => hc u (List.mem_of_mem_eraseIdx hu)
  rw [Needed, Program.forall_mem_replace ht]
  cases h with
  | register k₀ sink =>
      have hentries : ∀ kitSerial sender,
          s.rawMeasurementListeners.lookup kitSerial = some sender →
          ∃ sender', (s.rawMeasurementListeners.insert k₀ s.created).lookup kitSerial
            = some sender' := by
        intro kitSerial sender hsender
        by_cases hkit : kitSerial = k₀
        · subst hkit
          exact ⟨_, AList.lookup_insert _⟩
        · exact ⟨sender, (AList.lookup_insert_ne hkit).trans hsender⟩
      refine iff_of_true ⟨fun t' ht' kitSerial hneeds => ?_, fun u hu kitSerial hneeds => ?_⟩ rfl
      · cases ht'
        obtain rfl : k₀ = kitSerial := by simpa [Task.needs] using hneeds
        exact ⟨_, AList.lookup_insert _⟩
      · obtain ⟨sender, hsender⟩ := hothers u hu kitSerial hneeds
        exact hentries kitSerial sender hsender
  | subscribe k₀ sink hsender =>
      refine iff_of_true ⟨fun t' ht' kitSerial hneeds => ?_, hothers⟩ rfl
      cases ht'
      obtain rfl : k₀ = kitSerial := by simpa [Task.needs] using hneeds
      exact ⟨_, hsender⟩
  | loop | drop =>
      refine iff_of_true ⟨fun t' ht' kitSerial hneeds => ?_, hothers⟩ rfl
      cases ht'
      exact hself kitSerial hneeds
  | panics | notLast => exact iff_of_true ⟨fun t' ht' => (by cases ht'), hothers⟩ rfl
  | last k₀ =>
      refine iff_of_true ⟨fun t' ht' kitSerial hneeds => ?_, hothers⟩ rfl
      cases ht'
      cases hneeds
  | remove k₀ =>
      simp only [Task.keepsNeeded, List.all_eq_true, Bool.not_eq_true']
      rw [← needed_remove hothers]
      exact and_iff_right fun t' ht' => by cases ht'
  | elsewhere ht₀ hk hlisteners hcreated =>
      have hkeeps : t.keepsNeeded (ts.eraseIdx i) = true := by
        cases t with
        | subscription subscription =>
            cases subscription with
            | remove => cases ht₀
            | _ => rfl
        | _ => rfl
      refine iff_of_true ⟨fun t' ht' kitSerial hneeds => ?_, fun u hu kitSerial hneeds => ?_⟩ hkeeps
      · rw [needs_of_uninvolved (hk t' ht')] at hneeds
        cases hneeds
      · rw [hlisteners]
        exact hothers u hu kitSerial hneeds

theorem registry_step {c c' : Conc Shared Task} {l : Sched Request Env} (hc : Sound c)
    (hreg : Registry c) (h : program.step c l = some c') : Registry c' ↔ KeepsNeeded c l := by
  have hneeded : Registry c' ↔ Needed c' :=
    ⟨fun h => h.needed, fun h' => ⟨h', (sound_step hc h).no_leak⟩⟩
  rw [hneeded]
  rcases Program.step_cases h with ⟨r, rfl, rfl⟩ | ⟨i, e, t, s', k, rfl, ht, hadv, rfl⟩
    | ⟨i, t, rfl, -, hf, -⟩
  · refine iff_of_true (fun u hu kitSerial hneeds => ?_) trivial
    rcases List.mem_append.mp hu with hu | hu
    · exact hreg.needed u hu kitSerial hneeds
    · rw [List.mem_singleton.mp hu] at hneeds
      cases r <;> cases hneeds
  · have hok : KeepsNeeded c (.run i e) ↔ t.keepsNeeded (c.tasks.eraseIdx i) = true := by
      simp [KeepsNeeded, Program.Ok, ht]
    rw [hok]
    exact needed_run hreg.needed ht (registryStep_of_advance hadv)
  · cases hf

/-! ## Runs -/

/-- **The registry of listeners** is as the subscriptions expect it in all states
of a run, exactly if no step of the run removes an entry that is needed. -/
theorem registry_iff_kept (ls : List (Sched Request Env)) :
    Run.Always program.step Registry ⟨.start, []⟩ ls
      ↔ Run.Guarded program.step KeepsNeeded ⟨.start, []⟩ ls :=
  Run.always_iff_guarded (J := Sound) (fun _ _ _ hc h => sound_step hc h)
    (fun _ _ _ hc hreg h => registry_step hc hreg h) ls
    ⟨registered_start, fun t ht => (by cases ht),
      fun _ _ hentry => by simp [Shared.start] at hentry⟩
    ⟨fun t ht => (by cases ht), fun _ _ _ hentry => by simp [Shared.start] at hentry⟩

/-- The last subscription to a kit ends; between its count and its removal a new
one finds the sender. -/
def subscribedBeforeRemoval : List (Sched Request Env) :=
  [.spawn (.sub "k3"), .run 0 {}, .run 0 {}, .run 0 {}, .run 0 {},
    .run 0 { branch := .tick true }, .run 0 {},
    .spawn (.sub "k3"), .run 1 {}, .run 1 {}, .run 1 {},
    .run 0 {}]

/-- The new subscription listens to a kit without an entry, and will not find it
when it ends. -/
theorem entry_removed_under_receiver :
    ∃ c, Run.exec program.step ⟨.start, []⟩ subscribedBeforeRemoval = some c
      ∧ c.tasks = [.subscription (.forward "k3" ⟨0, 0, 0⟩ false [])]
      ∧ c.store.rawMeasurementListeners.lookup "k3" = none
      ∧ ¬ Registry c := by
  have hrun : ∃ c, Run.exec program.step ⟨.start, []⟩ subscribedBeforeRemoval = some c
      ∧ c.tasks = [.subscription (.forward "k3" ⟨0, 0, 0⟩ false [])]
      ∧ c.store.rawMeasurementListeners.lookup "k3" = none := ⟨_, rfl, rfl, rfl⟩
  obtain ⟨c, hrun, htasks, hnone⟩ := hrun
  refine ⟨c, hrun, htasks, hnone, fun hregistry => ?_⟩
  obtain ⟨sender, hsender⟩ := hregistry.needed (.subscription (.forward "k3" ⟨0, 0, 0⟩ false []))
    (by rw [htasks]; exact List.mem_singleton.mpr rfl) "k3" rfl
  exact absurd (hsender.symm.trans hnone) (by simp)

end Websocket

end AstroPlant
