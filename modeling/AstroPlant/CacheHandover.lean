import AstroPlant.LiveMeasurements

/-!
# From the cache to the live feed

A subscription dumps the cached measurements of its kit and then obtains a
receiver for those to come. A publication adds its measurement to the cache and
then puts it into the sender. Each of the four is a lock section of its own, so
a publication may have both of its sections after the dump and before there is a
receiver, and the subscriber never sees it.

What the subscriber is owed is noted beside the run (`note`): the measurements
that the cache holds when the subscription is accepted, and those that are
published from then on, until its client has gone. That is all decided in the step that obtains the
receiver (`HandsOver`): what has been published completely by then has to be in
the dump. The steps after it lose nothing (`handover_iff`).

The claim is about one subscriber at a time, so a run is watched under this
assumption (`Assumed`), and so that the subscriber is not lapped. `Reaches` says
of a state where each measurement that is owed is: in the sink, in the channel
after the place the receiver is at, or with the task that will send it.
-/

namespace AstroPlant

namespace Websocket

open KitRpc (Duration)

variable (k : String)

/-- A subscription to the kit, at whatever stage. -/
def Task.subscribes : Task → Bool
  | .subscription (.pending kitSerial) | .subscription (.dump kitSerial) => kitSerial = k
  | .subscription (.lookup kitSerial _) | .subscription (.register kitSerial _) => kitSerial = k
  | .subscription (.forward kitSerial _ _ _) => kitSerial = k
  | .subscription (.count kitSerial) | .subscription (.remove kitSerial) => kitSerial = k
  | _ => false

/-- The measurements of the kit that are in the cache and within retention. -/
def Shared.retained (s : Shared) (now : Duration) : List Mqtt.RawMeasurement :=
  (((s.rawMeasurementCache.lookup k).map fun forKit => forKit.entries.map (·.2)).getD []).filterMap
    fun e => if now - e.1 < retentionPeriod then some e.2 else none

/-- What the subscriber of the kit is owed: at its acceptance the newest
measurements, and then every one that is published. A client whose sink is closed
is owed nothing. -/
def note (owed : List Mqtt.RawMeasurement) (c : Conc Shared Task) :
    Sched Request Env → List Mqtt.RawMeasurement
  | .run i e =>
      match c.tasks[i]? with
      | some (.subscription (.pending kitSerial)) =>
          if kitSerial = k ∧ e.authorized then c.store.retained k e.now else owed
      | some (.subscription (.forward kitSerial _ _ _)) =>
          if kitSerial = k ∧ e.branch = .recv false then [] else owed
      | some (.cache m) => if m.kitSerial = k then owed ++ [m] else owed
      | _ => owed
  | _ => owed

/-- The steps of the program, with the notes. -/
def watched : Conc Shared Task × List Mqtt.RawMeasurement → Sched Request Env →
    Option (Conc Shared Task × List Mqtt.RawMeasurement) :=
  Run.watch program.step (note k)

def watchedStart : Conc Shared Task × List Mqtt.RawMeasurement := (⟨.start, []⟩, [])

/-- Without the notes, the runs are those of the program. -/
theorem exec_watched (ls : List (Sched Request Env)) :
    (Run.exec (watched k) watchedStart ls).map Prod.fst
      = Run.exec program.step ⟨.start, []⟩ ls :=
  Run.exec_watch (note k) watchedStart ls

/-- A subscription with a receiver has forwarded what it is owed, or has it in
its channel, or it is yet to be put there by its publication. -/
def Task.Reached (s : Shared) (ts : List Task) (owed : List Mqtt.RawMeasurement) : Task → Prop
  | .subscription (.forward kitSerial receiver _ sink) => kitSerial = k →
      ∀ m ∈ owed, m ∈ sink ∨ m ∈ (s.sent receiver.sender).drop receiver.next ∨ Task.send m ∈ ts
  | _ => True

/-- Every measurement that is owed reaches the subscriber. -/
def Reaches (p : Conc Shared Task × List Mqtt.RawMeasurement) : Prop :=
  ∀ t ∈ p.1.tasks, t.Reached k p.1.store p.1.tasks p.2

/-- If the step obtains a receiver for the kit, what is owed has been dumped or
has not yet been through the second section of its publication. -/
def Task.handsOver (others : List Task) (s : Shared) (owed : List Mqtt.RawMeasurement) :
    Task → Prop
  | .subscription (.lookup kitSerial sink) => kitSerial = k →
      s.rawMeasurementListeners.lookup kitSerial ≠ none →
      ∀ m ∈ owed, m ∈ sink ∨ Task.send m ∈ others
  | .subscription (.register kitSerial sink) => kitSerial = k →
      ∀ m ∈ owed, m ∈ sink ∨ Task.send m ∈ others
  | _ => True

def HandsOver (p : Conc Shared Task × List Mqtt.RawMeasurement) : Sched Request Env → Prop :=
  Program.Ok (fun _ _ _ => True) (fun _ t others s => t.handsOver k others s p.2) p.1

/-- The receiver has not lost the message that it is to read next. -/
def Task.unlapped (s : Shared) (e : Env) : Task → Bool
  | .subscription (.forward kitSerial receiver _ _) =>
      match e.branch with
      | .recv _ => kitSerial ≠ k || (s.sent receiver.sender).length ≤ receiver.next + capacity
      | .tick _ => true
  | _ => true

/-- The kit has no other subscriber. -/
def Request.alone (ts : List Task) : Request → Bool
  | .sub kitSerial => kitSerial ≠ k || ts.all fun t => !t.subscribes k
  | _ => true

/-- The kit has one subscriber at a time, which is not lapped. -/
def Assumed (p : Conc Shared Task × List Mqtt.RawMeasurement) : Sched Request Env → Prop :=
  Program.Ok (fun r ts _ => r.alone k ts = true) (fun e t _ s => t.unlapped k s e = true) p.1

instance Assumed.decidable (p : Conc Shared Task × List Mqtt.RawMeasurement)
    (l : Sched Request Env) : Decidable (Assumed k p l) :=
  inferInstanceAs (Decidable (Program.Ok _ _ _ _))

/-! ## What is known throughout -/

/-- The cache holds the measurements of a kit under its serial. -/
def Shared.Filed (s : Shared) : Prop :=
  ∀ kitSerial, ∀ forKit ∈ s.rawMeasurementCache.lookup kitSerial, ∀ e ∈ forKit.entries,
    e.2.2.kitSerial = kitSerial

/-- The receiver's sender is the one that is registered, and has been put at
least what the receiver has read. -/
def Task.Fed (s : Shared) : Task → Prop
  | .subscription (.forward kitSerial receiver _ _) => kitSerial = k →
      s.rawMeasurementListeners.lookup k = some receiver.sender
        ∧ receiver.next ≤ (s.sent receiver.sender).length
  | _ => True

structure Watched (p : Conc Shared Task × List Mqtt.RawMeasurement) : Prop where
  filed : p.1.store.Filed
  owed : ∀ m ∈ p.2, m.kitSerial = k
  one : p.1.tasks.countP (·.subscribes k) ≤ 1
  fed : ∀ t ∈ p.1.tasks, t.Fed k p.1.store

variable {k} {s s' : Shared} {t : Task} {others : List Task} {e : Env} {next : Option Task}

/-! ## What a step does to the store -/

theorem sent_send (m : Mqtt.RawMeasurement) (sender : Nat) :
    (s.send m).sent sender = s.sent sender
      ++ if s.rawMeasurementListeners.lookup m.kitSerial = some sender then [m] else [] := by
  simp only [Shared.sent, Shared.send, List.filterMap_append, List.filterMap_cons,
    List.filterMap_nil]
  split <;> split <;> simp_all

/-- What a step leaves of the registry, and of what has been sent. -/
structure StoreStep (k : String) (t : Task) (s s' : Shared) : Prop where
  lookup : t.subscribes k = false →
    s'.rawMeasurementListeners.lookup k = s.rawMeasurementListeners.lookup k
  sent : ∀ sender, s.sent sender <+: s'.sent sender
  same_sent : (∀ m, t ≠ .send m) → ∀ sender, s'.sent sender = s.sent sender
  filed : s.Filed → s'.Filed

theorem storeStep_refl (t : Task) : StoreStep k t s s :=
  ⟨fun _ => rfl, fun _ => List.prefix_refl _, fun _ _ => rfl, fun h => h⟩

theorem filed_cache (h : s.Filed) (now : Duration) (m : Mqtt.RawMeasurement) :
    (s.cache now m).Filed := by
  intro kitSerial forKit hforKit e he
  by_cases hkit : kitSerial = m.kitSerial
  · subst hkit
    simp only [Shared.cache, AList.lookup_insert] at hforKit
    obtain rfl := Option.some.inj hforKit
    rw [AList.entries_insert] at he
    rcases List.mem_cons.mp he with rfl | he
    · rfl
    · have he := (List.kerase_sublist _ _).subset he
      cases hold : s.rawMeasurementCache.lookup m.kitSerial with
      | none =>
          rw [hold] at he
          cases he
      | some old =>
          rw [hold] at he
          exact h m.kitSerial old hold e he
  · simp only [Shared.cache, AList.lookup_insert_ne hkit] at hforKit
    exact h kitSerial forKit hforKit e he

theorem filed_clean (h : s.Filed) (now : Duration) : (s.clean now).Filed := by
  intro kitSerial forKit hforKit e he
  have hforKit := (HashMap.mem_lookup_retain.mp hforKit).1
  rw [AList.lookup_to_alist] at hforKit
  obtain ⟨⟨kitSerial', old⟩, hold, heq⟩ := List.mem_map.mp (List.of_mem_dlookup hforKit)
  cases heq
  exact h kitSerial' old (AList.mem_lookup_iff.mpr hold) e (List.mem_filter.mp he).1

theorem storeStep_of_advance (h : program.advance e t others s = some (s', next)) :
    StoreStep k t s s' := by
  cases advances_of_advance h with
  | register kitSerial sink =>
      refine ⟨fun hk => ?_, fun _ => List.prefix_refl _, fun _ _ => rfl, fun h => h⟩
      exact AList.lookup_insert_ne (by simpa [Task.subscribes, eq_comm] using hk)
  | remove kitSerial =>
      refine ⟨fun hk => ?_, fun _ => List.prefix_refl _, fun _ _ => rfl, fun h => h⟩
      exact AList.lookup_erase_ne (by simpa [Task.subscribes, eq_comm] using hk)
  | send m =>
      refine ⟨fun _ => rfl, fun sender => ?_, fun hne => absurd rfl (hne m), fun h => h⟩
      rw [sent_send]
      exact List.prefix_append _ _
  | cache m =>
      exact ⟨fun _ => rfl, fun _ => List.prefix_refl _, fun _ _ => rfl, fun h => filed_cache h _ m⟩
  | clean =>
      exact ⟨fun _ => rfl, fun _ => List.prefix_refl _, fun _ _ => rfl, fun h => filed_clean h _⟩
  | accept | reject | dump | subscribe | missing | loop | panics | last | notLast =>
      exact storeStep_refl _

/-! ## The notes stand -/

theorem subscribes_next (h : program.advance e t others s = some (s', next)) :
    ∀ t' ∈ next, t'.subscribes k = true → t.subscribes k = true := by
  intro t' ht' hsub
  cases advances_of_advance h with
  | loop hloop =>
      cases ht'
      rcases forwardingLoop_cases hloop with rfl | ⟨_, rfl⟩ | ⟨_, _, -, -, rfl⟩ | ⟨-, -, rfl⟩
        | ⟨_, -, rfl⟩ <;> exact hsub
  | accept | dump | subscribe | missing | register | last =>
      cases ht'
      exact hsub
  | cache m =>
      cases ht'
      cases hsub
  | reject | panics | notLast | remove | send | clean => cases ht'

theorem fed_of_not_subscribes (h : t.subscribes k = false) : t.Fed k s := by
  cases t with
  | subscription subscription =>
      cases subscription with
      | forward kitSerial receiver lagged sink =>
          intro hkit
          simp [Task.subscribes, hkit] at h
      | _ => trivial
  | _ => trivial

theorem Task.Fed.mono (ht : t.Fed k s)
    (hlookup : s'.rawMeasurementListeners.lookup k = s.rawMeasurementListeners.lookup k)
    (hsent : ∀ sender, s.sent sender <+: s'.sent sender) : t.Fed k s' := by
  cases t with
  | subscription subscription =>
      cases subscription with
      | forward kitSerial receiver lagged sink =>
          intro hkit
          obtain ⟨hsender, hle⟩ := ht hkit
          exact ⟨hlookup.trans hsender, Nat.le_trans hle (hsent _).length_le⟩
      | _ => trivial
  | _ => trivial

theorem unlapped_recv {kitSerial : String} {receiver : Receiver} {lagged sent : Bool}
    {sink : List Mqtt.RawMeasurement}
    (h : (Task.subscription (.forward kitSerial receiver lagged sink)).unlapped k s e = true)
    (hb : e.branch = .recv sent) (hkit : kitSerial = k) :
    ¬ receiver.next + capacity < (s.sent receiver.sender).length := by
  simp only [Task.unlapped, hb, hkit, Bool.or_eq_true, decide_eq_true_eq, ne_eq,
    not_true_eq_false, false_or] at h
  omega

theorem fed_next (ht : t.Fed k s) (hunlapped : t.unlapped k s e = true)
    (h : program.advance e t others s = some (s', next)) : ∀ t' ∈ next, t'.Fed k s' := by
  intro t' ht'
  cases advances_of_advance h with
  | register kitSerial sink =>
      cases ht'
      rintro rfl
      exact ⟨AList.lookup_insert _, Nat.le_refl _⟩
  | subscribe kitSerial sink hsender =>
      cases ht'
      rintro rfl
      exact ⟨hsender, Nat.le_refl _⟩
  | loop hloop =>
      cases ht'
      rcases forwardingLoop_cases hloop with rfl | ⟨_, rfl⟩ | ⟨sent, _, hb, hlt, rfl⟩
        | ⟨-, hlt, rfl⟩ | ⟨m, hm, rfl⟩
      · trivial
      · exact ht
      · intro hkit
        exact absurd hlt (unlapped_recv hunlapped hb hkit)
      · exact fun hkit => ⟨(ht hkit).1, hlt⟩
      · intro hkit
        exact ⟨(ht hkit).1, (List.getElem?_eq_some_iff.mp hm).1⟩
  | accept | dump | missing | last | cache =>
      cases ht'
      trivial
  | reject | panics | notLast | remove | send | clean => cases ht'

/-- Where the stepping task is the one subscription to the kit, no other task
is. -/
theorem others_of_subscribes {ts : List Task} {i : Nat} (ht : ts[i]? = some t)
    (hone : ts.countP (·.subscribes k) ≤ 1) (hsub : t.subscribes k = true) :
    ∀ u ∈ ts.eraseIdx i, u.subscribes k = false := by
  intro u hu
  have hcount := (Program.perm_of_getElem? ht).countP_eq (·.subscribes k)
  rw [List.countP_cons, if_pos hsub] at hcount
  have hzero : (ts.eraseIdx i).countP (·.subscribes k) = 0 := by omega
  simpa using List.countP_eq_zero.mp hzero u hu

theorem retained_filed (h : s.Filed) (now : Duration) :
    ∀ m ∈ s.retained k now, m.kitSerial = k := by
  intro m hm
  obtain ⟨entry, hentry, hsome⟩ := List.mem_filterMap.mp hm
  cases hforKit : s.rawMeasurementCache.lookup k with
  | none =>
      rw [hforKit] at hentry
      cases hentry
  | some forKit =>
      rw [hforKit] at hentry
      obtain ⟨e, he, rfl⟩ := List.mem_map.mp hentry
      split at hsome
      · obtain rfl := Option.some.inj hsome
        exact h k forKit hforKit e he
      · cases hsome

theorem note_owed {c : Conc Shared Task} {owed : List Mqtt.RawMeasurement}
    (hfiled : c.store.Filed) (howed : ∀ m ∈ owed, m.kitSerial = k) (l : Sched Request Env) :
    ∀ m ∈ note k owed c l, m.kitSerial = k := by
  cases l with
  | run i e =>
      simp only [note]
      split
      · split
        · exact retained_filed hfiled e.now
        · exact howed
      · split
        · exact nofun
        · exact howed
      · split
        · rename_i m hkit
          intro m' hm'
          rcases List.mem_append.mp hm' with hm' | hm'
          · exact howed m' hm'
          · rw [List.mem_singleton.mp hm']
            exact hkit
        · exact howed
      · exact howed
  | spawn | fault => exact howed

theorem countP_spawn {ts : List Task} {r : Request} (hone : ts.countP (·.subscribes k) ≤ 1)
    (halone : r.alone k ts = true) :
    (ts ++ [program.entry r]).countP (·.subscribes k) ≤ 1 := by
  rw [List.countP_append, List.countP_singleton]
  cases r with
  | sub kitSerial =>
      by_cases hkit : kitSerial = k
      · have hfree : ∀ t ∈ ts, t.subscribes k = false := by
          simpa [Request.alone, hkit] using halone
        have hzero : ts.countP (·.subscribes k) = 0 :=
          List.countP_eq_zero.mpr fun t ht => by simp [hfree t ht]
        rw [hzero]
        split <;> omega
      · simpa [program, Task.subscribes, hkit] using hone
  | publishRawMeasurement | clean => exact hone

theorem watched_step {p p' : Conc Shared Task × List Mqtt.RawMeasurement}
    {l : Sched Request Env} (hp : Watched k p) (hassumed : Assumed k p l)
    (h : watched k p l = some p') : Watched k p' := by
  obtain ⟨c', hstep, rfl⟩ := Option.map_eq_some_iff.mp h
  refine ⟨?_, note_owed hp.filed hp.owed l, ?_, ?_⟩
  · rcases Program.step_cases hstep with ⟨r, rfl, rfl⟩ | ⟨i, e, t, s', next, rfl, ht, hadv, rfl⟩
      | ⟨i, t, rfl, -, hf, -⟩
    · exact hp.filed
    · exact (storeStep_of_advance (k := k) hadv).filed hp.filed
    · cases hf
  · rcases Program.step_cases hstep with ⟨r, rfl, rfl⟩ | ⟨i, e, t, s', next, rfl, ht, hadv, rfl⟩
      | ⟨i, t, rfl, -, hf, -⟩
    · exact countP_spawn hp.one hassumed
    · exact Nat.le_trans (Program.countP_replace_le ht (subscribes_next hadv)) hp.one
    · cases hf
  · rcases Program.step_cases hstep with ⟨r, rfl, rfl⟩ | ⟨i, e, t, s', next, rfl, ht, hadv, rfl⟩
      | ⟨i, t, rfl, -, hf, -⟩
    · intro u hu
      rcases List.mem_append.mp hu with hu | hu
      · exact hp.fed u hu
      · rw [List.mem_singleton.mp hu]
        cases r <;> trivial
    · refine (Program.forall_mem_replace ht).mpr ⟨?_, fun u hu => ?_⟩
      · exact fed_next (hp.fed t (List.mem_of_getElem? ht)) (hassumed t ht) hadv
      · have hstore := storeStep_of_advance (k := k) hadv
        cases hsub : t.subscribes k with
        | true => exact fed_of_not_subscribes (others_of_subscribes ht hp.one hsub u hu)
        | false =>
            exact (hp.fed u (List.mem_of_mem_eraseIdx hu)).mono (hstore.lookup hsub) hstore.sent
    · cases hf

/-! ## One step -/

variable {ts : List Task} {owed owed' : List Mqtt.RawMeasurement}

theorem reached_of_not_subscribes (h : t.subscribes k = false) : t.Reached k s ts owed := by
  cases t with
  | subscription subscription =>
      cases subscription with
      | forward kitSerial receiver lagged sink =>
          intro hkit
          simp [Task.subscribes, hkit] at h
      | _ => trivial
  | _ => trivial

/-- What reaches the subscriber still does after a step of somebody else. -/
theorem Task.Reached.mono {ts' : List Task} (ht : t.Reached k s ts owed) (hfed : t.Fed k s)
    (hsent : ∀ sender, s.sent sender <+: s'.sent sender)
    (howed : ∀ m ∈ owed', m ∈ owed ∨ Task.send m ∈ ts')
    (hsends : ∀ m ∈ owed, Task.send m ∈ ts → Task.send m ∈ ts'
      ∨ ∀ sender, s.rawMeasurementListeners.lookup k = some sender →
        s'.sent sender = s.sent sender ++ [m]) :
    t.Reached k s' ts' owed' := by
  cases t with
  | subscription subscription =>
      cases subscription with
      | forward kitSerial receiver lagged sink =>
          intro hkit m hm
          obtain ⟨hlookup, hle⟩ := hfed hkit
          rcases howed m hm with hm | hsend
          · rcases ht hkit m hm with hsink | hchannel | hsend
            · exact Or.inl hsink
            · obtain ⟨more, hmore⟩ := hsent receiver.sender
              rw [← hmore, List.drop_append_of_le_length hle]
              exact Or.inr (Or.inl (List.mem_append_left _ hchannel))
            · rcases hsends m hm hsend with hsend | hput
              · exact Or.inr (Or.inr hsend)
              · rw [hput _ hlookup, List.drop_append_of_le_length hle]
                exact Or.inr (Or.inl (List.mem_append_right _ (List.mem_singleton.mpr rfl)))
          · exact Or.inr (Or.inr hsend)
      | _ => trivial
  | _ => trivial

/-- What a turn of the loop takes out of the channel goes to the client, unless it
has gone. -/
theorem reached_loop {kitSerial : String} {receiver : Receiver} {lagged : Bool}
    {sink : List Mqtt.RawMeasurement} {sub : Subscription} {ts' : List Task}
    (hloop : forwardingLoop s kitSerial receiver lagged sink e.branch = some sub)
    (ht : (Task.subscription (.forward kitSerial receiver lagged sink)).Reached k s ts owed)
    (hunlapped :
      (Task.subscription (.forward kitSerial receiver lagged sink)).unlapped k s e = true)
    (hsends : ∀ m, Task.send m ∈ ts → Task.send m ∈ ts') :
    (Task.subscription sub).Reached k s ts'
      (if kitSerial = k ∧ e.branch = .recv false then [] else owed) := by
  by_cases hgone : kitSerial = k ∧ e.branch = .recv false
  · rw [if_pos hgone]
    cases sub with
    | forward => exact fun _ _ hm => by cases hm
    | _ => trivial
  rw [if_neg hgone]
  rcases forwardingLoop_cases hloop with rfl | ⟨_, rfl⟩ | ⟨sent, _, hb, hlt, rfl⟩ | ⟨hb, -, rfl⟩
    | ⟨m', hm', rfl⟩
  · trivial
  · intro hkit m hm
    rcases ht hkit m hm with hsink | hchannel | hsend
    · exact Or.inl hsink
    · exact Or.inr (Or.inl hchannel)
    · exact Or.inr (Or.inr (hsends m hsend))
  · intro hkit
    exact absurd hlt (unlapped_recv hunlapped hb hkit)
  · exact fun hkit => absurd ⟨hkit, hb⟩ hgone
  · intro hkit m hm
    rcases ht hkit m hm with hsink | hchannel | hsend
    · exact Or.inl (List.mem_append_left _ hsink)
    · obtain ⟨hlt, rfl⟩ := List.getElem?_eq_some_iff.mp hm'
      rw [List.drop_eq_getElem_cons hlt] at hchannel
      rcases List.mem_cons.mp hchannel with rfl | hchannel
      · exact Or.inl (List.mem_append_right _ (List.mem_singleton.mpr rfl))
      · exact Or.inr (Or.inl hchannel)
    · exact Or.inr (Or.inr (hsends m hsend))

/-- Where a receiver has just been obtained, its channel is empty. -/
theorem reached_subscribe {kitSerial : String} {sink : List Mqtt.RawMeasurement} {sender i : Nat}
    (hsent : ∀ n, s'.sent n = s.sent n) :
    (∀ t' ∈ (some (.subscription (.forward kitSerial (s.subscribe sender) false sink))),
        Task.Reached k s' (Program.replace ts i
          (some (.subscription (.forward kitSerial (s.subscribe sender) false sink)))) owed t')
      ↔ (kitSerial = k → ∀ m ∈ owed, m ∈ sink ∨ Task.send m ∈ ts.eraseIdx i) := by
  have hmem : ∀ m, Task.send m ∈ Program.replace ts i
      (some (.subscription (.forward kitSerial (s.subscribe sender) false sink)))
        ↔ Task.send m ∈ ts.eraseIdx i := by
    refine fun m => ⟨fun h => (Program.mem_replace h).resolve_left fun h => ?_,
      Program.mem_replace_of_mem⟩
    cases h
  simp only [Option.mem_def, Option.some.injEq, forall_eq', Task.Reached, Shared.subscribe, hsent,
    List.drop_length, List.not_mem_nil, false_or]
  exact forall_congr' fun _ => forall_congr' fun m => forall_congr' fun _ =>
    or_congr_right (hmem m)

theorem reached_others {c : Conc Shared Task} {i : Nat} (hp : Watched k (c, owed))
    (hreach : Reaches k (c, owed)) (ht : c.tasks[i]? = some t) (hsub : t.subscribes k = false)
    (hadv : program.advance e t (c.tasks.eraseIdx i) c.store = some (s', next)) :
    ∀ u ∈ c.tasks.eraseIdx i,
      u.Reached k s' (Program.replace c.tasks i next) (note k owed c (.run i e)) := by
  have hstore := storeStep_of_advance (k := k) hadv
  intro u hu
  have hmem := List.mem_of_mem_eraseIdx hu
  refine (hreach u hmem).mono (hp.fed u hmem) hstore.sent (fun m hm => ?_) fun m hm hsend => ?_
  · cases t with
    | subscription subscription =>
        cases subscription with
        | pending kitSerial =>
            have hkit : kitSerial ≠ k := by simpa [Task.subscribes] using hsub
            simp only [note, ht, hkit, false_and, if_false] at hm
            exact Or.inl hm
        | forward kitSerial receiver lagged sink =>
            have hkit : kitSerial ≠ k := by simpa [Task.subscribes] using hsub
            simp only [note, ht, hkit, false_and, if_false] at hm
            exact Or.inl hm
        | _ =>
            simp only [note, ht] at hm
            exact Or.inl hm
    | cache m' =>
        cases hadv
        simp only [note, ht] at hm
        split at hm
        · rcases List.mem_append.mp hm with hm | hm
          · exact Or.inl hm
          · rw [List.mem_singleton.mp hm]
            exact Or.inr (Program.mem_replace_self ht)
        · exact Or.inl hm
    | send m' | clean =>
        simp only [note, ht] at hm
        exact Or.inl hm
  · rcases List.mem_cons.mp ((Program.perm_of_getElem? ht).mem_iff.mp hsend) with rfl | hsend
    · cases hadv
      refine Or.inr fun sender hsender => ?_
      rw [sent_send, hp.owed m hm, if_pos hsender]
    · exact Or.inl (Program.mem_replace_of_mem hsend)

theorem reached_own {c : Conc Shared Task} {i : Nat} (hreach : Reaches k (c, owed))
    (ht : c.tasks[i]? = some t) (hsub : t.subscribes k = true)
    (hunlapped : t.unlapped k c.store e = true)
    (hadv : program.advance e t (c.tasks.eraseIdx i) c.store = some (s', next)) :
    (∀ t' ∈ next, t'.Reached k s' (Program.replace c.tasks i next) (note k owed c (.run i e)))
      ↔ t.handsOver k (c.tasks.eraseIdx i) c.store owed := by
  have hsends : ∀ m, Task.send m ∈ c.tasks → Task.send m ∈ c.tasks.eraseIdx i := by
    intro m hm
    refine (List.mem_cons.mp ((Program.perm_of_getElem? ht).mem_iff.mp hm)).resolve_left ?_
    rintro rfl
    cases hsub
  cases advances_of_advance hadv with
  | subscribe kitSerial sink hsender =>
      have hhands : (Task.subscription (.lookup kitSerial sink)).handsOver k
          (c.tasks.eraseIdx i) c.store owed
            ↔ (kitSerial = k → ∀ m ∈ owed, m ∈ sink ∨ Task.send m ∈ c.tasks.eraseIdx i) := by
        simp [Task.handsOver, hsender]
      rw [hhands]
      simp only [note, ht]
      exact reached_subscribe fun _ => rfl
  | missing kitSerial sink hnone =>
      exact iff_of_true (fun t' ht' => by cases ht'; trivial) fun _ hne => absurd hnone hne
  | register kitSerial sink =>
      simp only [note, ht]
      exact reached_subscribe fun _ => rfl
  | loop hloop =>
      refine iff_of_true (fun t' ht' => ?_) trivial
      cases ht'
      simp only [note, ht]
      refine reached_loop hloop (hreach _ (List.mem_of_getElem? ht)) hunlapped fun m hm => ?_
      exact Program.mem_replace_of_mem (hsends m hm)
  | accept | dump | last => exact iff_of_true (fun t' ht' => by cases ht'; trivial) trivial
  | reject | panics | notLast | remove => exact iff_of_true (fun t' ht' => by cases ht') trivial
  | cache | send | clean => cases hsub

theorem reaches_step {p p' : Conc Shared Task × List Mqtt.RawMeasurement}
    {l : Sched Request Env} (hp : Watched k p) (hreach : Reaches k p) (hassumed : Assumed k p l)
    (h : watched k p l = some p') : Reaches k p' ↔ HandsOver k p l := by
  obtain ⟨c, owed⟩ := p
  obtain ⟨c', hstep, rfl⟩ := Option.map_eq_some_iff.mp h
  rcases Program.step_cases hstep with ⟨r, rfl, rfl⟩ | ⟨i, e, t, s', next, rfl, ht, hadv, rfl⟩
    | ⟨i, t, rfl, -, hf, -⟩
  · refine iff_of_true (fun u hu => ?_) trivial
    rcases List.mem_append.mp hu with hu | hu
    · exact (hreach u hu).mono (hp.fed u hu) (fun _ => List.prefix_refl _) (fun m hm => Or.inl hm)
        fun m _ hsend => Or.inl (List.mem_append_left _ hsend)
    · rw [List.mem_singleton.mp hu]
      cases r <;> trivial
  · have hok : HandsOver k (c, owed) (.run i e)
        ↔ t.handsOver k (c.tasks.eraseIdx i) c.store owed := by
      simp [HandsOver, Program.Ok, ht]
    have hrun : Reaches k (⟨s', Program.replace c.tasks i next⟩, note k owed c (.run i e))
        ↔ (∀ t' ∈ next, t'.Reached k s' (Program.replace c.tasks i next)
            (note k owed c (.run i e)))
          ∧ ∀ u ∈ c.tasks.eraseIdx i, u.Reached k s' (Program.replace c.tasks i next)
            (note k owed c (.run i e)) := Program.forall_mem_replace ht
    rw [hok, hrun]
    cases hsub : t.subscribes k with
    | true =>
        rw [← reached_own hreach ht hsub (hassumed t ht) hadv]
        exact and_iff_left fun u hu =>
          reached_of_not_subscribes (others_of_subscribes ht hp.one hsub u hu)
    | false =>
        refine iff_of_true ⟨fun t' ht' => ?_, reached_others hp hreach ht hsub hadv⟩ ?_
        · cases hsub' : t'.subscribes k with
          | false => exact reached_of_not_subscribes hsub'
          | true =>
              exact absurd (hsub.symm.trans (subscribes_next hadv t' ht' hsub')) (by simp)
        · cases t with
          | subscription subscription =>
              cases subscription with
              | lookup kitSerial sink | register kitSerial sink =>
                  intro hkit
                  simp [Task.subscribes, hkit] at hsub
              | _ => trivial
          | _ => trivial
  · cases hf

/-! ## Runs -/

theorem watched_start : Watched k watchedStart where
  filed := fun kitSerial forKit hforKit => by simp [watchedStart, Shared.start] at hforKit
  owed := fun m hm => by cases hm
  one := Nat.zero_le _
  fed := fun t ht => by cases ht

/-- **From the cache to the live feed.** In a run with one subscriber of the kit
at a time that is not lapped, every measurement that is owed reaches it, exactly
if in each step that obtains a receiver what is owed has been dumped or is yet to
be put into the sender. -/
theorem handover_iff (k : String) (ls : List (Sched Request Env))
    (hassumed : Run.Guarded (watched k) (Assumed k) watchedStart ls) :
    Run.Always (watched k) (Reaches k) watchedStart ls
      ↔ Run.Guarded (watched k) (HandsOver k) watchedStart ls :=
  Run.always_iff_guarded_under (J := Watched k)
    (fun _ _ _ hp hassumed h => watched_step hp hassumed h)
    (fun _ _ _ hp hreach hassumed h => reaches_step hp hreach hassumed h) ls hassumed
    watched_start fun t ht => by cases ht

/-- A measurement is published before the subscription, and is in its dump. -/
def publishedBefore : List (Sched Request Env) :=
  [.spawn (.publishRawMeasurement ⟨7, "k4", 0, 1, 1, F64.one⟩), .run 0 {}, .run 0 {},
    .spawn (.sub "k4"), .run 0 {}, .run 0 {}, .run 0 {}, .run 0 {}]

theorem handover_iff_publishedBefore :
    Run.Always (watched "k4") (Reaches "k4") watchedStart publishedBefore := by
  refine (handover_iff "k4" publishedBefore (by decide)).mpr ?_
  refine (Run.guarded_cons rfl).mpr ⟨trivial, ?_⟩
  refine (Run.guarded_cons rfl).mpr ⟨Program.ok_alone rfl trivial, ?_⟩
  refine (Run.guarded_cons rfl).mpr ⟨Program.ok_alone rfl trivial, ?_⟩
  refine (Run.guarded_cons rfl).mpr ⟨trivial, ?_⟩
  refine (Run.guarded_cons rfl).mpr ⟨Program.ok_alone rfl trivial, ?_⟩
  refine (Run.guarded_cons rfl).mpr ⟨Program.ok_alone rfl trivial, ?_⟩
  refine (Run.guarded_cons rfl).mpr ⟨Program.ok_alone rfl fun _ hentry => absurd rfl hentry, ?_⟩
  refine (Run.guarded_cons rfl).mpr ⟨Program.ok_alone rfl fun _ m hm => Or.inl hm, trivial⟩

/-- A measurement is published between the dump and the registration. -/
def publishedInBetween : List (Sched Request Env) :=
  [.spawn (.sub "k4"), .run 0 {}, .run 0 {},
    .spawn (.publishRawMeasurement ⟨7, "k4", 0, 1, 1, F64.one⟩), .run 1 {}, .run 1 {},
    .run 0 {}, .run 0 {}]

/-- It is owed, and neither in the sink nor in the channel nor on its way. -/
theorem published_in_between_missed :
    Run.Guarded (watched "k4") (Assumed "k4") watchedStart publishedInBetween
      ∧ ∃ p, Run.exec (watched "k4") watchedStart publishedInBetween = some p
        ∧ p.2 = [⟨7, "k4", 0, 1, 1, F64.one⟩]
        ∧ ¬ Reaches "k4" p := by
  have hrun : ∃ p, Run.exec (watched "k4") watchedStart publishedInBetween = some p
      ∧ p.1.tasks = [.subscription (.forward "k4" ⟨0, 0, 1⟩ false [])]
      ∧ p.2 = [⟨7, "k4", 0, 1, 1, F64.one⟩]
      ∧ (p.1.store.sent 0).length = 0 := ⟨_, rfl, rfl, rfl, rfl⟩
  obtain ⟨p, hrun, htasks, howed, hsent⟩ := hrun
  refine ⟨by decide, p, hrun, howed, fun hreaches => ?_⟩
  have hreach := hreaches (.subscription (.forward "k4" ⟨0, 0, 1⟩ false []))
    (by rw [htasks]; exact List.mem_singleton.mpr rfl) rfl
    ⟨7, "k4", 0, 1, 1, F64.one⟩ (by rw [howed]; exact List.mem_singleton.mpr rfl)
  rcases hreach with hsink | hchannel | hsend
  · cases hsink
  · rw [List.eq_nil_of_length_eq_zero hsent] at hchannel
    cases hchannel
  · rw [htasks] at hsend
    cases List.mem_singleton.mp hsend

end Websocket

end AstroPlant
