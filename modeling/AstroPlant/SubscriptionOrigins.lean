import AstroPlant.LiveMeasurements

/-!
# Where a subscription's measurements come from

A subscription to a kit is sent what the cache holds for the kit, and then what
its receiver reads from a sender. Senders are created for one kit each and are
never used again for another one, so all of it is of the kit that was asked for,
and all of it was once given to the publisher (`originated_exec`).

`Task.Originates` and `Shared.Originates` say of every measurement in a sink, in
the cache and in a channel that it is of the kit and that it was once published.
A step moves measurements between these places and adds none but those of a
publication (`originates_advance`), and a sender that has been created keeps its
kit (`Task.Originates.mono`).
-/

namespace AstroPlant

namespace Websocket

/-! ## Subscriptions -/

namespace Subscription

def kitSerial : Subscription → String
  | pending kitSerial | dump kitSerial | lookup kitSerial _ | register kitSerial _
  | forward kitSerial _ _ _ | count kitSerial | remove kitSerial => kitSerial

/-- What the client has been sent. -/
def sink : Subscription → List Mqtt.RawMeasurement
  | lookup _ sink | register _ sink | forward _ _ _ sink => sink
  | _ => []

def receiver : Subscription → Option Receiver
  | forward _ receiver _ _ => some receiver
  | _ => none

end Subscription

/-! ## Origins -/

variable {requested : Mqtt.RawMeasurement → Prop} {kitOf kitOf' : Nat → String} {created : Nat}

/-- What a task holds was given to the publisher, and a subscription holds what
is of its kit. -/
def Task.Originates (requested : Mqtt.RawMeasurement → Prop) (kitOf : Nat → String)
    (created : Nat) : Task → Prop
  | .subscription sub =>
      (∀ m ∈ sub.sink, m.kitSerial = sub.kitSerial ∧ requested m)
        ∧ ∀ r ∈ sub.receiver, r.sender < created ∧ kitOf r.sender = sub.kitSerial
  | .cache m | .send m => requested m
  | .clean => True

/-- `kitOf` is the kit of each sender that has been created. -/
structure Shared.Originates (requested : Mqtt.RawMeasurement → Prop) (kitOf : Nat → String)
    (s : Shared) : Prop where
  cached : ∀ k, ∀ forKit ∈ s.rawMeasurementCache.lookup k, ∀ e ∈ forKit.entries,
    e.2.2.kitSerial = k ∧ requested e.2.2
  published : ∀ p ∈ s.published, requested p.1
    ∧ ∀ n ∈ p.2, n < s.created ∧ kitOf n = p.1.kitSerial
  registered : ∀ k, ∀ n ∈ s.rawMeasurementListeners.lookup k, n < s.created ∧ kitOf n = k

theorem originates_start : Shared.start.Originates requested kitOf where
  cached := by simp [Shared.start]
  published := by simp [Shared.start]
  registered := by simp [Shared.start]

namespace Shared.Originates

variable {s : Shared}

theorem sent (h : s.Originates requested kitOf) {sender : Nat} {m : Mqtt.RawMeasurement}
    (hm : m ∈ s.sent sender) : m.kitSerial = kitOf sender ∧ requested m := by
  obtain ⟨p, hp, hm⟩ := List.mem_filterMap.mp hm
  split at hm
  · rename_i hsender
    obtain rfl := Option.some.inj hm
    exact ⟨((h.published p hp).2 sender hsender).2.symm, (h.published p hp).1⟩
  · cases hm

theorem dumped (h : s.Originates requested kitOf) {kitSerial : String} {m : Mqtt.RawMeasurement}
    (hm : m ∈ ((s.rawMeasurementCache.lookup kitSerial).map
      fun forKit => forKit.entries.map fun e => e.2.2).getD []) :
    m.kitSerial = kitSerial ∧ requested m := by
  cases hforKit : s.rawMeasurementCache.lookup kitSerial with
  | none =>
      rw [hforKit] at hm
      cases hm
  | some forKit =>
      rw [hforKit] at hm
      obtain ⟨e, he, rfl⟩ := List.mem_map.mp hm
      exact h.cached kitSerial forKit hforKit e he

theorem cache (h : s.Originates requested kitOf) {m : Mqtt.RawMeasurement} (hm : requested m)
    (now : KitRpc.Duration) : (s.cache now m).Originates requested kitOf where
  cached := by
    intro k forKit hforKit e he
    simp only [Shared.cache] at hforKit
    by_cases hk : k = m.kitSerial
    · subst hk
      rw [AList.lookup_insert] at hforKit
      obtain rfl := Option.some.inj hforKit
      rw [AList.entries_insert] at he
      rcases List.mem_cons.mp he with rfl | he
      · exact ⟨rfl, hm⟩
      · have he := (List.kerase_sublist _ _).subset he
        cases hold : s.rawMeasurementCache.lookup m.kitSerial with
        | none =>
            rw [hold] at he
            cases he
        | some old =>
            rw [hold] at he
            exact h.cached m.kitSerial old hold e he
    · rw [AList.lookup_insert_ne hk] at hforKit
      exact h.cached k forKit hforKit e he
  published := h.published
  registered := h.registered

theorem send (h : s.Originates requested kitOf) {m : Mqtt.RawMeasurement} (hm : requested m) :
    (s.send m).Originates requested kitOf where
  cached := h.cached
  published := by
    intro p hp
    rcases List.mem_append.mp hp with hp | hp
    · exact h.published p hp
    · obtain rfl := List.mem_singleton.mp hp
      exact ⟨hm, h.registered m.kitSerial⟩
  registered := h.registered

theorem clean (h : s.Originates requested kitOf) (now : KitRpc.Duration) :
    (s.clean now).Originates requested kitOf where
  cached := by
    intro k forKit hforKit e he
    obtain ⟨hforKit, -⟩ := HashMap.mem_lookup_retain.mp hforKit
    rw [AList.lookup_to_alist] at hforKit
    let young : KitRpc.Duration × Mqtt.RawMeasurement → Bool :=
      fun e => decide (now - e.1 < retentionPeriod)
    have hmap : (s.rawMeasurementCache.entries.map fun e =>
        (⟨e.1, HashMap.retain young e.2⟩ : Sigma fun _ : String => KitCache)).dlookup k
        = (s.rawMeasurementCache.lookup k).map (HashMap.retain young) :=
      List.dlookup_map₂ (f := fun _ => HashMap.retain young) k
    rw [hmap] at hforKit
    obtain ⟨old, hold, rfl⟩ := Option.map_eq_some_iff.mp hforKit
    exact h.cached k old hold e (List.mem_of_mem_filter he)
  published := h.published
  registered := h.registered

theorem erase (h : s.Originates requested kitOf) (kitSerial : String) :
    Originates requested kitOf { s with
      rawMeasurementListeners := s.rawMeasurementListeners.erase kitSerial } where
  cached := h.cached
  published := h.published
  registered := by
    intro k n hn
    by_cases hk : k = kitSerial
    · subst hk
      rw [AList.lookup_erase] at hn
      cases hn
    · rw [AList.lookup_erase_ne hk] at hn
      exact h.registered k n hn

/-- The new sender is of the kit; those before it keep theirs. -/
theorem register (h : s.Originates requested kitOf) (kitSerial : String) :
    Originates requested (Function.update kitOf s.created kitSerial) { s with
      rawMeasurementListeners := s.rawMeasurementListeners.insert kitSerial s.created
      created := s.created + 1 } where
  cached := h.cached
  published := by
    intro p hp
    refine ⟨(h.published p hp).1, fun n hn => ?_⟩
    obtain ⟨hlt, hkit⟩ := (h.published p hp).2 n hn
    exact ⟨Nat.lt_succ_of_lt hlt, (Function.update_of_ne (Nat.ne_of_lt hlt) _ _).trans hkit⟩
  registered := by
    intro k n hn
    by_cases hk : k = kitSerial
    · subst hk
      rw [AList.lookup_insert] at hn
      obtain rfl := Option.some.inj hn
      exact ⟨Nat.lt_succ_self _, Function.update_self ..⟩
    · rw [AList.lookup_insert_ne hk] at hn
      obtain ⟨hlt, hkit⟩ := h.registered k n hn
      exact ⟨Nat.lt_succ_of_lt hlt, (Function.update_of_ne (Nat.ne_of_lt hlt) _ _).trans hkit⟩

end Shared.Originates

theorem Task.Originates.mono {created' : Nat} {t : Task}
    (hkits : ∀ n < created, kitOf' n = kitOf n) (hcreated : created ≤ created')
    (h : t.Originates requested kitOf created) : t.Originates requested kitOf' created' := by
  cases t with
  | subscription sub =>
      refine ⟨h.1, fun r hr => ?_⟩
      obtain ⟨hlt, hkit⟩ := h.2 r hr
      exact ⟨Nat.lt_of_lt_of_le hlt hcreated, (hkits _ hlt).trans hkit⟩
  | cache m | send m => exact h
  | clean => trivial

theorem originates_of_sink {sub : Subscription} (hreceiver : sub.receiver = none)
    (h : ∀ m ∈ sub.sink, m.kitSerial = sub.kitSerial ∧ requested m) :
    (Task.subscription sub).Originates requested kitOf created := by
  refine ⟨h, fun r hr => ?_⟩
  rw [hreceiver] at hr
  cases hr

theorem originates_loop {s : Shared} {kitSerial : String} {receiver : Receiver} {lagged : Bool}
    {sink : List Mqtt.RawMeasurement} {branch : Branch} {sub : Subscription}
    (h : forwardingLoop s kitSerial receiver lagged sink branch = some sub)
    (hs : s.Originates requested kitOf)
    (ht : (Task.subscription (.forward kitSerial receiver lagged sink)).Originates requested kitOf
      s.created) :
    (Task.subscription sub).Originates requested kitOf s.created := by
  have hreceiver : receiver.sender < s.created ∧ kitOf receiver.sender = kitSerial :=
    ht.2 receiver rfl
  rcases forwardingLoop_cases h with rfl | ⟨_, rfl⟩ | ⟨_, next, -, -, rfl⟩ | ⟨-, -, rfl⟩
    | ⟨m, hm, rfl⟩
  · exact originates_of_sink rfl nofun
  · exact ht
  · refine ⟨ht.1, fun r hr => ?_⟩
    obtain rfl := Option.some.inj hr
    exact hreceiver
  · refine ⟨ht.1, fun r hr => ?_⟩
    obtain rfl := Option.some.inj hr
    exact hreceiver
  · refine ⟨fun m' hm' => ?_, fun r hr => ?_⟩
    · rcases List.mem_append.mp hm' with hm' | hm'
      · exact ht.1 m' hm'
      · obtain rfl := List.mem_singleton.mp hm'
        obtain ⟨hkit, hrequested⟩ := hs.sent (List.mem_of_getElem? hm)
        exact ⟨hkit.trans hreceiver.2, hrequested⟩
    · obtain rfl := Option.some.inj hr
      exact hreceiver

/-- A step of a task. Only a registration names the kit of a new sender. -/
theorem originates_advance {e : Env} {t : Task} {others : List Task} {s s' : Shared}
    {k : Option Task} (hs : s.Originates requested kitOf)
    (ht : t.Originates requested kitOf s.created)
    (h : program.advance e t others s = some (s', k)) :
    ∃ kitOf', s'.Originates requested kitOf' ∧ (∀ n < s.created, kitOf' n = kitOf n)
      ∧ s.created ≤ s'.created ∧ ∀ t' ∈ k, t'.Originates requested kitOf' s'.created := by
  -- every step but a registration leaves the kits of the senders as they are
  have keeps : ∀ {s' : Shared} {k : Option Task}, s'.Originates requested kitOf →
      s'.created = s.created → (∀ t' ∈ k, t'.Originates requested kitOf s.created) →
      ∃ kitOf', s'.Originates requested kitOf' ∧ (∀ n < s.created, kitOf' n = kitOf n)
        ∧ s.created ≤ s'.created ∧ ∀ t' ∈ k, t'.Originates requested kitOf' s'.created := by
    intro s' k hs' hcreated hk
    refine ⟨kitOf, hs', fun _ _ => rfl, Nat.le_of_eq hcreated.symm, ?_⟩
    rwa [hcreated]
  cases advances_of_advance h with
  | accept kitSerial =>
      refine keeps hs rfl fun t' ht' => ?_
      cases ht'
      exact originates_of_sink rfl nofun
  | reject | panics | notLast => exact keeps hs rfl nofun
  | @dump kitSerial sink hsink =>
      refine keeps hs rfl fun t' ht' => ?_
      cases ht'
      refine originates_of_sink rfl fun m hm => ?_
      subst hsink
      exact hs.dumped hm
  | @subscribe kitSerial sink sender hsender =>
      refine keeps hs rfl fun t' ht' => ?_
      cases ht'
      refine ⟨ht.1, fun r hr => ?_⟩
      obtain rfl := Option.some.inj hr
      exact hs.registered kitSerial sender hsender
  | missing kitSerial sink hnone =>
      refine keeps hs rfl fun t' ht' => ?_
      cases ht'
      exact originates_of_sink rfl ht.1
  | register kitSerial sink =>
      refine ⟨Function.update kitOf s.created kitSerial, ?_, ?_, Nat.le_succ _, ?_⟩
      · exact hs.register kitSerial
      · intro n hn
        exact Function.update_of_ne (Nat.ne_of_lt hn) _ _
      · intro t' ht'
        cases ht'
        refine ⟨ht.1, fun r hr => ?_⟩
        obtain rfl := Option.some.inj hr
        exact ⟨Nat.lt_succ_self _, Function.update_self ..⟩
  | loop hloop =>
      refine keeps hs rfl fun t' ht' => ?_
      cases ht'
      exact originates_loop hloop hs ht
  | last kitSerial hsender hcount =>
      refine keeps hs rfl fun t' ht' => ?_
      cases ht'
      exact originates_of_sink rfl nofun
  | remove kitSerial => exact keeps (hs.erase kitSerial) rfl nofun
  | cache m =>
      refine keeps (hs.cache ht e.now) rfl fun t' ht' => ?_
      cases ht'
      exact ht
  | send m => exact keeps (hs.send ht) rfl nofun
  | clean => exact keeps (hs.clean e.now) rfl nofun

/-! ## Runs -/

/-- The measurement that a request asks to publish. -/
def Request.published : Request → Option Mqtt.RawMeasurement
  | .publishRawMeasurement m => some m
  | _ => none

/-- The measurements that the labels give to the publisher, in their order. -/
def requests (ls : List (Sched Request Env)) : List Mqtt.RawMeasurement :=
  ls.filterMap fun
    | .spawn r => r.published
    | _ => none

/-- Every measurement there is was given to the publisher, and what a
subscription was sent is of its kit. -/
def Originated (past : List (Sched Request Env)) (c : Conc Shared Task) : Prop :=
  ∃ kitOf, c.store.Originates (· ∈ requests past) kitOf
    ∧ ∀ t ∈ c.tasks, t.Originates (· ∈ requests past) kitOf c.store.created

theorem Shared.Originates.imp {requested' : Mqtt.RawMeasurement → Prop} {s : Shared}
    (himp : ∀ m, requested m → requested' m) (h : s.Originates requested kitOf) :
    s.Originates requested' kitOf where
  cached k forKit hforKit e he :=
    ⟨(h.cached k forKit hforKit e he).1, himp _ (h.cached k forKit hforKit e he).2⟩
  published p hp := ⟨himp _ (h.published p hp).1, (h.published p hp).2⟩
  registered := h.registered

theorem Task.Originates.imp {requested' : Mqtt.RawMeasurement → Prop} {t : Task}
    (himp : ∀ m, requested m → requested' m) (h : t.Originates requested kitOf created) :
    t.Originates requested' kitOf created := by
  cases t with
  | subscription sub => exact ⟨fun m hm => ⟨(h.1 m hm).1, himp m (h.1 m hm).2⟩, h.2⟩
  | cache m | send m => exact himp m h
  | clean => trivial

theorem originated_step {past : List (Sched Request Env)} {c c' : Conc Shared Task}
    {l : Sched Request Env} (hc : Originated past c) (h : program.step c l = some c') :
    Originated (past ++ [l]) c' := by
  obtain ⟨kitOf, hs, hts⟩ := hc
  have himp : ∀ m, m ∈ requests past → m ∈ requests (past ++ [l]) := by
    intro m hm
    rw [requests, List.filterMap_append]
    exact List.mem_append_left _ hm
  rcases Program.step_cases h with ⟨r, rfl, rfl⟩ | ⟨i, e, t, s', k, rfl, ht, hadv, rfl⟩
    | ⟨i, t, rfl, -, hf, -⟩
  · refine ⟨kitOf, hs.imp himp, fun t ht => ?_⟩
    rcases List.mem_append.mp ht with ht | ht
    · exact (hts t ht).imp himp
    · obtain rfl := List.mem_singleton.mp ht
      cases r with
      | sub kitSerial => exact originates_of_sink rfl nofun
      | publishRawMeasurement m =>
          show m ∈ requests _
          simp [requests, Request.published]
      | clean => trivial
  · obtain ⟨kitOf', hs', hkits, hcreated, hk⟩ :=
      originates_advance hs (hts t (List.mem_of_getElem? ht)) hadv
    refine ⟨kitOf', hs'.imp himp, fun u hu => ?_⟩
    rcases Program.mem_replace hu with hu | hu
    · exact (hk u hu).imp himp
    · exact ((hts u (List.mem_of_mem_eraseIdx hu)).mono hkits hcreated).imp himp
  · cases hf

/-- **Origins.** In every run of the listeners. -/
theorem originated_exec {ls : List (Sched Request Env)} {c : Conc Shared Task}
    (h : Run.exec program.step ⟨.start, []⟩ ls = some c) : Originated ls c :=
  Run.exec_labels (fun _ _ _ _ hc hs => originated_step hc hs)
    ⟨fun _ => "", originates_start, fun t ht => by cases ht⟩ h

/-- What a subscription was sent is of its kit, and was given to the publisher. -/
theorem sink_origin {ls : List (Sched Request Env)} {c : Conc Shared Task} {sub : Subscription}
    {m : Mqtt.RawMeasurement} (h : Run.exec program.step ⟨.start, []⟩ ls = some c)
    (hsub : .subscription sub ∈ c.tasks) (hm : m ∈ sub.sink) :
    m.kitSerial = sub.kitSerial ∧ m ∈ requests ls := by
  obtain ⟨kitOf, -, hts⟩ := originated_exec h
  exact (hts _ hsub).1 m hm

end Websocket

end AstroPlant
