import AstroPlant.LiveOrigins

/-!
# The order in which measurements arrive

The pump, the channel and the forwarding task each hold what they have taken and
pass it on in its order. So the measurements that have been published are those
that the broker delivered, but for a bounded number at the end.

A subscription sends what the cache holds for its kit, in a step of its own, and
later obtains a receiver. What it has sent is followed from there: until it has a
receiver its sink is what it found in the cache, and then what its receiver has
passed comes after it (`Subscription.InOrder`). A receiver that loses messages
skips them, and never goes back (`Receiver.Reads`). So a client is sent, after
the cache, the measurements of its kit in the order in which they came, none of
them twice.

Both are `live_measurements_in_order`. That what was sent is of the kit, and was
published at all, is `Websocket.sink_origin`.
-/

namespace AstroPlant

/-! ## Lists of tasks -/

namespace Program

variable {τ α : Type} {f : τ → Option α} {ts : List τ} {i : Nat} {t : τ} {k : Option τ}

/-- A task that moves on to one with the same value, or ends without one. -/
theorem filterMap_replace (ht : ts[i]? = some t) (hk : k.bind f = f t) :
    (replace ts i k).filterMap f = ts.filterMap f := by
  induction ts generalizing i with
  | nil => cases ht
  | cons u us ih =>
      cases i with
      | zero =>
          obtain rfl := Option.some.inj ht
          cases k with
          | none => exact (List.filterMap_cons_none hk.symm).symm
          | some t' =>
              show (t' :: us).filterMap f = _
              rw [List.filterMap_cons, List.filterMap_cons, ← hk]
              rfl
      | succ i =>
          have := ih (i := i) ht
          cases k with
          | none =>
              show (u :: us.eraseIdx i).filterMap f = _
              rw [List.filterMap_cons, List.filterMap_cons]
              exact this ▸ rfl
          | some t' =>
              show (u :: us.set i t').filterMap f = _
              rw [List.filterMap_cons, List.filterMap_cons]
              exact this ▸ rfl

theorem filterMap_eraseIdx {a : α} (hone : (ts.filterMap f).length ≤ 1) (ht : ts[i]? = some t)
    (ha : f t = some a) : ts.filterMap f = [a] ∧ (ts.eraseIdx i).filterMap f = [] := by
  have hperm := (perm_of_getElem? ht).filterMap f
  rw [List.filterMap_cons_some ha] at hperm
  have hlength := hperm.length_eq
  rw [List.length_cons] at hlength
  have hrest : (ts.eraseIdx i).filterMap f = [] := List.eq_nil_of_length_eq_zero (by omega)
  rw [hrest] at hperm
  exact ⟨List.perm_singleton.mp hperm, hrest⟩

end Program

/-! ## What a receiver has read -/

namespace Websocket

open KitRpc (Duration)

/-- What has been put into a sender of all that was published from then on. -/
def Shared.sentSince (s : Shared) (since sender : Nat) : List Mqtt.RawMeasurement :=
  (s.published.drop since).filterMap fun p => if p.2 = some sender then some p.1 else none

variable {s s' : Shared} {since sender : Nat}

theorem sent_eq_append (s : Shared) (since sender : Nat) :
    s.sent sender = ((s.published.take since).filterMap fun p =>
      if p.2 = some sender then some p.1 else none) ++ s.sentSince since sender := by
  rw [Shared.sentSince, ← List.filterMap_append, List.take_append_drop]
  rfl

theorem sentSince_sublist (s : Shared) (since sender : Nat) :
    (s.sentSince since sender).Sublist ((s.published.drop since).map Prod.fst) := by
  have hmap : ∀ l : List (Mqtt.RawMeasurement × Option Nat),
      (l.filterMap fun p => if p.2 = some sender then some p.1 else none).Sublist
        (l.map Prod.fst) := by
    intro l
    induction l with
    | nil => exact .slnil
    | cons p l ih =>
        rw [List.filterMap_cons, List.map_cons]
        split
        · exact ih.cons _
        · rename_i hp
          split at hp
          · rw [← Option.some.inj hp]
            exact ih.cons_cons _
          · cases hp
  exact hmap _

/-- After the dump, a subscription has been sent some of what its receiver has
passed, in its order. The receiver is at the `n`-th message since it was
obtained. -/
structure Receiver.Reads (s : Shared) (receiver : Receiver) (live : List Mqtt.RawMeasurement) :
    Prop where
  since : receiver.since ≤ s.published.length
  position : ∃ n, receiver.next + (s.sentSince receiver.since receiver.sender).length
      = (s.sent receiver.sender).length + n
    ∧ n ≤ (s.sentSince receiver.since receiver.sender).length
    ∧ live.Sublist ((s.sentSince receiver.since receiver.sender).take n)

theorem reads_subscribe (s : Shared) (sender : Nat) : (s.subscribe sender).Reads s [] where
  since := Nat.le_refl _
  position := by
    refine ⟨0, ?_, Nat.zero_le _, List.nil_sublist _⟩
    simp [Shared.subscribe, Shared.sentSince]

theorem Receiver.Reads.append {receiver : Receiver} {live : List Mqtt.RawMeasurement}
    (h : receiver.Reads s live) {new : List (Mqtt.RawMeasurement × Option Nat)}
    (hpublished : s'.published = s.published ++ new) : receiver.Reads s' live := by
  obtain ⟨n, hn, hle, hlive⟩ := h.position
  have hsent : ∀ sender, s'.sent sender = s.sent sender
      ++ new.filterMap fun p => if p.2 = some sender then some p.1 else none := by
    intro sender
    rw [Shared.sent, hpublished, List.filterMap_append]
    rfl
  have hsince : s'.sentSince receiver.since receiver.sender
      = s.sentSince receiver.since receiver.sender
        ++ new.filterMap fun p => if p.2 = some receiver.sender then some p.1 else none := by
    rw [Shared.sentSince, hpublished, List.drop_append_of_le_length h.since,
      List.filterMap_append]
    rfl
  refine ⟨by rw [hpublished, List.length_append]; exact Nat.le_add_right_of_le h.since, n, ?_⟩
  rw [hsince, hsent, List.length_append, List.length_append, List.take_append_of_le_length hle]
  exact ⟨by omega, by omega, hlive⟩

theorem Receiver.Reads.skip {receiver : Receiver} {live : List Mqtt.RawMeasurement}
    (h : receiver.Reads s live) {next : Nat} (hge : receiver.next ≤ next)
    (hle : next ≤ (s.sent receiver.sender).length) :
    Receiver.Reads s { receiver with next } live := by
  obtain ⟨n, hn, hbound, hlive⟩ := h.position
  refine ⟨h.since, n + (next - receiver.next), ?_, ?_, ?_⟩
  · show next + (s.sentSince receiver.since receiver.sender).length
      = (s.sent receiver.sender).length + (n + (next - receiver.next))
    omega
  · show _ ≤ (s.sentSince receiver.since receiver.sender).length
    omega
  · exact hlive.trans (List.take_sublist_take_left (by omega))

theorem Receiver.Reads.recv {receiver : Receiver} {live : List Mqtt.RawMeasurement}
    (h : receiver.Reads s live) {m : Mqtt.RawMeasurement}
    (hm : (s.sent receiver.sender)[receiver.next]? = some m) :
    Receiver.Reads s { receiver with next := receiver.next + 1 } (live ++ [m]) := by
  obtain ⟨n, hn, hbound, hlive⟩ := h.position
  have hlt := (List.getElem?_eq_some_iff.mp hm).1
  have hsplit := sent_eq_append s receiver.since receiver.sender
  have hm' : (s.sentSince receiver.since receiver.sender)[n]? = some m := by
    rw [hsplit, List.getElem?_append_right] at hm
    · rw [← hm]
      congr 1
      have := congrArg List.length hsplit
      rw [List.length_append] at this
      omega
    · have := congrArg List.length hsplit
      rw [List.length_append] at this
      omega
  refine ⟨h.since, n + 1, ?_, ?_, ?_⟩
  · show receiver.next + 1 + (s.sentSince receiver.since receiver.sender).length
      = (s.sent receiver.sender).length + (n + 1)
    omega
  · exact (List.getElem?_eq_some_iff.mp hm').1
  · show (live ++ [m]).Sublist (List.take (n + 1) _)
    rw [List.take_add_one, hm']
    exact hlive.append_right _

/-! ## What a subscription has sent -/

/-- What the cache holds for a kit. -/
def Shared.cached (s : Shared) (kitSerial : String) : List Mqtt.RawMeasurement :=
  ((s.rawMeasurementCache.lookup kitSerial).map fun forKit => forKit.entries.map (·.2.2)).getD []

/-- A subscription has sent what it found in the cache, and then what its receiver
has passed. `D` says of a kit that this is what the cache held for it when so
many measurements had been published. -/
def Subscription.InOrder (D : String → List Mqtt.RawMeasurement → Nat → Prop) (s : Shared) :
    Subscription → Prop
  | .lookup kitSerial sink | .register kitSerial sink =>
      ∃ n, n ≤ s.published.length ∧ D kitSerial sink n
  | .forward kitSerial receiver _ sink =>
      ∃ cached live, sink = cached ++ live ∧ (∃ n, n ≤ receiver.since ∧ D kitSerial cached n)
        ∧ receiver.Reads s live
  | _ => True

variable {D D' : String → List Mqtt.RawMeasurement → Nat → Prop}

theorem Subscription.InOrder.mono {sub : Subscription} (h : sub.InOrder D s)
    (hD : ∀ kitSerial cached n, D kitSerial cached n → D' kitSerial cached n)
    {new : List (Mqtt.RawMeasurement × Option Nat)}
    (hpublished : s'.published = s.published ++ new) : sub.InOrder D' s' := by
  have hle : s.published.length ≤ s'.published.length := by
    rw [hpublished, List.length_append]
    exact Nat.le_add_right _ _
  cases sub with
  | lookup kitSerial sink | register kitSerial sink =>
      obtain ⟨n, hn, hcached⟩ := h
      exact ⟨n, Nat.le_trans hn hle, hD _ _ _ hcached⟩
  | forward kitSerial receiver lagged sink =>
      obtain ⟨cached, live, hsink, ⟨n, hn, hcached⟩, hreads⟩ := h
      exact ⟨cached, live, hsink, ⟨n, hn, hD _ _ _ hcached⟩, hreads.append hpublished⟩
  | _ => trivial

theorem inOrder_loop {kitSerial : String} {receiver : Receiver} {lagged : Bool}
    {sink : List Mqtt.RawMeasurement} {branch : Branch} {sub : Subscription}
    (h : forwardingLoop s kitSerial receiver lagged sink branch = some sub)
    (hs : (Subscription.forward kitSerial receiver lagged sink).InOrder D s) :
    sub.InOrder D s := by
  obtain ⟨cached, live, hsink, hcached, hreads⟩ := hs
  cases branch with
  | tick closed =>
      simp only [forwardingLoop] at h
      split at h <;> obtain rfl := Option.some.inj h
      · trivial
      · exact ⟨cached, live, hsink, hcached, hreads⟩
  | recv sent =>
      simp only [forwardingLoop] at h
      split at h
      · cases h
      · split at h
        · rename_i hlapped
          obtain rfl := Option.some.inj h
          exact ⟨cached, live, hsink, hcached, hreads.skip (by omega) (by omega)⟩
        · split at h
          · cases h
          · rename_i m hm
            obtain rfl := Option.some.inj h
            cases sent with
            | true =>
                refine ⟨cached, live ++ [m], ?_, hcached, hreads.recv hm⟩
                rw [if_pos rfl, hsink, List.append_assoc]
            | false =>
                have hlt := (List.getElem?_eq_some_iff.mp hm).1
                exact ⟨cached, live, hsink, hcached, hreads.skip (Nat.le_succ _) hlt⟩

/-- A step of a subscription, which sends what is in the cache if it dumps it. -/
theorem inOrder_advance {e : Env} {others : List Task} {sub next : Subscription}
    (hs : sub.InOrder D s)
    (hdump : ∀ kitSerial, sub = .dump kitSerial →
      D kitSerial (s.cached kitSerial) s.published.length)
    (h : sub.advance e others s = some (s', some next)) : next.InOrder D s' := by
  have hadvance : program.advance e (.subscription sub) others s
      = some (s', some (.subscription next)) := Option.map_eq_some_iff.mpr ⟨_, h, rfl⟩
  cases advances_of_advance hadvance with
  | accept => trivial
  | last => trivial
  | dump kitSerial hsink =>
      subst hsink
      exact ⟨_, Nat.le_refl _, hdump kitSerial rfl⟩
  | missing => exact hs
  | subscribe kitSerial sink hsender =>
      exact ⟨sink, [], (List.append_nil _).symm, hs, reads_subscribe s _⟩
  | register kitSerial sink =>
      refine ⟨sink, [], (List.append_nil _).symm, hs, ?_⟩
      exact (reads_subscribe s s.created).append (List.append_nil _).symm
  | loop hloop => exact inOrder_loop hloop hs

theorem published_subscription {e : Env} {others : List Task} {sub : Subscription}
    {next : Option Subscription} (h : sub.advance e others s = some (s', next)) :
    s'.published = s.published := by
  have hadvance : program.advance e (.subscription sub) others s
      = some (s', next.map .subscription) := Option.map_eq_some_iff.mpr ⟨_, h, rfl⟩
  generalize next.map Task.subscription = k at hadvance
  cases advances_of_advance hadvance <;> rfl

end Websocket

/-! ## What has been published -/

namespace LiveFeed

open KitRpc (Duration)
open Websocket (Shared Subscription)

variable {rpc : JsonRpc} {codec : Mqtt.Codec} {s s' : State}

/-- One measurement is published at a time, and what came out of the channel is
published in its order. -/
structure Published (s : State) : Prop where
  one : (s.tasks.filterMap (·.publishes)).length ≤ 1
  order : s.shared.published.map Prod.fst ++ s.tasks.filterMap (·.publishes)
    = s.channel.received

theorem published_moves {l : Label} (hs : Published s) (h : Moves rpc codec s l s') :
    Published s' := by
  -- a step that publishes nothing and takes nothing out of the channel
  have keeps : s'.shared.published = s.shared.published →
      s'.tasks.filterMap (·.publishes) = s.tasks.filterMap (·.publishes) →
      s'.channel.received = s.channel.received → Published s' := by
    intro hpublished htasks hreceived
    exact ⟨htasks ▸ hs.one, by rw [hpublished, htasks, hreceived]; exact hs.order⟩
  cases h with
  | elapse | database | connect | ignores | refuses | hangUp | sink | publish | flushed | upload =>
      exact keeps rfl rfl rfl
  | enqueue _ _ hreceived => exact keeps rfl rfl hreceived
  | subscribes | tickCleaner =>
      exact keeps rfl (by simp [LiveTask.publishes]) rfl
  | @subscription i recv now ticket sub connection shared next htask _ hadvance =>
      refine keeps ?_ (Program.filterMap_replace htask ?_) rfl
      · exact Websocket.published_subscription hadvance
      · cases next <;> rfl
  | cache htask =>
      exact keeps rfl (Program.filterMap_replace (k := some _) htask rfl) rfl
  | clean htask =>
      exact keeps rfl (Program.filterMap_replace (k := none) htask rfl) rfl
  | @send i recv now m htask =>
      obtain ⟨hall, hrest⟩ := Program.filterMap_eraseIdx hs.one htask rfl
      refine ⟨by rw [hrest]; exact Nat.zero_le _, ?_⟩
      rw [← hs.order, hall, hrest]
      simp [Shared.send]
  | @forward m channel hidle _ hreceived =>
      have hnone : s.tasks.filterMap (·.publishes) = [] := List.filterMap_eq_nil_iff.mpr hidle
      have hnew : (s.tasks ++ [LiveTask.cache m]).filterMap (·.publishes) = [m] := by
        rw [List.filterMap_append, hnone]
        rfl
      have horder := hs.order
      rw [hnone, List.append_nil] at horder
      exact ⟨by rw [hnew]; exact Nat.le_refl _, by rw [hnew, hreceived, ← horder]⟩

theorem published_exec {services : Services} {ls : List Label}
    (h : Run.exec (step rpc codec) (.start services) ls = some s) : Published s :=
  Run.exec_invariant (fun _ _ _ hs h => published_moves hs (moves_of_step h))
    ⟨Nat.zero_le _, rfl⟩ h

/-- The sender is parked while the channel is full. -/
def Roomy (s : State) : Prop := s.pump = .flush ∨ s.channel.buffer.length ≤ 32

theorem roomy_moves {l : Label} (hs : Roomy s) (h : Moves rpc codec s l s') : Roomy s' := by
  -- the pump was not parked, and the channel is as it was
  have unparked : s.pump ≠ .flush → s'.channel = s.channel → Roomy s' :=
    fun hpump hchannel => Or.inr (hchannel ▸ hs.resolve_left hpump)
  cases h with
  | elapse | database | connect | ignores | refuses | subscribes | hangUp | sink | subscription
  | cache | send | clean | tickCleaner => exact hs
  | publish topic payload hpump => exact unparked (by rw [hpump]; nofun) rfl
  | upload hpump => exact unparked (by rw [hpump]; nofun) rfl
  | enqueue => exact Or.inl rfl
  | flushed hpump hroom => exact Or.inr hroom
  | @forward m channel _ hsent hreceived =>
      refine hs.imp_right fun hroom => ?_
      have hlength := congrArg List.length hsent
      rw [Pipe.length_sent, Pipe.length_sent, hreceived, List.length_append,
        List.length_singleton] at hlength
      show channel.buffer.length ≤ 32
      omega

theorem roomy_exec {services : Services} {ls : List Label}
    (h : Run.exec (step rpc codec) (.start services) ls = some s) : Roomy s :=
  Run.exec_invariant (fun _ _ _ hs h => roomy_moves hs (moves_of_step h))
    (Or.inr (Nat.zero_le _)) h

/-! ## What the subscriptions have sent -/

/-- A step in which the subscription sends what the cache holds for its kit. -/
def Dumps (ticket : Ticket) (kitSerial : String) (e : Run.Event State Label) : Prop :=
  ∃ i recv now, e.label = .run i recv now
    ∧ e.before.tasks[i]? = some (.subscription ticket (.dump kitSerial))

/-- The subscription has found this in the cache. -/
def Found (past : List (Run.Event State Label)) (ticket : Ticket) (kitSerial : String)
    (cached : List Mqtt.RawMeasurement) (n : Nat) : Prop :=
  ∃ e ∈ past, Dumps ticket kitSerial e ∧ e.before.shared.cached kitSerial = cached
    ∧ e.before.shared.published.length = n

def Ordered (past : List (Run.Event State Label)) (s : State) : Prop :=
  ∀ ticket sub, .subscription ticket sub ∈ s.tasks → sub.InOrder (Found past ticket) s.shared

/-- A step that leaves the subscriptions as they are, and may start some. -/
theorem ordered_of_quiet {past : List (Run.Event State Label)} {l : Label}
    {new : List (Mqtt.RawMeasurement × Option Nat)} (hs : Ordered past s)
    (hpublished : s'.shared.published = s.shared.published ++ new)
    (htasks : ∀ t ∈ s'.tasks, t ∈ s.tasks ∨ (∃ ticket kitSerial, t = .subscription ticket
      (.pending kitSerial)) ∨ ∀ ticket sub, t ≠ .subscription ticket sub) :
    Ordered (past ++ [⟨s, l, s'⟩]) s' := by
  intro ticket sub hsub
  rcases htasks _ hsub with hold | ⟨ticket', kitSerial, heq⟩ | hne
  · refine (hs ticket sub hold).mono ?_ hpublished
    exact fun _ _ _ ⟨e, he, hdumps⟩ => ⟨e, List.mem_append_left _ he, hdumps⟩
  · obtain ⟨rfl, rfl⟩ := LiveTask.subscription.inj heq
    trivial
  · exact absurd rfl (hne ticket sub)

theorem ordered_moves {past : List (Run.Event State Label)} {l : Label} (hs : Ordered past s)
    (h : Moves rpc codec s l s') : Ordered (past ++ [⟨s, l, s'⟩]) s' := by
  have hfound : ∀ ticket kitSerial cached n, Found past ticket kitSerial cached n →
      Found (past ++ [⟨s, l, s'⟩]) ticket kitSerial cached n :=
    fun _ _ _ _ ⟨e, he, hdumps⟩ => ⟨e, List.mem_append_left _ he, hdumps⟩
  have hsame : s.shared.published = s.shared.published ++ [] := (List.append_nil _).symm
  cases h with
  | elapse | database | connect | ignores | refuses | hangUp | sink | publish | enqueue | flushed
  | upload => exact ordered_of_quiet hs hsame fun t ht => Or.inl ht
  | subscribes =>
      refine ordered_of_quiet hs hsame fun t ht =>
        (List.mem_append.mp ht).imp_right fun ht => Or.inl ?_
      exact ⟨_, _, List.mem_singleton.mp ht⟩
  | tickCleaner | forward =>
      refine ordered_of_quiet hs hsame fun t ht =>
        (List.mem_append.mp ht).imp_right fun ht => Or.inr ?_
      obtain rfl := List.mem_singleton.mp ht
      exact nofun
  | cache htask =>
      refine ordered_of_quiet hs hsame fun t ht => (List.mem_or_eq_of_mem_set ht).imp_right ?_
      rintro rfl
      exact Or.inr nofun
  | send htask => exact ordered_of_quiet hs rfl fun t ht => Or.inl (List.mem_of_mem_eraseIdx ht)
  | clean htask => exact ordered_of_quiet hs hsame fun t ht => Or.inl (List.mem_of_mem_eraseIdx ht)
  | @subscription i recv now ticket sub connection shared next htask _ hadvance =>
      intro ticket' sub' hsub'
      rcases Program.mem_replace hsub' with hnext | hold
      · obtain ⟨next', hnext', heq⟩ := Option.mem_map.mp hnext
        obtain ⟨rfl, rfl⟩ := LiveTask.subscription.inj heq
        rw [Option.mem_def.mp hnext'] at hadvance
        have hsub := (hs _ _ (List.mem_of_getElem? htask)).mono (hfound ticket) hsame
        refine Websocket.inOrder_advance hsub ?_ hadvance
        rintro kitSerial rfl
        exact ⟨_, List.mem_append_right _ (List.mem_singleton.mpr rfl), ⟨i, recv, now, rfl, htask⟩,
          rfl, rfl⟩
      · have hpublished : shared.published = s.shared.published ++ [] :=
          (Websocket.published_subscription hadvance).trans hsame
        exact (hs ticket' sub' (List.mem_of_mem_eraseIdx hold)).mono (hfound ticket') hpublished

theorem ordered_exec {services : Services} {ls : List Label}
    (h : Run.exec (step rpc codec) (.start services) ls = some s) :
    Ordered (Run.history (step rpc codec) (.start services) ls) s :=
  Run.exec_history (fun _ _ _ _ hs h => ordered_moves hs (moves_of_step h))
    (fun ticket sub hsub => by cases hsub) h

/-! ## The order -/

/-- The measurements that the broker delivered. -/
def deliveries (codec : Mqtt.Codec) (ls : List Label) : List Mqtt.RawMeasurement :=
  ls.filterMap (delivered codec)

/-- What is on its way to the listeners: being published, in the channel, or
held by the pump. -/
def State.underWay (s : State) : List Mqtt.RawMeasurement :=
  s.tasks.filterMap (·.publishes) ++ s.channel.buffer ++ s.pump.pending

theorem length_pending (p : Pump) : p.pending.length ≤ 1 := by
  cases p <;> simp [Pump.pending]

theorem length_underWay (hpublished : Published s) (hroomy : Roomy s) :
    s.underWay.length ≤ 34 := by
  have hone := hpublished.one
  have hpending := length_pending s.pump
  rw [State.underWay, List.length_append, List.length_append]
  rcases hroomy with hflush | hroom
  · have hbounded := s.channel.bounded
    rw [hflush]
    show _ + _ + 0 ≤ 34
    omega
  · omega

/-- **Nothing is lost, repeated or overtaken.** In every run the published
measurements and those under way are, in this order, exactly the ones that the
broker delivered, and no more than 34 are under way. What a subscription was sent
is what the cache held for its kit in the step in which it dumped it, and then
measurements that have been published since it obtained its receiver, after that
step: of its kit, in their order, each of them once. -/
theorem live_measurements_in_order (rpc : JsonRpc) (codec : Mqtt.Codec) (services : Services)
    {ls : List Label} {s : State}
    (h : Run.exec (step rpc codec) (.start services) ls = some s) :
    s.shared.published.map Prod.fst ++ s.underWay = deliveries codec ls
      ∧ s.underWay.length ≤ 34
      ∧ ∀ ticket kitSerial receiver lagged sink,
        .subscription ticket (.forward kitSerial receiver lagged sink) ∈ s.tasks →
        ∃ e ∈ Run.history (step rpc codec) (.start services) ls, Dumps ticket kitSerial e
          ∧ e.before.shared.published.length ≤ receiver.since
          ∧ ∃ live, sink = e.before.shared.cached kitSerial ++ live
            ∧ live.Sublist (((s.shared.published.drop receiver.since).map Prod.fst).filter
              (·.kitSerial = kitSerial)) := by
  have hpublished := published_exec h
  refine ⟨?_, length_underWay hpublished (roomy_exec h), ?_⟩
  · have hcarried : s.channel.sent ++ s.pump.pending = deliveries codec ls := carried_exec h
    rw [← hcarried, Pipe.sent, ← hpublished.order, State.underWay]
    simp only [List.append_assoc]
  · intro ticket kitSerial receiver lagged sink hmem
    obtain ⟨cached, live, rfl, ⟨n, hsince, e, he, hdumps, rfl, rfl⟩, hreads⟩ :=
      ordered_exec h ticket _ hmem
    obtain ⟨n, -, -, hlive⟩ := hreads.position
    refine ⟨e, he, hdumps, hsince, live, rfl, ?_⟩
    obtain ⟨run, hrun, -⟩ := listens_exec h
    have htask : Websocket.Task.subscription
        (.forward kitSerial receiver lagged (e.before.shared.cached kitSerial ++ live))
        ∈ s.listeners.tasks := List.mem_map.mpr ⟨_, hmem, rfl⟩
    have hkit : live.filter (·.kitSerial = kitSerial) = live := by
      refine List.filter_eq_self.mpr fun m hm => decide_eq_true ?_
      exact (Websocket.sink_origin hrun htask (List.mem_append_right _ hm)).1
    rw [← hkit]
    refine List.Sublist.filter _ (hlive.trans ((List.take_sublist _ _).trans ?_))
    exact Websocket.sentSince_sublist s.shared receiver.since receiver.sender

/-- The first kit sends a measurement before anyone listens, and another one
after. -/
def listenLater : List Label :=
  [.publish "kit/k1/measurement/raw" temperatureMessage, .pump true, .pump true, .forward,
    .run 0 true 0, .run 0 true 0, .connect none, .text 0 subscribeText 5, .run 0 true 0,
    .run 0 true 0, .run 0 true 0, .run 0 true 0,
    .publish "kit/k1/measurement/raw" temperatureMessage, .pump true, .pump true, .forward,
    .run 1 true 0, .run 1 true 0, .run 0 true 0]

/-- Both are published, and nothing is left under way; the subscription has sent
the first one from the cache, and the second one since. -/
theorem live_measurements_in_order_listenLater :
    ∃ s receiver m m', Run.exec (step subscribeRpc temperatureCodec) (.start (.start twoKits))
        listenLater = some s
      ∧ s.tasks = [.subscription ⟨0, .ofNat 1, 5⟩ (.forward "k1" receiver false [m, m'])]
      ∧ (deliveries temperatureCodec listenLater).length = 2
      ∧ s.shared.published.map Prod.fst ++ s.underWay = deliveries temperatureCodec listenLater
      ∧ ∃ e ∈ Run.history (step subscribeRpc temperatureCodec) (.start (.start twoKits))
          listenLater, Dumps ⟨0, .ofNat 1, 5⟩ "k1" e
        ∧ ∃ live, [m, m'] = e.before.shared.cached "k1" ++ live
          ∧ live.Sublist (((s.shared.published.drop 1).map Prod.fst).filter
            (·.kitSerial = "k1")) := by
  have hrun : ∃ s receiver m m', Run.exec (step subscribeRpc temperatureCodec)
        (.start (.start twoKits)) listenLater = some s
      ∧ s.tasks = [.subscription ⟨0, .ofNat 1, 5⟩ (.forward "k1" receiver false [m, m'])]
      ∧ receiver.since = 1 ∧ (deliveries temperatureCodec listenLater).length = 2 :=
    ⟨_, _, _, _, rfl, rfl, rfl, rfl⟩
  obtain ⟨s, receiver, m, m', hrun, htasks, hsince, hlength⟩ := hrun
  obtain ⟨horder, -, hsent⟩ :=
    live_measurements_in_order subscribeRpc temperatureCodec (.start twoKits) hrun
  obtain ⟨e, he, hdumps, -, hlive⟩ := hsent ⟨0, .ofNat 1, 5⟩ "k1" receiver false [m, m']
    (htasks ▸ List.mem_singleton.mpr rfl)
  rw [hsince] at hlive
  exact ⟨s, receiver, m, m', hrun, htasks, hlength, horder, e, he, hdumps, hlive⟩

end LiveFeed

end AstroPlant
