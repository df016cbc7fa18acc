import AstroPlant.CacheHandover

/-!
# Subscribers that are lapped

A channel keeps the last eight messages. A receiver that comes too late for the
one it is to read is told so once, and goes on at the oldest that is kept. But
in the loop of a subscription that answer does not match the pattern of the
branch, and `select!` disables the branch: the loop waits for its interval,
which is reset by each message that is forwarded, while the channel moves on.

One subscription and its channel are taken out of the program (`Feed`), with a
clock: the interval is part of the state, and a turn of the loop is that of
`Websocket`. What a subscriber may expect is `Recovers`: that it is forwarded the
oldest message that is kept as soon as the loop runs, and that nothing that is
forwarded is out of order or repeated (`Forwards`). The second holds in every
run; the first depends on the interval, at the polls that find the receiver
lapped (`Due`).
-/

namespace AstroPlant

namespace Websocket

open KitRpc (Duration)

/-! ## The loop with its interval -/

/-- A subscription in its loop, with its sink open. No step reads
`observed`: whether the loop has observed that it lagged, and forwarded nothing
since. -/
structure Feed where
  shared : Shared
  kitSerial : String
  receiver : Receiver
  lagged : Bool
  sink : List Mqtt.RawMeasurement
  now : Duration
  /-- When the interval ticks next. -/
  due : Duration
  observed : Bool

/-- The period of the interval. -/
def period : Duration := 60 * 1000

/-- The loop begins; the first tick comes at once. -/
def Feed.start (shared : Shared) (kitSerial : String) (sender : Nat)
    (sink : List Mqtt.RawMeasurement) (now : Duration) : Feed where
  shared
  kitSerial
  receiver := shared.subscribe sender
  lagged := false
  sink
  now
  due := now
  observed := false

/-- Measurements are published and time passes, whenever they do; the loop polls
its receiver, or its interval, which is ready when the tick is due. -/
inductive Feed.Label where
  | publish (rawMeasurement : Mqtt.RawMeasurement)
  | elapse (duration : Duration)
  | recv
  | tick

namespace Feed

variable (f : Feed)

/-- What has been put into the channel. -/
def messages : List Mqtt.RawMeasurement := f.shared.sent f.receiver.sender

/-- The message that the receiver is to read is no longer kept. -/
def lapped : Bool := f.receiver.next + capacity < f.messages.length

/-- The oldest message that the channel keeps, once it is full. -/
def oldest : Option Mqtt.RawMeasurement := f.messages[f.messages.length - capacity]?

/-- One turn of the loop, in one of its branches. -/
def turn (branch : Branch) : Option Feed :=
  match forwardingLoop f.shared f.kitSerial f.receiver f.lagged f.sink branch with
  | some (.forward _ receiver lagged sink) => some { f with receiver, lagged, sink }
  | _ => none

def step : Label → Option Feed
  | .publish rawMeasurement => some { f with shared := f.shared.send rawMeasurement }
  | .elapse duration => some { f with now := f.now + duration }
  | .recv =>
      -- `interval.reset` after a message
      (f.turn (.recv true)).map fun f' =>
        if f.lapped then { f' with observed := true }
        else { f' with due := f.now + period, observed := false }
  | .tick =>
      if f.due ≤ f.now then (f.turn (.tick false)).map fun f' => { f' with due := f.due + period }
      else none

/-- The receiver's branch is disabled, and the interval does not tick yet. -/
def waits : Bool := f.lagged && f.now < f.due

/-! ## What the loop does in a step -/

variable {f}

/-- The loop polls its receiver: it observes that it was lapped, or it forwards
the next message. -/
theorem recv_cases {f' : Feed} (h : f.step .recv = some f') :
    f.lagged = false ∧ (f.lapped = true
        ∧ f' = { f with
          receiver := { f.receiver with next := f.messages.length - capacity }
          lagged := true
          observed := true }
      ∨ f.lapped = false ∧ ∃ m, f.messages[f.receiver.next]? = some m
        ∧ f' = { f with
          receiver := { f.receiver with next := f.receiver.next + 1 }
          sink := f.sink ++ [m]
          due := f.now + period
          observed := false }) := by
  obtain ⟨f₁, hturn, rfl⟩ := Option.map_eq_some_iff.mp h
  obtain ⟨shared, kitSerial, receiver, lagged, sink, now, due, observed⟩ := f
  cases lagged with
  | true => cases hturn
  | false =>
      refine ⟨rfl, ?_⟩
      by_cases hlapped : receiver.next + capacity < (shared.sent receiver.sender).length
      · left
        simp only [turn, forwardingLoop, if_pos hlapped] at hturn
        obtain rfl := Option.some.inj hturn
        have hlapped : lapped ⟨shared, kitSerial, receiver, false, sink, now, due, observed⟩
            = true := decide_eq_true hlapped
        rw [hlapped]
        exact ⟨rfl, rfl⟩
      · right
        simp only [turn, forwardingLoop, if_neg hlapped] at hturn
        have hlapped : lapped ⟨shared, kitSerial, receiver, false, sink, now, due, observed⟩
            = false := decide_eq_false hlapped
        cases hm : (shared.sent receiver.sender)[receiver.next]? with
        | none =>
            rw [hm] at hturn
            cases hturn
        | some m =>
            rw [hm] at hturn
            obtain rfl := Option.some.inj hturn
            rw [hlapped]
            exact ⟨rfl, m, hm, rfl⟩

theorem tick_cases {f' : Feed} (h : f.step .tick = some f') :
    f.due ≤ f.now ∧ f' = { f with lagged := false, due := f.due + period } := by
  simp only [step] at h
  split at h
  · rename_i hdue
    exact ⟨hdue, (Option.some.inj h).symm⟩
  · cases h

theorem messages_publish (m : Mqtt.RawMeasurement) : ∃ ms,
    messages { f with shared := f.shared.send m } = f.messages ++ ms :=
  ⟨_, sent_send m f.receiver.sender⟩

/-! ## What is forwarded -/

/-- The positions in the channel that the loop has forwarded. -/
def forwarded (past : List (Run.Event Feed Label)) : List Nat :=
  past.filterMap fun e =>
    match e.label with
    | .recv => if e.before.lapped then none else some e.before.receiver.next
    | _ => none

/-- When the loop polled its receiver, the message at this position had not been
read and was no longer kept. -/
def Overwritten (past : List (Run.Event Feed Label)) (i : Nat) : Prop :=
  ∃ e ∈ past, e.label = .recv ∧ e.before.receiver.next ≤ i
    ∧ i + capacity < e.before.messages.length

/-- In the order of their publication and once each, all messages that are not
overwritten. -/
structure Forwards (f₀ : Feed) (past : List (Run.Event Feed Label)) (f : Feed) : Prop where
  ordered : (forwarded past).Pairwise (· < ·)
  read : ∀ i ∈ forwarded past, i < f.receiver.next
  sink : ∃ ms, f.sink = f₀.sink ++ ms
    ∧ (forwarded past).map (f.messages[·]?) = ms.map some
  complete : ∀ i, f₀.receiver.next ≤ i → i < f.receiver.next →
    i ∈ forwarded past ∨ Overwritten past i

theorem forwarded_append (past : List (Run.Event Feed Label)) (e : Run.Event Feed Label) :
    forwarded (past ++ [e]) = forwarded past ++ forwarded [e] :=
  List.filterMap_append

theorem Overwritten.append {past : List (Run.Event Feed Label)} {i : Nat}
    (h : Overwritten past i) (e : Run.Event Feed Label) : Overwritten (past ++ [e]) i := by
  obtain ⟨e', he', h⟩ := h
  exact ⟨e', List.mem_append_left _ he', h⟩

theorem Forwards.start (f : Feed) : Forwards f [] f where
  ordered := List.Pairwise.nil
  read := fun i hi => by cases hi
  sink := ⟨[], (List.append_nil _).symm, rfl⟩
  complete := fun i hle hlt => absurd hlt (Nat.not_lt.mpr hle)

/-- A step that forwards nothing and leaves the receiver where it is. -/
theorem Forwards.same {f₀ f f' : Feed} {past : List (Run.Event Feed Label)}
    (h : Forwards f₀ past f) {l : Label} (hl : l ≠ .recv) {ms : List Mqtt.RawMeasurement}
    (hreceiver : f'.receiver = f.receiver) (hsink : f'.sink = f.sink)
    (hmessages : f'.messages = f.messages ++ ms) :
    Forwards f₀ (past ++ [⟨f, l, f'⟩]) f' := by
  have hforwarded : forwarded (past ++ [⟨f, l, f'⟩]) = forwarded past := by
    rw [forwarded_append]
    cases l with
    | recv => exact absurd rfl hl
    | publish | elapse | tick => exact List.append_nil _
  refine ⟨by rw [hforwarded]; exact h.ordered, ?_, ?_, ?_⟩
  · rw [hforwarded, hreceiver]
    exact h.read
  · obtain ⟨sent, hsent, hmap⟩ := h.sink
    refine ⟨sent, hsink.trans hsent, ?_⟩
    rw [hforwarded, ← hmap, hmessages]
    refine List.map_congr_left fun i hi => ?_
    have hread : f.messages[i]? ∈ sent.map some := by
      rw [← hmap]
      exact List.mem_map_of_mem hi
    obtain ⟨m, -, hm⟩ := List.mem_map.mp hread
    exact List.getElem?_append_left (List.getElem?_eq_some_iff.mp hm.symm).1
  · intro i hle hlt
    rw [hreceiver] at hlt
    rw [hforwarded]
    exact (h.complete i hle hlt).imp_right (·.append _)

theorem Forwards.skip {f₀ f f' : Feed} {past : List (Run.Event Feed Label)}
    (h : Forwards f₀ past f) (hlapped : f.lapped = true)
    (hreceiver : f'.receiver.next = f.messages.length - capacity) (hsink : f'.sink = f.sink)
    (hmessages : f'.messages = f.messages) :
    Forwards f₀ (past ++ [⟨f, .recv, f'⟩]) f' := by
  have hlt : f.receiver.next + capacity < f.messages.length := of_decide_eq_true hlapped
  have hforwarded : forwarded (past ++ [⟨f, .recv, f'⟩]) = forwarded past := by
    rw [forwarded_append]
    simp [forwarded, hlapped]
  refine ⟨by rw [hforwarded]; exact h.ordered, ?_, ?_, ?_⟩
  · intro i hi
    rw [hforwarded] at hi
    have := h.read i hi
    omega
  · rw [hforwarded, hsink, hmessages]
    exact h.sink
  · intro i hle hi
    rw [hforwarded]
    by_cases hread : i < f.receiver.next
    · exact (h.complete i hle hread).imp_right (·.append _)
    · refine Or.inr ⟨_, List.mem_append_right _ (List.mem_singleton_self _), rfl, ?_, ?_⟩
      · show f.receiver.next ≤ i
        omega
      · show i + capacity < f.messages.length
        omega

theorem Forwards.forward {f₀ f f' : Feed} {past : List (Run.Event Feed Label)}
    {m : Mqtt.RawMeasurement} (h : Forwards f₀ past f) (hlapped : f.lapped = false)
    (hm : f.messages[f.receiver.next]? = some m)
    (hreceiver : f'.receiver.next = f.receiver.next + 1) (hsink : f'.sink = f.sink ++ [m])
    (hmessages : f'.messages = f.messages) :
    Forwards f₀ (past ++ [⟨f, .recv, f'⟩]) f' := by
  have hforwarded : forwarded (past ++ [⟨f, .recv, f'⟩]) = forwarded past ++ [f.receiver.next] := by
    rw [forwarded_append]
    simp [forwarded, hlapped]
  refine ⟨?_, ?_, ?_, ?_⟩
  · rw [hforwarded]
    refine List.pairwise_append.mpr ⟨h.ordered, List.pairwise_singleton _ _, ?_⟩
    intro i hi j hj
    rw [List.mem_singleton.mp hj]
    exact h.read i hi
  · intro i hi
    rw [hforwarded] at hi
    rcases List.mem_append.mp hi with hi | hi
    · have := h.read i hi
      omega
    · rw [List.mem_singleton.mp hi]
      omega
  · obtain ⟨sent, hsent, hmap⟩ := h.sink
    refine ⟨sent ++ [m], ?_, ?_⟩
    · rw [hsink, hsent, List.append_assoc]
    · rw [hforwarded, List.map_append, List.map_append, hmessages, ← hmap]
      show _ ++ [f.messages[f.receiver.next]?] = _
      rw [hm]
      rfl
  · intro i hle hi
    rw [hforwarded]
    by_cases hread : i < f.receiver.next
    · exact (h.complete i hle hread).imp (List.mem_append_left _) (·.append _)
    · have heq : i = f.receiver.next := by omega
      exact Or.inl (List.mem_append_right _ (List.mem_singleton.mpr heq))

/-- **One step.** -/
theorem Forwards.step {f₀ f f' : Feed} {past : List (Run.Event Feed Label)} {l : Label}
    (h : Forwards f₀ past f) (hstep : f.step l = some f') :
    Forwards f₀ (past ++ [⟨f, l, f'⟩]) f' := by
  cases l with
  | publish m =>
      obtain rfl := Option.some.inj hstep
      obtain ⟨ms, hms⟩ := messages_publish (f := f) m
      exact h.same (by simp) rfl rfl hms
  | elapse duration =>
      obtain rfl := Option.some.inj hstep
      exact h.same (by simp) rfl rfl (List.append_nil _).symm
  | tick =>
      obtain ⟨-, rfl⟩ := tick_cases hstep
      exact h.same (by simp) rfl rfl (List.append_nil _).symm
  | recv =>
      obtain ⟨-, ⟨hlapped, rfl⟩ | ⟨hlapped, m, hm, rfl⟩⟩ := recv_cases hstep
      · exact h.skip hlapped rfl rfl rfl
      · exact h.forward hlapped hm rfl rfl rfl

/-! ## Recovering -/

/-- The loop never waits for its interval after it has lagged, what it forwards
next is the oldest message that is kept, and it forwards all that it can. -/
structure Recovers (f : Feed) (ls : List Label) : Prop where
  prompt : Run.Always step (fun f => f.waits = false) f ls
  oldest : ∀ e ∈ Run.history step f ls, e.label = .recv → e.before.observed = true →
    e.before.lapped = false → e.before.oldest.map (e.before.sink ++ [·]) = some e.after.sink
  forwards : ∀ f', Run.exec step f ls = some f' → Forwards f (Run.history step f ls) f'

/-- If the loop finds that it was lapped, its interval ticks. -/
def Due (f : Feed) (l : Label) : Prop := l = .recv → f.lapped = true → f.due ≤ f.now

instance (f : Feed) (l : Label) : Decidable (Due f l) :=
  match l with
  | .recv => decidable_of_iff (f.lapped = true → f.due ≤ f.now) ⟨fun h _ => h, fun h => h rfl⟩
  | .publish _ | .elapse _ | .tick => .isTrue fun h => by cases h

/-- **One step**: the loop begins to wait when it is lapped before the tick. -/
theorem waits_step {f' : Feed} {l : Label} (hf : f.waits = false) (h : f.step l = some f') :
    f'.waits = false ↔ Due f l := by
  cases l with
  | publish m =>
      obtain rfl := Option.some.inj h
      exact iff_of_true hf fun h => by cases h
  | elapse duration =>
      obtain rfl := Option.some.inj h
      refine iff_of_true ?_ fun h => by cases h
      simp only [waits, Bool.and_eq_false_iff, decide_eq_false_iff_not] at hf ⊢
      refine hf.imp_right fun hdue => ?_
      exact Nat.not_lt.mpr (Nat.le_trans (Nat.not_lt.mp hdue) (Nat.le_add_right f.now duration))
  | tick =>
      obtain ⟨-, rfl⟩ := tick_cases h
      exact iff_of_true rfl fun h => by cases h
  | recv =>
      obtain ⟨hlagged, ⟨hlapped, rfl⟩ | ⟨hlapped, m, hm, rfl⟩⟩ := recv_cases h
      · simp [waits, Due, hlapped]
      · simp [waits, Due, hlapped, hlagged]

/-- What the receiver skipped to is the oldest message that is kept, or is no
longer kept either. -/
theorem observed_step {f' : Feed} {l : Label}
    (hf : f.observed = true → f.receiver.next + capacity ≤ f.messages.length)
    (h : f.step l = some f') :
    f'.observed = true → f'.receiver.next + capacity ≤ f'.messages.length := by
  cases l with
  | publish m =>
      obtain rfl := Option.some.inj h
      obtain ⟨ms, hms⟩ := messages_publish (f := f) m
      intro hobserved
      have := hf hobserved
      rw [hms, List.length_append]
      show f.receiver.next + capacity ≤ _
      omega
  | elapse duration =>
      obtain rfl := Option.some.inj h
      exact hf
  | tick =>
      obtain ⟨-, rfl⟩ := tick_cases h
      exact hf
  | recv =>
      obtain ⟨-, ⟨hlapped, rfl⟩ | ⟨-, m, -, rfl⟩⟩ := recv_cases h
      · intro _
        have hlt : f.receiver.next + capacity < f.messages.length := of_decide_eq_true hlapped
        show f.messages.length - capacity + capacity ≤ f.messages.length
        omega
      · intro hobserved
        cases hobserved

theorem forwards_oldest {f' : Feed} (h : f.step .recv = some f')
    (hf : f.receiver.next + capacity ≤ f.messages.length) (hlapped : f.lapped = false) :
    f.oldest.map (f.sink ++ [·]) = some f'.sink := by
  obtain ⟨-, ⟨hlapped', -⟩ | ⟨-, m, hm, rfl⟩⟩ := recv_cases h
  · rw [hlapped] at hlapped'
    cases hlapped'
  · have hnot : ¬f.receiver.next + capacity < f.messages.length := of_decide_eq_false hlapped
    have hnext : f.messages.length - capacity = f.receiver.next := by omega
    rw [oldest, hnext, hm]
    rfl

theorem recovers_iff {ls : List Label} (hf : f.waits = false) (hobserved : f.observed = false) :
    Recovers f ls ↔ Run.Guarded step Due f ls := by
  have hprompt : Run.Always step (fun f => f.waits = false) f ls ↔ Run.Guarded step Due f ls :=
    Run.always_iff_guarded (J := fun _ => True) (fun _ _ _ _ _ => trivial)
      (fun _ _ _ _ hwaits hstep => waits_step hwaits hstep) ls trivial hf
  refine ⟨fun h => hprompt.mp h.prompt, fun h => ⟨hprompt.mpr h, ?_, ?_⟩⟩
  · intro e he hlabel hobs hlapped
    obtain ⟨before, after, hsplit⟩ := List.append_of_mem he
    obtain ⟨ls₁, ls₂, -, hrun, -, hstep⟩ := Run.history_split hsplit
    have hskipped := Run.exec_invariant
      (I := fun f : Feed => f.observed = true → f.receiver.next + capacity ≤ f.messages.length)
      (fun _ _ _ hs hstep => observed_step hs hstep)
      (fun h => by rw [hobserved] at h; cases h) hrun hobs
    rw [hlabel] at hstep
    exact forwards_oldest hstep hskipped hlapped
  · intro f' hrun
    exact Run.exec_history (fun _ _ _ _ h hstep => h.step hstep) (.start f) hrun

/-- **When a lapped subscriber recovers**, for every sequence of publishes and
every scheduling of the loop: exactly if, whenever the loop finds that it was
lapped, the tick of its interval happens to be due. -/
theorem lapped_recovers_iff (shared : Shared) (kitSerial : String) (sender : Nat)
    (sink : List Mqtt.RawMeasurement) (now : Duration) (ls : List Label) :
    Recovers (.start shared kitSerial sender sink now) ls
      ↔ Run.Guarded step Due (.start shared kitSerial sender sink now) ls :=
  recovers_iff rfl rfl

/-- Nine measurements are published at once, after the first tick. -/
def burst : List Label :=
  .tick :: List.replicate 9 (.publish ⟨1, "k1", 0, 1, 1, F64.one⟩) ++ [.recv]

/-- The only sender is that of the kit. -/
def listening : Shared :=
  { Shared.start with
    rawMeasurementListeners := (∅ : AList fun _ : String => Nat).insert "k1" 0
    created := 1 }

theorem burst_not_recovers : ¬Recovers (.start listening "k1" 0 [] 0) burst := by
  intro h
  have hguarded := (recovers_iff rfl rfl).mp h
  exact absurd hguarded (by decide +kernel)

end Feed

end Websocket

end AstroPlant
