import AstroPlant.LiveOrigins

/-!
# What a socket is held to

A socket has eight permits, each of which is in use until its subscription has
ended. `send_all` pings a socket that has been silent. Its interval is reset
when a message has been sent, and not when a ping has been: the next tick counts
from this one. So

- a ping is taken up four minutes or more after every message before it was
  sent, and almost four minutes after every ping before it was taken up; how
  long the socket takes to accept a frame is up to the client, and two pings may
  be accepted close to each other;
- where a due heartbeat is not let pass, a socket that is open and on which
  nothing is being sent was sent a frame in the last four minutes, if it was
  sent any.

That and the bound on subscriptions is `sockets_limited`. The invariant of a
socket is `Connection.Beats`: what its past frames say of the time of the next
heartbeat.
-/

namespace AstroPlant

namespace LiveFeed

open KitRpc (Duration)
open Websocket (Subscription)

variable {rpc : JsonRpc} {codec : Mqtt.Codec} {s s' : State}

/-! ## Permits -/

/-- No socket has more subscriptions than permits. -/
def Permitted (s : State) : Prop :=
  ∀ n, s.tasks.countP (·.ofConnection n) ≤ subscriptionPermits

theorem permitted_moves {l : Label} (hs : Permitted s) (h : Moves rpc codec s l s') :
    Permitted s' := by
  intro n
  cases h with
  | elapse | database | connect | ignores | refuses | hangUp | sink | publish | enqueue | flushed
  | upload => exact hs n
  | @subscribes k message subscriptionId req kitSerial hasks hconnection hpermits =>
      show (s.tasks ++ [_]).countP _ ≤ _
      rw [List.countP_append]
      by_cases hk : k = n
      · subst hk
        simpa [LiveTask.ofConnection] using Nat.succ_le_of_lt hpermits
      · simpa [LiveTask.ofConnection, hk] using hs n
  | subscription htask =>
      refine Nat.le_trans (Program.countP_replace_le htask fun t' ht' hof => ?_) (hs n)
      obtain ⟨sub', -, rfl⟩ := Option.mem_map.mp ht'
      exact hof
  | cache htask =>
      refine Nat.le_trans (Program.countP_replace_le (k := some _) htask fun t' ht' hof => ?_)
        (hs n)
      cases ht'
      exact hof
  | send htask | clean htask =>
      exact Nat.le_trans (Program.countP_replace_le (k := none) htask nofun) (hs n)
  | tickCleaner | forward =>
      show (s.tasks ++ [_]).countP _ ≤ _
      rw [List.countP_append]
      simpa [LiveTask.ofConnection] using hs n

/-! ## Heartbeats -/

/-- A frame before another one. Before a ping, an interval has passed since a
message was sent; since the tick of another ping it may lack the five
milliseconds by which that one was late. -/
structure Written.Precedes (f g : Written) : Prop where
  order : f.sent ≤ g.taken
  ticks : g.frame = .ping → f.taken + HEARTBEAT_INTERVAL ≤ g.taken + 5
  silence : g.frame = .ping → f.frame ≠ .ping → f.sent + HEARTBEAT_INTERVAL ≤ g.taken

/-- The next ping will come after the frame as it should. -/
structure Written.Passed (f : Written) (heartbeat : Duration) : Prop where
  ticks : f.taken + HEARTBEAT_INTERVAL ≤ heartbeat + 5
  silence : f.frame ≠ .ping → f.sent + HEARTBEAT_INTERVAL ≤ heartbeat

/-- The frames of a socket, and the one that is being sent, by the clock. -/
structure Connection.Beats (now : Duration) (c : Connection) : Prop where
  precedes : c.frames.Pairwise Written.Precedes
  past : ∀ f ∈ c.frames, f.taken ≤ f.sent ∧ f.sent ≤ now
  passed : ∀ f ∈ c.frames, f.Passed c.heartbeat
  last : c.selects = true → ∀ f ∈ c.frames.getLast?, c.heartbeat ≤ f.sent + HEARTBEAT_INTERVAL
  sending : ∀ taken frame, c.sendAll = .sending taken frame → taken ≤ now
    ∧ (∀ f ∈ c.frames, f.Precedes ⟨taken, now, frame⟩)
    ∧ (frame = .ping → taken + HEARTBEAT_INTERVAL ≤ c.heartbeat + 5
      ∧ c.heartbeat ≤ taken + HEARTBEAT_INTERVAL)

theorem nextTick_bounds {deadline now : Duration} (hdue : deadline ≤ now) :
    now + HEARTBEAT_INTERVAL ≤ nextTick deadline now + 5
      ∧ nextTick deadline now ≤ now + HEARTBEAT_INTERVAL ∧ deadline ≤ nextTick deadline now := by
  unfold nextTick
  split
  · exact ⟨Nat.le_add_right _ _, Nat.le_refl _, Nat.le_trans hdue (Nat.le_add_right _ _)⟩
  · rename_i hlate
    refine ⟨?_, Nat.add_le_add_right hdue _, Nat.le_add_right _ _⟩
    rw [Nat.add_right_comm]
    exact Nat.add_le_add_right (Nat.le_of_not_lt hlate) _

theorem Written.Passed.mono {f : Written} {heartbeat heartbeat' : Duration}
    (h : f.Passed heartbeat) (hle : heartbeat ≤ heartbeat') : f.Passed heartbeat' where
  ticks := Nat.le_trans h.ticks (Nat.add_le_add_right hle 5)
  silence hframe := Nat.le_trans (h.silence hframe) hle

/-- When a frame was sent does not matter to those before it. -/
theorem Written.Precedes.resent {f : Written} {taken sent sent' : Duration} {frame : Frame}
    (h : f.Precedes ⟨taken, sent, frame⟩) : f.Precedes ⟨taken, sent', frame⟩ :=
  ⟨h.order, h.ticks, h.silence⟩

namespace Connection.Beats

variable {now now' : Duration} {c c' : Connection}

theorem later (h : c.Beats now) (hnow : now ≤ now') : c.Beats now' where
  precedes := h.precedes
  past f hf := ⟨(h.past f hf).1, Nat.le_trans (h.past f hf).2 hnow⟩
  passed := h.passed
  last := h.last
  sending taken frame hsending := by
    obtain ⟨htaken, hprecedes, hping⟩ := h.sending taken frame hsending
    exact ⟨Nat.le_trans htaken hnow, fun f hf => (hprecedes f hf).resent, hping⟩

theorem of_frames (h : c.Beats now) (hframes : c'.frames = c.frames)
    (hheartbeat : c'.heartbeat = c.heartbeat) (hsendAll : c'.sendAll = c.sendAll) :
    c'.Beats now where
  precedes := hframes ▸ h.precedes
  past := hframes ▸ h.past
  passed := by rw [hframes, hheartbeat]; exact h.passed
  last := by rw [hframes, hheartbeat, selects, hsendAll]; exact h.last
  sending := by rw [hframes, hheartbeat, hsendAll]; exact h.sending

theorem ends (h : c.Beats now) (hframes : c'.frames = c.frames)
    (hheartbeat : c'.heartbeat = c.heartbeat)
    (hsendAll : c'.sendAll = .close ∨ c'.sendAll = .done) : c'.Beats now where
  precedes := hframes ▸ h.precedes
  past := hframes ▸ h.past
  passed := by rw [hframes, hheartbeat]; exact h.passed
  last hselects := by rcases hsendAll with h | h <;> simp [selects, h] at hselects
  sending taken frame hsending := by rcases hsendAll with h | h <;> simp [h] at hsending

end Connection.Beats

theorem beats_connected (userId : Option Int) (now : Duration) :
    (Connection.connected userId now).Beats now := by
  constructor <;> simp [Connection.connected]

/-- A branch takes up a frame: a message, or a ping whose heartbeat is due. -/
theorem Connection.Beats.take {now : Duration} {c : Connection} (h : c.Beats now)
    {queue : List RpcMessage} {heartbeat : Duration} {frame : Frame}
    (hframe : frame ≠ .ping ∧ heartbeat = c.heartbeat
      ∨ frame = .ping ∧ c.heartbeat ≤ now ∧ heartbeat = nextTick c.heartbeat now) :
    Connection.Beats now { c with queue, heartbeat, sendAll := .sending now frame } where
  precedes := h.precedes
  past := h.past
  passed f hf := by
    rcases hframe with ⟨-, rfl⟩ | ⟨-, hdue, rfl⟩
    · exact h.passed f hf
    · exact (h.passed f hf).mono (nextTick_bounds hdue).2.2
  last hselects := by simp [selects] at hselects
  sending taken frame' hsending := by
    obtain ⟨rfl, rfl⟩ := SendAll.sending.inj hsending
    refine ⟨Nat.le_refl _, fun f hf => ?_, ?_⟩
    · refine ⟨(h.past f hf).2, ?_, ?_⟩ <;> intro hping
      all_goals obtain ⟨-, hdue, -⟩ := hframe.resolve_left fun hne => hne.1 hping
      · exact Nat.le_trans (h.passed f hf).ticks (Nat.add_le_add_right hdue 5)
      · exact fun hmessage => Nat.le_trans ((h.passed f hf).silence hmessage) hdue
    · intro hping
      obtain ⟨-, hdue, rfl⟩ := hframe.resolve_left fun hne => hne.1 hping
      exact ⟨(nextTick_bounds hdue).1, (nextTick_bounds hdue).2.1⟩

/-- The frame has been sent; a message resets the heartbeat. -/
theorem Connection.Beats.send {now : Duration} {c : Connection} (h : c.Beats now)
    {taken : Duration} {frame : Frame} (hsending : c.sendAll = .sending taken frame) :
    Connection.Beats now
      { c with
        sendAll := .loop
        heartbeat := frame.heartbeat now c.heartbeat
        frames := c.frames ++ [⟨taken, now, frame⟩] } := by
  obtain ⟨htaken, hprecedes, hping⟩ := h.sending taken frame hsending
  constructor
  · refine List.pairwise_append.mpr ⟨h.precedes, List.pairwise_singleton _ _, ?_⟩
    intro f hf g hg
    obtain rfl := List.mem_singleton.mp hg
    exact hprecedes f hf
  · intro f hf
    rcases List.mem_append.mp hf with hf | hf
    · exact h.past f hf
    · obtain rfl := List.mem_singleton.mp hf
      exact ⟨htaken, Nat.le_refl _⟩
  · intro f hf
    cases frame with
    | text message =>
        have hreset : ∀ f : Written, f.taken ≤ f.sent → f.sent ≤ now →
            f.Passed (now + HEARTBEAT_INTERVAL) := fun f hle hpast =>
          ⟨Nat.le_trans (Nat.add_le_add_right (Nat.le_trans hle hpast) _) (Nat.le_add_right _ _),
            fun _ => Nat.add_le_add_right hpast _⟩
        rcases List.mem_append.mp hf with hf | hf
        · exact hreset f (h.past f hf).1 (h.past f hf).2
        · obtain rfl := List.mem_singleton.mp hf
          exact hreset _ htaken (Nat.le_refl _)
    | ping =>
        rcases List.mem_append.mp hf with hf | hf
        · exact h.passed f hf
        · obtain rfl := List.mem_singleton.mp hf
          exact ⟨(hping rfl).1, fun hne => absurd rfl hne⟩
  · intro _ f hf
    rw [List.getLast?_concat] at hf
    obtain rfl := Option.some.inj hf
    cases frame with
    | text message => exact Nat.le_refl _
    | ping => exact Nat.le_trans (hping rfl).2 (Nat.add_le_add_right htaken _)
  · intro taken' frame' hloop
    cases hloop

theorem Connection.send_frames (c : Connection) (ms : List RpcMessage) :
    (c.send ms).frames = c.frames ∧ (c.send ms).heartbeat = c.heartbeat
      ∧ (c.send ms).sendAll = c.sendAll := by
  unfold send
  split <;> exact ⟨rfl, rfl, rfl⟩

/-- A step of `send_all` keeps the beats. It waits for its branches after the step
only if a frame has just been sent. -/
theorem Connection.advance_beats {now : Duration} {c c' : Connection} {branch : SinkBranch}
    (h : c.advance now branch = some c') (hc : c.Beats now) :
    c'.Beats now ∧ (c'.selects = true → ∀ f ∈ c'.frames.getLast?, f.sent = now) := by
  cases branch with
  | message =>
      simp only [advance] at h
      split at h
      · obtain rfl := Option.some.inj h
        exact ⟨hc.take (Or.inl ⟨by rintro ⟨⟩, rfl⟩), by rintro ⟨⟩⟩
      · cases h
  | heartbeat =>
      simp only [advance] at h
      split at h
      · split at h
        · rename_i hdue
          obtain rfl := Option.some.inj h
          exact ⟨hc.take (Or.inr ⟨rfl, hdue, rfl⟩), by rintro ⟨⟩⟩
        · cases h
      · cases h
  | sent accepted =>
      simp only [advance] at h
      split at h
      · rename_i taken frame hsending
        split at h <;> obtain rfl := Option.some.inj h
        · refine ⟨hc.send hsending, fun _ f hf => ?_⟩
          rw [List.getLast?_concat] at hf
          obtain rfl := Option.some.inj hf
          rfl
        · exact ⟨hc.ends rfl rfl (Or.inl rfl), by rintro ⟨⟩⟩
      · cases h
  | closeRx =>
      simp only [advance] at h
      split at h
      · split at h
        · cases h
        · obtain rfl := Option.some.inj h
          exact ⟨hc.ends rfl rfl (Or.inl rfl), by rintro ⟨⟩⟩
      · cases h
  | close =>
      simp only [advance] at h
      split at h
      · obtain rfl := Option.some.inj h
        exact ⟨hc.ends rfl rfl (Or.inr rfl), by rintro ⟨⟩⟩
      · cases h

/-! ## Sockets one by one -/

/-- A step is one of a single socket, opens one, or leaves all of them as they
are while the clock may move. -/
theorem connections_moves {l : Label} (h : Moves rpc codec s l s') :
    (s'.connections = s.connections
        ∧ (s'.clock = s.clock ∨ ∃ d, l = .elapse d ∧ s'.clock = s.clock + d))
      ∨ (∃ userId, s'.connections = s.connections ++ [.connected userId s.clock]
        ∧ s'.clock = s.clock)
      ∨ (∃ n f, s'.connections = s.connections.modify n f ∧ s'.clock = s.clock
        ∧ ∀ c, s.connections[n]? = some c →
          ((f c).frames = c.frames ∧ (f c).heartbeat = c.heartbeat ∧ (f c).sendAll = c.sendAll)
            ∨ ∃ branch, c.advance s.clock branch = some (f c)) := by
  cases h with
  | elapse duration => exact Or.inl ⟨rfl, Or.inr ⟨duration, rfl, rfl⟩⟩
  | database | ignores | subscribes | cache | send | clean | tickCleaner | publish | enqueue
  | flushed | upload | forward => exact Or.inl ⟨rfl, Or.inl rfl⟩
  | connect userId => exact Or.inr (Or.inl ⟨userId, rfl, rfl⟩)
  | refuses n | subscription =>
      exact Or.inr (Or.inr ⟨_, _, rfl, rfl, fun c _ => Or.inl (Connection.send_frames c _)⟩)
  | hangUp n => exact Or.inr (Or.inr ⟨n, _, rfl, rfl, fun c _ => Or.inl ⟨rfl, rfl, rfl⟩⟩)
  | @sink n branch connection connection' hconnection hadvance =>
      refine Or.inr (Or.inr ⟨n, _, rfl, rfl, fun c hc => Or.inr ⟨branch, ?_⟩⟩)
      obtain rfl := Option.some.inj (hconnection.symm.trans hc)
      exact hadvance

theorem mem_modify {connections : List Connection} {n : Nat} {f : Connection → Connection}
    {c : Connection} (h : c ∈ connections.modify n f) :
    c ∈ connections ∨ ∃ c₀, connections[n]? = some c₀ ∧ c = f c₀ := by
  obtain ⟨k, hk⟩ := List.mem_iff_getElem?.mp h
  rw [List.getElem?_modify] at hk
  obtain ⟨c₀, hc₀, hc⟩ := Option.map_eq_some_iff.mp hk
  by_cases hn : n = k
  · subst hn
    rw [if_pos rfl] at hc
    exact Or.inr ⟨c₀, hc₀, hc.symm⟩
  · rw [if_neg hn] at hc
    subst hc
    exact Or.inl (List.mem_of_getElem? hc₀)

theorem beats_moves {l : Label} (hs : ∀ c ∈ s.connections, c.Beats s.clock)
    (h : Moves rpc codec s l s') : ∀ c ∈ s'.connections, c.Beats s'.clock := by
  rcases connections_moves h with ⟨hsame, hclock⟩ | ⟨userId, hnew, hclock⟩
    | ⟨n, f, hmodify, hclock, hf⟩
  · intro c hc
    rw [hsame] at hc
    refine (hs c hc).later ?_
    rcases hclock with hclock | ⟨d, -, hclock⟩ <;> rw [hclock]
    exact Nat.le_add_right _ _
  · intro c hc
    rw [hclock]
    rw [hnew] at hc
    rcases List.mem_append.mp hc with hc | hc
    · exact hs c hc
    · obtain rfl := List.mem_singleton.mp hc
      exact beats_connected userId s.clock
  · intro c hc
    rw [hclock]
    rw [hmodify] at hc
    rcases mem_modify hc with hc | ⟨c₀, hc₀, rfl⟩
    · exact hs c hc
    · rcases hf c₀ hc₀ with ⟨hframes, hheartbeat, hsendAll⟩ | ⟨branch, hadvance⟩
      · exact (hs c₀ (List.mem_of_getElem? hc₀)).of_frames hframes hheartbeat hsendAll
      · exact (Connection.advance_beats hadvance (hs c₀ (List.mem_of_getElem? hc₀))).1

/-- No time passes beyond a heartbeat that is due, while nothing is being sent. -/
def Prompt (s : State) : Label → Prop
  | .elapse duration =>
      ∀ c ∈ s.connections, c.selects = true → s.clock + duration ≤ c.heartbeat
  | _ => True

instance (s : State) : ∀ l : Label, Decidable (Prompt s l)
  | .elapse duration =>
      inferInstanceAs (Decidable
        (∀ c ∈ s.connections, c.selects = true → s.clock + duration ≤ c.heartbeat))
  | .database _ | .connect _ | .text _ _ _ | .hangUp _ | .sink _ _ | .run _ _ _ | .tickCleaner
  | .publish _ _ | .pump _ | .forward => .isTrue trivial

/-- Sockets on which nothing is being sent were sent something lately. -/
def Heard (s : State) : Prop :=
  ∀ c ∈ s.connections, c.selects = true → ∀ f ∈ c.frames.getLast?,
    s.clock ≤ f.sent + HEARTBEAT_INTERVAL

theorem heard_moves {l : Label} (hbeats : ∀ c ∈ s.connections, c.Beats s.clock) (hs : Heard s)
    (hprompt : Prompt s l) (h : Moves rpc codec s l s') : Heard s' := by
  intro c hc hselects f hf
  rcases connections_moves h with ⟨hsame, hclock⟩ | ⟨userId, hnew, hclock⟩
    | ⟨n, g, hmodify, hclock, hg⟩
  · rw [hsame] at hc
    rcases hclock with hclock | ⟨d, rfl, hclock⟩ <;> rw [hclock]
    · exact hs c hc hselects f hf
    · exact Nat.le_trans (hprompt c hc hselects) ((hbeats c hc).last hselects f hf)
  · rw [hclock]
    rw [hnew] at hc
    rcases List.mem_append.mp hc with hc | hc
    · exact hs c hc hselects f hf
    · obtain rfl := List.mem_singleton.mp hc
      cases hf
  · rw [hclock]
    rw [hmodify] at hc
    rcases mem_modify hc with hc | ⟨c₀, hc₀, rfl⟩
    · exact hs c hc hselects f hf
    · have hmem := List.mem_of_getElem? hc₀
      rcases hg c₀ hc₀ with ⟨hframes, -, hsendAll⟩ | ⟨branch, hadvance⟩
      · rw [hframes] at hf
        refine hs c₀ hmem ?_ f hf
        rwa [Connection.selects, ← hsendAll]
      · have hsent := (Connection.advance_beats hadvance (hbeats c₀ hmem)).2 hselects f hf
        rw [hsent]
        exact Nat.le_add_right _ _

/-! ## Runs -/

/-- **Limits of a socket.** In every run no socket ever has more than eight
subscriptions; a ping is taken up no sooner than four minutes after every message
before it was sent, and, but for five milliseconds, after every ping before it was
taken up. In a run in which no due heartbeat is let pass, the last frame on a
socket that is open and has nothing in hand was sent four minutes ago at most. -/
theorem sockets_limited (rpc : JsonRpc) (codec : Mqtt.Codec) (services : Services)
    {ls : List Label} {s : State}
    (h : Run.exec (step rpc codec) (.start services) ls = some s) :
    (∀ n, s.tasks.countP (·.ofConnection n) ≤ 8)
      ∧ (∀ c ∈ s.connections, c.frames.Pairwise Written.Precedes
        ∧ ∀ f ∈ c.frames, f.taken ≤ f.sent)
      ∧ (Run.Guarded (step rpc codec) Prompt (.start services) ls →
        ∀ c ∈ s.connections, c.selects = true → ∀ f ∈ c.frames.getLast?,
          s.clock ≤ f.sent + HEARTBEAT_INTERVAL) := by
  have hbeats : ∀ c ∈ s.connections, c.Beats s.clock :=
    Run.exec_invariant (I := fun s : State => ∀ c ∈ s.connections, c.Beats s.clock)
      (fun _ _ _ hs h => beats_moves hs (moves_of_step h)) (fun c hc => by cases hc) h
  refine ⟨?_, fun c hc => ⟨(hbeats c hc).precedes, fun f hf => ((hbeats c hc).past f hf).1⟩,
    fun hprompt => ?_⟩
  · exact Run.exec_invariant (I := Permitted)
      (fun _ _ _ hs h => permitted_moves hs (moves_of_step h)) (fun _ => Nat.zero_le _) h
  · exact (Run.exec_invariant_guarded
      (I := fun s : State => (∀ c ∈ s.connections, c.Beats s.clock) ∧ Heard s)
      (fun s l s' hs hl hstep => ⟨beats_moves hs.1 (moves_of_step hstep),
        heard_moves hs.1 hs.2 hl (moves_of_step hstep)⟩)
      ⟨(fun c hc => by cases hc), (fun c hc => by cases hc)⟩ hprompt h).2

/-- A socket whose client says nothing is pinged when it is opened, and again four
minutes later. The first ping is accepted after a minute. -/
def silentSocket : List Label :=
  [.connect none, .sink 0 .heartbeat, .elapse 60000, .sink 0 (.sent true), .elapse 180000,
    .sink 0 .heartbeat, .sink 0 (.sent true), .elapse 100000]

theorem sockets_limited_silentSocket :
    ∃ s c, Run.exec (step subscribeRpc temperatureCodec) (.start (.start twoKits)) silentSocket
        = some s
      ∧ s.connections = [c] ∧ c.frames = [⟨0, 60000, .ping⟩, ⟨240000, 240000, .ping⟩]
      ∧ c.frames.Pairwise Written.Precedes
      ∧ ∀ f ∈ c.frames.getLast?, s.clock ≤ f.sent + HEARTBEAT_INTERVAL := by
  have hrun : ∃ s c, Run.exec (step subscribeRpc temperatureCodec) (.start (.start twoKits))
        silentSocket = some s
      ∧ s.connections = [c] ∧ c.frames = [⟨0, 60000, .ping⟩, ⟨240000, 240000, .ping⟩]
      ∧ c.selects = true
      ∧ Run.Guarded (step subscribeRpc temperatureCodec) Prompt (.start (.start twoKits))
        silentSocket := by
    refine ⟨_, _, rfl, rfl, rfl, rfl, ?_⟩
    decide +kernel
  obtain ⟨s, c, hrun, hconnections, hframes, hselects, hprompt⟩ := hrun
  obtain ⟨-, hprecedes, hheard⟩ :=
    sockets_limited subscribeRpc temperatureCodec (.start twoKits) hrun
  have hc : c ∈ s.connections := by
    rw [hconnections]
    exact List.mem_singleton.mpr rfl
  exact ⟨s, c, hrun, hconnections, hframes, (hprecedes c hc).1, hheard hprompt c hc hselects⟩

end LiveFeed

end AstroPlant
