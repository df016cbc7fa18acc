import AstroPlant.Listeners
import AstroPlant.Newest
import AstroPlant.Run

/-!
# The cache is the newest-value view

The program of `Listeners` under a clock. A publication reads the clock while it
holds the lock of the cache; the cleaner reads it first and takes the lock later,
so what is in the cache by then may be younger than the cleaner's time. Beside
the run stands the log of what was published, with the times, and the time of
the last cleaning.

The program of the listeners is not changed for this: a clock, a log and the time
of the last cleaning stand beside its state (`Timed`), and the steps of the
program are taken as they are. The invariant is `Timed.Newest`: of each kit and
each pair of peripheral and quantity type the cache has an entry exactly if the
log has one that had not expired at the last cleaning, and the entry is the
newest one. It is the invariant of `Newest` for each key; a kit whose entries
have all expired is removed with its map (`entry_clean`).
-/

namespace AstroPlant

namespace Websocket

open KitRpc (Duration)

/-! ## Under a clock -/

structure Timed where
  conc : Conc Shared Task
  clock : Duration
  /-- What the cleaner has read off the clock, before it takes the lock. -/
  reading : Option Duration
  log : List (Duration × Mqtt.RawMeasurement)
  cleaned : Option Duration

namespace Timed

def start : Timed where
  conc := ⟨.start, []⟩
  clock := 0
  reading := none
  log := []
  cleaned := none

inductive Event where
  | elapse (duration : Duration)
  | readClock
  | act (l : Sched Request Env)

/-- What a step of a task needs of its time, and what is noted of it. -/
def note (t : Timed) (c : Conc Shared Task) (now : Duration) : Task → Option Timed
  | .cache m =>
      if now = t.clock then some { t with conc := c, log := t.log ++ [(now, m)] } else none
  | .clean =>
      if t.reading = some now then some { t with conc := c, reading := none, cleaned := some now }
      else none
  | _ => some { t with conc := c }

def step (t : Timed) : Event → Option Timed
  | .elapse duration => some { t with clock := t.clock + duration }
  | .readClock =>
      match t.reading with
      | none => some { t with reading := some t.clock }
      | some _ => none
  | .act (.run i e) =>
      match t.conc.tasks[i]?, program.step t.conc (.run i e) with
      | some task, some c => t.note c e.now task
      | _, _ => none
  | .act l => (program.step t.conc l).map fun c => { t with conc := c }

end Timed

/-! ## The entries of the cache -/

/-- Where a measurement is cached. -/
def cacheKey (e : Duration × Mqtt.RawMeasurement) : String × Int × Int :=
  (e.2.kitSerial, e.2.peripheral, e.2.quantityType)

/-- A cleaning from then on removes the entry. -/
def expires (e : Duration × Mqtt.RawMeasurement) : Duration := e.1 + retentionPeriod

/-- The entry of a kit, a peripheral and a quantity type. -/
def Shared.entry (s : Shared) (k : String × Int × Int) :
    Option (Duration × Mqtt.RawMeasurement) :=
  (s.rawMeasurementCache.lookup k.1).bind fun forKit => forKit.lookup k.2

theorem entry_cache {s : Shared} {now : Duration} {m : Mqtt.RawMeasurement}
    (k : String × Int × Int) :
    (s.cache now m).entry k = if cacheKey (now, m) = k then some (now, m) else s.entry k := by
  obtain ⟨kit, pair⟩ := k
  by_cases hkit : m.kitSerial = kit
  · subst hkit
    by_cases hpair : (m.peripheral, m.quantityType) = pair
    · subst hpair
      simp [Shared.entry, Shared.cache, cacheKey]
    · have hne : ¬cacheKey (now, m) = (m.kitSerial, pair) := fun h => hpair (Prod.ext_iff.mp h).2
      rw [if_neg hne]
      simp only [Shared.entry, Shared.cache, AList.lookup_insert, Option.bind_some,
        AList.lookup_insert_ne (Ne.symm hpair)]
      cases s.rawMeasurementCache.lookup m.kitSerial <;> rfl
  · have hne : ¬cacheKey (now, m) = (kit, pair) := fun h => hkit (Prod.ext_iff.mp h).1
    rw [if_neg hne]
    simp [Shared.entry, Shared.cache, AList.lookup_insert_ne (Ne.symm hkit)]

theorem young_iff (now : Duration) (e : Duration × Mqtt.RawMeasurement) :
    now - e.1 < retentionPeriod ↔ now < expires e := by
  have hsub : ∀ now added period : Nat,
      0 < period → (now - added < period ↔ now < added + period) := by
    omega
  exact hsub now e.1 retentionPeriod (by decide)

/-- A kit without a young entry is removed, and had none to keep. -/
theorem entry_clean {s : Shared} {now : Duration} (k : String × Int × Int) :
    (s.clean now).entry k = (s.entry k).filter fun e => decide (now < expires e) := by
  obtain ⟨kit, pair⟩ := k
  let young : Duration × Mqtt.RawMeasurement → Bool := fun e => decide (now - e.1 < retentionPeriod)
  have hyoung : (fun e => decide (now < expires e)) = young :=
    funext fun e => decide_eq_decide.mpr (young_iff now e).symm
  have hmap : (s.rawMeasurementCache.entries.map fun e =>
      (⟨e.1, HashMap.retain young e.2⟩ : Sigma fun _ : String => KitCache)).dlookup kit
      = (s.rawMeasurementCache.lookup kit).map (HashMap.retain young) :=
    List.dlookup_map₂ (f := fun _ => HashMap.retain young) kit
  show ((HashMap.retain _ (List.toAList _)).lookup kit).bind _ = _
  rw [HashMap.lookup_retain, AList.lookup_to_alist, hmap, hyoung]
  show _ = ((s.rawMeasurementCache.lookup kit).bind fun forKit => forKit.lookup pair).filter young
  cases s.rawMeasurementCache.lookup kit with
  | none => rfl
  | some forKit =>
      rw [Option.bind_some, ← HashMap.lookup_retain, Option.map_some, Option.filter_some]
      split
      · rfl
      · rename_i hempty
        have hnil : (HashMap.retain young forKit).entries = [] := by simpa using hempty
        rw [AList.lookup, hnil]
        rfl

/-! ## The invariant -/

/-- The cache is the newest-value view of the log, and the cleaner's times are
behind the clock and do not go back. -/
structure Timed.Newest (t : Timed) : Prop where
  view : NewestView cacheKey expires t.log t.cleaned t.conc.store.entry
  cleaned : ∀ c ∈ t.cleaned, c ≤ t.clock
  reading : ∀ r ∈ t.reading, r ≤ t.clock
  order : ∀ r ∈ t.reading, ∀ c ∈ t.cleaned, c ≤ r

namespace Timed

theorem newest_start : start.Newest where
  view := NewestView.start
  cleaned _ h := nomatch h
  reading _ h := nomatch h
  order _ h := nomatch h

theorem cache_eq_of_advances {e : Env} {others : List Task} {s s' : Shared} {task : Task}
    {next : Option Task} (h : Advances e others s task s' next) (hcache : ∀ m, task ≠ .cache m)
    (hclean : task ≠ .clean) : s'.entry = s.entry := by
  cases h with
  | cache m => exact absurd rfl (hcache m)
  | clean => exact absurd rfl hclean
  | _ => rfl

theorem note_cases {t t' : Timed} {c : Conc Shared Task} {now : Duration} {task : Task}
    (h : t.note c now task = some t') :
    (∃ m, task = .cache m ∧ now = t.clock
        ∧ t' = { t with conc := c, log := t.log ++ [(now, m)] })
      ∨ (task = .clean ∧ t.reading = some now
        ∧ t' = { t with conc := c, reading := none, cleaned := some now })
      ∨ ((∀ m, task ≠ .cache m) ∧ task ≠ .clean ∧ t' = { t with conc := c }) := by
  cases task with
  | cache m =>
      simp only [note] at h
      split at h
      · exact Or.inl ⟨m, rfl, ‹_›, (Option.some.inj h).symm⟩
      · cases h
  | clean =>
      simp only [note] at h
      split at h
      · exact Or.inr (Or.inl ⟨rfl, ‹_›, (Option.some.inj h).symm⟩)
      · cases h
  | subscription _ => exact Or.inr (Or.inr ⟨nofun, nofun, (Option.some.inj h).symm⟩)
  | send _ => exact Or.inr (Or.inr ⟨nofun, nofun, (Option.some.inj h).symm⟩)

/-- A step of a task is one of the program, with what is noted of it. -/
theorem step_run {t t' : Timed} {i : Nat} {e : Env} (h : t.step (.act (.run i e)) = some t') :
    ∃ task s' next, t.conc.tasks[i]? = some task
      ∧ Advances e (t.conc.tasks.eraseIdx i) t.conc.store task s' next
      ∧ t.note ⟨s', Program.replace t.conc.tasks i next⟩ e.now task = some t' := by
  simp only [step] at h
  split at h
  · rename_i task c htask hrun
    obtain ⟨_, hl, -⟩ | ⟨_, _, task', s', next, hl, htask', hadvance, rfl⟩ | ⟨_, _, hl, -⟩ :=
      Program.step_cases hrun
    · cases hl
    · cases hl
      rw [htask] at htask'
      cases htask'
      exact ⟨task, s', next, htask, advances_of_advance hadvance, h⟩
    · cases hl
  · cases h

theorem step_act_store {t t' : Timed} {l : Sched Request Env} (hl : ∀ i e, l ≠ .run i e)
    (h : t.step (.act l) = some t') : ∃ c, c.store = t.conc.store ∧ t' = { t with conc := c } := by
  cases l with
  | run i e => exact absurd rfl (hl i e)
  | spawn r => exact ⟨⟨t.conc.store, t.conc.tasks ++ _⟩, rfl, (Option.some.inj h).symm⟩
  | fault i =>
      simp only [step, Option.map_eq_some_iff] at h
      obtain ⟨c, hc, rfl⟩ := h
      obtain ⟨_, hl, -⟩ | ⟨_, _, _, _, _, hl, -⟩ | ⟨_, _, -, -, -, rfl⟩ := Program.step_cases hc
      · cases hl
      · cases hl
      · exact ⟨⟨t.conc.store, t.conc.tasks.eraseIdx _⟩, rfl, rfl⟩

theorem newest_step {t t' : Timed} {event : Event} (hnewest : t.Newest)
    (h : t.step event = some t') : t'.Newest := by
  obtain ⟨hview, hcleaned, hreading, horder⟩ := hnewest
  cases event with
  | elapse duration =>
      obtain rfl := Option.some.inj h
      exact ⟨hview, fun c hc => Nat.le_add_right_of_le (hcleaned c hc),
        fun r hr => Nat.le_add_right_of_le (hreading r hr), horder⟩
  | readClock =>
      simp only [step] at h
      split at h
      · obtain rfl := Option.some.inj h
        refine ⟨hview, hcleaned, ?_, ?_⟩
        · rintro r ⟨⟩
          exact le_refl _
        · rintro r ⟨⟩ c hc
          exact hcleaned c hc
      · cases h
  | act l =>
      by_cases hl : ∃ i e, l = .run i e
      · obtain ⟨i, e, rfl⟩ := hl
        obtain ⟨task, s', next, -, hadvances, hnote⟩ := step_run h
        obtain ⟨m, rfl, hnow, rfl⟩ | ⟨rfl, hr, rfl⟩ | ⟨hcache, hclean, rfl⟩ := note_cases hnote
        · -- a publication, at the clock's time
          cases hadvances
          exact ⟨hview.put entry_cache, hcleaned, hreading, horder⟩
        · -- a cleaning, with what the cleaner read before
          cases hadvances
          refine ⟨hview.clean (horder e.now hr) entry_clean, ?_, nofun, nofun⟩
          rintro c ⟨⟩
          exact hreading e.now hr
        · refine ⟨?_, hcleaned, hreading, horder⟩
          rw [show s'.entry = t.conc.store.entry from cache_eq_of_advances hadvances hcache hclean]
          exact hview
      · push Not at hl
        obtain ⟨c, hc, rfl⟩ := step_act_store hl h
        refine ⟨?_, hcleaned, hreading, horder⟩
        rw [hc]
        exact hview

theorem newest_exec {events : List Event} {t : Timed} (h : Run.exec step start events = some t) :
    t.Newest :=
  Run.exec_invariant (fun _ _ _ hnewest hstep => newest_step hnewest hstep) newest_start h

end Timed

/-! ## What a subscriber is dumped -/

/-- The measurements of the kit that were published last, each under its
peripheral and quantity type; none is missing that was fresh at the last
cleaning or came after it. -/
structure Timed.Dumps (t : Timed) (kit : String) (sink : List Mqtt.RawMeasurement) : Prop where
  ofKit : ∀ m ∈ sink, m.kitSerial = kit
  once : (sink.map fun m => (m.peripheral, m.quantityType)).Nodup
  last : ∀ m ∈ sink, ∃ time,
    newest cacheKey t.log (kit, m.peripheral, m.quantityType) = some (time, m)
  complete : ∀ pair time m, newest cacheKey t.log (kit, pair) = some (time, m) →
    (∀ r ∈ t.cleaned, r < time + retentionPeriod) → m ∈ sink

/-- What the cache holds for a kit. -/
def Shared.dumped (s : Shared) (kit : String) : List Mqtt.RawMeasurement :=
  ((s.rawMeasurementCache.lookup kit).map fun forKit => forKit.entries.map fun e => e.2.2).getD []

theorem mem_dumped {s : Shared} {kit : String} {m : Mqtt.RawMeasurement} :
    m ∈ s.dumped kit ↔ ∃ pair time, s.entry (kit, pair) = some (time, m) := by
  simp only [Shared.dumped, Shared.entry]
  cases s.rawMeasurementCache.lookup kit with
  | none => simp
  | some forKit =>
      simp only [Option.map_some, Option.getD_some, List.mem_map, Option.bind_some]
      constructor
      · rintro ⟨⟨pair, time, m'⟩, hmem, rfl⟩
        exact ⟨pair, time, AList.mem_lookup_iff.mpr hmem⟩
      · rintro ⟨pair, time, hlookup⟩
        exact ⟨⟨pair, time, m⟩, AList.mem_lookup_iff.mp hlookup, rfl⟩

theorem Timed.Newest.dumps {t : Timed} (hnewest : t.Newest) (kit : String) :
    t.Dumps kit (t.conc.store.dumped kit) where
  ofKit m hm := by
    obtain ⟨pair, time, hentry⟩ := mem_dumped.mp hm
    have hkey := key_of_newest (hnewest.view.sound _ _ hentry)
    exact (Prod.ext_iff.mp hkey).1
  once := by
    -- the entries of a kit are under their own keys, which are distinct
    simp only [Shared.dumped]
    cases hforKit : t.conc.store.rawMeasurementCache.lookup kit with
    | none => exact List.nodup_nil
    | some forKit =>
        rw [Option.map_some, Option.getD_some, List.map_map]
        have hkeys : forKit.entries.map
            ((fun m : Mqtt.RawMeasurement => (m.peripheral, m.quantityType)) ∘ fun e => e.2.2)
            = forKit.entries.map Sigma.fst := by
          refine List.map_congr_left fun e he => ?_
          have hentry : t.conc.store.entry (kit, e.1) = some e.2 := by
            rw [Shared.entry, hforKit]
            exact AList.mem_lookup_iff.mpr he
          have hkey := key_of_newest (hnewest.view.sound _ _ hentry)
          exact (Prod.ext_iff.mp hkey).2
        rw [hkeys]
        exact forKit.nodupKeys
  last m hm := by
    obtain ⟨pair, time, hentry⟩ := mem_dumped.mp hm
    have hnew := hnewest.view.sound _ _ hentry
    have hkey := key_of_newest hnew
    obtain rfl : (m.peripheral, m.quantityType) = pair := (Prod.ext_iff.mp hkey).2
    exact ⟨time, hnew⟩
  complete pair time m hnew hfresh :=
    mem_dumped.mpr ⟨pair, time, hnewest.view.complete _ _ hnew hfresh⟩

theorem Timed.step_dump {t : Timed} {i : Nat} {kit : String}
    (h : t.conc.tasks[i]? = some (.subscription (.dump kit))) (e : Env) :
    t.step (.act (.run i e)) = some { t with
      conc := ⟨t.conc.store,
        t.conc.tasks.set i (.subscription (.lookup kit (t.conc.store.dumped kit)))⟩ } := by
  simp only [step, Program.step, h]
  rfl

theorem Timed.step_clean {t t' : Timed} {i : Nat} {e : Env} (h : t.conc.tasks[i]? = some .clean)
    (hstep : t.step (.act (.run i e)) = some t') :
    t'.cleaned = some e.now ∧ t'.conc.store = t.conc.store.clean e.now := by
  obtain ⟨task, s', next, htask, hadvances, hnote⟩ := step_run hstep
  rw [h] at htask
  cases htask
  cases hadvances
  obtain ⟨m, hm, -⟩ | ⟨-, -, rfl⟩ | ⟨-, hne, -⟩ := note_cases hnote
  · cases hm
  · exact ⟨rfl, rfl⟩
  · exact absurd rfl hne

/-- **The cache is the newest-value view**, in every run under a clock: whenever a
subscriber dumps the cache, and whenever the cache is cleaned of what has expired
by the time that the cleaner read. -/
theorem cache_is_newest_view {events : List Timed.Event} {t : Timed}
    (h : Run.exec Timed.step Timed.start events = some t) :
    (∀ i kit, t.conc.tasks[i]? = some (.subscription (.dump kit)) →
      ∀ e, ∃ t' sink, t.step (.act (.run i e)) = some t'
        ∧ t'.conc.tasks[i]? = some (.subscription (.lookup kit sink)) ∧ t.Dumps kit sink)
    ∧ ∀ i e t', t.conc.tasks[i]? = some .clean → t.step (.act (.run i e)) = some t' →
      t'.cleaned = some e.now ∧ ∀ k added m, t.conc.store.entry k = some (added, m) →
        e.now < added + retentionPeriod → t'.conc.store.entry k = some (added, m) := by
  have hnewest := Timed.newest_exec h
  constructor
  · intro i kit htask e
    have hi : i < t.conc.tasks.length := (List.getElem?_eq_some_iff.mp htask).1
    exact ⟨_, _, Timed.step_dump htask e, List.getElem?_set_self hi, hnewest.dumps kit⟩
  · intro i e t' htask hstep
    obtain ⟨hcleaned, hstore⟩ := Timed.step_clean htask hstep
    refine ⟨hcleaned, fun k added m hentry hfresh => ?_⟩
    rw [hstore, entry_clean, hentry, Option.filter_some, if_pos]
    exact decide_eq_true hfresh

def freshMeasurement : Mqtt.RawMeasurement where
  id := 1
  kitSerial := "k1"
  datetime := 0
  peripheral := 3
  quantityType := 4
  value := .one

/-- The cleaner reads the clock before the publication and cleans after it; then a
subscriber comes. -/
def cleanedRun : List Timed.Event :=
  [.readClock, .elapse 7, .act (.spawn (.publishRawMeasurement freshMeasurement)),
    .act (.run 0 { now := 7 }), .act (.spawn .clean), .act (.run 1 { now := 0 }),
    .act (.spawn (.sub "k1")), .act (.run 1 {})]

theorem cache_is_newest_view_k1 : ∃ t, Run.exec Timed.step Timed.start cleanedRun = some t
    ∧ ∀ e, ∃ t' sink, t.step (.act (.run 1 e)) = some t'
      ∧ t'.conc.tasks[1]? = some (.subscription (.lookup "k1" sink)) ∧ t.Dumps "k1" sink :=
  have hrun : Run.exec Timed.step Timed.start cleanedRun = some _ := rfl
  ⟨_, hrun, (cache_is_newest_view hrun).1 1 "k1" rfl⟩

end Websocket

end AstroPlant
