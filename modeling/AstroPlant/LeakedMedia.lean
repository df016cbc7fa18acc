import AstroPlant.Attribution
import AstroPlant.Deletions

/-!
# Media are queued before they go

A media row that was committed at some time is still in the table, or its id,
time and size are in the queue of media to delete. This is not so in every run:
the statement that queues and the statement that deletes select their rows
separately, and a row that is uploaded between the two is deleted without having
been queued (`uploaded_between_statements`). It is so in every run in which each
deletion finds only rows that its transaction has queued (`media_queued`); the
foreign keys and the cascade lose nothing.

A transaction sees the database through what it has done (`Deletion.seen`), so
what has to be shown of a commit is that each row which is gone from the table
has been put into the queue by the same transaction (`Deletion.Covers`). That is
so when the rows that the transaction deletes are those that it has queued, which
a run meets if each of its deleting statements does (`Timely`). Other
transactions do not notice a commit (`sound_of_media`), since each deletes by its
own list of ids or owners.
-/

namespace AstroPlant

/-- What the queue keeps of a media row. -/
def Media.entry (m : Media) : Uuid × Timestamp × Int := (m.id, m.datetime, m.size)

def QueueMediaPendingDeletion.entry (q : QueueMediaPendingDeletion) : Uuid × Timestamp × Int :=
  (q.mediaId, q.mediaDatetime, q.mediaSize)

/-- The row is in the table or in the queue. -/
def Media.Kept (m : Media) (s : Store) : Prop :=
  m ∈ s.media ∨ ∃ q ∈ s.queueMediaPendingDeletion, q.entry = m.entry

/-- If this step is the statement that deletes media, each row that it finds was
queued by its transaction. -/
def MediaTask.timely (s : Store) : MediaTask → Bool
  | .deletion ⟨target, _, .delete queued⟩ =>
      (s.media.select target.filter).all fun m => (queued.map Media.entry).contains m.entry
  | _ => true

def Timely : Conc Services MediaTask → Sched MediaRequest ServiceEnv → Prop :=
  Program.Ok (fun _ _ _ => True) fun _ t _ s => t.timely s.store = true

/-! ## Requests before their transaction -/

def Task.deletes : Task → Bool
  | .start (.deleteKit _ _) | .start (.onConfiguration _ _ .delete) | .start (.deleteMedia _ _)
  | .authorizeConfiguration _ _ _ .delete | .authorizeMedia _ _ _
  | .deleteKit _ | .onConfiguration _ _ .delete | .deleteMedia _ => true
  | _ => false

theorem deletes_step {x : Crates} {e : Env} {task : Task} {ts : List Task} {s s' : Store}
    {k : Option Task} (ht : task.deletes = true) (hn : Target.ofTask task = none)
    (h : (api x).advance e task ts s = some (s', k)) :
    s' = s ∧ ∀ t' ∈ k, t'.deletes = true := by
  have hnext : ∀ (s : Store) {task : Task}, task.deletes = true →
      s = s ∧ ∀ t' ∈ some task, t'.deletes = true := by
    intro s task hdeletes
    refine ⟨rfl, fun t' ht' => ?_⟩
    rw [← Option.some.inj ht']
    exact hdeletes
  rcases api_advance h with ⟨rfl, rfl⟩ | ⟨n, hr, rfl⟩
  · exact ⟨rfl, fun _ ht' => by cases ht'⟩
  · unfold Task.deletes at ht
    split at ht
    · rw [Task.tx, Request.tx] at hr
      obtain ⟨kit, task, -, -, hpure, rfl⟩ := permitted_ok hr
      obtain ⟨rfl, rfl⟩ := Tx.run_pure_ok.mp hpure
      exact hnext _ rfl
    · obtain ⟨m, s₁, task, h₁, hr, rfl⟩ := andThen_ok hr
      obtain ⟨rfl, -⟩ := getModelsFromKitConfigurationId_ok h₁
      obtain ⟨rfl, rfl⟩ := Tx.run_pure_ok.mp hr
      exact hnext _ rfl
    · obtain ⟨kit, s₁, task, h₁, hr, rfl⟩ := andThen_ok hr
      obtain ⟨-, rfl⟩ := Tx.run_read_ok.mp h₁
      obtain ⟨kit', -, hr⟩ := Tx.run_ofOption_bind_ok.mp hr
      obtain ⟨rfl, rfl⟩ := Tx.run_pure_ok.mp hr
      exact hnext _ rfl
    · obtain ⟨m, s₁, task, h₁, hr, rfl⟩ := andThen_ok hr
      obtain ⟨rfl, -⟩ := authorize_ok h₁
      obtain ⟨rfl, rfl⟩ := Tx.run_pure_ok.mp hr
      exact hnext _ rfl
    · obtain ⟨m, s₁, task, h₁, hr, rfl⟩ := andThen_ok hr
      obtain ⟨rfl, -⟩ := authorize_ok h₁
      obtain ⟨rfl, rfl⟩ := Tx.run_pure_ok.mp hr
      exact hnext _ rfl
    · cases hn
    · cases hn
    · cases hn
    · cases ht

/-! ## What a step keeps -/

/-- Of a row that a transaction has deleted, the entry is among those it has
queued. -/
def Deletion.Covers (d : Deletion) (s : Store) : Prop :=
  ∀ m ∈ s.media, d.deletesMedia m.id = true → m.entry ∈ d.stage.queued.map Media.entry

theorem Deletion.mem_media_seen {d : Deletion} {s : Store} {m : Media} :
    m ∈ (d.seen s).media ↔ m ∈ s.media ∧ d.deletesMedia m.id = false := by
  obtain ⟨target, now, stage⟩ := d
  cases stage with
  | insert | queue _ | delete _ => exact (and_iff_left rfl).symm
  | owner queued deleted => exact Table.mem_delete
  | commit queued deleted doomed => cases doomed <;> exact Table.mem_delete

theorem Deletion.queue_seen (d : Deletion) (s : Store) :
    (d.seen s).queueMediaPendingDeletion
      = (QueueMediaPendingDeletion.insertAll d.now d.stage.queued s).queueMediaPendingDeletion := by
  obtain ⟨target, now, stage⟩ := d
  cases stage with
  | insert | queue _ | delete _ | owner _ _ => rfl
  | commit queued deleted doomed => cases doomed <;> rfl

/-- A commit leaves every row in the table or in the queue. -/
theorem Media.Kept.commit {m : Media} {s : Store} {d : Deletion}
    (hd : d.Covers s) (h : m.Kept s) : m.Kept (d.seen s) := by
  rcases h with hm | ⟨q, hq, hentry⟩
  · by_cases hdel : d.deletesMedia m.id = true
    · -- the row goes, and an equal entry was queued
      obtain ⟨r, hr, hentry⟩ := List.mem_map.mp (hd m hm hdel)
      obtain ⟨id, hmem⟩ : ∃ id, QueueMediaPendingDeletion.row d.now r id
          ∈ (d.seen s).queueMediaPendingDeletion := by
        rw [d.queue_seen]
        exact SerialTable.exists_mem_insertAll hr
      exact Or.inr ⟨_, hmem, hentry⟩
    · exact Or.inl (Deletion.mem_media_seen.mpr ⟨hm, by simpa using hdel⟩)
  · refine Or.inr ⟨q, ?_, hentry⟩
    rw [d.queue_seen]
    exact SerialTable.mem_insertAll_of_mem hq

theorem Deletion.advance_cases {d : Deletion} {others : List Deletion} {s s' : Store}
    {next : Option Deletion} (h : d.advance others s = some (s', next)) :
    (s' = s ∧ next = none)
      ∨ (s' = s ∧ ∃ d', next = some d' ∧ d'.stage.deleted = [])
      ∨ (s' = s ∧ ∃ queued, d.stage = .delete queued ∧ ∃ d', next = some d'
        ∧ d'.stage.queued = queued ∧ d'.stage.deleted = s.media.select d.target.filter)
      ∨ (s' = s ∧ ∃ d', next = some d' ∧ d'.stage.queued = d.stage.queued
        ∧ d'.stage.deleted = d.stage.deleted)
      ∨ (s' = d.seen s ∧ next = none) := by
  obtain ⟨target, now, stage⟩ := d
  cases stage with
  | insert =>
      cases h
      exact Or.inr (Or.inl ⟨rfl, _, rfl, rfl⟩)
  | queue selected =>
      simp only [advance] at h
      split at h
      · cases h
      · split at h <;> cases h
        · exact Or.inl ⟨rfl, rfl⟩
        · exact Or.inr (Or.inl ⟨rfl, _, rfl, rfl⟩)
  | delete queued =>
      refine Or.inr (Or.inr (Or.inl ?_))
      simp only [advance] at h
      split at h
      · cases h
      · split at h <;> cases h <;> exact ⟨rfl, queued, rfl, _, rfl, rfl, rfl⟩
  | owner queued deleted =>
      simp only [advance] at h
      split at h
      · cases h
      · split at h <;> cases h
        · exact Or.inl ⟨rfl, rfl⟩
        · exact Or.inr (Or.inr (Or.inr (Or.inl ⟨rfl, _, rfl, rfl, rfl⟩)))
  | commit queued deleted doomed =>
      cases h
      exact Or.inr (Or.inr (Or.inr (Or.inr ⟨rfl, rfl⟩)))

/-! ## Runs -/

/-- What is known of each task. -/
def MediaTask.Sound (s : Services) : MediaTask → Prop
  | .upload _ => True
  | .request task => task.deletes = true
  | .deletion d => d.Covers s.store

theorem sound_of_media {s s' : Services} (h : ∀ m ∈ s'.store.media, m ∈ s.store.media)
    {t : MediaTask} (ht : t.Sound s) : t.Sound s' := by
  cases t with
  | upload u => trivial
  | request task => exact ht
  | deletion d => exact fun m hm hdel => ht m (h m hm) hdel

/-- An upload that need not wait for a transaction has another id than the media
that it deletes. -/
theorem sound_of_upload {s s' : Services} {media : Mqtt.Media} {peripheral : Peripheral}
    {table : Table Media Media.id} {ts : List MediaTask}
    (hwaits : (Upload.insert media peripheral).waits (ts.filterMap MediaTask.deletion?) s.store
      = false)
    (hins : s.store.media.insert? (newMedia media peripheral).row = some table)
    (hs' : s'.store = { s.store with media := table }) {t : MediaTask} (hmem : t ∈ ts)
    (ht : t.Sound s) : t.Sound s' := by
  cases t with
  | upload u => trivial
  | request task => exact ht
  | deletion d =>
      intro m hm hdel
      rw [hs'] at hm
      rcases (Table.mem_insert? hins).mp hm with hm | rfl
      · exact ht m hm hdel
      · have hd : d ∈ ts.filterMap MediaTask.deletion? := List.mem_filterMap.mpr ⟨_, hmem, rfl⟩
        simp only [Upload.waits, List.any_eq_false, Bool.or_eq_true, not_or] at hwaits
        exact absurd hdel (hwaits d hd).1

/-- The rows that a timely deletion finds are covered by what it has queued. -/
theorem covers_of_timely {d d' : Deletion} {s : Store} {queued : List Media}
    (hstage : d.stage = .delete queued)
    (hok : (MediaTask.deletion d).timely s = true) (hqueued : d'.stage.queued = queued)
    (hdeleted : d'.stage.deleted = s.media.select d.target.filter) : d'.Covers s := by
  obtain ⟨target, now, stage⟩ := d
  obtain rfl : stage = .delete queued := hstage
  intro m hm hdel
  rw [Deletion.deletesMedia, hdeleted] at hdel
  obtain ⟨r, hr, hid⟩ := List.any_eq_true.mp hdel
  have hrm : r = m := Table.eq_of_key_eq (Table.mem_select.mp hr).1 hm (of_decide_eq_true hid)
  rw [hqueued, ← hrm]
  exact List.contains_iff_mem.mp (List.all_eq_true.mp hok r hr)

theorem kept_advance {x : Crates} {e : ServiceEnv} {t : MediaTask} {ts : List MediaTask}
    {s s' : Services} {k : Option MediaTask} (hok : t.timely s.store = true) (ht : t.Sound s)
    (hts : ∀ u ∈ ts, u.Sound s) (h : (statements x).advance e t ts s = some (s', k)) :
    (∀ m : Media, m.Kept s.store → m.Kept s'.store)
      ∧ (∀ t' ∈ k, t'.Sound s') ∧ ∀ u ∈ ts, u.Sound s' := by
  cases t with
  | upload u =>
      obtain ⟨hwaits, next, hadv, rfl⟩ := statements_upload h
      have hself : ∀ t' ∈ next.map MediaTask.upload, t'.Sound s' := by
        intro t' ht'
        obtain ⟨u', -, rfl⟩ := Option.map_eq_some_iff.mp ht'
        trivial
      rcases Upload.store_cases hadv with hs' | ⟨media, peripheral, table, rfl, hins, hs'⟩
      · have hsub : ∀ m' ∈ s'.store.media, m' ∈ s.store.media := by
          intro m' hm'
          rwa [hs'] at hm'
        refine ⟨fun m hm => ?_, hself, fun v hv => sound_of_media hsub (hts v hv)⟩
        rwa [hs']
      · refine ⟨fun m hm => ?_, hself, fun v hv => ?_⟩
        · rw [hs']
          exact hm.imp_left fun hmem => (Table.mem_insert? hins).mpr (Or.inl hmem)
        · exact sound_of_upload hwaits hins hs' hv (hts v hv)
  | request task =>
      rcases statements_request h with ⟨target, -, rfl, rfl⟩ | ⟨hnone, store, next, hadv, rfl, rfl⟩
      · refine ⟨fun _ hm => hm, fun t' ht' => ?_, hts⟩
        obtain rfl := Option.some.inj ht'
        exact fun _ _ hdel => by cases hdel
      · obtain ⟨rfl, hnext⟩ := deletes_step ht hnone hadv
        refine ⟨fun _ hm => hm, fun t' ht' => ?_, hts⟩
        obtain ⟨task', htask', rfl⟩ := Option.map_eq_some_iff.mp ht'
        exact hnext task' htask'
  | deletion d =>
      obtain ⟨store, next, hadv, rfl, rfl⟩ := statements_deletion h
      rcases Deletion.advance_cases hadv with ⟨rfl, rfl⟩ | ⟨rfl, d', rfl, hdeleted⟩
        | ⟨rfl, queued, hstage, d', rfl, hqueued, hdeleted⟩ | ⟨rfl, d', rfl, hqueued, hdeleted⟩
        | ⟨rfl, rfl⟩
      · exact ⟨fun _ hm => hm, fun t' ht' => (by cases ht'), hts⟩
      · refine ⟨fun _ hm => hm, fun t' ht' => ?_, hts⟩
        obtain rfl := Option.some.inj ht'
        intro m hm hdel
        rw [Deletion.deletesMedia, hdeleted] at hdel
        cases hdel
      · refine ⟨fun _ hm => hm, fun t' ht' => ?_, hts⟩
        obtain rfl := Option.some.inj ht'
        exact covers_of_timely hstage hok hqueued hdeleted
      · refine ⟨fun _ hm => hm, fun t' ht' => ?_, hts⟩
        obtain rfl := Option.some.inj ht'
        intro m' hm' hdel
        rw [Deletion.deletesMedia, hdeleted] at hdel
        rw [hqueued]
        exact ht m' hm' hdel
      · exact ⟨fun m hm => hm.commit ht, fun t' ht' => (by cases ht'), fun u hu =>
          sound_of_media (fun m' hm' => (Deletion.mem_media_seen.mp hm').1) (hts u hu)⟩

/-- **No leaked media.** In a run of uploads and deletions whose deletions are
timely, every media row that is committed at some time is in the table or in the
queue at every later time. -/
theorem media_queued {x : Crates} {s₀ : Store} {ls ls' : List (Sched MediaRequest ServiceEnv)}
    {c c' : Conc Services MediaTask}
    (hrun : Run.exec (statements x).step ⟨.start s₀, []⟩ ls = some c)
    (hrun' : Run.exec (statements x).step c ls' = some c')
    (hok : Run.Guarded (statements x).step Timely ⟨.start s₀, []⟩ (ls ++ ls')) :
    ∀ m ∈ c.store.store.media, m.Kept c'.store.store := by
  intro m hm
  have hspawn : ∀ r (s : Services), ((statements x).entry r).Sound s := by
    intro r s
    cases r with
    | upload media => trivial
    | deleteKit _ _ | deleteConfiguration _ _ | deleteMedia _ _ => rfl
  obtain ⟨hok, hok'⟩ := (Run.guarded_append hrun).mp hok
  have hsound : Program.Holds (fun _ => True) (fun s t => MediaTask.Sound s t) c :=
    Program.holds_exec_guarded (statements x) (fun r _ s _ _ => hspawn r s)
      (fun _ _ _ _ _ _ hok _ ht hts h => ⟨trivial, (kept_advance hok ht hts h).2⟩)
      ⟨trivial, fun t ht => by cases ht⟩ hok hrun
  exact (Program.holds_exec_guarded (statements x) (I := fun s => m.Kept s.store)
    (fun r _ s _ _ => hspawn r s)
    (fun _ _ _ _ _ _ hok hI ht hts h =>
      ⟨(kept_advance hok ht hts h).1 m hI, (kept_advance hok ht hts h).2⟩)
    ⟨Or.inl hm, hsound.2⟩ hok' hrun').1

/-! ## Two runs -/

/-- The first kit has a super member. -/
def administeredKit : Store :=
  { twoKits with
    users := SerialTable.empty.insert
      (fun id => ⟨id, "ada", "Ada", "", "ada@localhost", true, "", 0, 0⟩) fun _ => rfl
    kitMemberships := SerialTable.empty.insert
      (fun id => ⟨id, 1, 1, 0, true, true⟩) fun _ => rfl }

def uploadLeaf : Sched MediaRequest ServiceEnv :=
  .spawn (.upload ⟨7, "k1", 0, 1, "leaf", "image/png", [0], .null⟩)

def deleteFirstKit : Sched MediaRequest ServiceEnv := .spawn (.deleteKit (some 1) "k1")

/-- The picture is stored, and then the kit is deleted. -/
def uploadedBefore : List (Sched MediaRequest ServiceEnv) :=
  [deleteFirstKit, .run 0 {}, uploadLeaf, .run 1 {}, .run 1 {}, .run 1 {}]

/-- The picture is stored when the deletion of the kit has queued its media. -/
def uploadedBetween : List (Sched MediaRequest ServiceEnv) :=
  [deleteFirstKit, .run 0 {}, .run 0 {}, .run 0 {}, .run 0 {}, uploadLeaf, .run 1 {}, .run 1 {},
    .run 1 {}]

theorem media_queued_uploadedBefore :
    ∃ c c', Run.exec (statements plainCrates).step ⟨.start administeredKit, []⟩ uploadedBefore
        = some c
      ∧ Run.exec (statements plainCrates).step c (List.replicate 6 (.run 0 {})) = some c'
      ∧ c.store.store.media.rows.map (·.id) = [7]
      ∧ c'.store.store.kits.rows.map (·.serial) = ["k2"]
      ∧ ∀ m ∈ c.store.store.media, m.Kept c'.store.store := by
  have hrun : ∃ c c',
      Run.exec (statements plainCrates).step ⟨.start administeredKit, []⟩ uploadedBefore = some c
      ∧ Run.exec (statements plainCrates).step c (List.replicate 6 (.run 0 {})) = some c'
      ∧ c.store.store.media.rows.map (·.id) = [7]
      ∧ c'.store.store.kits.rows.map (·.serial) = ["k2"]
      ∧ Run.Guarded (statements plainCrates).step
          (Program.Ok (fun _ _ _ => True) fun _ t _ s => t.timely s.store = true)
          ⟨.start administeredKit, []⟩ (uploadedBefore ++ List.replicate 6 (.run 0 {})) :=
    ⟨_, _, rfl, rfl, rfl, rfl, by decide⟩
  obtain ⟨c, c', h, h', hmedia, hkits, hok⟩ := hrun
  exact ⟨c, c', h, h', hmedia, hkits, media_queued h h' hok⟩

/-- The picture is neither in the table nor in the queue when the deletion has
committed. -/
theorem uploaded_between_statements :
    ∃ c c', Run.exec (statements plainCrates).step ⟨.start administeredKit, []⟩ uploadedBetween
        = some c
      ∧ Run.exec (statements plainCrates).step c (List.replicate 3 (.run 0 {})) = some c'
      ∧ c.store.store.media.rows.map (·.id) = [7]
      ∧ c'.tasks = [] ∧ c'.store.store.media.rows = []
      ∧ c'.store.store.queueMediaPendingDeletion.rows = []
      ∧ ¬∀ m ∈ c.store.store.media, m.Kept c'.store.store := by
  refine ⟨_, _, rfl, rfl, rfl, rfl, rfl, rfl, fun h => ?_⟩
  rcases h _ (List.mem_singleton.mpr rfl) with hm | ⟨q, hq, -⟩
  · cases hm
  · cases hq

end AstroPlant
