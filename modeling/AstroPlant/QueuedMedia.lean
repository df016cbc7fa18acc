import AstroPlant.LeakedMedia

/-!
# Live and queued media

An id should be in the media table or in the queue of media to delete, but not
in both: a deletion could not queue it a second time, as `media_id` is unique.
An upload checks only the first table, so an id that has been deleted can come
back. Nor do two deletions of the same media fit together: the later one has
selected a row that the earlier one queues.

Exactly these two things, and an id that comes back while it is being deleted,
break it (`disjoint_iff_fresh`).

A deletion that has selected a row which is queued already will fail
(`Deletion.Conflicts`), so the state property says both: no id is in both tables,
and no open deletion conflicts. The steps that can break it are few. An insertion
adds an id; a commit adds to the queue and leaves rows behind; a selection only
takes rows of the table. `MediaTask.Fresh` is the condition for each, on the
state before the step, and `disjointMedia_step` the equivalence for one step.
-/

namespace AstroPlant

def Store.queuesId (s : Store) (id : Uuid) : Bool :=
  s.queueMediaPendingDeletion.rows.any (·.mediaId = id)

theorem Store.queuesId_eq_false {s : Store} {id : Uuid} :
    s.queuesId id = false ↔ ∀ q ∈ s.queueMediaPendingDeletion, q.mediaId ≠ id := by
  simp only [queuesId, List.any_eq_false, decide_eq_true_eq]
  rfl

/-- The row can be inserted. -/
def NewMedia.Insertable (new : NewMedia) (s : Store) : Prop :=
  0 ≤ new.size ∧ s.media.find? new.id = none ∧ new.references s = true

theorem NewMedia.insertable_of_ok {new : NewMedia} {s s' : Store} {m : Media}
    (h : new.create.run s = .ok (m, s')) : new.Insertable s := by
  obtain ⟨hsize, -, href, media, hins, -⟩ := create_ok h
  refine ⟨hsize, Table.find?_eq_none.mpr fun m' hm' hid => ?_, href⟩
  rw [Table.insert?_eq_none.mpr ⟨m', hm', hid⟩] at hins
  cases hins

theorem NewMedia.not_insertable_of_error {new : NewMedia} {s : Store} {e : DieselError}
    (h : new.create.run s = .error e) : ¬ new.Insertable s := by
  rintro ⟨hsize, hfree, href⟩
  rcases create_error h with hneg | htaken | hnone
  · omega
  · rw [hfree] at htaken
    cases htaken
  · rw [href] at hnone
    cases hnone

/-- The rows that a statement under way is about to queue. -/
def Deletion.selected (d : Deletion) : List Media :=
  match d.stage with
  | .queue selected => selected
  | _ => []

/-! ## The property -/

/-- No id is in both tables. -/
def Store.Disjoint (s : Store) : Prop := ∀ m ∈ s.media, s.queuesId m.id = false

/-- The insertion into the queue will fail. -/
def Deletion.Conflicts (s : Store) (d : Deletion) : Prop :=
  ∃ m ∈ d.selected, s.queuesId m.id = true

/-- No id is in both tables, and no deletion fails for it. -/
def DisjointMedia (c : Conc Services MediaTask) : Prop :=
  c.store.store.Disjoint ∧ ∀ t ∈ c.tasks, ∀ d ∈ t.deletion?, ¬ d.Conflicts c.store.store

/-- A deletion fails at its insertion into the queue exactly when it conflicts. -/
theorem Deletion.conflicts_iff {d : Deletion} {s : Store} {selected : List Media}
    (hd : d.stage = .queue selected) :
    d.Conflicts s ↔ d.advance [] s = some (s, none) := by
  have hadvance : d.advance [] s = if selected.any fun m => s.queuesId m.id then some (s, none)
      else some (s, some { d with stage := .delete selected }) := by
    simp [advance, hd, Store.queuesId]
  rw [hadvance, Conflicts, Deletion.selected, hd, ← List.any_eq_true]
  split <;> simp_all

/-- An upload inserts no id that is queued. A deletion commits when no other one
has selected a row that it has queued, and leaves no row with an id that it has
queued. -/
def MediaTask.Fresh (s : Store) (ts : List MediaTask) : MediaTask → Prop
  | .upload (.insert media peripheral) =>
      (newMedia media peripheral).Insertable s → s.queuesId media.id = false
  | .deletion d =>
      ∀ queued deleted doomed, d.stage = .commit queued deleted doomed → ∀ m ∈ queued,
        (∀ t ∈ ts, ∀ d' ∈ t.deletion?, ∀ m' ∈ d'.selected, m'.id ≠ m.id)
          ∧ ∀ m' ∈ s.media, m'.id = m.id → d.deletesMedia m'.id = true
  | _ => True

def FreshSteps : Conc Services MediaTask → Sched MediaRequest ServiceEnv → Prop :=
  Program.Ok (fun _ _ _ => True) fun _ t ts s => t.Fresh s.store ts

/-! ## Requests -/

/-- The requests among the tasks are deletions before their transaction. -/
def MediaTask.Deletes : MediaTask → Prop
  | .request task => task.deletes = true
  | _ => True

theorem deletes_entry (x : Crates) (r : MediaRequest) : ((statements x).entry r).Deletes := by
  cases r with
  | upload media => trivial
  | deleteKit _ _ | deleteConfiguration _ _ | deleteMedia _ _ => rfl

/-- Where a request is not yet at its transaction, it only reads. -/
theorem request_step {x : Crates} {e : ServiceEnv} {task : Task} {ts : List MediaTask}
    {s s' : Services} {k : Option MediaTask} (ht : task.deletes = true)
    (h : (statements x).advance e (.request task) ts s = some (s', k)) :
    s' = s ∧ ∀ t' ∈ k, (∃ task', t' = .request task' ∧ task'.deletes = true)
      ∨ ∃ target, t' = .deletion ⟨target, e.now, .insert⟩ := by
  rcases statements_request h with ⟨target, -, rfl, rfl⟩ | ⟨hnone, store, next, hadv, rfl, rfl⟩
  · refine ⟨rfl, fun t' ht' => Or.inr ?_⟩
    exact ⟨_, (Option.some.inj ht').symm⟩
  · obtain ⟨rfl, hnext⟩ := deletes_step ht hnone hadv
    refine ⟨rfl, fun t' ht' => Or.inl ?_⟩
    obtain ⟨task', htask', rfl⟩ := Option.map_eq_some_iff.mp ht'
    exact ⟨task', rfl, hnext task' htask'⟩

theorem deletes_step_statements {x : Crates} {c c' : Conc Services MediaTask}
    {l : Sched MediaRequest ServiceEnv} (hc : ∀ t ∈ c.tasks, t.Deletes)
    (h : (statements x).step c l = some c') : ∀ t ∈ c'.tasks, t.Deletes := by
  refine (Program.holds_step (statements x) (I := fun _ => True) (T := fun _ t => t.Deletes)
    (fun r _ _ _ _ => deletes_entry x r) (fun e t ts s s' k _ _ ht hts hadv => ?_)
    ⟨trivial, hc⟩ (Program.ok_true c l) h).2
  refine ⟨trivial, fun t' ht' => ?_, hts⟩
  cases t with
  | upload u =>
      obtain ⟨-, next, -, rfl⟩ := statements_upload hadv
      obtain ⟨u', -, rfl⟩ := Option.map_eq_some_iff.mp ht'
      trivial
  | request task =>
      rcases (request_step ht hadv).2 t' ht' with ⟨task', rfl, hdeletes⟩ | ⟨target, rfl⟩
      · exact hdeletes
      · trivial
  | deletion d =>
      obtain ⟨store, next, -, -, rfl⟩ := statements_deletion hadv
      obtain ⟨d', -, rfl⟩ := Option.map_eq_some_iff.mp ht'
      trivial

/-! ## Steps -/

theorem Deletion.queuesId_seen {d : Deletion} {s : Store} {id : Uuid} :
    (d.seen s).queuesId id = false
      ↔ s.queuesId id = false ∧ ∀ m ∈ d.stage.queued, m.id ≠ id := by
  simp only [Store.queuesId_eq_false, d.queue_seen]
  constructor
  · intro h
    refine ⟨fun q hq => h q (SerialTable.mem_insertAll_of_mem hq), fun m hm => ?_⟩
    have hqueued : ∃ i, QueueMediaPendingDeletion.row d.now m i
        ∈ s.queueMediaPendingDeletion.insertAll d.stage.queued
          (QueueMediaPendingDeletion.row d.now) (QueueMediaPendingDeletion.row_id d.now) :=
      SerialTable.exists_mem_insertAll hm
    obtain ⟨i, hmem⟩ := hqueued
    exact h _ hmem
  · rintro ⟨hold, hnew⟩ q hq
    rcases SerialTable.mem_insertAll hq with hq | ⟨m, hm, i, -, rfl⟩
    · exact hold q hq
    · exact hnew m hm

/-- A commit keeps the tables disjoint if the media that were queued go. -/
theorem Deletion.disjoint_seen {d : Deletion} {s : Store} (hs : s.Disjoint) :
    (d.seen s).Disjoint ↔ ∀ m ∈ d.stage.queued, ∀ m' ∈ s.media, m'.id = m.id →
      d.deletesMedia m'.id = true := by
  constructor
  · intro h m hm m' hm' hid
    by_contra hdel
    have hseen := Deletion.mem_media_seen.mpr ⟨hm', Bool.eq_false_iff.mpr hdel⟩
    exact (queuesId_seen.mp (h m' hseen)).2 m hm hid.symm
  · intro h m' hm'
    obtain ⟨hmem, hdel⟩ := Deletion.mem_media_seen.mp hm'
    refine queuesId_seen.mpr ⟨hs m' hmem, fun m hm hid => ?_⟩
    rw [h m hm m' hmem hid.symm] at hdel
    cases hdel

theorem Deletion.conflicts_seen {d d' : Deletion} {s : Store} (hs : ¬ d'.Conflicts s) :
    ¬ d'.Conflicts (d.seen s) ↔ ∀ m ∈ d.stage.queued, ∀ m' ∈ d'.selected, m'.id ≠ m.id := by
  simp only [Conflicts, not_exists, not_and, Bool.not_eq_true, queuesId_seen] at hs ⊢
  constructor
  · intro h m hm m' hm' hid
    exact (h m' hm').2 m hm hid.symm
  · intro h m' hm'
    exact ⟨hs m' hm', fun m hm hid => h m hm m' hm' hid.symm⟩

theorem not_conflicts_of_selected {d : Deletion} {s : Store} (h : d.selected = []) :
    ¬ d.Conflicts s := by
  rintro ⟨m, hm, -⟩
  rw [h] at hm
  cases hm

/-- Everything one statement of a transaction can do to the two tables. -/
theorem Deletion.advance_media {d : Deletion} {others : List Deletion} {s s' : Store}
    {next : Option Deletion} (h : d.advance others s = some (s', next)) :
    (s' = s ∧ (∀ queued deleted doomed, d.stage ≠ .commit queued deleted doomed)
        ∧ ∀ d' ∈ next, d'.selected ⊆ s.media.rows)
      ∨ ∃ queued deleted doomed, d.stage = .commit queued deleted doomed
        ∧ s' = d.seen s ∧ next = none := by
  have hnil : ∀ xs : List Media, [] ⊆ xs := List.nil_subset
  obtain ⟨target, now, stage⟩ := d
  cases stage with
  | commit queued deleted doomed =>
      cases h
      exact Or.inr ⟨queued, deleted, doomed, rfl, rfl, rfl⟩
  | insert =>
      cases h
      refine Or.inl ⟨rfl, fun _ _ _ h => (by cases h), fun d' hd' => ?_⟩
      obtain rfl := Option.some.inj hd'
      exact fun m hm => (Table.mem_select.mp hm).1
  | queue selected =>
      simp only [advance] at h
      split at h
      · cases h
      · split at h <;> cases h <;>
          refine Or.inl ⟨rfl, fun _ _ _ h => (by cases h), fun d' hd' => ?_⟩
        · cases hd'
        · obtain rfl := Option.some.inj hd'
          exact hnil _
  | delete queued =>
      simp only [advance] at h
      split at h
      · cases h
      · split at h <;> cases h <;>
          refine Or.inl ⟨rfl, fun _ _ _ h => (by cases h), fun d' hd' => ?_⟩ <;>
          obtain rfl := Option.some.inj hd' <;> exact hnil _
  | owner queued deleted =>
      simp only [advance] at h
      split at h
      · cases h
      · split at h <;> cases h <;>
          refine Or.inl ⟨rfl, fun _ _ _ h => (by cases h), fun d' hd' => ?_⟩
        · cases hd'
        · obtain rfl := Option.some.inj hd'
          exact hnil _

/-- An upload puts an id into both tables exactly when it inserts a queued one. -/
theorem disjoint_upload {x : Crates} {e : ServiceEnv} {u : Upload} {ts : List MediaTask}
    {s s' : Services} {k : Option MediaTask} (hs : s.store.Disjoint)
    (h : (statements x).advance e (.upload u) ts s = some (s', k)) :
    s'.store.queueMediaPendingDeletion = s.store.queueMediaPendingDeletion
      ∧ (∀ t ∈ k, t.deletion? = none)
      ∧ (s'.store.Disjoint ↔ (MediaTask.upload u).Fresh s.store ts) := by
  obtain ⟨-, next, hadv, rfl⟩ := statements_upload h
  have hk : ∀ t ∈ next.map MediaTask.upload, t.deletion? = none := by
    intro t ht
    obtain ⟨_, -, rfl⟩ := Option.map_eq_some_iff.mp ht
    rfl
  cases Upload.advances_of_advance hadv with
  | oversized | looksUp | puts | putFails => exact ⟨rfl, hk, iff_of_true hs trivial⟩
  | inserts hrun =>
      have hinsertable := NewMedia.insertable_of_ok hrun
      obtain ⟨-, -, -, table, hins, rfl⟩ := NewMedia.create_ok hrun
      refine ⟨rfl, hk, fun hdisjoint _ => hdisjoint _ ((Table.mem_insert? hins).mpr (Or.inr rfl)),
        fun hfresh m hm => ?_⟩
      rcases (Table.mem_insert? hins).mp hm with hm | rfl
      · exact hs m hm
      · exact hfresh hinsertable
  | insertFails hrun =>
      exact ⟨rfl, hk, iff_of_true hs fun hinsertable =>
        absurd hinsertable (NewMedia.not_insertable_of_error hrun)⟩

theorem Deletion.conflicts_congr {d : Deletion} {s s' : Store}
    (h : s'.queueMediaPendingDeletion = s.queueMediaPendingDeletion) :
    d.Conflicts s' ↔ d.Conflicts s := by
  simp only [Conflicts, Store.queuesId, h]

theorem Deletion.fresh_of_commit {d : Deletion} {s : Store} {ts : List MediaTask}
    {queued deleted : List Media} {doomed : Option Store.Doomed}
    (hd : d.stage = .commit queued deleted doomed) :
    (MediaTask.deletion d).Fresh s ts ↔ ∀ m ∈ queued,
      (∀ t ∈ ts, ∀ d' ∈ t.deletion?, ∀ m' ∈ d'.selected, m'.id ≠ m.id)
        ∧ ∀ m' ∈ s.media, m'.id = m.id → d.deletesMedia m'.id = true := by
  constructor
  · exact fun h => h queued deleted doomed hd
  · intro h queued' deleted' doomed' hd'
    rw [hd] at hd'
    cases hd'
    exact h

/-- **One step keeps live and queued media disjoint exactly when it is fresh.** -/
theorem disjointMedia_step {x : Crates} {c c' : Conc Services MediaTask}
    {l : Sched MediaRequest ServiceEnv} (hc : ∀ t ∈ c.tasks, t.Deletes) (hm : DisjointMedia c)
    (h : (statements x).step c l = some c') : DisjointMedia c' ↔ FreshSteps c l := by
  obtain ⟨hs, hd⟩ := hm
  rcases Program.step_cases h with ⟨r, rfl, rfl⟩ | ⟨i, e, t, s', k, rfl, ht, hadv, rfl⟩
    | ⟨i, t, rfl, ht, -, rfl⟩
  · refine iff_of_true ⟨hs, fun t hmem d hd' => ?_⟩ trivial
    rcases List.mem_append.mp hmem with hmem | hmem
    · exact hd t hmem d hd'
    · rw [List.mem_singleton.mp hmem] at hd'
      cases r <;> cases hd'
  · have hok : FreshSteps c (.run i e) ↔ t.Fresh c.store.store (c.tasks.eraseIdx i) := by
      simp [FreshSteps, Program.Ok, ht]
    have hothers : ∀ t ∈ c.tasks.eraseIdx i, ∀ d ∈ t.deletion?, ¬ d.Conflicts c.store.store :=
      fun t hmem => hd t (List.mem_of_mem_eraseIdx hmem)
    rw [hok, DisjointMedia, Program.forall_mem_replace ht]
    cases t with
    | upload u =>
        obtain ⟨hqueue, hk, hfresh⟩ := disjoint_upload hs hadv
        rw [hfresh]
        refine and_iff_left ⟨fun t hmem d hd' => ?_, fun t hmem d hd' => ?_⟩
        · rw [hk t hmem] at hd'
          cases hd'
        · rw [Deletion.conflicts_congr hqueue]
          exact hothers t hmem d hd'
    | request task =>
        obtain ⟨rfl, hk⟩ := request_step (hc _ (List.mem_of_getElem? ht)) hadv
        refine iff_of_true ⟨hs, fun t hmem d hd' => ?_, hothers⟩ trivial
        rcases hk t hmem with ⟨task', rfl, -⟩ | ⟨target, rfl⟩
        · cases hd'
        · obtain rfl := Option.some.inj hd'
          exact not_conflicts_of_selected rfl
    | deletion d =>
        obtain ⟨store, next, hstatement, rfl, rfl⟩ := statements_deletion hadv
        rcases Deletion.advance_media hstatement with ⟨rfl, hstage, hselected⟩
          | ⟨queued, deleted, doomed, hstage, rfl, rfl⟩
        · refine iff_of_true ⟨hs, fun t hmem d' hd' => ?_, hothers⟩
            fun _ _ _ h => absurd h (hstage _ _ _)
          obtain ⟨d'', hd'', rfl⟩ := Option.map_eq_some_iff.mp hmem
          obtain rfl := Option.some.inj hd'
          rintro ⟨m, hm, hqueues⟩
          rw [hs m (hselected _ hd'' hm)] at hqueues
          cases hqueues
        · rw [Deletion.fresh_of_commit hstage]
          have hqueued : d.stage.queued = queued := by rw [hstage]; rfl
          rw [← hqueued]
          constructor
          · rintro ⟨hgone, -, hconflicts⟩ m hm
            refine ⟨fun t hmem d' hd' => ?_, (Deletion.disjoint_seen hs).mp hgone m hm⟩
            have hnot := hconflicts t hmem d' hd'
            exact (Deletion.conflicts_seen (hothers t hmem d' hd')).mp hnot m hm
          · intro h
            refine ⟨(Deletion.disjoint_seen hs).mpr fun m hm => (h m hm).2,
              fun t hmem => (by cases hmem), fun t hmem d' hd' => ?_⟩
            exact (Deletion.conflicts_seen (hothers t hmem d' hd')).mpr fun m hm =>
              (h m hm).1 t hmem d' hd'
  · exact iff_of_true ⟨hs, fun t hmem => hd t (List.mem_of_mem_eraseIdx hmem)⟩ trivial

/-- **Live and queued media.** In the states of a run of uploads and deletions no
id is in both tables, and no deletion fails at its insertion into the queue,
exactly when the steps of the run are fresh. -/
theorem disjoint_iff_fresh (x : Crates) (s₀ : Store) (h₀ : s₀.Disjoint)
    (ls : List (Sched MediaRequest ServiceEnv)) :
    Run.Always (statements x).step DisjointMedia ⟨.start s₀, []⟩ ls
      ↔ Run.Guarded (statements x).step FreshSteps ⟨.start s₀, []⟩ ls :=
  Run.always_iff_guarded (J := fun c => ∀ t ∈ c.tasks, t.Deletes)
    (fun _ _ _ hc h => deletes_step_statements hc h)
    (fun _ _ _ hc hm h => disjointMedia_step hc hm h) ls (fun t ht => by cases ht)
    ⟨h₀, fun t ht => by cases ht⟩

/-! ## Two runs -/

/-- A picture arrives at the `i`-th place. -/
def storeLeaf (i : Nat) : List (Sched MediaRequest ServiceEnv) :=
  [uploadLeaf, .run i {}, .run i {}, .run i {}]

def deleteLeaf : Sched MediaRequest ServiceEnv := .spawn (.deleteMedia (some 1) 7)

/-- The picture is stored, deleted, and delivered again. -/
def redelivered : List (Sched MediaRequest ServiceEnv) :=
  storeLeaf 0 ++ deleteLeaf :: List.replicate 7 (.run 0 {}) ++ storeLeaf 0

/-- The steps that store the picture first are fresh, and those that store it again
are not. -/
theorem disjoint_iff_fresh_redelivered :
    Run.Always (statements plainCrates).step DisjointMedia ⟨.start administeredKit, []⟩
        (storeLeaf 0)
      ∧ ¬ Run.Guarded (statements plainCrates).step FreshSteps ⟨.start administeredKit, []⟩
        redelivered := by
  have hiff := disjoint_iff_fresh plainCrates administeredKit fun m hm => by cases hm
  constructor
  · refine (hiff (storeLeaf 0)).mpr ((Run.guarded_cons rfl).mpr ⟨trivial, ?_⟩)
    refine (Run.guarded_cons rfl).mpr ⟨Program.ok_alone rfl trivial, ?_⟩
    refine (Run.guarded_cons rfl).mpr ⟨Program.ok_alone rfl trivial, ?_⟩
    exact (Run.guarded_cons rfl).mpr ⟨Program.ok_alone rfl fun _ => rfl, trivial⟩
  · intro hfresh
    have hrun : ∃ c, Run.exec (statements plainCrates).step ⟨.start administeredKit, []⟩
          redelivered = some c
        ∧ c.store.store.media.rows.map (·.id) = [7] ∧ c.store.store.queuesId 7 = true :=
      ⟨_, rfl, rfl, rfl⟩
    obtain ⟨c, hrun, hmedia, hqueued⟩ := hrun
    obtain ⟨m, hm, hid⟩ := List.map_eq_singleton_iff.mp hmedia
    have hdisjoint := (((hiff redelivered).mpr hfresh).last hrun).1 m
      (by rw [Table.mem_def, hm]; exact List.mem_singleton_self m)
    rw [hid, hqueued] at hdisjoint
    cases hdisjoint

/-- The picture cannot be deleted again. -/
theorem redelivered_not_deletable :
    ∃ c c',
      Run.exec (statements plainCrates).step ⟨.start administeredKit, []⟩ redelivered = some c
      ∧ c.store.store.media.rows.map (·.id) = [7]
      ∧ c.store.store.queueMediaPendingDeletion.rows.map (·.mediaId) = [7]
      ∧ ¬ DisjointMedia c
      ∧ Run.exec (statements plainCrates).step c (deleteLeaf :: List.replicate 5 (.run 0 {}))
        = some c'
      ∧ c'.tasks.length = 0 ∧ c'.store.store.media.rows.map (·.id) = [7] := by
  refine ⟨_, _, rfl, rfl, rfl, fun h => ?_, rfl, rfl, rfl⟩
  exact absurd (h.1 _ (List.mem_singleton.mpr rfl)) (by decide)

/-- Of two deletions that have both selected the picture, one fails. -/
theorem deleted_twice :
    ∃ c c', Run.exec (statements plainCrates).step ⟨.start administeredKit, []⟩
        (storeLeaf 0 ++ deleteLeaf :: List.replicate 4 (.run 0 {}) ++ deleteLeaf
          :: List.replicate 4 (.run 1 {}) ++ List.replicate 3 (.run 0 {})) = some c
      ∧ c.store.store.Disjoint ∧ c.tasks.length = 1 ∧ ¬ DisjointMedia c
      ∧ Run.exec (statements plainCrates).step c [.run 0 {}] = some c'
      ∧ c'.tasks.length = 0 := by
  refine ⟨_, _, rfl, fun m hm => (by cases hm), rfl, fun h => ?_, rfl, rfl⟩
  refine h.2 _ (List.mem_singleton.mpr rfl) _ rfl ⟨_, List.mem_singleton.mpr rfl, ?_⟩
  decide

end AstroPlant
