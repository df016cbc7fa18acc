import AstroPlant.Services

/-!
# Deletions, statement by statement

In the API model the transaction of a deletion is one step. The database runs
it at `READ COMMITTED`, one statement after the other: a statement sees what is
committed when it starts and what its own transaction has done, and it waits for
the rows that another open transaction has written. What a transaction has done
is seen by nobody else before it commits, and by nobody at all if it is rolled
back.

If no other task moves in between, the statements do what the transaction of the
API model does (`statements_alone`).

The three deletions differ in their first filter and in what they remove
(`Target`); the statements are the same. As in `Activations` a transaction
carries what it has done, sees the store through it (`Deletion.seen`), and what
it holds up is read off the open transactions (`Deletion.holdsUp`). The order of
the statements is that of the handlers: queue the media that are found, delete
the media that are found, delete the owner and whatever the foreign keys take
with it, commit.
-/

namespace AstroPlant

/-! ## The statements of a deletion -/

/-- What a request deletes. -/
inductive Target where
  | kit (kit : Kit)
  | configuration (id : Int)
  | media (id : Uuid)

namespace Target

/-- Where a request has come to its transaction. -/
def ofTask : Task → Option Target
  | .deleteKit k => some (kit k)
  | .onConfiguration _ c .delete => some (configuration c.id)
  | .deleteMedia id => some (media id)
  | _ => none

/-- The transaction in the API model. -/
def tx (e : Env) : Target → Tx Store Problem Reply
  | kit k => deleteKit e k
  | configuration id => deleteConfiguration e id
  | media id => deleteMedia e id

/-- The filter that the first two statements share. -/
def filter : Target → Media → Bool
  | kit k => fun m => m.kitId = k.id
  | configuration id => fun m => m.kitConfigurationId = id
  | media id => fun m => m.id = id

/-- The kits that the last statement selects. -/
def kits : Target → Kit → Bool
  | kit k => (·.id = k.id)
  | _ => fun _ => false

/-- The configurations that the last statement selects. -/
def configurations : Target → KitConfiguration → Bool
  | configuration id => (·.id = id)
  | _ => fun _ => false

end Target

/-- The next statement of an open transaction, with what the previous ones have
done: the rows queued, the media deleted, and the owner with its cascade. The
first statement selects its rows before it inserts them. -/
inductive Stage where
  | insert
  | queue (selected : List Media)
  | delete (queued : List Media)
  | owner (queued deleted : List Media)
  | commit (queued deleted : List Media) (doomed : Option Store.Doomed)

namespace Stage

def queued : Stage → List Media
  | insert | queue _ => []
  | delete queued => queued
  | owner queued _ => queued
  | commit queued _ _ => queued

def deleted : Stage → List Media
  | insert | queue _ | delete _ => []
  | owner _ deleted => deleted
  | commit _ deleted _ => deleted

def doomed : Stage → Option Store.Doomed
  | commit _ _ doomed => doomed
  | _ => none

end Stage

/-- An open transaction; `now` is when it began. -/
structure Deletion where
  target : Target
  now : Timestamp
  stage : Stage

/-- The store without these media. -/
def Store.withoutMedia (s : Store) (deleted : List Media) : Store :=
  { s with media := s.media.delete fun m => deleted.any (·.id = m.id) }

namespace Deletion

/-- What the transaction sees of a committed store: its own changes are made.
This is also what it leaves when it commits. -/
def seen (d : Deletion) (s : Store) : Store :=
  let queue := fun queued => QueueMediaPendingDeletion.insertAll d.now queued s
  match d.stage with
  | .insert | .queue _ => s
  | .delete queued => queue queued
  | .owner queued deleted => (queue queued).withoutMedia deleted
  | .commit queued deleted none => (queue queued).withoutMedia deleted
  | .commit queued deleted (some doomed) => ((queue queued).withoutMedia deleted).remove doomed

/-! The rows an open transaction has written; others wait for them. -/

def queues (d : Deletion) (id : Uuid) : Bool := d.stage.queued.any (·.id = id)

def deletesMedia (d : Deletion) (id : Uuid) : Bool := d.stage.deleted.any (·.id = id)

/-- Whether a row with these references refers to a row that the transaction has
deleted. -/
def removes (d : Deletion) (s : Store) (peripheralId kitId kitConfigurationId : Int) : Bool :=
  d.stage.doomed.any (·.refers s peripheralId kitId kitConfigurationId)

/-- Whether a deletion with this cascade waits for the transaction: both delete
one row, or media that stand in the way are being deleted. -/
def holdsUp (d : Deletion) (s : Store) (doomed : Store.Doomed) : Bool :=
  (d.stage.doomed.any fun d' =>
      (s.kits.rows.any fun k => doomed.kit k && d'.kit k)
        || (s.kitConfigurations.rows.any fun c => doomed.configuration c && d'.configuration c)
        || s.peripherals.rows.any fun p => doomed.peripheral p && d'.peripheral p)
    || s.media.rows.any fun m =>
      doomed.refers s m.peripheralId m.kitId m.kitConfigurationId && d.deletesMedia m.id

/-- The next statement, or the commit; `others` are the other open
transactions. A statement that fails rolls everything back. -/
def advance (others : List Deletion) (s : Store) (d : Deletion) :
    Option (Store × Option Deletion) :=
  match d.stage with
  | .insert => some (s, some { d with stage := .queue (s.media.select d.target.filter) })
  | .queue selected =>
      -- `media_id` is unique in the queue, whoever has inserted it and when
      if selected.any fun m => others.any (·.queues m.id) then none
      else if selected.any fun m => s.queueMediaPendingDeletion.rows.any (·.mediaId = m.id) then
        some (s, none)
      else some (s, some { d with stage := .delete selected })
  | .delete queued =>
      -- not the rows that were queued: those the filter selects now
      let selected := s.media.select d.target.filter
      if selected.any fun m => others.any (·.deletesMedia m.id) then none
      else
        match d.target with
        | .media _ => some (s, some { d with stage := .commit queued selected none })
        | _ => some (s, some { d with stage := .owner queued selected })
  | .owner queued deleted =>
      let s' := d.seen s
      let doomed := s'.doomed d.target.kits d.target.configurations fun _ => false
      if others.any (·.holdsUp s' doomed) then none
      else
        match s'.deleteCascade d.target.kits d.target.configurations fun _ => false with
        | .error _ => some (s, none)
        | .ok _ => some (s, some { d with stage := .commit queued deleted (some doomed) })
  | .commit _ _ _ => some (d.seen s, none)

end Deletion

/-! ## The program -/

inductive MediaRequest where
  | upload (media : Mqtt.Media)
  | deleteKit (userId : Option Int) (kitSerial : String)
  | deleteConfiguration (userId : Option Int) (id : Int)
  | deleteMedia (userId : Option Int) (id : Uuid)

/-- An upload, a deletion before its transaction, or one in it. -/
inductive MediaTask where
  | upload (upload : Upload)
  | request (task : Task)
  | deletion (deletion : Deletion)

def MediaTask.deletion? : MediaTask → Option Deletion
  | deletion d => some d
  | _ => none

/-- An insertion waits for a row with its id that is being deleted, and for the
rows it refers to. -/
def Upload.waits (others : List Deletion) (s : Store) : Upload → Bool
  | insert media peripheral =>
      others.any fun d => d.deletesMedia media.id
        || d.removes s peripheral.id peripheral.kitId peripheral.kitConfigurationId
  | _ => false

/-- Uploads and deletions over one database. Every step may fault, which rolls
an open transaction back. -/
def statements (x : Crates) : Program Services MediaRequest ServiceEnv MediaTask where
  entry
    | .upload media => .upload (.start media)
    | .deleteKit userId kitSerial => .request (.start (.deleteKit userId kitSerial))
    | .deleteConfiguration userId id => .request (.start (.onConfiguration userId id .delete))
    | .deleteMedia userId id => .request (.start (.deleteMedia userId id))
  advance e t ts s :=
    let others := ts.filterMap MediaTask.deletion?
    match t with
    | .upload u =>
        if u.waits others s.store then none
        else
          let r := u.advance e s
          some (r.1, r.2.map .upload)
    | .request task =>
        match Target.ofTask task with
        | some target => some (s, some (.deletion ⟨target, e.now, .insert⟩))
        | none =>
            ((api x).advance e.toEnv task [] s.store).map fun r =>
              ({ s with store := r.1 }, r.2.map .request)
    | .deletion d =>
        (d.advance others s.store).map fun r => ({ s with store := r.1 }, r.2.map .deletion)
  faulty _ := true

theorem statements_upload {x : Crates} {e : ServiceEnv} {u : Upload} {ts : List MediaTask}
    {s s' : Services} {k : Option MediaTask}
    (h : (statements x).advance e (.upload u) ts s = some (s', k)) :
    u.waits (ts.filterMap MediaTask.deletion?) s.store = false
      ∧ ∃ next, u.advance e s = (s', next) ∧ k = next.map .upload := by
  simp only [statements] at h
  split at h
  · cases h
  · rename_i hwaits
    obtain ⟨rfl, rfl⟩ := Prod.mk.inj (Option.some.inj h)
    exact ⟨Bool.eq_false_iff.mpr hwaits, _, rfl, rfl⟩

theorem statements_request {x : Crates} {e : ServiceEnv} {task : Task} {ts : List MediaTask}
    {s s' : Services} {k : Option MediaTask}
    (h : (statements x).advance e (.request task) ts s = some (s', k)) :
    (∃ target, Target.ofTask task = some target ∧ s' = s
        ∧ k = some (.deletion ⟨target, e.now, .insert⟩))
      ∨ Target.ofTask task = none
        ∧ ∃ store next, (api x).advance e.toEnv task [] s.store = some (store, next)
          ∧ s' = { s with store } ∧ k = next.map .request := by
  simp only [statements] at h
  split at h
  · rename_i target htarget
    cases h
    exact Or.inl ⟨target, htarget, rfl, rfl⟩
  · rename_i hnone
    obtain ⟨⟨store, next⟩, hapi, heq⟩ := Option.map_eq_some_iff.mp h
    obtain ⟨rfl, rfl⟩ := Prod.mk.inj heq
    exact Or.inr ⟨hnone, store, next, hapi, rfl, rfl⟩

theorem statements_deletion {x : Crates} {e : ServiceEnv} {d : Deletion} {ts : List MediaTask}
    {s s' : Services} {k : Option MediaTask}
    (h : (statements x).advance e (.deletion d) ts s = some (s', k)) :
    ∃ store next, d.advance (ts.filterMap MediaTask.deletion?) s.store = some (store, next)
      ∧ s' = { s with store } ∧ k = next.map .deletion := by
  obtain ⟨⟨store, next⟩, hadvance, heq⟩ := Option.map_eq_some_iff.mp h
  obtain ⟨rfl, rfl⟩ := Prod.mk.inj heq
  exact ⟨store, next, hadvance, rfl, rfl⟩

/-! ## Without interruption -/

theorem Table.delete_congr {ρ κ : Type} {key : ρ → κ} {t : Table ρ key} {p q : ρ → Bool}
    (h : ∀ r ∈ t, p r = q r) : t.delete p = t.delete q := by
  simp only [Table.delete, Table.mk.injEq]
  exact List.filter_congr fun r hr => by rw [h r hr]

/-- Deleting the rows that were found is deleting with the filter. -/
theorem Store.withoutMedia_select (s : Store) (p : Media → Bool) :
    s.withoutMedia (s.media.select p) = { s with media := s.media.delete p } := by
  have hsame : ∀ m ∈ s.media, (s.media.select p).any (·.id = m.id) = p m := by
    intro m hm
    rw [Bool.eq_iff_iff, List.any_eq_true]
    constructor
    · rintro ⟨r, hr, hid⟩
      obtain ⟨hr, hp⟩ := Table.mem_select.mp hr
      rwa [Table.eq_of_key_eq hr hm (of_decide_eq_true hid)] at hp
    · exact fun hp => ⟨m, Table.mem_select.mpr ⟨hm, hp⟩, decide_eq_true rfl⟩
  rw [Store.withoutMedia, Table.delete_congr hsame]

/-- The three transactions are one: queue, then delete the owner if there is
one. -/
theorem Target.tx_eq (e : Env) (target : Target) :
    target.tx e = (do
      db (queueMedia e.now target.filter)
      match target with
      | .media _ => pure ()
      | _ => db (Store.deleteRows target.kits target.configurations fun _ => false)
      return .empty) := by
  cases target <;> rfl

/-- The transaction does nothing if its first statement fails. -/
theorem Target.commit_of_insert_error {e : Env} {target : Target} {s : Store} {err : DieselError}
    (h : (QueueMediaPendingDeletion.insertSelected e.now target.filter).run s = .error err) :
    ((target.tx e).commit s).2 = s := by
  rcases Tx.commit_cases (target.tx e) s with ⟨p, hc⟩ | ⟨r, s', hr, -⟩
  · rw [hc]
  · rw [Target.tx_eq] at hr
    obtain ⟨_, s₁, hqueue, -⟩ := Tx.run_bind_ok.mp hr
    obtain ⟨_, s₂, hinsert, -⟩ := Tx.run_bind_ok.mp (run_db_ok.mp hqueue)
    rw [h] at hinsert
    cases hinsert

/-- The first statement fails on the rows that it would insert twice. -/
theorem insertSelected_run (now : Timestamp) (p : Media → Bool) (s : Store) :
    (QueueMediaPendingDeletion.insertSelected now p).run s
      = if (s.media.select p).any fun m =>
          s.queueMediaPendingDeletion.rows.any (·.mediaId = m.id) then .error .databaseError
        else .ok ((), QueueMediaPendingDeletion.insertAll now (s.media.select p) s) := rfl

theorem queueMedia_run {now : Timestamp} {p : Media → Bool} {s s₁ : Store} {u : Unit}
    (h : (QueueMediaPendingDeletion.insertSelected now p).run s = .ok (u, s₁)) :
    (queueMedia now p).run s = .ok ((), s₁.withoutMedia (s.media.select p)) := by
  obtain ⟨-, rfl⟩ := QueueMediaPendingDeletion.insertSelected_ok h
  refine Tx.run_bind_ok.mpr ⟨u, _, h, ?_⟩
  have hmedia : (QueueMediaPendingDeletion.insertAll now (s.media.select p) s).withoutMedia
      (s.media.select p)
      = { QueueMediaPendingDeletion.insertAll now (s.media.select p) s with
          media := s.media.delete p } :=
    Store.withoutMedia_select (QueueMediaPendingDeletion.insertAll now _ s) p
  rw [hmedia]
  rfl

/-- The statements of a transaction, with no other one open: the store it ends
with. -/
inductive Deletion.Finishes (s : Store) : Deletion → Store → Prop where
  | last {d : Deletion} {s' : Store} (h : d.advance [] s = some (s', none)) : Finishes s d s'
  | next {d d' : Deletion} {s' : Store} (h : d.advance [] s = some (s, some d'))
      (hd : Finishes s d' s') : Finishes s d s'

theorem Deletion.Finishes.exec {x : Crates} {e : ServiceEnv} {s : Services} {d : Deletion}
    {store : Store} (h : Finishes s.store d store) :
    ∃ n, Run.exec (statements x).step ⟨s, [.deletion d]⟩ (List.replicate n (.run 0 e))
      = some ⟨{ s with store }, []⟩ := by
  induction h with
  | last h =>
      have hadv : (statements x).advance e (.deletion _) [] s = some (_, none) :=
        congrArg (Option.map _) h
      exact ⟨1, Program.exec_run_alone hadv⟩
  | next h _ ih =>
      obtain ⟨n, hn⟩ := ih
      have hadv : (statements x).advance e (.deletion _) [] s = some (s, some (.deletion _)) :=
        congrArg (Option.map _) h
      refine ⟨n + 1, ?_⟩
      rw [List.replicate_succ, Program.exec_run_alone hadv]
      exact hn

/-- The statement that deletes the owner, once its media are deleted. -/
theorem Target.finishes_owner {e : Env} {target : Target} {queued deleted : List Media}
    {s : Store} (hrun : (queueMedia e.now target.filter).run s
      = .ok ((), (QueueMediaPendingDeletion.insertAll e.now queued s).withoutMedia deleted)) :
    Deletion.Finishes s ⟨target, e.now, .owner queued deleted⟩
      ((do
        db (queueMedia e.now target.filter)
        db (Store.deleteRows target.kits target.configurations fun _ => false)
        return Reply.empty : Tx Store Problem Reply).commit s).2 := by
  have hseen : (⟨target, e.now, .owner queued deleted⟩ : Deletion).seen s
      = (QueueMediaPendingDeletion.insertAll e.now queued s).withoutMedia deleted := rfl
  generalize (QueueMediaPendingDeletion.insertAll e.now queued s).withoutMedia deleted = s₁
    at hrun hseen
  cases hcascade : s₁.deleteCascade target.kits target.configurations fun _ => false with
  | error err =>
      rcases Tx.commit_cases _ s with ⟨p, hc⟩ | ⟨r, s', hr, -⟩
      · rw [hc]
        exact .last (by simp [Deletion.advance, hseen, hcascade])
      · obtain ⟨_, s₂, hqueue, hr⟩ := Tx.run_bind_ok.mp hr
        obtain ⟨_, s₃, hdelete, -⟩ := Tx.run_bind_ok.mp hr
        rw [run_db_ok, hrun] at hqueue
        obtain ⟨-, rfl⟩ := Prod.mk.inj (Except.ok.inj hqueue)
        rw [run_db_ok, Store.deleteRows, Tx.run_write_ok, hcascade] at hdelete
        cases hdelete
  | ok s' =>
      have hdelete : (Store.deleteRows target.kits target.configurations fun _ => false).run s₁
          = .ok ((), s') := by
        rw [Store.deleteRows, Tx.run_write_ok, hcascade]
        rfl
      obtain ⟨rfl, -⟩ := Store.deleteCascade_ok hcascade
      rw [Tx.commit_ok (Tx.run_bind_ok.mpr ⟨(), _, run_db_ok.mpr hrun,
        Tx.run_bind_ok.mpr ⟨(), _, run_db_ok.mpr hdelete, rfl⟩⟩)]
      have howner : (⟨target, e.now, .owner queued deleted⟩ : Deletion).advance [] s
          = some (s, some ⟨target, e.now, .commit queued deleted
              (some (s₁.doomed target.kits target.configurations fun _ => false))⟩) := by
        simp [Deletion.advance, hseen, hcascade]
      refine .next howner (.last ?_)
      rw [← hseen]
      rfl

/-- Alone, a transaction ends with the store that the API model commits. -/
theorem Target.finishes (e : Env) (target : Target) (s : Store) :
    Deletion.Finishes s ⟨target, e.now, .insert⟩ ((target.tx e).commit s).2 := by
  have hselect : (⟨target, e.now, .insert⟩ : Deletion).advance [] s
      = some (s, some ⟨target, e.now, .queue (s.media.select target.filter)⟩) := rfl
  refine .next hselect ?_
  have hrun := insertSelected_run e.now target.filter s
  split at hrun
  · rename_i htaken
    rw [Target.commit_of_insert_error hrun]
    exact .last (by simp [Deletion.advance, htaken])
  · rename_i hfree
    have hrun := queueMedia_run hrun
    have hinsert : (⟨target, e.now, .queue (s.media.select target.filter)⟩ : Deletion).advance [] s
        = some (s, some ⟨target, e.now, .delete (s.media.select target.filter)⟩) := by
      simp [Deletion.advance, hfree]
    refine .next hinsert ?_
    rw [Target.tx_eq]
    cases target with
    | media id =>
        have hdelete : (⟨.media id, e.now, .delete (s.media.select (media id).filter)⟩ :
            Deletion).advance [] s
            = some (s, some ⟨.media id, e.now, .commit (s.media.select (media id).filter)
                (s.media.select (media id).filter) none⟩) := by
          simp [Deletion.advance]
        rw [Tx.commit_ok (Tx.run_bind_ok.mpr ⟨(), _, run_db_ok.mpr hrun, rfl⟩)]
        exact .next hdelete (.last rfl)
    | kit k =>
        exact .next (by simp [Deletion.advance]) (finishes_owner hrun)
    | configuration id =>
        exact .next (by simp [Deletion.advance]) (finishes_owner hrun)

/-- **A deletion that nothing interrupts** does what its transaction does in the
API model. -/
theorem statements_alone (x : Crates) (e : ServiceEnv) (s : Services) {task : Task}
    {target : Target} (ht : Target.ofTask task = some target) :
    ∃ n, Run.exec (statements x).step ⟨s, [.request task]⟩ (List.replicate n (.run 0 e))
      = some ⟨{ s with store := ((target.tx e.toEnv).commit s.store).2 }, []⟩ := by
  have hbegin : (statements x).advance e (.request task) [] s
      = some (s, some (.deletion ⟨target, e.now, .insert⟩)) := by
    simp [statements, ht]
  obtain ⟨n, hn⟩ := (target.finishes e.toEnv s.store).exec (x := x) (e := e)
  refine ⟨n + 1, ?_⟩
  rw [List.replicate_succ, Program.exec_run_alone hbegin]
  exact hn

end AstroPlant
