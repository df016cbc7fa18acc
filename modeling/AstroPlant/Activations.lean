import AstroPlant.Api

/-!
# Patching configurations, statement by statement

In the API model the transaction of `patch_configuration` is one step. The
database runs it at `READ COMMITTED`, one statement after the other: a statement
sees what is committed when it runs and what its own transaction has done, and
it waits for the rows that another open transaction has written. The index that
allows one active configuration per kit waits too: for another transaction that
has activated or deactivated a configuration of the kit.

If no other request moves in between, the statements do what the transaction of
the API model does (`patches_alone`).

A transaction is a value of its own, `PatchTx`: it remembers what it has written,
and `PatchTx.seen` is the store with that in it, which is what its next statement
reads. Nothing of it is in the store before the commit. Locks are not kept as a
state: who holds a row or the index can be read off the open transactions
(`PatchTx.writes`, `PatchTx.holdsIndex`), and a statement that has to wait is a
step that is not enabled.
-/

namespace AstroPlant

/-! ## The statements of a patch -/

/-- The next statement of an open transaction, with whether it has deactivated
the kit's configurations. -/
inductive PatchStage where
  | deactivateAll
  | update (deactivated : Bool)
  | commit (deactivated : Bool)

/-- An open transaction: the rows that the request has read, what it asks for,
and when the transaction began. -/
structure PatchTx where
  kit : Kit
  kitConfiguration : KitConfiguration
  patch : KitConfigurationPatch
  now : Timestamp
  stage : PatchStage

namespace PatchTx

/-- The transaction begins. Whether it deactivates is decided with the row that
was read. -/
def start (e : Env) (kit : Kit) (kitConfiguration : KitConfiguration)
    (patch : KitConfigurationPatch) : PatchTx where
  kit
  kitConfiguration
  patch
  now := e.now
  stage :=
    if patch.active.any (· != kitConfiguration.active) then .deactivateAll else .update false

def deactivated (d : PatchTx) : Bool :=
  match d.stage with
  | .deactivateAll => false
  | .update deactivated | .commit deactivated => deactivated

/-- Whether the configuration has been updated. -/
def patched (d : PatchTx) : Bool :=
  match d.stage with
  | .commit _ => true
  | _ => false

def changes (d : PatchTx) : UpdateKitConfiguration := d.patch.update d.kitConfiguration.id

/-- What the transaction sees of a committed store: its own changes are made.
This is also what it leaves when it commits. -/
def seen (d : PatchTx) (s : Store) : Store :=
  let s₁ := if d.deactivated then KitConfiguration.deactivateAll d.kit.id d.now s else s
  if d.patched then d.changes.applyTo d.now s₁ else s₁

/-- Whether the transaction has written this row; others wait for it. -/
def writes (d : PatchTx) (c : KitConfiguration) : Bool :=
  (d.deactivated && decide (c.kitId = d.kit.id))
    || (d.patched && decide (c.id = d.kitConfiguration.id))

/-- Whether the transaction has written a row of the kit that is active, before
or after it; the unique index waits for it. -/
def holdsIndex (d : PatchTx) (s : Store) (kitId : Int) : Bool :=
  s.kitConfigurations.rows.any fun c =>
    decide (c.kitId = kitId) && d.writes c
      && (c.active || (KitConfiguration.byId c.id (d.seen s)).any (·.active))

/-- The next statement, or the commit; `others` are the other open
transactions. A statement that fails rolls everything back. -/
def advance (others : List PatchTx) (s : Store) (d : PatchTx) : Option (Store × Option PatchTx) :=
  match d.stage with
  | .deactivateAll =>
      let selected := s.kitConfigurations.rows.filter (·.kitId = d.kit.id)
      if selected.any fun c => others.any (·.writes c) then none
      else some (s, some { d with stage := .update true })
  | .update deactivated =>
      match KitConfiguration.byId d.kitConfiguration.id (d.seen s) with
      | none => some (s, none)
      | some c =>
          let active := (d.changes.apply d.now c).active
          if others.any (·.writes c) || active && others.any (·.holdsIndex s c.kitId) then none
          else
            match (d.changes.update d.now).run (d.seen s) with
            | .error _ => some (s, none)
            | .ok _ => some (s, some { d with stage := .commit deactivated })
  | .commit _ => some (d.seen s, none)

end PatchTx

/-! ## The program -/

/-- What a request that has committed asked of the flags. -/
structure Activation where
  kitConfigurationId : Int
  active : Option Bool
deriving DecidableEq

def PatchTx.activation (d : PatchTx) : Activation := ⟨d.kitConfiguration.id, d.patch.active⟩

/-- The database, with the requests that have committed, in this order. -/
structure Activations where
  store : Store
  committed : List Activation

structure PatchRequest where
  userId : Option Int
  kitConfigurationId : Int
  patch : KitConfigurationPatch

/-- A request before its transaction, or in it. -/
inductive PatchTask where
  | request (task : Task)
  | transaction (d : PatchTx)

def PatchTask.transaction? : PatchTask → Option PatchTx
  | transaction d => some d
  | _ => none

/-- Requests to patch configurations. Every step may fault, which rolls an open
transaction back. -/
def patches (x : Crates) : Program Activations PatchRequest Env PatchTask where
  entry r := .request (.start (.onConfiguration r.userId r.kitConfigurationId (.patch r.patch)))
  advance e t ts s :=
    match t with
    | .request (.onConfiguration kit kitConfiguration (.patch patch)) =>
        -- the frozen fields are checked before the transaction
        if kitConfiguration.neverUsed || !patch.changesController then
          some (s, some (.transaction (.start e kit kitConfiguration patch)))
        else some (s, none)
    | .request task =>
        ((api x).advance e task [] s.store).map fun r =>
          ({ s with store := r.1 }, r.2.map .request)
    | .transaction d =>
        (d.advance (ts.filterMap PatchTask.transaction?) s.store).map fun r =>
          -- only a commit ends a transaction with its changes made
          let committed := if d.patched then s.committed ++ [d.activation] else s.committed
          ({ store := r.1, committed }, r.2.map .transaction)
  faulty _ := true

theorem patches_api {x : Crates} {e : Env} {task : Task} {ts : List PatchTask}
    {s s' : Activations} {k : Option PatchTask}
    (hn : ∀ kit c patch, task ≠ .onConfiguration kit c (.patch patch))
    (h : (patches x).advance e (.request task) ts s = some (s', k)) :
    ∃ store next, (api x).advance e task [] s.store = some (store, next)
      ∧ s' = { s with store } ∧ k = next.map .request := by
  have hmap : ((api x).advance e task [] s.store).map
      (fun r => ({ s with store := r.1 }, r.2.map PatchTask.request)) = some (s', k) := by
    rw [← h]
    simp only [patches]
  obtain ⟨⟨store, next⟩, hr, heq⟩ := Option.map_eq_some_iff.mp hmap
  obtain ⟨rfl, rfl⟩ := Prod.mk.inj heq
  exact ⟨store, next, hr, rfl, rfl⟩

/-! ## Without interruption -/

theorem patches_transaction (x : Crates) (e : Env) {d : PatchTx} {ts : List PatchTask}
    {s : Activations} {store : Store} {next : Option PatchTx}
    (h : d.advance (ts.filterMap PatchTask.transaction?) s.store = some (store, next)) :
    (patches x).advance e (.transaction d) ts s
      = some (⟨store, if d.patched then s.committed ++ [d.activation] else s.committed⟩,
          next.map .transaction) := by
  simp [patches, h]

/-- The update and the commit, with no other transaction open. -/
theorem PatchTx.update_alone (x : Crates) (e : Env) (s : Activations) {d : PatchTx}
    {deactivated : Bool} (hd : d.stage = .update deactivated) :
    ∃ n committed, Run.exec (patches x).step ⟨s, [.transaction d]⟩ (List.replicate n (.run 0 e))
      = some ⟨⟨match (d.changes.update d.now).run (d.seen s.store) with
          | .ok (_, s') => s'
          | .error _ => s.store, committed⟩, []⟩ := by
  obtain ⟨kit, c, patch, now, stage⟩ := d
  obtain rfl : stage = .update deactivated := hd
  cases hrun : ((patch.update c.id).update now).run
      ((⟨kit, c, patch, now, .update deactivated⟩ : PatchTx).seen s.store) with
  | error err =>
      have hadv : (⟨kit, c, patch, now, .update deactivated⟩ : PatchTx).advance [] s.store
          = some (s.store, none) := by
        simp only [advance, changes, hrun]
        split <;> simp
      refine ⟨1, s.committed, ?_⟩
      rw [List.replicate_one, Program.exec_run_alone (patches_transaction x e hadv)]
      simp only [changes, hrun]
      rfl
  | ok r =>
      obtain ⟨c', s'⟩ := r
      obtain ⟨rfl, -⟩ := UpdateKitConfiguration.update_ok hrun
      have hadv : (⟨kit, c, patch, now, .update deactivated⟩ : PatchTx).advance [] s.store
          = some (s.store, some ⟨kit, c, patch, now, .commit deactivated⟩) := by
        simp only [advance, changes, hrun]
        split
        · rename_i hnone
          rw [UpdateKitConfiguration.update, Tx.run_write_ok] at hrun
          simp only [KitConfigurationPatch.update, hnone] at hrun
          split at hrun <;> cases hrun
        · simp
      have hcommit : (⟨kit, c, patch, now, .commit deactivated⟩ : PatchTx).advance [] s.store
          = some (_, none) := rfl
      refine ⟨2, s.committed ++ [⟨c.id, patch.active⟩], ?_⟩
      rw [List.replicate_succ, List.replicate_one,
        Program.exec_run_alone (patches_transaction x e hadv)]
      simp only [changes, hrun]
      exact Program.exec_run_alone (patches_transaction x e hcommit)

/-- What the API model commits, once the frozen fields are checked. -/
theorem patchConfiguration_commit {e : Env} {kit : Kit} {c : KitConfiguration}
    {patch : KitConfigurationPatch} {s : Store}
    (hfrozen : (c.neverUsed || !patch.changesController) = true) :
    ((patchConfiguration e kit c patch).commit s).2
      = match ((patch.update c.id).update e.now).run
            (if patch.active.any (· != c.active) then KitConfiguration.deactivateAll kit.id e.now s
              else s) with
        | .ok (_, s') => s'
        | .error _ => s := by
  have hdeactivate : (Tx.onlyIf (patch.active.any (· != c.active))
      (db (KitConfiguration.deactivateAllOfKit kit.id e.now))).run s
      = .ok ((), if patch.active.any (· != c.active) then
          KitConfiguration.deactivateAll kit.id e.now s else s) := by
    cases patch.active.any (· != c.active) <;> rfl
  cases hrun : ((patch.update c.id).update e.now).run
      (if patch.active.any (· != c.active) then KitConfiguration.deactivateAll kit.id e.now s
        else s) with
  | ok r =>
      have hok : (patchConfiguration e kit c patch).run s = .ok (.configuration r.1, r.2) := by
        refine Tx.run_ensure_bind_ok.mpr ⟨hfrozen, Tx.run_bind_ok.mpr ⟨(), _, hdeactivate, ?_⟩⟩
        exact Tx.run_bind_ok.mpr ⟨r.1, r.2, run_db_ok.mpr hrun, rfl⟩
      rw [Tx.commit_ok hok]
  | error err =>
      rcases Tx.commit_cases (patchConfiguration e kit c patch) s with ⟨p, hc⟩ | ⟨r, s', hr, -⟩
      · rw [hc]
      · obtain ⟨-, hr⟩ := Tx.run_ensure_bind_ok.mp hr
        obtain ⟨_, s₁, h₁, hr⟩ := Tx.run_bind_ok.mp hr
        rw [hdeactivate] at h₁
        obtain ⟨-, rfl⟩ := Prod.mk.inj (Except.ok.inj h₁)
        obtain ⟨_, s₂, h₂, -⟩ := Tx.run_bind_ok.mp hr
        rw [run_db_ok, hrun] at h₂
        cases h₂

/-- **A patch that nothing interrupts** does what its transaction does in the
API model. -/
theorem patches_alone (x : Crates) (e : Env) (s : Activations) (kit : Kit)
    (c : KitConfiguration) (patch : KitConfigurationPatch) :
    ∃ n committed, Run.exec (patches x).step
        ⟨s, [.request (.onConfiguration kit c (.patch patch))]⟩ (List.replicate n (.run 0 e))
      = some ⟨⟨((patchConfiguration e kit c patch).commit s.store).2, committed⟩, []⟩ := by
  by_cases hfrozen : (c.neverUsed || !patch.changesController) = true
  · have hstart : (patches x).advance e (.request (.onConfiguration kit c (.patch patch))) [] s
        = some (s, some (.transaction (.start e kit c patch))) := by
      simp only [patches, hfrozen, if_true]
    rw [patchConfiguration_commit hfrozen]
    by_cases hactive : patch.active.any (· != c.active) = true
    · have hadv : (PatchTx.start e kit c patch).advance [] s.store
          = some (s.store, some ⟨kit, c, patch, e.now, .update true⟩) := by
        simp [PatchTx.start, PatchTx.advance, hactive]
      obtain ⟨n, committed, hn⟩ := PatchTx.update_alone x e
        (⟨s.store, s.committed⟩ : Activations)
        (show (⟨kit, c, patch, e.now, .update true⟩ : PatchTx).stage = .update true from rfl)
      refine ⟨n + 2, committed, ?_⟩
      rw [List.replicate_succ, List.replicate_succ, Program.exec_run_alone hstart,
        Option.toList_some, Program.exec_run_alone (patches_transaction x e hadv), if_pos hactive]
      have hpatched : (PatchTx.start e kit c patch).patched = false := by
        simp [PatchTx.start, PatchTx.patched, hactive]
      rw [hpatched]
      exact hn
    · have hupdate : (PatchTx.start e kit c patch).stage = .update false := by
        simp [PatchTx.start, hactive]
      obtain ⟨n, committed, hn⟩ := PatchTx.update_alone x e s hupdate
      refine ⟨n + 1, committed, ?_⟩
      rw [List.replicate_succ, Program.exec_run_alone hstart, if_neg hactive]
      have hseen : (PatchTx.start e kit c patch).seen s.store = s.store := by
        simp [PatchTx.seen, PatchTx.deactivated, PatchTx.patched, hupdate]
      rw [hseen] at hn
      exact hn
  · have hstart : (patches x).advance e (.request (.onConfiguration kit c (.patch patch))) [] s
        = some (s, none) := by
      simp only [patches, hfrozen]
      rfl
    have hcommit : ((patchConfiguration e kit c patch).commit s.store).2 = s.store := by
      rcases Tx.commit_cases (patchConfiguration e kit c patch) s.store with
        ⟨p, hc⟩ | ⟨r, s', hr, -⟩
      · rw [hc]
      · exact absurd (Tx.run_ensure_bind_ok.mp hr).1 hfrozen
    refine ⟨1, s.committed, ?_⟩
    rw [List.replicate_one, Program.exec_run_alone hstart, hcommit]
    rfl

end AstroPlant
