import AstroPlant.Conc
import AstroPlant.KitConfigurations

/-!
# The API as a concurrent program

Every request that changes kits, memberships, configurations, peripherals or
media, as a task: each of its transactions is one atomic step, and between two
of them any other task may run. A step may also fault (a lost connection, a
serialization failure, any database error), which rolls its transaction back
and ends the request.

`Change` lists, once, everything a step can do to the store; the laws about the
API are proved by cases over it.

The tasks are suspended where the source awaits, and nowhere else. What a task
carries over an await is in its state: the rows it has read, as they were, and
the parts of its body. That is all that it knows when it goes on, and it is why a
law about the rows of the store says nothing about the rows of a task by itself:
each law comes with what it needs of them, if it needs anything.
-/

namespace AstroPlant

/-- What is asked of a configuration. -/
inductive ConfigurationOp where
  | patch (patch : KitConfigurationPatch)
  | delete
  | addPeripheral (peripheral : PeripheralBody)

/-- What is asked of a peripheral. -/
inductive PeripheralOp where
  | patch (patch : PeripheralPatch)
  | delete

inductive Request where
  | createKit (userId : Int) (kit : CreateKit)
  | patchKit (userId : Option Int) (kitSerial : String) (patch : KitPatch)
  | resetPassword (userId : Option Int) (kitSerial : String)
  | deleteKit (userId : Option Int) (kitSerial : String)
  | addMember (userId : Option Int) (kitSerial : String) (member : AddMember)
  | patchKitMembership (userId : Option Int) (id : Int) (patch : KitMembershipPatch)
  | deleteKitMembership (userId : Option Int) (id : Int)
  | createConfiguration (userId : Option Int) (kitSerial : String)
      (configuration : Option (Option String)) (source : Option Int)
  | onConfiguration (userId : Option Int) (id : Int) (op : ConfigurationOp)
  | onPeripheral (userId : Option Int) (id : Int) (op : PeripheralOp)
  | deleteMedia (userId : Option Int) (id : Uuid)

/-- A request, or what is left of it after some of its transactions; the
arguments are the rows it has read. -/
inductive Task where
  | start (request : Request)
  | patchKit (kit : Kit) (patch : KitPatch)
  | resetPassword (kit : Kit)
  | deleteKit (kit : Kit)
  | lastSeen (kit : Kit) (member : AddMember)
  | addMember (kit : Kit) (kitLastSeen : Option Timestamp) (member : AddMember)
  | createNewConfiguration (kit : Kit) (description : Option String)
  | cloneModels (userId : Option Int) (kit : Kit) (source : Int)
  | cloneAuthorize (userId : Option Int) (kit fromKit : Kit) (source : KitConfiguration)
  | cloneConfiguration (kit : Kit) (source : KitConfiguration)
  | authorizeConfiguration (userId : Option Int) (kit : Kit) (configuration : KitConfiguration)
      (op : ConfigurationOp)
  | onConfiguration (kit : Kit) (configuration : KitConfiguration) (op : ConfigurationOp)
  | authorizePeripheral (userId : Option Int) (kit : Kit) (configuration : KitConfiguration)
      (peripheral : Peripheral) (op : PeripheralOp)
  | onPeripheral (configuration : KitConfiguration) (peripheral : Peripheral)
      (op : PeripheralOp)
  | authorizeMedia (userId : Option Int) (kit : Kit) (id : Uuid)
  | deleteMedia (id : Uuid)

/-! ## Steps -/

/-- The last transaction of a request on a configuration. -/
def ConfigurationOp.tx (x : Crates) (e : Env) (kit : Kit) (configuration : KitConfiguration) :
    ConfigurationOp → Tx Store Problem Reply
  | .patch change => patchConfiguration e kit configuration change
  | .delete => deleteConfiguration e configuration.id
  | .addPeripheral peripheral => addPeripheralToConfiguration x kit configuration peripheral

/-- The last transaction of a request on a peripheral. -/
def PeripheralOp.tx (x : Crates) (configuration : KitConfiguration) (peripheral : Peripheral) :
    PeripheralOp → Tx Store Problem Reply
  | .patch change => patchPeripheral x configuration peripheral change
  | .delete => deletePeripheral configuration peripheral

/-- The kit that a media row belongs to. -/
def kitOfMedia (id : Uuid) (s : Store) : Option Kit :=
  (Media.byId id s).bind fun m => Kit.byId m.kitId s

def deleteMedia (e : Env) (id : Uuid) : Tx Store Problem Reply := do
  db (queueMedia e.now fun m => m.id = id)
  return .empty

/-- The last step of a request. -/
def finish (t : Tx Store Problem Reply) : Tx Store Problem (Task ⊕ Reply) := do
  let reply ← t
  return .inr reply

/-- A step that reads and decides what comes next. -/
def andThen {α : Type} (t : Tx Store Problem α) (next : α → Tx Store Problem Task) :
    Tx Store Problem (Task ⊕ Reply) := do
  let a ← t
  let task ← next a
  return .inl task

/-- After permission on a kit looked up by serial. -/
def permitted (userId : Option Int) (kitSerial : String) (action : KitAction)
    (next : Kit → Tx Store Problem Task) : Tx Store Problem (Task ⊕ Reply) :=
  andThen (futKitPermissionOrForbidden userId kitSerial action) fun r => next r.2.2

/-- Either a body or a source to clone must be given, but not both. -/
def createConfigurationTask (userId : Option Int) (kit : Kit) :
    Option (Option String) → Option Int → Tx Store Problem Task
  | some description, none => pure (.createNewConfiguration kit description)
  | none, some source => pure (.cloneModels userId kit source)
  | _, _ => throw .BAD_REQUEST

def Request.tx (x : Crates) (e : Env) : Request → Tx Store Problem (Task ⊕ Reply)
  | .createKit userId kit => finish (AstroPlant.createKit x e userId kit)
  | .patchKit userId kitSerial patch =>
      permitted userId kitSerial .editDetails fun kit => pure (.patchKit kit patch)
  | .resetPassword userId kitSerial =>
      permitted userId kitSerial .resetPassword fun kit => pure (.resetPassword kit)
  | .deleteKit userId kitSerial =>
      permitted userId kitSerial .delete fun kit => pure (.deleteKit kit)
  | .addMember userId kitSerial member =>
      permitted userId kitSerial member.action fun kit => pure (.lastSeen kit member)
  | .patchKitMembership userId id patch => finish (AstroPlant.patchKitMembership userId id patch)
  | .deleteKitMembership userId id => finish (AstroPlant.deleteKitMembership userId id)
  | .createConfiguration userId kitSerial configuration source =>
      permitted userId kitSerial .editConfiguration fun kit =>
        createConfigurationTask userId kit configuration source
  | .onConfiguration userId id op =>
      andThen (getModelsFromKitConfigurationId id) fun r =>
        pure (.authorizeConfiguration userId r.1 r.2 op)
  | .onPeripheral userId id op =>
      andThen (getModelsFromPeripheralId id) fun r =>
        pure (.authorizePeripheral userId r.1 r.2.1 r.2.2 op)
  | .deleteMedia userId id =>
      andThen (Tx.read (kitOfMedia id)) fun kit => do
        let kit ← Tx.ofOption .NOT_FOUND kit
        return .authorizeMedia userId kit id

/-- One step of a task, as a transaction: it answers the request or leaves a
task, and it fails with the request. -/
def Task.tx (x : Crates) (e : Env) : Task → Tx Store Problem (Task ⊕ Reply)
  | .start request => request.tx x e
  | .patchKit kit patch => finish (AstroPlant.patchKit x e kit patch)
  | .resetPassword kit => finish (AstroPlant.resetPassword e kit)
  | .deleteKit kit => finish (AstroPlant.deleteKit e kit)
  | .lastSeen kit member =>
      andThen (Tx.read (KitLastSeen.ofKit kit.id)) fun kitLastSeen =>
        pure (.addMember kit kitLastSeen member)
  | .addMember kit kitLastSeen member => finish (AstroPlant.addMember e kit kitLastSeen member)
  | .createNewConfiguration kit description =>
      finish (AstroPlant.createNewConfiguration e kit description)
  | .cloneModels userId kit source =>
      andThen (getModelsFromKitConfigurationId source) fun r =>
        -- the source's kit needs no further permission when it is the target
        if kit.id ≠ r.1.id then pure (.cloneAuthorize userId kit r.1 r.2)
        else pure (.cloneConfiguration kit r.2)
  | .cloneAuthorize userId kit fromKit source =>
      andThen (authorize userId fromKit .view) fun _ => pure (.cloneConfiguration kit source)
  | .cloneConfiguration kit source => finish (AstroPlant.cloneConfiguration e kit source)
  | .authorizeConfiguration userId kit configuration op =>
      andThen (authorize userId kit .editConfiguration) fun _ =>
        pure (.onConfiguration kit configuration op)
  | .onConfiguration kit configuration op => finish (op.tx x e kit configuration)
  | .authorizePeripheral userId kit configuration peripheral op =>
      andThen (authorize userId kit .editConfiguration) fun _ =>
        pure (.onPeripheral configuration peripheral op)
  | .onPeripheral configuration peripheral op => finish (op.tx x configuration peripheral)
  | .authorizeMedia userId kit id =>
      andThen (authorize userId kit .deleteMedia) fun _ => pure (.deleteMedia id)
  | .deleteMedia id => finish (AstroPlant.deleteMedia e id)

/-- What is left of a task after a step: nothing once it has been answered. -/
def next (r : Except Problem (Task ⊕ Reply)) : Option Task :=
  match r with
  | .ok (.inl task) => some task
  | _ => none

def api (x : Crates) : Program Store Request Env Task where
  entry := .start
  advance e t _ s := some (((t.tx x e).commit s).2, next ((t.tx x e).commit s).1)
  faulty _ := true

/-! ## What a step can do -/

theorem finish_ok {t : Tx Store Problem Reply} {s s' : Store} {n : Task ⊕ Reply}
    (h : (finish t).run s = .ok (n, s')) : ∃ r, t.run s = .ok (r, s') ∧ n = .inr r := by
  obtain ⟨r, s₁, h₁, h⟩ := Tx.run_bind_ok.mp h
  obtain ⟨rfl, rfl⟩ := Tx.run_pure_ok.mp h
  exact ⟨r, h₁, rfl⟩

theorem andThen_ok {α : Type} {t : Tx Store Problem α} {next : α → Tx Store Problem Task}
    {s s' : Store} {n : Task ⊕ Reply} (h : (andThen t next).run s = .ok (n, s')) :
    ∃ a s₁ task, t.run s = .ok (a, s₁) ∧ (next a).run s₁ = .ok (task, s') ∧ n = .inl task := by
  obtain ⟨a, s₁, h₁, h⟩ := Tx.run_bind_ok.mp h
  obtain ⟨task, s₂, h₂, h⟩ := Tx.run_bind_ok.mp h
  obtain ⟨rfl, rfl⟩ := Tx.run_pure_ok.mp h
  exact ⟨a, s₁, task, h₁, h₂, rfl⟩

theorem finish_not_inl {t : Tx Store Problem Reply} {s s' : Store} {task : Task} :
    ¬(finish t).run s = .ok (.inl task, s') := by
  intro h
  obtain ⟨_, -, hn⟩ := finish_ok h
  cases hn

theorem andThen_not_inr {α : Type} {t : Tx Store Problem α} {next : α → Tx Store Problem Task}
    {s s' : Store} {r : Reply} : ¬(andThen t next).run s = .ok (.inr r, s') := by
  intro h
  obtain ⟨_, _, _, -, -, hn⟩ := andThen_ok h
  cases hn

/-- Everything one step of the task `t` can do to the store. For the steps that
act on rows read earlier, `t` is what holds these rows. -/
inductive Change (t : Task) (s : Store) : Store → Prop where
  | nothing : Change t s s
  | createKit (userId : Int) (new : NewKit) (now : Timestamp)
      (hserial : ∀ k ∈ s.kits, k.serial ≠ new.serial) :
      Change t s ((founder userId s.kits.next now).insert (new.insert now s))
  | updateKit (u : UpdateKit) (now : Timestamp) : Change t s (u.applyTo now s)
  | deleteKit (id : Int) (now : Timestamp) (s₁ : Store)
      (hqueue : (queueMedia now fun m => m.kitId = id).run s = .ok ((), s₁)) :
      Change t s (s₁.remove (s₁.doomed (·.id = id) (fun _ => false) fun _ => false))
  | addMember (new : NewKitMembership)
      (hnew : KitMembership.byUserIdAndKitId new.userId new.kitId s = none) :
      Change t s (new.insert s)
  | patchKitMembership (m : KitMembership) (accessSuper accessConfigure : Bool)
      (hm : KitMembership.byId m.id s = some m)
      (hguard : m.accessSuper = true → accessSuper = false →
        2 ≤ KitMembership.superCount m.kitId s) :
      Change t s (KitMembership.updateAccess m.id accessSuper accessConfigure s)
  | deleteKitMembership (m : KitMembership) (hm : KitMembership.byId m.id s = some m)
      (hguard : m.accessSuper = true → 2 ≤ KitMembership.superCount m.kitId s) :
      Change t s (KitMembership.deleteFrom m.id s)
  | createConfiguration (new : NewKitConfiguration) (now : Timestamp)
      (hkit : (Kit.byId new.kitId s).isSome = true) : Change t s (new.insert now s)
  | cloneConfiguration (kit : Kit) (source : KitConfiguration) (now : Timestamp)
      (hkit : (Kit.byId kit.id s).isSome = true) :
      Change t s (Peripheral.cloneAll source.id kit.id s.kitConfigurations.next
        ((cloneOf kit source).insert now s))
  | patchConfiguration (kit : Kit) (c : KitConfiguration) (patch : KitConfigurationPatch)
      (now : Timestamp) (s₁ : Store) (ht : t = .onConfiguration kit c (.patch patch))
      (hfrozen : c.neverUsed = true ∨ patch.changesController = false)
      (hs₁ : s₁ = s ∨ s₁ = KitConfiguration.deactivateAll kit.id now s) :
      Change t s ((patch.update c.id).applyTo now s₁)
  | deleteConfiguration (id : Int) (now : Timestamp) (s₁ : Store)
      (hqueue : (queueMedia now fun m => m.kitConfigurationId = id).run s = .ok ((), s₁)) :
      Change t s (s₁.remove (s₁.doomed (fun _ => false) (·.id = id) fun _ => false))
  | addPeripheral (kit : Kit) (c : KitConfiguration) (body : PeripheralBody)
      (new : NewPeripheral) (ht : t = .onConfiguration kit c (.addPeripheral body))
      (hnever : c.neverUsed = true) (hkit : new.kitId = kit.id)
      (hconfiguration : new.kitConfigurationId = c.id) : Change t s (new.insert s)
  | patchPeripheral (c : KitConfiguration) (p : Peripheral) (patch : PeripheralPatch)
      (u : UpdatePeripheral) (ht : t = .onPeripheral c p (.patch patch))
      (hnever : c.neverUsed = true) (hid : u.id = p.id) : Change t s (u.applyTo s)
  | deletePeripheral (c : KitConfiguration) (p : Peripheral)
      (ht : t = .onPeripheral c p .delete) (hnever : c.neverUsed = true) :
      Change t s (s.remove (s.doomed (fun _ => false) (fun _ => false) (·.id = p.id)))
  | deleteMedia (id : Uuid) (now : Timestamp) (s₁ : Store)
      (hqueue : (queueMedia now fun m => m.id = id).run s = .ok ((), s₁)) : Change t s s₁

theorem permitted_ok {userId : Option Int} {kitSerial : String} {action : KitAction}
    {next : Kit → Tx Store Problem Task} {s s' : Store} {n : Task ⊕ Reply}
    (h : (permitted userId kitSerial action next).run s = .ok (n, s')) :
    ∃ kit task, Kit.bySerial kitSerial s = some kit
      ∧ action.permitted (.ofModels (userId.bind (User.byId · s))
          (membershipOf userId kit.id s)) kit = true
      ∧ (next kit).run s = .ok (task, s') ∧ n = .inl task := by
  obtain ⟨r, s₁, task, h₁, h₂, rfl⟩ := andThen_ok h
  obtain ⟨rfl, hkit, hperm⟩ := futKitPermissionOrForbidden_ok h₁
  exact ⟨r.2.2, task, hkit, hperm, h₂, rfl⟩

/-- The first step of a request: only the three membership requests that are a
single transaction write. -/
theorem Request.tx_change {x : Crates} {e : Env} {r : Request} {s s' : Store}
    {n : Task ⊕ Reply} (h : (r.tx x e).run s = .ok (n, s')) : Change (.start r) s s' := by
  cases r with
  | createKit userId kit =>
      obtain ⟨_, h, -⟩ := finish_ok h
      obtain ⟨new, hserial, rfl⟩ := createKit_ok h
      exact .createKit userId new e.now hserial
  | patchKitMembership userId id patch =>
      obtain ⟨_, h, -⟩ := finish_ok h
      obtain ⟨m, kit, hm, hkit, -, hguard, rfl⟩ := patchKitMembership_ok h
      obtain ⟨-, rfl⟩ := KitMembership.mem_of_byId hm
      rw [(Kit.mem_of_byId hkit).2] at hguard
      exact .patchKitMembership m patch.accessSuper patch.accessConfigure hm hguard
  | deleteKitMembership userId id =>
      obtain ⟨_, h, -⟩ := finish_ok h
      obtain ⟨m, kit, hm, hkit, -, hguard, rfl⟩ := deleteKitMembership_ok h
      obtain ⟨-, rfl⟩ := KitMembership.mem_of_byId hm
      rw [(Kit.mem_of_byId hkit).2] at hguard
      exact .deleteKitMembership m hm hguard
  | patchKit _ _ _ | resetPassword _ _ | deleteKit _ _ | addMember _ _ _ =>
      unfold Request.tx at h
      obtain ⟨kit, task, -, -, h, -⟩ := permitted_ok h
      obtain ⟨-, rfl⟩ := Tx.run_pure_ok.mp h
      exact .nothing
  | createConfiguration userId kitSerial configuration source =>
      unfold Request.tx at h
      obtain ⟨kit, task, -, -, h, -⟩ := permitted_ok h
      cases configuration <;> cases source
      · cases h
      · obtain ⟨-, rfl⟩ := Tx.run_pure_ok.mp h
        exact .nothing
      · obtain ⟨-, rfl⟩ := Tx.run_pure_ok.mp h
        exact .nothing
      · cases h
  | onConfiguration userId id op =>
      obtain ⟨m, s₁, task, h₁, h, -⟩ := andThen_ok h
      obtain ⟨rfl, -⟩ := getModelsFromKitConfigurationId_ok h₁
      obtain ⟨-, rfl⟩ := Tx.run_pure_ok.mp h
      exact .nothing
  | onPeripheral userId id op =>
      obtain ⟨m, s₁, task, h₁, h, -⟩ := andThen_ok h
      obtain ⟨rfl, -⟩ := getModelsFromPeripheralId_ok h₁
      obtain ⟨-, rfl⟩ := Tx.run_pure_ok.mp h
      exact .nothing
  | deleteMedia userId id =>
      obtain ⟨kit, s₁, task, h₁, h, -⟩ := andThen_ok h
      obtain ⟨-, rfl⟩ := Tx.run_read_ok.mp h₁
      obtain ⟨kit', -, h⟩ := Tx.run_ofOption_bind_ok.mp h
      obtain ⟨-, rfl⟩ := Tx.run_pure_ok.mp h
      exact .nothing

theorem ConfigurationOp.tx_change {x : Crates} {e : Env} {kit : Kit}
    {configuration : KitConfiguration} {op : ConfigurationOp} {s s' : Store} {r : Reply}
    (h : (op.tx x e kit configuration).run s = .ok (r, s')) :
    Change (.onConfiguration kit configuration op) s s' := by
  cases op with
  | patch change =>
      obtain ⟨hfrozen, s₁, hs₁, -, rfl⟩ := patchConfiguration_ok h
      exact .patchConfiguration kit configuration change e.now s₁ rfl hfrozen hs₁
  | delete =>
      obtain ⟨s₁, hqueue, rfl⟩ := deleteConfiguration_ok h
      exact .deleteConfiguration configuration.id e.now s₁ hqueue
  | addPeripheral peripheral =>
      obtain ⟨hnever, new, -, hkit, hconf, -, -, -, -, rfl⟩ := addPeripheralToConfiguration_ok h
      exact .addPeripheral kit configuration peripheral new rfl hnever hkit hconf

theorem PeripheralOp.tx_change {x : Crates} {configuration : KitConfiguration}
    {peripheral : Peripheral} {op : PeripheralOp} {s s' : Store} {r : Reply}
    (h : (op.tx x configuration peripheral).run s = .ok (r, s')) :
    Change (.onPeripheral configuration peripheral op) s s' := by
  cases op with
  | patch change =>
      obtain ⟨hnever, u, -, hid, -, -, -, -, rfl⟩ := patchPeripheral_ok h
      exact .patchPeripheral configuration peripheral change u rfl hnever hid
  | delete =>
      obtain ⟨hnever, rfl⟩ := deletePeripheral_ok h
      exact .deletePeripheral configuration peripheral rfl hnever

/-- **Every committed step of a request is one of the listed changes.** -/
theorem Task.tx_change {x : Crates} {e : Env} {t : Task} {s s' : Store} {n : Task ⊕ Reply}
    (h : (t.tx x e).run s = .ok (n, s')) : Change t s s' := by
  cases t with
  | start request => exact Request.tx_change h
  | patchKit kit patch =>
      obtain ⟨_, h, -⟩ := finish_ok h
      obtain ⟨u, -, rfl⟩ := patchKit_ok h
      exact .updateKit u e.now
  | resetPassword kit =>
      obtain ⟨_, h, -⟩ := finish_ok h
      obtain ⟨u, -, rfl⟩ := resetPassword_ok h
      exact .updateKit u e.now
  | deleteKit kit =>
      obtain ⟨_, h, -⟩ := finish_ok h
      obtain ⟨s₁, hqueue, rfl⟩ := deleteKit_ok h
      exact .deleteKit kit.id e.now s₁ hqueue
  | lastSeen kit member =>
      obtain ⟨l, s₁, task, h₁, h, -⟩ := andThen_ok h
      obtain ⟨-, rfl⟩ := Tx.run_read_ok.mp h₁
      obtain ⟨-, rfl⟩ := Tx.run_pure_ok.mp h
      exact .nothing
  | addMember kit kitLastSeen member =>
      obtain ⟨_, h, -⟩ := finish_ok h
      rcases addMember_ok h with rfl | ⟨user, -, -, hnew, rfl⟩
      · exact .nothing
      · exact .addMember _ hnew
  | createNewConfiguration kit description =>
      obtain ⟨_, h, -⟩ := finish_ok h
      obtain ⟨hkit, rfl⟩ := createNewConfiguration_ok h
      exact .createConfiguration _ e.now hkit
  | cloneModels userId kit source =>
      obtain ⟨m, s₁, task, h₁, h, -⟩ := andThen_ok h
      obtain ⟨rfl, -⟩ := getModelsFromKitConfigurationId_ok h₁
      split at h
      · obtain ⟨-, rfl⟩ := Tx.run_pure_ok.mp h
        exact .nothing
      · obtain ⟨-, rfl⟩ := Tx.run_pure_ok.mp h
        exact .nothing
  | cloneConfiguration kit source =>
      obtain ⟨_, h, -⟩ := finish_ok h
      obtain ⟨hkit, rfl⟩ := cloneConfiguration_ok h
      exact .cloneConfiguration kit source e.now hkit
  | onConfiguration kit configuration op =>
      obtain ⟨_, h, -⟩ := finish_ok h
      exact ConfigurationOp.tx_change h
  | onPeripheral configuration peripheral op =>
      obtain ⟨_, h, -⟩ := finish_ok h
      exact PeripheralOp.tx_change h
  | cloneAuthorize _ _ _ _ | authorizeConfiguration _ _ _ _ | authorizePeripheral _ _ _ _ _
  | authorizeMedia _ _ _ =>
      obtain ⟨m, s₁, task, h₁, h, -⟩ := andThen_ok h
      obtain ⟨rfl, -⟩ := authorize_ok h₁
      obtain ⟨-, rfl⟩ := Tx.run_pure_ok.mp h
      exact .nothing
  | deleteMedia id =>
      obtain ⟨_, h, -⟩ := finish_ok h
      obtain ⟨_, s₁, h₁, h⟩ := Tx.run_bind_ok.mp h
      obtain ⟨-, rfl⟩ := Tx.run_pure_ok.mp h
      exact .deleteMedia id e.now s₁ (run_db_ok.mp h₁)

/-- Up to its last step, a request only reads. -/
theorem Task.tx_inl {x : Crates} {e : Env} {t t' : Task} {s s' : Store}
    (h : (t.tx x e).run s = .ok (.inl t', s')) : s' = s := by
  cases t with
  | start r =>
      cases r with
      | createKit _ _ | patchKitMembership _ _ _ | deleteKitMembership _ _ =>
          exact absurd h finish_not_inl
      | patchKit _ _ _ | resetPassword _ _ | deleteKit _ _ | addMember _ _ _ =>
          unfold Task.tx Request.tx at h
          obtain ⟨kit, task, -, -, h, -⟩ := permitted_ok h
          exact (Tx.run_pure_ok.mp h).2.symm
      | createConfiguration userId kitSerial configuration source =>
          unfold Task.tx Request.tx at h
          obtain ⟨kit, task, -, -, h, -⟩ := permitted_ok h
          cases configuration <;> cases source
          · cases h
          · exact (Tx.run_pure_ok.mp h).2.symm
          · exact (Tx.run_pure_ok.mp h).2.symm
          · cases h
      | onConfiguration userId id op =>
          obtain ⟨m, s₁, task, h₁, h, -⟩ := andThen_ok h
          obtain ⟨rfl, -⟩ := getModelsFromKitConfigurationId_ok h₁
          exact (Tx.run_pure_ok.mp h).2.symm
      | onPeripheral userId id op =>
          obtain ⟨m, s₁, task, h₁, h, -⟩ := andThen_ok h
          obtain ⟨rfl, -⟩ := getModelsFromPeripheralId_ok h₁
          exact (Tx.run_pure_ok.mp h).2.symm
      | deleteMedia userId id =>
          obtain ⟨kit, s₁, task, h₁, h, -⟩ := andThen_ok h
          obtain ⟨-, rfl⟩ := Tx.run_read_ok.mp h₁
          obtain ⟨kit', -, h⟩ := Tx.run_ofOption_bind_ok.mp h
          exact (Tx.run_pure_ok.mp h).2.symm
  | lastSeen kit member =>
      obtain ⟨l, s₁, task, h₁, h, -⟩ := andThen_ok h
      obtain ⟨-, rfl⟩ := Tx.run_read_ok.mp h₁
      exact (Tx.run_pure_ok.mp h).2.symm
  | cloneModels userId kit source =>
      obtain ⟨m, s₁, task, h₁, h, -⟩ := andThen_ok h
      obtain ⟨rfl, -⟩ := getModelsFromKitConfigurationId_ok h₁
      split at h <;> exact (Tx.run_pure_ok.mp h).2.symm
  | cloneAuthorize _ _ _ _ | authorizeConfiguration _ _ _ _ | authorizePeripheral _ _ _ _ _
  | authorizeMedia _ _ _ =>
      obtain ⟨m, s₁, task, h₁, h, -⟩ := andThen_ok h
      obtain ⟨rfl, -⟩ := authorize_ok h₁
      exact (Tx.run_pure_ok.mp h).2.symm
  | patchKit _ _ | resetPassword _ | deleteKit _ | addMember _ _ _
  | createNewConfiguration _ _ | cloneConfiguration _ _ | onConfiguration _ _ _
  | onPeripheral _ _ _ | deleteMedia _ => exact absurd h finish_not_inl

/-- A step of the program either fails, which leaves the store as it was and
ends the request, or commits. -/
theorem api_advance {x : Crates} {e : Env} {t : Task} {ts : List Task} {s s' : Store}
    {k : Option Task} (h : (api x).advance e t ts s = some (s', k)) :
    (s' = s ∧ k = none)
      ∨ ∃ n, (t.tx x e).run s = .ok (n, s') ∧ k = next (.ok n) := by
  simp only [api, Option.some.injEq, Prod.mk.injEq] at h
  obtain ⟨rfl, rfl⟩ := h
  rcases Tx.commit_cases (t.tx x e) s with ⟨p, hc⟩ | ⟨n, s₁, hr, hc⟩
  · rw [hc]
    exact Or.inl ⟨rfl, rfl⟩
  · rw [hc]
    exact Or.inr ⟨n, hr, rfl⟩

theorem api_change {x : Crates} {e : Env} {t : Task} {ts : List Task} {s s' : Store}
    {k : Option Task} (h : (api x).advance e t ts s = some (s', k)) : Change t s s' := by
  rcases api_advance h with ⟨rfl, -⟩ | ⟨n, hr, -⟩
  · exact .nothing
  · exact Task.tx_change hr

/-! ## What is left of a task -/

/-- The task acts on a configuration or a peripheral that it has read. -/
def Task.onRow : Task → Bool
  | .authorizeConfiguration _ _ _ _ | .onConfiguration _ _ _ => true
  | .authorizePeripheral _ _ _ _ _ | .onPeripheral _ _ _ => true
  | _ => false

/-- What is left of a task after a step in the store `s`: the rows that it acts on
were in the store when they were read, and are kept from then on. -/
inductive Follows (s : Store) : Task → Task → Prop where
  | readConfiguration (userId : Option Int) (kit : Kit) (c : KitConfiguration)
      (op : ConfigurationOp) (hc : c ∈ s.kitConfigurations) (hkit : kit.id = c.kitId) :
      Follows s (.start (.onConfiguration userId c.id op))
        (.authorizeConfiguration userId kit c op)
  | authorizedConfiguration (userId : Option Int) (kit : Kit) (c : KitConfiguration)
      (op : ConfigurationOp) :
      Follows s (.authorizeConfiguration userId kit c op) (.onConfiguration kit c op)
  | readPeripheral (userId : Option Int) (kit : Kit) (c : KitConfiguration) (p : Peripheral)
      (op : PeripheralOp) (hp : p ∈ s.peripherals) (hc : c.id = p.kitConfigurationId) :
      Follows s (.start (.onPeripheral userId p.id op)) (.authorizePeripheral userId kit c p op)
  | authorizedPeripheral (userId : Option Int) (kit : Kit) (c : KitConfiguration)
      (p : Peripheral) (op : PeripheralOp) :
      Follows s (.authorizePeripheral userId kit c p op) (.onPeripheral c p op)
  | other (t t' : Task) (ht : t'.onRow = false) : Follows s t t'

theorem Task.tx_follows {x : Crates} {e : Env} {t t' : Task} {s s' : Store}
    (h : (t.tx x e).run s = .ok (.inl t', s')) : Follows s t t' := by
  cases t with
  | start r =>
      cases r with
      | onConfiguration userId id op =>
          obtain ⟨⟨kit, c⟩, s₁, task, h₁, h, htask⟩ := andThen_ok h
          obtain ⟨rfl, hc, hkit⟩ := getModelsFromKitConfigurationId_ok h₁
          obtain ⟨rfl, rfl⟩ := Tx.run_pure_ok.mp h
          cases htask
          obtain ⟨hmem, rfl⟩ := KitConfiguration.mem_of_byId hc
          exact .readConfiguration userId kit c op hmem (Kit.mem_of_byId hkit).2
      | onPeripheral userId id op =>
          obtain ⟨⟨kit, c, p⟩, s₁, task, h₁, h, htask⟩ := andThen_ok h
          obtain ⟨rfl, hp, -, hc⟩ := getModelsFromPeripheralId_ok h₁
          obtain ⟨rfl, rfl⟩ := Tx.run_pure_ok.mp h
          cases htask
          obtain ⟨hmem, rfl⟩ := Peripheral.mem_of_byId hp
          exact .readPeripheral userId kit c p op hmem (KitConfiguration.mem_of_byId hc).2
      | createKit _ _ | patchKitMembership _ _ _ | deleteKitMembership _ _ =>
          exact absurd h finish_not_inl
      | patchKit _ _ _ | resetPassword _ _ | deleteKit _ _ | addMember _ _ _ =>
          unfold Task.tx Request.tx at h
          obtain ⟨kit, task, -, -, h, htask⟩ := permitted_ok h
          obtain ⟨rfl, -⟩ := Tx.run_pure_ok.mp h
          cases htask
          exact .other _ _ rfl
      | createConfiguration userId kitSerial configuration source =>
          unfold Task.tx Request.tx at h
          obtain ⟨kit, task, -, -, h, htask⟩ := permitted_ok h
          cases configuration <;> cases source
          · cases h
          · obtain ⟨rfl, -⟩ := Tx.run_pure_ok.mp h
            cases htask
            exact .other _ _ rfl
          · obtain ⟨rfl, -⟩ := Tx.run_pure_ok.mp h
            cases htask
            exact .other _ _ rfl
          · cases h
      | deleteMedia userId id =>
          obtain ⟨kit, s₁, task, h₁, h, htask⟩ := andThen_ok h
          obtain ⟨kit', -, h⟩ := Tx.run_ofOption_bind_ok.mp h
          obtain ⟨rfl, -⟩ := Tx.run_pure_ok.mp h
          cases htask
          exact .other _ _ rfl
  | authorizeConfiguration userId kit configuration op =>
      obtain ⟨m, s₁, task, -, h, htask⟩ := andThen_ok h
      obtain ⟨rfl, -⟩ := Tx.run_pure_ok.mp h
      cases htask
      exact .authorizedConfiguration userId kit configuration op
  | authorizePeripheral userId kit configuration peripheral op =>
      obtain ⟨m, s₁, task, -, h, htask⟩ := andThen_ok h
      obtain ⟨rfl, -⟩ := Tx.run_pure_ok.mp h
      cases htask
      exact .authorizedPeripheral userId kit configuration peripheral op
  | cloneModels userId kit source =>
      obtain ⟨m, s₁, task, -, h, htask⟩ := andThen_ok h
      split at h
      · obtain ⟨rfl, -⟩ := Tx.run_pure_ok.mp h
        cases htask
        exact .other _ _ rfl
      · obtain ⟨rfl, -⟩ := Tx.run_pure_ok.mp h
        cases htask
        exact .other _ _ rfl
  | lastSeen _ _ | cloneAuthorize _ _ _ _ | authorizeMedia _ _ _ =>
      obtain ⟨m, s₁, task, -, h, htask⟩ := andThen_ok h
      obtain ⟨rfl, -⟩ := Tx.run_pure_ok.mp h
      cases htask
      exact .other _ _ rfl
  | patchKit _ _ | resetPassword _ | deleteKit _ | addMember _ _ _
  | createNewConfiguration _ _ | cloneConfiguration _ _ | onConfiguration _ _ _
  | onPeripheral _ _ _ | deleteMedia _ => exact absurd h finish_not_inl

end AstroPlant
