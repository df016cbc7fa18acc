import AstroPlant.Authorization
import AstroPlant.MediaModel

/-!
# The kit handlers

The handlers of `controllers/kit` that change the store. A handler is cut where
it awaits the database: each part is one transaction, and what it hands to the
next part is an argument of the next part.

What a handler takes from outside the store is in two records: `Crates`, the
functions of libraries, and `Env`, the time and the random text of the one call.
Both are arguments, so that nothing proved about a handler depends on what they
answer, and an example can be run with functions that are written down. Where the
source asks for permission in a transaction of its own, the handler here starts
after it, with the kit that it was given; where it asks in the transaction that
writes, so does the handler.
-/

namespace AstroPlant

/-- Third-party functions that the handlers call: the conversion of a float to
a decimal, and whether a document is strictly valid for a JSON schema (`none`
when the schema itself does not compile). -/
structure Crates where
  decimalFromF64 : F64 → Option Rat
  strictlyValid : Json → Json → Option Bool

/-- Coordinates are left out, and every document is valid for every schema. -/
def plainCrates : Crates where
  decimalFromF64 _ := none
  strictlyValid _ _ := some true

/-- What the environment decides in a step: the time, and the random strings. -/
structure Env where
  now : Timestamp := 0
  serial : String := ""
  password : String := ""
  passwordHash : String := ""

/-- The body of a successful answer, by the rows it is made of. -/
inductive Reply where
  | empty
  | password (password : String)
  | created (kitSerial password : String)
  | kit (kit : Kit) (lastSeen : Option Timestamp)
  | membership (membership : KitMembership)
  | member (membership : KitMembership) (user : User) (kit : Kit) (lastSeen : Option Timestamp)
  | configuration (configuration : KitConfiguration)
  | peripheral (peripheral : Peripheral)

/-- A statement of the database layer inside a handler. -/
def db {α : Type} (t : Tx Store DieselError α) : Tx Store Problem α := Tx.adapt .ofDiesel t

@[simp] theorem run_db_ok {α : Type} {t : Tx Store DieselError α} {a : α} {s s' : Store} :
    (db t).run s = .ok (a, s') ↔ t.run s = .ok (a, s') := Tx.run_adapt_ok

/-- A check that does not touch the store. -/
def check (c : Except Problem Unit) : Tx Store Problem Unit :=
  Tx.ofExcept c

/-! ## Kits -/

structure CreateKit where
  name : Option String
  description : Option String
  latitude : Option F64
  longitude : Option F64
  privacyPublicDashboard : Bool
  privacyShowOnMap : Bool

/-- The membership of the user who creates a kit. -/
def founder (userId kitId : Int) (now : Timestamp) : NewKitMembership where
  userId
  kitId
  datetimeLinked := now
  accessSuper := true
  accessConfigure := true

def createKit (x : Crates) (e : Env) (userId : Int) (kit : CreateKit) : Tx Store Problem Reply := do
  let newKit : NewKit :=
    { serial := e.serial
      passwordHash := e.passwordHash
      name := kit.name
      description := kit.description
      latitude := kit.latitude.bind x.decimalFromF64
      longitude := kit.longitude.bind x.decimalFromF64
      privacyPublicDashboard := kit.privacyPublicDashboard
      privacyShowOnMap := kit.privacyShowOnMap }
  check (validate newKit.errors)
  let createdKit ← db (newKit.create e.now)
  let _ ← db (founder userId createdKit.id e.now).create
  return .created createdKit.serial e.password

structure KitPatch where
  name : Option (Option String)
  description : Option (Option String)
  latitude : Option (Option F64)
  longitude : Option (Option F64)
  privacyPublicDashboard : Option Bool
  privacyShowOnMap : Option Bool

def patchKit (x : Crates) (e : Env) (kit : Kit) (patch : KitPatch) : Tx Store Problem Reply := do
  let updateKit : UpdateKit :=
    { id := kit.id
      passwordHash := none
      name := patch.name
      description := patch.description
      latitude := patch.latitude.map (·.bind x.decimalFromF64)
      longitude := patch.longitude.map (·.bind x.decimalFromF64)
      privacyPublicDashboard := patch.privacyPublicDashboard
      privacyShowOnMap := patch.privacyShowOnMap }
  let patchedKit ← db (updateKit.update e.now)
  let lastSeen ← Tx.read (KitLastSeen.ofKit patchedKit.id)
  return .kit patchedKit lastSeen

def resetPassword (e : Env) (kit : Kit) : Tx Store Problem Reply := do
  let updateKit := { UpdateKit.unchangedForId kit.id with passwordHash := some e.passwordHash }
  let _ ← db (updateKit.update e.now)
  return .password e.password

/-- `DELETE` by id, with the cascade; a row that is gone is no error. -/
def Kit.delete (id : Int) : Tx Store DieselError Unit :=
  Store.deleteRows (·.id = id) (fun _ => false) fun _ => false

/-- Media belonging to the kit are queued, and everything else of it goes. -/
def deleteKit (e : Env) (kit : Kit) : Tx Store Problem Reply := do
  db (queueMedia e.now fun m => m.kitId = kit.id)
  db (Kit.delete kit.id)
  return .empty

/-! ## Members -/

structure AddMember where
  username : String
  accessConfigure : Bool
  accessSuper : Bool

def AddMember.action (member : AddMember) : KitAction :=
  if member.accessSuper then .editSuperMembers else .editMembers

def AddMember.new (member : AddMember) (userId kitId : Int) (now : Timestamp) :
    NewKitMembership where
  userId
  kitId
  datetimeLinked := now
  accessSuper := member.accessSuper
  accessConfigure := member.accessConfigure

/-- The serializable transaction of `add_member`: an existing membership is
left as it is. -/
def addMember (e : Env) (kit : Kit) (kitLastSeen : Option Timestamp) (member : AddMember) :
    Tx Store Problem Reply := do
  let user ← Tx.read (User.withUsername member.username)
  let user ← Tx.ofOption .NOT_FOUND user
  let existing ← Tx.read (KitMembership.byUserIdAndKitId user.id kit.id)
  match existing with
  | some membership => return .member membership user kit kitLastSeen
  | none =>
      let membership ← db (member.new user.id kit.id e.now).create
      return .member membership user kit kitLastSeen

/-- Taking super access from a member: there must be at least one other member
with super access. -/
def requireOtherSuperMember (kitId : Int) : Tx Store Problem Unit := do
  let membersWithSuperAccess ← Tx.read (KitMembership.superCount kitId)
  Tx.ensure (2 ≤ membersWithSuperAccess) .kitsRequireOneSuperMember

structure KitMembershipPatch where
  accessConfigure : Bool
  accessSuper : Bool

def KitMembershipPatch.action (patch : KitMembershipPatch) (membership : KitMembership) :
    KitAction :=
  if membership.accessSuper ≠ patch.accessSuper then .editSuperMembers else .editMembers

def patchKitMembership (userId : Option Int) (kitMembershipId : Int)
    (patch : KitMembershipPatch) : Tx Store Problem Reply := do
  let membership ← Tx.read (KitMembership.byId kitMembershipId)
  let membership ← Tx.ofOption .NOT_FOUND membership
  let kit ← Tx.read (Kit.byId membership.kitId)
  let kit ← Tx.ofOption .NOT_FOUND kit
  let _ ← kitPermissionOrForbidden userId kit (patch.action membership)
  Tx.onlyIf (membership.accessSuper && !patch.accessSuper) (requireOtherSuperMember kit.id)
  let updated ← db (KitMembership.setAccess membership.id patch.accessSuper patch.accessConfigure)
  return .membership updated

def deleteKitMembership (userId : Option Int) (kitMembershipId : Int) :
    Tx Store Problem Reply := do
  let membership ← Tx.read (KitMembership.byId kitMembershipId)
  let membership ← Tx.ofOption .NOT_FOUND membership
  let kit ← Tx.read (Kit.byId membership.kitId)
  let kit ← Tx.ofOption .NOT_FOUND kit
  let action := if membership.accessSuper then KitAction.editSuperMembers else .editMembers
  let _ ← kitPermissionOrForbidden userId kit action
  Tx.onlyIf membership.accessSuper (requireOtherSuperMember kit.id)
  db (KitMembership.delete membership.id)
  return .empty

/-! ## What the transactions do

One lemma for each, with everything a later proof needs of a run that
committed. -/

theorem requireOtherSuperMember_ok {kitId : Int} {s s' : Store} {u : Unit}
    (h : (requireOtherSuperMember kitId).run s = .ok (u, s')) :
    s = s' ∧ 2 ≤ KitMembership.superCount kitId s := by
  rw [requireOtherSuperMember, Tx.run_read_bind, Tx.run_ensure_ok] at h
  exact ⟨h.2, by simpa using h.1⟩

/-- A kit and its first membership are inserted together. -/
theorem createKit_ok {x : Crates} {e : Env} {userId : Int} {kit : CreateKit} {s s' : Store}
    {r : Reply} (h : (createKit x e userId kit).run s = .ok (r, s')) :
    ∃ new : NewKit, (∀ k ∈ s.kits, k.serial ≠ new.serial)
      ∧ s' = (founder userId s.kits.next e.now).insert (new.insert e.now s) := by
  obtain ⟨_, -, h⟩ := Tx.run_ofExcept_bind_ok.mp h
  obtain ⟨createdKit, s₁, h₁, h⟩ := Tx.run_bind_ok.mp h
  obtain ⟨new, -, rfl, rfl, hserial⟩ := NewKit.create_ok (run_db_ok.mp h₁)
  obtain ⟨_, s₂, h₂, h⟩ := Tx.run_bind_ok.mp h
  obtain ⟨-, -, -, rfl⟩ := NewKitMembership.create_ok (run_db_ok.mp h₂)
  obtain ⟨-, rfl⟩ := Tx.run_pure_ok.mp h
  exact ⟨new, hserial, rfl⟩

/-- What the two handlers that update a kit have in common. -/
theorem patchKit_ok {x : Crates} {e : Env} {kit : Kit} {patch : KitPatch} {s s' : Store}
    {r : Reply} (h : (patchKit x e kit patch).run s = .ok (r, s')) :
    ∃ u : UpdateKit, u.id = kit.id ∧ s' = u.applyTo e.now s := by
  obtain ⟨_, s₁, h₁, h⟩ := Tx.run_bind_ok.mp h
  obtain ⟨u, hid, rfl⟩ := UpdateKit.update_ok (run_db_ok.mp h₁)
  rw [Tx.run_read_bind] at h
  obtain ⟨-, rfl⟩ := Tx.run_pure_ok.mp h
  exact ⟨u, hid, rfl⟩

theorem resetPassword_ok {e : Env} {kit : Kit} {s s' : Store} {r : Reply}
    (h : (resetPassword e kit).run s = .ok (r, s')) :
    ∃ u : UpdateKit, u.id = kit.id ∧ s' = u.applyTo e.now s := by
  obtain ⟨_, s₁, h₁, h⟩ := Tx.run_bind_ok.mp h
  obtain ⟨u, hid, rfl⟩ := UpdateKit.update_ok (run_db_ok.mp h₁)
  obtain ⟨-, rfl⟩ := Tx.run_pure_ok.mp h
  exact ⟨u, hid, rfl⟩

/-- The media are queued first, and the cascade runs on what is left. -/
theorem deleteKit_ok {e : Env} {kit : Kit} {s s' : Store} {r : Reply}
    (h : (deleteKit e kit).run s = .ok (r, s')) :
    ∃ s₁, (queueMedia e.now fun m => m.kitId = kit.id).run s = .ok ((), s₁)
      ∧ s' = s₁.remove (s₁.doomed (·.id = kit.id) (fun _ => false) fun _ => false) := by
  obtain ⟨_, s₁, h₁, h⟩ := Tx.run_bind_ok.mp h
  obtain ⟨_, s₂, h₂, h⟩ := Tx.run_bind_ok.mp h
  obtain ⟨-, rfl⟩ := Tx.run_pure_ok.mp h
  exact ⟨s₁, run_db_ok.mp h₁, (Store.deleteRows_ok (run_db_ok.mp h₂)).1⟩

/-- Either the membership exists and nothing is done, or one is inserted. -/
theorem addMember_ok {e : Env} {kit : Kit} {kitLastSeen : Option Timestamp}
    {member : AddMember} {s s' : Store} {r : Reply}
    (h : (addMember e kit kitLastSeen member).run s = .ok (r, s')) :
    s' = s ∨ ∃ user, User.withUsername member.username s = some user
      ∧ (Kit.byId kit.id s).isSome = true
      ∧ KitMembership.byUserIdAndKitId user.id kit.id s = none
      ∧ s' = (member.new user.id kit.id e.now).insert s := by
  rw [addMember, Tx.run_read_bind] at h
  obtain ⟨user, huser, h⟩ := Tx.run_ofOption_bind_ok.mp h
  rw [Tx.run_read_bind] at h
  cases hexisting : KitMembership.byUserIdAndKitId user.id kit.id s with
  | some membership =>
      rw [hexisting] at h
      obtain ⟨-, rfl⟩ := Tx.run_pure_ok.mp h
      exact Or.inl rfl
  | none =>
      rw [hexisting] at h
      obtain ⟨_, s₁, h₁, h⟩ := Tx.run_bind_ok.mp h
      obtain ⟨-, hkit, -, rfl⟩ := NewKitMembership.create_ok (run_db_ok.mp h₁)
      obtain ⟨-, rfl⟩ := Tx.run_pure_ok.mp h
      exact Or.inr ⟨user, huser, hkit, hexisting, rfl⟩

/-- The guard of the two handlers that can take super access away. -/
theorem guardSuper_ok {c : Bool} {kitId : Int} {s s' : Store} {u : Unit}
    (h : (Tx.onlyIf c (requireOtherSuperMember kitId)).run s = .ok (u, s')) :
    s = s' ∧ (c = true → 2 ≤ KitMembership.superCount kitId s) := by
  rcases Tx.run_onlyIf_ok.mp h with ⟨-, h⟩ | ⟨hc, rfl⟩
  · obtain ⟨rfl, hn⟩ := requireOtherSuperMember_ok h
    exact ⟨rfl, fun _ => hn⟩
  · exact ⟨rfl, fun hc' => by simp [hc] at hc'⟩

/-- What the two handlers that change a membership have in common. -/
theorem onKitMembership_ok {userId : Option Int} {kitMembershipId : Int}
    {action : KitMembership → KitAction} {guarded : KitMembership → Bool}
    {change : KitMembership → Tx Store Problem Reply} {s s' : Store} {r : Reply}
    (h : (do
      let membership ← Tx.read (KitMembership.byId kitMembershipId)
      let membership ← Tx.ofOption .NOT_FOUND membership
      let kit ← Tx.read (Kit.byId membership.kitId)
      let kit ← Tx.ofOption .NOT_FOUND kit
      let _ ← kitPermissionOrForbidden userId kit (action membership)
      Tx.onlyIf (guarded membership) (requireOtherSuperMember kit.id)
      change membership : Tx Store Problem Reply).run s = .ok (r, s')) :
    ∃ m kit, KitMembership.byId kitMembershipId s = some m ∧ Kit.byId m.kitId s = some kit
      ∧ (action m).permitted (.ofModels (userId.bind (User.byId · s))
          (membershipOf userId kit.id s)) kit = true
      ∧ (guarded m = true → 2 ≤ KitMembership.superCount kit.id s)
      ∧ (change m).run s = .ok (r, s') := by
  rw [Tx.run_read_bind] at h
  obtain ⟨m, hm, h⟩ := Tx.run_ofOption_bind_ok.mp h
  rw [Tx.run_read_bind] at h
  obtain ⟨kit, hkit, h⟩ := Tx.run_ofOption_bind_ok.mp h
  obtain ⟨_, s₁, h₁, h⟩ := Tx.run_bind_ok.mp h
  obtain ⟨rfl, hperm⟩ := kitPermissionOrForbidden_ok h₁
  obtain ⟨_, s₂, h₂, h⟩ := Tx.run_bind_ok.mp h
  obtain ⟨rfl, hguard⟩ := guardSuper_ok h₂
  exact ⟨m, kit, hm, hkit, hperm, hguard, h⟩

theorem patchKitMembership_ok {userId : Option Int} {kitMembershipId : Int}
    {patch : KitMembershipPatch} {s s' : Store} {r : Reply}
    (h : (patchKitMembership userId kitMembershipId patch).run s = .ok (r, s')) :
    ∃ m kit, KitMembership.byId kitMembershipId s = some m ∧ Kit.byId m.kitId s = some kit
      ∧ (patch.action m).permitted (.ofModels (userId.bind (User.byId · s))
          (membershipOf userId kit.id s)) kit = true
      ∧ (m.accessSuper = true → patch.accessSuper = false →
          2 ≤ KitMembership.superCount kit.id s)
      ∧ s' = KitMembership.updateAccess m.id patch.accessSuper patch.accessConfigure s := by
  obtain ⟨m, kit, hm, hkit, hperm, hguard, h⟩ := onKitMembership_ok h
  obtain ⟨_, s₁, h₁, h⟩ := Tx.run_bind_ok.mp h
  have hs' := KitMembership.setAccess_ok (run_db_ok.mp h₁)
  obtain ⟨-, rfl⟩ := Tx.run_pure_ok.mp h
  exact ⟨m, kit, hm, hkit, hperm, fun h₁ h₂ => hguard (by simp [h₁, h₂]), hs'⟩

theorem deleteKitMembership_ok {userId : Option Int} {kitMembershipId : Int} {s s' : Store}
    {r : Reply} (h : (deleteKitMembership userId kitMembershipId).run s = .ok (r, s')) :
    ∃ m kit, KitMembership.byId kitMembershipId s = some m ∧ Kit.byId m.kitId s = some kit
      ∧ (if m.accessSuper then KitAction.editSuperMembers else .editMembers).permitted
          (.ofModels (userId.bind (User.byId · s)) (membershipOf userId kit.id s)) kit = true
      ∧ (m.accessSuper = true → 2 ≤ KitMembership.superCount kit.id s)
      ∧ s' = KitMembership.deleteFrom m.id s := by
  obtain ⟨m, kit, hm, hkit, hperm, hguard, h⟩ := onKitMembership_ok h
  obtain ⟨_, s₁, h₁, h⟩ := Tx.run_bind_ok.mp h
  have hs' := KitMembership.delete_ok (run_db_ok.mp h₁)
  obtain ⟨-, rfl⟩ := Tx.run_pure_ok.mp h
  exact ⟨m, kit, hm, hkit, hperm, hguard, hs'⟩

end AstroPlant
