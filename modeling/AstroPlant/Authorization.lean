import AstroPlant.KitModel

/-!
# Authorization on kits

Who may do what to a kit, and the two helpers through which every handler asks:
one that looks the kit up by its serial in a transaction of its own, and one
that is run inside the handler's transaction on a kit already read.

The table of permissions is one function of the action, the user and the kit
(`permitted`), and nothing in it depends on time. The two helpers differ in what
else they can answer: the first may find no kit and no user, the second has the
kit already. Each is inverted once, by what was found and that it permits
(`futKitPermissionOrForbidden_ok`, `kitPermissionOrForbidden_ok`); of the first
it is also said when it succeeds, and with which two problems it fails.
-/

namespace AstroPlant

inductive KitAction where
  | view
  | subscribeRealTimeMeasurements
  | delete
  | deleteMedia
  | resetPassword
  | editDetails
  | editConfiguration
  | editMembers
  | editSuperMembers
  | rpcVersion
  | rpcUptime
  | rpcPeripheralCommand
  | rpcPeripheralCommandLock
deriving DecidableEq

inductive KitUser where
  | anonymous
  | user (user : User)
  | userWithMembership (user : User) (membership : KitMembership)
deriving DecidableEq

namespace KitUser

/-- A membership counts only together with its user. -/
def ofModels : Option User → Option KitMembership → KitUser
  | none, _ => .anonymous
  | some actor, none => .user actor
  | some actor, some membership => .userWithMembership actor membership

def toModels : KitUser → Option User × Option KitMembership
  | .anonymous => (none, none)
  | .user actor => (some actor, none)
  | .userWithMembership actor membership => (some actor, some membership)

end KitUser

namespace KitAction

def permitted (action : KitAction) (user : KitUser) (kit : Kit) : Bool :=
  match user with
  | .anonymous | .user _ =>
      match action with
      | .view | .subscribeRealTimeMeasurements => kit.privacyPublicDashboard
      | _ => false
  | .userWithMembership _ membership =>
      match action with
      | .view | .subscribeRealTimeMeasurements => true
      | .editDetails | .editConfiguration | .deleteMedia =>
          membership.accessConfigure || membership.accessSuper
      | .delete | .resetPassword | .editMembers | .editSuperMembers => membership.accessSuper
      | .rpcVersion | .rpcUptime | .rpcPeripheralCommand | .rpcPeripheralCommandLock =>
          membership.accessSuper

/-- The actions that look without touching: all that a public kit allows to
everybody. -/
def readOnly : KitAction → Bool
  | .view | .subscribeRealTimeMeasurements => true
  | _ => false

/-- Whatever changes a kit or commands it takes a membership with an access
flag. -/
theorem permitted_of_not_readOnly {action : KitAction} {user : KitUser} {kit : Kit}
    (hro : action.readOnly = false) (h : action.permitted user kit = true) :
    ∃ u m, user = .userWithMembership u m
      ∧ (m.accessSuper = true ∨ m.accessConfigure = true) := by
  cases user with
  | anonymous => cases action <;> simp [permitted, readOnly] at h hro
  | user u => cases action <;> simp [permitted, readOnly] at h hro
  | userWithMembership u m =>
      refine ⟨u, m, rfl, ?_⟩
      cases action <;> simp_all [permitted, readOnly, or_comm]

end KitAction

/-! ## The helpers -/

def permissionOrForbidden (permitted : Bool) : Tx Store Problem Unit :=
  Tx.ensure permitted .FORBIDDEN

/-- The membership of a user, if there is a user. -/
def membershipOf (userId : Option Int) (kitId : Int) (s : Store) : Option KitMembership :=
  userId.bind fun userId => KitMembership.byUserIdAndKitId userId kitId s

/-- The acting user's row; `NOT_FOUND` when a user id is given and there is no
such user. -/
def actingUser : Option Int → Tx Store Problem (Option User)
  | none => pure none
  | some userId => do
      let user ← Tx.read (User.byId userId)
      let user ← Tx.ofOption .NOT_FOUND user
      return some user

/-- Inside a handler's transaction, for a kit already read. -/
def kitPermissionOrForbidden (userId : Option Int) (kit : Kit) (action : KitAction) :
    Tx Store Problem (Option User × Option KitMembership) := do
  let user ← actingUser userId
  let membership ← Tx.read (membershipOf userId kit.id)
  let kitUser := KitUser.ofModels user membership
  permissionOrForbidden (action.permitted kitUser kit)
  return kitUser.toModels

/-- In a transaction of its own, looking up the kit by its serial. -/
def futKitPermissionOrForbidden (userId : Option Int) (kitSerial : String) (action : KitAction) :
    Tx Store Problem (Option User × Option KitMembership × Kit) := do
  let user ← actingUser userId
  let kit ← Tx.read (Kit.bySerial kitSerial)
  let kit ← Tx.ofOption .NOT_FOUND kit
  let membership ← Tx.read (membershipOf userId kit.id)
  let kitUser := KitUser.ofModels user membership
  permissionOrForbidden (action.permitted kitUser kit)
  return (kitUser.toModels.1, kitUser.toModels.2, kit)

/-- The actor may view the kit, by what the store has of the two. -/
def PermittedToView (userId : Option Int) (kit : Kit) (s : Store) : Prop :=
  KitAction.view.permitted (.ofModels (userId.bind (User.byId · s))
    (membershipOf userId kit.id s)) kit = true

/-- There is a kit with this serial, and the actor, who exists if one is given, may
view it. -/
def ActorMayView (userId : Option Int) (kitSerial : String) (s : Store) : Prop :=
  (∀ id, userId = some id → (User.byId id s).isSome = true)
    ∧ ∃ kit, Kit.bySerial kitSerial s = some kit ∧ PermittedToView userId kit s

/-! ## What they establish -/

theorem actingUser_ok {userId : Option Int} {s s' : Store} {user : Option User}
    (h : (actingUser userId).run s = .ok (user, s')) :
    s = s' ∧ user = userId.bind (User.byId · s) ∧ (userId.isSome → user.isSome) := by
  cases userId with
  | none =>
      obtain ⟨rfl, rfl⟩ := Tx.run_pure_ok.mp h
      exact ⟨rfl, rfl, by simp⟩
  | some id =>
      rw [actingUser, Tx.run_read_bind] at h
      obtain ⟨u, hu, h⟩ := Tx.run_ofOption_bind_ok.mp h
      obtain ⟨rfl, rfl⟩ := Tx.run_pure_ok.mp h
      exact ⟨rfl, hu.symm, by simp⟩

theorem actingUser_of_exists {userId : Option Int} {s : Store}
    (h : ∀ id, userId = some id → (User.byId id s).isSome = true) :
    (actingUser userId).run s = .ok (userId.bind (User.byId · s), s) := by
  cases userId with
  | none => rfl
  | some id =>
      obtain ⟨user, huser⟩ := Option.isSome_iff_exists.mp (h id rfl)
      rw [actingUser, Tx.run_read_bind, huser, Option.bind_some, huser]
      rfl

/-- A granted permission was granted on the state it was asked in, and asking
changes nothing. -/
theorem kitPermissionOrForbidden_ok {userId : Option Int} {kit : Kit} {action : KitAction}
    {s s' : Store} {r : Option User × Option KitMembership}
    (h : (kitPermissionOrForbidden userId kit action).run s = .ok (r, s')) :
    s = s' ∧ action.permitted (.ofModels (userId.bind (User.byId · s))
      (membershipOf userId kit.id s)) kit = true := by
  obtain ⟨user, s₁, h₁, h⟩ := Tx.run_bind_ok.mp h
  obtain ⟨rfl, rfl, -⟩ := actingUser_ok h₁
  rw [Tx.run_read_bind] at h
  obtain ⟨hperm, h⟩ := Tx.run_ensure_bind_ok.mp h
  obtain ⟨-, rfl⟩ := Tx.run_pure_ok.mp h
  exact ⟨rfl, hperm⟩

theorem futKitPermissionOrForbidden_ok {userId : Option Int} {kitSerial : String}
    {action : KitAction} {s s' : Store} {r : Option User × Option KitMembership × Kit}
    (h : (futKitPermissionOrForbidden userId kitSerial action).run s = .ok (r, s')) :
    s = s' ∧ Kit.bySerial kitSerial s = some r.2.2
      ∧ action.permitted (.ofModels (userId.bind (User.byId · s))
          (membershipOf userId r.2.2.id s)) r.2.2 = true := by
  obtain ⟨user, s₁, h₁, h⟩ := Tx.run_bind_ok.mp h
  obtain ⟨rfl, rfl, -⟩ := actingUser_ok h₁
  rw [Tx.run_read_bind] at h
  obtain ⟨kit, hkit, h⟩ := Tx.run_ofOption_bind_ok.mp h
  rw [Tx.run_read_bind] at h
  obtain ⟨hperm, h⟩ := Tx.run_ensure_bind_ok.mp h
  obtain ⟨rfl, rfl⟩ := Tx.run_pure_ok.mp h
  exact ⟨rfl, hkit, hperm⟩

/-- Nothing else stands in the way: an actor who exists, a kit that does, and an
action that is permitted. -/
theorem futKitPermissionOrForbidden_of_permitted {userId : Option Int} {kitSerial : String}
    {action : KitAction} {s : Store} {kit : Kit}
    (hactor : ∀ id, userId = some id → (User.byId id s).isSome = true)
    (hkit : Kit.bySerial kitSerial s = some kit)
    (hpermitted : action.permitted (.ofModels (userId.bind (User.byId · s))
      (membershipOf userId kit.id s)) kit = true) :
    ∃ user membership, (futKitPermissionOrForbidden userId kitSerial action).run s
      = .ok ((user, membership, kit), s) := by
  let actor := KitUser.ofModels (userId.bind (User.byId · s)) (membershipOf userId kit.id s)
  refine ⟨actor.toModels.1, actor.toModels.2,
    Tx.run_bind_ok.mpr ⟨_, s, actingUser_of_exists hactor, ?_⟩⟩
  rw [Tx.run_read_bind]
  refine Tx.run_ofOption_bind_ok.mpr ⟨kit, hkit, ?_⟩
  rw [Tx.run_read_bind]
  exact Tx.run_ensure_bind_ok.mpr ⟨hpermitted, rfl⟩

theorem futKitPermissionOrForbidden_error {userId : Option Int} {kitSerial : String}
    {action : KitAction} {s : Store} {p : Problem}
    (h : (futKitPermissionOrForbidden userId kitSerial action).run s = .error p) :
    p = .NOT_FOUND ∨ p = .FORBIDDEN := by
  have hrest : ∀ user : Option User,
      (do
        let kit ← Tx.read (Kit.bySerial kitSerial)
        let kit ← Tx.ofOption .NOT_FOUND kit
        let membership ← Tx.read (membershipOf userId kit.id)
        let kitUser := KitUser.ofModels user membership
        permissionOrForbidden (action.permitted kitUser kit)
        return (kitUser.toModels.1, kitUser.toModels.2, kit) :
          Tx Store Problem (Option User × Option KitMembership × Kit)).run s = .error p →
      p = .NOT_FOUND ∨ p = .FORBIDDEN := by
    intro user h
    rw [Tx.run_read_bind] at h
    cases hkit : Kit.bySerial kitSerial s with
    | none =>
        rw [hkit] at h
        exact Or.inl (Except.error.inj h).symm
    | some kit =>
        rw [hkit] at h
        cases hperm : action.permitted (.ofModels user (membershipOf userId kit.id s)) kit with
        | true =>
            simp only [Tx.ofOption, pure_bind, Tx.run_read_bind, permissionOrForbidden, hperm] at h
            cases h
        | false =>
            simp only [Tx.ofOption, pure_bind, Tx.run_read_bind, permissionOrForbidden, hperm] at h
            exact Or.inr (Except.error.inj h).symm
  cases userId with
  | none => exact hrest none h
  | some id =>
      cases huser : User.byId id s with
      | none =>
          rw [futKitPermissionOrForbidden, actingUser, bind_assoc, Tx.run_read_bind, huser] at h
          exact Or.inl (Except.error.inj h).symm
      | some user =>
          rw [futKitPermissionOrForbidden, actingUser, bind_assoc, Tx.run_read_bind, huser] at h
          exact hrest (some user) h

end AstroPlant
