import AstroPlant.Authorization
import AstroPlant.Kits
import AstroPlant.Like

/-!
# Users and their endpoints

Users are looked up by name and by email address with `ILIKE`, the value that is
looked for being the pattern. How the database folds case and in which order it
scans a table are not the program's to say: they are those of a `Postgres`.

A value with `%`, `_` or a backslash in it is therefore more than a name: the
first row that is scanned and matches is the user, whoever it is (`first`). An
email address is checked twice, by the handler with such a lookup and by the
index of the database, which compares the texts as they are. Folding is taken to
be character by character and to keep the special characters apart from the
others (`Postgres`); lower case of ASCII is an instance.
-/

namespace AstroPlant

/-! ## Queries -/

/-- What the lookups take from the database. Folding twice is folding once, and
neither produces nor loses one of the special characters of patterns. -/
structure Postgres where
  lower : Char → Char
  lower_lower : ∀ c, lower (lower c) = lower c
  lower_eq_meta : ∀ c m, Like.isMeta m = true → (lower c = m ↔ c = m)
  scan : List User → List User
  scan_perm : ∀ us, (scan us).Perm us

namespace Postgres

variable (pg : Postgres)

def fold (s : String) : List Char := s.toList.map pg.lower

/-- `text ILIKE pattern`. -/
def ilike (text pattern : String) : Option Bool := like (pg.fold pattern) (pg.fold text)

end Postgres

/-! ASCII case folding is one. -/

theorem toNat_toLower (c : Char) :
    c.toLower.toNat = if 65 ≤ c.toNat ∧ c.toNat ≤ 90 then c.toNat + 32 else c.toNat := by
  have hA : 'A'.val ≤ c.val ↔ 65 ≤ c.toNat := UInt32.le_iff_toNat_le
  have hZ : c.val ≤ 'Z'.val ↔ c.toNat ≤ 90 := UInt32.le_iff_toNat_le
  unfold Char.toLower
  split
  · rename_i h
    have h' := And.intro (hA.mp h.1) (hZ.mp h.2)
    rw [if_pos h']
    show (c.val + ('a'.val - 'A'.val)).toNat = c.toNat + 32
    have hshift : ('a'.val - 'A'.val).toNat = 32 := rfl
    have hcode : c.val.toNat = c.toNat := rfl
    rw [UInt32.toNat_add]
    omega
  · rename_i h
    rw [if_neg fun h' => h ⟨hA.mpr h'.1, hZ.mpr h'.2⟩]

theorem eq_iff_toNat_eq {a b : Char} : a = b ↔ a.toNat = b.toNat :=
  ⟨congrArg _, fun h => Char.ext (UInt32.toNat_inj.mp h)⟩

theorem toLower_toLower (c : Char) : c.toLower.toLower = c.toLower := by
  rw [eq_iff_toNat_eq, toNat_toLower c.toLower, toNat_toLower c]
  by_cases h : 65 ≤ c.toNat ∧ c.toNat ≤ 90
  · rw [if_pos h, if_neg (by omega)]
  · rw [if_neg h, if_neg h]

theorem toLower_eq_meta (c m : Char) (hm : Like.isMeta m = true) : c.toLower = m ↔ c = m := by
  have hcode : m.toNat = 37 ∨ m.toNat = 95 ∨ m.toNat = 92 := by
    simp only [Like.isMeta, Bool.or_eq_true, decide_eq_true_eq] at hm
    rcases hm with (rfl | rfl) | rfl
    · exact Or.inl rfl
    · exact Or.inr (Or.inl rfl)
    · exact Or.inr (Or.inr rfl)
  rw [eq_iff_toNat_eq, eq_iff_toNat_eq, toNat_toLower]
  split <;> omega

/-- Only the letters A to Z are folded, and tables are scanned from the start. -/
def Postgres.ascii : Postgres where
  lower := Char.toLower
  lower_lower := toLower_toLower
  lower_eq_meta := toLower_eq_meta
  scan := id
  scan_perm _ := .refl _

namespace User

/-- `first().optional()` over the rows in the order they are scanned. -/
def first (found : User → Option Bool) : List User → Except DieselError (Option User)
  | [] => .ok none
  | u :: us =>
      match found u with
      | none => .error .databaseError
      | some true => .ok (some u)
      | some false => first found us

def byUsername (pg : Postgres) (username : String) (s : Store) :
    Except DieselError (Option User) :=
  if isStorable username then
    first (fun u => pg.ilike u.username username) (pg.scan s.users.rows)
  else .error .databaseError

def byEmailAddress (pg : Postgres) (emailAddress : String) (s : Store) :
    Except DieselError (Option User) :=
  if isStorable emailAddress then
    first (fun u => pg.ilike u.emailAddress emailAddress) (pg.scan s.users.rows)
  else .error .databaseError

end User

/-! ## Updates -/

structure UpdateUser where
  id : Int
  displayName : Option String
  emailAddress : Option String
  passwordHash : Option String
  useEmailAddressForGravatar : Option Bool

namespace UpdateUser

/-- The bounds that the struct declares; an email address must also look like
one. -/
def errors (validateEmail : String → Bool) (u : UpdateUser) : ValidationErrors :=
  [("display_name", (u.displayName.map (validateLength (some 1) (some 40))).getD []),
   ("email_address", (u.emailAddress.map fun emailAddress =>
      validateLength none (some 255) emailAddress
        ++ if validateEmail emailAddress then [] else [{ code := "email" }]).getD [])]

def isEmpty (u : UpdateUser) : Bool :=
  u.displayName.isNone && u.emailAddress.isNone && u.passwordHash.isNone
    && u.useEmailAddressForGravatar.isNone

/-- The values as the columns hold them. -/
def stored (u : UpdateUser) : Except DieselError UpdateUser := do
  let displayName ← nullable (varchar 40) u.displayName
  let emailAddress ← nullable (varchar 255) u.emailAddress
  let passwordHash ← nullable (varchar 255) u.passwordHash
  return { u with displayName, emailAddress, passwordHash }

/-- The columns that are set, and the trigger's `updated_at`. -/
def apply (u : UpdateUser) (now : Timestamp) (user : User) : User :=
  { user with
    displayName := u.displayName.getD user.displayName
    emailAddress := u.emailAddress.getD user.emailAddress
    passwordHash := u.passwordHash.getD user.passwordHash
    useEmailAddressForGravatar :=
      u.useEmailAddressForGravatar.getD user.useEmailAddressForGravatar
    updatedAt := now }

theorem apply_id (u : UpdateUser) (now : Timestamp) (user : User) :
    (u.apply now user).id = user.id := rfl

def applyTo (u : UpdateUser) (now : Timestamp) (s : Store) : Store :=
  { s with users := s.users.update (·.id = u.id) (u.apply now) (u.apply_id now) }

theorem mem_applyTo {u : UpdateUser} {now : Timestamp} {s : Store} {v : User} :
    v ∈ (u.applyTo now s).users ↔ ∃ v₀ ∈ s.users,
      (if v₀.id = u.id then u.apply now v₀ else v₀) = v := by
  simp [applyTo]

/-- `save_changes`; email addresses are unique. -/
def update (u : UpdateUser) (now : Timestamp) : Tx Store DieselError User :=
  Tx.write fun s =>
    if u.isEmpty then .error .queryBuilderError
    else
      match u.stored with
      | .error e => .error e
      | .ok u =>
          match User.byId u.id s with
          | none => .error .notFound
          | some user =>
              if u.emailAddress.any fun emailAddress =>
                  s.users.rows.any fun v => v.id ≠ u.id ∧ v.emailAddress = emailAddress then
                .error .databaseError
              else .ok (u.apply now user, u.applyTo now s)

theorem stored_id {u u' : UpdateUser} (h : u.stored = .ok u') : u'.id = u.id := by
  simp only [stored, bind, Except.bind] at h
  repeat' split at h
  all_goals cases h
  rfl

theorem update_ok {u : UpdateUser} {now : Timestamp} {s s' : Store} {user : User}
    (h : (u.update now).run s = .ok (user, s')) :
    user.id = u.id ∧ ∃ u' : UpdateUser, u'.id = u.id ∧ s' = u'.applyTo now s := by
  rw [update, Tx.run_write_ok] at h
  split at h
  · cases h
  · split at h
    · cases h
    · rename_i u' hst
      split at h
      · cases h
      · rename_i v hv
        split at h
        · cases h
        · cases h
          have hid : v.id = u'.id := (SerialTable.find?_eq_some.mp hv).2
          exact ⟨hid.trans (stored_id hst), u', stored_id hst, rfl⟩

end UpdateUser

/-! ## Authorization on users -/

inductive UserAction where
  | view
  | listKitMemberships
  | editDetails
deriving DecidableEq

def UserAction.permitted (action : UserAction) (actingUser : Option User) (objectUser : User) :
    Bool :=
  match action with
  | .view | .listKitMemberships => true
  | .editDetails => actingUser.any (· == objectUser)

/-- In a transaction of its own, looking the object user up by name. -/
def futUserPermissionOrForbidden (pg : Postgres) (actorUserId : Option Int)
    (objectUsername : String) (action : UserAction) : Tx Store Problem (Option User × User) := do
  let actorUser ← actingUser actorUserId
  let objectUser ← Tx.read (User.byUsername pg objectUsername)
  let objectUser ← Tx.ofExcept (objectUser.mapError .ofDiesel)
  let objectUser ← Tx.ofOption .NOT_FOUND objectUser
  permissionOrForbidden (action.permitted actorUser objectUser)
  return (actorUser, objectUser)

theorem futUserPermissionOrForbidden_ok {pg : Postgres} {actorUserId : Option Int}
    {objectUsername : String} {action : UserAction} {s s' : Store} {r : Option User × User}
    (h : (futUserPermissionOrForbidden pg actorUserId objectUsername action).run s
      = .ok (r, s')) :
    s = s' ∧ User.byUsername pg objectUsername s = .ok (some r.2)
      ∧ action.permitted r.1 r.2 = true := by
  obtain ⟨actor, s₁, h₁, h⟩ := Tx.run_bind_ok.mp h
  obtain ⟨rfl, -, -⟩ := actingUser_ok h₁
  rw [Tx.run_read_bind] at h
  obtain ⟨found, hfound, h⟩ := Tx.run_ofExcept_bind_ok.mp h
  obtain ⟨object, hobject, h⟩ := Tx.run_ofOption_bind_ok.mp h
  obtain ⟨hperm, h⟩ := Tx.run_ensure_bind_ok.mp h
  obtain ⟨rfl, rfl⟩ := Tx.run_pure_ok.mp h
  rw [hobject] at hfound
  refine ⟨rfl, ?_, hperm⟩
  cases hlookup : User.byUsername pg objectUsername s with
  | error e => simp [hlookup, Except.mapError] at hfound
  | ok found' => simpa [hlookup, Except.mapError] using hfound

/-! ## Endpoints

Each endpoint accesses the database more than once, and each access sees the
store of its time. -/

/-- `views::User`. -/
structure UserView where
  username : String
  displayName : String
  gravatar : String
deriving DecidableEq

def UserView.ofModel (user : User) : UserView where
  username := user.username
  displayName := user.displayName
  gravatar :=
    if user.useEmailAddressForGravatar then user.emailAddress else user.gravatarAlternative

/-- `GET /users/{username}`. -/
def userByUsername (pg : Postgres) (objectUsername : String) (actorUserId : Option Int)
    (s : Store) : Except Problem UserView := do
  let r ← (futUserPermissionOrForbidden pg actorUserId objectUsername .view).run s
  return .ofModel r.1.2

structure UserPatch where
  displayName : Option String
  emailAddress : Option String
  useEmailAddressForGravatar : Option Bool

/-- The email address is not that of another user. -/
def checkEmailAddress (pg : Postgres) (updateUser : UpdateUser) (s : Store) :
    Except Problem Unit :=
  match updateUser.emailAddress with
  | none => .ok ()
  | some emailAddress => do
      let found ← (User.byEmailAddress pg emailAddress s).mapError Problem.ofDiesel
      match found with
      | some userByEmailAddress =>
          if userByEmailAddress.id ≠ updateUser.id then
            .error ((InvalidParameterReason.alreadyExists.singleton "emailAddress").intoProblem)
          else .ok ()
      | none => .ok ()

/-- `PATCH /users/{username}`. -/
def patchUser (pg : Postgres) (validateEmail : String → Bool) (now : Timestamp)
    (objectUsername : String) (actorUserId : Option Int) (userPatch : UserPatch)
    (atPermission atCheck atUpdate : Store) : Except Problem (UserView × Store) := do
  let r ← (futUserPermissionOrForbidden pg actorUserId objectUsername .editDetails).run
    atPermission
  let updateUser : UpdateUser :=
    { id := r.1.2.id
      displayName := userPatch.displayName
      passwordHash := none
      emailAddress := userPatch.emailAddress
      useEmailAddressForGravatar := userPatch.useEmailAddressForGravatar }
  checkEmailAddress pg updateUser atCheck
  validate (updateUser.errors validateEmail)
  let patched ← (db (updateUser.update now)).run atUpdate
  return (.ofModel patched.1, patched.2)

/-- A membership with its kit, and the user it is listed for. -/
structure UserKitMembership where
  membership : KitMembership
  kit : Kit
  kitLastSeen : Option Timestamp
  user : UserView

/-- `GET /users/{username}/kit-memberships`. -/
def listKitMemberships (pg : Postgres) (objectUsername : String) (actorUserId : Option Int)
    (atPermission atList : Store) : Except Problem (List UserKitMembership) := do
  let r ← (futUserPermissionOrForbidden pg actorUserId objectUsername .listKitMemberships).run
    atPermission
  return (atList.kitMemberships.select fun m => m.userId = r.1.2.id).filterMap fun m =>
    (Kit.byId m.kitId atList).map fun kit =>
      ⟨m, kit, KitLastSeen.ofKit kit.id atList, .ofModel r.1.2⟩

/-! ### Whom they act on -/

variable {pg : Postgres} {objectUsername : String} {actorUserId : Option Int}

theorem userByUsername_ok {s : Store} {v : UserView}
    (h : userByUsername pg objectUsername actorUserId s = .ok v) :
    ∃ u, User.byUsername pg objectUsername s = .ok (some u) ∧ v = .ofModel u := by
  obtain ⟨⟨r, s'⟩, hr, h⟩ := bind_ok.mp h
  obtain ⟨-, hlookup, -⟩ := futUserPermissionOrForbidden_ok hr
  exact ⟨r.2, hlookup, (Except.ok.inj h).symm⟩

/-- A patch sets columns of the looked up user's row and of no other, and that
user is the one who asked for it. -/
theorem patchUser_ok {validateEmail : String → Bool} {now : Timestamp} {userPatch : UserPatch}
    {s₁ s₂ s₃ s' : Store} {v : UserView}
    (h : patchUser pg validateEmail now objectUsername actorUserId userPatch s₁ s₂ s₃
      = .ok (v, s')) :
    ∃ u, User.byUsername pg objectUsername s₁ = .ok (some u)
      ∧ ∃ update : UpdateUser, update.id = u.id ∧ s' = update.applyTo now s₃ := by
  obtain ⟨⟨r, s'⟩, hr, h⟩ := bind_ok.mp h
  obtain ⟨-, hlookup, -⟩ := futUserPermissionOrForbidden_ok hr
  obtain ⟨_, -, h⟩ := bind_ok.mp h
  obtain ⟨_, -, h⟩ := bind_ok.mp h
  obtain ⟨⟨patched, s''⟩, hpatched, h⟩ := bind_ok.mp h
  obtain ⟨-, update, hid, rfl⟩ := UpdateUser.update_ok (run_db_ok.mp hpatched)
  obtain ⟨-, rfl⟩ := Prod.mk.inj (Except.ok.inj h)
  exact ⟨r.2, hlookup, update, hid, rfl⟩

theorem listKitMemberships_ok {s₁ s₂ : Store} {ms : List UserKitMembership}
    (h : listKitMemberships pg objectUsername actorUserId s₁ s₂ = .ok ms) :
    ∃ u, User.byUsername pg objectUsername s₁ = .ok (some u)
      ∧ ∀ m ∈ ms, m.membership.userId = u.id ∧ m.user = .ofModel u := by
  obtain ⟨⟨r, s'⟩, hr, h⟩ := bind_ok.mp h
  obtain ⟨-, hlookup, -⟩ := futUserPermissionOrForbidden_ok hr
  refine ⟨r.2, hlookup, fun m hm => ?_⟩
  rw [← Except.ok.inj h] at hm
  obtain ⟨membership, hmem, hm⟩ := List.mem_filterMap.mp hm
  obtain ⟨kit, -, rfl⟩ := Option.map_eq_some_iff.mp hm
  exact ⟨by simpa using (SerialTable.mem_select.mp hmem).2, rfl⟩

end AstroPlant
