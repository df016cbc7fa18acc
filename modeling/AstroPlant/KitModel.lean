import AstroPlant.Schema

/-!
# Kits and their memberships: the statements

The queries and statements on users, kits and kit memberships that the handlers
use. Every statement that writes has one lemma that says what a successful run
of it did; nothing outside this file unfolds a statement.

Text goes into columns of bounded length, and a statement fails as a whole if one
of its values does not fit (`NewKit.stored`, `UpdateKit.stored`), whether or not
it has been validated before. A statement reads one store and hands back another:
what it returns to the handler are the rows as they are after it, as the
database's `RETURNING` has it.
-/

namespace AstroPlant

namespace User

def byId (id : Int) (s : Store) : Option User := s.users.find? id

/-- The user with exactly this username; usernames are unique. -/
def withUsername (username : String) (s : Store) : Option User :=
  s.users.rows.find? (·.username = username)

end User

namespace KitLastSeen

def ofKit (kitId : Int) (s : Store) : Option Timestamp :=
  (s.kitLastSeen.find? kitId).map (·.datetimeLastSeen)

end KitLastSeen

/-! ## Kits -/

namespace Kit

def byId (id : Int) (s : Store) : Option Kit := s.kits.find? id

def bySerial (serial : String) (s : Store) : Option Kit :=
  s.kits.rows.find? (·.serial = serial)

theorem mem_of_byId {id : Int} {s : Store} {k : Kit} (h : byId id s = some k) :
    k ∈ s.kits ∧ k.id = id :=
  SerialTable.find?_eq_some.mp h

end Kit

/-- A kit to insert. The serial and the password hash are drawn at random by
`new_with_generated_password`. -/
structure NewKit where
  serial : String
  passwordHash : String
  name : Option String
  description : Option String
  latitude : Option Rat
  longitude : Option Rat
  privacyPublicDashboard : Bool
  privacyShowOnMap : Bool

namespace NewKit

def errors (new : NewKit) : ValidationErrors :=
  [("name", (new.name.map (validateLength (some 1) (some 40))).getD []),
   ("description", (new.description.map (validateLength (some 1) (some 5000))).getD [])]

/-- The values as the columns hold them. -/
def stored (new : NewKit) : Except DieselError NewKit := do
  let serial ← varchar 20 new.serial
  let passwordHash ← varchar 255 new.passwordHash
  let name ← nullable (varchar 255) new.name
  let latitude ← nullable numeric new.latitude
  let longitude ← nullable numeric new.longitude
  return { new with serial, passwordHash, name, latitude, longitude }

def row (new : NewKit) (now : Timestamp) (id : Int) : Kit where
  id
  serial := new.serial
  passwordHash := new.passwordHash
  name := new.name
  description := new.description
  latitude := new.latitude
  longitude := new.longitude
  privacyPublicDashboard := new.privacyPublicDashboard
  privacyShowOnMap := new.privacyShowOnMap
  createdAt := now
  updatedAt := now

theorem row_id (new : NewKit) (now : Timestamp) (id : Int) : (new.row now id).id = id := rfl

def insert (new : NewKit) (now : Timestamp) (s : Store) : Store :=
  { s with kits := s.kits.insert (new.row now) (new.row_id now) }

theorem mem_insert {new : NewKit} {now : Timestamp} {s : Store} {k : Kit} :
    k ∈ (new.insert now s).kits ↔ k ∈ s.kits ∨ k = new.row now s.kits.next := by
  simp [insert]

/-- `INSERT ... ON CONFLICT DO NOTHING RETURNING`: a taken serial returns no row. -/
def create (new : NewKit) (now : Timestamp) : Tx Store DieselError Kit :=
  Tx.write fun s =>
    match new.stored with
    | .error e => .error e
    | .ok new =>
        if s.kits.rows.any (·.serial = new.serial) then .error .notFound
        else .ok (new.row now s.kits.next, new.insert now s)

theorem create_ok {new : NewKit} {now : Timestamp} {s s' : Store} {k : Kit}
    (h : (new.create now).run s = .ok (k, s')) :
    ∃ new', new.stored = .ok new' ∧ k = new'.row now s.kits.next ∧ s' = new'.insert now s
      ∧ ∀ k' ∈ s.kits, k'.serial ≠ k.serial := by
  rw [create, Tx.run_write_ok] at h
  split at h
  · cases h
  · rename_i new' hstored
    split at h
    · cases h
    · rename_i hfree
      cases h
      exact ⟨new', hstored, rfl, rfl, by simpa [SerialTable.mem_def, row] using hfree⟩

end NewKit

/-- Changes to a kit; `none` leaves a column as it is and `some none` clears it. -/
structure UpdateKit where
  id : Int
  passwordHash : Option String
  name : Option (Option String)
  description : Option (Option String)
  latitude : Option (Option Rat)
  longitude : Option (Option Rat)
  privacyPublicDashboard : Option Bool
  privacyShowOnMap : Option Bool

namespace UpdateKit

def unchangedForId (id : Int) : UpdateKit where
  id
  passwordHash := none
  name := none
  description := none
  latitude := none
  longitude := none
  privacyPublicDashboard := none
  privacyShowOnMap := none

def isEmpty (u : UpdateKit) : Bool :=
  u.passwordHash.isNone && u.name.isNone && u.description.isNone && u.latitude.isNone
    && u.longitude.isNone && u.privacyPublicDashboard.isNone && u.privacyShowOnMap.isNone

/-- The values as the columns hold them. -/
def stored (u : UpdateKit) : Except DieselError UpdateKit := do
  let passwordHash ← nullable (varchar 255) u.passwordHash
  let name ← nullable (nullable (varchar 255)) u.name
  let latitude ← nullable (nullable numeric) u.latitude
  let longitude ← nullable (nullable numeric) u.longitude
  return { u with passwordHash, name, latitude, longitude }

/-- The columns that are set, and the trigger's `updated_at`. -/
def apply (u : UpdateKit) (now : Timestamp) (k : Kit) : Kit :=
  { k with
    passwordHash := u.passwordHash.getD k.passwordHash
    name := u.name.getD k.name
    description := u.description.getD k.description
    latitude := u.latitude.getD k.latitude
    longitude := u.longitude.getD k.longitude
    privacyPublicDashboard := u.privacyPublicDashboard.getD k.privacyPublicDashboard
    privacyShowOnMap := u.privacyShowOnMap.getD k.privacyShowOnMap
    updatedAt := now }

theorem apply_id (u : UpdateKit) (now : Timestamp) (k : Kit) : (u.apply now k).id = k.id := rfl

theorem apply_serial (u : UpdateKit) (now : Timestamp) (k : Kit) :
    (u.apply now k).serial = k.serial := rfl

def applyTo (u : UpdateKit) (now : Timestamp) (s : Store) : Store :=
  { s with kits := s.kits.update (·.id = u.id) (u.apply now) (u.apply_id now) }

theorem mem_applyTo {u : UpdateKit} {now : Timestamp} {s : Store} {k : Kit} :
    k ∈ (u.applyTo now s).kits ↔ ∃ k₀ ∈ s.kits,
      (if k₀.id = u.id then u.apply now k₀ else k₀) = k := by
  simp [applyTo]

/-- `save_changes`: an error when there is nothing to set, and when there is no
such row. -/
def update (u : UpdateKit) (now : Timestamp) : Tx Store DieselError Kit :=
  Tx.write fun s =>
    if u.isEmpty then .error .queryBuilderError
    else
      match u.stored with
      | .error e => .error e
      | .ok u =>
          match Kit.byId u.id s with
          | none => .error .notFound
          | some k => .ok (u.apply now k, u.applyTo now s)

theorem stored_id {u u' : UpdateKit} (h : u.stored = .ok u') : u'.id = u.id := by
  simp only [stored, bind, Except.bind] at h
  repeat' split at h
  all_goals cases h
  rfl

theorem update_ok {u : UpdateKit} {now : Timestamp} {s s' : Store} {k : Kit}
    (h : (u.update now).run s = .ok (k, s')) :
    ∃ u' : UpdateKit, u'.id = u.id ∧ s' = u'.applyTo now s := by
  rw [update, Tx.run_write_ok] at h
  split at h
  · cases h
  · split at h
    · cases h
    · rename_i u' hst
      split at h
      · cases h
      · cases h
        exact ⟨u', stored_id hst, rfl⟩

end UpdateKit

/-! ## Memberships -/

namespace KitMembership

def byId (id : Int) (s : Store) : Option KitMembership := s.kitMemberships.find? id

/-- The membership of a user in a kit: the first of the rows that match. -/
def byUserIdAndKitId (userId kitId : Int) (s : Store) : Option KitMembership :=
  s.kitMemberships.rows.find? fun m => m.userId = userId ∧ m.kitId = kitId

/-- How many memberships with super access the kit has. -/
def superCount (kitId : Int) (s : Store) : Nat :=
  (s.kitMemberships.select fun m => m.kitId = kitId && m.accessSuper).length

theorem mem_of_byId {id : Int} {s : Store} {m : KitMembership} (h : byId id s = some m) :
    m ∈ s.kitMemberships ∧ m.id = id :=
  SerialTable.find?_eq_some.mp h

/-- With two members that have super access, there is one besides any given
member. -/
theorem exists_other_super {kitId : Int} {s : Store} (h : 2 ≤ superCount kitId s) (id : Int) :
    ∃ m ∈ s.kitMemberships, m.kitId = kitId ∧ m.accessSuper = true ∧ m.id ≠ id := by
  by_contra hno
  simp only [not_exists, not_and, not_not] at hno
  have hsame : ∀ m ∈ s.kitMemberships.select fun m => m.kitId = kitId && m.accessSuper,
      m.id = id := by
    intro m hm
    obtain ⟨hmem, hm⟩ := SerialTable.mem_select.mp hm
    simp only [Bool.and_eq_true, decide_eq_true_eq] at hm
    exact hno m hmem hm.1 hm.2
  rw [superCount] at h
  have hnodup : ((s.kitMemberships.select fun m =>
      m.kitId = kitId && m.accessSuper).map KitMembership.id).Nodup :=
    (List.filter_sublist.map KitMembership.id).nodup s.kitMemberships.nodup
  generalize (s.kitMemberships.select fun m => m.kitId = kitId && m.accessSuper) = ms
    at h hsame hnodup
  match ms, h with
  | m₁ :: m₂ :: _, _ =>
      have h₁ : m₁.id = id := hsame m₁ (by simp)
      have h₂ : m₂.id = id := hsame m₂ (by simp)
      simp [h₁, h₂] at hnodup

def withAccess (accessSuper accessConfigure : Bool) (m : KitMembership) : KitMembership :=
  { m with accessSuper, accessConfigure }

theorem withAccess_id (accessSuper accessConfigure : Bool) (m : KitMembership) :
    (m.withAccess accessSuper accessConfigure).id = m.id := rfl

/-- The store with both flags of a membership changed. -/
def updateAccess (id : Int) (accessSuper accessConfigure : Bool) (s : Store) : Store :=
  let change := withAccess accessSuper accessConfigure
  { s with kitMemberships := s.kitMemberships.update (·.id = id) change (withAccess_id _ _) }

theorem mem_updateAccess {id : Int} {accessSuper accessConfigure : Bool} {s : Store}
    {m : KitMembership} :
    m ∈ (updateAccess id accessSuper accessConfigure s).kitMemberships ↔
      ∃ m₀ ∈ s.kitMemberships,
        (if m₀.id = id then m₀.withAccess accessSuper accessConfigure else m₀) = m := by
  simp [updateAccess]

/-- `save_changes` of both flags. -/
def setAccess (id : Int) (accessSuper accessConfigure : Bool) :
    Tx Store DieselError KitMembership :=
  Tx.write fun s =>
    match byId id s with
    | none => .error .notFound
    | some m =>
        .ok (m.withAccess accessSuper accessConfigure,
          updateAccess id accessSuper accessConfigure s)

theorem setAccess_ok {id : Int} {accessSuper accessConfigure : Bool} {s s' : Store}
    {m : KitMembership} (h : (setAccess id accessSuper accessConfigure).run s = .ok (m, s')) :
    s' = updateAccess id accessSuper accessConfigure s := by
  rw [setAccess, Tx.run_write_ok] at h
  split at h
  · cases h
  · cases h
    rfl

def deleteFrom (id : Int) (s : Store) : Store :=
  { s with kitMemberships := s.kitMemberships.delete (·.id = id) }

theorem mem_deleteFrom {id : Int} {s : Store} {m : KitMembership} :
    m ∈ (deleteFrom id s).kitMemberships ↔ m ∈ s.kitMemberships ∧ m.id ≠ id := by
  simp [deleteFrom]

/-- `DELETE` by id; a row that is gone is no error. -/
def delete (id : Int) : Tx Store DieselError Unit :=
  Tx.write fun s => .ok ((), deleteFrom id s)

theorem delete_ok {id : Int} {s s' : Store} {u : Unit} (h : (delete id).run s = .ok (u, s')) :
    s' = deleteFrom id s := by
  rw [delete, Tx.run_write_ok] at h
  cases h
  rfl

end KitMembership

structure NewKitMembership where
  userId : Int
  kitId : Int
  datetimeLinked : Timestamp
  accessSuper : Bool
  accessConfigure : Bool

namespace NewKitMembership

def row (new : NewKitMembership) (id : Int) : KitMembership where
  id
  userId := new.userId
  kitId := new.kitId
  datetimeLinked := new.datetimeLinked
  accessSuper := new.accessSuper
  accessConfigure := new.accessConfigure

theorem row_id (new : NewKitMembership) (id : Int) : (new.row id).id = id := rfl

def insert (new : NewKitMembership) (s : Store) : Store :=
  { s with kitMemberships := s.kitMemberships.insert new.row new.row_id }

theorem mem_insert {new : NewKitMembership} {s : Store} {m : KitMembership} :
    m ∈ (new.insert s).kitMemberships ↔
      m ∈ s.kitMemberships ∨ m = new.row s.kitMemberships.next := by
  simp [insert]

/-- `INSERT`; the user and the kit must exist. -/
def create (new : NewKitMembership) : Tx Store DieselError KitMembership :=
  Tx.write fun s =>
    if (User.byId new.userId s).isSome && (Kit.byId new.kitId s).isSome then
      .ok (new.row s.kitMemberships.next, new.insert s)
    else .error .databaseError

theorem create_ok {new : NewKitMembership} {s s' : Store} {m : KitMembership}
    (h : new.create.run s = .ok (m, s')) :
    (User.byId new.userId s).isSome = true ∧ (Kit.byId new.kitId s).isSome = true
      ∧ m = new.row s.kitMemberships.next ∧ s' = new.insert s := by
  rw [create, Tx.run_write_ok] at h
  split at h
  · rename_i hreferences
    obtain ⟨huser, hkit⟩ := Bool.and_eq_true_iff.mp hreferences
    cases h
    exact ⟨huser, hkit, rfl, rfl⟩
  · cases h

end NewKitMembership

end AstroPlant
