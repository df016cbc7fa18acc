import AstroPlant.Conc
import AstroPlant.Users

/-!
# User accounts as a concurrent program

A user is created in one transaction at `READ COMMITTED`: its two lookups and its
insertion each see what is committed when they start. A user is patched in three
accesses of their own: permission, the lookup of the new email address, and the
update. Any other request may run between two of them, and each of them may
fault.

Each statement that writes a user is stated once: what it does, and when it
commits (`createUser_iff`, `updateUser_iff`). A step of the program is then a
lookup, a creation that has committed or an update that has committed
(`accounts_advance`); what is proved about accounts is proved by cases over it.
That the accesses of a patch are those of the endpoint is `patchUser_steps`.
-/

namespace AstroPlant

/-! ## Strings -/

/-- What the endpoints take from the database, the standard library and the
validation library. Lowercasing twice is lowercasing once. -/
structure Strings where
  pg : Postgres
  toLowercase : String → String
  toLowercase_toLowercase : ∀ s, toLowercase (toLowercase s) = toLowercase s
  isAlphanumeric : Char → Bool
  validateEmail : String → Bool

theorem asciiLowercase_asciiLowercase (s : String) :
    String.ofList ((String.ofList (s.toList.map Char.toLower)).toList.map Char.toLower)
      = String.ofList (s.toList.map Char.toLower) := by
  rw [String.toList_ofList, List.map_map]
  exact congrArg String.ofList (List.map_congr_left fun c _ => toLower_toLower c)

/-- Only the letters A to Z are lowercased, only ASCII characters are alphanumeric,
and an email address has an `@`. -/
def Strings.ascii : Strings where
  pg := .ascii
  toLowercase s := String.ofList (s.toList.map Char.toLower)
  toLowercase_toLowercase := asciiLowercase_asciiLowercase
  isAlphanumeric := Char.isAlphanum
  validateEmail s := s.toList.contains '@'

/-! ## New users -/

structure NewUser where
  username : String
  displayName : String
  passwordHash : String
  emailAddress : String
  useEmailAddressForGravatar : Bool
  gravatarAlternative : String

def validateUsername (isAlphanumeric : Char → Bool) (username : String) :
    List ValidationError :=
  if !username.toList.all (fun c => isAlphanumeric c || c = '-')
      || username.toList.head? = some '-' || username.toList.getLast? = some '-' then
    [{ code := "invalid_username" }]
  else []

namespace NewUser

def new (x : Strings) (username passwordHash emailAddress gravatarAlternative : String) :
    NewUser where
  username := x.toLowercase username
  displayName := username
  passwordHash
  emailAddress := x.toLowercase emailAddress
  useEmailAddressForGravatar := true
  gravatarAlternative

/-- The bounds that the struct declares. -/
def errors (x : Strings) (new : NewUser) : ValidationErrors :=
  [("username", validateLength (some 1) none new.username
      ++ validateUsername x.isAlphanumeric new.username
      ++ validateLength (some 1) (some 40) new.username),
   ("display_name", validateLength (some 1) (some 40) new.displayName),
   ("email_address", validateLength none (some 255) new.emailAddress
      ++ if x.validateEmail new.emailAddress then [] else [{ code := "email" }])]

/-- The values as the columns hold them. -/
def stored (new : NewUser) : Except DieselError NewUser := do
  let username ← varchar 40 new.username
  let displayName ← varchar 40 new.displayName
  let passwordHash ← varchar 255 new.passwordHash
  let emailAddress ← varchar 255 new.emailAddress
  let gravatarAlternative ← varchar 255 new.gravatarAlternative
  return { new with username, displayName, passwordHash, emailAddress, gravatarAlternative }

def row (new : NewUser) (now : Timestamp) (id : Int) : User where
  id
  username := new.username
  displayName := new.displayName
  passwordHash := new.passwordHash
  emailAddress := new.emailAddress
  useEmailAddressForGravatar := new.useEmailAddressForGravatar
  gravatarAlternative := new.gravatarAlternative
  createdAt := now
  updatedAt := now

theorem row_id (new : NewUser) (now : Timestamp) (id : Int) : (new.row now id).id = id := rfl

def insert (new : NewUser) (now : Timestamp) (s : Store) : Store :=
  { s with users := s.users.insert (new.row now) (new.row_id now) }

theorem mem_insert {new : NewUser} {now : Timestamp} {s : Store} {u : User} :
    u ∈ (new.insert now s).users ↔ u ∈ s.users ∨ u = new.row now s.users.next := by
  simp [insert]

/-- A user of that name, or with that email address, exists already. -/
def taken (new : NewUser) (s : Store) : Bool :=
  s.users.rows.any fun u => u.username = new.username || u.emailAddress = new.emailAddress

theorem taken_eq_false {new : NewUser} {s : Store} :
    new.taken s = false ↔ ∀ u ∈ s.users,
      u.username ≠ new.username ∧ u.emailAddress ≠ new.emailAddress := by
  simp [taken, SerialTable.mem_def]

/-- `INSERT ... ON CONFLICT DO NOTHING RETURNING`, and no row is no error. -/
def create (new : NewUser) (now : Timestamp) : Tx Store DieselError (Option User) :=
  Tx.write fun s =>
    match new.stored with
    | .error e => .error e
    | .ok new =>
        if new.taken s then .ok (none, s)
        else .ok (some (new.row now s.users.next), new.insert now s)

end NewUser

/-! ## Requests -/

/-- The body of `POST /users`. -/
structure UserBody where
  username : String
  password : String
  emailAddress : String

/-- What the environment decides in a step. -/
structure AccountEnv extends Env where
  gravatarAlternative : String := ""

inductive AccountRequest where
  | createUser (user : UserBody)
  | patchUser (objectUsername : String) (actorUserId : Option Int) (patch : UserPatch)

/-- A request, or what is left of it; the arguments are what it has read. -/
inductive AccountTask where
  | userByUsername (user : UserBody)
  | userByEmailAddress (user : UserBody) (byUsername : Option User)
  | createUser (user : UserBody) (byUsername byEmailAddress : Option User)
  | userPermission (objectUsername : String) (actorUserId : Option Int) (patch : UserPatch)
  | checkEmailAddress (updateUser : UpdateUser)
  | updateUser (updateUser : UpdateUser)

inductive AccountReply where
  | created
  | user (user : UserView)

def UserPatch.update (patch : UserPatch) (id : Int) : UpdateUser where
  id
  displayName := patch.displayName
  emailAddress := patch.emailAddress
  passwordHash := none
  useEmailAddressForGravatar := patch.useEmailAddressForGravatar

def UserBody.new (x : Strings) (e : AccountEnv) (user : UserBody) : NewUser :=
  .new x user.username e.passwordHash user.emailAddress e.gravatarAlternative

/-- What the lookups have found is refused. -/
def alreadyExists (byUsername byEmailAddress : Option User) : Except Problem Unit :=
  let ps : InvalidParameters := ∅
  let ps := if byUsername.isSome then ps.add "username" .alreadyExists else ps
  let ps := if byEmailAddress.isSome then ps.add "emailAddress" .alreadyExists else ps
  if ps.isEmpty then .ok () else .error ps.intoProblem

/-- The end of the transaction that creates a user. -/
def createUser (x : Strings) (e : AccountEnv) (user : UserBody)
    (byUsername byEmailAddress : Option User) : Tx Store Problem Unit := do
  let newUser := user.new x e
  check (validate (newUser.errors x))
  check (alreadyExists byUsername byEmailAddress)
  let createdUser ← db (newUser.create e.now)
  Tx.ensure createdUser.isSome .INTERNAL_SERVER_ERROR

/-- The last access of a patch. -/
def updateUser (x : Strings) (e : AccountEnv) (u : UpdateUser) : Tx Store Problem User := do
  check (validate (u.errors x.validateEmail))
  db (u.update e.now)

/-- A lookup of a user. -/
def lookupUser (found : Store → Except DieselError (Option User)) :
    Tx Store Problem (Option User) := do
  let found ← Tx.read found
  Tx.ofExcept (found.mapError .ofDiesel)

def AccountTask.tx (x : Strings) (e : AccountEnv) :
    AccountTask → Tx Store Problem (AccountTask ⊕ AccountReply)
  | .userByUsername user => do
      let byUsername ← lookupUser (User.byUsername x.pg user.username)
      return .inl (.userByEmailAddress user byUsername)
  | .userByEmailAddress user byUsername => do
      let byEmailAddress ← lookupUser (User.byEmailAddress x.pg user.emailAddress)
      return .inl (.createUser user byUsername byEmailAddress)
  | .createUser user byUsername byEmailAddress => do
      AstroPlant.createUser x e user byUsername byEmailAddress
      return .inr .created
  | .userPermission objectUsername actorUserId patch => do
      let (_, user) ← futUserPermissionOrForbidden x.pg actorUserId objectUsername .editDetails
      return .inl (.checkEmailAddress (patch.update user.id))
  | .checkEmailAddress u => do
      let found ← Tx.read (AstroPlant.checkEmailAddress x.pg u)
      check found
      return .inl (.updateUser u)
  | .updateUser u => do
      let patched ← AstroPlant.updateUser x e u
      return .inr (.user (.ofModel patched))

def AccountTask.next : Except Problem (AccountTask ⊕ AccountReply) → Option AccountTask
  | .ok (.inl task) => some task
  | _ => none

def accounts (x : Strings) : Program Store AccountRequest AccountEnv AccountTask where
  entry
    | .createUser user => .userByUsername user
    | .patchUser objectUsername actorUserId patch =>
        .userPermission objectUsername actorUserId patch
  advance e t _ s := some (((t.tx x e).commit s).2, AccountTask.next ((t.tx x e).commit s).1)
  faulty _ := true

/-! ## What the steps do -/

/-- When the transaction of a creation commits, and what it does. -/
theorem createUser_iff {x : Strings} {e : AccountEnv} {user : UserBody}
    {byUsername byEmailAddress : Option User} {s s' : Store} :
    (createUser x e user byUsername byEmailAddress).run s = .ok ((), s')
      ↔ validate ((user.new x e).errors x) = .ok () ∧ byUsername = none
        ∧ byEmailAddress = none
        ∧ ∃ new, (user.new x e).stored = .ok new ∧ new.taken s = false
          ∧ s' = new.insert e.now s := by
  constructor
  · intro h
    obtain ⟨_, hvalid, h⟩ := Tx.run_ofExcept_bind_ok.mp h
    obtain ⟨_, hfound, h⟩ := Tx.run_ofExcept_bind_ok.mp h
    obtain ⟨created, s₁, hcreate, h⟩ := Tx.run_bind_ok.mp h
    obtain ⟨hsome, rfl⟩ := Tx.run_ensure_ok.mp h
    have hnone : byUsername = none ∧ byEmailAddress = none := by
      cases byUsername <;> cases byEmailAddress
        <;> simp [alreadyExists, InvalidParameters.isEmpty_add] at hfound ⊢
    have hwrite := run_db_ok.mp hcreate
    rw [NewUser.create, Tx.run_write_ok] at hwrite
    split at hwrite
    · cases hwrite
    · rename_i new hstored
      split at hwrite
      · cases hwrite
        cases hsome
      · rename_i hfree
        cases hwrite
        exact ⟨hvalid, hnone.1, hnone.2, new, hstored, by simpa using hfree, rfl⟩
  · rintro ⟨hvalid, rfl, rfl, new, hstored, hfree, rfl⟩
    have hcreate : ((user.new x e).create e.now).run s
        = .ok (some (new.row e.now s.users.next), new.insert e.now s) := by
      simp [NewUser.create, hstored, hfree]
    exact Tx.run_ofExcept_bind_ok.mpr ⟨(), hvalid, Tx.run_ofExcept_bind_ok.mpr ⟨(), rfl,
      Tx.run_bind_ok.mpr ⟨_, _, run_db_ok.mpr hcreate, rfl⟩⟩⟩

theorem updateUser_iff {x : Strings} {e : AccountEnv} {u : UpdateUser} {s s' : Store} :
    (∃ user, (updateUser x e u).run s = .ok (user, s'))
      ↔ validate (u.errors x.validateEmail) = .ok () ∧ u.isEmpty = false
        ∧ ∃ u' : UpdateUser, u.stored = .ok u' ∧ (∃ v ∈ s.users, v.id = u.id)
          ∧ (∀ emailAddress ∈ u'.emailAddress, ∀ v ∈ s.users, v.id ≠ u.id →
              v.emailAddress ≠ emailAddress)
          ∧ s' = u'.applyTo e.now s := by
  constructor
  · rintro ⟨user, h⟩
    obtain ⟨_, hvalid, h⟩ := Tx.run_ofExcept_bind_ok.mp h
    have hwrite := run_db_ok.mp h
    rw [UpdateUser.update, Tx.run_write_ok] at hwrite
    split at hwrite
    · cases hwrite
    · rename_i hempty
      split at hwrite
      · cases hwrite
      · rename_i u' hstored
        split at hwrite
        · cases hwrite
        · rename_i v hv
          have hid := UpdateUser.stored_id hstored
          obtain ⟨hmem, hvid⟩ := SerialTable.find?_eq_some.mp hv
          split at hwrite
          · cases hwrite
          · rename_i hfree
            cases hwrite
            refine ⟨hvalid, by simpa using hempty, u', hstored, ⟨v, hmem, hvid.trans hid⟩, ?_,
              rfl⟩
            intro emailAddress hemail w hw hne heq
            refine hfree ?_
            rw [Option.mem_def.mp hemail]
            simp only [Option.any_some, List.any_eq_true, decide_eq_true_eq]
            exact ⟨w, hw, by rwa [hid], heq⟩
  · rintro ⟨hvalid, hempty, u', hstored, ⟨v, hmem, hvid⟩, hfree, rfl⟩
    have hid := UpdateUser.stored_id hstored
    have hv : User.byId u'.id s = some v :=
      SerialTable.find?_eq_some.mpr ⟨hmem, hvid.trans hid.symm⟩
    have hunused : (u'.emailAddress.any fun emailAddress =>
        s.users.rows.any fun v => v.id ≠ u'.id ∧ v.emailAddress = emailAddress) = false := by
      cases hemail : u'.emailAddress with
      | none => rfl
      | some emailAddress =>
          simp only [Option.any_some, List.any_eq_false, decide_eq_true_eq, not_and]
          intro w hw hne
          exact hfree emailAddress hemail w hw (by rwa [← hid])
    have hupdate : (u.update e.now).run s = .ok (u'.apply e.now v, u'.applyTo e.now s) := by
      simp only [UpdateUser.update, Tx.run_write_ok, hempty, hstored, hv, hunused,
        Bool.false_eq_true, if_false]
    exact ⟨_, Tx.run_ofExcept_bind_ok.mpr ⟨(), hvalid, run_db_ok.mpr hupdate⟩⟩

/-! Valid values fit their columns, and are stored as they are. -/

theorem NewUser.stored_of_valid {x : Strings} {new new' : NewUser} {u : Unit}
    (hvalid : validate (new.errors x) = .ok u) (h : new.stored = .ok new') :
    new'.username = new.username ∧ new'.displayName = new.displayName
      ∧ new'.emailAddress = new.emailAddress := by
  have hvalid := validate_eq_ok.mp hvalid
  have husername := (List.append_eq_nil_iff.mp (hvalid _ (List.mem_cons_self ..))).2
  have hdisplay := hvalid _ (List.mem_cons_of_mem _ (List.mem_cons_self ..))
  have hemail := (List.append_eq_nil_iff.mp
    (hvalid _ (List.mem_cons_of_mem _ (List.mem_cons_of_mem _ (List.mem_cons_self ..))))).1
  have husername := (validateLength_eq_nil.mp husername).2 40 rfl
  have hdisplay := (validateLength_eq_nil.mp hdisplay).2 40 rfl
  have hemail := (validateLength_eq_nil.mp hemail).2 255 rfl
  obtain ⟨username, h₁, h⟩ := bind_ok.mp h
  obtain ⟨displayName, h₂, h⟩ := bind_ok.mp h
  obtain ⟨_, -, h⟩ := bind_ok.mp h
  obtain ⟨emailAddress, h₃, h⟩ := bind_ok.mp h
  obtain ⟨_, -, h⟩ := bind_ok.mp h
  obtain rfl := Except.ok.inj h
  rw [varchar_of_le husername] at h₁
  rw [varchar_of_le hdisplay] at h₂
  rw [varchar_of_le hemail] at h₃
  exact ⟨(Except.ok.inj h₁).symm, (Except.ok.inj h₂).symm, (Except.ok.inj h₃).symm⟩

theorem UpdateUser.stored_of_valid {validateEmail : String → Bool} {u u' : UpdateUser}
    {v : Unit} (hvalid : validate (u.errors validateEmail) = .ok v) (h : u.stored = .ok u') :
    u'.displayName = u.displayName ∧ u'.emailAddress = u.emailAddress := by
  have hvalid := validate_eq_ok.mp hvalid
  have hdisplay : ∀ displayName ∈ u.displayName, displayName.length ≤ 40 := by
    intro displayName hmem
    have herrors := hvalid _ (List.mem_cons_self ..)
    rw [Option.mem_def.mp hmem] at herrors
    exact (validateLength_eq_nil.mp herrors).2 40 rfl
  have hemail : ∀ emailAddress ∈ u.emailAddress, emailAddress.length ≤ 255 := by
    intro emailAddress hmem
    have herrors := hvalid _ (List.mem_cons_of_mem _ (List.mem_cons_self ..))
    rw [Option.mem_def.mp hmem] at herrors
    exact (validateLength_eq_nil.mp (List.append_eq_nil_iff.mp herrors).1).2 255 rfl
  obtain ⟨displayName, h₁, h⟩ := bind_ok.mp h
  obtain ⟨emailAddress, h₂, h⟩ := bind_ok.mp h
  obtain ⟨_, -, h⟩ := bind_ok.mp h
  obtain rfl := Except.ok.inj h
  exact ⟨nullable_of_fits h₁ fun d hd => varchar_of_le (hdisplay d hd),
    nullable_of_fits h₂ fun a ha => varchar_of_le (hemail a ha)⟩

/-- A step of an account task ends its request with success, or it leaves the
store as it is. -/
theorem accounts_advance {x : Strings} {e : AccountEnv} {t : AccountTask}
    {ts : List AccountTask} {s s' : Store} {k : Option AccountTask}
    (h : (accounts x).advance e t ts s = some (s', k)) :
    (s' = s ∧ ∀ r s₁, (t.tx x e).run s ≠ .ok (.inr r, s₁))
      ∨ (∃ user, t = .createUser user none none
          ∧ (createUser x e user none none).run s = .ok ((), s'))
      ∨ ∃ u user, t = .updateUser u ∧ (updateUser x e u).run s = .ok (user, s') := by
  simp only [accounts, Option.some.injEq, Prod.mk.injEq] at h
  obtain ⟨rfl, -⟩ := h
  rcases Tx.commit_cases (t.tx x e) s with ⟨p, hc⟩ | ⟨n, s₁, hr, hc⟩
  · rw [hc]
    refine Or.inl ⟨rfl, fun r s₁ hr => ?_⟩
    rw [Tx.commit_ok hr] at hc
    cases hc
  · rw [hc]
    have hreads : ∀ task, n = .inl task → ∀ r s₂, (t.tx x e).run s ≠ .ok (.inr r, s₂) := by
      rintro task rfl r s₂ hr'
      rw [hr] at hr'
      cases hr'
    cases t with
    | userByUsername user | userByEmailAddress user _ =>
        obtain ⟨_, s₂, h₁, h₂⟩ := Tx.run_bind_ok.mp hr
        obtain ⟨hn, rfl⟩ := Tx.run_pure_ok.mp h₂
        rw [lookupUser, Tx.run_read_bind] at h₁
        exact Or.inl ⟨(Tx.run_ofExcept_ok.mp h₁).2.symm, hreads _ hn.symm⟩
    | createUser user byUsername byEmailAddress =>
        obtain ⟨_, s₂, h₁, h₂⟩ := Tx.run_bind_ok.mp hr
        obtain ⟨-, rfl⟩ := Tx.run_pure_ok.mp h₂
        obtain ⟨-, rfl, rfl, -⟩ := createUser_iff.mp h₁
        exact Or.inr (Or.inl ⟨user, rfl, h₁⟩)
    | userPermission objectUsername actorUserId patch =>
        obtain ⟨_, s₂, h₁, h₂⟩ := Tx.run_bind_ok.mp hr
        obtain ⟨rfl, -⟩ := futUserPermissionOrForbidden_ok h₁
        obtain ⟨hn, rfl⟩ := Tx.run_pure_ok.mp h₂
        exact Or.inl ⟨rfl, hreads _ hn.symm⟩
    | checkEmailAddress u =>
        have hr' := hr
        simp only [AccountTask.tx, Tx.run_read_bind] at hr'
        obtain ⟨_, -, h₂⟩ := Tx.run_ofExcept_bind_ok.mp hr'
        obtain ⟨hn, rfl⟩ := Tx.run_pure_ok.mp h₂
        exact Or.inl ⟨rfl, hreads _ hn.symm⟩
    | updateUser u =>
        obtain ⟨user, s₂, h₁, h₂⟩ := Tx.run_bind_ok.mp hr
        obtain ⟨-, rfl⟩ := Tx.run_pure_ok.mp h₂
        exact Or.inr (Or.inr ⟨u, user, rfl, h₁⟩)

/-- The three accesses of a patch are those of the endpoint. -/
theorem patchUser_steps {x : Strings} {e : AccountEnv} {objectUsername : String}
    {actorUserId : Option Int} {patch : UserPatch} {s₁ s₂ s₃ s' : Store} {v : UserView} :
    patchUser x.pg x.validateEmail e.now objectUsername actorUserId patch s₁ s₂ s₃
        = .ok (v, s')
      ↔ ∃ t₂ t₃,
        ((AccountTask.userPermission objectUsername actorUserId patch).tx x e).run s₁
          = .ok (.inl t₂, s₁)
        ∧ (t₂.tx x e).run s₂ = .ok (.inl t₃, s₂)
        ∧ (t₃.tx x e).run s₃ = .ok (.inr (.user v), s') := by
  constructor
  · intro h
    obtain ⟨⟨r, s⟩, hpermission, h⟩ := bind_ok.mp h
    obtain ⟨_, hcheck, h⟩ := bind_ok.mp h
    obtain ⟨_, hvalid, h⟩ := bind_ok.mp h
    obtain ⟨⟨patched, s''⟩, hupdate, h⟩ := bind_ok.mp h
    obtain ⟨rfl, rfl⟩ := Prod.mk.inj (Except.ok.inj h)
    obtain ⟨rfl, -⟩ := futUserPermissionOrForbidden_ok hpermission
    refine ⟨.checkEmailAddress (patch.update r.2.id), .updateUser (patch.update r.2.id),
      Tx.run_bind_ok.mpr ⟨r, s₁, hpermission, rfl⟩, ?_, ?_⟩
    · simp only [AccountTask.tx, Tx.run_read_bind]
      exact Tx.run_ofExcept_bind_ok.mpr ⟨(), hcheck, rfl⟩
    · exact Tx.run_bind_ok.mpr
        ⟨patched, s'', Tx.run_ofExcept_bind_ok.mpr ⟨(), hvalid, hupdate⟩, rfl⟩
  · rintro ⟨t₂, t₃, h₁, h₂, h₃⟩
    obtain ⟨r, s, hpermission, h₁⟩ := Tx.run_bind_ok.mp h₁
    obtain ⟨ht₂, -⟩ := Tx.run_pure_ok.mp h₁
    obtain rfl := Sum.inl.inj ht₂
    simp only [AccountTask.tx, Tx.run_read_bind] at h₂
    obtain ⟨_, hcheck, h₂⟩ := Tx.run_ofExcept_bind_ok.mp h₂
    obtain ⟨ht₃, -⟩ := Tx.run_pure_ok.mp h₂
    obtain rfl := Sum.inl.inj ht₃
    obtain ⟨patched, s'', h₄, h₃⟩ := Tx.run_bind_ok.mp h₃
    obtain ⟨hv, rfl⟩ := Tx.run_pure_ok.mp h₃
    obtain rfl := AccountReply.user.inj (Sum.inr.inj hv)
    obtain ⟨_, hvalid, hupdate⟩ := Tx.run_ofExcept_bind_ok.mp h₄
    exact bind_ok.mpr ⟨(r, s), hpermission, bind_ok.mpr ⟨(), hcheck,
      bind_ok.mpr ⟨(), hvalid, bind_ok.mpr ⟨(patched, s''), hupdate, rfl⟩⟩⟩⟩

end AstroPlant
