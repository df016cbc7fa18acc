import AstroPlant.ConformingPeripherals
import AstroPlant.PatchDocuments
import AstroPlant.UserLookup
import AstroPlant.WriteIsolation

/-!
# Patches merge fields

A request to patch, as it runs alone: the body is read, permission is asked for,
and the row is updated with what the body gives. The row becomes the merge of the
document into it, and nothing else changes but for the time of the update. An
update that sets no column is an error, so this is so exactly if the document
gives some field a value, or clears one.

For each of the three resources there are two steps. The permission checks and
the reading of the body leave one question, which is whether the update succeeds
and what it sets (`patchKitAlone_iff`, `patchUserAlone_ok`,
`patchPeripheral_iff`). The update succeeds exactly if it sets a column, and then
sets the columns to the merge (`patchKitAlone_assigns` and its siblings). A
second patch starts from the row that the first one left, where the actor is
authorised as before; the document merged twice is the document merged once,
field by field (`Given.merge_merge`).
-/

namespace AstroPlant

/-! ## Authorised actors -/

/-- The kit is stored, and the action on it is permitted to the actor. -/
def Authorised (s : Store) (actor : Option Int) (kit : Kit) (action : KitAction) : Prop :=
  Kit.bySerial kit.serial s = some kit
    ∧ action.permitted (.ofModels (actor.bind (User.byId · s)) (membershipOf actor kit.id s)) kit
      = true

theorem Authorised.mem {s : Store} {actor : Option Int} {kit : Kit} {action : KitAction}
    (h : Authorised s actor kit action) : kit ∈ s.kits :=
  List.mem_of_find?_eq_some h.1

theorem run_actingUser {s : Store} {actor : Option Int} {kit : Kit} {action : KitAction}
    (hchanges : action.readOnly = false) (h : Authorised s actor kit action) :
    (actingUser actor).run s = .ok (actor.bind (User.byId · s), s) := by
  obtain ⟨u, m, hmodels, -⟩ := KitAction.permitted_of_not_readOnly hchanges h.2
  cases hactor : actor.bind (User.byId · s) with
  | none =>
      rw [hactor] at hmodels
      cases hmodels
  | some user =>
      obtain ⟨id, rfl, hid⟩ := Option.bind_eq_some_iff.mp hactor
      rw [actingUser, Tx.run_read_bind]
      exact Tx.run_ofOption_bind_ok.mpr ⟨user, hid, rfl⟩

theorem run_futKitPermissionOrForbidden {s : Store} {actor : Option Int} {kit : Kit}
    {action : KitAction} (hchanges : action.readOnly = false) (h : Authorised s actor kit action) :
    ∃ r, (futKitPermissionOrForbidden actor kit.serial action).run s = .ok (r, s)
      ∧ r.2.2 = kit := by
  let models :=
    (KitUser.ofModels (actor.bind (User.byId · s)) (membershipOf actor kit.id s)).toModels
  refine ⟨(models.1, models.2, kit),
    Tx.run_bind_ok.mpr ⟨_, s, run_actingUser hchanges h, ?_⟩, rfl⟩
  rw [Tx.run_read_bind]
  refine Tx.run_ofOption_bind_ok.mpr ⟨kit, h.1, ?_⟩
  rw [Tx.run_read_bind]
  exact Tx.run_ensure_bind_ok.mpr ⟨h.2, rfl⟩

/-! ## Kits -/

section Kits

variable {x : Crates} {s s' : Store} {actor : Option Int} {kit kit' : Kit} {body : Json}
  {d : KitDocument}

/-- The row of one kit is replaced, and nothing else. -/
structure Store.SetsKit (s s' : Store) (kit kit' : Kit) : Prop where
  kits : s.kits.Replaced s'.kits kit kit'
  rest : ∃ kits, s' = { s with kits }

/-- `PATCH /kits/{kitSerial}`, alone. -/
def patchKitAlone (x : Crates) (es : List Env) (actor : Option Int) (kitSerial : String)
    (body : Json) (s : Store) : Option (Reply × Store) :=
  (KitPatch.ofJson body).bind fun patch =>
    (Task.start (.patchKit actor kitSerial patch)).runAlone x es s

/-- Once the permission is given, it is up to the update. -/
theorem patchKitAlone_iff (hauthorised : Authorised s actor kit .editDetails)
    (hdocument : KitDocument.ofJson body = some d) {e₁ e₂ : Env} :
    (∃ reply, patchKitAlone x [e₁, e₂] actor kit.serial body s = some (reply, s'))
      ↔ ∃ k, ((d.patch.update x kit.id).update e₂.now).run s = .ok (k, s') := by
  have hpatch : KitPatch.ofJson body = some d.patch := by
    rw [KitPatch.ofJson_eq, hdocument]
    rfl
  obtain ⟨r, hpermission, hr⟩ := run_futKitPermissionOrForbidden rfl hauthorised
  have hstart : ((Task.start (.patchKit actor kit.serial d.patch)).tx x e₁).run s
      = .ok (.inl (.patchKit kit d.patch), s) := by
    refine Tx.run_bind_ok.mpr ⟨r, s, hpermission, ?_⟩
    rw [← hr]
    rfl
  rw [← patchKit_iff, patchKitAlone, hpatch, Option.bind_some]
  simp only [Task.runAlone, hstart]
  constructor
  · rintro ⟨reply, h⟩
    split at h
    · cases h
    · rename_i hfinish
      obtain ⟨reply', hrun, hreply⟩ := finish_ok hfinish
      cases h
      exact ⟨reply', hrun⟩
    · cases h
  · rintro ⟨reply, hrun⟩
    have hfinish : ((Task.patchKit kit d.patch).tx x e₂).run s = .ok (.inr reply, s') :=
      Tx.run_bind_ok.mpr ⟨reply, s', hrun, rfl⟩
    exact ⟨reply, by rw [hfinish]⟩

theorem Store.setsKit_update (hx : x.ExactCoordinates) (hvalid : d.Valid) (hkit : kit ∈ s.kits)
    (now : Timestamp) :
    s.SetsKit ((d.patch.update x kit.id).applyTo now s) kit
      { d.merge kit with updatedAt := now } := by
  rw [← KitDocument.update_apply hx hvalid kit.id]
  exact ⟨SerialTable.replaced_update hkit _, ⟨_, rfl⟩⟩

/-- The patch succeeds exactly if the document assigns something. -/
theorem patchKitAlone_assigns (hx : x.ExactCoordinates) (hvalid : d.Valid)
    (hauthorised : Authorised s actor kit .editDetails)
    (hdocument : KitDocument.ofJson body = some d) (e₁ e₂ : Env) :
    (∃ reply, patchKitAlone x [e₁, e₂] actor kit.serial body s = some (reply, s'))
      ↔ d.assigns = true ∧ s' = (d.patch.update x kit.id).applyTo e₂.now s := by
  have hfound : Kit.byId (d.patch.update x kit.id).id s = some kit :=
    SerialTable.find?_eq_some.mpr ⟨hauthorised.mem, rfl⟩
  rw [patchKitAlone_iff hauthorised hdocument, UpdateKit.update_iff, KitDocument.update_isEmpty,
    KitDocument.update_stored hx hvalid, hfound]
  simp

theorem permitted_editDetails (user : KitUser) (kit kit' : Kit) :
    KitAction.editDetails.permitted user kit' = KitAction.editDetails.permitted user kit := by
  cases user <;> rfl

theorem Store.SetsKit.authorised (h : s.SetsKit s' kit kit') (hid : kit'.id = kit.id)
    (hserial : kit'.serial = kit.serial) (hauthorised : Authorised s actor kit .editDetails) :
    Authorised s' actor kit' .editDetails := by
  have hfound : Kit.bySerial kit'.serial s' = some kit' := by
    rw [hserial]
    exact h.kits.find? hauthorised.1 (decide_eq_true hserial)
  refine ⟨hfound, ?_⟩
  obtain ⟨kits, rfl⟩ := h.rest
  rw [permitted_editDetails _ kit kit', hid]
  exact hauthorised.2

/-- The patch merges the document into the kit, and once more changes nothing but
the time of the update. -/
def KitPatchMerges (x : Crates) (actor : Option Int) (kit : Kit) (body : Json) (d : KitDocument)
    (s : Store) : Prop :=
  ∀ e₁ e₂, ∃ reply s',
    patchKitAlone x [e₁, e₂] actor kit.serial body s = some (reply, s')
      ∧ s.SetsKit s' kit { d.merge kit with updatedAt := e₂.now }
      ∧ ∀ e₃ e₄, ∃ reply' s'',
        patchKitAlone x [e₃, e₄] actor kit.serial body s' = some (reply', s'')
          ∧ s'.SetsKit s'' { d.merge kit with updatedAt := e₂.now }
              { d.merge kit with updatedAt := e₄.now }

theorem KitDocument.merge_merge (d : KitDocument) (kit : Kit) (now now' : Timestamp) :
    { d.merge { d.merge kit with updatedAt := now } with updatedAt := now' }
      = { d.merge kit with updatedAt := now' } := by
  simp only [KitDocument.merge, Given.mergeNullable_mergeNullable, Given.merge_merge]

theorem kitPatchMerges_iff (hx : x.ExactCoordinates) (hvalid : d.Valid)
    (hauthorised : Authorised s actor kit .editDetails)
    (hdocument : KitDocument.ofJson body = some d) :
    KitPatchMerges x actor kit body d s ↔ d.assigns = true := by
  constructor
  · intro h
    obtain ⟨reply, s', hrun, -⟩ := h {} {}
    exact ((patchKitAlone_assigns hx hvalid hauthorised hdocument _ _).mp ⟨reply, hrun⟩).1
  · intro hassigns e₁ e₂
    obtain ⟨reply, hrun⟩ :=
      (patchKitAlone_assigns hx hvalid hauthorised hdocument e₁ e₂).mpr ⟨hassigns, rfl⟩
    have hsets := Store.setsKit_update hx hvalid hauthorised.mem e₂.now
    refine ⟨reply, _, hrun, hsets, fun e₃ e₄ => ?_⟩
    have hauthorised' := hsets.authorised rfl rfl hauthorised
    obtain ⟨reply', hrun'⟩ :=
      (patchKitAlone_assigns hx hvalid hauthorised' hdocument e₃ e₄).mpr ⟨hassigns, rfl⟩
    refine ⟨reply', _, hrun', ?_⟩
    rw [← d.merge_merge kit e₂.now e₄.now]
    exact Store.setsKit_update hx hvalid hauthorised'.mem e₄.now

end Kits

/-! ## Users -/

section Users

variable {strings : Strings} {s s' : Store} {actor : Option Int} {objectUsername : String}
  {user user' : User} {body : Json} {d : UserDocument}

/-- The row of one user is replaced, and nothing else. -/
structure Store.SetsUser (s s' : Store) (user user' : User) : Prop where
  users : s.users.Replaced s'.users user user'
  rest : ∃ users, s' = { s with users }

/-- The user is stored and found by the name, and is the actor. -/
structure IsActor (strings : Strings) (s : Store) (objectUsername : String) (actor : Option Int)
    (user : User) : Prop where
  mem : user ∈ s.users
  found : User.byUsername strings.pg objectUsername s = .ok (some user)
  actor : actor = some user.id

/-- `PATCH /users/{username}`, alone. -/
def patchUserAlone (strings : Strings) (now : Timestamp) (objectUsername : String)
    (actor : Option Int) (body : Json) (s : Store) : Option (UserView × Store) :=
  (UserPatch.ofJson body).bind fun patch =>
    (patchUser strings.pg strings.validateEmail now objectUsername actor patch s s s).toOption

theorem editDetails_ok {pg : Postgres} {r : Option User × User}
    (h : (futUserPermissionOrForbidden pg actor objectUsername .editDetails).run s = .ok (r, s')) :
    actor.bind (User.byId · s) = some r.2 := by
  obtain ⟨-, -, hpermitted⟩ := futUserPermissionOrForbidden_ok h
  obtain ⟨acting, s₁, hacting, h⟩ := Tx.run_bind_ok.mp h
  obtain ⟨rfl, hrow, -⟩ := actingUser_ok hacting
  rw [Tx.run_read_bind] at h
  obtain ⟨_, -, h⟩ := Tx.run_ofExcept_bind_ok.mp h
  obtain ⟨object, -, h⟩ := Tx.run_ofOption_bind_ok.mp h
  obtain ⟨-, h⟩ := Tx.run_ensure_bind_ok.mp h
  obtain ⟨rfl, -⟩ := Tx.run_pure_ok.mp h
  rw [← hrow]
  simpa [UserAction.permitted, Option.any_eq_true] using hpermitted

theorem patchUserAlone_ok {now : Timestamp} {view : UserView}
    (hdocument : UserDocument.ofJson body = some d)
    (h : patchUserAlone strings now objectUsername actor body s = some (view, s')) :
    ∃ u ∈ s.users, actor = some u.id ∧ d.assigns = true
      ∧ s' = (d.patch.update u.id).applyTo now s := by
  rw [patchUserAlone, UserPatch.ofJson_eq, hdocument] at h
  have hpatch : patchUser strings.pg strings.validateEmail now objectUsername actor d.patch s s s
      = .ok (view, s') := by
    revert h
    show Except.toOption _ = _ → _
    cases patchUser strings.pg strings.validateEmail now objectUsername actor d.patch s s s with
    | error problem => exact fun h => by cases h
    | ok r => exact fun h => congrArg _ (Option.some.inj h)
  obtain ⟨⟨⟨found, object⟩, s₁⟩, hpermission, hpatch⟩ := bind_ok.mp hpatch
  obtain ⟨_, -, hpatch⟩ := bind_ok.mp hpatch
  obtain ⟨_, hvalues, hpatch⟩ := bind_ok.mp hpatch
  obtain ⟨⟨patched, s₂⟩, hupdate, hpatch⟩ := bind_ok.mp hpatch
  obtain ⟨-, rfl⟩ := Prod.mk.inj (Except.ok.inj hpatch)
  obtain ⟨id, hid, hobject⟩ := Option.bind_eq_some_iff.mp (editDetails_ok hpermission)
  obtain ⟨hmem, rfl⟩ := SerialTable.find?_eq_some.mp hobject
  have hvalues : validate ((d.patch.update object.id).errors strings.validateEmail) = .ok () :=
    hvalues
  have hrun : (updateUser strings { now } (d.patch.update object.id)).run s
      = .ok (patched, s₂) := Tx.run_ofExcept_bind_ok.mpr ⟨(), hvalues, hupdate⟩
  obtain ⟨-, hempty, u', hstored, -, -, rfl⟩ := updateUser_iff.mp ⟨patched, hrun⟩
  obtain rfl := Except.ok.inj ((UserDocument.update_stored hvalues).symm.trans hstored)
  refine ⟨object, hmem, hid, ?_, rfl⟩
  rw [UserDocument.update_isEmpty] at hempty
  simpa using hempty

theorem Store.setsUser_update (huser : user ∈ s.users) (now : Timestamp) :
    s.SetsUser ((d.patch.update user.id).applyTo now s) user
      { d.merge user with updatedAt := now } := by
  rw [← UserDocument.update_apply user.id]
  exact ⟨SerialTable.replaced_update huser _, ⟨_, rfl⟩⟩

/-- The patch succeeds exactly if the document assigns something. -/
theorem patchUserAlone_assigns (hactor : IsActor strings s objectUsername actor user)
    (hvalid : d.Valid strings user.id s) (hdocument : UserDocument.ofJson body = some d)
    (now : Timestamp) :
    (∃ view, patchUserAlone strings now objectUsername actor body s = some (view, s'))
      ↔ d.assigns = true ∧ s' = (d.patch.update user.id).applyTo now s := by
  constructor
  · rintro ⟨view, h⟩
    obtain ⟨u, hu, hid, hassigns, rfl⟩ := patchUserAlone_ok hdocument h
    have hsame : u.id = user.id := Option.some.inj (hid.symm.trans hactor.actor)
    rw [hsame]
    exact ⟨hassigns, rfl⟩
  · rintro ⟨hassigns, rfl⟩
    have hrow : User.byId user.id s = some user := SerialTable.find?_eq_some.mpr ⟨hactor.mem, rfl⟩
    have hpermission : (futUserPermissionOrForbidden strings.pg actor objectUsername
        .editDetails).run s = .ok ((some user, user), s) := by
      have hacting : (actingUser actor).run s = .ok (some user, s) := by
        rw [hactor.actor, actingUser, Tx.run_read_bind]
        exact Tx.run_ofOption_bind_ok.mpr ⟨user, hrow, rfl⟩
      refine Tx.run_bind_ok.mpr ⟨_, s, hacting, ?_⟩
      rw [Tx.run_read_bind, hactor.found]
      refine Tx.run_ofExcept_bind_ok.mpr ⟨some user, rfl, ?_⟩
      refine Tx.run_ofOption_bind_ok.mpr ⟨user, rfl, ?_⟩
      exact Tx.run_ensure_bind_ok.mpr ⟨by simp [UserAction.permitted], rfl⟩
    have hempty : (d.patch.update user.id).isEmpty = false := by
      rw [UserDocument.update_isEmpty, hassigns]
      rfl
    obtain ⟨patched, hupdate⟩ := (updateUser_iff (x := strings) (e := { now })).mpr
      ⟨hvalid.values, hempty, _, UserDocument.update_stored hvalid.values,
        ⟨user, hactor.mem, rfl⟩, fun emailAddress haddress =>
          hvalid.free emailAddress (Given.mem_toOption.mp haddress), rfl⟩
    obtain ⟨_, -, hupdate⟩ := Tx.run_ofExcept_bind_ok.mp hupdate
    have hpatch : patchUser strings.pg strings.validateEmail now objectUsername actor d.patch s s s
        = .ok (.ofModel patched, (d.patch.update user.id).applyTo now s) :=
      bind_ok.mpr ⟨_, hpermission, bind_ok.mpr ⟨(), hvalid.notFound,
        bind_ok.mpr ⟨(), hvalid.values, bind_ok.mpr ⟨_, hupdate, rfl⟩⟩⟩⟩
    refine ⟨.ofModel patched, ?_⟩
    rw [patchUserAlone, UserPatch.ofJson_eq, hdocument, Option.map_some, Option.bind_some, hpatch]
    rfl

/-- Nobody else has the name in the path or the email address of the document, ignoring
case, and neither has a special character. -/
structure Unmistakable (strings : Strings) (objectUsername : String) (d : UserDocument)
    (user : User) (s : Store) : Prop where
  name : Plain objectUsername
  named : user.Named strings.pg objectUsername
  onlyName : ∀ v ∈ s.users, v.Named strings.pg objectUsername → v = user
  address : ∀ emailAddress, d.emailAddress = .value emailAddress → Plain emailAddress
    ∧ ∀ v ∈ s.users, strings.pg.fold v.emailAddress = strings.pg.fold emailAddress →
      v.id = user.id

/-- The patch merges the document into the user, and once more changes nothing but
the time of the update. The second patch looks the user and the address up again,
and the row that is found first by a pattern is not always the one found before;
nobody can be mistaken for the user where name and address are unmistakable. -/
def UserPatchMerges (strings : Strings) (objectUsername : String) (actor : Option Int) (user : User)
    (body : Json) (d : UserDocument) (s : Store) : Prop :=
  ∀ now, ∃ view s',
    patchUserAlone strings now objectUsername actor body s = some (view, s')
      ∧ s.SetsUser s' user { d.merge user with updatedAt := now }
      ∧ (∀ now' view' s'',
        patchUserAlone strings now' objectUsername actor body s' = some (view', s'') →
          s'.SetsUser s'' { d.merge user with updatedAt := now }
            { d.merge user with updatedAt := now' })
      ∧ (Unmistakable strings objectUsername d user s →
        ∀ now', (patchUserAlone strings now' objectUsername actor body s').isSome = true)

theorem UserDocument.merge_merge (d : UserDocument) (user : User) (now now' : Timestamp) :
    { d.merge { d.merge user with updatedAt := now } with updatedAt := now' }
      = { d.merge user with updatedAt := now' } := by
  simp only [UserDocument.merge, Given.merge_merge]

/-- The row of a user is that of the patched user or an old one. -/
theorem Store.SetsUser.mem_users (h : s.SetsUser s' user user') {v : User} (hv : v ∈ s'.users) :
    v = user' ∨ v ∈ s.users ∧ v.id ≠ user.id := by
  rw [SerialTable.mem_def, h.users.rows] at hv
  obtain ⟨v₀, hv₀, rfl⟩ := List.mem_map.mp hv
  split
  · exact Or.inl rfl
  · exact Or.inr ⟨hv₀, ‹_›⟩

/-- An unmistakable user is found again, and so is nobody else by the address. -/
theorem Unmistakable.again (h : Unmistakable strings objectUsername d user s)
    (hactor : IsActor strings s objectUsername actor user) (hvalid : d.Valid strings user.id s)
    {now : Timestamp} (hsets : s.SetsUser s' user { d.merge user with updatedAt := now }) :
    IsActor strings s' objectUsername actor { d.merge user with updatedAt := now }
      ∧ d.Valid strings user.id s' := by
  have hmem := hsets.users.mem hactor.mem
  constructor
  · refine ⟨hmem, byUsername_of_only h.name hmem h.named fun v hv hnamed => ?_, hactor.actor⟩
    rcases hsets.mem_users hv with rfl | ⟨hv, hne⟩
    · rfl
    · exact absurd (congrArg User.id (h.onlyName v hv hnamed)) hne
  · refine ⟨hvalid.displayName, hvalid.values, checkEmailAddress_of_only ?_, ?_⟩
    · intro emailAddress hemail
      obtain ⟨hplain, honly⟩ := h.address emailAddress (Given.mem_toOption.mp hemail)
      refine ⟨hplain, fun v hv hhas => ?_⟩
      rcases hsets.mem_users hv with rfl | ⟨hv, hne⟩
      · rfl
      · exact honly v hv hhas
    · intro emailAddress hemail v hv hne
      rcases hsets.mem_users hv with rfl | ⟨hv, -⟩
      · exact absurd rfl hne
      · exact hvalid.free emailAddress hemail v hv hne

theorem userPatchMerges_iff (hactor : IsActor strings s objectUsername actor user)
    (hvalid : d.Valid strings user.id s) (hdocument : UserDocument.ofJson body = some d) :
    UserPatchMerges strings objectUsername actor user body d s ↔ d.assigns = true := by
  constructor
  · intro h
    obtain ⟨view, s', hrun, -⟩ := h 0
    exact ((patchUserAlone_assigns hactor hvalid hdocument _).mp ⟨view, hrun⟩).1
  · intro hassigns now
    obtain ⟨view, hrun⟩ :=
      (patchUserAlone_assigns hactor hvalid hdocument now).mpr ⟨hassigns, rfl⟩
    have hsets := Store.setsUser_update (d := d) hactor.mem now
    refine ⟨view, _, hrun, hsets, fun now' view' s'' hagain => ?_, fun honly now' => ?_⟩
    · obtain ⟨u, hu, hid, -, rfl⟩ := patchUserAlone_ok hdocument hagain
      -- the row of the actor is the merged one
      have hsame : u.id = user.id := Option.some.inj (hid.symm.trans hactor.actor)
      obtain rfl : u = { d.merge user with updatedAt := now } :=
        SerialTable.eq_of_key_eq hu (hsets.users.mem hactor.mem) hsame
      rw [← d.merge_merge user now now']
      exact Store.setsUser_update hu now'
    · obtain ⟨hactor', hvalid'⟩ := honly.again hactor hvalid hsets
      obtain ⟨view', hagain⟩ :=
        (patchUserAlone_assigns hactor' hvalid' hdocument now').mpr ⟨hassigns, rfl⟩
      rw [hagain]
      rfl

end Users

/-! ## Peripherals -/

section Peripherals

variable {x : Crates} {s s' : Store} {actor : Option Int} {peripheral peripheral' : Peripheral}
  {kit : Kit} {c : KitConfiguration} {definition : PeripheralDefinition} {body : Json}
  {d : PeripheralDocument}

/-- The row of one peripheral is replaced, and nothing else. -/
structure Store.SetsPeripheral (s s' : Store) (peripheral peripheral' : Peripheral) : Prop where
  peripherals : s.peripherals.Replaced s'.peripherals peripheral peripheral'
  rest : ∃ peripherals, s' = { s with peripherals }

/-- The peripheral is stored with the rows that it refers to, its configuration has
never been used, and the actor may edit the configurations of its kit. -/
structure Editable (s : Store) (actor : Option Int) (peripheral : Peripheral) (kit : Kit)
    (c : KitConfiguration) (definition : PeripheralDefinition) : Prop where
  mem : peripheral ∈ s.peripherals
  belongsTo : Kit.byId peripheral.kitId s = some kit
  configuredBy : KitConfiguration.byId peripheral.kitConfigurationId s = some c
  neverUsed : c.neverUsed = true
  definedBy : PeripheralDefinition.byId peripheral.peripheralDefinitionId s = some definition
  authorised : Authorised s actor kit .editConfiguration

/-- `PATCH /peripherals/{peripheralId}`, alone. -/
def patchPeripheralAlone (x : Crates) (es : List Env) (actor : Option Int) (peripheralId : Int)
    (body : Json) (s : Store) : Option (Reply × Store) :=
  (PeripheralPatch.ofJson body).bind fun patch =>
    (Task.start (.onPeripheral actor peripheralId (.patch patch))).runAlone x es s

theorem patchPeripheral_iff (heditable : Editable s actor peripheral kit c definition)
    (hvalid : d.Valid x definition) :
    (∃ reply, (patchPeripheral x c peripheral d.patch).run s = .ok (reply, s'))
      ↔ d.assigns = true ∧ s' = (d.update peripheral.id).applyTo s := by
  rw [← PeripheralDocument.update_iff hvalid heditable.mem]
  constructor
  · rintro ⟨reply, h⟩
    obtain ⟨-, h⟩ := Tx.run_ensure_bind_ok.mp h
    obtain ⟨_, -, h⟩ := Tx.run_ofExcept_bind_ok.mp h
    rw [Tx.run_read_bind] at h
    obtain ⟨_, -, h⟩ := Tx.run_ofOption_bind_ok.mp h
    obtain ⟨_, -, h⟩ := Tx.run_ofExcept_bind_ok.mp h
    obtain ⟨p, s₁, hupdate, h⟩ := Tx.run_bind_ok.mp h
    obtain ⟨-, rfl⟩ := Tx.run_pure_ok.mp h
    exact ⟨p, run_db_ok.mp hupdate⟩
  · rintro ⟨p, hupdate⟩
    refine ⟨.peripheral p, Tx.run_ensure_bind_ok.mpr ⟨heditable.neverUsed, ?_⟩⟩
    refine Tx.run_ofExcept_bind_ok.mpr ⟨(), hvalid.errors peripheral.id, ?_⟩
    rw [Tx.run_read_bind]
    refine Tx.run_ofOption_bind_ok.mpr ⟨definition, heditable.definedBy, ?_⟩
    refine Tx.run_ofExcept_bind_ok.mpr ⟨(), hvalid.checked peripheral.id, ?_⟩
    exact Tx.run_bind_ok.mpr ⟨p, s', run_db_ok.mpr hupdate, rfl⟩

/-- The patch succeeds exactly if the document assigns something. -/
theorem patchPeripheralAlone_assigns (heditable : Editable s actor peripheral kit c definition)
    (hvalid : d.Valid x definition) (hdocument : PeripheralDocument.ofJson body = some d)
    (e₁ e₂ e₃ : Env) :
    (∃ reply, patchPeripheralAlone x [e₁, e₂, e₃] actor peripheral.id body s = some (reply, s'))
      ↔ d.assigns = true ∧ s' = (d.update peripheral.id).applyTo s := by
  have hpatch : PeripheralPatch.ofJson body = some d.patch := by
    rw [PeripheralPatch.ofJson_eq, hdocument]
    rfl
  have hfound : Peripheral.byId peripheral.id s = some peripheral :=
    SerialTable.find?_eq_some.mpr ⟨heditable.mem, rfl⟩
  have hmodels : (getModelsFromPeripheralId peripheral.id).run s
      = .ok ((kit, c, peripheral), s) := by
    rw [getModelsFromPeripheralId, Tx.run_read_bind]
    refine Tx.run_ofOption_bind_ok.mpr ⟨peripheral, hfound, ?_⟩
    rw [Tx.run_read_bind]
    refine Tx.run_ofOption_bind_ok.mpr ⟨kit, heditable.belongsTo, ?_⟩
    rw [Tx.run_read_bind]
    exact Tx.run_ofOption_bind_ok.mpr ⟨c, heditable.configuredBy, rfl⟩
  have hstart : ((Task.start (.onPeripheral actor peripheral.id (.patch d.patch))).tx x e₁).run s
      = .ok (.inl (.authorizePeripheral actor kit c peripheral (.patch d.patch)), s) :=
    Tx.run_bind_ok.mpr ⟨_, s, hmodels, rfl⟩
  obtain ⟨r, hpermission, -⟩ := run_futKitPermissionOrForbidden rfl heditable.authorised
  have hauthorize : ((Task.authorizePeripheral actor kit c peripheral (.patch d.patch)).tx x
      e₂).run s = .ok (.inl (.onPeripheral c peripheral (.patch d.patch)), s) :=
    Tx.run_bind_ok.mpr ⟨_, s, Tx.run_bind_ok.mpr ⟨r, s, hpermission, rfl⟩, rfl⟩
  rw [← patchPeripheral_iff heditable hvalid, patchPeripheralAlone, hpatch, Option.bind_some]
  simp only [Task.runAlone, hstart, hauthorize]
  constructor
  · rintro ⟨reply, h⟩
    split at h
    · cases h
    · rename_i hfinish
      obtain ⟨reply', hrun, -⟩ := finish_ok hfinish
      cases h
      exact ⟨reply', hrun⟩
    · cases h
  · rintro ⟨reply, hrun⟩
    have hfinish : ((Task.onPeripheral c peripheral (.patch d.patch)).tx x e₃).run s
        = .ok (.inr reply, s') := Tx.run_bind_ok.mpr ⟨reply, s', hrun, rfl⟩
    exact ⟨reply, by rw [hfinish]⟩

theorem Store.setsPeripheral_update (hperipheral : peripheral ∈ s.peripherals) :
    s.SetsPeripheral ((d.update peripheral.id).applyTo s) peripheral (d.merge peripheral) := by
  rw [← PeripheralDocument.update_apply peripheral.id]
  exact ⟨SerialTable.replaced_update hperipheral _, ⟨_, rfl⟩⟩

theorem Store.SetsPeripheral.editable
    (h : s.SetsPeripheral s' peripheral (d.merge peripheral))
    (heditable : Editable s actor peripheral kit c definition) :
    Editable s' actor (d.merge peripheral) kit c definition := by
  have hmem := h.peripherals.mem heditable.mem
  obtain ⟨peripherals, rfl⟩ := h.rest
  exact ⟨hmem, heditable.belongsTo, heditable.configuredBy, heditable.neverUsed,
    heditable.definedBy, heditable.authorised⟩

/-- The patch merges the document into the peripheral, and once more changes
nothing. -/
def PeripheralPatchMerges (x : Crates) (actor : Option Int) (peripheral : Peripheral) (body : Json)
    (d : PeripheralDocument) (s : Store) : Prop :=
  ∀ e₁ e₂ e₃, ∃ reply s',
    patchPeripheralAlone x [e₁, e₂, e₃] actor peripheral.id body s = some (reply, s')
      ∧ s.SetsPeripheral s' peripheral (d.merge peripheral)
      ∧ ∀ e₄ e₅ e₆, ∃ reply' s'',
        patchPeripheralAlone x [e₄, e₅, e₆] actor peripheral.id body s' = some (reply', s'')
          ∧ s'.SetsPeripheral s'' (d.merge peripheral) (d.merge peripheral)

theorem PeripheralDocument.merge_merge (d : PeripheralDocument) (peripheral : Peripheral) :
    d.merge (d.merge peripheral) = d.merge peripheral := by
  simp only [PeripheralDocument.merge, Given.merge_merge]

theorem peripheralPatchMerges_iff (heditable : Editable s actor peripheral kit c definition)
    (hvalid : d.Valid x definition) (hdocument : PeripheralDocument.ofJson body = some d) :
    PeripheralPatchMerges x actor peripheral body d s ↔ d.assigns = true := by
  constructor
  · intro h
    obtain ⟨reply, s', hrun, -⟩ := h {} {} {}
    exact ((patchPeripheralAlone_assigns heditable hvalid hdocument _ _ _).mp ⟨reply, hrun⟩).1
  · intro hassigns e₁ e₂ e₃
    obtain ⟨reply, hrun⟩ :=
      (patchPeripheralAlone_assigns heditable hvalid hdocument e₁ e₂ e₃).mpr ⟨hassigns, rfl⟩
    have hsets := Store.setsPeripheral_update (d := d) heditable.mem
    refine ⟨reply, _, hrun, hsets, fun e₄ e₅ e₆ => ?_⟩
    have heditable' := hsets.editable heditable
    obtain ⟨reply', hrun'⟩ :=
      (patchPeripheralAlone_assigns heditable' hvalid hdocument e₄ e₅ e₆).mpr ⟨hassigns, rfl⟩
    have hagain := Store.setsPeripheral_update (d := d) heditable'.mem
    rw [d.merge_merge] at hagain
    exact ⟨reply', _, hrun', hagain⟩

end Peripherals

/-- **A patch is a merge of fields** exactly if its document gives some field a
value, or clears one: for every kit, user and peripheral that is stored, and every
valid document of an actor who is authorised. -/
theorem patch_merges_iff (x : Crates) (hx : x.ExactCoordinates) (strings : Strings) (s : Store)
    (actor : Option Int) (body : Json) :
    (∀ kit d, KitDocument.ofJson body = some d → d.Valid → Authorised s actor kit .editDetails →
      (KitPatchMerges x actor kit body d s ↔ d.assigns = true))
    ∧ (∀ objectUsername user d, UserDocument.ofJson body = some d →
      d.Valid strings user.id s → IsActor strings s objectUsername actor user →
      (UserPatchMerges strings objectUsername actor user body d s ↔ d.assigns = true))
    ∧ ∀ peripheral kit c definition d, PeripheralDocument.ofJson body = some d →
      d.Valid x definition → Editable s actor peripheral kit c definition →
      (PeripheralPatchMerges x actor peripheral body d s ↔ d.assigns = true) := by
  refine ⟨?_, ?_, ?_⟩
  · intro kit d hdocument hvalid hauthorised
    exact kitPatchMerges_iff hx hvalid hauthorised hdocument
  · intro objectUsername user d hdocument hvalid hactor
    exact userPatchMerges_iff hactor hvalid hdocument
  · intro peripheral kit c definition d hdocument hvalid heditable
    exact peripheralPatchMerges_iff heditable hvalid hdocument

/-! ## A kit with a heater -/

/-- A float is converted to the number that it is. -/
def exactCrates : Crates where
  decimalFromF64 v := if v.isFinite then some v.toRat else none
  strictlyValid := nullCrates.strictlyValid

theorem exactCrates_exact : exactCrates.ExactCoordinates := fun _ hv => if_pos hv.1

def lee : User := ⟨1, "lee", "lee", "", "lee@example.com", true, "", 0, 0⟩

def leesKit : Kit := ⟨1, "k1", "", none, some "Basil.", none, none, true, true, 0, 0⟩

def leesConfiguration : KitConfiguration := ⟨1, 1, none, "", "", .null, false, none, 0, 0⟩

def leesHeater : Peripheral := ⟨1, 1, 1, 1, "Heater", .null⟩

def heaterDefinition : PeripheralDefinition := virtualHeater.row 1

/-- Lee is a member of the kit, with super access. -/
def leesStore : Store :=
  { Store.empty with
    users := SerialTable.empty.insert (fun id => { lee with id }) fun _ => rfl
    kits := SerialTable.empty.insert (fun id => { leesKit with id }) fun _ => rfl
    kitMemberships := SerialTable.empty.insert (fun id => ⟨id, 1, 1, 0, true, false⟩) fun _ => rfl
    kitConfigurations :=
      SerialTable.empty.insert (fun id => { leesConfiguration with id }) fun _ => rfl
    peripheralDefinitions := SerialTable.empty.insert virtualHeater.row fun _ => rfl
    peripherals := SerialTable.empty.insert (fun id => { leesHeater with id }) fun _ => rfl }

theorem leesKit_authorised {action : KitAction}
    (h : action = .editDetails ∨ action = .editConfiguration) :
    Authorised leesStore (some 1) leesKit action := by
  rcases h with rfl | rfl <;> exact ⟨rfl, rfl⟩

/-- A name for the heater and for the kit, the place of the kit, and a name for Lee. -/
def leesBody : Json :=
  .object [("name", .string "Sage"), ("description", .null),
    ("latitude", .number (.float ⟨0x404a400000000000#64⟩)), ("displayName", .string "Lee")]

theorem patch_merges_iff_leesStore :
    (∃ d, KitDocument.ofJson leesBody = some d
        ∧ KitPatchMerges exactCrates (some 1) leesKit leesBody d leesStore)
      ∧ (∃ d, UserDocument.ofJson leesBody = some d
        ∧ UserPatchMerges .ascii "Lee" (some 1) lee leesBody d leesStore
        ∧ Unmistakable .ascii "Lee" d lee leesStore)
      ∧ ∃ d, PeripheralDocument.ofJson leesBody = some d
        ∧ PeripheralPatchMerges exactCrates (some 1) leesHeater leesBody d leesStore := by
  obtain ⟨hkit, huser, hperipheral⟩ :=
    patch_merges_iff exactCrates exactCrates_exact .ascii leesStore (some 1) leesBody
  refine ⟨⟨_, rfl, (hkit leesKit _ rfl ?_ (leesKit_authorised (Or.inl rfl))).mpr rfl⟩,
    ⟨_, rfl, (huser "Lee" lee _ rfl ?_ ?_).mpr rfl, ?_⟩,
    ⟨_, rfl, (hperipheral leesHeater leesKit leesConfiguration heaterDefinition _ rfl ?_ ?_).mpr
      rfl⟩⟩
  · refine ⟨fun name hname => ?_, fun _ h => (by cases h), fun v hv => ?_, fun v hv => ?_⟩
    · cases hname
      decide
    · cases hv
      exact ⟨by decide, by decide +kernel⟩
    · cases hv
  · refine ⟨fun name hname => ?_, by decide, rfl, fun emailAddress h => by cases h⟩
    cases hname
    decide
  · exact ⟨.head _, by rfl, rfl⟩
  · refine ⟨by decide, by decide, fun v hv _ => List.mem_singleton.mp hv, ?_⟩
    exact fun emailAddress h => by cases h
  · refine ⟨fun name hname => ?_, fun configuration h => by cases h⟩
    cases hname
    decide
  · exact ⟨.head _, rfl, rfl, rfl, rfl, leesKit_authorised (Or.inr rfl)⟩

/-- The document without fields is refused. -/
theorem emptyPatch_not_merges :
    ∃ d, KitDocument.ofJson (.object []) = some d ∧ d.Valid
      ∧ Authorised leesStore (some 1) leesKit .editDetails
      ∧ ¬KitPatchMerges exactCrates (some 1) leesKit (.object []) d leesStore := by
  have hvalid : KitDocument.Valid ⟨.absent, .absent, .absent, .absent, .absent, .absent⟩ :=
    ⟨nofun, nofun, nofun, nofun⟩
  have hauthorised := leesKit_authorised (Or.inl rfl)
  refine ⟨_, rfl, hvalid, hauthorised, fun h => ?_⟩
  have hassigns := (kitPatchMerges_iff exactCrates_exact hvalid hauthorised rfl).mp h
  cases hassigns

end AstroPlant
