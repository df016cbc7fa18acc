import AstroPlant.Accounts
import AstroPlant.Services

/-!
# The bounds that the insert types declare

`NewKit`, `NewPeripheral`, `NewMedia` and `NewUser` declare bounds on their
columns. A bound is only checked where a handler calls `validate`, and not every
handler that writes such a column does.

`Store.Bounded` collects the bounds of the four kinds of rows. For each statement
there is a lemma that says when it keeps them: always, where the handler
validates what it writes, and exactly if what it writes is within the bounds
where it does not (`patchKit_bounded_iff`, `upload_bounded_iff`). The condition
speaks of the request and of what decides whether the statement is carried out at
all (`KitPatch.WithinBounds`, `Upload.WithinBounds`), not of the state that it
leaves.
-/

namespace AstroPlant

/-! ## The backend

The API, the uploads and the ingest together with the user accounts. -/

structure BackendEnv extends ServiceEnv, AccountEnv

inductive BackendRequest where
  | service (request : ServiceRequest)
  | account (request : AccountRequest)

inductive BackendTask where
  | service (task : ServiceTask)
  | account (task : AccountTask)

def backend (x : Crates) (strings : Strings) :
    Program Services BackendRequest BackendEnv BackendTask where
  entry
    | .service request => .service ((services x).entry request)
    | .account request => .account ((accounts strings).entry request)
  advance e t _ s :=
    match t with
    | .service task =>
        ((services x).advance e.toServiceEnv task [] s).map fun r => (r.1, r.2.map .service)
    | .account task =>
        ((accounts strings).advance e.toAccountEnv task [] s.store).map fun r =>
          ({ s with store := r.1 }, r.2.map .account)
  faulty _ := true

/-- A step of the backend is one of a request, or it writes neither kits nor what
belongs to them except for media, measurements and when a kit was last seen. -/
theorem backend_cases {x : Crates} {strings : Strings} {e : BackendEnv} {t : BackendTask}
    {ts : List BackendTask} {s s' : Services} {k : Option BackendTask}
    (h : (backend x strings).advance e t ts s = some (s', k)) :
    (∃ task store next, t = .service (.api task)
        ∧ (api x).advance e.toEnv task [] s.store = some (store, next)
        ∧ s' = { s with store } ∧ k = next.map fun task => .service (.api task))
      ∨ (∀ t' ∈ k, ∀ task, t' ≠ .service (.api task))
        ∧ ∃ users media rawMeasurements aggregateMeasurements kitLastSeen, s'.store
          = { s.store with users, media, rawMeasurements, aggregateMeasurements, kitLastSeen } := by
  cases t with
  | account task =>
      simp only [backend] at h
      obtain ⟨⟨store, next⟩, hadvance, heq⟩ := Option.map_eq_some_iff.mp h
      obtain ⟨rfl, rfl⟩ := Prod.mk.inj heq
      refine Or.inr ⟨?_, ?_⟩
      · intro t' ht' task heq
        obtain ⟨task', -, rfl⟩ := Option.mem_map.mp ht'
        cases heq
      · rcases accounts_advance hadvance with ⟨rfl, -⟩ | ⟨user, -, hcreate⟩ | ⟨u, user, -, hupdate⟩
        · exact ⟨_, _, _, _, _, rfl⟩
        · obtain ⟨-, -, -, new, -, -, rfl⟩ := createUser_iff.mp hcreate
          exact ⟨_, _, _, _, _, rfl⟩
        · obtain ⟨-, -, u', -, -, -, rfl⟩ := updateUser_iff.mp ⟨user, hupdate⟩
          exact ⟨_, _, _, _, _, rfl⟩
  | service task =>
      simp only [backend] at h
      obtain ⟨⟨s₁, next⟩, hadvance, heq⟩ := Option.map_eq_some_iff.mp h
      obtain ⟨rfl, rfl⟩ := Prod.mk.inj heq
      cases task with
      | api task =>
          obtain ⟨store, next, hapi, rfl, rfl⟩ := services_api hadvance
          exact Or.inl ⟨task, store, next, rfl, hapi, rfl, Option.map_map ..⟩
      | upload upload =>
          obtain ⟨next, hupload, rfl⟩ := services_upload hadvance
          refine Or.inr ⟨?_, ?_⟩
          · intro t' ht' task heq
            simp only [Option.map_map, Option.mem_map, Function.comp] at ht'
            obtain ⟨upload', -, rfl⟩ := ht'
            cases heq
          · rcases Upload.store_cases hupload with hsame | ⟨_, _, table, -, -, hstore⟩
            · rw [hsame]
              exact ⟨_, _, _, _, _, rfl⟩
            · rw [hstore]
              exact ⟨_, _, _, _, _, rfl⟩
      | ingest ingest =>
          obtain ⟨next, hingest, rfl⟩ := services_ingest hadvance
          refine Or.inr ⟨?_, ?_⟩
          · intro t' ht' task heq
            simp only [Option.map_map, Option.mem_map, Function.comp] at ht'
            obtain ⟨ingest', -, rfl⟩ := ht'
            cases heq
          · obtain ⟨_, _, _, hstore⟩ := Ingest.store_frame hingest
            rw [hstore]
            exact ⟨_, _, _, _, _, rfl⟩

theorem BackendTask.other_cases {t : BackendTask} (h : ∀ task, t ≠ .service (.api task)) :
    (∃ upload, t = .service (.upload upload)) ∨ (∃ ingest, t = .service (.ingest ingest))
      ∨ ∃ task, t = .account task := by
  cases t with
  | service task =>
      cases task with
      | api task => exact absurd rfl (h task)
      | upload upload => exact Or.inl ⟨upload, rfl⟩
      | ingest ingest => exact Or.inr (Or.inl ⟨ingest, rfl⟩)
  | account task => exact Or.inr (Or.inr ⟨task, rfl⟩)

/-! ## Bounds -/

def WithinLength (min max : Nat) (s : String) : Prop := min ≤ s.length ∧ s.length ≤ max

instance (min max : Nat) (s : String) : Decidable (WithinLength min max s) :=
  inferInstanceAs (Decidable (_ ∧ _))

structure Kit.Bounded (k : Kit) : Prop where
  name : ∀ name ∈ k.name, WithinLength 1 40 name
  description : ∀ description ∈ k.description, WithinLength 1 5000 description

structure User.Bounded (x : Strings) (u : User) : Prop where
  username : WithinLength 1 40 u.username
  characters : ∀ c ∈ u.username.toList, x.isAlphanumeric c = true ∨ c = '-'
  first : u.username.toList.head? ≠ some '-'
  last : u.username.toList.getLast? ≠ some '-'
  displayName : WithinLength 1 40 u.displayName
  emailAddress : u.emailAddress.length ≤ 255

def Peripheral.Bounded (p : Peripheral) : Prop := WithinLength 1 40 p.name

def Media.Bounded (m : Media) : Prop := WithinLength 1 255 m.name ∧ WithinLength 1 255 m.type

/-- Every row is within the bounds. -/
structure Store.Bounded (x : Strings) (s : Store) : Prop where
  kits : ∀ k ∈ s.kits, k.Bounded
  peripherals : ∀ p ∈ s.peripherals, p.Bounded
  media : ∀ m ∈ s.media, m.Bounded
  users : ∀ u ∈ s.users, u.Bounded x

/-! ## Validated rows -/

theorem validateLength_between {min max : Nat} {s : String} :
    validateLength (some min) (some max) s = [] ↔ WithinLength min max s := by
  simp [validateLength_eq_nil, WithinLength]

theorem WithinLength.fits {min max n : Nat} {s : String} (h : WithinLength min max s)
    (hmax : max ≤ n) : varchar n s = .ok s :=
  varchar_of_le (Nat.le_trans h.2 hmax)

/-- What is stored is within smaller bounds than the column's only if the given
text is. -/
theorem WithinLength.of_stored {min max n : Nat} {s s' : String} (h : varchar n s = .ok s')
    (hs' : WithinLength min max s') (hmax : max < n) : WithinLength min max s := by
  rcases varchar_ok h with rfl | hlength
  · exact hs'
  · exact absurd hs'.2 (by omega)

theorem NewKit.stored_columns {new new' : NewKit} (h : new.stored = .ok new') :
    nullable (varchar 255) new.name = .ok new'.name ∧ new'.description = new.description := by
  obtain ⟨_, -, h⟩ := bind_ok.mp h
  obtain ⟨_, -, h⟩ := bind_ok.mp h
  obtain ⟨name, hname, h⟩ := bind_ok.mp h
  obtain ⟨_, -, h⟩ := bind_ok.mp h
  obtain ⟨_, -, h⟩ := bind_ok.mp h
  obtain rfl := Except.ok.inj h
  exact ⟨hname, rfl⟩

theorem NewKit.bounded {new new' : NewKit} {now : Timestamp} {id : Int} {u : Unit}
    (hvalid : validate new.errors = .ok u) (h : new.stored = .ok new') :
    (new'.row now id).Bounded := by
  have hvalid := validate_eq_ok.mp hvalid
  have hname : ∀ name ∈ new.name, WithinLength 1 40 name := by
    intro name hname
    have herrors := hvalid _ (List.mem_cons_self ..)
    rw [Option.mem_def.mp hname] at herrors
    exact validateLength_between.mp herrors
  have hdescription : ∀ description ∈ new.description, WithinLength 1 5000 description := by
    intro description hdescription
    have herrors := hvalid _ (List.mem_cons_of_mem _ (List.mem_cons_self ..))
    rw [Option.mem_def.mp hdescription] at herrors
    exact validateLength_between.mp herrors
  obtain ⟨hstored, hsame⟩ := NewKit.stored_columns h
  have hname' := nullable_of_fits hstored fun name h => (hname name h).fits (by decide)
  constructor
  · show ∀ name ∈ new'.name, _
    rwa [hname']
  · show ∀ description ∈ new'.description, _
    rwa [hsame]

theorem addPeripheralToConfiguration_bounded {x : Crates} {kit : Kit}
    {configuration : KitConfiguration} {peripheral : PeripheralBody} {s s' : Store} {r : Reply}
    (h : (addPeripheralToConfiguration x kit configuration peripheral).run s = .ok (r, s')) :
    ∃ new : NewPeripheral, WithinLength 1 40 new.name ∧ s' = new.insert s := by
  obtain ⟨-, new, -, -, -, hlength, hname, -, -, rfl⟩ := addPeripheralToConfiguration_ok h
  have hbound := validateLength_between.mp hlength
  rw [hbound.fits (by decide)] at hname
  exact ⟨new, Except.ok.inj hname ▸ hbound, rfl⟩

theorem patchPeripheral_bounded {x : Crates} {configuration : KitConfiguration}
    {peripheral : Peripheral} {patch : PeripheralPatch} {s s' : Store} {r : Reply}
    (h : (patchPeripheral x configuration peripheral patch).run s = .ok (r, s')) :
    ∃ u : UpdatePeripheral, (∀ name ∈ u.name, WithinLength 1 40 name) ∧ s' = u.applyTo s := by
  obtain ⟨-, u, -, -, hlength, hname, -, -, rfl⟩ := patchPeripheral_ok h
  have hbound : ∀ name ∈ patch.name, WithinLength 1 40 name :=
    fun name hname => validateLength_between.mp (hlength name hname)
  refine ⟨u, ?_, rfl⟩
  rwa [nullable_of_fits hname fun name h => (hbound name h).fits (by decide)]

theorem NewUser.bounded {x : Strings} {new new' : NewUser} {now : Timestamp} {id : Int}
    {u : Unit} (hvalid : validate (new.errors x) = .ok u) (h : new.stored = .ok new') :
    (new'.row now id).Bounded x := by
  obtain ⟨hname, hdisplayName, hemailAddress⟩ := NewUser.stored_of_valid hvalid h
  have hvalid := validate_eq_ok.mp hvalid
  have husername := hvalid _ (List.mem_cons_self ..)
  have hdisplay := hvalid _ (List.mem_cons_of_mem _ (List.mem_cons_self ..))
  have hemail :=
    hvalid _ (List.mem_cons_of_mem _ (List.mem_cons_of_mem _ (List.mem_cons_self ..)))
  simp only [List.append_eq_nil_iff, validateLength_between] at husername hdisplay hemail
  obtain ⟨⟨-, hcharacters⟩, hlength⟩ := husername
  have hemail := (validateLength_eq_nil.mp hemail.1).2 255 rfl
  rw [← hname] at hcharacters hlength
  rw [← hdisplayName] at hdisplay
  rw [← hemailAddress] at hemail
  simp only [validateUsername, ite_eq_right_iff, List.cons_ne_self, imp_false, Bool.or_eq_true,
    Bool.not_eq_true', decide_eq_true_eq, not_or] at hcharacters
  obtain ⟨⟨hall, hfirst⟩, hlast⟩ := hcharacters
  rw [Bool.not_eq_false, List.all_eq_true] at hall
  have hall : ∀ c ∈ new'.username.toList, x.isAlphanumeric c = true ∨ c = '-' :=
    fun c hc => by simpa using hall c hc
  exact ⟨hlength, hall, hfirst, hlast, hdisplay, hemail⟩

theorem UpdateUser.bounded {x : Strings} {u u' : UpdateUser} {now : Timestamp} {user : User}
    {v : Unit} (hvalid : validate (u.errors x.validateEmail) = .ok v)
    (h : u.stored = .ok u') (huser : user.Bounded x) : (u'.apply now user).Bounded x := by
  obtain ⟨hdisplayName, hemailAddress⟩ := UpdateUser.stored_of_valid hvalid h
  have hvalid := validate_eq_ok.mp hvalid
  refine { huser with displayName := ?_, emailAddress := ?_ }
  · show WithinLength 1 40 (u'.displayName.getD user.displayName)
    rw [hdisplayName]
    cases hd : u.displayName with
    | none => exact huser.displayName
    | some displayName =>
        have herrors := hvalid _ (List.mem_cons_self ..)
        rw [hd] at herrors
        exact validateLength_between.mp herrors
  · show (u'.emailAddress.getD user.emailAddress).length ≤ 255
    rw [hemailAddress]
    cases ha : u.emailAddress with
    | none => exact huser.emailAddress
    | some emailAddress =>
        have herrors := hvalid _ (List.mem_cons_of_mem _ (List.mem_cons_self ..))
        rw [ha] at herrors
        exact (validateLength_eq_nil.mp (List.append_eq_nil_iff.mp herrors).1).2 255 rfl

/-! ## What the statements keep -/

namespace Store.Bounded

variable {x : Strings} {s s' : Store}

theorem empty : Store.empty.Bounded x where
  kits := fun k hk => by cases hk
  peripherals := fun p hp => by cases hp
  media := fun m hm => by cases hm
  users := fun u hu => by cases hu

theorem insertKit (h : s.Bounded x) {new : NewKit} {now : Timestamp}
    (hnew : (new.row now s.kits.next).Bounded) : (new.insert now s).Bounded x where
  kits := by
    intro k hk
    rcases NewKit.mem_insert.mp hk with hk | rfl
    · exact h.kits k hk
    · exact hnew
  peripherals := h.peripherals
  media := h.media
  users := h.users

/-- A kit update keeps the bounds exactly if the row that it leaves is within
them. -/
theorem updateKit_iff (h : s.Bounded x) {u : UpdateKit} {now : Timestamp} :
    (u.applyTo now s).Bounded x ↔ ∀ k ∈ s.kits, k.id = u.id → (u.apply now k).Bounded := by
  constructor
  · intro h' k hk hid
    exact h'.kits _ (UpdateKit.mem_applyTo.mpr ⟨k, hk, if_pos hid⟩)
  · intro hrow
    refine { h with kits := fun k hk => ?_ }
    obtain ⟨k₀, hk₀, rfl⟩ := UpdateKit.mem_applyTo.mp hk
    split
    · rename_i hid
      exact hrow k₀ hk₀ hid
    · exact h.kits k₀ hk₀

theorem insertPeripheral (h : s.Bounded x) {new : NewPeripheral}
    (hnew : WithinLength 1 40 new.name) : (new.insert s).Bounded x where
  kits := h.kits
  peripherals := by
    intro p hp
    rcases NewPeripheral.mem_insert.mp hp with hp | rfl
    · exact h.peripherals p hp
    · exact hnew
  media := h.media
  users := h.users

theorem updatePeripheral (h : s.Bounded x) {u : UpdatePeripheral}
    (hu : ∀ name ∈ u.name, WithinLength 1 40 name) : (u.applyTo s).Bounded x where
  kits := h.kits
  peripherals := by
    intro p hp
    obtain ⟨p₀, hp₀, rfl⟩ := UpdatePeripheral.mem_applyTo.mp hp
    split
    · show WithinLength 1 40 (u.name.getD p₀.name)
      cases hname : u.name with
      | none => exact h.peripherals p₀ hp₀
      | some name => exact hu name hname
    · exact h.peripherals p₀ hp₀
  media := h.media
  users := h.users

theorem clonePeripherals (h : s.Bounded x) (fromId toKitId toId : Int) :
    (Peripheral.cloneAll fromId toKitId toId s).Bounded x where
  kits := h.kits
  peripherals := by
    intro p hp
    rcases SerialTable.mem_insertAll hp with hp | ⟨p₀, hp₀, i, -, rfl⟩
    · exact h.peripherals p hp
    · exact h.peripherals p₀ (SerialTable.mem_select.mp hp₀).1
  media := h.media
  users := h.users

theorem remove (h : s.Bounded x) (d : Doomed) : (s.remove d).Bounded x where
  kits := fun k hk => h.kits k (SerialTable.mem_delete.mp hk).1
  peripherals := fun p hp => h.peripherals p (SerialTable.mem_delete.mp hp).1
  media := h.media
  users := h.users

theorem queueMedia (h : s.Bounded x) {now : Timestamp} {p : Media → Bool} {u : Unit}
    (hqueue : (queueMedia now p).run s = .ok (u, s')) : s'.Bounded x := by
  rw [queueMedia_ok hqueue]
  exact { h with media := fun m hm => h.media m (Table.mem_delete.mp hm).1 }

theorem of_tables (h : s.Bounded x) (hkits : s'.kits = s.kits)
    (hperipherals : s'.peripherals = s.peripherals) (hmedia : s'.media = s.media)
    (husers : s'.users = s.users) : s'.Bounded x where
  kits := by rw [hkits]; exact h.kits
  peripherals := by rw [hperipherals]; exact h.peripherals
  media := by rw [hmedia]; exact h.media
  users := by rw [husers]; exact h.users

end Store.Bounded

/-! ## Kit updates -/

theorem UpdateKit.stored_columns {u u' : UpdateKit} (h : u.stored = .ok u') :
    nullable (nullable (varchar 255)) u.name = .ok u'.name
      ∧ u'.description = u.description := by
  obtain ⟨_, -, h⟩ := bind_ok.mp h
  obtain ⟨name, hname, h⟩ := bind_ok.mp h
  obtain ⟨_, -, h⟩ := bind_ok.mp h
  obtain ⟨_, -, h⟩ := bind_ok.mp h
  obtain rfl := Except.ok.inj h
  exact ⟨hname, rfl⟩

theorem UpdateKit.update_iff {u : UpdateKit} {now : Timestamp} {s s' : Store} :
    (∃ k, (u.update now).run s = .ok (k, s')) ↔ u.isEmpty = false
      ∧ ∃ u', u.stored = .ok u' ∧ (Kit.byId u.id s).isSome = true ∧ s' = u'.applyTo now s := by
  simp only [update, Tx.run_write_ok]
  cases hempty : u.isEmpty with
  | true => simp
  | false =>
      cases hstored : u.stored with
      | error e => simp
      | ok u' =>
          rw [← UpdateKit.stored_id hstored]
          cases hk : Kit.byId u'.id s with
          | none => simp [hk]
          | some k => simp [hk, eq_comm]

/-- The values fit their columns. -/
def UpdateKit.fits (u : UpdateKit) : Bool := u.stored.toBool

theorem UpdateKit.fits_iff {u : UpdateKit} : u.fits = true ↔ ∃ u', u.stored = .ok u' := by
  unfold fits
  cases u.stored <;> simp [Except.toBool]

def KitPatch.update (x : Crates) (patch : KitPatch) (id : Int) : UpdateKit where
  id
  passwordHash := none
  name := patch.name
  description := patch.description
  latitude := patch.latitude.map (·.bind x.decimalFromF64)
  longitude := patch.longitude.map (·.bind x.decimalFromF64)
  privacyPublicDashboard := patch.privacyPublicDashboard
  privacyShowOnMap := patch.privacyShowOnMap

theorem patchKit_iff {x : Crates} {e : Env} {kit : Kit} {patch : KitPatch} {s s' : Store} :
    (∃ r, (patchKit x e kit patch).run s = .ok (r, s'))
      ↔ ∃ k, ((patch.update x kit.id).update e.now).run s = .ok (k, s') := by
  constructor
  · rintro ⟨r, h⟩
    obtain ⟨k, s₁, h₁, h⟩ := Tx.run_bind_ok.mp h
    rw [Tx.run_read_bind] at h
    obtain ⟨-, rfl⟩ := Tx.run_pure_ok.mp h
    exact ⟨k, run_db_ok.mp h₁⟩
  · rintro ⟨k, h⟩
    refine ⟨.kit k (KitLastSeen.ofKit k.id s'),
      Tx.run_bind_ok.mpr ⟨k, s', run_db_ok.mpr h, ?_⟩⟩
    rw [Tx.run_read_bind]
    rfl

/-- The values of a patch that are not null are within the bounds of the columns. -/
structure KitPatch.WithinBounds (patch : KitPatch) : Prop where
  name : ∀ value ∈ patch.name, ∀ name ∈ value, WithinLength 1 40 name
  description :
    ∀ value ∈ patch.description, ∀ description ∈ value, WithinLength 1 5000 description

/-- A patched kit is within the bounds exactly if the patch is. -/
theorem KitPatch.bounded_iff {x : Crates} {patch : KitPatch} {id : Int} {u' : UpdateKit}
    {now : Timestamp} {k : Kit} (h : (patch.update x id).stored = .ok u') (hk : k.Bounded) :
    (u'.apply now k).Bounded ↔ patch.WithinBounds := by
  obtain ⟨hname, hdescription⟩ := UpdateKit.stored_columns h
  have hname : nullable (nullable (varchar 255)) patch.name = .ok u'.name := hname
  have hdescription : u'.description = patch.description := hdescription
  constructor
  · intro hbounded
    constructor
    · intro value hvalue name hmem
      rw [Option.mem_def.mp hvalue, Option.mem_def.mp hmem] at hname
      cases hstored : varchar 255 name with
      | error e => simp [nullable, hstored, Except.map] at hname
      | ok name' =>
          rw [nullable, nullable, hstored] at hname
          have hcolumn : (u'.apply now k).name = some name' := by
            show u'.name.getD k.name = _
            rw [← Except.ok.inj hname]
            rfl
          exact (hbounded.name name' hcolumn).of_stored hstored (by decide)
    · intro value hvalue description hmem
      refine hbounded.description description ?_
      show u'.description.getD k.description = _
      rw [hdescription, Option.mem_def.mp hvalue]
      exact hmem
  · intro hpatch
    have hsame : u'.name = patch.name := by
      refine nullable_of_fits hname fun value hvalue => ?_
      cases value with
      | none => rfl
      | some name =>
          rw [nullable, (hpatch.name _ hvalue name rfl).fits (by decide)]
          rfl
    constructor
    · show ∀ name ∈ u'.name.getD k.name, _
      rw [hsame]
      cases hvalue : patch.name with
      | none => exact hk.name
      | some value => exact hpatch.name value hvalue
    · show ∀ description ∈ u'.description.getD k.description, _
      rw [hdescription]
      cases hvalue : patch.description with
      | none => exact hk.description
      | some value => exact hpatch.description value hvalue

/-- Setting the password leaves the two columns as they are. -/
theorem resetPassword_bounded {x : Strings} {e : Env} {kit : Kit} {s s' : Store} {r : Reply}
    (h : (resetPassword e kit).run s = .ok (r, s')) (hs : s.Bounded x) : s'.Bounded x := by
  obtain ⟨k, s₁, h₁, h⟩ := Tx.run_bind_ok.mp h
  obtain ⟨-, rfl⟩ := Tx.run_pure_ok.mp h
  obtain ⟨-, u', hstored, -, rfl⟩ := UpdateKit.update_iff.mp ⟨k, run_db_ok.mp h₁⟩
  obtain ⟨hname, hdescription⟩ := UpdateKit.stored_columns hstored
  have hname : u'.name = none := (Except.ok.inj hname).symm
  refine hs.updateKit_iff.mpr fun k₀ hk₀ _ => ⟨?_, ?_⟩
  · show ∀ name ∈ u'.name.getD k₀.name, _
    rw [hname]
    exact (hs.kits k₀ hk₀).name
  · show ∀ description ∈ u'.description.getD k₀.description, _
    rw [hdescription]
    exact (hs.kits k₀ hk₀).description

/-! ## Steps -/

theorem createKit_bounded {x : Crates} {strings : Strings} {e : Env} {userId : Int}
    {kit : CreateKit} {s s' : Store} {r : Reply} (hs : s.Bounded strings)
    (h : (createKit x e userId kit).run s = .ok (r, s')) : s'.Bounded strings := by
  obtain ⟨_, hvalid, h⟩ := Tx.run_ofExcept_bind_ok.mp h
  obtain ⟨_, s₁, h₁, h⟩ := Tx.run_bind_ok.mp h
  obtain ⟨new, hstored, rfl, rfl, -⟩ := NewKit.create_ok (run_db_ok.mp h₁)
  obtain ⟨_, s₂, h₂, h⟩ := Tx.run_bind_ok.mp h
  obtain ⟨-, -, -, rfl⟩ := NewKitMembership.create_ok (run_db_ok.mp h₂)
  obtain ⟨-, rfl⟩ := Tx.run_pure_ok.mp h
  exact (hs.insertKit (NewKit.bounded hvalid hstored)).of_tables rfl rfl rfl rfl

theorem ConfigurationOp.tx_bounded {x : Crates} {strings : Strings} {e : Env} {kit : Kit}
    {configuration : KitConfiguration} {op : ConfigurationOp} {s s' : Store} {r : Reply}
    (hs : s.Bounded strings) (h : (op.tx x e kit configuration).run s = .ok (r, s')) :
    s'.Bounded strings := by
  cases op with
  | patch change =>
      obtain ⟨-, s₁, hs₁, -, rfl⟩ := patchConfiguration_ok h
      rcases hs₁ with rfl | rfl <;> exact hs.of_tables rfl rfl rfl rfl
  | delete =>
      obtain ⟨s₁, hqueue, rfl⟩ := deleteConfiguration_ok h
      exact (hs.queueMedia hqueue).remove _
  | addPeripheral peripheral =>
      obtain ⟨new, hname, rfl⟩ := addPeripheralToConfiguration_bounded h
      exact hs.insertPeripheral hname

theorem PeripheralOp.tx_bounded {x : Crates} {strings : Strings}
    {configuration : KitConfiguration} {peripheral : Peripheral} {op : PeripheralOp}
    {s s' : Store} {r : Reply} (hs : s.Bounded strings)
    (h : (op.tx x configuration peripheral).run s = .ok (r, s')) : s'.Bounded strings := by
  cases op with
  | patch change =>
      obtain ⟨u, hname, rfl⟩ := patchPeripheral_bounded h
      exact hs.updatePeripheral hname
  | delete =>
      obtain ⟨-, rfl⟩ := deletePeripheral_ok h
      exact hs.remove _

/-- Every step of a request but the update of a kit keeps the bounds. -/
theorem Task.tx_bounded {x : Crates} {strings : Strings} {e : Env} {t : Task} {s s' : Store}
    {n : Task ⊕ Reply} (hs : s.Bounded strings) (ht : ∀ kit patch, t ≠ .patchKit kit patch)
    (h : (t.tx x e).run s = .ok (n, s')) : s'.Bounded strings := by
  cases n with
  | inl next => rwa [Task.tx_inl h]
  | inr reply =>
      cases t with
      | start request =>
          cases request with
          | createKit userId kit =>
              obtain ⟨_, h, -⟩ := finish_ok h
              exact createKit_bounded hs h
          | patchKitMembership userId id patch =>
              obtain ⟨_, h, -⟩ := finish_ok h
              obtain ⟨_, _, -, -, -, -, rfl⟩ := patchKitMembership_ok h
              exact hs.of_tables rfl rfl rfl rfl
          | deleteKitMembership userId id =>
              obtain ⟨_, h, -⟩ := finish_ok h
              obtain ⟨_, _, -, -, -, -, rfl⟩ := deleteKitMembership_ok h
              exact hs.of_tables rfl rfl rfl rfl
          | patchKit _ _ _ | resetPassword _ _ | deleteKit _ _ | addMember _ _ _
          | createConfiguration _ _ _ _ | onConfiguration _ _ _ | onPeripheral _ _ _
          | deleteMedia _ _ => exact absurd h andThen_not_inr
      | patchKit kit patch => exact absurd rfl (ht kit patch)
      | resetPassword kit =>
          obtain ⟨_, h, -⟩ := finish_ok h
          exact resetPassword_bounded h hs
      | deleteKit kit =>
          obtain ⟨_, h, -⟩ := finish_ok h
          obtain ⟨s₁, hqueue, rfl⟩ := deleteKit_ok h
          exact (hs.queueMedia hqueue).remove _
      | addMember kit kitLastSeen member =>
          obtain ⟨_, h, -⟩ := finish_ok h
          rcases addMember_ok h with rfl | ⟨user, -, -, -, rfl⟩
          · exact hs
          · exact hs.of_tables rfl rfl rfl rfl
      | createNewConfiguration kit description =>
          obtain ⟨_, h, -⟩ := finish_ok h
          obtain ⟨-, rfl⟩ := createNewConfiguration_ok h
          exact hs.of_tables rfl rfl rfl rfl
      | cloneConfiguration kit source =>
          obtain ⟨_, h, -⟩ := finish_ok h
          obtain ⟨-, rfl⟩ := cloneConfiguration_ok h
          have hinsert : ((cloneOf kit source).insert e.now s).Bounded strings :=
            hs.of_tables rfl rfl rfl rfl
          exact hinsert.clonePeripherals _ _ _
      | onConfiguration kit configuration op =>
          obtain ⟨_, h, -⟩ := finish_ok h
          exact ConfigurationOp.tx_bounded hs h
      | onPeripheral configuration peripheral op =>
          obtain ⟨_, h, -⟩ := finish_ok h
          exact PeripheralOp.tx_bounded hs h
      | deleteMedia id =>
          obtain ⟨_, h, -⟩ := finish_ok h
          obtain ⟨_, s₁, h₁, h⟩ := Tx.run_bind_ok.mp h
          obtain ⟨-, rfl⟩ := Tx.run_pure_ok.mp h
          exact hs.queueMedia (run_db_ok.mp h₁)
      | lastSeen _ _ | cloneModels _ _ _ | cloneAuthorize _ _ _ _
      | authorizeConfiguration _ _ _ _ | authorizePeripheral _ _ _ _ _
      | authorizeMedia _ _ _ => exact absurd h andThen_not_inr

/-- A kit that is there is only patched with values that fit their columns when
these are within the bounds. -/
def Task.WithinBounds (x : Crates) (s : Store) : Task → Prop
  | .patchKit kit patch =>
      (Kit.byId kit.id s).isSome = true → (patch.update x kit.id).fits = true →
        patch.WithinBounds
  | _ => True

/-- A patch that is carried out keeps the bounds exactly if it is within them. -/
theorem patchKit_bounded_iff {x : Crates} {strings : Strings} {kit : Kit} {patch : KitPatch}
    {u' : UpdateKit} {now : Timestamp} {s : Store} (hs : s.Bounded strings)
    (hstored : (patch.update x kit.id).stored = .ok u')
    (hkit : (Kit.byId kit.id s).isSome = true) :
    (u'.applyTo now s).Bounded strings ↔ (Task.patchKit kit patch).WithinBounds x s := by
  obtain ⟨k₀, hk₀⟩ := Option.isSome_iff_exists.mp hkit
  obtain ⟨hmem, hid⟩ := Kit.mem_of_byId hk₀
  rw [hs.updateKit_iff, UpdateKit.stored_id hstored]
  constructor
  · intro hrow _ _
    exact (KitPatch.bounded_iff hstored (hs.kits k₀ hmem)).mp (hrow k₀ hmem hid)
  · intro hok k hk _
    exact (KitPatch.bounded_iff hstored (hs.kits k hk)).mpr
      (hok hkit (UpdateKit.fits_iff.mpr ⟨u', hstored⟩))

/-- The patch of a kit that is there, with values that fit, is only refused if it
sets nothing. -/
theorem withinBounds_of_refused {x : Crates} {kit : Kit} {patch : KitPatch} {now : Timestamp}
    {s : Store} (h : ¬∃ k s', ((patch.update x kit.id).update now).run s = .ok (k, s')) :
    (Task.patchKit kit patch).WithinBounds x s := by
  intro hkit hfits
  obtain ⟨u', hstored⟩ := UpdateKit.fits_iff.mp hfits
  have hempty : (patch.update x kit.id).isEmpty = true := by
    by_contra hnot
    have hcommit : ∃ k, ((patch.update x kit.id).update now).run s = .ok (k, u'.applyTo now s) :=
      UpdateKit.update_iff.mpr ⟨by simpa using hnot, u', hstored, hkit, rfl⟩
    obtain ⟨k, hk⟩ := hcommit
    exact h ⟨k, _, hk⟩
  simp only [UpdateKit.isEmpty, KitPatch.update, Bool.and_eq_true, Option.isNone_iff_eq_none]
    at hempty
  obtain ⟨⟨⟨⟨⟨⟨-, hname⟩, hdescription⟩, -⟩, -⟩, -⟩, -⟩ := hempty
  constructor
  · rw [hname]
    intro _ hvalue
    cases hvalue
  · rw [hdescription]
    intro _ hvalue
    cases hvalue

theorem api_bounded_iff {x : Crates} {strings : Strings} {e : Env} {t : Task} {ts : List Task}
    {s s' : Store} {k : Option Task} (hs : s.Bounded strings)
    (h : (api x).advance e t ts s = some (s', k)) :
    s'.Bounded strings ↔ t.WithinBounds x s := by
  have hcases := api_advance h
  cases t with
  | patchKit kit patch =>
      rcases hcases with ⟨rfl, -⟩ | ⟨n, hr, -⟩
      · refine ⟨fun _ => ?_, fun _ => hs⟩
        by_cases hcommit : ∃ k s₁, ((patch.update x kit.id).update e.now).run s' = .ok (k, s₁)
        · obtain ⟨k₁, s₁, hrun⟩ := hcommit
          obtain ⟨r, hpatch⟩ := patchKit_iff.mpr ⟨k₁, hrun⟩
          have htask : ((Task.patchKit kit patch).tx x e).run s' = .ok (.inr r, s₁) :=
            Tx.run_bind_ok.mpr ⟨r, _, hpatch, rfl⟩
          simp only [api, Tx.commit_ok htask, Option.some.injEq, Prod.mk.injEq] at h
          obtain ⟨-, u', hstored, hkit, hs₁⟩ := UpdateKit.update_iff.mp ⟨k₁, hrun⟩
          have hbounded : (u'.applyTo e.now s').Bounded strings := by
            rw [← hs₁, h.1]
            exact hs
          exact (patchKit_bounded_iff hs hstored hkit).mp hbounded
        · exact withinBounds_of_refused hcommit
      · obtain ⟨r, hpatch, -⟩ := finish_ok hr
        obtain ⟨k₁, hrun⟩ := patchKit_iff.mp ⟨r, hpatch⟩
        obtain ⟨-, u', hstored, hkit, rfl⟩ := UpdateKit.update_iff.mp ⟨k₁, hrun⟩
        exact patchKit_bounded_iff hs hstored hkit
  | _ =>
      refine ⟨fun _ => trivial, fun _ => ?_⟩
      rcases hcases with ⟨rfl, -⟩ | ⟨n, hr, -⟩
      · exact hs
      · exact Task.tx_bounded hs (fun _ _ heq => by cases heq) hr

/-- A media row is only inserted when its name and type are within the bounds. -/
def Upload.WithinBounds (s : Store) : Upload → Prop
  | .insert media peripheral =>
      (s.media.find? media.id).isSome = false → (newMedia media peripheral).references s = true →
        (newMedia media peripheral).row.Bounded
  | _ => True

theorem upload_bounded_iff {strings : Strings} {e : ServiceEnv} {u : Upload}
    {s s' : Services} {k : Option Upload} (hs : s.store.Bounded strings)
    (h : u.advance e s = (s', k)) : s'.store.Bounded strings ↔ u.WithinBounds s.store := by
  cases Upload.advances_of_advance h with
  | oversized | looksUp | puts | putFails => exact ⟨fun _ => trivial, fun _ => hs⟩
  | @inserts media peripheral _ _ hrun =>
      obtain ⟨-, -, hrefers, table, hinsert, rfl⟩ := NewMedia.create_ok hrun
      have hmem : ∀ m, m ∈ table ↔ m ∈ s.store.media ∨ m = (newMedia media peripheral).row :=
        fun m => Table.mem_insert? hinsert
      constructor
      · intro hbounded _ _
        exact hbounded.media _ ((hmem _).mpr (Or.inr rfl))
      · intro hok
        refine { hs with media := fun m hm => ?_ }
        rcases (hmem m).mp hm with hm | rfl
        · exact hs.media m hm
        · refine hok ?_ hrefers
          cases hfind : s.store.media.find? media.id with
          | none => rfl
          | some m =>
              have htaken : s.store.media.insert? (newMedia media peripheral).row = none :=
                Table.insert?_eq_none.mpr ⟨m, Table.find?_eq_some.mp hfind⟩
              exact absurd (hinsert.symm.trans htaken) (by simp)
  | insertFails hrun =>
      refine ⟨fun _ hfree hrefers => ?_, fun _ => hs⟩
      rcases NewMedia.create_error hrun with hsize | htaken | hdangling
      · exact absurd hsize (by simp [newMedia])
      · exact absurd (hfree.symm.trans htaken) (by simp)
      · exact absurd (hdangling.symm.trans hrefers) (by simp)

theorem accounts_bounded {x : Strings} {e : AccountEnv} {t : AccountTask}
    {ts : List AccountTask} {s s' : Store} {k : Option AccountTask} (hs : s.Bounded x)
    (h : (accounts x).advance e t ts s = some (s', k)) : s'.Bounded x := by
  rcases accounts_advance h with ⟨rfl, -⟩ | ⟨user, -, hcreate⟩ | ⟨u, user, -, hupdate⟩
  · exact hs
  · obtain ⟨hvalid, -, -, new, hstored, -, rfl⟩ := createUser_iff.mp hcreate
    refine { hs with users := fun u hu => ?_ }
    rcases NewUser.mem_insert.mp hu with hu | rfl
    · exact hs.users u hu
    · exact NewUser.bounded hvalid hstored
  · obtain ⟨hvalid, -, u', hstored, -, -, rfl⟩ := updateUser_iff.mp ⟨user, hupdate⟩
    refine { hs with users := fun v hv => ?_ }
    obtain ⟨v₀, hv₀, rfl⟩ := UpdateUser.mem_applyTo.mp hv
    split
    · exact UpdateUser.bounded hvalid hstored (hs.users v₀ hv₀)
    · exact hs.users v₀ hv₀

theorem ingest_bounded {strings : Strings} {e : ServiceEnv} {i : Ingest} {s s' : Services}
    {k : Option Ingest} (hs : s.store.Bounded strings) (h : i.advance e s = (s', k)) :
    s'.store.Bounded strings := by
  obtain ⟨_, _, _, hstore⟩ := Ingest.store_frame h
  rw [hstore]
  exact { hs with }

/-! ## Runs -/

def BackendTask.WithinBounds (x : Crates) (s : Store) : BackendTask → Prop
  | .service (.api task) => task.WithinBounds x s
  | .service (.upload upload) => upload.WithinBounds s
  | _ => True

theorem backend_bounded_iff {x : Crates} {strings : Strings} {e : BackendEnv}
    {t : BackendTask} {ts : List BackendTask} {s s' : Services} {k : Option BackendTask}
    (hs : s.store.Bounded strings) (h : (backend x strings).advance e t ts s = some (s', k)) :
    s'.store.Bounded strings ↔ t.WithinBounds x s.store := by
  cases t with
  | account task =>
      simp only [backend] at h
      obtain ⟨⟨store, next⟩, hadvance, heq⟩ := Option.map_eq_some_iff.mp h
      obtain ⟨rfl, -⟩ := Prod.mk.inj heq
      exact ⟨fun _ => trivial, fun _ => accounts_bounded hs hadvance⟩
  | service task =>
      simp only [backend] at h
      obtain ⟨⟨s₁, next⟩, hadvance, heq⟩ := Option.map_eq_some_iff.mp h
      obtain ⟨rfl, -⟩ := Prod.mk.inj heq
      cases task with
      | api task =>
          obtain ⟨store, next, hapi, rfl, -⟩ := services_api hadvance
          exact api_bounded_iff hs hapi
      | upload upload =>
          obtain ⟨next, hupload, -⟩ := services_upload hadvance
          exact upload_bounded_iff hs hupload
      | ingest ingest =>
          obtain ⟨next, hingest, -⟩ := services_ingest hadvance
          exact ⟨fun _ => trivial, fun _ => ingest_bounded hs hingest⟩

/-- **Every row is within its declared bounds** throughout exactly those runs in
which every kit patch that is carried out and every media row that is inserted is
within them. -/
theorem declared_bounds_iff (x : Crates) (strings : Strings)
    (ls : List (Sched BackendRequest BackendEnv)) :
    Run.Always (backend x strings).step (fun c => c.store.store.Bounded strings)
        ⟨.start .empty, []⟩ ls
      ↔ Run.Guarded (backend x strings).step
        (Program.Ok (fun _ _ _ => True) fun _ t _ s => t.WithinBounds x s.store)
        ⟨.start .empty, []⟩ ls :=
  Program.store_always_iff _ (J := fun _ => True) (I := fun s => s.store.Bounded strings)
    (fun _ _ _ _ _ _ _ _ => trivial) (fun _ _ _ _ _ _ _ hs h => backend_bounded_iff hs h) ls
    trivial Store.Bounded.empty

/-- A user is created, and a kit by that user, which is then given the empty name. -/
def namelessKit : List (Sched BackendRequest BackendEnv) :=
  [.spawn (.account (.createUser ⟨"ada", "", "ada@astroplant.io"⟩)),
    .run 0 {}, .run 0 {}, .run 0 {},
    .spawn (.service (.api (.createKit 1 ⟨some "Maidenhair", none, none, none, true, true⟩))),
    .run 0 { serial := "k1" },
    .spawn (.service (.api
      (.patchKit (some 1) "k1" ⟨some (some ""), none, none, none, none, none⟩))),
    .run 0 {}, .run 0 {}]

theorem kit_without_name :
    ∃ c, Run.exec (backend plainCrates .ascii).step ⟨.start .empty, []⟩ namelessKit = some c
      ∧ c.store.store.kits.rows.map (·.name) = [some ""]
      ∧ ¬ c.store.store.Bounded .ascii := by
  have hrun : ∃ c, Run.exec (backend plainCrates .ascii).step ⟨.start .empty, []⟩ namelessKit
        = some c
      ∧ c.store.store.kits.rows.map (·.name) = [some ""] := ⟨_, rfl, rfl⟩
  obtain ⟨c, hrun, hnames⟩ := hrun
  refine ⟨c, hrun, hnames, fun hbounded => ?_⟩
  obtain ⟨k, hk, hname⟩ : ∃ k ∈ c.store.store.kits.rows, k.name = some "" := by
    have hmem : some "" ∈ c.store.store.kits.rows.map (·.name) := by
      rw [hnames]
      exact List.mem_singleton.mpr rfl
    simpa using hmem
  have hbound := (hbounded.kits k hk).name "" hname
  exact absurd hbound.1 (by decide)

end AstroPlant
