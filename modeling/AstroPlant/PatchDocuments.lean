import AstroPlant.DeclaredBounds
import AstroPlant.FloatDisplay
import AstroPlant.Given

/-!
# The documents of patches

What a body of `PATCH` says of each field of a kit, of a user and of a
peripheral, what the program reads of it, and the row that the document asks for.
Only the columns of a kit can be cleared.

For each resource the same four things are here: what the document says
(`Given`), what the program's types make of it (`patch`), the row it asks for
(`merge`), and whether it asks for anything (`assigns`). The bridge is that the
two readings of a body agree (`KitPatch.ofJson_eq` and its siblings), that valid
values are stored as they are (`update_stored`), and that the update applied to
the row is the merge (`update_apply`).
-/

namespace AstroPlant

/-- The number that a finite float is. -/
def F64.toRat (x : F64) : Rat :=
  (if x.isNegative then -1 else 1) * x.significand * 2 ^ x.scale

/-- The number is one that the columns of coordinates hold exactly. -/
def F64.IsCoordinate (x : F64) : Prop :=
  x.isFinite = true ∧ numeric x.toRat = .ok x.toRat

/-- A number with so few digits is converted to exactly that decimal. -/
def Crates.ExactCoordinates (x : Crates) : Prop :=
  ∀ v : F64, v.IsCoordinate → x.decimalFromF64 v = some v.toRat

/-! ## Kits -/

structure KitDocument where
  name : Given String
  description : Given String
  latitude : Given F64
  longitude : Given F64
  privacyPublicDashboard : Given Bool
  privacyShowOnMap : Given Bool

def KitDocument.ofJson (body : Json) : Option KitDocument := do
  let name ← Json.given Json.string? "name" body
  let description ← Json.given Json.string? "description" body
  let latitude ← Json.given Json.toF64? "latitude" body
  let longitude ← Json.given Json.toF64? "longitude" body
  let privacyPublicDashboard ← Json.given Json.bool? "privacyPublicDashboard" body
  let privacyShowOnMap ← Json.given Json.bool? "privacyShowOnMap" body
  return { name, description, latitude, longitude, privacyPublicDashboard, privacyShowOnMap }

/-- The `Deserialize` of the program. -/
def KitPatch.ofJson (body : Json) : Option KitPatch := do
  let name ← Json.doubleOptionField Json.string? "name" body
  let description ← Json.doubleOptionField Json.string? "description" body
  let latitude ← Json.doubleOptionField Json.toF64? "latitude" body
  let longitude ← Json.doubleOptionField Json.toF64? "longitude" body
  let privacyPublicDashboard ← Json.optionField Json.bool? "privacyPublicDashboard" body
  let privacyShowOnMap ← Json.optionField Json.bool? "privacyShowOnMap" body
  return { name, description, latitude, longitude, privacyPublicDashboard, privacyShowOnMap }

namespace KitDocument

def patch (d : KitDocument) : KitPatch where
  name := d.name.toDoubleOption
  description := d.description.toDoubleOption
  latitude := d.latitude.toDoubleOption
  longitude := d.longitude.toDoubleOption
  privacyPublicDashboard := d.privacyPublicDashboard.toOption
  privacyShowOnMap := d.privacyShowOnMap.toOption

/-- The kit that the document asks for. -/
def merge (d : KitDocument) (kit : Kit) : Kit :=
  { kit with
    name := d.name.mergeNullable kit.name
    description := d.description.mergeNullable kit.description
    latitude := (d.latitude.map F64.toRat).mergeNullable kit.latitude
    longitude := (d.longitude.map F64.toRat).mergeNullable kit.longitude
    privacyPublicDashboard := d.privacyPublicDashboard.merge kit.privacyPublicDashboard
    privacyShowOnMap := d.privacyShowOnMap.merge kit.privacyShowOnMap }

/-- The document gives some field a value, or clears one. -/
def assigns (d : KitDocument) : Bool :=
  d.name.isGiven || d.description.isGiven || d.latitude.isGiven || d.longitude.isGiven
    || d.privacyPublicDashboard.isValue || d.privacyShowOnMap.isValue

/-- The values fit their columns. -/
structure Valid (d : KitDocument) : Prop where
  name : ∀ name, d.name = .value name → name.length ≤ 255 ∧ isStorable name = true
  description : ∀ description, d.description = .value description → isStorable description = true
  latitude : ∀ v, d.latitude = .value v → v.IsCoordinate
  longitude : ∀ v, d.longitude = .value v → v.IsCoordinate

end KitDocument

theorem KitPatch.ofJson_eq (body : Json) :
    KitPatch.ofJson body = (KitDocument.ofJson body).map KitDocument.patch := by
  simp only [KitPatch.ofJson, KitDocument.ofJson, Json.doubleOptionField_eq_given,
    Json.optionField_eq_given, Option.bind_eq_bind, Option.bind_map, Option.map_bind,
    Function.comp_def, Option.pure_def, Option.map_some, KitDocument.patch]

/-! ### What is stored -/

theorem nullable_toOption {α : Type} {store : α → Except DieselError α} {given : Given α}
    (h : ∀ a, given = .value a → store a = .ok a) :
    nullable store given.toOption = .ok given.toOption := by
  cases given with
  | absent | null => rfl
  | value a =>
      rw [Given.toOption, nullable, h a rfl]
      rfl

theorem nullable_toDoubleOption {α : Type} {store : α → Except DieselError α} {given : Given α}
    (h : ∀ a, given = .value a → store a = .ok a) :
    nullable (nullable store) given.toDoubleOption = .ok given.toDoubleOption := by
  cases given with
  | absent | null => rfl
  | value a =>
      rw [Given.toDoubleOption, nullable, nullable, h a rfl]
      rfl

section Coordinates

variable {x : Crates} {given : Given F64}

/-- Coordinates are converted to the numbers that they are. -/
theorem Crates.ExactCoordinates.convert (hx : x.ExactCoordinates)
    (h : ∀ v, given = .value v → v.IsCoordinate) :
    given.toDoubleOption.map (·.bind x.decimalFromF64)
      = (given.map F64.toRat).toDoubleOption := by
  cases given with
  | absent | null => rfl
  | value v => exact congrArg some (hx v (h v rfl))

theorem Crates.ExactCoordinates.stored (hx : x.ExactCoordinates)
    (h : ∀ v, given = .value v → v.IsCoordinate) :
    nullable (nullable numeric) (given.toDoubleOption.map (·.bind x.decimalFromF64))
      = .ok (given.toDoubleOption.map (·.bind x.decimalFromF64)) := by
  rw [hx.convert h]
  refine nullable_toDoubleOption fun q hq => ?_
  cases given with
  | absent | null => cases hq
  | value v =>
      cases hq
      exact (h v rfl).2

end Coordinates

namespace KitDocument

variable {x : Crates} {d : KitDocument} {id : Int}

theorem update_stored (hx : x.ExactCoordinates) (hvalid : d.Valid) :
    (d.patch.update x id).stored = .ok (d.patch.update x id) := by
  have hname : nullable (nullable (varchar 255)) (d.patch.update x id).name
      = .ok (d.patch.update x id).name :=
    nullable_toDoubleOption fun name h => varchar_of_le (hvalid.name name h).1
  have hlatitude : nullable (nullable numeric) (d.patch.update x id).latitude
      = .ok (d.patch.update x id).latitude := hx.stored hvalid.latitude
  have hlongitude : nullable (nullable numeric) (d.patch.update x id).longitude
      = .ok (d.patch.update x id).longitude := hx.stored hvalid.longitude
  unfold UpdateKit.stored
  rw [hname, hlatitude, hlongitude]
  rfl

/-- The update sets a column if the document assigns something. -/
theorem update_isEmpty : (d.patch.update x id).isEmpty = !d.assigns := by
  simp only [UpdateKit.isEmpty, KitPatch.update, patch, assigns, Option.isNone_map,
    Option.isNone_none, Given.isNone_toDoubleOption, Given.isNone_toOption, Bool.true_and,
    Bool.not_or]

theorem update_apply (hx : x.ExactCoordinates) (hvalid : d.Valid) (id : Int) (now : Timestamp)
    (kit : Kit) :
    (d.patch.update x id).apply now kit = { d.merge kit with updatedAt := now } := by
  simp only [UpdateKit.apply, KitPatch.update, patch, merge, hx.convert hvalid.latitude,
    hx.convert hvalid.longitude, Given.getD_toDoubleOption, Given.getD_toOption,
    Option.getD_none]

end KitDocument

/-! ## Users -/

structure UserDocument where
  displayName : Given String
  emailAddress : Given String
  useEmailAddressForGravatar : Given Bool

def UserDocument.ofJson (body : Json) : Option UserDocument := do
  let displayName ← Json.given Json.string? "displayName" body
  let emailAddress ← Json.given Json.string? "emailAddress" body
  let useEmailAddressForGravatar ← Json.given Json.bool? "useEmailAddressForGravatar" body
  return { displayName, emailAddress, useEmailAddressForGravatar }

/-- The `Deserialize` of the program. -/
def UserPatch.ofJson (body : Json) : Option UserPatch := do
  let displayName ← Json.optionField Json.string? "displayName" body
  let emailAddress ← Json.optionField Json.string? "emailAddress" body
  let useEmailAddressForGravatar ← Json.optionField Json.bool? "useEmailAddressForGravatar" body
  return { displayName, emailAddress, useEmailAddressForGravatar }

namespace UserDocument

def patch (d : UserDocument) : UserPatch where
  displayName := d.displayName.toOption
  emailAddress := d.emailAddress.toOption
  useEmailAddressForGravatar := d.useEmailAddressForGravatar.toOption

/-- The user that the document asks for. -/
def merge (d : UserDocument) (user : User) : User :=
  { user with
    displayName := d.displayName.merge user.displayName
    emailAddress := d.emailAddress.merge user.emailAddress
    useEmailAddressForGravatar :=
      d.useEmailAddressForGravatar.merge user.useEmailAddressForGravatar }

/-- The document gives some field a value. -/
def assigns (d : UserDocument) : Bool :=
  d.displayName.isValue || d.emailAddress.isValue || d.useEmailAddressForGravatar.isValue

/-- The values are valid and can be stored, and the email address is not somebody
else's: neither is somebody else found by it, nor does somebody else have it. -/
structure Valid (d : UserDocument) (strings : Strings) (id : Int) (s : Store) : Prop where
  displayName : ∀ name, d.displayName = .value name → isStorable name = true
  values : validate ((d.patch.update id).errors strings.validateEmail) = .ok ()
  notFound : checkEmailAddress strings.pg (d.patch.update id) s = .ok ()
  free : ∀ emailAddress, d.emailAddress = .value emailAddress →
    ∀ v ∈ s.users, v.id ≠ id → v.emailAddress ≠ emailAddress

end UserDocument

theorem UserPatch.ofJson_eq (body : Json) :
    UserPatch.ofJson body = (UserDocument.ofJson body).map UserDocument.patch := by
  simp only [UserPatch.ofJson, UserDocument.ofJson, Json.optionField_eq_given,
    Option.bind_eq_bind, Option.bind_map, Option.map_bind, Function.comp_def, Option.pure_def,
    Option.map_some, UserDocument.patch]

namespace UserDocument

variable {validateEmail : String → Bool} {d : UserDocument} {id : Int}

theorem update_stored (hvalid : validate ((d.patch.update id).errors validateEmail) = .ok ()) :
    (d.patch.update id).stored = .ok (d.patch.update id) := by
  have hvalid := validate_eq_ok.mp hvalid
  have hdisplay : nullable (varchar 40) (d.patch.update id).displayName
      = .ok (d.patch.update id).displayName := by
    refine nullable_toOption fun name hname => varchar_of_le ?_
    have herrors := hvalid _ (List.mem_cons_self ..)
    rw [show (d.patch.update id).displayName = some name from Given.mem_toOption.mpr hname]
      at herrors
    exact (validateLength_eq_nil.mp herrors).2 40 rfl
  have hemail : nullable (varchar 255) (d.patch.update id).emailAddress
      = .ok (d.patch.update id).emailAddress := by
    refine nullable_toOption fun emailAddress haddress => varchar_of_le ?_
    have herrors := hvalid _ (List.mem_cons_of_mem _ (List.mem_cons_self ..))
    rw [show (d.patch.update id).emailAddress = some emailAddress from
      Given.mem_toOption.mpr haddress] at herrors
    exact (validateLength_eq_nil.mp (List.append_eq_nil_iff.mp herrors).1).2 255 rfl
  unfold UpdateUser.stored
  rw [hdisplay, hemail]
  rfl

/-- The update sets a column if the document assigns something. -/
theorem update_isEmpty : (d.patch.update id).isEmpty = !d.assigns := by
  simp only [UpdateUser.isEmpty, UserPatch.update, patch, assigns, Option.isNone_none,
    Given.isNone_toOption, Bool.and_true, Bool.not_or]

theorem update_apply (id : Int) (now : Timestamp) (user : User) :
    (d.patch.update id).apply now user = { d.merge user with updatedAt := now } := by
  simp only [UpdateUser.apply, UserPatch.update, patch, merge, Given.getD_toOption,
    Option.getD_none]

end UserDocument

/-! ## Peripherals -/

structure PeripheralDocument where
  name : Given String
  configuration : Given Json

def PeripheralDocument.ofJson (body : Json) : Option PeripheralDocument := do
  let name ← Json.given Json.string? "name" body
  let configuration ← Json.given some "configuration" body
  return { name, configuration }

/-- The `Deserialize` of the program. -/
def PeripheralPatch.ofJson (body : Json) : Option PeripheralPatch := do
  let name ← Json.optionField Json.string? "name" body
  let configuration ← Json.optionField some "configuration" body
  return { name, configuration }

namespace PeripheralDocument

def patch (d : PeripheralDocument) : PeripheralPatch where
  name := d.name.toOption
  configuration := d.configuration.toOption

/-- The peripheral that the document asks for. -/
def merge (d : PeripheralDocument) (peripheral : Peripheral) : Peripheral :=
  { peripheral with
    name := d.name.merge peripheral.name
    configuration := d.configuration.merge peripheral.configuration }

/-- The document gives some field a value. -/
def assigns (d : PeripheralDocument) : Bool := d.name.isValue || d.configuration.isValue

/-- The name is neither empty nor too long and can be stored, and the configuration
is strictly valid for the definition. -/
structure Valid (d : PeripheralDocument) (x : Crates) (definition : PeripheralDefinition) :
    Prop where
  name : ∀ name, d.name = .value name → WithinLength 1 40 name ∧ isStorable name = true
  configuration : ∀ configuration, d.configuration = .value configuration →
    x.strictlyValid definition.configurationSchema configuration = some true

end PeripheralDocument

theorem PeripheralPatch.ofJson_eq (body : Json) :
    PeripheralPatch.ofJson body
      = (PeripheralDocument.ofJson body).map PeripheralDocument.patch := by
  simp only [PeripheralPatch.ofJson, PeripheralDocument.ofJson, Json.optionField_eq_given,
    Option.bind_eq_bind, Option.bind_map, Option.map_bind, Function.comp_def, Option.pure_def,
    Option.map_some, PeripheralDocument.patch]

namespace PeripheralDocument

variable {x : Crates} {d : PeripheralDocument} {definition : PeripheralDefinition}

def update (d : PeripheralDocument) (id : Int) : UpdatePeripheral where
  id
  name := d.patch.name
  configuration := d.patch.configuration

theorem Valid.errors (h : d.Valid x definition) (id : Int) :
    validate (d.update id).errors = .ok () := by
  refine validate_eq_ok.mpr fun error herror => ?_
  obtain rfl := List.mem_singleton.mp herror
  show (d.name.toOption.map (validateLength (some 1) (some 40))).getD [] = []
  cases hname : d.name with
  | absent | null => rfl
  | value name =>
      obtain ⟨⟨hmin, hmax⟩, -⟩ := h.name name hname
      refine validateLength_eq_nil.mpr ⟨hmin, fun m hm => ?_⟩
      rwa [← Option.some.inj hm]

theorem Valid.checked (h : d.Valid x definition) (id : Int) :
    ((d.update id).configuration.map (checkConfiguration x · definition)).getD (.ok ())
      = .ok () := by
  show (d.configuration.toOption.map _).getD _ = _
  cases hconfiguration : d.configuration with
  | absent | null => rfl
  | value configuration =>
      show checkConfiguration x configuration definition = .ok ()
      rw [checkConfiguration, h.configuration configuration hconfiguration]

theorem update_apply (id : Int) (peripheral : Peripheral) :
    (d.update id).apply peripheral = d.merge peripheral := by
  simp only [UpdatePeripheral.apply, update, patch, merge, Given.getD_toOption]

/-- When the update of a peripheral succeeds, and what it does. -/
theorem update_iff (h : d.Valid x definition) {s s' : Store} {peripheral : Peripheral}
    (hperipheral : peripheral ∈ s.peripherals) :
    (∃ p, (d.update peripheral.id).update.run s = .ok (p, s'))
      ↔ d.assigns = true ∧ s' = (d.update peripheral.id).applyTo s := by
  have hname : nullable (varchar 255) (d.update peripheral.id).name
      = .ok (d.update peripheral.id).name :=
    nullable_toOption fun name hname => varchar_of_le ((h.name name hname).1.2.trans (by decide))
  have hempty : ((d.update peripheral.id).name.isNone
      && (d.update peripheral.id).configuration.isNone) = !d.assigns := by
    simp only [update, patch, assigns, Given.isNone_toOption, Bool.not_or]
  have hfound : Peripheral.byId (d.update peripheral.id).id s = some peripheral :=
    SerialTable.find?_eq_some.mpr ⟨hperipheral, rfl⟩
  simp only [UpdatePeripheral.update, Tx.run_write_ok, hempty, hname, hfound]
  cases d.assigns with
  | false => simp
  | true => simp [eq_comm]

end PeripheralDocument

end AstroPlant
