import AstroPlant.HashMap
import AstroPlant.MediaObjects
import AstroPlant.Pages
import AstroPlant.Users

/-!
# Reading

The handlers that only read. Most ask for permission to view a kit and then read
what belongs to it. The list of kits is filtered by the query instead, a user's
memberships are listed, with their kits, to everybody, and the catalogue (the
quantity types and the peripheral definitions) is the same for all.

A handler does not read all that it reads at once. The permission is looked up
through a connection of its own, and the statements that follow see what is
committed by then, so a handler takes a state for each of its accesses:
`Read.answerAt` answers from the states that the accesses see, in order, and
`Read.answer` is the case of a state that stays the same meanwhile. What is one
query of the source, or one lookup of a permission, is one access here.

The views of the rows are here too, with the fields that a client is shown. The
password hashes of users and kits are in none of them.
-/

namespace AstroPlant

/-- What reading takes from the database and from other crates. -/
structure Reading where
  pg : Postgres
  codecs : Codecs
  decimalToF64 : Rat → Option F64
  scanOrder : ScanOrder

/-! ## Views -/

/-- `views::Kit`. -/
structure KitView where
  id : Int
  serial : String
  name : Option String
  description : Option String
  latitude : Option F64
  longitude : Option F64
  privacyPublicDashboard : Bool
  privacyShowOnMap : Bool
  lastSeen : Option Timestamp

def KitView.ofModel (x : Reading) (kit : Kit) (lastSeen : Option Timestamp) : KitView where
  id := kit.id
  serial := kit.serial
  name := kit.name
  description := kit.description
  latitude := kit.latitude.bind x.decimalToF64
  longitude := kit.longitude.bind x.decimalToF64
  privacyPublicDashboard := kit.privacyPublicDashboard
  privacyShowOnMap := kit.privacyShowOnMap
  lastSeen

/-- The kit as it is shown, with when it was last seen. -/
def Kit.view (x : Reading) (s : Store) (kit : Kit) : KitView :=
  .ofModel x kit (KitLastSeen.ofKit kit.id s)

/-- `views::KitMembership` with its user and its kit. -/
structure KitMembershipView where
  id : Int
  user : UserView
  kit : KitView
  datetimeLinked : Timestamp
  accessSuper : Bool
  accessConfigure : Bool

def KitMembershipView.ofModel (membership : KitMembership) (user : UserView) (kit : KitView) :
    KitMembershipView :=
  { membership with user, kit }

namespace Views

/-- `views::KitConfiguration`. -/
structure KitConfiguration where
  id : Int
  kitId : Int
  description : Option String
  controllerSymbolLocation : String
  controllerSymbol : String
  controlRules : Json
  active : Bool
  neverUsed : Bool

def KitConfiguration.ofModel (configuration : AstroPlant.KitConfiguration) : KitConfiguration :=
  { configuration with neverUsed := configuration.neverUsed }

/-- `views::KitConfigurationWithPeripherals`. -/
structure KitConfigurationWithPeripherals (π : Type) where
  kitConfiguration : KitConfiguration
  peripherals : List π

/-- `views::PeripheralWithDefinition`; both are shown with all their columns. -/
structure PeripheralWithDefinition where
  peripheral : Peripheral
  definition : PeripheralDefinition

end Views

/-- `views::FullUser`. -/
structure FullUserView where
  id : Int
  username : String
  displayName : String
  emailAddress : String
  useEmailAddressForGravatar : Bool
  gravatarAlternative : String
deriving DecidableEq

def FullUserView.ofModel (user : User) : FullUserView := { user with }

/-- `views::PeripheralDefinition`, all columns, alone or
`with_expected_quantity_types`. -/
structure PeripheralDefinitionView where
  peripheralDefinition : PeripheralDefinition
  expectedQuantityTypes : Option (List Int)

/-- A list, and the link to what comes after its last element. -/
structure Listing (α : Type) where
  body : List α
  next : Option String

/-! ## Kits -/

structure KitsQuery where
  lastSeenSince : Option Timestamp
  after : Option Int

def KitsQuery.LIMIT : Nat := 100

/-- Findable on the map and publicly viewable, and what the query asks for; a
kit that was never seen was not seen since. -/
def KitsQuery.selects (query : KitsQuery) (s : Store) (kit : Kit) : Bool :=
  kit.privacyShowOnMap && kit.privacyPublicDashboard
    && query.lastSeenSince.all (fun since => (KitLastSeen.ofKit kit.id s).any (since ≤ ·))
    && query.after.all (· < kit.id)

/-- `GET /kits`. -/
def kits (x : Reading) (query : KitsQuery) (s : Store) : Listing KitView :=
  let kits := ((s.kits.select (query.selects s)).insertionSort (·.id ≤ ·.id)).take KitsQuery.LIMIT
  let body := kits.map (Kit.view x s)
  { body, next := body.getLast?.map fun last => "/kits?after=" ++ i32ToString last.id }

/-- `GET /kits/{kitSerial}`. -/
def kitBySerial (x : Reading) (userId : Option Int) (kitSerial : String)
    (atPermission atLastSeen : Store) : Except Problem KitView := do
  let r ← (futKitPermissionOrForbidden userId kitSerial .view).run atPermission
  return r.1.2.2.view x atLastSeen

/-- Users joined with their memberships in the kit. -/
def membersOf (kitId : Int) (s : Store) : List (User × KitMembership) :=
  s.users.rows.flatMap fun user =>
    (s.kitMemberships.select fun m => m.userId = user.id && m.kitId = kitId).map (user, ·)

/-- `GET /kits/{kitSerial}/members`. -/
def getMembers (x : Reading) (userId : Option Int) (kitSerial : String)
    (atPermission atLastSeen atMembers : Store) : Except Problem (List KitMembershipView) := do
  let r ← (futKitPermissionOrForbidden userId kitSerial .view).run atPermission
  let kit := r.1.2.2
  return (membersOf kit.id atMembers).map fun member =>
    .ofModel member.2 (.ofModel member.1) (kit.view x atLastSeen)

/-- `ilike(pattern).limit(limit)` over the rows in the order they are scanned. -/
def User.ilike (pg : Postgres) (pattern : String) : Nat → List User → Except DieselError (List User)
  | 0, _ | _, [] => .ok []
  | limit + 1, user :: users =>
      match pg.ilike user.username pattern with
      | none => .error .databaseError
      | some true => (ilike pg pattern limit users).map (user :: ·)
      | some false => ilike pg pattern (limit + 1) users

/-- `GET /kits/{kitSerial}/member-suggestions`. -/
def getMemberSuggestions (pg : Postgres) (userId : Option Int) (kitSerial username : String)
    (atPermission atUsers : Store) : Except Problem (List UserView) := do
  let _ ← (futKitPermissionOrForbidden userId kitSerial .editMembers).run atPermission
  -- a pattern with U+0000 is refused by the database as a whole
  let users ← (if isStorable username then
      User.ilike pg ("%" ++ username ++ "%") 20 (pg.scan atUsers.users.rows)
    else .error .databaseError).mapError Problem.ofDiesel
  return users.map .ofModel

/-! ## Configurations -/

/-- Each configuration takes its group out of the map. -/
def withGroups : (AList fun _ : Int => List Peripheral) → List KitConfiguration →
    List (Views.KitConfigurationWithPeripherals Peripheral)
  | _, [] => []
  | groups, c :: cs =>
      ⟨.ofModel c, (groups.lookup c.id).getD []⟩ :: withGroups (groups.erase c.id) cs

/-- What `configurations_by_kit_serial` makes of the rows it has loaded. -/
def configurationsWithPeripherals (kitConfigurations : List KitConfiguration)
    (kitPeripherals : List Peripheral) :
    List (Views.KitConfigurationWithPeripherals Peripheral) :=
  let kitPeripherals :=
    HashMap.intoGroupMap (kitPeripherals.map fun p => (p.kitConfigurationId, p))
  withGroups kitPeripherals kitConfigurations

/-- `GET /kits/{kitSerial}/configurations`. -/
def configurationsByKitSerial (o : ScanOrder) (userId : Option Int) (kitSerial : String)
    (atPermission atConfigurations atPeripherals : Store) :
    Except Problem (List (Views.KitConfigurationWithPeripherals Peripheral)) := do
  let r ← (futKitPermissionOrForbidden userId kitSerial .view).run atPermission
  let kit := r.1.2.2
  let kitConfigurations := o.scan (atConfigurations.kitConfigurations.select (·.kitId = kit.id))
  let kitPeripherals := o.scan (atPeripherals.peripherals.select (·.kitId = kit.id))
  return configurationsWithPeripherals kitConfigurations kitPeripherals

/-! ## Permissions -/

/-- `KitAction::iter`. -/
def KitAction.all : List KitAction :=
  [.view, .subscribeRealTimeMeasurements, .delete, .deleteMedia, .resetPassword, .editDetails,
    .editConfiguration, .editMembers, .editSuperMembers, .rpcVersion, .rpcUptime,
    .rpcPeripheralCommand, .rpcPeripheralCommandLock]

/-- `GET /permissions`; here a user id without a user is anonymous. -/
def userKitPermissions (userId : Option Int) (kitSerial : String) (s : Store) :
    Except Problem (List KitAction) := do
  let user := userId.bind (User.byId · s)
  let some kit := Kit.bySerial kitSerial s | throw .NOT_FOUND
  let membership := membershipOf userId kit.id s
  return KitAction.all.filter fun action => action.permitted (.ofModels user membership) kit

/-! ## Quantity types -/

def QuantityType.cursorPage (after : Option Int) (limit : Nat) (s : Store) : List QuantityType :=
  ((s.quantityTypes.select fun q => after.all (· < q.id)).insertionSort (·.id ≤ ·.id)).take limit

/-- `GET /quantity-types`. -/
def quantityTypes (after : Option Int) (s : Store) : Listing QuantityType :=
  let body := QuantityType.cursorPage after 2 s
  { body, next := body.getLast?.map fun last => "/quantity-types?after=" ++ i32ToString last.id }

/-! ## Peripheral definitions -/

/-- `grouped_by`: each child goes to the group of its parent. -/
def groupedBy {π χ : Type} (parentId : π → Int) (foreignKey : χ → Int)
    (children : List χ) (parents : List π) : List (List χ) :=
  children.foldl
    (fun groups child =>
      groups.modify (parents.findIdx (parentId · = foreignKey child)) (· ++ [child]))
    (parents.map fun _ => [])

namespace PeripheralDefinition

def cursorPage (after : Option Int) (limit : Nat) (s : Store) : List PeripheralDefinition :=
  ((s.peripheralDefinitions.select fun d => after.all (· < d.id)).insertionSort
    (·.id ≤ ·.id)).take limit

structure QueryParams where
  after : Option Int
  withExpectedQuantityTypes : Bool

end PeripheralDefinition

def PeripheralDefinitionExpectedQuantityType.ofPeripheralDefinitions (o : ScanOrder)
    (peripheralDefinitions : List PeripheralDefinition) (s : Store) :
    List (List PeripheralDefinitionExpectedQuantityType) :=
  groupedBy PeripheralDefinition.id (·.peripheralDefinitionId)
    (o.scan (s.peripheralDefinitionExpectedQuantityTypes.select fun r =>
      peripheralDefinitions.any (·.id = r.peripheralDefinitionId)))
    peripheralDefinitions

/-- The second query reads the state that it finds. -/
def getDefinitionsAndExpectedQuantityTypes (o : ScanOrder)
    (queryParams : PeripheralDefinition.QueryParams) (s s' : Store) :
    List PeripheralDefinition × Option (List (List PeripheralDefinitionExpectedQuantityType)) :=
  let definitions := PeripheralDefinition.cursorPage queryParams.after 2 s
  (definitions,
    if queryParams.withExpectedQuantityTypes then
      some (PeripheralDefinitionExpectedQuantityType.ofPeripheralDefinitions o definitions s')
    else none)

/-- `GET /peripheral-definitions`. -/
def peripheralDefinitions (o : ScanOrder) (queryParams : PeripheralDefinition.QueryParams)
    (s s' : Store) : Listing PeripheralDefinitionView :=
  let r := getDefinitionsAndExpectedQuantityTypes o queryParams s s'
  { body :=
      match r.2 with
      | some expectedQuantityTypes =>
          (r.1.zip expectedQuantityTypes).map fun d => ⟨d.1, some (d.2.map (·.quantityTypeId))⟩
      | none => r.1.map fun d => ⟨d, none⟩
    next := r.1.getLast?.map fun last =>
      "/peripheral-definitions?after=" ++ i32ToString last.id ++ "&withExpectedQuantityTypes="
        ++ toString queryParams.withExpectedQuantityTypes }

/-! ## Users -/

/-- `GET /me`, of a user who has given a token. -/
def me (userId : Int) (s : Store) : Except Problem FullUserView :=
  match User.byId userId s with
  | none => .error .INTERNAL_SERVER_ERROR
  | some user => .ok (.ofModel user)

/-! ## Requests -/

inductive Read where
  | kits (query : KitsQuery)
  | kitBySerial (kitSerial : String)
  | getMembers (kitSerial : String)
  | getMemberSuggestions (kitSerial username : String)
  | configurations (kitSerial : String)
  | aggregateMeasurements (kitSerial : String) (query : AggregatesQuery)
  | media (kitSerial : String) (query : MediaQuery)
  | mediaContent (mediaId : Uuid)
  | permissions (kitSerial : String)
  | quantityTypes (after : Option Int)
  | peripheralDefinitions (queryParams : PeripheralDefinition.QueryParams)
  | me
  | user (username : String)
  | kitMemberships (username : String)

inductive ReadResponse where
  | kits (kits : Listing KitView)
  | kit (kit : KitView)
  | kitMemberships (kitMemberships : List KitMembershipView)
  | memberSuggestions (users : List UserView)
  | configurations (configurations : List (Views.KitConfigurationWithPeripherals Peripheral))
  | aggregateMeasurements (body : List AggregateMeasurementView) (next : Option Link)
  | media (body : List Media) (next : Option Link)
  | content (content : Option MediaContent)
  | permissions (permissions : List KitAction)
  | quantityTypes (quantityTypes : Listing QuantityType)
  | peripheralDefinitions (peripheralDefinitions : Listing PeripheralDefinitionView)
  | me (user : FullUserView)
  | user (user : UserView)

def UserKitMembership.view (x : Reading) (m : UserKitMembership) : KitMembershipView :=
  .ofModel m.membership m.user (.ofModel x m.kit m.kitLastSeen)

/-- The answer to a request of this user, or of nobody in particular, whose `n`-th
access sees the state `seen n`. -/
def Read.answerAt (x : Reading) (userId : Option Int) (seen : Nat → Services) :
    Read → Except Problem ReadResponse
  | .kits query => .ok (.kits (AstroPlant.kits x query (seen 0).store))
  | .kitBySerial kitSerial =>
      (AstroPlant.kitBySerial x userId kitSerial (seen 0).store (seen 1).store).map .kit
  | .getMembers kitSerial =>
      (AstroPlant.getMembers x userId kitSerial (seen 0).store (seen 1).store
        (seen 2).store).map .kitMemberships
  | .getMemberSuggestions kitSerial username =>
      (AstroPlant.getMemberSuggestions x.pg userId kitSerial username (seen 0).store
        (seen 1).store).map .memberSuggestions
  | .configurations kitSerial =>
      (configurationsByKitSerial x.scanOrder userId kitSerial (seen 0).store (seen 1).store
        (seen 2).store).map .configurations
  | .aggregateMeasurements kitSerial query => do
      let r ← kitAggregateMeasurements (AggregateCursor.fromStr x.codecs) userId kitSerial query
        (seen 0).store (seen 1).store
      return .aggregateMeasurements r.body (r.next.map (query.next x.codecs kitSerial))
  | .media kitSerial query => do
      let r ← kitMedia (AggregateCursor.fromStr x.codecs) userId kitSerial query (seen 0).store
        (seen 1).store
      return .media r.body (r.next.map (query.next x.codecs kitSerial))
  | .mediaContent mediaId =>
      (downloadMediaAt userId mediaId (seen 0).store (seen 1).store (seen 2).store
        (seen 3)).map .content
  | .permissions kitSerial =>
      (userKitPermissions userId kitSerial (seen 0).store).map .permissions
  | .quantityTypes after => .ok (.quantityTypes (AstroPlant.quantityTypes after (seen 0).store))
  | .peripheralDefinitions queryParams =>
      .ok (.peripheralDefinitions (AstroPlant.peripheralDefinitions x.scanOrder queryParams
        (seen 0).store (seen 1).store))
  | .me =>
      match userId with
      -- or whatever else was wrong with the token
      | none => .error (.authorizationHeader .missing)
      | some userId => (AstroPlant.me userId (seen 0).store).map .me
  | .user username => (userByUsername x.pg username userId (seen 0).store).map .user
  | .kitMemberships username => do
      let ms ← listKitMemberships x.pg username userId (seen 0).store (seen 1).store
      return .kitMemberships (ms.map (UserKitMembership.view x))

/-- The access that decides whether a kit is shown: the lookup of the permission,
or else the query itself. -/
def Read.permissionAt : Read → Nat
  | .mediaContent _ => 2
  | .kitMemberships _ => 1
  | _ => 0

/-- The answer of a handler that sees one state. -/
def Read.answer (x : Reading) (userId : Option Int) (s : Services) (read : Read) :
    Except Problem ReadResponse :=
  read.answerAt x userId fun _ => s

end AstroPlant
