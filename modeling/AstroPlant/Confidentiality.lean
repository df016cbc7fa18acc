import AstroPlant.KitMembers
import AstroPlant.PlainCodecs
import AstroPlant.Reads
import AstroPlant.TwoRuns
import AstroPlant.WriteIsolation

/-!
# What others can tell about a private kit

Two states with the same rows that differ in what the rows of one kit hold
(`SameBut`), and an actor who is not a member of that kit, which is private in
both. Whatever asks for permission to view a kit answers the same in both, and
so does the list of kits. A user's memberships are listed with their kits to
everybody: this answer is the same only if what it shows of the kit is
(`private_kit_confidential_iff`).

Each access of a handler is compared with the same access on the other state, by
the rules of `TwoRuns`; which accesses a handler makes is `Read.answerAt`. The
two states may be different ones for each access, as long as they are pairwise
alike and the kit keeps its serial meanwhile (`SerialStays`). The only handler
for which this fails is stated as an equivalence of its own: two answers to a
listing are the same exactly if the kit is shown alike in both
(`listing_eq_iff`).
-/

namespace AstroPlant

/-! ## Two states -/

/-- A kit, in two states that differ in this one. -/
abbrev SameKit (kitId : Int) : Kit → Kit → Prop :=
  SameRow (fun kit => (kit.id, kit.serial)) (·.1 = kitId)

/-- The same rows, with the same ids, serials, owners and memberships; only what
the rows of one kit hold may differ, and the objects stored for it. -/
structure SameBut (kitId : Int) (s s' : Services) : Prop where
  users : s.store.users.rows = s'.store.users.rows
  kitMemberships : s.store.kitMemberships.rows = s'.store.kitMemberships.rows
  peripheralDefinitions :
    s.store.peripheralDefinitions.rows = s'.store.peripheralDefinitions.rows
  quantityTypes : s.store.quantityTypes.rows = s'.store.quantityTypes.rows
  expectedQuantityTypes : s.store.peripheralDefinitionExpectedQuantityTypes.rows
    = s'.store.peripheralDefinitionExpectedQuantityTypes.rows
  queueMediaPendingDeletion :
    s.store.queueMediaPendingDeletion.rows = s'.store.queueMediaPendingDeletion.rows
  kits : List.Forall₂ (SameKit kitId) s.store.kits.rows s'.store.kits.rows
  kitLastSeen :
    Alike KitLastSeen.kitId (· = kitId) s.store.kitLastSeen.rows s'.store.kitLastSeen.rows
  kitConfigurations : Alike (fun c => (c.id, c.kitId)) (·.2 = kitId)
    s.store.kitConfigurations.rows s'.store.kitConfigurations.rows
  peripherals : Alike (fun p => (p.id, p.kitId, p.kitConfigurationId)) (·.2.1 = kitId)
    s.store.peripherals.rows s'.store.peripherals.rows
  rawMeasurements :
    Alike (fun m => (m.id, m.peripheralId, m.kitId, m.kitConfigurationId)) (·.2.2.1 = kitId)
      s.store.rawMeasurements.rows s'.store.rawMeasurements.rows
  aggregateMeasurements :
    Alike (fun m => (m.id, m.peripheralId, m.kitId, m.kitConfigurationId)) (·.2.2.1 = kitId)
      s.store.aggregateMeasurements.rows s'.store.aggregateMeasurements.rows
  media : Alike (fun m => (m.id, m.peripheralId, m.kitId, m.kitConfigurationId)) (·.2.2.1 = kitId)
    s.store.media.rows s'.store.media.rows
  objects : ∀ kitSerial id, (∀ kit ∈ s.store.kits, kit.id = kitId → kit.serial ≠ kitSerial) →
    s.getObject kitSerial id = s'.getObject kitSerial id

/-- The kit's dashboard is not public. -/
def Private (kitId : Int) (s : Store) : Prop :=
  ∀ kit ∈ s.kits, kit.id = kitId → kit.privacyPublicDashboard = false

/-! ## Lookups -/

namespace SameBut

variable {kitId : Int} {s s' : Services} {userId : Option Int} {x : Reading}

theorem user_byId (h : SameBut kitId s s') (id : Int) :
    User.byId id s.store = User.byId id s'.store := by
  simp only [User.byId, Table.find?, h.users]

theorem user_byUsername (h : SameBut kitId s s') (pg : Postgres) (username : String) :
    User.byUsername pg username s.store = User.byUsername pg username s'.store := by
  simp only [User.byUsername, h.users]

theorem membershipOf_eq (h : SameBut kitId s s') (userId : Option Int) (id : Int) :
    membershipOf userId id s.store = membershipOf userId id s'.store := by
  simp only [membershipOf, KitMembership.byUserIdAndKitId, h.kitMemberships]

theorem lastSeen_eq (h : SameBut kitId s s') {id : Int} (hid : id ≠ kitId) :
    KitLastSeen.ofKit id s.store = KitLastSeen.ofKit id s'.store := by
  have hrow : s.store.kitLastSeen.find? id = s'.store.kitLastSeen.find? id := by
    refine h.kitLastSeen.find?_eq (fun r r' hr => by simp [hr]) fun r hr hsecret => hid ?_
    exact (of_decide_eq_true hr).symm.trans hsecret
  simp only [KitLastSeen.ofKit, hrow]

theorem view_eq (h : SameBut kitId s s') {kit : Kit} (hkit : kit.id ≠ kitId) :
    kit.view x s.store = kit.view x s'.store := by
  simp only [Kit.view, h.lastSeen_eq hkit]

theorem bySerial (h : SameBut kitId s s') (kitSerial : String) :
    Option.Rel (fun kit kit' => SameKit kitId kit kit' ∧ kit ∈ s.store.kits
        ∧ kit' ∈ s'.store.kits ∧ kit.serial = kitSerial)
      (Kit.bySerial kitSerial s.store) (Kit.bySerial kitSerial s'.store) := by
  refine optionRel_mono (fun kit kit' hkit => ?_) (Alike.find? h.kits fun r r' hr => ?_)
  · exact ⟨hkit.1, hkit.2.1, hkit.2.2.1, of_decide_eq_true hkit.2.2.2⟩
  · rw [(Prod.mk.inj hr).2]

theorem byId (h : SameBut kitId s s') (id : Int) :
    Option.Rel (fun kit kit' => SameKit kitId kit kit' ∧ kit ∈ s.store.kits
        ∧ kit' ∈ s'.store.kits ∧ kit.id = id)
      (Kit.byId id s.store) (Kit.byId id s'.store) := by
  refine optionRel_mono (fun kit kit' hkit => ?_) (Alike.find? h.kits fun r r' hr => ?_)
  · exact ⟨hkit.1, hkit.2.1, hkit.2.2.1, of_decide_eq_true hkit.2.2.2⟩
  · rw [(Prod.mk.inj hr).1]

/-! Rows of the other kits. -/

theorem configurations_eq (h : SameBut kitId s s') {id : Int} (hid : id ≠ kitId) :
    (s.store.kitConfigurations.select fun c => c.kitId = id)
      = s'.store.kitConfigurations.select fun c => c.kitId = id := by
  have hopen : ∀ c : KitConfiguration, decide (c.kitId = id) = true → ¬c.kitId = kitId :=
    fun c hc hsecret => hid ((of_decide_eq_true hc).symm.trans hsecret)
  exact h.kitConfigurations.filter_eq (fun c _ => hopen c) (fun c _ => hopen c) fun _ _ => rfl

theorem peripherals_eq (h : SameBut kitId s s') {id : Int} (hid : id ≠ kitId) :
    (s.store.peripherals.select fun p => p.kitId = id)
      = s'.store.peripherals.select fun p => p.kitId = id := by
  have hopen : ∀ p : Peripheral, decide (p.kitId = id) = true → ¬p.kitId = kitId :=
    fun p hp hsecret => hid ((of_decide_eq_true hp).symm.trans hsecret)
  exact h.peripherals.filter_eq (fun p _ => hopen p) (fun p _ => hopen p) fun _ _ => rfl

theorem aggregatePage_eq (h : SameBut kitId s s') {id : Int} (hid : id ≠ kitId)
    (query : AggregatesQuery) (cursor : Option AggregateCursor) :
    AggregateMeasurement.page id query cursor s.store
      = AggregateMeasurement.page id query cursor s'.store := by
  unfold AggregateMeasurement.page
  congr 2
  refine h.aggregateMeasurements.filter_eq (fun m _ hm hsecret => hid ?_)
    (fun m _ hm hsecret => hid ?_) fun _ _ => rfl
  · simp only [Bool.and_eq_true, decide_eq_true_eq] at hm
    exact hm.1.1.1.1.symm.trans hsecret
  · simp only [Bool.and_eq_true, decide_eq_true_eq] at hm
    exact hm.1.1.1.1.symm.trans hsecret

theorem mediaPage_eq (h : SameBut kitId s s') {id : Int} (hid : id ≠ kitId)
    (query : MediaQuery) (cursor : Option AggregateCursor) :
    Media.page id query cursor s.store = Media.page id query cursor s'.store := by
  unfold Media.page
  congr 2
  refine h.media.filter_eq (fun m _ hm hsecret => hid ?_) (fun m _ hm hsecret => hid ?_)
    fun _ _ => rfl
  · simp only [Bool.and_eq_true, decide_eq_true_eq] at hm
    exact hm.1.1.1.symm.trans hsecret
  · simp only [Bool.and_eq_true, decide_eq_true_eq] at hm
    exact hm.1.1.1.symm.trans hsecret

theorem media_find? (h : SameBut kitId s s') (id : Uuid) :
    Option.Rel (fun m m' => (m.kitId ≠ kitId → m = m') ∧ m.kitId = m'.kitId)
      (s.store.media.find? id) (s'.store.media.find? id) := by
  refine optionRel_mono (fun m m' hm => ?_) (h.media.find? fun m m' hm => ?_)
  · have hident := hm.1.ident_eq
    simp only [Prod.mk.injEq] at hident
    exact ⟨hm.1.eq, hident.2.2.1⟩
  · rw [(Prod.mk.inj hm).1]

end SameBut

/-! ## Permission -/

theorem KitAction.permitted_of_no_membership (action : KitAction) (user : Option User) (kit : Kit) :
    action.permitted (.ofModels user none) kit
      = (action.readOnly && kit.privacyPublicDashboard) := by
  cases user <;> cases action <;> rfl

namespace SameBut

variable {kitId : Int} {s s' : Services} {userId : Option Int}

/-- On the private kit nothing is permitted to the actor, and any other kit is
the same. -/
theorem permitted_eq (h : SameBut kitId s s') (hpriv : Private kitId s.store)
    (hpriv' : Private kitId s'.store) (hmember : membershipOf userId kitId s.store = none)
    {kit kit' : Kit} (hsame : SameKit kitId kit kit') (hkit : kit ∈ s.store.kits)
    (hkit' : kit' ∈ s'.store.kits) (action : KitAction) (user : Option User) :
    action.permitted (.ofModels user (membershipOf userId kit.id s.store)) kit
      = action.permitted (.ofModels user (membershipOf userId kit'.id s'.store)) kit' := by
  rw [← h.membershipOf_eq, ← (Prod.mk.inj hsame.ident_eq).1]
  by_cases hid : kit.id = kitId
  · have hid' : kit'.id = kitId := (Prod.mk.inj hsame.ident_eq).1.symm.trans hid
    rw [hid, hmember, KitAction.permitted_of_no_membership, KitAction.permitted_of_no_membership,
      hpriv kit hkit hid, hpriv' kit' hkit' hid']
  · rw [hsame.eq hid]

theorem actingUser (h : SameBut kitId s s') (userId : Option Int) :
    Tx.Both (· = ·) s.store s'.store (AstroPlant.actingUser userId)
      (AstroPlant.actingUser userId) := by
  cases userId with
  | none => exact .pure rfl
  | some id =>
      refine .bind (.read (h.user_byId id)) ?_
      rintro user _ rfl
      refine .bind (.ofOption (R := (· = ·)) (by cases user <;> constructor; rfl)) ?_
      rintro user _ rfl
      exact .pure rfl

/-- Permission is refused alike, or granted on the same kit, which is not the
private one. -/
theorem permission (h : SameBut kitId s s') (hpriv : Private kitId s.store)
    (hpriv' : Private kitId s'.store) (hmember : membershipOf userId kitId s.store = none)
    (kitSerial : String) (action : KitAction) :
    Tx.Both (fun r r' => r = r' ∧ r.2.2 ∈ s.store.kits ∧ r.2.2.serial = kitSerial
        ∧ r.2.2.id ≠ kitId)
      s.store s'.store (futKitPermissionOrForbidden userId kitSerial action)
      (futKitPermissionOrForbidden userId kitSerial action) := by
  refine .bind (h.actingUser userId) ?_
  rintro user _ rfl
  refine .bind (.read (h.bySerial kitSerial)) fun o o' ho => ?_
  refine .bind (.ofOption ho) ?_
  rintro kit kit' ⟨hsame, hkit, hkit', hserial⟩
  refine .bind (.read (R := fun m m' => m = membershipOf userId kit.id s.store
    ∧ m' = membershipOf userId kit'.id s'.store) ⟨rfl, rfl⟩) ?_
  rintro _ _ ⟨rfl, rfl⟩
  have hpermitted := h.permitted_eq hpriv hpriv' hmember hsame hkit hkit' action user
  refine .bind (Tx.Both.ensure Problem.FORBIDDEN hpermitted) fun _ _ hgranted => .pure ?_
  have hid : kit.id ≠ kitId := by
    intro hid
    have hgranted := hgranted.1
    rw [hid, hmember, KitAction.permitted_of_no_membership, hpriv kit hkit hid,
      Bool.and_false] at hgranted
    cases hgranted
  obtain rfl := hsame.eq hid
  rw [h.membershipOf_eq]
  exact ⟨rfl, hkit, hserial, hid⟩

theorem userPermission (h : SameBut kitId s s') (pg : Postgres) (actorUserId : Option Int)
    (objectUsername : String) (action : UserAction) :
    Tx.Both (· = ·) s.store s'.store
      (futUserPermissionOrForbidden pg actorUserId objectUsername action)
      (futUserPermissionOrForbidden pg actorUserId objectUsername action) := by
  refine .bind (h.actingUser actorUserId) ?_
  rintro actor _ rfl
  refine .bind (.read (h.user_byUsername pg objectUsername)) ?_
  rintro found _ rfl
  refine .bind (.ofExcept _) ?_
  rintro object _ rfl
  refine .bind (.ofOption (R := (· = ·)) (by cases object <;> constructor; rfl)) ?_
  rintro user _ rfl
  exact .bind (.ensure _ rfl) fun _ _ _ => .pure rfl

end SameBut

/-! ## Answers -/

/-- The rows of the kit have its serial, and no other kit had it when the
permission was looked up. -/
def SerialStays (kitId : Int) (s atPermission : Store) : Prop :=
  ∀ k ∈ s.kits, k.id = kitId → ∀ k' ∈ atPermission.kits, k'.serial = k.serial → k'.id = kitId

theorem UniqueSerials.stays {s : Store} (hs : UniqueSerials s) (kitId : Int) :
    SerialStays kitId s s :=
  fun k hk hid k' hk' hserial => by rw [hs k' hk' k hk hserial, hid]

section Answers

variable {kitId : Int} {p p' s s' t t' : Services} {userId : Option Int} {x : Reading}

theorem kits_eq (h : SameBut kitId s s') (query : KitsQuery) (hpriv : Private kitId s.store)
    (hpriv' : Private kitId s'.store) : kits x query s.store = kits x query s'.store := by
  have hopen : ∀ {t : Store} {kit : Kit}, Private kitId t → kit ∈ t.kits →
      query.selects t kit = true → kit.id ≠ kitId := by
    intro t kit hpriv hkit hselects hid
    simp only [KitsQuery.selects, Bool.and_eq_true, hpriv kit hkit hid] at hselects
    exact absurd hselects.1.1.2 Bool.false_ne_true
  have hselected : s.store.kits.select (query.selects s.store)
      = s'.store.kits.select (query.selects s'.store) := by
    refine Alike.filter_eq h.kits (fun kit => hopen hpriv) (fun kit => hopen hpriv')
      fun kit hid => ?_
    simp only [KitsQuery.selects, h.lastSeen_eq hid]
  have hviews : ∀ kit ∈ ((s'.store.kits.select (query.selects s'.store)).insertionSort
      (·.id ≤ ·.id)).take KitsQuery.LIMIT, kit.view x s.store = kit.view x s'.store := by
    intro kit hkit
    have hkit := (List.mem_insertionSort _).mp (List.mem_of_mem_take hkit)
    obtain ⟨hmem, hselects⟩ := SerialTable.mem_select.mp hkit
    exact h.view_eq (hopen hpriv' hmem hselects)
  simp only [kits, hselected, List.map_congr_left hviews]

theorem quantityTypes_eq (h : SameBut kitId s s') (after : Option Int) :
    quantityTypes after s.store = quantityTypes after s'.store := by
  simp only [quantityTypes, QuantityType.cursorPage, Table.select, h.quantityTypes]

theorem peripheralDefinitions_eq (h : SameBut kitId s s') (ht : SameBut kitId t t')
    (o : ScanOrder) (queryParams : PeripheralDefinition.QueryParams) :
    peripheralDefinitions o queryParams s.store t.store
      = peripheralDefinitions o queryParams s'.store t'.store := by
  simp only [peripheralDefinitions, getDefinitionsAndExpectedQuantityTypes,
    PeripheralDefinition.cursorPage,
    PeripheralDefinitionExpectedQuantityType.ofPeripheralDefinitions, Table.select,
    h.peripheralDefinitions, ht.expectedQuantityTypes]

theorem me_eq (h : SameBut kitId s s') (userId : Int) : me userId s.store = me userId s'.store := by
  simp only [me, h.user_byId]

theorem userByUsername_eq (h : SameBut kitId s s') (pg : Postgres) (username : String) :
    userByUsername pg username userId s.store = userByUsername pg username userId s'.store := by
  unfold userByUsername
  rcases h.userPermission pg userId username .view with ⟨e, hr, hr'⟩ | ⟨r, _, hr, hr', rfl⟩
  · rw [hr, hr']
  · simp only [hr, hr', bind, Except.bind]

section Permitted

variable (h : SameBut kitId p p') (hpriv : Private kitId p.store)
  (hpriv' : Private kitId p'.store) (hmember : membershipOf userId kitId p.store = none)

include h hpriv hpriv' hmember

theorem permitted_eq {α : Type} (kitSerial : String) (action : KitAction)
    {f f' : (Option User × Option KitMembership × Kit) × Store → Except Problem α}
    (hf : ∀ r t t', r.2.2.id ≠ kitId → f (r, t) = f' (r, t')) :
    ((futKitPermissionOrForbidden userId kitSerial action).run p.store >>= f)
      = (futKitPermissionOrForbidden userId kitSerial action).run p'.store >>= f' := by
  rcases h.permission hpriv hpriv' hmember kitSerial action with
    ⟨e, hr, hr'⟩ | ⟨r, _, hr, hr', rfl, -, -, hid⟩
  · rw [hr, hr']
    rfl
  · rw [hr, hr']
    exact hf r _ _ hid

theorem kitBySerial_eq (hs : SameBut kitId s s') (kitSerial : String) :
    kitBySerial x userId kitSerial p.store s.store
      = kitBySerial x userId kitSerial p'.store s'.store := by
  refine permitted_eq h hpriv hpriv' hmember kitSerial .view fun r _ _ hid => ?_
  rw [hs.view_eq hid]

theorem getMembers_eq (hs : SameBut kitId s s') (ht : SameBut kitId t t') (kitSerial : String) :
    getMembers x userId kitSerial p.store s.store t.store
      = getMembers x userId kitSerial p'.store s'.store t'.store := by
  refine permitted_eq h hpriv hpriv' hmember kitSerial .view fun r _ _ hid => ?_
  have hmembers : membersOf r.2.2.id t.store = membersOf r.2.2.id t'.store := by
    simp only [membersOf, Table.select, ht.users, ht.kitMemberships]
  simp only [hmembers, hs.view_eq hid]

theorem getMemberSuggestions_eq (hs : SameBut kitId s s') (pg : Postgres)
    (kitSerial username : String) :
    getMemberSuggestions pg userId kitSerial username p.store s.store
      = getMemberSuggestions pg userId kitSerial username p'.store s'.store := by
  refine permitted_eq h hpriv hpriv' hmember kitSerial .editMembers fun r _ _ _ => ?_
  simp only [hs.users]

theorem configurations_eq (hs : SameBut kitId s s') (ht : SameBut kitId t t') (o : ScanOrder)
    (kitSerial : String) :
    configurationsByKitSerial o userId kitSerial p.store s.store t.store
      = configurationsByKitSerial o userId kitSerial p'.store s'.store t'.store := by
  refine permitted_eq h hpriv hpriv' hmember kitSerial .view fun r _ _ hid => ?_
  have hconfigurations := hs.configurations_eq hid
  have hperipherals := ht.peripherals_eq hid
  simp only [hconfigurations, hperipherals]

theorem aggregateMeasurements_eq (hs : SameBut kitId s s')
    (parse : String → Option AggregateCursor) (kitSerial : String) (query : AggregatesQuery) :
    kitAggregateMeasurements parse userId kitSerial query p.store s.store
      = kitAggregateMeasurements parse userId kitSerial query p'.store s'.store := by
  have hpage : ∀ cursor,
      ((futKitPermissionOrForbidden userId kitSerial .view).run p.store >>= fun r =>
          aggregatesResponse (AggregateMeasurement.page r.1.2.2.id query cursor s.store))
        = (futKitPermissionOrForbidden userId kitSerial .view).run p'.store >>= fun r =>
          aggregatesResponse (AggregateMeasurement.page r.1.2.2.id query cursor s'.store) := by
    intro cursor
    refine permitted_eq h hpriv hpriv' hmember kitSerial .view fun r _ _ hid => ?_
    rw [hs.aggregatePage_eq hid]
  unfold kitAggregateMeasurements
  split
  · exact hpage none
  · split
    · rfl
    · exact hpage (some _)

theorem kitMedia_eq (hs : SameBut kitId s s') (parse : String → Option AggregateCursor)
    (kitSerial : String) (query : MediaQuery) :
    kitMedia parse userId kitSerial query p.store s.store
      = kitMedia parse userId kitSerial query p'.store s'.store := by
  let answer : List Media → Except Problem MediaResponse :=
    fun page => .ok ⟨page, MediaCursor.nextFromPage page⟩
  have hpage : ∀ cursor,
      ((futKitPermissionOrForbidden userId kitSerial .view).run p.store >>= fun r =>
          answer (Media.page r.1.2.2.id query cursor s.store))
        = (futKitPermissionOrForbidden userId kitSerial .view).run p'.store >>= fun r =>
          answer (Media.page r.1.2.2.id query cursor s'.store) := by
    intro cursor
    refine permitted_eq h hpriv hpriv' hmember kitSerial .view fun r _ _ hid => ?_
    rw [hs.mediaPage_eq hid]
  unfold kitMedia
  split
  · exact hpage none
  · split
    · rfl
    · exact hpage (some _)

theorem permissions_eq (kitSerial : String) :
    userKitPermissions userId kitSerial p.store = userKitPermissions userId kitSerial p'.store := by
  have huser : userId.bind (User.byId · p.store) = userId.bind (User.byId · p'.store) := by
    simp only [h.user_byId]
  simp only [userKitPermissions, huser]
  rcases optionRel_cases (h.bySerial kitSerial) with
    ⟨hnone, hnone'⟩ | ⟨kit, kit', hfound, hfound', hsame, hkit, hkit', -⟩
  · simp only [hnone, hnone']
  · simp only [hfound, hfound', h.permitted_eq hpriv hpriv' hmember hsame hkit hkit']

/-- A media row of the private kit is found, but permission to its contents is
refused. Kits with the same serial would be confused here. -/
theorem downloadMediaAt_eq {o o' : Services} (hs : SameBut kitId s s') (ht : SameBut kitId t t')
    (ho : SameBut kitId o o') (hkept : SerialStays kitId t.store p.store)
    (hkept' : SerialStays kitId o.store p.store) (mediaId : Uuid) :
    downloadMediaAt userId mediaId s.store t.store p.store o
      = downloadMediaAt userId mediaId s'.store t'.store p'.store o' := by
  unfold downloadMediaAt
  rcases optionRel_cases (hs.media_find? mediaId) with
    ⟨hnone, hnone'⟩ | ⟨m, m', hfound, hfound', hm, howner⟩
  · rw [hnone, hnone']
  rw [hfound, hfound']
  rcases optionRel_cases (ht.byId m.kitId) with
    ⟨hnone, hnone'⟩ | ⟨kit, kit', hkit, hkit', hsame, hmem, -, hid⟩
  · simp only [← howner, hnone, hnone']
  have hserial : kit.serial = kit'.serial := (Prod.mk.inj hsame.ident_eq).2
  simp only [← howner, hkit, hkit', ← hserial]
  rcases h.permission hpriv hpriv' hmember kit.serial .view with
    ⟨e, hr, hr'⟩ | ⟨r, _, hr, hr', rfl, hview, hrserial, hrid⟩
  · simp only [hr, hr', bind, Except.bind]
  have hkitId : kit.id ≠ kitId := fun hkit => hrid (hkept kit hmem hkit r.2.2 hview hrserial)
  have hobject : o.getObject kit.serial m.id = o'.getObject kit.serial m.id :=
    ho.objects kit.serial m.id fun k hk hkid heq =>
      hrid (hkept' k hk hkid r.2.2 hview (hrserial.trans heq.symm))
  obtain rfl := hm fun hsecret => hkitId (hid.trans hsecret)
  simp only [hr, hr', hobject, bind, Except.bind]

end Permitted

/-- Every request but the listing of a user's memberships is answered the same. -/
theorem answerAt_eq {seen seen' : Nat → Services} (read : Read)
    (h : ∀ n, SameBut kitId (seen n) (seen' n))
    (hpriv : Private kitId (seen read.permissionAt).store)
    (hpriv' : Private kitId (seen' read.permissionAt).store)
    (hmember : membershipOf userId kitId (seen read.permissionAt).store = none)
    (hkept : ∀ n, SerialStays kitId (seen n).store (seen read.permissionAt).store)
    (hread : ∀ username, read ≠ .kitMemberships username) :
    read.answerAt x userId seen = read.answerAt x userId seen' := by
  cases read with
  | kits query => simp only [Read.answerAt, kits_eq (h 0) query hpriv hpriv']
  | kitBySerial kitSerial =>
      simp only [Read.answerAt, kitBySerial_eq (h 0) hpriv hpriv' hmember (h 1)]
  | getMembers kitSerial =>
      simp only [Read.answerAt, getMembers_eq (h 0) hpriv hpriv' hmember (h 1) (h 2)]
  | getMemberSuggestions kitSerial username =>
      simp only [Read.answerAt, getMemberSuggestions_eq (h 0) hpriv hpriv' hmember (h 1)]
  | configurations kitSerial =>
      simp only [Read.answerAt, configurations_eq (h 0) hpriv hpriv' hmember (h 1) (h 2)]
  | aggregateMeasurements kitSerial query =>
      simp only [Read.answerAt, aggregateMeasurements_eq (h 0) hpriv hpriv' hmember (h 1)]
  | media kitSerial query =>
      simp only [Read.answerAt, kitMedia_eq (h 0) hpriv hpriv' hmember (h 1)]
  | mediaContent mediaId =>
      simp only [Read.answerAt,
        downloadMediaAt_eq (h 2) hpriv hpriv' hmember (h 0) (h 1) (h 3) (hkept 1) (hkept 3)]
  | permissions kitSerial => simp only [Read.answerAt, permissions_eq (h 0) hpriv hpriv' hmember]
  | quantityTypes after => simp only [Read.answerAt, quantityTypes_eq (h 0)]
  | peripheralDefinitions queryParams =>
      simp only [Read.answerAt, peripheralDefinitions_eq (h 0) (h 1)]
  | me =>
      cases userId with
      | none => rfl
      | some userId => simp only [Read.answerAt, me_eq (h 0)]
  | user username => simp only [Read.answerAt, userByUsername_eq (h 0)]
  | kitMemberships username => exact absurd rfl (hread username)

end Answers

/-! ## Memberships -/

/-- The request lists the memberships of a user who is a member of the kit: an
existing actor, if any, asks for a username that is found. -/
def Read.ListsMemberOfAt (x : Reading) (userId : Option Int) (kitId : Int)
    (atPermission atList : Store) : Read → Prop
  | .kitMemberships username =>
      (∀ id, userId = some id → (User.byId id atPermission).isSome = true)
        ∧ ∃ user, User.byUsername x.pg username atPermission = .ok (some user)
          ∧ ∃ m ∈ atList.kitMemberships, m.userId = user.id ∧ m.kitId = kitId
  | _ => False

def Read.ListsMemberOf (x : Reading) (userId : Option Int) (kitId : Int) (s : Store)
    (read : Read) : Prop :=
  read.ListsMemberOfAt x userId kitId s s

/-- The columns that are shown of a kit hold the same; its id and its serial do
anyway. -/
structure SameShown (x : Reading) (s s' : Store) (kit kit' : Kit) : Prop where
  name : kit.name = kit'.name
  description : kit.description = kit'.description
  latitude : kit.latitude.bind x.decimalToF64 = kit'.latitude.bind x.decimalToF64
  longitude : kit.longitude.bind x.decimalToF64 = kit'.longitude.bind x.decimalToF64
  privacyShowOnMap : kit.privacyShowOnMap = kit'.privacyShowOnMap
  lastSeen : KitLastSeen.ofKit kit.id s = KitLastSeen.ofKit kit'.id s'

section Memberships

variable {kitId : Int} {s s' : Services} {userId : Option Int} {x : Reading}

/-- A membership as it is listed, if its kit is found. -/
def listed (x : Reading) (s : Store) (user : User) (m : KitMembership) : Option KitMembershipView :=
  (Kit.byId m.kitId s).map fun kit => .ofModel m (.ofModel user) (kit.view x s)

theorem answerAt_kitMemberships {seen : Nat → Services} {username : String}
    {r : Option User × User} {t : Store}
    (hr : (futUserPermissionOrForbidden x.pg userId username .listKitMemberships).run
      (seen 0).store = .ok (r, t)) :
    Read.answerAt x userId seen (.kitMemberships username)
      = .ok (.kitMemberships (((seen 1).store.kitMemberships.select fun m =>
          m.userId = r.2.id).filterMap (listed x (seen 1).store r.2))) := by
  have hview : ∀ m : KitMembership, ((Kit.byId m.kitId (seen 1).store).map fun kit =>
        (⟨m, kit, KitLastSeen.ofKit kit.id (seen 1).store, .ofModel r.2⟩ :
          UserKitMembership)).map (UserKitMembership.view x) = listed x (seen 1).store r.2 m := by
    intro m
    rw [Option.map_map]
    rfl
  simp only [Read.answerAt, listKitMemberships, hr]
  show Except.ok (ReadResponse.kitMemberships (List.map _ (List.filterMap _ _))) = _
  rw [List.map_filterMap, List.filterMap_congr fun m _ => hview m]

theorem view_eq_iff {s s' : Store} {kit kit' : Kit} (hid : kit.id = kit'.id)
    (hserial : kit.serial = kit'.serial)
    (hpublic : kit.privacyPublicDashboard = kit'.privacyPublicDashboard) :
    kit.view x s = kit'.view x s' ↔ SameShown x s s' kit kit' := by
  simp only [Kit.view, KitView.ofModel, KitView.mk.injEq]
  constructor
  · rintro ⟨-, -, hname, hdescription, hlatitude, hlongitude, -, hmap, hseen⟩
    exact ⟨hname, hdescription, hlatitude, hlongitude, hmap, hseen⟩
  · intro hshown
    exact ⟨hid, hserial, hshown.name, hshown.description, hshown.latitude, hshown.longitude,
      hpublic, hshown.privacyShowOnMap, hshown.lastSeen⟩

/-- A membership is listed the same in both states, unless it is one in the
private kit and something that is shown of the kit differs. -/
theorem SameBut.listed_eq_iff (h : SameBut kitId s s') (hpriv : Private kitId s.store)
    (hpriv' : Private kitId s'.store) (user : User) (m : KitMembership) :
    (listed x s.store user m).isSome = (listed x s'.store user m).isSome
      ∧ (listed x s.store user m = listed x s'.store user m ↔
        (m.kitId = kitId → ∀ kit kit', Kit.byId kitId s.store = some kit →
          Kit.byId kitId s'.store = some kit' → SameShown x s.store s'.store kit kit')) := by
  simp only [listed]
  by_cases hm : m.kitId = kitId
  · subst hm
    rcases optionRel_cases (h.byId m.kitId) with
      ⟨hnone, hnone'⟩ | ⟨kit, kit', hfound, hfound', hsame, hkit, hkit', hid⟩
    · simp [hnone, hnone']
    · obtain ⟨hids, hserials⟩ := Prod.mk.inj hsame.ident_eq
      have hpublic : kit.privacyPublicDashboard = kit'.privacyPublicDashboard := by
        rw [hpriv kit hkit hid, hpriv' kit' hkit' (hids.symm.trans hid)]
      simp [hfound, hfound', KitMembershipView.ofModel, view_eq_iff hids hserials hpublic]
  · rcases optionRel_cases (h.byId m.kitId) with
      ⟨hnone, hnone'⟩ | ⟨kit, kit', hfound, hfound', hsame, -, -, hid⟩
    · simp [hnone, hnone', hm]
    · have hkitId : kit.id ≠ kitId := fun heq => hm (hid.symm.trans heq)
      obtain rfl := hsame.eq hkitId
      simp [hfound, hfound', hm, h.view_eq hkitId]

/-- Everybody may list the memberships of a user who is found. -/
theorem listKitMemberships_permitted_iff {pg : Postgres} {username : String} {s : Store}
    {user : User} :
    (∃ actor t, (futUserPermissionOrForbidden pg userId username .listKitMemberships).run s
        = .ok ((actor, user), t))
      ↔ (∀ id, userId = some id → (User.byId id s).isSome = true)
        ∧ User.byUsername pg username s = .ok (some user) := by
  constructor
  · rintro ⟨actor, t, hr⟩
    refine ⟨?_, (futUserPermissionOrForbidden_ok hr).2.1⟩
    rintro id rfl
    obtain ⟨actor', s₁, hactor, -⟩ := Tx.run_bind_ok.mp hr
    obtain ⟨-, hfound, hsome⟩ := actingUser_ok hactor
    rw [hfound] at hsome
    exact hsome rfl
  · rintro ⟨hactor, huser⟩
    refine ⟨userId.bind (User.byId · s), s,
      Tx.run_bind_ok.mpr ⟨_, s, actingUser_of_exists hactor, ?_⟩⟩
    rw [Tx.run_read_bind, huser]
    rfl

/-- The listing of a user's memberships is the same, unless it shows something
of the private kit that differs. -/
theorem listing_eq_iff {seen seen' : Nat → Services} (h : ∀ n, SameBut kitId (seen n) (seen' n))
    (hpriv : Private kitId (seen 1).store) (hpriv' : Private kitId (seen' 1).store)
    (username : String) :
    Read.answerAt x userId seen (.kitMemberships username)
        = Read.answerAt x userId seen' (.kitMemberships username)
      ↔ ((Read.kitMemberships username).ListsMemberOfAt x userId kitId (seen 0).store
          (seen 1).store →
        ∀ kit kit', Kit.byId kitId (seen 1).store = some kit →
          Kit.byId kitId (seen' 1).store = some kit' →
          SameShown x (seen 1).store (seen' 1).store kit kit') := by
  rcases (h 0).userPermission x.pg userId username .listKitMemberships with
    ⟨e, hr, hr'⟩ | ⟨⟨actor, user⟩, _, hr, hr', rfl⟩
  · refine iff_of_true ?_ ?_
    · simp only [Read.answerAt, listKitMemberships, hr, hr']
      rfl
    · rintro ⟨hactor, user, huser, -⟩
      obtain ⟨actor, t, hok⟩ := listKitMemberships_permitted_iff.mpr ⟨hactor, huser⟩
      rw [hr] at hok
      cases hok
  · obtain ⟨hactor, huser⟩ := listKitMemberships_permitted_iff.mp ⟨actor, _, hr⟩
    have hlisted := (h 1).listed_eq_iff (x := x) hpriv hpriv' user
    have hselect : ((seen 1).store.kitMemberships.select fun m => m.userId = user.id)
        = (seen' 1).store.kitMemberships.select fun m => m.userId = user.id := by
      simp only [Table.select, (h 1).kitMemberships]
    rw [answerAt_kitMemberships hr, answerAt_kitMemberships hr', Except.ok.injEq,
      ReadResponse.kitMemberships.injEq, ← hselect, filterMap_eq_iff fun m _ => (hlisted m).1]
    constructor
    · rintro heq ⟨-, user', huser', m, hm, hmuser, hmkit⟩
      rw [huser] at huser'
      cases huser'
      refine (hlisted m).2.mp (heq m ?_) hmkit
      exact SerialTable.mem_select.mpr ⟨hm, decide_eq_true hmuser⟩
    · intro hshown m hm
      refine (hlisted m).2.mpr fun hmkit => hshown ⟨hactor, user, huser, m, ?_⟩
      obtain ⟨hmem, hmuser⟩ := SerialTable.mem_select.mp hm
      exact ⟨hmem, of_decide_eq_true hmuser, hmkit⟩

end Memberships

/-! ## Confidentiality -/

/-- **Confidentiality of private kits.** Take any state that is reached, another
one that differs from it only in what the rows of one kit hold, the kit being
private in both, and an actor who is not a member of it. A read request of the
actor is answered the same in both exactly if it does not list a member of the
kit, or else what it shows of the kit is the same. -/
theorem private_kit_confidential_iff {x : Crates} {y : Reading} {s₀ : Store}
    {ls : List (Sched ServiceRequest ServiceEnv)} {c : Conc Services ServiceTask}
    {s' : Services} {kitId : Int} {userId : Option Int} (hserials : UniqueSerials s₀)
    (hrun : Run.exec (services x).step ⟨.start s₀, []⟩ ls = some c)
    (h : SameBut kitId c.store s') (hpriv : Private kitId c.store.store)
    (hpriv' : Private kitId s'.store) (hmember : membershipOf userId kitId c.store.store = none)
    (read : Read) :
    read.answer y userId c.store = read.answer y userId s'
      ↔ (read.ListsMemberOf y userId kitId c.store.store →
        ∀ kit kit', Kit.byId kitId c.store.store = some kit → Kit.byId kitId s'.store = some kit' →
          SameShown y c.store.store s'.store kit kit') := by
  have hunique : UniqueSerials c.store.store := uniqueSerials_exec hserials hrun
  cases read with
  | kitMemberships username => exact listing_eq_iff (fun _ => h) hpriv hpriv' username
  | _ =>
      refine iff_of_true (answerAt_eq _ (fun _ => h) hpriv hpriv' hmember
        (fun _ => hunique.stays kitId) ?_) fun hlists => hlists.elim
      intro username heq
      cases heq

/-! ### A private kit with a name -/

/-- Two users, the first of which has created a private kit. -/
def fernery (name : String) : Store :=
  let kit : NewKit := ⟨"k-3b4c-6d7f-8g9h", "", some name, none, none, none, false, false⟩
  (founder 1 1 0).insert (kit.insert 0 twoUsers)

def createFernery (name : String) : List (Sched ServiceRequest ServiceEnv) :=
  [.spawn (.api (.createKit 1 ⟨some name, none, none, none, false, false⟩)),
    .run 0 { serial := "k-3b4c-6d7f-8g9h" }]

theorem fernery_sameBut (name name' : String) :
    SameBut 1 (.start (fernery name)) (.start (fernery name')) where
  users := rfl
  kitMemberships := rfl
  peripheralDefinitions := rfl
  quantityTypes := rfl
  expectedQuantityTypes := rfl
  queueMediaPendingDeletion := rfl
  kits := .cons ⟨rfl, fun hopen => absurd rfl hopen⟩ .nil
  kitLastSeen := .refl _
  kitConfigurations := .refl _
  peripherals := .refl _
  rawMeasurements := .refl _
  aggregateMeasurements := .refl _
  media := .refl _
  objects _ _ _ := rfl

theorem fernery_private (name : String) : Private 1 (fernery name) := by
  intro kit hkit _
  rw [List.mem_singleton.mp hkit]
  rfl

theorem uniqueSerials_twoUsers : UniqueSerials twoUsers := fun _ hk => by cases hk

def plainReading : Reading := ⟨.ascii, plainCodecs, fun _ => none, .fromStart⟩

/-- The other user, who is not a member, cannot tell the names apart by asking
for the kit. -/
theorem private_kit_confidential_iff_kitBySerial :
    ∃ c, Run.exec (services plainCrates).step ⟨.start twoUsers, []⟩ (createFernery "Maidenhair")
        = some c
      ∧ (Read.kitBySerial "k-3b4c-6d7f-8g9h").answer plainReading (some 2) c.store
        = .error .FORBIDDEN
      ∧ (Read.kitBySerial "k-3b4c-6d7f-8g9h").answer plainReading (some 2) c.store
        = (Read.kitBySerial "k-3b4c-6d7f-8g9h").answer plainReading (some 2)
            (.start (fernery "Staghorn")) := by
  have hrun : Run.exec (services plainCrates).step ⟨.start twoUsers, []⟩
      (createFernery "Maidenhair") = some ⟨.start (fernery "Maidenhair"), []⟩ := rfl
  exact ⟨_, hrun, rfl, (private_kit_confidential_iff uniqueSerials_twoUsers hrun
    (fernery_sameBut _ _) (fernery_private _) (fernery_private _) rfl _).mpr fun h => h.elim⟩

/-- Anybody is told the name of a private kit with the memberships of its
member: two reachable states that differ in nothing but this name are answered
differently. -/
theorem private_kit_name_listed :
    ∃ c c', Run.exec (services plainCrates).step ⟨.start twoUsers, []⟩
        (createFernery "Maidenhair") = some c
      ∧ Run.exec (services plainCrates).step ⟨.start twoUsers, []⟩ (createFernery "Staghorn")
        = some c'
      ∧ SameBut 1 c.store c'.store ∧ Private 1 c.store.store ∧ Private 1 c'.store.store
      ∧ membershipOf none 1 c.store.store = none
      ∧ ∃ ms ms', (Read.kitMemberships "ada").answer plainReading none c.store
          = .ok (.kitMemberships ms)
        ∧ (Read.kitMemberships "ada").answer plainReading none c'.store
          = .ok (.kitMemberships ms')
        ∧ ms.map (·.kit.name) = [some "Maidenhair"] ∧ ms'.map (·.kit.name) = [some "Staghorn"]
        ∧ (Read.kitMemberships "ada").answer plainReading none c.store
          ≠ (Read.kitMemberships "ada").answer plainReading none c'.store := by
  refine ⟨⟨.start (fernery "Maidenhair"), []⟩, ⟨.start (fernery "Staghorn"), []⟩, rfl, rfl,
    fernery_sameBut _ _, fernery_private _, fernery_private _, rfl, _, _, rfl, rfl, rfl, rfl, ?_⟩
  intro heq
  have hmemberships := ReadResponse.kitMemberships.inj (Except.ok.inj heq)
  have hnames := congrArg (List.map (·.kit.name)) hmemberships
  exact absurd hnames (by decide)

end AstroPlant
