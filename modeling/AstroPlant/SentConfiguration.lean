import AstroPlant.ActivationHistory
import AstroPlant.ConformingPeripherals
import AstroPlant.HashMap
import AstroPlant.Reads
import AstroPlant.WriteIsolation

/-!
# A kit is sent the configuration that the API shows

The API loads the configurations and the peripherals of a kit, groups the
peripherals in memory and hands each configuration its group. A kit that asks
for its configuration is sent the first active one, with the peripherals that
refer to it, each joined with its definition. The two agree: a peripheral has
the kit of its configuration, a kit has at most one active configuration, and
every peripheral has a definition.

`Store.Sendable` lists what the two paths need of the store to agree, and each of
its fields is an invariant proved elsewhere: ownership columns, one active
configuration, unique serials, definitions that exist. On a sendable store the
API's grouping in memory is a query per configuration
(`configurationsWithPeripherals_eq`), whatever order the database returns rows
in. `Store.Reached` are the stores that a request may see: those of a run of API
and deployment, and those that an open patch sees in between; all of them are
sendable (`Store.Reached.sendable`).
-/

namespace AstroPlant

/-! ## The listing of the API -/

/-- The listing for a kit, where both queries see the same store. -/
def configurationsOfKit (o : ScanOrder) (kit : Kit) (s : Store) :
    List (Views.KitConfigurationWithPeripherals Peripheral) :=
  configurationsWithPeripherals (o.scan (s.kitConfigurations.select (·.kitId = kit.id)))
    (o.scan (s.peripherals.select (·.kitId = kit.id)))

/-- `peripherals_of_kit_configuration_id`. -/
def Peripheral.ofKitConfiguration (kitConfigurationId : Int) (s : Store) : List Peripheral :=
  s.peripherals.select (·.kitConfigurationId = kitConfigurationId)

/-! ## What a kit is sent -/

/-- `active_configuration_of_kit_id`. -/
def KitConfiguration.activeOfKit (o : ScanOrder) (kitId : Int) (s : Store) :
    Option KitConfiguration :=
  (o.scan (s.kitConfigurations.select fun c => c.kitId = kitId && c.active)).head?

/-- `peripherals_with_definitions_of_kit_configuration_id`. -/
def Peripheral.withDefinitions (o : ScanOrder) (kitConfigurationId : Int) (s : Store) :
    List (Peripheral × PeripheralDefinition) :=
  o.scan ((ofKitConfiguration kitConfigurationId s).filterMap fun p =>
    (s.peripheralDefinitions.find? p.peripheralDefinitionId).map (p, ·))

/-- `get_active_configuration`. -/
def getActiveConfiguration (o : ScanOrder) (kitSerial : String) (s : Store) :
    Option (Views.KitConfigurationWithPeripherals Views.PeripheralWithDefinition) :=
  match Kit.bySerial kitSerial s with
  | none => none
  | some kit =>
      match KitConfiguration.activeOfKit o kit.id s with
      | none => none
      | some configuration =>
          let peripheralsWithDefinitions := Peripheral.withDefinitions o configuration.id s
          some ⟨.ofModel configuration, peripheralsWithDefinitions.map fun p => ⟨p.1, p.2⟩⟩

/-! ## Groups -/

/-- No group is asked for twice, so each configuration gets all of its group. -/
theorem withGroups_eq {groups : AList fun _ : Int => List Peripheral}
    {kitConfigurations : List KitConfiguration} (h : (kitConfigurations.map (·.id)).Nodup) :
    withGroups groups kitConfigurations
      = kitConfigurations.map fun c => ⟨.ofModel c, (groups.lookup c.id).getD []⟩ := by
  induction kitConfigurations generalizing groups with
  | nil => rfl
  | cons c cs ih =>
      obtain ⟨hc, hcs⟩ := List.nodup_cons.mp h
      rw [withGroups, ih hcs, List.map_cons]
      refine congrArg _ (List.map_congr_left fun c' hc' => ?_)
      have hne : c'.id ≠ c.id := fun heq => hc (List.mem_map.mpr ⟨c', hc', heq⟩)
      rw [AList.lookup_erase_ne hne]

theorem configurationsWithPeripherals_eq {kitConfigurations : List KitConfiguration}
    (h : (kitConfigurations.map (·.id)).Nodup) (kitPeripherals : List Peripheral) :
    configurationsWithPeripherals kitConfigurations kitPeripherals
      = kitConfigurations.map fun c =>
        ⟨.ofModel c, kitPeripherals.filter (·.kitConfigurationId = c.id)⟩ := by
  rw [configurationsWithPeripherals, withGroups_eq h]
  refine List.map_congr_left fun c _ => ?_
  rw [HashMap.lookup_intoGroupMap, List.filter_map, List.map_map]
  exact congrArg _ (List.map_id _)

/-! ## What a store must be like -/

/-- What makes the two agree. -/
structure Store.Sendable (s : Store) : Prop where
  sole : ∀ c ∈ s.kitConfigurations, ∀ c' ∈ s.kitConfigurations,
    c.active = true → c'.active = true → c.kitId = c'.kitId → c = c'
  coherent : Coherent s
  definitions : ∀ p ∈ s.peripherals, ∃ d ∈ s.peripheralDefinitions,
    d.id = p.peripheralDefinitionId
  serials : UniqueSerials s

section Sendable

variable {s : Store} {kit : Kit} {o : ScanOrder}

theorem nodup_scan (o : ScanOrder) (p : KitConfiguration → Bool) (s : Store) :
    ((o.scan (s.kitConfigurations.select p)).map (·.id)).Nodup := by
  refine ((o.perm _).map _).nodup_iff.mpr ?_
  exact (List.filter_sublist.map _).nodup s.kitConfigurations.nodup

theorem configurationsOfKit_eq (o : ScanOrder) (kit : Kit) (s : Store) :
    configurationsOfKit o kit s
      = (o.scan (s.kitConfigurations.select (·.kitId = kit.id))).map fun c => ⟨.ofModel c,
        (o.scan (s.peripherals.select (·.kitId = kit.id))).filter (·.kitConfigurationId = c.id)⟩ :=
  configurationsWithPeripherals_eq (nodup_scan o _ s) _

/-- A user who exists, if one is given, and who may view the kit is answered with
the listing, and nobody else is. -/
theorem configurationsByKitSerial_iff (hserials : UniqueSerials s) (hkit : kit ∈ s.kits)
    (o : ScanOrder) (userId : Option Int)
    (listing : List (Views.KitConfigurationWithPeripherals Peripheral)) :
    configurationsByKitSerial o userId kit.serial s s s = .ok listing
      ↔ (∀ id, userId = some id → (User.byId id s).isSome = true) ∧ PermittedToView userId kit s
        ∧ listing = configurationsOfKit o kit s := by
  have hserial := hserials.bySerial hkit
  constructor
  · intro h
    obtain ⟨r, hr, h⟩ := bind_ok.mp h
    obtain ⟨-, hfound, hview⟩ := futKitPermissionOrForbidden_ok hr
    have hid : r.1.2.2 = kit := Option.some.inj (hfound.symm.trans hserial)
    obtain rfl := Except.ok.inj h
    rw [hid] at hview ⊢
    refine ⟨?_, hview, rfl⟩
    rintro id rfl
    obtain ⟨user, s₁, hactor, -⟩ := Tx.run_bind_ok.mp hr
    obtain ⟨-, hfound, hsome⟩ := actingUser_ok hactor
    rw [hfound] at hsome
    exact hsome rfl
  · rintro ⟨hactor, hview, rfl⟩
    obtain ⟨_, _, hr⟩ := futKitPermissionOrForbidden_of_permitted hactor hserial hview
    exact bind_ok.mpr ⟨_, hr, rfl⟩

/-- What a configuration is listed with is what a query by its id returns. -/
theorem Coherent.peripherals_perm (hs : Coherent s) {c : KitConfiguration}
    (hc : c ∈ s.kitConfigurations) (hkit : c.kitId = kit.id) :
    ((o.scan (s.peripherals.select (·.kitId = kit.id))).filter
      (·.kitConfigurationId = c.id)).Perm (Peripheral.ofKitConfiguration c.id s) := by
  refine ((o.perm _).filter _).trans ?_
  show (List.filter _ (s.peripherals.rows.filter _)).Perm (s.peripherals.rows.filter _)
  rw [List.filter_filter]
  refine .of_eq (List.filter_congr fun p hp => ?_)
  have hof : p.kitConfigurationId = c.id → p.kitId = kit.id := by
    intro hid
    rw [← hkit, (hs p hp).2 c hc hid.symm]
  simpa using hof

theorem Store.Sendable.activeOfKit_eq_some (hs : s.Sendable) {c : KitConfiguration} :
    KitConfiguration.activeOfKit o kit.id s = some c
      ↔ c ∈ s.kitConfigurations ∧ c.kitId = kit.id ∧ c.active = true := by
  have hmem : ∀ c, c ∈ o.scan (s.kitConfigurations.select fun c => c.kitId = kit.id && c.active)
      ↔ c ∈ s.kitConfigurations ∧ c.kitId = kit.id ∧ c.active = true := by
    intro c
    rw [(o.perm _).mem_iff, SerialTable.mem_select]
    simp
  constructor
  · intro h
    exact (hmem c).mp (List.mem_of_head? h)
  · rintro ⟨hc, hkit, hactive⟩
    unfold KitConfiguration.activeOfKit
    cases hfirst : (o.scan (s.kitConfigurations.select fun c =>
        c.kitId = kit.id && c.active)).head? with
    | none =>
        have hmem := (hmem c).mpr ⟨hc, hkit, hactive⟩
        rw [List.head?_eq_none_iff.mp hfirst] at hmem
        cases hmem
    | some c' =>
        obtain ⟨hc', hkit', hactive'⟩ := (hmem c').mp (List.mem_of_head? hfirst)
        rw [hs.sole c' hc' c hc hactive' hactive (hkit'.trans hkit.symm)]

/-- The active configuration that is listed is the one that is found. -/
theorem Store.Sendable.listed_active (hs : s.Sendable) (o' : ScanOrder) :
    (o'.scan (s.kitConfigurations.select (·.kitId = kit.id))).filter (·.active)
      = (KitConfiguration.activeOfKit o kit.id s).toList := by
  have hmem : ∀ c, c ∈ (o'.scan (s.kitConfigurations.select (·.kitId = kit.id))).filter (·.active)
      ↔ KitConfiguration.activeOfKit o kit.id s = some c := by
    intro c
    rw [hs.activeOfKit_eq_some, List.mem_filter, (o'.perm _).mem_iff, SerialTable.mem_select]
    simp [and_assoc]
  cases hactive : KitConfiguration.activeOfKit o kit.id s with
  | none =>
      refine List.eq_nil_iff_forall_not_mem.mpr fun c hc => ?_
      rw [hmem, hactive] at hc
      cases hc
  | some c =>
      refine List.perm_singleton.mp
        ((List.perm_ext_iff_of_nodup ?_ (List.nodup_singleton c)).mpr fun c' => ?_)
      · exact ((nodup_scan o' _ s).of_map).filter _
      · rw [hmem, hactive, List.mem_singleton, Option.some.injEq]
        exact eq_comm

theorem Store.Sendable.withDefinitions_perm (hs : s.Sendable) (id : Int) :
    ((Peripheral.withDefinitions o id s).map (·.1)).Perm (Peripheral.ofKitConfiguration id s) := by
  refine ((o.perm _).map _).trans (.of_eq ?_)
  rw [List.map_filterMap]
  calc (Peripheral.ofKitConfiguration id s).filterMap _
      = (Peripheral.ofKitConfiguration id s).filterMap some := by
        refine List.filterMap_congr fun p hp => ?_
        obtain ⟨d, hd, hid⟩ := hs.definitions p (SerialTable.mem_select.mp hp).1
        rw [SerialTable.find?_eq_some.mpr ⟨hd, hid⟩]
        rfl
    _ = Peripheral.ofKitConfiguration id s := List.filterMap_some

theorem mem_withDefinitions {id : Int} {p : Peripheral × PeripheralDefinition}
    (h : p ∈ Peripheral.withDefinitions o id s) :
    p.2 ∈ s.peripheralDefinitions ∧ p.2.id = p.1.peripheralDefinitionId := by
  obtain ⟨p₀, -, hjoin⟩ := List.mem_filterMap.mp ((o.perm _).mem_iff.mp h)
  obtain ⟨d, hd, rfl⟩ := Option.map_eq_some_iff.mp hjoin
  exact SerialTable.find?_eq_some.mp hd

end Sendable

/-! ## Every reachable store is like this -/

section Runs

variable {x : Crates} {strings : Strings}

/-- What holds of the store, for all that a deployment does. -/
structure Store.Deployed (x : Crates) (s : Store) : Prop where
  history : s.ActivationHistory
  coherent : Coherent s
  known : s.Known
  conforming : s.Conforming x
  serials : UniqueSerials s

theorem Store.Deployed.sendable {s : Store} (h : s.Deployed x) : s.Sendable where
  sole := h.history.sole
  coherent := h.coherent
  definitions p hp := by
    obtain ⟨d, hd, hid, -⟩ := h.conforming p hp
    exact ⟨d, hd, hid⟩
  serials := h.serials

theorem Store.Deployed.empty : Store.empty.Deployed x where
  history := .empty
  coherent := fun p hp => by cases hp
  known := fun d hd => by cases hd
  conforming := fun p hp => by cases hp
  serials := fun k hk => by cases hk

/-- What an unfinished task of the deployment knows of the rows that it has read. -/
def DeploymentTask.Coherent (s : Services) : DeploymentTask → Prop
  | .backend (.service (.api task)) => task.Coherent s.store
  | _ => True

theorem DeploymentTask.Coherent.keeps {s s' : Services} (h : Identity s.store s'.store)
    {t : DeploymentTask} (ht : t.Coherent s) : t.Coherent s' := by
  cases t with
  | backend task =>
      cases task with
      | service task =>
          cases task with
          | api task => exact Task.Coherent.keeps h ht
          | upload | ingest => trivial
      | account => trivial
  | insertAstroplantDefinitions => trivial

theorem SameKits.identity {s s' : Store} (h : SameKits s s') : Identity s s' where
  kits := by
    rw [h.kits]
    exact .refl fun _ => rfl
  configurations := by
    rw [h.kitConfigurations]
    exact .refl fun _ => rfl
  peripherals := by
    rw [h.peripherals]
    exact .refl fun _ => rfl

/-- **One step of the deployment.** -/
theorem deployment_deployed {e : BackendEnv} {t : DeploymentTask} {ts : List DeploymentTask}
    {s s' : Services} {k : Option DeploymentTask} (hs : s.store.Deployed x)
    (hknows : t.KnowsDefinition s) (ht : t.Coherent s)
    (h : (deployment x strings).advance e t ts s = some (s', k)) :
    s'.store.Deployed x ∧ (∀ t' ∈ k, t'.KnowsDefinition s' ∧ t'.Coherent s')
      ∧ (∀ t' : DeploymentTask, t'.KnowsDefinition s → t'.KnowsDefinition s')
      ∧ ∀ t' : DeploymentTask, t'.Coherent s → t'.Coherent s' := by
  obtain ⟨⟨hknown, hconforming⟩, hknowsNext, hkeeps⟩ :=
    deployment_conforming ⟨hs.known, hs.conforming⟩ hknows h
  suffices hrest : s'.store.ActivationHistory ∧ AstroPlant.Coherent s'.store
      ∧ UniqueSerials s'.store ∧ Identity s.store s'.store ∧ ∀ t' ∈ k, t'.Coherent s' by
    obtain ⟨hhistory, hcoherent, hserials, hidentity, hnext⟩ := hrest
    exact ⟨⟨hhistory, hcoherent, hknown, hconforming, hserials⟩,
      fun t' ht' => ⟨hknowsNext t' ht', hnext t' ht'⟩, fun t' ht' => ht'.keeps hkeeps,
      fun t' ht' => ht'.keeps hidentity⟩
  cases t with
  | insertAstroplantDefinitions simulation strategy =>
      obtain ⟨rfl, rfl⟩ := Prod.mk.inj (Option.some.inj h)
      have hsame : SameKits s.store
          ((insertAstroplantDefinitions simulation strategy).commit s.store).2 := by
        rcases Tx.commit_cases (insertAstroplantDefinitions simulation strategy) s.store
          with ⟨error, hcommit⟩ | ⟨u, s₁, hrun, hcommit⟩
        · rw [hcommit]
          exact ⟨rfl, rfl, rfl⟩
        · rw [hcommit]
          exact (insertAstroplantDefinitions_conforming hrun ⟨hs.known, hs.conforming⟩).1
      refine ⟨hs.history.of_eq hsame.kitConfigurations,
        coherent_of_identity hs.coherent hsame.identity hsame.peripherals, ?_, hsame.identity,
        fun t' ht' => by cases ht'⟩
      exact uniqueSerials_of_subset hs.serials fun k hk => by rwa [← hsame.kits]
  | backend task =>
      obtain ⟨⟨s₁, next⟩, hbackend, heq⟩ := Option.map_eq_some_iff.mp h
      obtain ⟨rfl, rfl⟩ := Prod.mk.inj heq
      have hhistory := (backend_recorded hs.history hbackend).1
      rcases backend_cases hbackend with ⟨task, store, next, rfl, hapi, rfl, rfl⟩ | ⟨hnext, hframe⟩
      · obtain ⟨hcoherent, hnext, -⟩ :=
          coherent_advance hs.coherent ht (fun u hu => by cases hu) hapi
        have hchange := api_change hapi
        refine ⟨hhistory, hcoherent, uniqueSerials_change hs.serials hchange,
          change_identity hchange, fun t' ht' => ?_⟩
        simp only [Option.map_map, Option.mem_map, Function.comp] at ht'
        obtain ⟨task', hmem, rfl⟩ := ht'
        exact hnext task' hmem
      · obtain ⟨users, media, rawMeasurements, aggregateMeasurements, kitLastSeen, hstore⟩ :=
          hframe
        have hsame : SameKits s.store s₁.store := by
          rw [hstore]
          exact ⟨rfl, rfl, rfl⟩
        refine ⟨hhistory, coherent_of_identity hs.coherent hsame.identity hsame.peripherals, ?_,
          hsame.identity, fun t' ht' => ?_⟩
        · exact uniqueSerials_of_subset hs.serials fun k hk => by rwa [← hsame.kits]
        · obtain ⟨task', hmem, rfl⟩ := Option.mem_map.mp ht'
          rcases BackendTask.other_cases (hnext task' hmem) with ⟨_, rfl⟩ | ⟨_, rfl⟩ | ⟨_, rfl⟩ <;>
            trivial

theorem deployed_exec {ls : List (Sched DeploymentRequest BackendEnv)}
    {c : Conc Services DeploymentTask}
    (hrun : Run.exec (deployment x strings).step ⟨.start .empty, []⟩ ls = some c) :
    c.store.store.Deployed x := by
  have hholds : Program.Holds (fun s => s.store.Deployed x)
      (fun s t => t.KnowsDefinition s ∧ t.Coherent s) c := by
    refine Program.holds_exec _ ?_ ?_ ⟨.empty, fun t ht => by cases ht⟩ hrun
    · intro r s hs
      cases r with
      | backend request =>
          cases request with
          | service request => cases request <;> exact ⟨trivial, trivial⟩
          | account => exact ⟨trivial, trivial⟩
      | insertAstroplantDefinitions => exact ⟨trivial, trivial⟩
    · intro e t ts s s' k hs ht hts h
      obtain ⟨hs', hnext, hknows, hcoherent⟩ := deployment_deployed hs ht.1 ht.2 h
      exact ⟨hs', hnext, fun u hu => ⟨hknows u (hts u hu).1, hcoherent u (hts u hu).2⟩⟩
  exact hholds.1

/-- A commit sets no column of a configuration but those it may. -/
theorem seen_cases (d : PatchTx) (s : Store) : ∃ kitConfigurations,
    d.seen s = { s with kitConfigurations }
      ∧ s.kitConfigurations.Keeps (fun c c' => c.kitId = c'.kitId) kitConfigurations := by
  have hdeactivated : ∃ kitConfigurations, (if d.deactivated then
        KitConfiguration.deactivateAll d.kit.id d.now s else s) = { s with kitConfigurations }
      ∧ s.kitConfigurations.Keeps (fun c c' => c.kitId = c'.kitId) kitConfigurations := by
    split
    · exact ⟨_, rfl, .update (KitConfiguration.deactivate_id d.now) (fun _ => rfl) fun _ _ _ => rfl⟩
    · exact ⟨_, rfl, .refl fun _ => rfl⟩
  obtain ⟨kitConfigurations, heq, hkeeps⟩ := hdeactivated
  unfold PatchTx.seen
  dsimp only
  rw [heq]
  split
  · refine ⟨_, rfl, hkeeps.trans Eq.trans ?_⟩
    exact .update (UpdateKitConfiguration.apply_id _ d.now) (fun _ => rfl) fun _ _ _ => rfl
  · exact ⟨_, rfl, hkeeps⟩

/-- **A commit**, when the statements of other transactions have run in between. -/
theorem Store.Deployed.seen {s : Store} {d : PatchTx} (hs : s.Deployed x) (hd : d.Sound s) :
    (d.seen s).Deployed x := by
  have hhistory := hs.history.seen hd
  obtain ⟨kitConfigurations, heq, hkeeps⟩ := seen_cases d s
  rw [heq] at hhistory ⊢
  exact ⟨hhistory, fun p hp => hkeeps.forall_key (hs.coherent p hp), hs.known, hs.conforming,
    hs.serials⟩

/-- A store that the deployment reaches, or that patches reach from there when
their transactions are interleaved statement by statement. -/
inductive Store.Reached (x : Crates) (strings : Strings) : Store → Prop where
  | deployment {ls : List (Sched DeploymentRequest BackendEnv)} {c : Conc Services DeploymentTask}
      (hrun : Run.exec (deployment x strings).step ⟨.start .empty, []⟩ ls = some c) :
      Reached x strings c.store.store
  | patches {ls : List (Sched DeploymentRequest BackendEnv)} {c : Conc Services DeploymentTask}
      {ls' : List (Sched PatchRequest Env)} {c' : Conc Activations PatchTask}
      (hrun : Run.exec (deployment x strings).step ⟨.start .empty, []⟩ ls = some c)
      (hpatches : Run.exec (AstroPlant.patches x).step ⟨⟨c.store.store, []⟩, []⟩ ls' = some c') :
      Reached x strings c'.store.store

theorem Store.Reached.sendable {s : Store} (h : s.Reached x strings) : s.Sendable := by
  cases h with
  | deployment hrun => exact (deployed_exec hrun).sendable
  | patches hrun hpatches =>
      have hdeployed := deployed_exec hrun
      have hholds := Run.exec_invariant
        (I := Program.HoldsPairwise (fun s : Activations => s.store.Deployed x)
          (fun s t => t.Sound s.store) PatchTask.Compatible)
        (fun c l c' hc h => patches_step (fun e d ts s _ hs hd _ => hs.seen hd) hc
          (Program.ok_true c l) h)
        ⟨⟨hdeployed, fun t ht => by cases ht⟩, List.Pairwise.nil⟩ hpatches
      exact hholds.1.1.sendable

/-- **A kit is sent what the API shows**, in every store that is reached, and in
whatever order the queries return their rows: nothing if no active configuration
is listed, and otherwise the only one that is, with the same peripherals, each
with its own definition. The listing has every configuration of the kit once,
with the peripherals that a query by its id returns. -/
theorem sent_as_listed {s : Store} (hs : s.Reached x strings) {kit : Kit} (hkit : kit ∈ s.kits)
    (o o' : ScanOrder) :
    (getActiveConfiguration o kit.serial s = none
        ↔ (configurationsOfKit o' kit s).filter (·.kitConfiguration.active) = [])
      ∧ (∀ sent, getActiveConfiguration o kit.serial s = some sent →
        ∃ v, (configurationsOfKit o' kit s).filter (·.kitConfiguration.active) = [v]
          ∧ sent.kitConfiguration = v.kitConfiguration
          ∧ (sent.peripherals.map (·.peripheral)).Perm v.peripherals
          ∧ ∀ p ∈ sent.peripherals, p.definition ∈ s.peripheralDefinitions
            ∧ p.definition.id = p.peripheral.peripheralDefinitionId)
      ∧ ((configurationsOfKit o' kit s).map (·.kitConfiguration)).Perm
        ((s.kitConfigurations.select (·.kitId = kit.id)).map .ofModel)
      ∧ ((configurationsOfKit o' kit s).map (·.kitConfiguration.id)).Nodup
      ∧ (∀ v ∈ configurationsOfKit o' kit s,
        v.peripherals.Perm (Peripheral.ofKitConfiguration v.kitConfiguration.id s))
      ∧ ∀ userId listing, configurationsByKitSerial o' userId kit.serial s s s = .ok listing
        ↔ (∀ id, userId = some id → (User.byId id s).isSome = true) ∧ PermittedToView userId kit s
          ∧ listing = configurationsOfKit o' kit s := by
  have hsendable := hs.sendable
  have hserial := hsendable.serials.bySerial hkit
  have hactive : (configurationsOfKit o' kit s).filter (·.kitConfiguration.active)
      = (KitConfiguration.activeOfKit o kit.id s).toList.map fun c => ⟨.ofModel c,
        (o'.scan (s.peripherals.select (·.kitId = kit.id))).filter
          (·.kitConfigurationId = c.id)⟩ := by
    rw [configurationsOfKit_eq, List.filter_map]
    exact congrArg _ (hsendable.listed_active o')
  refine ⟨?_, ?_, ?_, ?_, ?_, ?_⟩
  · rw [hactive, getActiveConfiguration, hserial]
    dsimp only
    cases KitConfiguration.activeOfKit o kit.id s <;> simp
  · intro sent hsent
    rw [getActiveConfiguration, hserial] at hsent
    dsimp only at hsent
    split at hsent
    · cases hsent
    · rename_i c hc
      obtain rfl := Option.some.inj hsent
      obtain ⟨hmem, hof, -⟩ := hsendable.activeOfKit_eq_some.mp hc
      refine ⟨_, by rw [hactive, hc]; rfl, rfl, ?_, ?_⟩
      · rw [List.map_map]
        exact (hsendable.withDefinitions_perm c.id).trans
          (hsendable.coherent.peripherals_perm hmem hof).symm
      · intro p hp
        obtain ⟨joined, hjoined, rfl⟩ := List.mem_map.mp hp
        exact mem_withDefinitions hjoined
  · rw [configurationsOfKit_eq, List.map_map]
    exact (o'.perm _).map _
  · rw [configurationsOfKit_eq, List.map_map]
    exact nodup_scan o' _ s
  · intro v hv
    rw [configurationsOfKit_eq] at hv
    obtain ⟨c, hc, rfl⟩ := List.mem_map.mp hv
    obtain ⟨hmem, hof⟩ := SerialTable.mem_select.mp ((o'.perm _).mem_iff.mp hc)
    exact hsendable.coherent.peripherals_perm hmem (of_decide_eq_true hof)
  · exact configurationsByKitSerial_iff hsendable.serials hkit o'

end Runs

/-- One of two configurations of the kit is activated. -/
def activateHeater : List (Sched DeploymentRequest BackendEnv) :=
  heatedKit ++ [.spawn (.backend (.service (.api
      (.onConfiguration (some 1) 1 (.patch ⟨none, none, none, none, some true⟩))))),
    .run 0 {}, .run 0 {}, .run 0 { now := 5 }]

/-- The member who has activated it is answered with the listing; the kit is sent
the first of the two. -/
theorem sent_as_listed_activateHeater :
    ∃ c kit, Run.exec (deployment nullCrates .ascii).step ⟨.start .empty, []⟩ activateHeater
        = some c
      ∧ Kit.bySerial "k1" c.store.store = some kit
      ∧ ((getActiveConfiguration .fromStart "k1" c.store.store).map fun sent =>
          (sent.kitConfiguration.id, sent.peripherals.map fun p => p.definition.id))
        = some (1, [4])
      ∧ ((configurationsOfKit .fromStart kit c.store.store).map (·.kitConfiguration.id)).Nodup
      ∧ configurationsByKitSerial .fromStart (some 1) "k1" c.store.store c.store.store c.store.store
        = .ok (configurationsOfKit .fromStart kit c.store.store) := by
  have hsent : (Run.exec (deployment nullCrates .ascii).step ⟨.start .empty, []⟩
      activateHeater).map (fun c => ((Kit.bySerial "k1" c.store.store).map fun kit =>
          ((User.byId 1 c.store.store).isSome, KitAction.view.permitted (.ofModels
            (User.byId 1 c.store.store) (membershipOf (some 1) kit.id c.store.store)) kit),
        (getActiveConfiguration .fromStart "k1" c.store.store).map fun sent =>
          (sent.kitConfiguration.id, sent.peripherals.map fun p => p.definition.id)))
      = some (some (true, true), some (1, [4])) := by
    decide +kernel
  obtain ⟨c, hrun, hsent⟩ := Option.map_eq_some_iff.mp hsent
  obtain ⟨hkit, hsent⟩ := Prod.mk.inj hsent
  obtain ⟨kit, hkit, hmay⟩ := Option.map_eq_some_iff.mp hkit
  obtain ⟨huser, hview⟩ := Prod.mk.inj hmay
  have hmem : kit ∈ c.store.store.kits := List.mem_of_find?_eq_some hkit
  have hserial : kit.serial = "k1" := of_decide_eq_true (List.find?_eq_some_iff_append.mp hkit).1
  obtain ⟨-, -, -, hnodup, -, hlisted⟩ :=
    sent_as_listed (.deployment hrun) hmem .fromStart .fromStart
  rw [hserial] at hlisted
  refine ⟨c, kit, hrun, hkit, hsent, hnodup, (hlisted (some 1) _).mpr ⟨?_, hview, rfl⟩⟩
  rintro _ ⟨⟩
  exact huser

end AstroPlant
