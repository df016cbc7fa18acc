import AstroPlant.GrowingPages
import AstroPlant.ImportRuns
import AstroPlant.KitPages

/-!
# The catalogue

The peripheral definitions and the quantity types are listed to everybody, two
rows a page. A definition is shown with the quantity types that it expects if
these are asked for; they are loaded by a query of its own, so the database may
have changed since the page was.

Only the administration tool changes the catalogue, and it removes nothing. So
the links lead through all definitions up to those that were there at the last
request (`definitions_listed`), and the quantity types that a definition expects
are on the pages of quantity types that are requested later (`expected_quantity_types_listed`).

Both lists are pages of a growing table (`GrowingPages`), so what is to be shown
of the code is that an answer is a page with a link to the rest, that the link is
read back (`PeripheralDefinition.QueryParams.ofUri_next`), and that a deployment
only lets the tables grow (`deployment_catalogue`). A client may take its time
between two requests. The states that its requests see are those that a run
passes through, in order (`Chronological`); a definition whose quantity types are
asked for is loaded with two of them.
-/

namespace AstroPlant

/-! ## Grouping -/

section Grouping

variable {π χ : Type} {parentId : π → Int} {foreignKey : χ → Int}

theorem modify_findIdx {γ : Type} {parents : List π} (h : (parents.map parentId).Nodup) (k : Int)
    (f : π → γ) (g : γ → γ) :
    (parents.map f).modify (parents.findIdx (parentId · = k)) g
      = parents.map fun p => if parentId p = k then g (f p) else f p := by
  induction parents with
  | nil => rfl
  | cons p ps ih =>
      obtain ⟨hp, hps⟩ := List.nodup_cons.mp h
      rw [List.findIdx_cons, List.map_cons, List.map_cons]
      by_cases hk : parentId p = k
      · -- no other parent has the id
        have hothers : ∀ p' ∈ ps, parentId p' ≠ k := fun p' hp' heq =>
          hp (List.mem_map.mpr ⟨p', hp', heq.trans hk.symm⟩)
        rw [if_pos hk, decide_eq_true hk, cond_true, List.modify_zero_cons]
        exact congrArg _ (List.map_congr_left fun p' hp' => (if_neg (hothers p' hp')).symm)
      · rw [if_neg hk, decide_eq_false hk, cond_false, List.modify_succ_cons, ih hps]

theorem groupedBy_eq {parents : List π} (h : (parents.map parentId).Nodup) (children : List χ) :
    groupedBy parentId foreignKey children parents
      = parents.map fun p => children.filter (foreignKey · = parentId p) := by
  suffices hfold : ∀ (before : π → List χ), children.foldl (fun groups child =>
      groups.modify (parents.findIdx (parentId · = foreignKey child)) (· ++ [child]))
      (parents.map before)
      = parents.map fun p => before p ++ children.filter (foreignKey · = parentId p) from
    hfold fun _ => []
  induction children with
  | nil => simp
  | cons child children ih =>
      intro before
      rw [List.foldl_cons, modify_findIdx h, ih]
      refine List.map_congr_left fun p _ => ?_
      by_cases hp : foreignKey child = parentId p
      · simp [hp]
      · simp [hp, Ne.symm hp]

end Grouping

/-! ## Peripheral definitions -/

/-- The quantity types that the rows of a definition name. -/
theorem ofPeripheralDefinitions_eq (o : ScanOrder) {definitions : List PeripheralDefinition}
    (h : (definitions.map (·.id)).Nodup) (s : Store) :
    ∃ groups : PeripheralDefinition → List PeripheralDefinitionExpectedQuantityType,
      PeripheralDefinitionExpectedQuantityType.ofPeripheralDefinitions o definitions s
        = definitions.map groups
      ∧ ∀ d ∈ definitions, (groups d).Perm (s.expectedRows d.id) := by
  refine ⟨_, groupedBy_eq h _, fun d hd => ((o.perm _).filter _).trans ?_⟩
  have hown : ∀ r : PeripheralDefinitionExpectedQuantityType,
      (decide (r.peripheralDefinitionId = d.id)
        && definitions.any (·.id = r.peripheralDefinitionId))
      = decide (r.peripheralDefinitionId = d.id) := by
    intro r
    by_cases hr : r.peripheralDefinitionId = d.id
    · have hany : definitions.any (fun d' => decide (d'.id = r.peripheralDefinitionId)) = true :=
        List.any_eq_true.mpr ⟨d, hd, decide_eq_true hr.symm⟩
      rw [hany, Bool.and_true]
    · rw [decide_eq_false hr, Bool.false_and]
  show List.Perm (List.filter _ (List.filter _ _)) (List.filter _ _)
  rw [List.filter_filter, funext hown]

/-- How a definition is shown: as it was read first, with the quantity types that
it expected when they were read. -/
def PeripheralDefinition.QueryParams.Shows (queryParams : QueryParams) (s' : Store)
    (d : PeripheralDefinition) (v : PeripheralDefinitionView) : Prop :=
  v.peripheralDefinition = d
    ∧ (queryParams.withExpectedQuantityTypes = false → v.expectedQuantityTypes = none)
    ∧ (queryParams.withExpectedQuantityTypes = true → ∃ quantityTypes,
      v.expectedQuantityTypes = some quantityTypes ∧ quantityTypes.Perm (s'.expected d.id))

theorem peripheralDefinitions_body (o : ScanOrder)
    (queryParams : PeripheralDefinition.QueryParams) (s s' : Store) :
    List.Forall₂ (queryParams.Shows s')
      (PeripheralDefinition.cursorPage queryParams.after 2 s)
      (peripheralDefinitions o queryParams s s').body := by
  obtain ⟨after, withExpectedQuantityTypes⟩ := queryParams
  cases withExpectedQuantityTypes with
  | false =>
      exact List.forall₂_map_right_iff.mpr (List.forall₂_same.mpr
        fun d _ => ⟨rfl, fun _ => rfl, fun h => by cases h⟩)
  | true =>
      have hnodup : ((PeripheralDefinition.cursorPage after 2 s).map (·.id)).Nodup := by
        refine ((List.take_sublist _ _).map _).nodup ?_
        exact ((List.perm_insertionSort _ _).map _).nodup_iff.mpr
          ((List.filter_sublist.map _).nodup s.peripheralDefinitions.nodup)
      obtain ⟨groups, hgroups, hperm⟩ := ofPeripheralDefinitions_eq o hnodup s'
      have hbody : (peripheralDefinitions o ⟨after, true⟩ s s').body
          = (PeripheralDefinition.cursorPage after 2 s).map fun d =>
            ⟨d, some ((groups d).map (·.quantityTypeId))⟩ := by
        show (List.zip (PeripheralDefinition.cursorPage after 2 s)
          (PeripheralDefinitionExpectedQuantityType.ofPeripheralDefinitions o _ s')).map _ = _
        rw [hgroups, List.zip_map_right, List.map_map, List.zip_eq_zipWith, List.map_zipWith,
          List.zipWith_self]
        rfl
      rw [hbody]
      refine List.forall₂_map_right_iff.mpr (List.forall₂_same.mpr fun d hd => ?_)
      exact ⟨rfl, fun h => (by cases h), fun _ => ⟨_, rfl, (hperm d hd).map _⟩⟩

/-! ## Links -/

/-- `bool::from_str`. -/
def boolFromStr (s : String) : Option Bool :=
  if s = "true" then some true else if s = "false" then some false else none

theorem boolFromStr_toString (b : Bool) : boolFromStr (toString b) = some b := by
  cases b <;> decide

def queryBool (name : String) (pairs : List (String × String)) : Option (Option Bool) := do
  match ← queryField name pairs with
  | none => return none
  | some s =>
      let b ← boolFromStr s
      return some b

/-- The pairs of a request for a link. -/
def pairsOfUri (path uri : String) : Option (List (String × String)) :=
  match uri.toList.splitOn '?' with
  | [p, query] => if p = path.toList then some (KitsQuery.pairs query) else none
  | _ => none

def PeripheralDefinition.QueryParams.ofPairs (pairs : List (String × String)) :
    Option QueryParams := do
  let after ← queryInt "after" pairs
  let withExpectedQuantityTypes ← queryBool "withExpectedQuantityTypes" pairs
  return ⟨after, withExpectedQuantityTypes.getD false⟩

def PeripheralDefinition.QueryParams.ofUri (uri : String) : Option QueryParams :=
  (pairsOfUri "/peripheral-definitions" uri).bind ofPairs

/-- The `after` of a request for quantity types. -/
def CursorPage.ofUri (uri : String) : Option (Option Int) :=
  (pairsOfUri "/quantity-types" uri).bind (queryInt "after")

theorem not_mem_i32ToString {c : Char} (hdash : c ≠ '-') (hdigit : c.isDigit = false) (id : Int) :
    c ∉ (i32ToString id).toList := by
  intro hmem
  rcases mem_i32ToString hmem with rfl | h
  · exact hdash rfl
  · rw [hdigit] at h
    cases h

theorem pairsOfUri_eq {path uri : String} (query : List Char) (hpath : '?' ∉ path.toList)
    (hquery : '?' ∉ query) (huri : uri.toList = path.toList ++ '?' :: query) :
    pairsOfUri path uri = some (KitsQuery.pairs query) := by
  rw [pairsOfUri, huri, List.splitOn_append_cons_self_of_not_mem hpath,
    List.splitOn_eq_singleton hquery]
  exact if_pos rfl

/-- What follows `after=` in a query is the number that was written. -/
theorem pairs_after (id : Int) :
    KitsQuery.pairs ("after=".toList ++ (i32ToString id).toList) = [("after", i32ToString id)]
      ∧ ∀ query, KitsQuery.pairs ("after=".toList ++ (i32ToString id).toList ++ '&' :: query)
        = ("after", i32ToString id) :: KitsQuery.pairs query := by
  have hamp : '&' ∉ "after=".toList ++ (i32ToString id).toList := by
    rw [List.mem_append]
    exact not_or.mpr ⟨by decide, not_mem_i32ToString (by decide) (by decide) id⟩
  constructor
  · rw [KitsQuery.pairs, List.splitOn_eq_singleton hamp]
    simp [List.takeWhile, List.dropWhile]
  · intro query
    rw [KitsQuery.pairs, List.splitOn_append_cons_self_of_not_mem hamp]
    simp [KitsQuery.pairs, List.takeWhile, List.dropWhile]

theorem not_mem_after (id : Int) : '?' ∉ "after=".toList ++ (i32ToString id).toList := by
  rw [List.mem_append]
  exact not_or.mpr ⟨by decide, not_mem_i32ToString (by decide) (by decide) id⟩

/-- A link leads to the next definitions, with what was asked for. -/
theorem PeripheralDefinition.QueryParams.ofUri_next (id : Int) (withExpectedQuantityTypes : Bool) :
    ofUri ("/peripheral-definitions?after=" ++ i32ToString id ++ "&withExpectedQuantityTypes="
        ++ toString withExpectedQuantityTypes)
      = some ⟨some id, withExpectedQuantityTypes⟩ := by
  have hpairs : pairsOfUri "/peripheral-definitions" ("/peripheral-definitions?after="
        ++ i32ToString id ++ "&withExpectedQuantityTypes=" ++ toString withExpectedQuantityTypes)
      = some [("after", i32ToString id),
        ("withExpectedQuantityTypes", toString withExpectedQuantityTypes)] := by
    refine (pairsOfUri_eq ("after=".toList ++ (i32ToString id).toList ++ '&' ::
      ("withExpectedQuantityTypes=".toList ++ (toString withExpectedQuantityTypes).toList))
      (by decide) ?_ ?_).trans (congrArg some ?_)
    · rw [List.mem_append]
      refine not_or.mpr ⟨not_mem_after id, ?_⟩
      cases withExpectedQuantityTypes <;> decide
    · simp [String.toList_append]
    · rw [(pairs_after id).2]
      cases withExpectedQuantityTypes <;> rfl
  rw [ofUri, hpairs]
  simp [ofPairs, queryInt, queryBool, queryField, i32FromStr_i32ToString, boolFromStr_toString]

theorem CursorPage.ofUri_next (id : Int) :
    ofUri ("/quantity-types?after=" ++ i32ToString id) = some (some id) := by
  have hpairs : pairsOfUri "/quantity-types" ("/quantity-types?after=" ++ i32ToString id)
      = some [("after", i32ToString id)] := by
    refine (pairsOfUri_eq ("after=".toList ++ (i32ToString id).toList) (by decide)
      (not_mem_after id) ?_).trans (congrArg some (pairs_after id).1)
    rw [String.toList_append]
    rfl
  rw [ofUri, hpairs]
  simp [queryInt, queryField, i32FromStr_i32ToString]

/-! ## Following the links -/

/-- A request in the states that its two queries read. -/
def definitionsRequest (o : ScanOrder) (queryParams : PeripheralDefinition.QueryParams)
    (s : Store × Store) : Except Problem (Keyset.Answer PeripheralDefinitionView String) :=
  .ok ⟨(peripheralDefinitions o queryParams s.1 s.2).body,
    (peripheralDefinitions o queryParams s.1 s.2).next⟩

def definitionPages (o : ScanOrder) (queryParams : PeripheralDefinition.QueryParams)
    (ss : List (Store × Store)) :
    List (Except Problem (Keyset.Answer PeripheralDefinitionView String)) :=
  Keyset.follow (definitionsRequest o) PeripheralDefinition.QueryParams.ofUri queryParams ss

def quantityTypesRequest (after : Option Int) (s : Store) :
    Except Problem (Keyset.Answer QuantityType String) :=
  .ok ⟨(quantityTypes after s).body, (quantityTypes after s).next⟩

def quantityTypePages (after : Option Int) (ss : List Store) :
    List (Except Problem (Keyset.Answer QuantityType String)) :=
  Keyset.follow quantityTypesRequest CursorPage.ofUri after ss

theorem definitions_serves (o : ScanOrder) :
    GrowingPages.Serves PeripheralDefinition.id 2 (definitionsRequest o)
      PeripheralDefinition.QueryParams.ofUri PeripheralDefinition.QueryParams.after
      (fun _ s => s.1.peripheralDefinitions.rows) (fun queryParams s => queryParams.Shows s.2) where
  nodup _ s := s.1.peripheralDefinitions.nodup
  body queryParams s a ha := by
    obtain rfl := Except.ok.inj ha
    exact peripheralDefinitions_body o queryParams s.1 s.2
  link queryParams s a ha := by
    obtain rfl := Except.ok.inj ha
    rcases GrowingPages.exists_link (PeripheralDefinition.cursorPage queryParams.after 2 s.1)
      fun last => PeripheralDefinition.QueryParams.ofUri_next last.id
        queryParams.withExpectedQuantityTypes
      with hnone | ⟨last, hlink, hdecode, hlast⟩
    · exact Or.inl hnone
    · exact Or.inr ⟨_, _, last, hlink, hdecode, hlast, rfl, rfl, rfl⟩

theorem quantityTypes_serves :
    GrowingPages.Serves QuantityType.id 2 quantityTypesRequest CursorPage.ofUri id
      (fun _ s => s.quantityTypes.rows) (fun _ _ => Eq) where
  nodup _ s := s.quantityTypes.nodup
  body after s a ha := by
    obtain rfl := Except.ok.inj ha
    exact List.forall₂_same.mpr fun _ _ => rfl
  link after s a ha := by
    obtain rfl := Except.ok.inj ha
    rcases GrowingPages.exists_link (QuantityType.cursorPage after 2 s)
      fun last => CursorPage.ofUri_next last.id with hnone | ⟨last, hlink, hdecode, hlast⟩
    · exact Or.inl hnone
    · exact Or.inr ⟨_, _, last, hlink, hdecode, hlast, rfl, rfl, rfl⟩

/-! ## What the import keeps -/

/-- Every quantity type that a definition expects is there. -/
def Store.ExpectsKnown (s : Store) : Prop :=
  ∀ r ∈ s.peripheralDefinitionExpectedQuantityTypes, ∃ qt ∈ s.quantityTypes,
    qt.id = r.quantityTypeId

/-- The catalogue only grows. -/
structure Store.CatalogueGrows (s s' : Store) : Prop where
  definitions : s.peripheralDefinitions.Extends s'.peripheralDefinitions
  quantityTypes : s.quantityTypes.Extends s'.quantityTypes
  expects : s.ExpectsKnown → s'.ExpectsKnown

namespace Store.CatalogueGrows

variable {s s' s'' : Store}

theorem of_eq (hdefinitions : s'.peripheralDefinitions = s.peripheralDefinitions)
    (hquantityTypes : s'.quantityTypes = s.quantityTypes)
    (hexpected : s'.peripheralDefinitionExpectedQuantityTypes
      = s.peripheralDefinitionExpectedQuantityTypes) : s.CatalogueGrows s' where
  definitions := by
    rw [hdefinitions]
    exact .refl _
  quantityTypes := by
    rw [hquantityTypes]
    exact .refl _
  expects h := by
    unfold ExpectsKnown
    rw [hquantityTypes, hexpected]
    exact h

theorem refl (s : Store) : s.CatalogueGrows s := of_eq rfl rfl rfl

theorem trans (h : s.CatalogueGrows s') (h' : s'.CatalogueGrows s'') : s.CatalogueGrows s'' where
  definitions := h.definitions.trans h'.definitions
  quantityTypes := h.quantityTypes.trans h'.quantityTypes
  expects := h'.expects ∘ h.expects

theorem setQuantityTypes {quantityTypes : SerialTable QuantityType QuantityType.id}
    (h : s.quantityTypes.Extends quantityTypes) : s.CatalogueGrows { s with quantityTypes } where
  definitions := .refl _
  quantityTypes := h
  expects hs r hr := by
    obtain ⟨qt, hqt, hid⟩ := hs r hr
    obtain ⟨qt', hqt', hid'⟩ := h.kept qt hqt
    exact ⟨qt', hqt', hid'.trans hid⟩

end Store.CatalogueGrows

section Import

variable {s s' : Store}

theorem selectOrInsertQt_grows {physicalQuantity physicalUnit : String}
    {physicalUnitSymbol : Option String} {id : Int}
    (h : (selectOrInsertQt physicalQuantity physicalUnit physicalUnitSymbol).run s
      = .ok (id, s')) : s.CatalogueGrows s' := by
  obtain ⟨quantity, -, h⟩ := Tx.run_ofExcept_bind_ok.mp h
  obtain ⟨unit, -, h⟩ := Tx.run_ofExcept_bind_ok.mp h
  obtain ⟨symbol, -, h⟩ := Tx.run_ofExcept_bind_ok.mp h
  rw [Tx.run_write_ok] at h
  cases hnamed : QuantityType.named quantity unit s with
  | some qt =>
      rw [hnamed] at h
      cases h
      exact .setQuantityTypes (.update _)
  | none =>
      rw [hnamed] at h
      cases h
      exact .setQuantityTypes (.insert _)

theorem insertOr_grows {new : NewPeripheralDefinition}
    {strategy : ExistingPeripheralDefinitionStrategy} {pd : Option PeripheralDefinition}
    (h : (new.insertOr strategy).run s = .ok (pd, s')) : s.CatalogueGrows s' := by
  obtain ⟨new', -, hinserts⟩ := NewPeripheralDefinition.insertOr_ok h
  cases hinserts with
  | skip => exact .refl s
  | insert => exact ⟨.insert new'.row_id, .refl _, fun hs => hs⟩
  | update => exact ⟨.update new'.apply_id, .refl _, fun hs => hs⟩

/-- The quantity types are checked before the rows are replaced. -/
theorem expectQuantityTypes_grows {pid : Int} {expected : List Int} {u : Unit}
    (h : (expectQuantityTypes pid expected).run s = .ok (u, s')) : s.CatalogueGrows s' := by
  rw [expectQuantityTypes, Tx.run_write_ok] at h
  dsimp only at h
  split at h
  · rename_i hall
    cases h
    refine ⟨.refl _, .refl _, fun hs r hr => ?_⟩
    rcases SerialTable.mem_insertAll hr with hr | ⟨id, hid, i, -, rfl⟩
    · exact hs r (SerialTable.mem_delete.mp hr).1
    · have hknown := (Bool.and_eq_true _ _ ▸ List.all_eq_true.mp hall id hid).1
      obtain ⟨qt, hqt⟩ := Option.isSome_iff_exists.mp hknown
      exact ⟨qt, SerialTable.find?_eq_some.mp hqt⟩
  · cases h

theorem insertPd_grows {new : NewPeripheralDefinition} {expected : List Int}
    {strategy : ExistingPeripheralDefinitionStrategy} {u : Unit}
    (h : (insertPd new expected strategy).run s = .ok (u, s')) : s.CatalogueGrows s' := by
  obtain ⟨pd, s₁, h₁, h⟩ := Tx.run_bind_ok.mp h
  cases pd with
  | none =>
      obtain ⟨-, rfl⟩ := Tx.run_pure_ok.mp h
      exact insertOr_grows h₁
  | some pd => exact (insertOr_grows h₁).trans (expectQuantityTypes_grows h)

theorem insertPds_grows {definitions : List (NewPeripheralDefinition × List Int)}
    {strategy : ExistingPeripheralDefinitionStrategy} {u : Unit}
    (h : (insertPds strategy definitions).run s = .ok (u, s')) : s.CatalogueGrows s' := by
  induction definitions generalizing s with
  | nil =>
      obtain ⟨-, rfl⟩ := Tx.run_pure_ok.mp h
      exact .refl s
  | cons pd definitions ih =>
      obtain ⟨_, s₁, h₁, h⟩ := Tx.run_bind_ok.mp h
      exact (insertPd_grows h₁).trans (ih h)

theorem selectQuantityTypes_grows {quantityTypes : QuantityTypes}
    (h : selectQuantityTypes.run s = .ok (quantityTypes, s')) : s.CatalogueGrows s' := by
  obtain ⟨_, s₁, h₁, h⟩ := Tx.run_bind_ok.mp h
  obtain ⟨_, s₂, h₂, h⟩ := Tx.run_bind_ok.mp h
  obtain ⟨_, s₃, h₃, h⟩ := Tx.run_bind_ok.mp h
  obtain ⟨_, s₄, h₄, h⟩ := Tx.run_bind_ok.mp h
  obtain ⟨_, s₅, h₅, h⟩ := Tx.run_bind_ok.mp h
  obtain ⟨-, rfl⟩ := Tx.run_pure_ok.mp h
  exact (selectOrInsertQt_grows h₁).trans <| (selectOrInsertQt_grows h₂).trans <|
    (selectOrInsertQt_grows h₃).trans <| (selectOrInsertQt_grows h₄).trans <|
    selectOrInsertQt_grows h₅

theorem insertAstroplantDefinitions_grows {simulation : InsertSimulationDefinitions}
    {strategy : ExistingPeripheralDefinitionStrategy} {u : Unit}
    (h : (insertAstroplantDefinitions simulation strategy).run s = .ok (u, s')) :
    s.CatalogueGrows s' := by
  rw [insertAstroplantDefinitions_eq] at h
  obtain ⟨quantityTypes, s₁, h₁, h⟩ := Tx.run_bind_ok.mp h
  exact (selectQuantityTypes_grows h₁).trans (insertPds_grows h)

end Import

/-! ## What a deployment keeps -/

theorem change_catalogue {t : Task} {s s' : Store} (h : Change t s s') : s.CatalogueGrows s' := by
  cases h with
  | deleteKit id now s₁ hrun | deleteConfiguration id now s₁ hrun | deleteMedia id now s₁ hrun =>
      obtain rfl := queueMedia_ok hrun
      exact .of_eq rfl rfl rfl
  | patchConfiguration kit c patch now s₁ ht hfrozen hs₁ =>
      rcases hs₁ with rfl | rfl <;> exact .of_eq rfl rfl rfl
  | nothing | createKit | updateKit | addMember | patchKitMembership | deleteKitMembership
  | createConfiguration | cloneConfiguration | addPeripheral | patchPeripheral
  | deletePeripheral => exact .of_eq rfl rfl rfl

section Runs

variable {x : Crates} {strings : Strings}

/-- **One step of the deployment.** -/
theorem deployment_catalogue {e : BackendEnv} {t : DeploymentTask} {ts : List DeploymentTask}
    {s s' : Services} {k : Option DeploymentTask}
    (h : (deployment x strings).advance e t ts s = some (s', k)) :
    s.store.CatalogueGrows s'.store := by
  cases t with
  | insertAstroplantDefinitions simulation strategy =>
      obtain ⟨rfl, rfl⟩ := Prod.mk.inj (Option.some.inj h)
      rcases Tx.commit_cases (insertAstroplantDefinitions simulation strategy) s.store
        with ⟨error, hcommit⟩ | ⟨u, s₁, hrun, hcommit⟩
      · rw [hcommit]
        exact .refl _
      · rw [hcommit]
        exact insertAstroplantDefinitions_grows hrun
  | backend task =>
      obtain ⟨⟨s₁, next⟩, hbackend, heq⟩ := Option.map_eq_some_iff.mp h
      obtain ⟨rfl, rfl⟩ := Prod.mk.inj heq
      rcases backend_cases hbackend with ⟨task, store, next, rfl, hapi, rfl, rfl⟩ | ⟨-, hframe⟩
      · exact change_catalogue (api_change hapi)
      · obtain ⟨users, media, rawMeasurements, aggregateMeasurements, kitLastSeen, hstore⟩ :=
          hframe
        rw [hstore]
        exact .of_eq rfl rfl rfl

/-- The deployment goes on from one state to the other. -/
def Leads (x : Crates) (strings : Strings) (c c' : Conc Services DeploymentTask) : Prop :=
  ∃ ls, Run.exec (deployment x strings).step c ls = some c'

theorem Leads.trans {c c' c'' : Conc Services DeploymentTask} (h : Leads x strings c c')
    (h' : Leads x strings c' c'') : Leads x strings c c'' := by
  obtain ⟨ls, hrun⟩ := h
  obtain ⟨ls', hrun'⟩ := h'
  exact ⟨ls ++ ls', Run.exec_append.mpr ⟨c', hrun, hrun'⟩⟩

theorem Leads.catalogue {c c' : Conc Services DeploymentTask} (h : Leads x strings c c') :
    c.store.store.CatalogueGrows c'.store.store := by
  obtain ⟨ls, hrun⟩ := h
  exact Program.store_exec _ (I := fun s => c.store.store.CatalogueGrows s.store)
    (fun e t ts s s' k hs h => hs.trans (deployment_catalogue h)) (.refl _) hrun

/-- A client sends its requests while the deployment runs: the `n`-th one reads
`reads n`, the second query some time after the first. -/
structure Chronological (x : Crates) (strings : Strings)
    (reads : Nat → Conc Services DeploymentTask × Conc Services DeploymentTask) : Prop where
  start : Leads x strings ⟨.start .empty, []⟩ (reads 0).1
  within : ∀ n, Leads x strings (reads n).1 (reads n).2
  next : ∀ n, Leads x strings (reads n).2 (reads (n + 1)).1

variable {reads : Nat → Conc Services DeploymentTask × Conc Services DeploymentTask}

theorem Chronological.leads (h : Chronological x strings reads) {i j : Nat} (hij : i ≤ j) :
    Leads x strings (reads i).1 (reads j).1 := by
  induction hij with
  | refl => exact ⟨[], rfl⟩
  | step _ ih => exact ih.trans ((h.within _).trans (h.next _))

/-- Also what a request reads last comes before the next one. -/
theorem Chronological.leads_second (h : Chronological x strings reads) {i j : Nat} (hij : i < j) :
    Leads x strings (reads i).2 (reads j).1 :=
  (h.next i).trans (h.leads hij)

theorem Chronological.expectsKnown (h : Chronological x strings reads) (n : Nat) :
    (reads n).2.store.store.ExpectsKnown :=
  (h.start.trans ((h.leads n.zero_le).trans (h.within n))).catalogue.expects
    fun _ hr => by cases hr

end Runs

/-- The stores that the first requests read. -/
def storesRead (reads : Nat → Conc Services DeploymentTask × Conc Services DeploymentTask)
    (n : Nat) : List (Store × Store) :=
  (List.range n).map fun i => ((reads i).1.store.store, (reads i).2.store.store)

/-! ### Two imports -/

def importDefinitions (simulation : InsertSimulationDefinitions) :
    List (Sched DeploymentRequest BackendEnv) :=
  [.spawn (.insertAstroplantDefinitions simulation .skip), .run 0 {}]

/-- The second import comes after the first request. -/
def readsOfImports (c c' : Conc Services DeploymentTask) :
    Nat → Conc Services DeploymentTask × Conc Services DeploymentTask
  | 0 => (c, c)
  | _ + 1 => (c', c')

theorem exists_imports : ∃ c c',
    Chronological nullCrates .ascii (readsOfImports c c')
      ∧ c.store.store.peripheralDefinitions.rows.length = 8
      ∧ c'.store.store.peripheralDefinitions.rows.length = 13
      ∧ (Keyset.returned (definitionPages .fromStart ⟨none, true⟩
          (storesRead (readsOfImports c c') 1))).map (·.expectedQuantityTypes)
        = [some [], some [1, 3]] := by
  have hruns : ((Run.exec (deployment nullCrates .ascii).step ⟨.start .empty, []⟩
      (importDefinitions .no)).bind fun c =>
        (Run.exec (deployment nullCrates .ascii).step c (importDefinitions .yes)).map fun c' =>
          (c.store.store.peripheralDefinitions.rows.length,
            c'.store.store.peripheralDefinitions.rows.length,
            (Keyset.returned (definitionPages .fromStart ⟨none, true⟩
              (storesRead (readsOfImports c c') 1))).map (·.expectedQuantityTypes)))
      = some (8, 13, [some [], some [1, 3]]) := by
    decide +kernel
  obtain ⟨c, hrun, hsecond⟩ := Option.bind_eq_some_iff.mp hruns
  obtain ⟨c', hrun', heq⟩ := Option.map_eq_some_iff.mp hsecond
  obtain ⟨hlength, heq⟩ := Prod.mk.inj heq
  obtain ⟨hlength', hexpected⟩ := Prod.mk.inj heq
  refine ⟨c, c', ⟨⟨_, hrun⟩, fun n => ?_, fun n => ?_⟩, hlength, hlength', hexpected⟩
  · cases n <;> exact ⟨[], rfl⟩
  · cases n with
    | zero => exact ⟨_, hrun'⟩
    | succ => exact ⟨[], rfl⟩

/-! ## What a client gets -/

section Client

variable {x : Crates} {strings : Strings}
  {reads : Nat → Conc Services DeploymentTask × Conc Services DeploymentTask}

theorem SerialTable.Extends.grown {ρ : Type} {key : ρ → Int} {t t' : SerialTable ρ key}
    (h : t.Extends t') : GrowingPages.Grown key t.rows t'.rows where
  kept := h.kept
  added r' hr' := (h.added r' hr').imp id fun hnext _ hr =>
    lt_of_lt_of_le (SerialTable.key_lt_next hr) hnext

/-- What a query asks for, of the definitions that were there at the last request:
their ids in increasing order, each definition as a request read it, with what it
expected then. -/
structure PeripheralDefinition.QueryParams.Lists (queryParams : QueryParams)
    (reads : Nat → Conc Services DeploymentTask × Conc Services DeploymentTask) (last : Nat)
    (views : List PeripheralDefinitionView) : Prop where
  increasing : (views.map (·.peripheralDefinition.id)).Pairwise (· < ·)
  complete : ∀ id, id ∈ views.map (·.peripheralDefinition.id)
    ↔ ∃ d ∈ (reads last).1.store.store.peripheralDefinitions,
      d.id = id ∧ ∀ after ∈ queryParams.after, after < id
  shown : ∀ v ∈ views, ∃ i ≤ last, ∃ d ∈ (reads i).1.store.store.peripheralDefinitions,
    queryParams.Shows (reads i).2.store.store d v

/-- **The links lead through all definitions.** A client who has come to an empty
page has got all definitions that there were at that request, those included that
were added meanwhile; and the client comes to one if at some point no more are
added. -/
theorem definitions_listed (hreads : Chronological x strings reads) (o : ScanOrder)
    (queryParams : PeripheralDefinition.QueryParams) :
    (∀ n, Keyset.Finished (definitionPages o queryParams (storesRead reads n)) →
        ∃ m, (definitionPages o queryParams (storesRead reads n)).length = m + 1
          ∧ queryParams.Lists reads m
            (Keyset.returned (definitionPages o queryParams (storesRead reads n))))
      ∧ ∀ n₀, (∀ n ≥ n₀, ∀ d ∈ (reads (n + 1)).1.store.store.peripheralDefinitions,
          ∃ d' ∈ (reads n).1.store.store.peripheralDefinitions, d'.id = d.id) →
        ∃ n, Keyset.Finished (definitionPages o queryParams (storesRead reads n)) := by
  have hserves := definitions_serves o
  refine ⟨fun n hfinished => ?_, fun n₀ hsettled =>
    GrowingPages.exists_finished hserves (fun _ _ => ⟨_, rfl⟩) queryParams _ n₀ hsettled⟩
  obtain ⟨m, -, hm, hkeys⟩ := GrowingPages.exists_returned_keys
    (fun v => v.peripheralDefinition.id) (by omega) hserves (fun _ _ _ _ h => congrArg _ h.1)
    (fun i j hij => (hreads.leads (Nat.le_of_lt hij)).catalogue.definitions.grown) hfinished
  refine ⟨m, hm, ?_, fun id => hkeys ▸ GrowingPages.mem_map_rest, fun v hv => ?_⟩
  · exact hkeys ▸ List.pairwise_map.mpr
      (GrowingPages.pairwise_rest _ (reads m).1.store.store.peripheralDefinitions.nodup)
  · obtain ⟨i, -, hi, hshows⟩ := GrowingPages.exists_returned_sound hserves hv
    exact ⟨i, by omega, hshows⟩

/-- The client finishes, since no definition comes after the second import. -/
theorem definitions_listed_twoImports : ∃ c c',
    c.store.store.peripheralDefinitions.rows.length = 8
      ∧ c'.store.store.peripheralDefinitions.rows.length = 13
      ∧ ∃ n m, Keyset.Finished (definitionPages .fromStart ⟨none, true⟩
          (storesRead (readsOfImports c c') n))
        ∧ (definitionPages .fromStart ⟨none, true⟩
          (storesRead (readsOfImports c c') n)).length = m + 1
        ∧ PeripheralDefinition.QueryParams.Lists ⟨none, true⟩ (readsOfImports c c') m
          (Keyset.returned (definitionPages .fromStart ⟨none, true⟩
            (storesRead (readsOfImports c c') n))) := by
  obtain ⟨c, c', hreads, hlength, hlength', -⟩ := exists_imports
  obtain ⟨hlists, hends⟩ := definitions_listed hreads .fromStart ⟨none, true⟩
  obtain ⟨n, hfinished⟩ := hends 1 fun n hn d hd => by
    obtain ⟨n, rfl⟩ : ∃ n', n = n' + 1 := ⟨n - 1, by omega⟩
    exact ⟨d, hd, rfl⟩
  obtain ⟨m, hm, hlisted⟩ := hlists n hfinished
  exact ⟨c, c', hlength, hlength', n, m, hfinished, hm, hlisted⟩

/-- The stores that requests for quantity types read, from the `m`-th one on. -/
def storesReadFrom (reads : Nat → Conc Services DeploymentTask × Conc Services DeploymentTask)
    (m n : Nat) : List Store :=
  (List.range n).map fun i => (reads (m + i)).1.store.store

/-- **What definitions expect is listed.** A client who has got some definitions,
and then comes to an empty page of quantity types, has got each quantity type that
one of the definitions was shown to expect. -/
theorem expected_quantity_types_listed (hreads : Chronological x strings reads) (o : ScanOrder)
    (queryParams : PeripheralDefinition.QueryParams) {n m k : Nat} (hlater : n ≤ m)
    (hfinished : Keyset.Finished (quantityTypePages none (storesReadFrom reads m k))) :
    ∀ v ∈ Keyset.returned (definitionPages o queryParams (storesRead reads n)),
      ∀ quantityTypes, v.expectedQuantityTypes = some quantityTypes → ∀ id ∈ quantityTypes,
        ∃ qt ∈ Keyset.returned (quantityTypePages none (storesReadFrom reads m k)), qt.id = id := by
  intro v hv expected hexpected id hid
  obtain ⟨i, hi, -, d, -, -, hnone, hsome⟩ :=
    GrowingPages.exists_returned_sound (definitions_serves o) hv
  -- the row that names the quantity type
  have hmem : id ∈ (reads i).2.store.store.expected d.id := by
    cases hwith : queryParams.withExpectedQuantityTypes with
    | false =>
        rw [hnone hwith] at hexpected
        cases hexpected
    | true =>
        obtain ⟨quantityTypes, heq, hperm⟩ := hsome hwith
        rw [hexpected] at heq
        obtain rfl := Option.some.inj heq
        exact hperm.mem_iff.mp hid
  obtain ⟨r, hr, rfl⟩ := List.mem_map.mp hmem
  obtain ⟨qt, hqt, hid'⟩ := hreads.expectsKnown i r (SerialTable.mem_select.mp hr).1
  obtain ⟨last, -, -, hkeys⟩ := GrowingPages.exists_returned_keys QuantityType.id (by omega)
    quantityTypes_serves (fun _ _ _ _ h => congrArg _ h.symm)
    (fun a b hab => (hreads.leads (by omega)).catalogue.quantityTypes.grown) hfinished
  have hlead := hreads.leads_second (Nat.lt_of_lt_of_le hi
    (Nat.le_trans hlater (Nat.le_add_right m last)))
  obtain ⟨qt', hqt', hkept⟩ := hlead.catalogue.quantityTypes.kept qt hqt
  have hshown : r.quantityTypeId ∈ (Keyset.returned
      (quantityTypePages none (storesReadFrom reads m k))).map QuantityType.id := by
    refine hkeys ▸ GrowingPages.mem_map_rest.mpr ⟨qt', hqt', hkept.trans hid', fun _ hc => ?_⟩
    cases hc
  exact List.mem_map.mp hshown

theorem expected_quantity_types_listed_twoImports : ∃ c c',
    (Keyset.returned (definitionPages .fromStart ⟨none, true⟩
        (storesRead (readsOfImports c c') 1))).map (·.expectedQuantityTypes)
      = [some [], some [1, 3]]
      ∧ ∃ k, ∀ v ∈ Keyset.returned (definitionPages .fromStart ⟨none, true⟩
          (storesRead (readsOfImports c c') 1)),
        ∀ quantityTypes, v.expectedQuantityTypes = some quantityTypes → ∀ id ∈ quantityTypes,
          ∃ qt ∈ Keyset.returned
            (quantityTypePages none (storesReadFrom (readsOfImports c c') 1 k)), qt.id = id := by
  obtain ⟨c, c', hreads, -, -, hexpected⟩ := exists_imports
  obtain ⟨k, hfinished⟩ := GrowingPages.exists_finished quantityTypes_serves
    (fun _ _ => ⟨_, rfl⟩) none (fun i => (readsOfImports c c' (1 + i)).1.store.store) 0
    fun n _ qt hqt => by
      rw [Nat.add_comm 1] at hqt ⊢
      exact ⟨qt, hqt, rfl⟩
  exact ⟨c, c', hexpected, k,
    expected_quantity_types_listed hreads .fromStart ⟨none, true⟩ (Nat.le_refl 1) hfinished⟩

end Client

end AstroPlant
