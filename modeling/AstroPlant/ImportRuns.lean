import AstroPlant.NamedDefinitions

/-!
# The import runs through

Quantity types are looked up or inserted, and then the listed definitions are
imported one after another. What is listed fits its columns and expects only
quantity types that have been selected, so that no statement fails.

Looking a quantity type up may insert it, and the ids that are selected are used
by everything after; `SelectsQt` says what a selection that has been made stays
good for. That the import of one definition does not fail is `run_insertPd`, and
what all of them do together is a fold of the edits of `NamedDefinitions`
(`run_insertPds`).
-/

namespace AstroPlant

/-! ## What is listed -/

def listedDefinitions (simulation : InsertSimulationDefinitions) (quantityTypes : QuantityTypes) :
    List (NewPeripheralDefinition × List Int) :=
  match simulation with
  | .yes => simulationDefinitions quantityTypes ++ astroplantDefinitions quantityTypes
  | .no => astroplantDefinitions quantityTypes

/-- The definitions, without what they expect. -/
def shippedDefinitions (simulation : InsertSimulationDefinitions) : List NewPeripheralDefinition :=
  (listedDefinitions simulation ⟨0, 0, 0, 0, 0⟩).map Prod.fst

def listedQuantityTypes (quantityTypes : QuantityTypes) : List QuantityType :=
  [⟨quantityTypes.temperature, "Temperature", "Degrees Celsius", some "°C"⟩,
    ⟨quantityTypes.pressure, "Pressure", "Hectopascal", some "hPa"⟩,
    ⟨quantityTypes.humidity, "Humidity", "Percent", some "%"⟩,
    ⟨quantityTypes.concentration, "Concentration", "Parts per million", some "PPM"⟩,
    ⟨quantityTypes.lightIntensity, "Light intensity", "Lux", some "lx"⟩]

/-- The values fit their columns. -/
def NewPeripheralDefinition.Fits (new : NewPeripheralDefinition) : Prop :=
  new.name.length ≤ 100 ∧ (∀ brand ∈ new.brand, brand.length ≤ 100)
    ∧ (∀ model ∈ new.model, model.length ≤ 100) ∧ new.symbolLocation.length ≤ 255
    ∧ new.symbol.length ≤ 255

instance : DecidablePred NewPeripheralDefinition.Fits := fun new =>
  inferInstanceAs (Decidable (new.name.length ≤ 100 ∧ (∀ brand ∈ new.brand, brand.length ≤ 100)
    ∧ (∀ model ∈ new.model, model.length ≤ 100) ∧ new.symbolLocation.length ≤ 255
    ∧ new.symbol.length ≤ 255))

theorem nullable_varchar_of_le {n : Nat} {o : Option String} (h : ∀ s ∈ o, s.length ≤ n) :
    nullable (varchar n) o = .ok o := by
  cases o with
  | none => rfl
  | some s =>
      rw [nullable, varchar_of_le (h s rfl)]
      rfl

theorem NewPeripheralDefinition.Fits.stored {new : NewPeripheralDefinition} (h : new.Fits) :
    new.stored = .ok new := by
  obtain ⟨hname, hbrand, hmodel, hlocation, hsymbol⟩ := h
  unfold NewPeripheralDefinition.stored
  rw [varchar_of_le hname, nullable_varchar_of_le hbrand, nullable_varchar_of_le hmodel,
    varchar_of_le hlocation, varchar_of_le hsymbol]
  rfl

section Listed

variable {simulation : InsertSimulationDefinitions} {quantityTypes : QuantityTypes}

theorem mem_known_of_listed {e : NewPeripheralDefinition × List Int}
    (he : e ∈ listedDefinitions simulation quantityTypes) : e.1 ∈ knownDefinitions := by
  cases simulation with
  | yes => exact mem_knownDefinitions (List.mem_append.mp he)
  | no => exact mem_knownDefinitions (Or.inr he)

theorem listed_stored {e : NewPeripheralDefinition × List Int}
    (he : e ∈ listedDefinitions simulation quantityTypes) : e.1.stored = .ok e.1 := by
  have hfits : ∀ new ∈ knownDefinitions, new.Fits := by decide +kernel
  exact (hfits e.1 (mem_known_of_listed he)).stored

theorem map_listedDefinitions (simulation : InsertSimulationDefinitions)
    (quantityTypes : QuantityTypes) :
    (listedDefinitions simulation quantityTypes).map Prod.fst = shippedDefinitions simulation := by
  cases simulation <;> rfl

theorem mem_listed {new : NewPeripheralDefinition} :
    new ∈ shippedDefinitions simulation
      ↔ ∃ expected, (new, expected) ∈ listedDefinitions simulation quantityTypes := by
  rw [← map_listedDefinitions simulation quantityTypes]
  simp

theorem listed_nodup : ((listedDefinitions simulation quantityTypes).map (·.1.name)).Nodup := by
  cases simulation with
  | yes => exact knownDefinitions_nodup
  | no =>
      have hsplit : ((simulationDefinitions quantityTypes).map (·.1.name)
          ++ (astroplantDefinitions quantityTypes).map (·.1.name)).Nodup :=
        knownDefinitions_nodup
      exact hsplit.of_append_right

/-- Every quantity type that a listed definition expects is listed. -/
theorem expected_listed {e : NewPeripheralDefinition × List Int}
    (he : e ∈ listedDefinitions simulation quantityTypes) {id : Int} (hid : id ∈ e.2) :
    ∃ qt ∈ listedQuantityTypes quantityTypes, qt.id = id := by
  have hall : ∀ e ∈ simulationDefinitions quantityTypes ++ astroplantDefinitions quantityTypes,
      ∀ id ∈ e.2, id ∈ (listedQuantityTypes quantityTypes).map (·.id) := by
    simp [simulationDefinitions, astroplantDefinitions, listedQuantityTypes]
  have hmem : e ∈ simulationDefinitions quantityTypes ++ astroplantDefinitions quantityTypes := by
    cases simulation with
    | yes => exact he
    | no => exact List.mem_append_right _ he
  exact List.mem_map.mp (hall e hmem id hid)

end Listed

/-! ## The statements succeed -/

theorem run_expectQuantityTypes {pid : Int} {expected : List Int} {s : Store}
    (hpd : (PeripheralDefinition.byId pid s).isSome = true)
    (hexpected : ∀ id ∈ expected, (s.quantityTypes.find? id).isSome = true) :
    (expectQuantityTypes pid expected).run s = .ok ((), s.expect pid expected) := by
  have hall : (expected.all fun id =>
      (s.quantityTypes.find? id).isSome && (PeripheralDefinition.byId pid s).isSome) = true :=
    List.all_eq_true.mpr fun id hid => by rw [hexpected id hid, hpd]; rfl
  exact if_pos hall

section InsertOr

variable {strategy : ExistingPeripheralDefinitionStrategy} {s : Store}
  {new : NewPeripheralDefinition} {d : PeripheralDefinition}

theorem run_insertOr_none (hstored : new.stored = .ok new)
    (h : PeripheralDefinition.byName new.name s = none) :
    (new.insertOr strategy).run s
      = .ok (some (new.row s.peripheralDefinitions.next), new.insert s) := by
  refine Tx.run_ofExcept_bind_ok.mpr ⟨new, hstored, ?_⟩
  rw [Tx.run_write_ok, show s.peripheralDefinitions.rows.find? (·.name = new.name) = none from h]

theorem run_insertOr_skip (hstored : new.stored = .ok new)
    (h : PeripheralDefinition.byName new.name s = some d) :
    (new.insertOr .skip).run s = .ok (none, s) := by
  refine Tx.run_ofExcept_bind_ok.mpr ⟨new, hstored, ?_⟩
  rw [Tx.run_write_ok, show s.peripheralDefinitions.rows.find? (·.name = new.name) = some d from h]

theorem run_insertOr_update (hstored : new.stored = .ok new)
    (h : PeripheralDefinition.byName new.name s = some d) :
    (new.insertOr .update).run s = .ok (some (new.apply d), new.applyTo s) := by
  refine Tx.run_ofExcept_bind_ok.mpr ⟨new, hstored, ?_⟩
  rw [Tx.run_write_ok, show s.peripheralDefinitions.rows.find? (·.name = new.name) = some d from h]

end InsertOr

theorem run_insertPd (strategy : ExistingPeripheralDefinitionStrategy) {s : Store}
    {e : NewPeripheralDefinition × List Int} (hstored : e.1.stored = .ok e.1)
    (hexpected : ∀ id ∈ e.2, (s.quantityTypes.find? id).isSome = true) :
    (insertPd e.1 e.2 strategy).run s = .ok ((), importPd strategy s e) := by
  cases hfind : PeripheralDefinition.byName e.1.name s with
  | none =>
      rw [importPd_of_none hfind]
      refine Tx.run_bind_ok.mpr
        ⟨_, _, run_insertOr_none hstored hfind, run_expectQuantityTypes ?_ hexpected⟩
      have hnew : e.1.row s.peripheralDefinitions.next ∈ (e.1.insert s).peripheralDefinitions :=
        NewPeripheralDefinition.mem_insert.mpr (Or.inr rfl)
      exact Option.isSome_iff_exists.mpr ⟨_, SerialTable.find?_eq_some.mpr ⟨hnew, rfl⟩⟩
  | some d =>
      cases strategy with
      | skip =>
          rw [importPd_skip hfind]
          exact Tx.run_bind_ok.mpr ⟨none, s, run_insertOr_skip hstored hfind, rfl⟩
      | update =>
          rw [importPd_update hfind]
          refine Tx.run_bind_ok.mpr
            ⟨_, _, run_insertOr_update hstored hfind, run_expectQuantityTypes ?_ hexpected⟩
          have hname : d.name = e.1.name := by simpa using List.find?_some hfind
          have hd : e.1.apply d ∈ (e.1.applyTo s).peripheralDefinitions :=
            NewPeripheralDefinition.mem_applyTo.mpr
              ⟨d, List.mem_of_find?_eq_some hfind, if_pos hname⟩
          exact Option.isSome_iff_exists.mpr ⟨_, SerialTable.find?_eq_some.mpr ⟨hd, rfl⟩⟩

theorem quantityTypes_importPd {strategy : ExistingPeripheralDefinitionStrategy} {s : Store}
    {e : NewPeripheralDefinition × List Int} :
    (importPd strategy s e).quantityTypes = s.quantityTypes := by
  unfold importPd
  split <;> rfl

theorem run_insertPds {strategy : ExistingPeripheralDefinitionStrategy} {s : Store}
    {es : List (NewPeripheralDefinition × List Int)} (hstored : ∀ e ∈ es, e.1.stored = .ok e.1)
    (hexpected : ∀ e ∈ es, ∀ id ∈ e.2, (s.quantityTypes.find? id).isSome = true) :
    (insertPds strategy es).run s = .ok ((), es.foldl (importPd strategy) s) := by
  induction es generalizing s with
  | nil => rfl
  | cons e es ih =>
      have hfirst := run_insertPd strategy (hstored e List.mem_cons_self)
        (hexpected e List.mem_cons_self)
      refine Tx.run_bind_ok.mpr ⟨(), _, hfirst, ?_⟩
      refine ih (fun e he => hstored e (List.mem_cons_of_mem _ he)) fun e he id hid => ?_
      rw [quantityTypes_importPd]
      exact hexpected e (List.mem_cons_of_mem _ he) id hid

/-! ## The quantity types -/

/-- What the lookup of a quantity type leaves: it is there with its symbol, and no
other is lost. -/
structure SelectsQt (physicalQuantity physicalUnit : String) (physicalUnitSymbol : Option String)
    (s : Store) (id : Int) (s' : Store) : Prop where
  rest : ∃ quantityTypes, s' = { s with quantityTypes }
  unique : s'.UniqueDefinitions
  selected : ⟨id, physicalQuantity, physicalUnit, physicalUnitSymbol⟩ ∈ s'.quantityTypes
  others : ∀ qt ∈ s.quantityTypes, (physicalQuantity, physicalUnit)
    ≠ (qt.physicalQuantity, qt.physicalUnit) → qt ∈ s'.quantityTypes

section Selects

variable {physicalQuantity physicalUnit : String} {physicalUnitSymbol : Option String}
  {s s' : Store} {id : Int}

/-- The columns of a quantity type take 255 characters. -/
def QuantityType.Fits (physicalQuantity physicalUnit : String)
    (physicalUnitSymbol : Option String) : Prop :=
  physicalQuantity.length ≤ 255 ∧ physicalUnit.length ≤ 255
    ∧ ∀ symbol ∈ physicalUnitSymbol, symbol.length ≤ 255

instance : Decidable (QuantityType.Fits physicalQuantity physicalUnit physicalUnitSymbol) :=
  inferInstanceAs (Decidable (physicalQuantity.length ≤ 255 ∧ physicalUnit.length ≤ 255
    ∧ ∀ symbol ∈ physicalUnitSymbol, symbol.length ≤ 255))

theorem QuantityType.Fits.run_bind
    (hfits : QuantityType.Fits physicalQuantity physicalUnit physicalUnitSymbol)
    {use : String → String → Option String → Tx Store DieselError Int} :
    (do
      let physicalQuantity ← Tx.ofExcept (varchar 255 physicalQuantity)
      let physicalUnit ← Tx.ofExcept (varchar 255 physicalUnit)
      let physicalUnitSymbol ← Tx.ofExcept (nullable (varchar 255) physicalUnitSymbol)
      use physicalQuantity physicalUnit physicalUnitSymbol).run s
      = (use physicalQuantity physicalUnit physicalUnitSymbol).run s := by
  obtain ⟨hquantity, hunit, hsymbol⟩ := hfits
  rw [varchar_of_le hquantity, varchar_of_le hunit, nullable_varchar_of_le hsymbol]
  rfl

theorem run_selectOrInsertQt_some
    (hfits : QuantityType.Fits physicalQuantity physicalUnit physicalUnitSymbol)
    {qt : QuantityType} (h : QuantityType.named physicalQuantity physicalUnit s = some qt) :
    (selectOrInsertQt physicalQuantity physicalUnit physicalUnitSymbol).run s
      = .ok (qt.id, { s with
          quantityTypes := s.quantityTypes.update (·.id = qt.id)
            (fun qt => { qt with physicalUnitSymbol }) fun _ => rfl }) := by
  refine hfits.run_bind.trans ?_
  rw [Tx.run_write_ok, h]

theorem run_selectOrInsertQt_none
    (hfits : QuantityType.Fits physicalQuantity physicalUnit physicalUnitSymbol)
    (h : QuantityType.named physicalQuantity physicalUnit s = none) :
    (selectOrInsertQt physicalQuantity physicalUnit physicalUnitSymbol).run s
      = .ok (s.quantityTypes.next, { s with
          quantityTypes := s.quantityTypes.insert
            (fun id => ⟨id, physicalQuantity, physicalUnit, physicalUnitSymbol⟩)
            fun _ => rfl }) := by
  refine hfits.run_bind.trans ?_
  rw [Tx.run_write_ok, h]

theorem QuantityType.physicalQuantity_set {p : Bool} (qt : QuantityType) :
    (if p then { qt with physicalUnitSymbol } else qt).physicalQuantity = qt.physicalQuantity := by
  split <;> rfl

theorem QuantityType.physicalUnit_set {p : Bool} (qt : QuantityType) :
    (if p then { qt with physicalUnitSymbol } else qt).physicalUnit = qt.physicalUnit := by
  split <;> rfl

theorem QuantityType.named_eq_some (hs : s.UniqueDefinitions) {qt : QuantityType} :
    QuantityType.named qt.physicalQuantity qt.physicalUnit s = some qt ↔ qt ∈ s.quantityTypes := by
  constructor
  · exact fun h => List.mem_of_find?_eq_some h
  · intro hqt
    cases hnamed : QuantityType.named qt.physicalQuantity qt.physicalUnit s with
    | none =>
        have := List.find?_eq_none.mp hnamed qt hqt
        simp at this
    | some qt' =>
        have hsame := List.find?_some hnamed
        rw [Bool.and_eq_true, decide_eq_true_eq, decide_eq_true_eq] at hsame
        rw [hs.quantityTypes qt' (List.mem_of_find?_eq_some hnamed) qt hqt hsame.1 hsame.2]

theorem exists_selectOrInsertQt (hs : s.UniqueDefinitions)
    (hfits : QuantityType.Fits physicalQuantity physicalUnit physicalUnitSymbol) :
    ∃ id s',
      (selectOrInsertQt physicalQuantity physicalUnit physicalUnitSymbol).run s = .ok (id, s')
        ∧ SelectsQt physicalQuantity physicalUnit physicalUnitSymbol s id s' := by
  cases hnamed : QuantityType.named physicalQuantity physicalUnit s with
  | some qt =>
      have hqt : qt ∈ s.quantityTypes := List.mem_of_find?_eq_some hnamed
      have hsame := List.find?_some hnamed
      rw [Bool.and_eq_true, decide_eq_true_eq, decide_eq_true_eq] at hsame
      refine ⟨_, _, run_selectOrInsertQt_some hfits hnamed, ⟨_, rfl⟩,
        ⟨hs.names, fun qt₁ h₁ qt₂ h₂ hq hu => ?_⟩, ?_, fun qt' hqt' hne => ?_⟩
      · -- the pair that the constraint is on is not set
        obtain ⟨r₁, hr₁, rfl⟩ := SerialTable.mem_update.mp h₁
        obtain ⟨r₂, hr₂, rfl⟩ := SerialTable.mem_update.mp h₂
        rw [QuantityType.physicalQuantity_set, QuantityType.physicalQuantity_set] at hq
        rw [QuantityType.physicalUnit_set, QuantityType.physicalUnit_set] at hu
        rw [hs.quantityTypes r₁ hr₁ r₂ hr₂ hq hu]
      · refine SerialTable.mem_update.mpr ⟨qt, hqt, ?_⟩
        rw [if_pos (decide_eq_true rfl), hsame.1, hsame.2]
      · refine SerialTable.mem_update.mpr ⟨qt', hqt', if_neg fun hid => hne ?_⟩
        rw [SerialTable.eq_of_key_eq hqt' hqt (of_decide_eq_true hid), hsame.1, hsame.2]
  | none =>
      have hnew : ∀ qt ∈ s.quantityTypes,
          qt.physicalQuantity = physicalQuantity → qt.physicalUnit ≠ physicalUnit := by
        simpa [SerialTable.mem_def] using List.find?_eq_none.mp hnamed
      refine ⟨_, _, run_selectOrInsertQt_none hfits hnamed, ⟨_, rfl⟩,
        ⟨hs.names, fun qt₁ h₁ qt₂ h₂ hq hu => ?_⟩, SerialTable.mem_insert_self _ _ _,
        fun qt hqt _ => SerialTable.mem_insert_of_mem _ hqt⟩
      rcases SerialTable.mem_insert.mp h₁ with h₁ | rfl
      · rcases SerialTable.mem_insert.mp h₂ with h₂ | rfl
        · exact hs.quantityTypes qt₁ h₁ qt₂ h₂ hq hu
        · exact absurd hu (hnew qt₁ h₁ hq)
      · rcases SerialTable.mem_insert.mp h₂ with h₂ | rfl
        · exact absurd hu.symm (hnew qt₂ h₂ hq.symm)
        · rfl

/-- A quantity type that is there with its symbol is found, and nothing changes. -/
theorem selectOrInsertQt_again (hs : s.UniqueDefinitions)
    (hfits : QuantityType.Fits physicalQuantity physicalUnit physicalUnitSymbol)
    (hqt : ⟨id, physicalQuantity, physicalUnit, physicalUnitSymbol⟩ ∈ s.quantityTypes) :
    (selectOrInsertQt physicalQuantity physicalUnit physicalUnitSymbol).run s = .ok (id, s) := by
  have hsame : s.quantityTypes.update (fun qt => decide (qt.id = id))
      (fun qt => { qt with physicalUnitSymbol }) (fun _ => rfl) = s.quantityTypes := by
    refine SerialTable.update_eq_self fun r hr hid => ?_
    rw [SerialTable.eq_of_key_eq hr hqt (of_decide_eq_true hid)]
  refine (run_selectOrInsertQt_some hfits ((QuantityType.named_eq_some hs).mpr hqt)).trans ?_
  rw [hsame]

theorem SelectsQt.all {qts : List QuantityType}
    (h : SelectsQt physicalQuantity physicalUnit physicalUnitSymbol s id s')
    (hqts : ∀ qt ∈ qts, qt ∈ s.quantityTypes)
    (hne : ∀ qt ∈ qts, (physicalQuantity, physicalUnit) ≠ (qt.physicalQuantity, qt.physicalUnit)) :
    ∀ qt ∈ qts ++ [⟨id, physicalQuantity, physicalUnit, physicalUnitSymbol⟩],
      qt ∈ s'.quantityTypes := by
  intro qt hqt
  rcases List.mem_append.mp hqt with hqt | hqt
  · exact h.others qt (hqts qt hqt) (hne qt hqt)
  · rw [List.mem_singleton.mp hqt]
    exact h.selected

end Selects

/-! ## The whole import -/

def selectQuantityTypes : Tx Store DieselError QuantityTypes := do
  let temperature ← selectOrInsertQt "Temperature" "Degrees Celsius" (some "°C")
  let pressure ← selectOrInsertQt "Pressure" "Hectopascal" (some "hPa")
  let humidity ← selectOrInsertQt "Humidity" "Percent" (some "%")
  let concentration ← selectOrInsertQt "Concentration" "Parts per million" (some "PPM")
  let lightIntensity ← selectOrInsertQt "Light intensity" "Lux" (some "lx")
  return { temperature, pressure, humidity, concentration, lightIntensity }

theorem insertPds_append (strategy : ExistingPeripheralDefinitionStrategy)
    (es es' : List (NewPeripheralDefinition × List Int)) :
    insertPds strategy (es ++ es') = (do insertPds strategy es; insertPds strategy es') := by
  induction es with
  | nil => simp [insertPds]
  | cons e es ih => simp [insertPds, ih]

/-- The import selects the quantity types, and then inserts what is listed. -/
theorem insertAstroplantDefinitions_eq (simulation : InsertSimulationDefinitions)
    (strategy : ExistingPeripheralDefinitionStrategy) :
    insertAstroplantDefinitions simulation strategy = (do
      let quantityTypes ← selectQuantityTypes
      insertPds strategy (listedDefinitions simulation quantityTypes)) := by
  cases simulation with
  | yes =>
      simp [insertAstroplantDefinitions, selectQuantityTypes, insertSimulationDefinitions,
        listedDefinitions, insertPds_append]
  | no => simp [insertAstroplantDefinitions, selectQuantityTypes, listedDefinitions]

theorem exists_selectQuantityTypes {s : Store} (hs : s.UniqueDefinitions) :
    ∃ quantityTypes s', selectQuantityTypes.run s = .ok (quantityTypes, s')
      ∧ (∃ table, s' = { s with quantityTypes := table }) ∧ s'.UniqueDefinitions
      ∧ ∀ qt ∈ listedQuantityTypes quantityTypes, qt ∈ s'.quantityTypes := by
  obtain ⟨temperature, s₁, h₁, hsel₁⟩ := exists_selectOrInsertQt hs
    (show QuantityType.Fits "Temperature" "Degrees Celsius" (some "°C") by decide)
  obtain ⟨pressure, s₂, h₂, hsel₂⟩ := exists_selectOrInsertQt hsel₁.unique
    (show QuantityType.Fits "Pressure" "Hectopascal" (some "hPa") by decide)
  obtain ⟨humidity, s₃, h₃, hsel₃⟩ := exists_selectOrInsertQt hsel₂.unique
    (show QuantityType.Fits "Humidity" "Percent" (some "%") by decide)
  obtain ⟨concentration, s₄, h₄, hsel₄⟩ := exists_selectOrInsertQt hsel₃.unique
    (show QuantityType.Fits "Concentration" "Parts per million" (some "PPM") by decide)
  obtain ⟨lightIntensity, s₅, h₅, hsel₅⟩ := exists_selectOrInsertQt hsel₄.unique
    (show QuantityType.Fits "Light intensity" "Lux" (some "lx") by decide)
  refine ⟨⟨temperature, pressure, humidity, concentration, lightIntensity⟩, s₅, ?_, ?_,
    hsel₅.unique, ?_⟩
  · refine Tx.run_bind_ok.mpr ⟨_, _, h₁, Tx.run_bind_ok.mpr ⟨_, _, h₂, ?_⟩⟩
    refine Tx.run_bind_ok.mpr ⟨_, _, h₃, Tx.run_bind_ok.mpr ⟨_, _, h₄, ?_⟩⟩
    exact Tx.run_bind_ok.mpr ⟨_, _, h₅, rfl⟩
  · obtain ⟨_, rfl⟩ := hsel₁.rest
    obtain ⟨_, rfl⟩ := hsel₂.rest
    obtain ⟨_, rfl⟩ := hsel₃.rest
    obtain ⟨_, rfl⟩ := hsel₄.rest
    exact hsel₅.rest
  · have hall₁ := hsel₁.all (List.forall_mem_nil _) (List.forall_mem_nil _)
    have hall₂ := hsel₂.all hall₁ (by simp)
    have hall₃ := hsel₃.all hall₂ (by simp)
    have hall₄ := hsel₄.all hall₃ (by simp)
    exact hsel₅.all hall₄ (by simp)

theorem selectQuantityTypes_again {s : Store} {quantityTypes : QuantityTypes}
    (hs : s.UniqueDefinitions)
    (h : ∀ qt ∈ listedQuantityTypes quantityTypes, qt ∈ s.quantityTypes) :
    selectQuantityTypes.run s = .ok (quantityTypes, s) := by
  have h₁ := selectOrInsertQt_again hs (by decide) (h _ (.head _))
  have h₂ := selectOrInsertQt_again hs (by decide) (h _ (.tail _ (.head _)))
  have h₃ := selectOrInsertQt_again hs (by decide) (h _ (.tail _ (.tail _ (.head _))))
  have h₄ := selectOrInsertQt_again hs (by decide) (h _ (.tail _ (.tail _ (.tail _ (.head _)))))
  have h₅ := selectOrInsertQt_again hs (by decide)
    (h _ (.tail _ (.tail _ (.tail _ (.tail _ (.head _))))))
  refine Tx.run_bind_ok.mpr ⟨_, _, h₁, Tx.run_bind_ok.mpr ⟨_, _, h₂, ?_⟩⟩
  refine Tx.run_bind_ok.mpr ⟨_, _, h₃, Tx.run_bind_ok.mpr ⟨_, _, h₄, ?_⟩⟩
  exact Tx.run_bind_ok.mpr ⟨_, _, h₅, rfl⟩

/-- What is listed is inserted, once the quantity types are there. -/
theorem run_insertPds_listed {simulation : InsertSimulationDefinitions}
    {strategy : ExistingPeripheralDefinitionStrategy} {s : Store} {quantityTypes : QuantityTypes}
    (h : ∀ qt ∈ listedQuantityTypes quantityTypes, qt ∈ s.quantityTypes) :
    (insertPds strategy (listedDefinitions simulation quantityTypes)).run s
      = .ok ((), (listedDefinitions simulation quantityTypes).foldl (importPd strategy) s) := by
  refine run_insertPds (fun e he => listed_stored he) fun e he id hid => ?_
  obtain ⟨qt, hqt, rfl⟩ := expected_listed he hid
  exact Option.isSome_iff_exists.mpr ⟨qt, SerialTable.find?_eq_some.mpr ⟨h qt hqt, rfl⟩⟩

end AstroPlant
