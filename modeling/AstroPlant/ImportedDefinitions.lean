import AstroPlant.ImportRuns

/-!
# What an import leaves

No two of the listed definitions have the same name, so each import finds what
was there first. With the strategy that skips, the import does what it says; with
the one that updates, it brings a definition to what is listed exactly if the
definition has nothing in the columns that the listed one leaves empty.

The edits have distinct keys, so each of them has its own effect and no other
(`KeyedEdits.foldl_own`). What is left to decide is what one edit does, and when
that is what was listed: `NewPeripheralDefinition.Covers` says that nothing is
stored in a column that the listed definition leaves empty, and
`apply_eq_row_iff` that this is exactly when overwriting gives what inserting
would have given. A second import finds everything there
(`insertAstroplantDefinitions_again`).
-/

namespace AstroPlant

/-! ## What the imports leave of a definition -/

theorem Store.described_eq_some {s : Store} (hs : s.UniqueDefinitions) {name : String}
    {d : PeripheralDefinition} {rows : List PeripheralDefinitionExpectedQuantityType} :
    s.described name = some (d, rows)
      ↔ d ∈ s.peripheralDefinitions ∧ d.name = name ∧ s.expectedRows d.id = rows := by
  simp only [Store.described, Option.map_eq_some_iff, PeripheralDefinition.byName_eq_some hs,
    Prod.mk.injEq]
  constructor
  · rintro ⟨_, ⟨hd, hname⟩, rfl, hrows⟩
    exact ⟨hd, hname, hrows⟩
  · rintro ⟨hd, hname, hrows⟩
    exact ⟨d, ⟨hd, hname⟩, rfl, hrows⟩

/-- A definition that an overwriting import leaves as it is. -/
structure Settled (s : Store) (e : NewPeripheralDefinition × List Int) (d : PeripheralDefinition) :
    Prop where
  mem : d ∈ s.peripheralDefinitions
  name : d.name = e.1.name
  apply : e.1.apply d = d
  expected : s.expected d.id = e.2

/-- The same but for the ids of the rows of expected quantity types. -/
structure SameButIds (s s' : Store) : Prop where
  rest : ∃ table, s' = { s with peripheralDefinitionExpectedQuantityTypes := table }
  expected : ∀ id, s'.expected id = s.expected id

theorem SameButIds.refl (s : Store) : SameButIds s s := ⟨⟨_, rfl⟩, fun _ => rfl⟩

theorem SameButIds.trans {s s' s'' : Store} (h : SameButIds s s') (h' : SameButIds s' s'') :
    SameButIds s s'' := by
  obtain ⟨_, rfl⟩ := h.rest
  obtain ⟨_, rfl⟩ := h'.rest
  exact ⟨⟨_, rfl⟩, fun id => (h'.expected id).trans (h.expected id)⟩

theorem SameButIds.unique {s s' : Store} (h : SameButIds s s') (hs : s.UniqueDefinitions) :
    s'.UniqueDefinitions := by
  obtain ⟨_, rfl⟩ := h.rest
  exact ⟨hs.names, hs.quantityTypes⟩

theorem SameButIds.settled {s s' : Store} (h : SameButIds s s')
    {e : NewPeripheralDefinition × List Int} {d : PeripheralDefinition} (hd : Settled s e d) :
    Settled s' e d := by
  have hexpected := (h.expected d.id).trans hd.expected
  obtain ⟨_, rfl⟩ := h.rest
  exact ⟨hd.mem, hd.name, hd.apply, hexpected⟩

/-- Only the rows of what a settled definition expects are written again. -/
theorem importPd_settled {s : Store} {e : NewPeripheralDefinition × List Int}
    {d : PeripheralDefinition} (hs : s.UniqueDefinitions) (hd : Settled s e d) :
    SameButIds s (importPd .update s e) := by
  have happly : e.1.applyTo s = s := by
    have htable : s.peripheralDefinitions.update (·.name = e.1.name) e.1.apply e.1.apply_id
        = s.peripheralDefinitions := by
      refine SerialTable.update_eq_self fun r hr hname => ?_
      rw [hs.names r hr d hd.mem ((of_decide_eq_true hname).trans hd.name.symm), hd.apply]
    exact congrArg (fun table => { s with peripheralDefinitions := table }) htable
  rw [importPd_update ((PeripheralDefinition.byName_eq_some hs).mpr ⟨hd.mem, hd.name⟩), happly]
  refine ⟨⟨_, rfl⟩, fun id => ?_⟩
  by_cases hid : id = d.id
  · rw [hid, expected_expect, hd.expected]
  · rw [Store.expected, expectedRows_expect_ne hid]
    rfl

theorem importPds_settled {s : Store} {es : List (NewPeripheralDefinition × List Int)}
    (hs : s.UniqueDefinitions) (hes : ∀ e ∈ es, ∃ d, Settled s e d) :
    SameButIds s (es.foldl (importPd .update) s) := by
  induction es generalizing s with
  | nil => exact .refl s
  | cons e es ih =>
      obtain ⟨d, hd⟩ := hes e List.mem_cons_self
      have hsame := importPd_settled hs hd
      refine hsame.trans (ih (hsame.unique hs) fun e' he' => ?_)
      obtain ⟨d', hd'⟩ := hes e' (List.mem_cons_of_mem _ he')
      exact ⟨d', hsame.settled hd'⟩

theorem importPds_skip {s : Store} {es : List (NewPeripheralDefinition × List Int)}
    (hes : ∀ e ∈ es, ∃ d, PeripheralDefinition.byName e.1.name s = some d) :
    es.foldl (importPd .skip) s = s := by
  induction es with
  | nil => rfl
  | cons e es ih =>
      obtain ⟨d, hd⟩ := hes e List.mem_cons_self
      rw [List.foldl_cons, importPd_skip hd]
      exact ih fun e' he' => hes e' (List.mem_cons_of_mem _ he')

theorem importPds_rest (strategy : ExistingPeripheralDefinitionStrategy) (s : Store)
    (es : List (NewPeripheralDefinition × List Int)) :
    ∃ definitions expected, es.foldl (importPd strategy) s = { s with
      peripheralDefinitions := definitions
      peripheralDefinitionExpectedQuantityTypes := expected } := by
  induction es generalizing s with
  | nil => exact ⟨_, _, rfl⟩
  | cons e es ih =>
      obtain ⟨_, _, hrest⟩ := ih (importPd strategy s e)
      rw [List.foldl_cons, hrest]
      unfold importPd
      split <;> exact ⟨_, _, rfl⟩

theorem NewPeripheralDefinition.apply_apply (new : NewPeripheralDefinition)
    (d : PeripheralDefinition) : new.apply (new.apply d) = new.apply d := by
  simp [NewPeripheralDefinition.apply, ← Option.or_assoc]

theorem NewPeripheralDefinition.apply_row (new : NewPeripheralDefinition) (id : Int) :
    new.apply (new.row id) = new.row id := by
  simp [NewPeripheralDefinition.apply, NewPeripheralDefinition.row]

/-- There is nothing in the columns that the listed definition leaves empty. -/
structure NewPeripheralDefinition.Covers (new : NewPeripheralDefinition)
    (d : PeripheralDefinition) : Prop where
  description : new.description = none → d.description = none
  brand : new.brand = none → d.brand = none
  model : new.model = none → d.model = none
  commandSchema : new.commandSchema = none → d.commandSchema = none

theorem orElse_eq_left_iff {α : Type} {a b : Option α} :
    (a <|> b) = a ↔ (a = none → b = none) := by
  cases a <;> simp

/-- Overwriting gives the listed definition exactly if nothing is left over. -/
theorem NewPeripheralDefinition.apply_eq_row_iff {new : NewPeripheralDefinition}
    {d : PeripheralDefinition} : new.apply d = new.row d.id ↔ new.Covers d := by
  simp only [apply, row, PeripheralDefinition.mk.injEq, orElse_eq_left_iff, true_and]
  constructor
  · rintro ⟨hdescription, hbrand, hmodel, hschema⟩
    exact ⟨hdescription, hbrand, hmodel, hschema⟩
  · rintro ⟨hdescription, hbrand, hmodel, hschema⟩
    exact ⟨hdescription, hbrand, hmodel, hschema⟩

/-! ## Bringing the definitions to what is listed -/

/-- The definition is there as it is listed, with what it is listed to expect. -/
def Store.HasListed (s : Store) (e : NewPeripheralDefinition × List Int) : Prop :=
  ∃ d ∈ s.peripheralDefinitions, d = e.1.row d.id ∧ s.expected d.id = e.2

/-- What an import from `s` to `s'` is to do. -/
structure Imported (x : Crates) (strings : Strings) (simulation : InsertSimulationDefinitions)
    (strategy : ExistingPeripheralDefinitionStrategy) (quantityTypes : QuantityTypes)
    (s s' : Store) : Prop where
  selected : ∀ qt ∈ listedQuantityTypes quantityTypes, qt ∈ s'.quantityTypes
  updated : strategy = .update →
    ∀ e ∈ listedDefinitions simulation quantityTypes, s'.HasListed e
  skipped : strategy = .skip → ∀ d ∈ s.peripheralDefinitions,
    d ∈ s'.peripheralDefinitions ∧ s'.expectedRows d.id = s.expectedRows d.id
  inserted : strategy = .skip → ∀ e ∈ listedDefinitions simulation quantityTypes,
    (∀ d ∈ s.peripheralDefinitions, d.name ≠ e.1.name) → s'.HasListed e
  unlisted : ∀ d, (∀ e ∈ listedDefinitions simulation quantityTypes, d.name ≠ e.1.name) →
    (d ∈ s'.peripheralDefinitions ↔ d ∈ s.peripheralDefinitions)
      ∧ (d ∈ s.peripheralDefinitions → s'.expectedRows d.id = s.expectedRows d.id)
  rest : ∃ quantityTypes definitions expected, s' = { s with
    quantityTypes
    peripheralDefinitions := definitions
    peripheralDefinitionExpectedQuantityTypes := expected }
  again : ∃ s'', (insertAstroplantDefinitions simulation strategy).run s' = .ok ((), s'')
    ∧ SameButIds s' s''
  /-- Among other tasks the import does all of this in one step, or, if it fails, nothing. -/
  atomic : ∀ (c : Conc Services DeploymentTask) i, c.store.store = s →
    c.tasks[i]? = some (.insertAstroplantDefinitions simulation strategy) →
    (∀ e c', (deployment x strings).step c (.run i e) = some c' →
        c'.store = { c.store with store := s' })
      ∧ ∀ c', (deployment x strings).step c (.fault i) = some c' → c'.store = c.store

section Import

variable {x : Crates} {strings : Strings} {simulation : InsertSimulationDefinitions}
  {strategy : ExistingPeripheralDefinitionStrategy} {quantityTypes : QuantityTypes} {s s' : Store}

theorem importPd_of_listed (strategy : ExistingPeripheralDefinitionStrategy)
    (hs : s.UniqueDefinitions) {e : NewPeripheralDefinition × List Int}
    (he : e ∈ listedDefinitions simulation quantityTypes) :
    ImportPd strategy e (s.described e.1.name)
      (((listedDefinitions simulation quantityTypes).foldl (importPd strategy) s).described
        e.1.name) :=
  (importPd_edits strategy).foldl_own hs listed_nodup he

theorem described_unlisted (hs : s.UniqueDefinitions) {name : String}
    (hname : ∀ e ∈ listedDefinitions simulation quantityTypes, name ≠ e.1.name) :
    ((listedDefinitions simulation quantityTypes).foldl (importPd strategy) s).described name
      = s.described name := by
  refine (importPd_edits strategy).foldl_frame hs fun hmem => ?_
  obtain ⟨e, he, heq⟩ := List.mem_map.mp hmem
  exact hname e he heq.symm

/-- A definition that was not there is there as it is listed. -/
theorem ImportPd.hasListed_of_none {e : NewPeripheralDefinition × List Int}
    (hs' : s'.UniqueDefinitions) (h : ImportPd strategy e none (s'.described e.1.name)) :
    s'.HasListed e := by
  obtain ⟨id, rows, hafter, hrows⟩ := h
  obtain ⟨hd, -, hexpected⟩ := (Store.described_eq_some hs').mp hafter
  refine ⟨e.1.row id, hd, rfl, ?_⟩
  rw [Store.expected, hexpected, hrows]

/-- After an overwriting import another one would find everything settled. -/
theorem ImportPd.settled {e : NewPeripheralDefinition × List Int} (hs' : s'.UniqueDefinitions)
    {before : Option (PeripheralDefinition × List PeripheralDefinitionExpectedQuantityType)}
    (h : ImportPd .update e before (s'.described e.1.name)) : ∃ d, Settled s' e d := by
  have hsettled : ∀ d rows, s'.described e.1.name = some (d, rows) → e.1.apply d = d →
      rows.map (·.quantityTypeId) = e.2 → Settled s' e d := by
    intro d rows hafter happly hrows
    obtain ⟨hd, hname, hexpected⟩ := (Store.described_eq_some hs').mp hafter
    exact ⟨hd, hname, happly, by rw [Store.expected, hexpected, hrows]⟩
  cases before with
  | none =>
      obtain ⟨id, rows, hafter, hrows⟩ := h
      exact ⟨_, hsettled _ rows hafter (e.1.apply_row id) hrows⟩
  | some before =>
      obtain ⟨d, _⟩ := before
      obtain ⟨rows, hafter, hrows⟩ := h
      exact ⟨_, hsettled _ rows hafter (e.1.apply_apply d) hrows⟩

/-- With either strategy the listed definition is there afterwards. -/
theorem ImportPd.present {e : NewPeripheralDefinition × List Int}
    {before : Option (PeripheralDefinition × List PeripheralDefinitionExpectedQuantityType)}
    (h : ImportPd strategy e before (s'.described e.1.name)) :
    ∃ d, PeripheralDefinition.byName e.1.name s' = some d := by
  have hsome : ∃ p, s'.described e.1.name = some p := by
    cases before with
    | none =>
        obtain ⟨id, rows, hafter, -⟩ := h
        exact ⟨_, hafter⟩
    | some before =>
        cases strategy with
        | skip => exact ⟨_, h⟩
        | update =>
            obtain ⟨rows, hafter, -⟩ := h
            exact ⟨_, hafter⟩
  obtain ⟨p, hp⟩ := hsome
  obtain ⟨d, hd, -⟩ := Option.map_eq_some_iff.mp hp
  exact ⟨d, hd⟩

theorem insertAstroplantDefinitions_again (hs : s.UniqueDefinitions)
    (hqts : ∀ qt ∈ listedQuantityTypes quantityTypes, qt ∈ s'.quantityTypes)
    (hs' : s' = (listedDefinitions simulation quantityTypes).foldl (importPd strategy) s) :
    ∃ s'', (insertAstroplantDefinitions simulation strategy).run s' = .ok ((), s'')
      ∧ SameButIds s' s'' := by
  have hunique : s'.UniqueDefinitions := by
    rw [hs']
    exact (importPd_edits strategy).foldl_keeps hs _
  have hrun : (insertPds strategy (listedDefinitions simulation quantityTypes)).run s'
      = .ok ((), _) := run_insertPds_listed hqts
  rw [insertAstroplantDefinitions_eq]
  refine ⟨_, Tx.run_bind_ok.mpr ⟨_, _, selectQuantityTypes_again hunique hqts, hrun⟩, ?_⟩
  have hown : ∀ e ∈ listedDefinitions simulation quantityTypes,
      ImportPd strategy e (s.described e.1.name) (s'.described e.1.name) := by
    intro e he
    rw [hs']
    exact importPd_of_listed strategy hs he
  cases strategy with
  | skip =>
      rw [importPds_skip fun e he => (hown e he).present]
      exact .refl s'
  | update => exact importPds_settled hunique fun e he => (hown e he).settled hunique

/-- The import succeeds: it selects the quantity types, and imports what is listed. -/
theorem exists_run_insertAstroplantDefinitions (simulation : InsertSimulationDefinitions)
    (strategy : ExistingPeripheralDefinitionStrategy) (hs : s.UniqueDefinitions) :
    ∃ quantityTypes table,
      ({ s with quantityTypes := table } : Store).UniqueDefinitions
        ∧ (∀ qt ∈ listedQuantityTypes quantityTypes, qt ∈ table)
        ∧ (insertAstroplantDefinitions simulation strategy).run s
          = .ok ((), (listedDefinitions simulation quantityTypes).foldl (importPd strategy)
              { s with quantityTypes := table }) := by
  obtain ⟨quantityTypes, s₁, hselect, ⟨table, rfl⟩, hs₁, hqts⟩ := exists_selectQuantityTypes hs
  refine ⟨quantityTypes, table, hs₁, hqts, ?_⟩
  rw [insertAstroplantDefinitions_eq]
  exact Tx.run_bind_ok.mpr ⟨_, _, hselect, run_insertPds_listed hqts⟩

theorem same_of_described (hs : s.UniqueDefinitions) (hs' : s'.UniqueDefinitions)
    {d : PeripheralDefinition} (h : s'.described d.name = s.described d.name) :
    (d ∈ s'.peripheralDefinitions ↔ d ∈ s.peripheralDefinitions)
      ∧ (d ∈ s.peripheralDefinitions → s'.expectedRows d.id = s.expectedRows d.id) := by
  have hold : d ∈ s.peripheralDefinitions →
      d ∈ s'.peripheralDefinitions ∧ s'.expectedRows d.id = s.expectedRows d.id := by
    intro hd
    have hdescribed := h.trans ((Store.described_eq_some hs).mpr ⟨hd, rfl, rfl⟩)
    obtain ⟨hd', -, hrows⟩ := (Store.described_eq_some hs').mp hdescribed
    exact ⟨hd', hrows⟩
  refine ⟨⟨fun hd' => ?_, fun hd => (hold hd).1⟩, fun hd => (hold hd).2⟩
  have hdescribed := h.symm.trans ((Store.described_eq_some hs').mpr ⟨hd', rfl, rfl⟩)
  exact ((Store.described_eq_some hs).mp hdescribed).1

/-- A definition that is overwritten without a rest is there as it is listed. -/
theorem ImportPd.hasListed_of_covers {e : NewPeripheralDefinition × List Int}
    {d : PeripheralDefinition} {rows : List PeripheralDefinitionExpectedQuantityType}
    (hs' : s'.UniqueDefinitions) (hcovers : e.1.Covers d)
    (h : ImportPd .update e (some (d, rows)) (s'.described e.1.name)) : s'.HasListed e := by
  obtain ⟨rows', hafter, hrows⟩ := h
  obtain ⟨hd, -, hexpected⟩ := (Store.described_eq_some hs').mp hafter
  refine ⟨e.1.apply d, hd, NewPeripheralDefinition.apply_eq_row_iff.mpr hcovers, ?_⟩
  rw [Store.expected, hexpected, hrows]

theorem described_skipped (hs : s.UniqueDefinitions) {d : PeripheralDefinition}
    (hd : d ∈ s.peripheralDefinitions) :
    ((listedDefinitions simulation quantityTypes).foldl (importPd .skip) s).described d.name
      = s.described d.name := by
  by_cases hlisted : ∃ e ∈ listedDefinitions simulation quantityTypes, d.name = e.1.name
  · obtain ⟨e, he, hname⟩ := hlisted
    have hown := importPd_of_listed .skip hs he
    have hbefore := (Store.described_eq_some hs).mpr ⟨hd, hname, rfl⟩
    rw [hbefore] at hown
    rw [hname, hbefore]
    exact hown
  · exact described_unlisted hs fun e he hname => hlisted ⟨e, he, hname⟩

theorem deployment_atomic
    (hrun : (insertAstroplantDefinitions simulation strategy).run s = .ok ((), s'))
    (c : Conc Services DeploymentTask) (i : Nat) (hc : c.store.store = s)
    (htask : c.tasks[i]? = some (.insertAstroplantDefinitions simulation strategy)) :
    (∀ e c', (deployment x strings).step c (.run i e) = some c' →
        c'.store = { c.store with store := s' })
      ∧ ∀ c', (deployment x strings).step c (.fault i) = some c' → c'.store = c.store := by
  constructor
  · intro e c' hstep
    simp only [Program.step, htask, deployment, hc, Tx.commit_ok hrun] at hstep
    exact (Option.some.inj hstep) ▸ rfl
  · intro c' hstep
    simp only [Program.step, htask, deployment] at hstep
    exact (Option.some.inj hstep) ▸ rfl

theorem imported_of_covers (hs : s.UniqueDefinitions)
    {table : SerialTable QuantityType QuantityType.id}
    (hs₁ : ({ s with quantityTypes := table } : Store).UniqueDefinitions)
    (hqts : ∀ qt ∈ listedQuantityTypes quantityTypes, qt ∈ table)
    (hs' : s' = (listedDefinitions simulation quantityTypes).foldl (importPd strategy)
      { s with quantityTypes := table })
    (hrun : (insertAstroplantDefinitions simulation strategy).run s = .ok ((), s'))
    (hcovers : strategy = .update → ∀ e ∈ listedDefinitions simulation quantityTypes,
      ∀ d ∈ s.peripheralDefinitions, d.name = e.1.name → e.1.Covers d) :
    Imported x strings simulation strategy quantityTypes s s' := by
  have hunique : s'.UniqueDefinitions := by
    rw [hs']
    exact (importPd_edits strategy).foldl_keeps hs₁ _
  have hown : ∀ e ∈ listedDefinitions simulation quantityTypes,
      ImportPd strategy e (s.described e.1.name) (s'.described e.1.name) := by
    intro e he
    rw [hs']
    exact importPd_of_listed strategy hs₁ he
  obtain ⟨definitions, expected, hrest⟩ := importPds_rest strategy
    { s with quantityTypes := table } (listedDefinitions simulation quantityTypes)
  have hselected : ∀ qt ∈ listedQuantityTypes quantityTypes, qt ∈ s'.quantityTypes := by
    rw [hs', hrest]
    exact hqts
  refine ⟨hselected, ?_, ?_, ?_, ?_, ?_, ?_, ?_⟩
  · rintro rfl e he
    have heffect := hown e he
    cases hbefore : s.described e.1.name with
    | none =>
        rw [hbefore] at heffect
        exact heffect.hasListed_of_none hunique
    | some p =>
        obtain ⟨d, rows⟩ := p
        obtain ⟨hd, hname, -⟩ := (Store.described_eq_some hs).mp hbefore
        rw [hbefore] at heffect
        exact heffect.hasListed_of_covers hunique (hcovers rfl e he d hd hname)
  · rintro rfl d hd
    have hsame : s'.described d.name = s.described d.name := by
      rw [hs']
      exact described_skipped hs₁ hd
    obtain ⟨hmem, hrows⟩ := same_of_described hs hunique hsame
    exact ⟨hmem.mpr hd, hrows hd⟩
  · rintro rfl e he hnone
    have heffect := hown e he
    rw [Store.described, PeripheralDefinition.byName_eq_none.mpr hnone] at heffect
    exact heffect.hasListed_of_none hunique
  · intro d hname
    refine same_of_described hs hunique ?_
    rw [hs']
    exact described_unlisted hs₁ hname
  · exact ⟨_, _, _, hs'.trans hrest⟩
  · exact insertAstroplantDefinitions_again hs₁ hselected hs'
  · exact deployment_atomic hrun

/-- Where the import brings a definition to what is listed, nothing was left over. -/
theorem covers_of_imported (hs : s.UniqueDefinitions)
    (hrun : (insertAstroplantDefinitions simulation .update).run s = .ok ((), s'))
    (h : Imported x strings simulation .update quantityTypes s s') :
    ∀ new ∈ shippedDefinitions simulation, ∀ d ∈ s.peripheralDefinitions,
      d.name = new.name → new.Covers d := by
  intro new hnew d hd hname
  obtain ⟨quantityTypes', table, hs₁, -, hrun'⟩ :=
    exists_run_insertAstroplantDefinitions simulation .update hs
  obtain rfl : _ = s' := (Prod.mk.inj (Except.ok.inj (hrun'.symm.trans hrun))).2
  have hunique := (importPd_edits .update).foldl_keeps hs₁
    (listedDefinitions simulation quantityTypes')
  -- the definition as it was overwritten
  obtain ⟨expected', he'⟩ := mem_listed.mp hnew
  have heffect := importPd_of_listed .update hs₁ he'
  rw [(Store.described_eq_some hs₁).mpr ⟨hd, hname, rfl⟩] at heffect
  obtain ⟨rows, hafter, -⟩ := heffect
  obtain ⟨hmem, -, -⟩ := (Store.described_eq_some hunique).mp hafter
  -- the definition as it is listed
  obtain ⟨expected, he⟩ := mem_listed.mp hnew
  obtain ⟨d', hd', hrow, -⟩ := h.updated rfl _ he
  have hsame : d' = new.apply d := hunique.names d' hd' _ hmem (by rw [hrow]; rfl)
  rw [hsame] at hrow
  exact NewPeripheralDefinition.apply_eq_row_iff.mp hrow

end Import

/-- **The import does what it says** exactly if it skips what exists, or what exists
under a listed name has nothing in the columns that the listed definition leaves
empty. -/
theorem import_listed_iff (x : Crates) (strings : Strings)
    (simulation : InsertSimulationDefinitions) (strategy : ExistingPeripheralDefinitionStrategy)
    (s : Store) (hs : s.UniqueDefinitions) :
    (∃ s' quantityTypes, (insertAstroplantDefinitions simulation strategy).run s = .ok ((), s')
        ∧ Imported x strings simulation strategy quantityTypes s s')
      ↔ strategy = .skip ∨ ∀ new ∈ shippedDefinitions simulation, ∀ d ∈ s.peripheralDefinitions,
          d.name = new.name → new.Covers d := by
  constructor
  · rintro ⟨s', quantityTypes, hrun, himported⟩
    cases strategy with
    | skip => exact Or.inl rfl
    | update => exact Or.inr (covers_of_imported hs hrun himported)
  · intro h
    obtain ⟨quantityTypes, table, hs₁, hqts, hrun⟩ :=
      exists_run_insertAstroplantDefinitions simulation strategy hs
    refine ⟨_, quantityTypes, hrun, imported_of_covers hs hs₁ hqts rfl hrun ?_⟩
    rintro rfl e he d hd hname
    rcases h with h | h
    · cases h
    · exact h e.1 (mem_listed.mpr ⟨e.2, he⟩) d hd hname

/-- Fans that someone has given a brand, which the listed ones do not have. -/
def brandedFans (brand : Option String) : Store :=
  { Store.empty with
    peripheralDefinitions := SerialTable.empty.insert
      (fun id => ⟨id, "AstroPlant fans", some "Fans.", brand, none, "pwm", "Pwm", .null, none⟩)
      fun _ => rfl }

theorem brandedFans_unique (brand : Option String) : (brandedFans brand).UniqueDefinitions := by
  have hrow : ∀ d ∈ (brandedFans brand).peripheralDefinitions,
      d = ⟨1, "AstroPlant fans", some "Fans.", brand, none, "pwm", "Pwm", .null, none⟩ :=
    fun d hd => (SerialTable.mem_insert.mp hd).resolve_left List.not_mem_nil
  exact ⟨fun d hd d' hd' _ => (hrow d hd).trans (hrow d' hd').symm,
    fun _ hqt => absurd hqt List.not_mem_nil⟩

theorem import_listed_iff_brandedFans :
    ∃ s' quantityTypes,
      (insertAstroplantDefinitions .yes .update).run (brandedFans none) = .ok ((), s')
        ∧ Imported nullCrates .ascii .yes .update quantityTypes (brandedFans none) s' := by
  refine (import_listed_iff nullCrates .ascii .yes .update _ (brandedFans_unique none)).mpr
    (Or.inr fun new hnew d hd _ => ?_)
  have hdescribed : ∀ new ∈ shippedDefinitions .yes, new.description ≠ none := by decide
  obtain rfl := (SerialTable.mem_insert.mp hd).resolve_left List.not_mem_nil
  exact ⟨fun hnone => absurd hnone (hdescribed new hnew), fun _ => rfl, fun _ => rfl, fun _ => rfl⟩

/-- The brand stays. -/
theorem brandedFans_not_listed :
    ¬ ∃ s' quantityTypes,
      (insertAstroplantDefinitions .no .update).run (brandedFans (some "Fan & Co."))
          = .ok ((), s')
        ∧ Imported nullCrates .ascii .no .update quantityTypes (brandedFans (some "Fan & Co."))
          s' := by
  rintro ⟨s', quantityTypes, hrun, himported⟩
  have hmem : astroplantFans ∈ shippedDefinitions .no := by
    simp [shippedDefinitions, listedDefinitions, astroplantDefinitions]
  have hcovers := covers_of_imported (brandedFans_unique _) hrun himported astroplantFans hmem
    _ (SerialTable.mem_insert_self _ _ _) rfl
  cases hcovers.brand rfl

end AstroPlant
