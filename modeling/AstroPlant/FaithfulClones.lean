import AstroPlant.SentConfiguration
import AstroPlant.WriteIsolation

/-!
# Cloning is faithful

A request to clone a configuration, as it runs alone: it reads the source and its
kit, asks for permission where that is another kit, and then inserts a
configuration and the copies of the source's peripherals in one transaction. In
every store that is reached, a request that is answered has added the copy and
nothing else, and one that is not has changed nothing.

The request is run as the tasks are, transaction after transaction, with nothing
else in between (`cloneRequest`). Its answer and what it has done to the store
are computed once (`cloneRequest_runAlone`); the theorem reads off the four
cases. An actor who may edit configurations of a kit may view it
(`view_of_editConfiguration`), so the check of the source's kit is left out
without loss when it is the same kit.
-/

namespace AstroPlant

/-! ## Running alone, to whatever end -/

variable {x : Crates}

theorem exec_idle {s : Store} {ls : List (Sched Request Env)} {c : Conc Store Task}
    (hls : ∀ l ∈ ls, ∀ r, l ≠ .spawn r) (h : Run.exec (api x).step ⟨s, []⟩ ls = some c) :
    c.store = s := by
  cases ls with
  | nil =>
      cases h
      rfl
  | cons l ls =>
      obtain ⟨c', hstep, -⟩ := Run.exec_cons.mp h
      obtain ⟨r, rfl, -⟩ | ⟨_, _, _, _, _, -, ht, -⟩ | ⟨_, _, -, ht, -⟩ := Program.step_cases hstep
      · exact absurd rfl (hls _ List.mem_cons_self r)
      · cases ht
      · cases ht

/-- Whatever becomes of a request that runs alone, the store is as it was or the
request has been answered. -/
theorem Task.store_exec_alone {s : Store} {t : Task} {ls : List (Sched Request Env)}
    {c : Conc Store Task} (hls : ∀ l ∈ ls, ∀ r, l ≠ .spawn r)
    (h : Run.exec (api x).step ⟨s, [t]⟩ ls = some c) :
    c.store = s ∨ ∃ es reply, t.runAlone x es s = some (reply, c.store) := by
  induction ls generalizing t with
  | nil =>
      cases h
      exact Or.inl rfl
  | cons l ls ih =>
      have htail : ∀ l ∈ ls, ∀ r, l ≠ .spawn r := fun l hl => hls l (List.mem_cons_of_mem _ hl)
      obtain ⟨c', hstep, hrest⟩ := Run.exec_cons.mp h
      obtain ⟨r, rfl, -⟩ | ⟨i, e, t', s', k, -, ht, hadv, rfl⟩ | ⟨i, t', -, ht, -, rfl⟩ :=
        Program.step_cases hstep
      · exact absurd rfl (hls _ List.mem_cons_self r)
      · obtain ⟨rfl, rfl⟩ : i = 0 ∧ t = t' := by simpa [List.getElem?_singleton] using ht
        simp only [api, Option.some.injEq, Prod.mk.injEq, Tx.commit] at hadv
        cases htx : (t.tx x e).run s with
        | error problem =>
            rw [htx] at hadv
            obtain ⟨rfl, rfl⟩ := hadv
            exact Or.inl (exec_idle htail hrest)
        | ok r =>
            obtain ⟨t' | reply, s₁⟩ := r
            · obtain rfl := Task.tx_inl htx
              rw [htx] at hadv
              obtain ⟨rfl, rfl⟩ := hadv
              refine (ih htail hrest).imp_right ?_
              rintro ⟨es, reply, halone⟩
              exact ⟨e :: es, reply, by rw [runAlone, htx]; exact halone⟩
            · rw [htx] at hadv
              obtain ⟨rfl, rfl⟩ := hadv
              refine Or.inr ⟨[e], reply, ?_⟩
              rw [runAlone, htx, exec_idle htail hrest]
      · obtain ⟨rfl, rfl⟩ : i = 0 ∧ t = t' := by simpa [List.getElem?_singleton] using ht
        exact Or.inl (exec_idle htail hrest)

/-! ## What a clone adds -/

/-- What a configuration is made of: definitions, names and configurations. -/
def Store.contents (s : Store) (kitConfigurationId : Int) : List (Int × String × Json) :=
  (s.peripherals.select (·.kitConfigurationId = kitConfigurationId)).map fun p =>
    (p.peripheralDefinitionId, p.name, p.configuration)

/-- The store after the clone: the copy `c` of the source for the kit, the copies of
the source's peripherals, and nothing else. -/
structure ClonedFor (kit : Kit) (source c : KitConfiguration) (s s' : Store) : Prop where
  configurations : s'.kitConfigurations.rows = s.kitConfigurations.rows ++ [c]
  kitId : c.kitId = kit.id
  inactive : c.active = false
  neverUsed : c.neverUsed = true
  controllerSymbolLocation : c.controllerSymbolLocation = source.controllerSymbolLocation
  controllerSymbol : c.controllerSymbol = source.controllerSymbol
  controlRules : c.controlRules = source.controlRules
  peripherals : ∃ copies, s'.peripherals.rows = s.peripherals.rows ++ copies
    ∧ ∀ p ∈ copies, p.kitId = kit.id ∧ p.kitConfigurationId = c.id
  contents : (s'.contents c.id).Perm (s.contents source.id)
  rest : s' = { s with kitConfigurations := s'.kitConfigurations, peripherals := s'.peripherals }

/-- A new configuration is made of its copies only: no peripheral named its id
before. -/
theorem clonedFor_cloneAll {kit : Kit} {source : KitConfiguration} {s : Store} {now : Timestamp}
    (hs : Coherent s) :
    ClonedFor kit source ((cloneOf kit source).row now s.kitConfigurations.next) s
      (Peripheral.cloneAll source.id kit.id s.kitConfigurations.next
        ((cloneOf kit source).insert now s)) := by
  let id := s.kitConfigurations.next
  let selected := s.peripherals.select (·.kitConfigurationId = source.id)
  let copies := selected.mapIdx fun n p => Peripheral.cloneRow kit.id id p (s.peripherals.next + n)
  have hrows : (Peripheral.cloneAll source.id kit.id id ((cloneOf kit source).insert now s)
      |>.peripherals.rows) = s.peripherals.rows ++ copies := SerialTable.rows_insertAll
  have hcopies : ∀ p ∈ copies, p.kitId = kit.id ∧ p.kitConfigurationId = id := by
    intro p hp
    obtain ⟨n, hn, rfl⟩ := List.mem_mapIdx.mp hp
    exact ⟨rfl, rfl⟩
  refine ⟨rfl, rfl, rfl, rfl, rfl, rfl, rfl, ⟨copies, hrows, hcopies⟩, .of_eq ?_, rfl⟩
  have hold : s.peripherals.rows.filter (·.kitConfigurationId = id) = [] := by
    refine List.filter_eq_nil_iff.mpr fun p hp => ?_
    have hlt := (hs p hp).1
    simp [id, hlt.ne]
  have hnew : copies.filter (·.kitConfigurationId = id) = copies :=
    List.filter_eq_self.mpr fun p hp => decide_eq_true (hcopies p hp).2
  calc (Peripheral.cloneAll source.id kit.id id ((cloneOf kit source).insert now s)).contents id
      = ((s.peripherals.rows ++ copies).filter (·.kitConfigurationId = id)).map fun p =>
          (p.peripheralDefinitionId, p.name, p.configuration) := by rw [← hrows]; rfl
    _ = copies.map fun p => (p.peripheralDefinitionId, p.name, p.configuration) := by
        rw [List.filter_append, hold, hnew, List.nil_append]
    _ = s.contents source.id := by
        refine List.ext_getElem ?_ fun n _ _ => ?_
        · simp [copies, selected, Store.contents]
        · simp [copies, selected, Store.contents, Peripheral.cloneRow]

/-! ## The request -/

/-- The request to clone a configuration for a kit. -/
def cloneRequest (userId : Option Int) (kitSerial : String) (source : Int) : Task :=
  .start (.createConfiguration userId kitSerial none (some source))

/-- Whoever may edit the configurations of a kit may view it. -/
theorem view_of_editConfiguration {user : KitUser} {kit : Kit}
    (h : KitAction.editConfiguration.permitted user kit = true) :
    KitAction.view.permitted user kit = true := by
  obtain ⟨u, m, rfl, -⟩ := KitAction.permitted_of_not_readOnly rfl h
  rfl

theorem cloneConfiguration_runAlone {s s' : Store} {kit : Kit} {original : KitConfiguration}
    {es : List Env} {reply : Reply}
    (h : (Task.cloneConfiguration kit original).runAlone x es s = some (reply, s')) :
    ∃ now, s' = Peripheral.cloneAll original.id kit.id s.kitConfigurations.next
      ((cloneOf kit original).insert now s) := by
  obtain ⟨e, _, -, h | ⟨_, h, -⟩⟩ := Task.runAlone_cases h
  · obtain ⟨_, h, -⟩ := finish_ok h
    exact ⟨e.now, (cloneConfiguration_ok h).2⟩
  · exact absurd h finish_not_inl

/-- The models that an answered request has read, and what it has done. -/
theorem cloneRequest_runAlone {s s' : Store} (hserials : UniqueSerials s) {userId : Option Int}
    {kitSerial : String} {source : Int} {es : List Env} {reply : Reply}
    (h : (cloneRequest userId kitSerial source).runAlone x es s = some (reply, s')) :
    ∃ kit original originalKit now, Kit.bySerial kitSerial s = some kit
      ∧ KitConfiguration.byId source s = some original
      ∧ Kit.byId original.kitId s = some originalKit
      ∧ PermittedToView userId originalKit s
      ∧ s' = Peripheral.cloneAll original.id kit.id s.kitConfigurations.next
          ((cloneOf kit original).insert now s) := by
  -- permission to edit the target's configurations
  obtain ⟨e, es', -, h | ⟨t', h, hrest⟩⟩ := Task.runAlone_cases h
  · exact absurd h andThen_not_inr
  have hpermitted : (permitted userId kitSerial .editConfiguration fun kit =>
      createConfigurationTask userId kit none (some source)).run s = .ok (.inl t', s) := h
  obtain ⟨kit, task, hkit, hedit, h, hn⟩ := permitted_ok hpermitted
  cases hn
  obtain ⟨rfl, -⟩ := Tx.run_pure_ok.mp h
  -- the models of the source
  obtain ⟨e, es', -, h | ⟨t', h, hrest⟩⟩ := Task.runAlone_cases hrest
  · exact absurd h andThen_not_inr
  obtain ⟨⟨originalKit, original⟩, s₁, task, h₁, h, hn⟩ := andThen_ok h
  obtain ⟨rfl, horiginal, horiginalKit⟩ := getModelsFromKitConfigurationId_ok h₁
  cases hn
  dsimp only at h
  split at h
  · -- another kit, which the actor must be allowed to view
    obtain ⟨rfl, -⟩ := Tx.run_pure_ok.mp h
    have hview : PermittedToView userId originalKit s := permitted_of_authorize hserials
      (Kit.mem_of_byId horiginalKit).1 (fun _ => rfl) hrest
    obtain ⟨e, es', -, h | ⟨t', h, hrest⟩⟩ := Task.runAlone_cases hrest
    · exact absurd h andThen_not_inr
    obtain ⟨_, _, task, -, h, hn⟩ := andThen_ok h
    cases hn
    obtain ⟨rfl, -⟩ := Tx.run_pure_ok.mp h
    obtain ⟨now, hs'⟩ := cloneConfiguration_runAlone hrest
    exact ⟨kit, original, originalKit, now, hkit, horiginal, horiginalKit, hview, hs'⟩
  · -- the same kit, whose configurations the actor may edit
    rename_i hsame
    obtain ⟨rfl, -⟩ := Tx.run_pure_ok.mp h
    obtain ⟨now, hs'⟩ := cloneConfiguration_runAlone hrest
    have hkits : kit = originalKit := SerialTable.eq_of_key_eq (List.mem_of_find?_eq_some hkit)
      (Kit.mem_of_byId horiginalKit).1 (not_not.mp hsame)
    rw [← hkits] at horiginalKit
    exact ⟨kit, original, kit, now, hkit, horiginal, horiginalKit,
      view_of_editConfiguration hedit, hs'⟩

/-- **A clone is faithful or nothing**, in every store that is reached: a request
that is answered has added the copy and nothing else, and a request that is not,
wherever it fails or breaks off, has changed nothing; so has one whose actor may
not view the kit of the source, be it the target's or another. -/
theorem clone_faithful {strings : Strings} {s : Store} (hs : s.Reached x strings)
    (userId : Option Int) (kitSerial : String) (source : Int) :
    (∀ es reply s', (cloneRequest userId kitSerial source).runAlone x es s = some (reply, s') →
      ∃ kit original c, Kit.bySerial kitSerial s = some kit
        ∧ KitConfiguration.byId source s = some original ∧ ClonedFor kit original c s s')
    ∧ (∀ ls c, (∀ l ∈ ls, ∀ r, l ≠ .spawn r) →
      Run.exec (api x).step ⟨s, [cloneRequest userId kitSerial source]⟩ ls = some c →
      c.store = s ∨ ∃ es reply,
        (cloneRequest userId kitSerial source).runAlone x es s = some (reply, c.store))
    ∧ ∀ original originalKit, KitConfiguration.byId source s = some original →
      Kit.byId original.kitId s = some originalKit →
      ¬PermittedToView userId originalKit s → ∀ ls c, (∀ l ∈ ls, ∀ r, l ≠ .spawn r) →
      Run.exec (api x).step ⟨s, [cloneRequest userId kitSerial source]⟩ ls = some c →
      c.store = s := by
  obtain ⟨-, hcoherent, -, hserials⟩ := hs.sendable
  refine ⟨fun es reply s' h => ?_, fun ls c hls h => Task.store_exec_alone hls h, ?_⟩
  · obtain ⟨kit, original, _, now, hkit, horiginal, -, -, rfl⟩ := cloneRequest_runAlone hserials h
    exact ⟨kit, original, _, hkit, horiginal, clonedFor_cloneAll hcoherent⟩
  · intro original originalKit horiginal horiginalKit hview ls c hls h
    refine (Task.store_exec_alone hls h).resolve_right ?_
    rintro ⟨es, reply, halone⟩
    obtain ⟨-, original', originalKit', -, -, horiginal', horiginalKit', hmay, -⟩ :=
      cloneRequest_runAlone hserials halone
    obtain rfl := Option.some.inj (horiginal.symm.trans horiginal')
    obtain rfl := Option.some.inj (horiginalKit.symm.trans horiginalKit')
    exact hview hmay

/-- A configuration with a heater is cloned for its own kit. -/
theorem clone_faithful_heatedKit :
    ∃ c, Run.exec (deployment nullCrates .ascii).step ⟨.start .empty, []⟩ heatedKit = some c
      ∧ ∃ reply s' kit original copy,
        (cloneRequest (some 1) "k1" 1).runAlone nullCrates [{}, {}, {}] c.store.store
          = some (reply, s')
        ∧ ClonedFor kit original copy c.store.store s'
        ∧ (c.store.store.contents 1).length = 1 := by
  have hrun : (Run.exec (deployment nullCrates .ascii).step ⟨.start .empty, []⟩ heatedKit).map
      (fun c => (((cloneRequest (some 1) "k1" 1).runAlone nullCrates [{}, {}, {}]
        c.store.store).isSome, (c.store.store.contents 1).length)) = some (true, 1) := by
    decide +kernel
  obtain ⟨c, hrun, hclone⟩ := Option.map_eq_some_iff.mp hrun
  obtain ⟨hclone, hlength⟩ := Prod.mk.inj hclone
  obtain ⟨⟨reply, s'⟩, hclone⟩ := Option.isSome_iff_exists.mp hclone
  obtain ⟨kit, original, copy, -, -, hcloned⟩ :=
    (clone_faithful (.deployment hrun) (some 1) "k1" 1).1 _ reply s' hclone
  exact ⟨c, hrun, reply, s', kit, original, copy, hclone, hcloned, hlength⟩

end AstroPlant
