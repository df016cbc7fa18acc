import AstroPlant.KitMembers
import AstroPlant.Ownership

/-!
# Used configurations and what may still change in them

A configuration that has been activated must not change any more: its
controller and its peripherals are what the kit ran. Four handlers check
`never_used`, but on the row they read in their first transaction; another
request can activate the configuration before their last one writes
(`used_configuration_changed`). Where no activation overtakes a handler in this
way, a used configuration is indeed frozen, along every run
(`used_configuration_frozen`).

`Frozen` compares the configurations that were used before a step with what they
are after it: controller, rules and peripherals. It is a preorder, and each
statement keeps it for the configurations it does not write under
(`Task.writesUnder`). So the only steps of interest are those that write under a
configuration, and they are harmless if it has not been used (`NotOvertaken`),
which is what their handler had checked.
-/

namespace AstroPlant

/-! ## Frozen configurations -/

def SameController (c c' : KitConfiguration) : Prop :=
  c'.controllerSymbolLocation = c.controllerSymbolLocation
    ∧ c'.controllerSymbol = c.controllerSymbol ∧ c'.controlRules = c.controlRules

/-- Both stores hold the same peripheral rows for the configuration. -/
def SamePeripherals (id : Int) (s s' : Store) : Prop :=
  ∀ p, (p ∈ s'.peripherals ∧ p.kitConfigurationId = id)
    ↔ (p ∈ s.peripherals ∧ p.kitConfigurationId = id)

/-- What is used in the first store and still exists in the second one has the
same controller and the same peripherals in both. -/
def UsedUnchanged (s s' : Store) : Prop :=
  ∀ c ∈ s.kitConfigurations, c.neverUsed = false →
    ∀ c' ∈ s'.kitConfigurations, c'.id = c.id → SameController c c' ∧ SamePeripherals c.id s s'

/-- A used configuration stays used, with its controller. -/
def StaysUsed (c c' : KitConfiguration) : Prop :=
  c.neverUsed = false → c'.neverUsed = false ∧ SameController c c'

theorem StaysUsed.refl (c : KitConfiguration) : StaysUsed c c := fun h => ⟨h, rfl, rfl, rfl⟩

theorem StaysUsed.trans {a b c : KitConfiguration} (h : StaysUsed a b) (h' : StaysUsed b c) :
    StaysUsed a c := by
  intro ha
  obtain ⟨hb, h₁, h₂, h₃⟩ := h ha
  obtain ⟨hc, h₁', h₂', h₃'⟩ := h' hb
  exact ⟨hc, h₁'.trans h₁, h₂'.trans h₂, h₃'.trans h₃⟩

/-- The inductive form of `UsedUnchanged`: since ids are not reused, it also
says that what exists later and is old existed before. -/
structure Frozen (s s' : Store) : Prop where
  controllers : s.kitConfigurations.Keeps StaysUsed s'.kitConfigurations
  peripherals : ∀ c ∈ s.kitConfigurations, c.neverUsed = false →
    ∀ c' ∈ s'.kitConfigurations, c'.id = c.id → SamePeripherals c.id s s'

namespace Frozen

theorem usedUnchanged {s s' : Store} (h : Frozen s s') : UsedUnchanged s s' := by
  intro c hc hused c' hc' hid
  have hlt : c'.id < s.kitConfigurations.next := by
    rw [hid]
    exact SerialTable.key_lt_next hc
  obtain ⟨c₀, hc₀, hid₀, hstays⟩ := h.controllers.old c' hc' hlt
  obtain rfl := SerialTable.eq_of_key_eq hc₀ hc (hid₀.trans hid)
  exact ⟨(hstays hused).2, h.peripherals c₀ hc hused c' hc' hid⟩

theorem trans {s s' s'' : Store} (h : Frozen s s') (h' : Frozen s' s'') : Frozen s s'' where
  controllers := h.controllers.trans StaysUsed.trans h'.controllers
  peripherals := by
    intro c hc hused c'' hc'' hid p
    have hlt : c''.id < s.kitConfigurations.next := by
      rw [hid]
      exact SerialTable.key_lt_next hc
    -- the row was already there in between
    obtain ⟨c', hc', hid', -⟩ :=
      h'.controllers.old c'' hc'' (Int.lt_of_lt_of_le hlt h.controllers.next_le)
    have hlt' : c'.id < s.kitConfigurations.next := by
      rw [hid']
      exact hlt
    obtain ⟨c₀, hc₀, hid₀, hstays⟩ := h.controllers.old c' hc' hlt'
    obtain rfl := SerialTable.eq_of_key_eq hc₀ hc (hid₀.trans (hid'.trans hid))
    have h₂ := h'.peripherals c' hc' (hstays hused).1 c'' hc'' hid'.symm p
    rw [← hid₀] at h₂
    exact h₂.trans (h.peripherals c₀ hc hused c' hc' hid₀.symm p)

theorem of_eq {s s' : Store} (hc : s'.kitConfigurations = s.kitConfigurations)
    (hp : s'.peripherals = s.peripherals) : Frozen s s' where
  controllers := by
    rw [hc]
    exact .refl StaysUsed.refl
  peripherals := fun c _ _ c' _ _ p => by rw [hp]

theorem refl (s : Store) : Frozen s s := of_eq rfl rfl

theorem queueMedia {now : Timestamp} {q : Media → Bool} {s s' : Store} {u : Unit}
    (h : (queueMedia now q).run s = .ok (u, s')) : Frozen s s' := by
  rw [queueMedia_ok h]
  exact of_eq rfl rfl

/-- A deletion that selects no peripheral of a used configuration leaves the
used configurations it does not take as they were. Coherence is needed: the
cascade from a kit takes peripherals by their own `kit_id`. -/
theorem remove {s : Store} (hs : Coherent s) (kit : Kit → Bool)
    (configuration : KitConfiguration → Bool) (peripheral : Peripheral → Bool)
    (hsel : ∀ c ∈ s.kitConfigurations, c.neverUsed = false →
      ∀ p ∈ s.peripherals, p.kitConfigurationId = c.id → peripheral p = false) :
    Frozen s (s.remove (s.doomed kit configuration peripheral)) where
  controllers := .delete StaysUsed.refl
  peripherals := by
    intro c hc hused c' hc' hid p
    obtain ⟨hc', hsafe⟩ := SerialTable.mem_delete.mp hc'
    obtain rfl := SerialTable.eq_of_key_eq hc' hc hid
    constructor
    · exact fun ⟨hp, hpc⟩ => ⟨(SerialTable.mem_delete.mp hp).1, hpc⟩
    · rintro ⟨hp, hpc⟩
      refine ⟨SerialTable.mem_delete.mpr ⟨hp, ?_⟩, hpc⟩
      have hkit : c'.kitId = p.kitId := (hs p hp).2 c' hc hpc.symm
      simp only [Store.doomed, Bool.or_eq_false_iff] at hsafe ⊢
      refine ⟨⟨hsel c' hc hused p hp hpc, by rw [← hkit]; exact hsafe.2⟩, ?_⟩
      simp only [List.any_eq_false, Bool.and_eq_true, beq_iff_eq, not_and]
      intro c₁ hc₁ hdoomed heq
      rw [SerialTable.eq_of_key_eq hc₁ hc (heq.trans hpc)] at hdoomed
      simp [hsafe.1, hsafe.2] at hdoomed

end Frozen

/-! ## The condition -/

/-- The configuration, as it was read, whose frozen data the next step of the
task writes. -/
def Task.writesUnder : Task → Option KitConfiguration
  | .onConfiguration _ c (.patch patch) => if patch.changesController then some c else none
  | .onConfiguration _ c (.addPeripheral _) => some c
  | .onPeripheral c _ _ => some c
  | _ => none

/-- What the task is about to write under was read as never used, and is still
never used. -/
def NotOvertaken (t : Task) (s : Store) : Prop :=
  ∀ c ∈ t.writesUnder, c.neverUsed = true →
    ∀ c' ∈ s.kitConfigurations.rows, c'.id = c.id → c'.neverUsed = true

instance (t : Task) (s : Store) : Decidable (NotOvertaken t s) :=
  inferInstanceAs (Decidable (∀ c ∈ t.writesUnder, _))

theorem NotOvertaken.ne {t : Task} {s : Store} (h : NotOvertaken t s) {c : KitConfiguration}
    (hw : t.writesUnder = some c) (hnever : c.neverUsed = true) {c' : KitConfiguration}
    (hc' : c' ∈ s.kitConfigurations) (hused : c'.neverUsed = false) : c'.id ≠ c.id := by
  intro hid
  rw [h c hw hnever c' hc' hid] at hused
  cases hused

/-! ## One step -/

theorem deactivate_staysUsed (now : Timestamp) (c : KitConfiguration) :
    StaysUsed c (c.deactivate now) := fun h => ⟨h, rfl, rfl, rfl⟩

/-- A patch keeps a configuration used, and it keeps the controller unless it
names one of its fields. -/
theorem apply_staysUsed {patch : KitConfigurationPatch} (hp : patch.changesController = false)
    (id : Int) (now : Timestamp) (c : KitConfiguration) :
    StaysUsed c ((patch.update id).apply now c) := by
  intro hused
  simp only [KitConfigurationPatch.changesController, Bool.or_eq_false_iff,
    Option.isSome_eq_false_iff, Option.isNone_iff_eq_none] at hp
  obtain ⟨⟨h₁, h₂⟩, h₃⟩ := hp
  simp only [KitConfiguration.neverUsed, Option.isNone_eq_false_iff] at hused
  refine ⟨?_, ?_, ?_, ?_⟩
  · simp [UpdateKitConfiguration.apply, Store.kitConfigurationTrigger,
      KitConfiguration.neverUsed, Option.isNone_eq_false_iff.mpr hused]
  · simp [UpdateKitConfiguration.apply, Store.kitConfigurationTrigger,
      KitConfigurationPatch.update, h₁]
  · simp [UpdateKitConfiguration.apply, Store.kitConfigurationTrigger,
      KitConfigurationPatch.update, h₂]
  · simp [UpdateKitConfiguration.apply, Store.kitConfigurationTrigger,
      KitConfigurationPatch.update, h₃]

/-- **The step lemma.** -/
theorem frozen_change {t : Task} {s s' : Store} (hs : Coherent s) (ht : t.Coherent s)
    (hok : NotOvertaken t s) (h : Change t s s') : Frozen s s' := by
  cases h with
  | deleteKit id now s₁ hqueue =>
      exact (Frozen.queueMedia hqueue).trans
        (.remove (coherent_queueMedia hs hqueue) _ _ _ fun _ _ _ _ _ _ => rfl)
  | deleteConfiguration id now s₁ hqueue =>
      exact (Frozen.queueMedia hqueue).trans
        (.remove (coherent_queueMedia hs hqueue) _ _ _ fun _ _ _ _ _ _ => rfl)
  | deleteMedia id now s₁ hqueue => exact .queueMedia hqueue
  | createConfiguration new now hkit =>
      exact { controllers := .insert (new.row_id now) StaysUsed.refl
              peripherals := fun c _ _ c' _ _ p => Iff.rfl }
  | cloneConfiguration kit source now hkit =>
      refine ⟨.insert (NewKitConfiguration.row_id _ now) StaysUsed.refl, ?_⟩
      intro c hc hused c' hc' hid p
      constructor
      · rintro ⟨hp, hpc⟩
        rcases SerialTable.mem_insertAll hp with hp | ⟨p₀, -, i, -, rfl⟩
        · exact ⟨hp, hpc⟩
        · have hlt := SerialTable.key_lt_next hc
          rw [← hpc] at hlt
          exact absurd hlt (Int.lt_irrefl _)
      · exact fun ⟨hp, hpc⟩ => ⟨SerialTable.mem_insertAll_of_mem hp, hpc⟩
  | patchConfiguration kit c patch now s₁ ht' hfrozen hs₁ =>
      subst ht'
      have h₁ : Frozen s s₁ := by
        rcases hs₁ with rfl | rfl
        · exact .refl _
        · exact { controllers := .update (KitConfiguration.deactivate_id now) StaysUsed.refl
                    fun r _ _ => deactivate_staysUsed now r
                  peripherals := fun c _ _ c' _ _ p => Iff.rfl }
      refine h₁.trans { controllers := ?_, peripherals := fun c _ _ c' _ _ p => Iff.rfl }
      refine .update (UpdateKitConfiguration.apply_id _ now) StaysUsed.refl fun r hr hid => ?_
      cases hchanges : patch.changesController with
      | false => exact apply_staysUsed hchanges _ now r
      | true =>
          -- the row that is written had not been used when it was read, so by
          -- the condition it has not been used yet
          intro hused
          have hnever : c.neverUsed = true := by simpa [hchanges] using hfrozen
          have hne : ∀ r₀ ∈ s.kitConfigurations, r₀.neverUsed = false → r₀.id ≠ c.id :=
            fun r₀ hr₀ => hok.ne (by simp [Task.writesUnder, hchanges]) hnever hr₀
          have hid' : r.id = c.id := of_decide_eq_true hid
          rcases hs₁ with rfl | rfl
          · exact absurd hid' (hne r hr hused)
          · obtain ⟨r₀, hr₀, rfl⟩ := KitConfiguration.mem_deactivateAll.mp hr
            by_cases hkit : r₀.kitId = kit.id
            · rw [if_pos hkit] at hused hid'
              exact absurd hid' (hne r₀ hr₀ hused)
            · rw [if_neg hkit] at hused hid'
              exact absurd hid' (hne r₀ hr₀ hused)
  | addPeripheral kit c body new ht' hnever hkit hconf =>
      subst ht'
      refine ⟨.refl StaysUsed.refl, ?_⟩
      intro c' hc' hused _ _ _ p
      have hne := hok.ne rfl hnever hc' hused
      constructor
      · rintro ⟨hp, hpc⟩
        rcases NewPeripheral.mem_insert.mp hp with hp | rfl
        · exact ⟨hp, hpc⟩
        · exact absurd (hpc.symm.trans hconf) hne
      · exact fun ⟨hp, hpc⟩ => ⟨NewPeripheral.mem_insert.mpr (Or.inl hp), hpc⟩
  | patchPeripheral c p patch u ht' hnever hid =>
      subst ht'
      refine ⟨.refl StaysUsed.refl, ?_⟩
      intro c' hc' hused _ _ _ p'
      have hne := hok.ne rfl hnever hc' hused
      have hother : ∀ p₀ ∈ s.peripherals, p₀.kitConfigurationId = c'.id → p₀.id ≠ u.id :=
        fun p₀ hp₀ hpc heq => hne (hpc.symm.trans (ht.2 p₀ hp₀ (heq.trans hid)))
      constructor
      · rintro ⟨hp', hpc⟩
        obtain ⟨p₀, hp₀, rfl⟩ := UpdatePeripheral.mem_applyTo.mp hp'
        split at hpc
        · rename_i heq
          exact absurd heq (hother p₀ hp₀ hpc)
        · rename_i heq
          rw [if_neg heq]
          exact ⟨hp₀, hpc⟩
      · rintro ⟨hp', hpc⟩
        exact ⟨UpdatePeripheral.mem_applyTo.mpr ⟨p', hp', if_neg (hother p' hp' hpc)⟩, hpc⟩
  | deletePeripheral c p ht' hnever =>
      subst ht'
      refine .remove hs _ _ _ fun c' hc' hused p₀ hp₀ hpc => ?_
      have hne := hok.ne rfl hnever hc' hused
      simp only [decide_eq_false_iff_not]
      exact fun heq => hne (hpc.symm.trans (ht.2 p₀ hp₀ heq))
  | nothing | createKit _ _ _ _ | updateKit _ _ | addMember _ _ | patchKitMembership _ _ _ _ _
  | deleteKitMembership _ _ _ => exact .of_eq rfl rfl

/-! ## Every run -/

/-- **A used configuration is frozen.** Take any run of requests from a store
without peripherals, and go on from any of its states. If in the rest of the
run no activation overtakes a request between its check and its write, then
whatever was used at that state has the same controller and the same
peripherals for as long as it exists. -/
theorem used_configuration_frozen (x : Crates) {s₀ : Store}
    (hstart : s₀.peripherals.rows = [])
    {ls₁ ls₂ : List (Sched Request Env)} {c₁ c₂ : Conc Store Task}
    (hrun₁ : Run.exec (api x).step ⟨s₀, []⟩ ls₁ = some c₁)
    (hrun₂ : Run.exec (api x).step c₁ ls₂ = some c₂)
    (hok : Run.Guarded (api x).step
      (Program.Ok (fun _ _ _ => True) fun _ t _ s => NotOvertaken t s) c₁ ls₂) :
    UsedUnchanged c₁.store c₂.store := by
  have h₀ : Coherent s₀ := by
    intro p hp
    rw [SerialTable.mem_def, hstart] at hp
    cases hp
  have h₁ : Program.Holds Coherent (fun s t => t.Coherent s) c₁ :=
    Program.holds_exec (api x) (fun _ _ _ => trivial)
      (fun e t ts s s' k hs ht hts h => coherent_advance hs ht hts h)
      ⟨h₀, fun _ h => by cases h⟩ hrun₁
  have h₂ : Program.Holds (fun s => Coherent s ∧ Frozen c₁.store s) (fun s t => t.Coherent s) c₂ :=
    Program.holds_exec_guarded (api x) (I := fun s => Coherent s ∧ Frozen c₁.store s)
      (T := fun s t => t.Coherent s) (fun _ _ _ _ _ => trivial)
      (fun e t ts s s' k hnot hs ht hts h =>
        have hco := coherent_advance hs.1 ht hts h
        ⟨⟨hco.1, hs.2.trans (frozen_change hs.1 ht hnot (api_change h))⟩, hco.2⟩)
      ⟨⟨h₁.1, .refl _⟩, h₁.2⟩ hok hrun₂
  exact h₂.1.2.usedUnchanged

/-! ## Two runs -/

/-- Two users and one peripheral definition. -/
def withDefinition : Store :=
  let definition := fun id => (⟨id, "camera", none, none, none, "", "", .null, none⟩ :
    PeripheralDefinition)
  { twoUsers with peripheralDefinitions := SerialTable.empty.insert definition fun _ => rfl }

/-- A kit with one configuration. -/
def configured : List (Sched Request Env) :=
  [.spawn (.createKit 1 ⟨some "greenhouse", none, none, none, true, true⟩),
   .run 0 { serial := "k-3b4c-6d7f-8g9h" },
   .spawn (.createConfiguration (some 1) "k-3b4c-6d7f-8g9h" (some none) none),
   .run 0 {}, .run 0 {}]

def addCamera : Sched Request Env :=
  .spawn (.onConfiguration (some 1) 1 (.addPeripheral ⟨1, "camera", .null⟩))

def activate : Sched Request Env :=
  .spawn (.onConfiguration (some 1) 1 (.patch ⟨none, none, none, none, some true⟩))

/-- The camera is added, and then the configuration is activated. -/
def orderly : List (Sched Request Env) :=
  configured ++ [addCamera, .run 0 {}, .run 0 {}, .run 0 {}, activate, .run 0 {}, .run 0 {},
    .run 0 { now := 7 }]

/-- The configuration is activated while the camera is still being added. -/
def overtaken : List (Sched Request Env) :=
  configured ++ [addCamera, .run 0 {}, .run 0 {}, activate, .run 1 {}, .run 1 {},
    .run 1 { now := 7 }]

/-- After the orderly run, a second camera is refused. -/
theorem used_configuration_frozen_orderly :
    ∃ c₁ c₂, Run.exec (api plainCrates).step ⟨withDefinition, []⟩ orderly = some c₁
      ∧ Run.exec (api plainCrates).step c₁ [addCamera, .run 0 {}, .run 0 {}, .run 0 {}] = some c₂
      ∧ c₂.store.peripherals.rows.length = 1
      ∧ UsedUnchanged c₁.store c₂.store := by
  have hrun : ∃ c₁ c₂,
      Run.exec (api plainCrates).step ⟨withDefinition, []⟩ orderly = some c₁
      ∧ Run.exec (api plainCrates).step c₁ [addCamera, .run 0 {}, .run 0 {}, .run 0 {}] = some c₂
      ∧ c₂.store.peripherals.rows.length = 1
      ∧ Run.Guarded (api plainCrates).step
          (Program.Ok (fun _ _ _ => True) fun _ t _ s => NotOvertaken t s) c₁
          [addCamera, .run 0 {}, .run 0 {}, .run 0 {}] :=
    ⟨_, _, rfl, rfl, rfl, by decide⟩
  obtain ⟨c₁, c₂, h₁, h₂, hone, hok⟩ := hrun
  exact ⟨c₁, c₂, h₁, h₂, hone, used_configuration_frozen plainCrates rfl h₁ h₂ hok⟩

/-- After the other run, the camera that was being added is still added, to a
configuration that is in use. -/
theorem used_configuration_changed :
    ∃ c₁ c₂, Run.exec (api plainCrates).step ⟨withDefinition, []⟩ overtaken = some c₁
      ∧ Run.exec (api plainCrates).step c₁ [.run 0 {}] = some c₂
      ∧ ¬UsedUnchanged c₁.store c₂.store := by
  refine ⟨_, _, rfl, rfl, fun h => ?_⟩
  have hsame := (h _ (List.mem_singleton.mpr rfl) rfl _ (List.mem_singleton.mpr rfl) rfl).2
  have hold := (hsame ⟨1, 1, 1, 1, "camera", .null⟩).mp ⟨List.mem_singleton.mpr rfl, rfl⟩
  exact absurd hold.1 List.not_mem_nil

end AstroPlant
