import AstroPlant.Api

/-!
# Ownership columns

A kit keeps its serial, a configuration its kit, and a peripheral its kit and
its configuration: no statement sets these columns, and ids are never reused
(`change_identity`). From that follows the coherence that the schema itself does
not enforce: a peripheral's kit is the kit of its configuration. Peripherals
are written with ids that were read in an earlier transaction, so coherence
needs an assertion about the rows a task carries with it.

What a task carries is such a row, or two of them, and its assertion says that
the ids in them belong together (`Task.Coherent`). It is stable because rows keep
their columns while they are there, and ids of rows that are gone are not given
again.
-/

namespace AstroPlant

/-- The columns that never change, for the rows that survive. -/
structure Identity (s s' : Store) : Prop where
  kits : s.kits.Keeps (fun k k' => k.serial = k'.serial) s'.kits
  configurations :
    s.kitConfigurations.Keeps (fun c c' => c.kitId = c'.kitId) s'.kitConfigurations
  peripherals : s.peripherals.Keeps (fun p p' =>
    (p.kitId, p.kitConfigurationId) = (p'.kitId, p'.kitConfigurationId)) s'.peripherals

namespace Identity

theorem refl (s : Store) : Identity s s where
  kits := .refl fun _ => rfl
  configurations := .refl fun _ => rfl
  peripherals := .refl fun _ => rfl

theorem trans {s s' s'' : Store} (h : Identity s s') (h' : Identity s' s'') :
    Identity s s'' where
  kits := h.kits.trans Eq.trans h'.kits
  configurations := h.configurations.trans Eq.trans h'.configurations
  peripherals := h.peripherals.trans Eq.trans h'.peripherals

theorem remove (s : Store) (d : Store.Doomed) : Identity s (s.remove d) where
  kits := .delete fun _ => rfl
  configurations := .delete fun _ => rfl
  peripherals := .delete fun _ => rfl

theorem queueMedia {now : Timestamp} {p : Media → Bool} {s s' : Store} {u : Unit}
    (h : (queueMedia now p).run s = .ok (u, s')) : Identity s s' := by
  rw [queueMedia_ok h]
  exact { refl s with }

end Identity

/-- **No request changes an ownership column.** -/
theorem change_identity {t : Task} {s s' : Store} (h : Change t s s') : Identity s s' := by
  cases h with
  | createKit userId new now hserial =>
      exact { Identity.refl s with kits := .insert (new.row_id now) fun _ => rfl }
  | updateKit u now =>
      exact { Identity.refl s with
        kits := .update (u.apply_id now) (fun _ => rfl) fun k _ _ => (u.apply_serial now k).symm }
  | deleteKit id now s₁ hqueue => exact (Identity.queueMedia hqueue).trans (.remove _ _)
  | deleteConfiguration id now s₁ hqueue =>
      exact (Identity.queueMedia hqueue).trans (.remove _ _)
  | deletePeripheral c p ht hnever => exact .remove _ _
  | createConfiguration new now hkit =>
      exact { Identity.refl s with configurations := .insert (new.row_id now) fun _ => rfl }
  | cloneConfiguration kit source now hkit =>
      exact { Identity.refl s with
        configurations := .insert (NewKitConfiguration.row_id _ now) fun _ => rfl
        peripherals := .insertAll (Peripheral.cloneRow_id _ _) fun _ => rfl }
  | patchConfiguration kit c patch now s₁ ht hfrozen hs₁ =>
      have h₁ : Identity s s₁ := by
        rcases hs₁ with rfl | rfl
        · exact .refl _
        · exact { Identity.refl s with
            configurations :=
              .update (KitConfiguration.deactivate_id now) (fun _ => rfl) fun _ _ _ => rfl }
      exact h₁.trans { Identity.refl s₁ with
        configurations :=
          .update (UpdateKitConfiguration.apply_id _ now) (fun _ => rfl) fun _ _ _ => rfl }
  | addPeripheral kit c body new ht hnever hkit hconf =>
      exact { Identity.refl s with peripherals := .insert new.row_id fun _ => rfl }
  | patchPeripheral c p patch u ht hnever hid =>
      exact { Identity.refl s with
        peripherals := .update u.apply_id (fun _ => rfl) fun _ _ _ => rfl }
  | deleteMedia id now s₁ hqueue => exact .queueMedia hqueue
  | nothing | addMember _ _ | patchKitMembership _ _ _ _ _ | deleteKitMembership _ _ _ =>
      exact { Identity.refl s with }

/-! ## Coherence -/

/-- Every peripheral names a configuration that was created before it, and
belongs to that configuration's kit. -/
def Coherent (s : Store) : Prop :=
  ∀ p ∈ s.peripherals, p.kitConfigurationId < s.kitConfigurations.next
    ∧ ∀ c ∈ s.kitConfigurations, c.id = p.kitConfigurationId → c.kitId = p.kitId

/-- The configuration with this id was seen, and belongs to this kit. -/
def ConfigurationOf (s : Store) (id kitId : Int) : Prop :=
  id < s.kitConfigurations.next ∧ ∀ c ∈ s.kitConfigurations, c.id = id → c.kitId = kitId

/-- The peripheral with this id was seen, and belongs to this configuration. -/
def PeripheralOf (s : Store) (id kitConfigurationId : Int) : Prop :=
  id < s.peripherals.next ∧ ∀ p ∈ s.peripherals, p.id = id →
    p.kitConfigurationId = kitConfigurationId

theorem ConfigurationOf.of_mem {s : Store} {c : KitConfiguration}
    (hc : c ∈ s.kitConfigurations) : ConfigurationOf s c.id c.kitId :=
  SerialTable.forall_key_of_mem KitConfiguration.kitId hc

theorem ConfigurationOf.keeps {s s' : Store} {id kitId : Int} (h : Identity s s')
    (hc : ConfigurationOf s id kitId) : ConfigurationOf s' id kitId :=
  h.configurations.forall_key hc

theorem PeripheralOf.of_mem {s : Store} {p : Peripheral} (hp : p ∈ s.peripherals) :
    PeripheralOf s p.id p.kitConfigurationId :=
  SerialTable.forall_key_of_mem Peripheral.kitConfigurationId hp

theorem PeripheralOf.keeps {s s' : Store} {id kitConfigurationId : Int} (h : Identity s s')
    (hp : PeripheralOf s id kitConfigurationId) : PeripheralOf s' id kitConfigurationId :=
  SerialTable.Keeps.forall_key
    (h.peripherals.mono fun {_ _} hpp => congrArg Prod.snd hpp) hp

/-- What a task knows of the rows it has read. -/
def Task.Coherent (s : Store) : Task → Prop
  | .authorizeConfiguration _ kit configuration _ | .onConfiguration kit configuration _ =>
      ConfigurationOf s configuration.id kit.id
  | .authorizePeripheral _ _ configuration peripheral _
  | .onPeripheral configuration peripheral _ => PeripheralOf s peripheral.id configuration.id
  | _ => True

theorem Task.Coherent.keeps {s s' : Store} (h : Identity s s') {t : Task}
    (ht : t.Coherent s) : t.Coherent s' := by
  cases t with
  | authorizeConfiguration _ _ _ _ | onConfiguration _ _ _ => exact ConfigurationOf.keeps h ht
  | authorizePeripheral _ _ _ _ _ | onPeripheral _ _ _ => exact PeripheralOf.keeps h ht
  | _ => trivial

/-- What is left of a task knows what it needs of the rows it has read. -/
theorem Task.Coherent.next {x : Crates} {e : Env} {t t' : Task} {s s' : Store}
    (ht : t.Coherent s) (h : (t.tx x e).run s = .ok (.inl t', s')) : t'.Coherent s' := by
  have hfollows := Task.tx_follows h
  obtain rfl := Task.tx_inl h
  cases hfollows with
  | readConfiguration userId kit c op hc hkit =>
      have hconf := ConfigurationOf.of_mem hc
      rwa [← hkit] at hconf
  | readPeripheral userId kit c p op hp hc =>
      have hper := PeripheralOf.of_mem hp
      rwa [← hc] at hper
  | authorizedConfiguration | authorizedPeripheral => exact ht
  | other _ _ hother =>
      cases t' with
      | authorizeConfiguration _ _ _ _ | onConfiguration _ _ _ => cases hother
      | authorizePeripheral _ _ _ _ _ | onPeripheral _ _ _ => cases hother
      | _ => trivial

theorem coherent_remove {s : Store} (hs : Coherent s) (d : Store.Doomed) :
    Coherent (s.remove d) := by
  intro p hp
  obtain ⟨hlt, hc⟩ := hs p (SerialTable.mem_delete.mp hp).1
  exact ⟨hlt, fun c hc' hid => hc c (SerialTable.mem_delete.mp hc').1 hid⟩

theorem coherent_queueMedia {now : Timestamp} {q : Media → Bool} {s s' : Store} {u : Unit}
    (hs : Coherent s) (h : (queueMedia now q).run s = .ok (u, s')) : Coherent s' := by
  rw [queueMedia_ok h]
  exact hs

/-- A step that changes no peripheral and no ownership column. -/
theorem coherent_of_identity {s s' : Store} (hs : Coherent s) (h : Identity s s')
    (hp : s'.peripherals = s.peripherals) : Coherent s' := by
  intro p hmem
  rw [hp] at hmem
  exact ConfigurationOf.keeps h (hs p hmem)

/-- **The step lemma.** A peripheral is inserted under a configuration of which
the task knows the kit, or under a configuration inserted with it. -/
theorem coherent_change {t : Task} {s s' : Store} (hs : Coherent s) (ht : t.Coherent s)
    (h : Change t s s') : Coherent s' := by
  have hkeep := change_identity h
  cases h with
  | deleteKit id now s₁ hqueue => exact coherent_remove (coherent_queueMedia hs hqueue) _
  | deleteConfiguration id now s₁ hqueue =>
      exact coherent_remove (coherent_queueMedia hs hqueue) _
  | deletePeripheral c p ht' hnever => exact coherent_remove hs _
  | deleteMedia id now s₁ hqueue => exact coherent_queueMedia hs hqueue
  | cloneConfiguration kit source now hkit =>
      intro p hp
      rcases SerialTable.mem_insertAll hp with hp | ⟨p₀, -, i, -, rfl⟩
      · exact ConfigurationOf.keeps hkeep (hs p hp)
      · exact ConfigurationOf.of_mem (NewKitConfiguration.mem_insert.mpr (Or.inr rfl))
  | addPeripheral kit c body new ht' hnever hkit hconf =>
      subst ht'
      intro p hp
      rcases NewPeripheral.mem_insert.mp hp with hp | rfl
      · exact hs p hp
      · have hof : ConfigurationOf s c.id kit.id := ht
        rw [← hkit, ← hconf] at hof
        exact hof
  | patchPeripheral c p patch u ht' hnever hid =>
      intro p' hp'
      obtain ⟨p₀, hp₀, rfl⟩ := UpdatePeripheral.mem_applyTo.mp hp'
      split
      · exact hs p₀ hp₀
      · exact hs p₀ hp₀
  | patchConfiguration kit c patch now s₁ ht' hfrozen hs₁ =>
      rcases hs₁ with rfl | rfl
      · exact coherent_of_identity hs hkeep rfl
      · exact coherent_of_identity hs hkeep rfl
  | nothing | createKit _ _ _ _ | updateKit _ _ | addMember _ _ | patchKitMembership _ _ _ _ _
  | deleteKitMembership _ _ _ | createConfiguration _ _ _ =>
      exact coherent_of_identity hs hkeep rfl

/-- One step of the program, for the store, for the task that takes it and for
every other task. -/
theorem coherent_advance {x : Crates} {e : Env} {t : Task} {ts : List Task} {s s' : Store}
    {k : Option Task} (hs : Coherent s) (ht : t.Coherent s) (hts : ∀ u ∈ ts, u.Coherent s)
    (h : (api x).advance e t ts s = some (s', k)) :
    Coherent s' ∧ (∀ t' ∈ k, t'.Coherent s') ∧ ∀ u ∈ ts, u.Coherent s' := by
  have hchange := api_change h
  refine ⟨coherent_change hs ht hchange, ?_, fun u hu =>
    (hts u hu).keeps (change_identity hchange)⟩
  rintro t' ht'
  rcases api_advance h with ⟨-, rfl⟩ | ⟨n, hr, rfl⟩
  · cases ht'
  · cases n with
    | inl t₁ =>
        obtain rfl := Option.some.inj ht'
        exact ht.next hr
    | inr r => cases ht'

end AstroPlant
