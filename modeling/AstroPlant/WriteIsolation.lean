import AstroPlant.OwnedRows

/-!
# Writes stay within one kit

An operation on a kit asks for permission on one kit, and then writes rows that
it selects by serial, by id, or through what the foreign keys cascade to. These
rows all belong to the kit on which permission was granted
(`writes_isolated`). Two things are needed of the store: that the ownership
columns agree (`Owned`), so that a cascade stays within a kit, and that serials
are unique, since permission on a configuration or a peripheral is asked by the
serial of the kit that it was found in.

`Isolated k` says that two stores agree on everything that is not of the kit `k`,
table by table (`Outside`). It is a preorder, and each statement has one lemma
about it: a statement is isolated to `k` if the row it writes is of `k`.
`Task.Touches k` is the assertion about what a task carries: the rows it has read
are of `k`. It is established by the check (`isolated_of_permitted`), kept by
reading on (`Task.Touches.next`), and used where the task writes
(`Task.Touches.isolated`).
-/

namespace AstroPlant

/-! ## Rows of one owner -/

/-- The rows that do not belong to `k` are the same. -/
def Outside {ρ : Type} (owner : ρ → Int) (k : Int) (rows rows' : List ρ) : Prop :=
  ∀ r, owner r ≠ k → (r ∈ rows' ↔ r ∈ rows)

namespace Outside

variable {ρ : Type} {owner : ρ → Int} {k : Int} {rows rows' rows'' : List ρ}

theorem refl : Outside owner k rows rows := fun _ _ => Iff.rfl

theorem trans (h : Outside owner k rows rows') (h' : Outside owner k rows' rows'') :
    Outside owner k rows rows'' := fun r hr => (h' r hr).trans (h r hr)

theorem intro (hnew : ∀ r ∈ rows', r ∈ rows ∨ owner r = k)
    (hold : ∀ r ∈ rows, r ∈ rows' ∨ owner r = k) : Outside owner k rows rows' := by
  intro r hr
  constructor
  · intro h
    exact (hnew r h).resolve_right hr
  · intro h
    exact (hold r h).resolve_right hr

theorem append {new : List ρ} (h : ∀ r ∈ new, owner r = k) :
    Outside owner k rows (rows ++ new) := by
  refine intro (fun r hr => ?_) fun r hr => Or.inl (List.mem_append_left _ hr)
  rcases List.mem_append.mp hr with hr | hr
  · exact Or.inl hr
  · exact Or.inr (h r hr)

theorem delete {p : ρ → Bool} (h : ∀ r ∈ rows, p r = true → owner r = k) :
    Outside owner k rows (rows.filter fun r => !p r) := by
  refine intro (fun r hr => Or.inl (List.mem_filter.mp hr).1) fun r hr => ?_
  cases hp : p r with
  | false => exact Or.inl (List.mem_filter.mpr ⟨hr, by simp [hp]⟩)
  | true => exact Or.inr (h r hr hp)

theorem update {p : ρ → Bool} {f : ρ → ρ} (h : ∀ r ∈ rows, p r = true → owner r = k)
    (hf : ∀ r, owner (f r) = owner r) :
    Outside owner k rows (rows.map fun r => if p r then f r else r) := by
  refine intro (fun r hr => ?_) fun r hr => ?_
  · obtain ⟨r₀, hr₀, rfl⟩ := List.mem_map.mp hr
    split
    · rename_i hp
      exact Or.inr ((hf r₀).trans (h r₀ hr₀ hp))
    · exact Or.inl hr₀
  · cases hp : p r with
    | false => exact Or.inl (List.mem_map.mpr ⟨r, hr, by simp [hp]⟩)
    | true => exact Or.inr (h r hr hp)

end Outside

/-- Every row that is inserted, changed or deleted belongs to the kit: what
belongs to other kits is the same, table by table. -/
structure Isolated (kitId : Int) (s s' : Store) : Prop where
  kits : Outside Kit.id kitId s.kits.rows s'.kits.rows
  kitMemberships : Outside KitMembership.kitId kitId s.kitMemberships.rows s'.kitMemberships.rows
  kitConfigurations :
    Outside KitConfiguration.kitId kitId s.kitConfigurations.rows s'.kitConfigurations.rows
  peripherals : Outside Peripheral.kitId kitId s.peripherals.rows s'.peripherals.rows
  media : Outside Media.kitId kitId s.media.rows s'.media.rows
  rawMeasurements :
    Outside RawMeasurement.kitId kitId s.rawMeasurements.rows s'.rawMeasurements.rows
  aggregateMeasurements : Outside AggregateMeasurement.kitId kitId s.aggregateMeasurements.rows
    s'.aggregateMeasurements.rows
  kitLastSeen : Outside KitLastSeen.kitId kitId s.kitLastSeen.rows s'.kitLastSeen.rows

namespace Isolated

variable {kitId : Int} {s s' s'' : Store}

theorem refl (kitId : Int) (s : Store) : Isolated kitId s s :=
  ⟨.refl, .refl, .refl, .refl, .refl, .refl, .refl, .refl⟩

theorem trans (h : Isolated kitId s s') (h' : Isolated kitId s' s'') : Isolated kitId s s'' where
  kits := h.kits.trans h'.kits
  kitMemberships := h.kitMemberships.trans h'.kitMemberships
  kitConfigurations := h.kitConfigurations.trans h'.kitConfigurations
  peripherals := h.peripherals.trans h'.peripherals
  media := h.media.trans h'.media
  rawMeasurements := h.rawMeasurements.trans h'.rawMeasurements
  aggregateMeasurements := h.aggregateMeasurements.trans h'.aggregateMeasurements
  kitLastSeen := h.kitLastSeen.trans h'.kitLastSeen

/-! ## One statement -/

theorem insertMembership (new : NewKitMembership) (s : Store) :
    Isolated new.kitId s (new.insert s) :=
  { refl _ s with
    kitMemberships := .append fun r hr => by rw [List.mem_singleton.mp hr]; rfl }

theorem updateAccess {m : KitMembership} (hm : m ∈ s.kitMemberships) (accessSuper : Bool)
    (accessConfigure : Bool) :
    Isolated m.kitId s (KitMembership.updateAccess m.id accessSuper accessConfigure s) := by
  refine { refl _ s with kitMemberships := .update (fun r hr hid => ?_) fun _ => rfl }
  rw [SerialTable.eq_of_key_eq hr hm (of_decide_eq_true hid)]

theorem deleteMembership {m : KitMembership} (hm : m ∈ s.kitMemberships) :
    Isolated m.kitId s (KitMembership.deleteFrom m.id s) := by
  refine { refl _ s with kitMemberships := .delete fun r hr hid => ?_ }
  rw [SerialTable.eq_of_key_eq hr hm (of_decide_eq_true hid)]

theorem updateKit (u : UpdateKit) (now : Timestamp) (s : Store) :
    Isolated u.id s (u.applyTo now s) :=
  { refl _ s with kits := .update (fun _ _ hid => of_decide_eq_true hid) fun _ => rfl }

theorem insertConfiguration (new : NewKitConfiguration) (now : Timestamp) (s : Store) :
    Isolated new.kitId s (new.insert now s) :=
  { refl _ s with
    kitConfigurations := .append fun r hr => by rw [List.mem_singleton.mp hr]; rfl }

theorem clonePeripherals (fromId kitId configurationId : Int) (s : Store) :
    Isolated kitId s (Peripheral.cloneAll fromId kitId configurationId s) := by
  refine { refl _ s with peripherals := .intro (fun p hp => ?_) fun p hp => ?_ }
  · rcases SerialTable.mem_insertAll hp with hp | ⟨p₀, -, i, -, rfl⟩
    · exact Or.inl hp
    · exact Or.inr rfl
  · exact Or.inl (SerialTable.mem_insertAll_of_mem hp)

theorem deactivateAll (kitId : Int) (now : Timestamp) (s : Store) :
    Isolated kitId s (KitConfiguration.deactivateAll kitId now s) :=
  { refl _ s with
    kitConfigurations := .update (fun _ _ hc => of_decide_eq_true hc) fun _ => rfl }

theorem updateConfiguration {u : UpdateKitConfiguration}
    (hu : ∀ c ∈ s.kitConfigurations, c.id = u.id → c.kitId = kitId) (now : Timestamp) :
    Isolated kitId s (u.applyTo now s) :=
  { refl _ s with
    kitConfigurations := .update (fun c hc hid => hu c hc (of_decide_eq_true hid)) fun _ => rfl }

theorem insertPeripheral (new : NewPeripheral) (s : Store) :
    Isolated new.kitId s (new.insert s) :=
  { refl _ s with
    peripherals := .append fun r hr => by rw [List.mem_singleton.mp hr]; rfl }

theorem updatePeripheral {u : UpdatePeripheral}
    (hu : ∀ p ∈ s.peripherals, p.id = u.id → p.kitId = kitId) : Isolated kitId s (u.applyTo s) :=
  { refl _ s with
    peripherals := .update (fun p hp hid => hu p hp (of_decide_eq_true hid)) fun _ => rfl }

theorem queueMedia {now : Timestamp} {p : Media → Bool} {u : Unit}
    (hp : ∀ m ∈ s.media, p m = true → m.kitId = kitId)
    (h : (queueMedia now p).run s = .ok (u, s')) : Isolated kitId s s' := by
  rw [queueMedia_ok h]
  exact { refl _ s with media := .delete hp }

/-- **A cascade stays within the kit** that the selected rows belong to. -/
theorem remove (hs : Owned s) {kit : Kit → Bool} {configuration : KitConfiguration → Bool}
    {peripheral : Peripheral → Bool} (hk : ∀ k ∈ s.kits, kit k = true → k.id = kitId)
    (hc : ∀ c ∈ s.kitConfigurations, configuration c = true → c.kitId = kitId)
    (hp : ∀ p ∈ s.peripherals, peripheral p = true → p.kitId = kitId) :
    Isolated kitId s (s.remove (s.doomed kit configuration peripheral)) := by
  -- level by level: kits, configurations, peripherals, and what was measured
  have hkitId : ∀ id, (s.doomed kit configuration peripheral).kitId s id = true → id = kitId := by
    intro id h
    obtain ⟨k, hmem, h⟩ := List.any_eq_true.mp h
    simp only [Store.doomed, Bool.and_eq_true, beq_iff_eq] at h
    rw [← h.2]
    exact hk k hmem h.1
  have hconfiguration : ∀ c ∈ s.kitConfigurations,
      (s.doomed kit configuration peripheral).configuration c = true → c.kitId = kitId := by
    intro c hmem h
    rcases Bool.or_eq_true_iff.mp h with h | h
    · exact hc c hmem h
    · exact hkitId c.kitId h
  have hconfigurationId : ∀ c ∈ s.kitConfigurations,
      (s.doomed kit configuration peripheral).configurationId s c.id = true → c.kitId = kitId := by
    intro c hmem h
    obtain ⟨c', hmem', h⟩ := List.any_eq_true.mp h
    simp only [Bool.and_eq_true, beq_iff_eq] at h
    rw [← SerialTable.eq_of_key_eq hmem' hmem h.2]
    exact hconfiguration c' hmem' h.1
  have hperipheral : ∀ p ∈ s.peripherals,
      (s.doomed kit configuration peripheral).peripheral p = true → p.kitId = kitId := by
    intro p hmem h
    rcases Bool.or_eq_true_iff.mp h with h | h
    · rcases Bool.or_eq_true_iff.mp h with h | h
      · exact hp p hmem h
      · exact hkitId p.kitId h
    · obtain ⟨c, hcmem, hid, hckit⟩ := hs.peripherals p hmem
      rw [← hckit]
      refine hconfigurationId c hcmem ?_
      rw [hid]
      exact h
  have hrefers : ∀ {peripheralId kitId' configurationId : Int},
      s.Owns peripheralId kitId' configurationId →
      (s.doomed kit configuration peripheral).refers s peripheralId kitId' configurationId = true →
      kitId' = kitId := by
    rintro peripheralId kitId' configurationId ⟨p, hmem, rfl, rfl, rfl⟩ h
    rcases Bool.or_eq_true_iff.mp h with h | h
    · rcases Bool.or_eq_true_iff.mp h with h | h
      · obtain ⟨p', hmem', h⟩ := List.any_eq_true.mp h
        simp only [Bool.and_eq_true, beq_iff_eq] at h
        rw [← SerialTable.eq_of_key_eq hmem' hmem h.2]
        exact hperipheral p' hmem' h.1
      · exact hkitId p.kitId h
    · obtain ⟨c, hcmem, hid, hckit⟩ := hs.peripherals p hmem
      rw [← hckit]
      refine hconfigurationId c hcmem ?_
      rw [hid]
      exact h
  exact {
    kits := .delete hk
    kitMemberships := .delete fun m _ h => hkitId m.kitId h
    kitConfigurations := .delete hconfiguration
    peripherals := .delete hperipheral
    media := .refl
    rawMeasurements := .delete fun m hm h => hrefers (hs.rawMeasurements m hm) h
    aggregateMeasurements := .delete fun m hm h => hrefers (hs.aggregateMeasurements m hm) h
    kitLastSeen := .delete fun l _ h => hkitId l.kitId h }

end Isolated

/-! ## Operations -/

/-- The acting user. -/
def Request.actor : Request → Option Int
  | .createKit userId _ => some userId
  | .patchKit userId _ _ | .resetPassword userId _ | .deleteKit userId _ | .addMember userId _ _
  | .patchKitMembership userId _ _ | .deleteKitMembership userId _
  | .createConfiguration userId _ _ _ | .onConfiguration userId _ _ | .onPeripheral userId _ _
  | .deleteMedia userId _ => userId

/-- The permission that an operation on a kit requires: the action, and the kit
on which it is checked, found the way the handler finds it. Creating a kit
requires none. -/
def Request.check (s : Store) : Request → Option (KitAction × Kit)
  | .createKit _ _ => none
  | .patchKit _ kitSerial _ => (Kit.bySerial kitSerial s).map (.editDetails, ·)
  | .resetPassword _ kitSerial => (Kit.bySerial kitSerial s).map (.resetPassword, ·)
  | .deleteKit _ kitSerial => (Kit.bySerial kitSerial s).map (.delete, ·)
  | .addMember _ kitSerial member => (Kit.bySerial kitSerial s).map (member.action, ·)
  | .patchKitMembership _ id patch => do
      let membership ← KitMembership.byId id s
      let kit ← Kit.byId membership.kitId s
      return (patch.action membership, kit)
  | .deleteKitMembership _ id => do
      let membership ← KitMembership.byId id s
      let kit ← Kit.byId membership.kitId s
      return (if membership.accessSuper then .editSuperMembers else .editMembers, kit)
  | .createConfiguration _ kitSerial _ _ =>
      (Kit.bySerial kitSerial s).map (.editConfiguration, ·)
  | .onConfiguration _ id _ => do
      let configuration ← KitConfiguration.byId id s
      let kit ← Kit.byId configuration.kitId s
      let kit ← Kit.bySerial kit.serial s
      return (.editConfiguration, kit)
  | .onPeripheral _ id _ => do
      let peripheral ← Peripheral.byId id s
      let kit ← Kit.byId peripheral.kitId s
      let kit ← Kit.bySerial kit.serial s
      return (.editConfiguration, kit)
  | .deleteMedia _ id => do
      let kit ← kitOfMedia id s
      let kit ← Kit.bySerial kit.serial s
      return (.deleteMedia, kit)

/-- The check of the operation grants its actor the action on the kit. -/
def Request.Granted (s : Store) (r : Request) (kit : Kit) : Prop :=
  ∃ action, r.check s = some (action, kit)
    ∧ action.permitted (.ofModels (r.actor.bind (User.byId · s))
      (membershipOf r.actor kit.id s)) kit = true

/-- A task that runs alone to the answer of its request, one step after another;
each step has what the environment decides in it. -/
def Task.runAlone (x : Crates) : List Env → Task → Store → Option (Reply × Store)
  | [], _, _ => none
  | e :: es, t, s =>
      match (t.tx x e).run s with
      | .error _ => none
      | .ok (.inr reply, s') => some (reply, s')
      | .ok (.inl t', s') => runAlone x es t' s'

/-- This is a run of the program. -/
theorem Task.exec_runAlone {x : Crates} {es : List Env} {t : Task} {s s' : Store} {r : Reply}
    (h : t.runAlone x es s = some (r, s')) :
    ∃ ls, Run.exec (api x).step ⟨s, [t]⟩ ls = some ⟨s', []⟩ := by
  induction es generalizing t s with
  | nil => cases h
  | cons e es ih =>
      simp only [runAlone] at h
      split at h
      · cases h
      · rename_i reply s₁ hr
        cases h
        have hadv : (api x).advance e t [] s = some (s', none) := by
          simp only [api, Tx.commit, hr, next]
        exact ⟨[.run 0 e], Program.exec_run_alone hadv⟩
      · rename_i t' s₁ hr
        obtain ⟨ls, hls⟩ := ih h
        have hadv : (api x).advance e t [] s = some (s₁, some t') := by
          simp only [api, Tx.commit, hr, next]
        exact ⟨.run 0 e :: ls, (Program.exec_run_alone hadv).trans hls⟩

theorem Task.runAlone_cases {x : Crates} {es : List Env} {t : Task} {s s' : Store} {r : Reply}
    (h : t.runAlone x es s = some (r, s')) :
    ∃ e es', es = e :: es' ∧ ((t.tx x e).run s = .ok (.inr r, s')
      ∨ ∃ t', (t.tx x e).run s = .ok (.inl t', s) ∧ t'.runAlone x es' s = some (r, s')) := by
  cases es with
  | nil => cases h
  | cons e es =>
      refine ⟨e, es, rfl, ?_⟩
      simp only [runAlone] at h
      split at h
      · cases h
      · rename_i reply s₁ hr
        cases h
        exact Or.inl hr
      · rename_i t' s₁ hr
        obtain rfl := Task.tx_inl hr
        exact Or.inr ⟨t', hr, h⟩

/-! ## Steps of an operation -/

/-- The rows that the task has read, and writes by, belong to the kit. -/
def Task.Touches (s : Store) (kitId : Int) : Task → Prop
  | .start _ => False
  | .patchKit kit _ | .resetPassword kit | .deleteKit kit | .lastSeen kit _ | .addMember kit _ _
  | .createNewConfiguration kit _ | .cloneModels _ kit _ | .cloneAuthorize _ kit _ _
  | .cloneConfiguration kit _ => kit.id = kitId
  | .authorizeConfiguration _ kit c _ | .onConfiguration kit c _ =>
      kit.id = kitId ∧ ∀ c' ∈ s.kitConfigurations, c'.id = c.id → c'.kitId = kitId
  | .authorizePeripheral _ _ _ p _ | .onPeripheral _ p _ =>
      ∀ p' ∈ s.peripherals, p'.id = p.id → p'.kitId = kitId
  | .authorizeMedia _ _ id | .deleteMedia id => ∀ m ∈ s.media, m.id = id → m.kitId = kitId

theorem Task.Touches.next {x : Crates} {e : Env} {t t' : Task} {s s' : Store} {kitId : Int}
    (ht : t.Touches s kitId) (h : (t.tx x e).run s = .ok (.inl t', s')) : t'.Touches s' kitId := by
  obtain rfl := Task.tx_inl h
  cases t with
  | start r => cases ht
  | cloneModels userId kit source =>
      obtain ⟨m, s₁, task, -, h, hn⟩ := andThen_ok h
      split at h
      · obtain ⟨rfl, -⟩ := Tx.run_pure_ok.mp h
        cases hn
        exact ht
      · obtain ⟨rfl, -⟩ := Tx.run_pure_ok.mp h
        cases hn
        exact ht
  | lastSeen _ _ | cloneAuthorize _ _ _ _ | authorizeConfiguration _ _ _ _
  | authorizePeripheral _ _ _ _ _ | authorizeMedia _ _ _ =>
      obtain ⟨m, s₁, task, -, h, hn⟩ := andThen_ok h
      obtain ⟨rfl, -⟩ := Tx.run_pure_ok.mp h
      cases hn
      exact ht
  | patchKit _ _ | resetPassword _ | deleteKit _ | addMember _ _ _
  | createNewConfiguration _ _ | cloneConfiguration _ _ | onConfiguration _ _ _
  | onPeripheral _ _ _ | deleteMedia _ => exact absurd h finish_not_inl

theorem ConfigurationOp.isolated {x : Crates} {e : Env} {kit : Kit}
    {configuration : KitConfiguration} {op : ConfigurationOp} {s s' : Store} {r : Reply}
    (hs : Owned s) (ht : ∀ c ∈ s.kitConfigurations, c.id = configuration.id → c.kitId = kit.id)
    (h : (op.tx x e kit configuration).run s = .ok (r, s')) : Isolated kit.id s s' := by
  cases op with
  | patch change =>
      obtain ⟨-, s₁, hs₁, -, rfl⟩ := patchConfiguration_ok h
      have h₁ : Isolated kit.id s s₁ := by
        rcases hs₁ with rfl | rfl
        · exact .refl _ _
        · exact .deactivateAll kit.id e.now s
      refine h₁.trans (.updateConfiguration (fun c hc hid => ?_) e.now)
      rcases hs₁ with rfl | rfl
      · exact ht c hc hid
      · obtain ⟨c₀, hc₀, rfl⟩ := SerialTable.mem_update.mp hc
        split
        · exact of_decide_eq_true ‹_›
        · rw [if_neg ‹_›] at hid
          exact ht c₀ hc₀ hid
  | delete =>
      obtain ⟨s₁, hqueue, rfl⟩ := deleteConfiguration_ok h
      have hs₁ := owned_queueMedia hs hqueue
      have hconf : ∀ c ∈ s₁.kitConfigurations, c.id = configuration.id → c.kitId = kit.id := by
        rw [queueMedia_ok hqueue]
        exact ht
      refine Isolated.trans (.queueMedia (fun m hm hid => ?_) hqueue)
        (.remove hs₁ (fun _ _ h => by cases h) (fun c hc hid => hconf c hc (of_decide_eq_true hid))
          fun _ _ h => by cases h)
      obtain ⟨p, hp, -, hkit, hconfiguration⟩ := hs.media m hm
      obtain ⟨c, hc, hcid, hckit⟩ := hs.peripherals p hp
      rw [← hkit, ← hckit]
      exact ht c hc ((hcid.trans hconfiguration).trans (of_decide_eq_true hid))
  | addPeripheral peripheral =>
      obtain ⟨-, new, -, hkit, -, -, -, -, -, rfl⟩ := addPeripheralToConfiguration_ok h
      rw [← hkit]
      exact .insertPeripheral new s

theorem PeripheralOp.isolated {x : Crates} {configuration : KitConfiguration}
    {peripheral : Peripheral} {op : PeripheralOp} {s s' : Store} {r : Reply} {kitId : Int}
    (hs : Owned s) (ht : ∀ p ∈ s.peripherals, p.id = peripheral.id → p.kitId = kitId)
    (h : (op.tx x configuration peripheral).run s = .ok (r, s')) : Isolated kitId s s' := by
  cases op with
  | patch change =>
      obtain ⟨-, u, -, hid, -, -, -, -, rfl⟩ := patchPeripheral_ok h
      rw [← hid] at ht
      exact .updatePeripheral ht
  | delete =>
      obtain ⟨-, rfl⟩ := deletePeripheral_ok h
      exact .remove hs (fun _ _ h => by cases h) (fun _ _ h => by cases h)
        fun p hp hid => ht p hp (of_decide_eq_true hid)

/-- **The step lemma.** What a task writes belongs to the kit of the rows it has
read. -/
theorem Task.Touches.isolated {x : Crates} {e : Env} {t : Task} {s s' : Store} {kitId : Int}
    {r : Reply} (hs : Owned s) (ht : t.Touches s kitId)
    (h : (t.tx x e).run s = .ok (.inr r, s')) : Isolated kitId s s' := by
  cases t with
  | start r => cases ht
  | lastSeen _ _ | cloneModels _ _ _ | cloneAuthorize _ _ _ _ | authorizeConfiguration _ _ _ _
  | authorizePeripheral _ _ _ _ _ | authorizeMedia _ _ _ => exact absurd h andThen_not_inr
  | patchKit kit patch =>
      obtain rfl := ht
      obtain ⟨_, h, -⟩ := finish_ok h
      obtain ⟨u, hid, rfl⟩ := patchKit_ok h
      rw [← hid]
      exact .updateKit u e.now s
  | resetPassword kit =>
      obtain rfl := ht
      obtain ⟨_, h, -⟩ := finish_ok h
      obtain ⟨u, hid, rfl⟩ := resetPassword_ok h
      rw [← hid]
      exact .updateKit u e.now s
  | deleteKit kit =>
      obtain rfl := ht
      obtain ⟨_, h, -⟩ := finish_ok h
      obtain ⟨s₁, hqueue, rfl⟩ := deleteKit_ok h
      exact Isolated.trans (.queueMedia (fun m _ hid => of_decide_eq_true hid) hqueue)
        (.remove (owned_queueMedia hs hqueue) (fun k _ hid => of_decide_eq_true hid)
          (fun _ _ h => by cases h) fun _ _ h => by cases h)
  | addMember kit kitLastSeen member =>
      obtain rfl := ht
      obtain ⟨_, h, -⟩ := finish_ok h
      rcases addMember_ok h with rfl | ⟨user, -, -, -, rfl⟩
      · exact .refl _ _
      · exact .insertMembership (member.new user.id kit.id e.now) s
  | createNewConfiguration kit description =>
      obtain rfl := ht
      obtain ⟨_, h, -⟩ := finish_ok h
      obtain ⟨-, rfl⟩ := createNewConfiguration_ok h
      exact .insertConfiguration (NewKitConfiguration.new kit.id description) e.now s
  | cloneConfiguration kit source =>
      obtain rfl := ht
      obtain ⟨_, h, -⟩ := finish_ok h
      obtain ⟨-, rfl⟩ := cloneConfiguration_ok h
      exact Isolated.trans (.insertConfiguration (cloneOf kit source) e.now s)
        (.clonePeripherals source.id kit.id s.kitConfigurations.next _)
  | onConfiguration kit configuration op =>
      obtain ⟨rfl, hconf⟩ := ht
      obtain ⟨_, h, -⟩ := finish_ok h
      exact ConfigurationOp.isolated hs hconf h
  | onPeripheral configuration peripheral op =>
      obtain ⟨_, h, -⟩ := finish_ok h
      exact PeripheralOp.isolated hs ht h
  | deleteMedia id =>
      obtain ⟨_, h, -⟩ := finish_ok h
      obtain ⟨_, s₁, h₁, h⟩ := Tx.run_bind_ok.mp h
      obtain ⟨-, rfl⟩ := Tx.run_pure_ok.mp h
      exact .queueMedia (fun m hm hid => ht m hm (of_decide_eq_true hid)) (run_db_ok.mp h₁)

theorem Task.Touches.runAlone {x : Crates} {es : List Env} {t : Task} {s s' : Store}
    {kitId : Int} {r : Reply} (hs : Owned s) (ht : t.Touches s kitId)
    (h : t.runAlone x es s = some (r, s')) : Isolated kitId s s' := by
  induction es generalizing t with
  | nil => cases h
  | cons e es ih =>
      obtain ⟨e, es', hes, h | ⟨t', h, hrest⟩⟩ := Task.runAlone_cases h
      · exact ht.isolated hs h
      · cases hes
        exact ih (ht.next h) hrest

/-! ## Serials are unique -/

def UniqueSerials (s : Store) : Prop :=
  ∀ k ∈ s.kits, ∀ k' ∈ s.kits, k.serial = k'.serial → k = k'

theorem UniqueSerials.bySerial {s : Store} (hs : UniqueSerials s) {k : Kit} (hk : k ∈ s.kits) :
    Kit.bySerial k.serial s = some k := by
  cases hfound : Kit.bySerial k.serial s with
  | none =>
      have hnone := List.find?_eq_none.mp hfound k hk
      simp at hnone
  | some k' =>
      have hserial := List.find?_some hfound
      simp only [decide_eq_true_eq] at hserial
      rw [hs k' (List.mem_of_find?_eq_some hfound) k hk hserial]

theorem uniqueSerials_of_subset {s s' : Store} (hs : UniqueSerials s)
    (h : ∀ k ∈ s'.kits, k ∈ s.kits) : UniqueSerials s' :=
  fun k hk k' hk' hserial => hs k (h k hk) k' (h k' hk') hserial

theorem uniqueSerials_change {t : Task} {s s' : Store} (hs : UniqueSerials s)
    (h : Change t s s') : UniqueSerials s' := by
  cases h with
  | createKit userId new now hserial =>
      intro k hk k' hk' heq
      rcases NewKit.mem_insert.mp hk with hk | rfl
      · rcases NewKit.mem_insert.mp hk' with hk' | rfl
        · exact hs k hk k' hk' heq
        · exact absurd heq (hserial k hk)
      · rcases NewKit.mem_insert.mp hk' with hk' | rfl
        · exact absurd heq.symm (hserial k' hk')
        · rfl
  | updateKit u now =>
      intro k hk k' hk' heq
      obtain ⟨k₀, hk₀, rfl⟩ := UpdateKit.mem_applyTo.mp hk
      obtain ⟨k₀', hk₀', rfl⟩ := UpdateKit.mem_applyTo.mp hk'
      have hsame : k₀ = k₀' := by
        refine hs k₀ hk₀ k₀' hk₀' ?_
        split at heq <;> split at heq <;> exact heq
      rw [hsame]
  | deleteKit id now s₁ hqueue =>
      refine uniqueSerials_of_subset hs fun k hk => ?_
      have hk₁ := (SerialTable.mem_delete.mp hk).1
      rw [queueMedia_ok hqueue] at hk₁
      exact hk₁
  | deleteConfiguration id now s₁ hqueue =>
      refine uniqueSerials_of_subset hs fun k hk => ?_
      have hk₁ := (SerialTable.mem_delete.mp hk).1
      rw [queueMedia_ok hqueue] at hk₁
      exact hk₁
  | deletePeripheral c p ht hnever =>
      exact uniqueSerials_of_subset hs fun k hk => (SerialTable.mem_delete.mp hk).1
  | deleteMedia id now s₁ hqueue =>
      rw [queueMedia_ok hqueue]
      exact hs
  | patchConfiguration kit c patch now s₁ ht hfrozen hs₁ =>
      rcases hs₁ with rfl | rfl
      · exact hs
      · exact hs
  | _ => exact hs

theorem Ingest.kits (e : ServiceEnv) (s : Services) (i : Ingest) :
    (i.advance e s).1.store.kits = s.store.kits := by
  cases i with
  | start raw =>
      simp only [advance]
      split <;> rfl
  | query raw => rfl
  | queried raw res => cases res <;> rfl
  | insert raw config =>
      simp only [advance]
      split
      · rename_i s' hins
        cases raw with
        | raw m =>
            obtain ⟨store, hstore, rfl⟩ := Option.map_eq_some_iff.mp hins
            obtain ⟨-, _, rfl⟩ := Store.insertRawMeasurement_eq_some hstore
            rfl
        | aggregate m =>
            obtain ⟨store, hstore, rfl⟩ := Option.map_eq_some_iff.mp hins
            obtain ⟨-, _, rfl⟩ := Store.insertAggregateMeasurement_eq_some hstore
            rfl
      · rfl
  | lastSeen config =>
      simp only [advance]
      split
      · rename_i store hup
        obtain ⟨_, rfl⟩ := Store.upsertKitLastSeen_eq_some hup
        rfl
      · rfl

theorem uniqueSerials_advance {x : Crates} {e : ServiceEnv} {t : ServiceTask}
    {ts : List ServiceTask} {s s' : Services} {k : Option ServiceTask}
    (hs : UniqueSerials s.store) (h : (services x).advance e t ts s = some (s', k)) :
    UniqueSerials s'.store := by
  cases t with
  | api task =>
      obtain ⟨store, next, hr, rfl, -⟩ := services_api h
      exact uniqueSerials_change hs (api_change hr)
  | upload u =>
      obtain ⟨next, hu, -⟩ := services_upload h
      rcases Upload.store_cases hu with heq | ⟨_, _, _, -, -, heq⟩
      · rw [heq]
        exact hs
      · rw [heq]
        exact hs
  | ingest i =>
      obtain ⟨next, hi, -⟩ := services_ingest h
      have hkits := i.kits e s
      rw [hi] at hkits
      unfold UniqueSerials
      rw [hkits]
      exact hs

theorem uniqueSerials_exec {x : Crates} {s₀ : Store} {ls : List (Sched ServiceRequest ServiceEnv)}
    {c : Conc Services ServiceTask} (hserials : UniqueSerials s₀)
    (hrun : Run.exec (services x).step ⟨.start s₀, []⟩ ls = some c) :
    UniqueSerials c.store.store :=
  Program.store_exec (services x) (I := fun s => UniqueSerials s.store)
    (fun _ _ _ _ _ _ hs hadv => uniqueSerials_advance hs hadv) hserials hrun

/-! ## Operations write within the kit they were permitted on -/

variable {x : Crates} {s s' : Store} {es : List Env} {reply : Reply}

theorem isolated_of_permitted {r : Request} {kitSerial : String} {action : KitAction}
    (next : Kit → Tx Store Problem Task) (hs : Owned s)
    (htx : ∀ e, (Task.start r).tx x e = permitted r.actor kitSerial action next)
    (hcheck : r.check s = (Kit.bySerial kitSerial s).map (action, ·))
    (hnext : ∀ kit t' s', (next kit).run s = .ok (t', s') → t'.Touches s kit.id)
    (hop : (Task.start r).runAlone x es s = some (reply, s')) :
    ∃ kit, r.Granted s kit ∧ Isolated kit.id s s' := by
  obtain ⟨e, es', -, h | ⟨t', h, hrest⟩⟩ := Task.runAlone_cases hop
  · rw [htx] at h
    exact absurd h andThen_not_inr
  · rw [htx] at h
    obtain ⟨kit, task, hkit, hperm, h, hn⟩ := permitted_ok h
    cases hn
    refine ⟨kit, ⟨action, ?_, hperm⟩, (hnext kit _ _ h).runAlone hs hrest⟩
    rw [hcheck, hkit]
    rfl

/-- Permission by the serial of a kit that was found in an earlier step. -/
theorem permitted_of_authorize {t : Task} {userId : Option Int} {kit : Kit} {action : KitAction}
    {next : Option User × Option KitMembership → Tx Store Problem Task}
    (hserials : UniqueSerials s) (hkit : kit ∈ s.kits)
    (htx : ∀ e, t.tx x e = andThen (authorize userId kit action) next)
    (h : t.runAlone x es s = some (reply, s')) :
    action.permitted (.ofModels (userId.bind (User.byId · s)) (membershipOf userId kit.id s)) kit
      = true := by
  obtain ⟨e, es', -, h | ⟨t', h, -⟩⟩ := Task.runAlone_cases h
  · rw [htx] at h
    exact absurd h andThen_not_inr
  · rw [htx] at h
    obtain ⟨_, _, _, h₁, -, -⟩ := andThen_ok h
    obtain ⟨rfl, kit', hkit', hperm⟩ := authorize_ok h₁
    rw [hserials.bySerial hkit] at hkit'
    obtain rfl := Option.some.inj hkit'
    exact hperm

/-- **Every operation but the creation of a kit** writes within the kit on which
its check granted the actor the action that it requires. -/
theorem granted_isolated {r : Request} (hs : Owned s) (hserials : UniqueSerials s)
    (hr : ∀ userId kit, r ≠ .createKit userId kit)
    (hop : (Task.start r).runAlone x es s = some (reply, s')) :
    ∃ kit, r.Granted s kit ∧ Isolated kit.id s s' := by
  cases r with
  | createKit userId kit => exact absurd rfl (hr userId kit)
  | patchKit userId kitSerial patch =>
      refine isolated_of_permitted (fun kit => pure (.patchKit kit patch)) hs
        (fun _ => rfl) rfl (fun kit t' s' h => ?_) hop
      obtain ⟨rfl, -⟩ := Tx.run_pure_ok.mp h
      rfl
  | resetPassword userId kitSerial =>
      refine isolated_of_permitted (fun kit => pure (.resetPassword kit)) hs
        (fun _ => rfl) rfl (fun kit t' s' h => ?_) hop
      obtain ⟨rfl, -⟩ := Tx.run_pure_ok.mp h
      rfl
  | deleteKit userId kitSerial =>
      refine isolated_of_permitted (fun kit => pure (.deleteKit kit)) hs
        (fun _ => rfl) rfl (fun kit t' s' h => ?_) hop
      obtain ⟨rfl, -⟩ := Tx.run_pure_ok.mp h
      rfl
  | addMember userId kitSerial member =>
      refine isolated_of_permitted (fun kit => pure (.lastSeen kit member)) hs
        (fun _ => rfl) rfl (fun kit t' s' h => ?_) hop
      obtain ⟨rfl, -⟩ := Tx.run_pure_ok.mp h
      rfl
  | createConfiguration userId kitSerial configuration source =>
      refine isolated_of_permitted (fun kit =>
        createConfigurationTask userId kit configuration source) hs
        (fun _ => rfl) rfl (fun kit t' s' h => ?_) hop
      cases configuration <;> cases source
      · cases h
      · obtain ⟨rfl, -⟩ := Tx.run_pure_ok.mp h
        rfl
      · obtain ⟨rfl, -⟩ := Tx.run_pure_ok.mp h
        rfl
      · cases h
  | patchKitMembership userId id patch =>
      obtain ⟨e, es', -, h | ⟨t', h, -⟩⟩ := Task.runAlone_cases hop
      · obtain ⟨_, h, -⟩ := finish_ok h
        obtain ⟨m, kit, hm, hkit, hperm, -, rfl⟩ := patchKitMembership_ok h
        refine ⟨kit, ⟨patch.action m, ?_, hperm⟩, ?_⟩
        · simp [Request.check, hm, hkit]
        · rw [(Kit.mem_of_byId hkit).2]
          exact .updateAccess (KitMembership.mem_of_byId hm).1 _ _
      · exact absurd h finish_not_inl
  | deleteKitMembership userId id =>
      obtain ⟨e, es', -, h | ⟨t', h, -⟩⟩ := Task.runAlone_cases hop
      · obtain ⟨_, h, -⟩ := finish_ok h
        obtain ⟨m, kit, hm, hkit, hperm, -, rfl⟩ := deleteKitMembership_ok h
        refine ⟨kit, ⟨_, ?_, hperm⟩, ?_⟩
        · simp [Request.check, hm, hkit]
        · rw [(Kit.mem_of_byId hkit).2]
          exact .deleteMembership (KitMembership.mem_of_byId hm).1
      · exact absurd h finish_not_inl
  | onConfiguration userId id op =>
      obtain ⟨e, es', -, h | ⟨t', h, hrest⟩⟩ := Task.runAlone_cases hop
      · exact absurd h andThen_not_inr
      · obtain ⟨⟨kit, c⟩, s₁, task, h₁, h, hn⟩ := andThen_ok h
        obtain ⟨rfl, hc, hkit⟩ := getModelsFromKitConfigurationId_ok h₁
        obtain ⟨rfl, -⟩ := Tx.run_pure_ok.mp h
        cases hn
        obtain ⟨hkmem, hkid⟩ := Kit.mem_of_byId hkit
        have hperm := permitted_of_authorize hserials hkmem (fun _ => rfl) hrest
        refine ⟨kit, ⟨.editConfiguration, ?_, hperm⟩, ?_⟩
        · simp [Request.check, hc, hkit, hserials.bySerial hkmem]
        · have htouches : (Task.authorizeConfiguration userId kit c op).Touches s kit.id := by
            refine ⟨rfl, fun c' hc' hid => ?_⟩
            rw [SerialTable.eq_of_key_eq hc' (KitConfiguration.mem_of_byId hc).1 hid, hkid]
          exact htouches.runAlone hs hrest
  | onPeripheral userId id op =>
      obtain ⟨e, es', -, h | ⟨t', h, hrest⟩⟩ := Task.runAlone_cases hop
      · exact absurd h andThen_not_inr
      · obtain ⟨⟨kit, c, p⟩, s₁, task, h₁, h, hn⟩ := andThen_ok h
        obtain ⟨rfl, hp, hkit, hc⟩ := getModelsFromPeripheralId_ok h₁
        obtain ⟨rfl, -⟩ := Tx.run_pure_ok.mp h
        cases hn
        obtain ⟨hkmem, hkid⟩ := Kit.mem_of_byId hkit
        have hperm := permitted_of_authorize hserials hkmem (fun _ => rfl) hrest
        refine ⟨kit, ⟨.editConfiguration, ?_, hperm⟩, ?_⟩
        · simp [Request.check, hp, hkit, hserials.bySerial hkmem]
        · have htouches : (Task.authorizePeripheral userId kit c p op).Touches s kit.id := by
            intro p' hp' hid
            rw [SerialTable.eq_of_key_eq hp' (Peripheral.mem_of_byId hp).1 hid, hkid]
          exact htouches.runAlone hs hrest
  | deleteMedia userId id =>
      obtain ⟨e, es', -, h | ⟨t', h, hrest⟩⟩ := Task.runAlone_cases hop
      · exact absurd h andThen_not_inr
      · obtain ⟨found, s₁, task, h₁, h, hn⟩ := andThen_ok h
        obtain ⟨rfl, rfl⟩ := Tx.run_read_ok.mp h₁
        obtain ⟨kit, hfound, h⟩ := Tx.run_ofOption_bind_ok.mp h
        obtain ⟨rfl, -⟩ := Tx.run_pure_ok.mp h
        cases hn
        obtain ⟨m, hm, hkit⟩ := Option.bind_eq_some_iff.mp hfound
        obtain ⟨hkmem, hkid⟩ := Kit.mem_of_byId hkit
        have hperm := permitted_of_authorize hserials hkmem (fun _ => rfl) hrest
        refine ⟨kit, ⟨.deleteMedia, ?_, hperm⟩, ?_⟩
        · simp [Request.check, hfound, hserials.bySerial hkmem]
        · have htouches : (Task.authorizeMedia userId kit id).Touches s kit.id := by
            intro m' hm' hid
            obtain ⟨hmem, hmid⟩ := Table.find?_eq_some.mp hm
            rw [Table.eq_of_key_eq hm' hmem (hid.trans hmid.symm), hkid]
          exact htouches.runAlone hs hrest

/-- **Tenant isolation of writes.** In every store that the API, the uploads and
the ingest reach from a coherent one, an operation that succeeds only inserts,
changes and deletes rows of the one kit on which its check granted its actor the
action that it requires. -/
theorem writes_isolated {x : Crates} {s₀ : Store} {ls : List (Sched ServiceRequest ServiceEnv)}
    {c : Conc Services ServiceTask} {r : Request} {es : List Env} {reply : Reply} {s' : Store}
    (h₀ : Owned s₀) (hserials : UniqueSerials s₀)
    (hrun : Run.exec (services x).step ⟨.start s₀, []⟩ ls = some c)
    (hr : ∀ userId kit, r ≠ .createKit userId kit)
    (hop : (Task.start r).runAlone x es c.store.store = some (reply, s')) :
    ∃ kit, r.Granted c.store.store kit ∧ Isolated kit.id c.store.store s' := by
  have howned : Owned c.store.store := (ownedRun_exec h₀ hrun).2.1
  have hunique : UniqueSerials c.store.store := uniqueSerials_exec hserials hrun
  exact granted_isolated howned hunique hr hop

/-- The first kit is deleted with everything it has; the second one keeps the
configuration and the peripheral that it has cloned. -/
theorem writes_isolated_deleteKit :
    ∃ c s', Run.exec (services plainCrates).step ⟨.start gardener, []⟩ cloneWhileReceiving = some c
      ∧ (Task.start (.deleteKit (some 1) "k1")).runAlone plainCrates [{}, {}] c.store.store
        = some (.empty, s')
      ∧ s'.kits.rows.map (·.serial) = ["k2"]
      ∧ s'.kitConfigurations.rows.map (·.kitId) = [2]
      ∧ s'.peripherals.rows.map (·.kitId) = [2]
      ∧ s'.rawMeasurements.rows.length = 0
      ∧ s'.media.rows.length = 0
      ∧ ∃ kit, (Request.deleteKit (some 1) "k1").Granted c.store.store kit
        ∧ Isolated kit.id c.store.store s' := by
  have hserials : UniqueSerials gardener := by
    unfold UniqueSerials
    decide
  have hrun : ∃ c s', Run.exec (services plainCrates).step ⟨.start gardener, []⟩
        cloneWhileReceiving = some c
      ∧ (Task.start (.deleteKit (some 1) "k1")).runAlone plainCrates [{}, {}] c.store.store
        = some (.empty, s')
      ∧ s'.kits.rows.map (·.serial) = ["k2"]
      ∧ s'.kitConfigurations.rows.map (·.kitId) = [2]
      ∧ s'.peripherals.rows.map (·.kitId) = [2]
      ∧ s'.rawMeasurements.rows.length = 0
      ∧ s'.media.rows.length = 0 :=
    ⟨_, _, rfl, rfl, rfl, rfl, rfl, rfl, rfl⟩
  obtain ⟨c, s', hrun, hop, hkits, hconfigurations, hperipherals, hraw, hmedia⟩ := hrun
  exact ⟨c, s', hrun, hop, hkits, hconfigurations, hperipherals, hraw, hmedia,
    writes_isolated gardener_owned hserials hrun (by simp) hop⟩

end AstroPlant
