import AstroPlant.MemberAuthority
import AstroPlant.WriteIsolation

/-!
# Every write was permitted

An operation that runs alone writes within the kit that it was permitted on. Here
operations are interleaved with each other, with uploads and with the ingest:
what a request has read may be long gone when it writes. Serials may be given
again, and the configuration that it asked about may be deleted.

Still, whatever a request changes of a kit that exists, the kit is one for which
a check of this request found the acting user to have the access that the
request requires (`writes_permitted`). A task carries with it the kit that the
rows it writes belong to (`Task.Owner`), and that it is still to be checked, or
was, unless the kit is gone (`Waits`, `Allowed`). That a row stays with its kit
rests on ids that are given once. The ids of media are not: kits choose them. A
deletion of media is two statements, each of which sees what has been committed
by then, and between them the row with its id may become that of another kit; so
the law leaves these requests out (`Request.deletesMedia`).
-/

namespace AstroPlant

/-! ## The law -/

/-- No row of the kit is inserted, changed or deleted. -/
structure Leaves (kitId : Int) (s s' : Store) : Prop where
  kits : ∀ k : Kit, k.id = kitId → (k ∈ s'.kits.rows ↔ k ∈ s.kits.rows)
  kitMemberships : ∀ m : KitMembership, m.kitId = kitId →
    (m ∈ s'.kitMemberships.rows ↔ m ∈ s.kitMemberships.rows)
  kitConfigurations : ∀ c : KitConfiguration, c.kitId = kitId →
    (c ∈ s'.kitConfigurations.rows ↔ c ∈ s.kitConfigurations.rows)
  peripherals : ∀ p : Peripheral, p.kitId = kitId →
    (p ∈ s'.peripherals.rows ↔ p ∈ s.peripherals.rows)
  media : ∀ m : Media, m.kitId = kitId → (m ∈ s'.media.rows ↔ m ∈ s.media.rows)
  rawMeasurements : ∀ m : RawMeasurement, m.kitId = kitId →
    (m ∈ s'.rawMeasurements.rows ↔ m ∈ s.rawMeasurements.rows)
  aggregateMeasurements : ∀ m : AggregateMeasurement, m.kitId = kitId →
    (m ∈ s'.aggregateMeasurements.rows ↔ m ∈ s.aggregateMeasurements.rows)
  kitLastSeen : ∀ l : KitLastSeen, l.kitId = kitId →
    (l ∈ s'.kitLastSeen.rows ↔ l ∈ s.kitLastSeen.rows)

theorem Leaves.refl (kitId : Int) (s : Store) : Leaves kitId s s := by
  constructor <;> exact fun _ _ => Iff.rfl

theorem Isolated.leaves {kitId kitId' : Int} {s s' : Store} (h : Isolated kitId s s')
    (hne : kitId' ≠ kitId) : Leaves kitId' s s' where
  kits k hk := h.kits k (hk.trans_ne hne)
  kitMemberships m hm := h.kitMemberships m (hm.trans_ne hne)
  kitConfigurations c hc := h.kitConfigurations c (hc.trans_ne hne)
  peripherals p hp := h.peripherals p (hp.trans_ne hne)
  media m hm := h.media m (hm.trans_ne hne)
  rawMeasurements m hm := h.rawMeasurements m (hm.trans_ne hne)
  aggregateMeasurements m hm := h.aggregateMeasurements m (hm.trans_ne hne)
  kitLastSeen l hl := h.kitLastSeen l (hl.trans_ne hne)

namespace Request

/-- The actions that a request is checked for. -/
def requires : Request → KitAction → Prop
  | createKit _ _, _ => False
  | patchKit _ _ _, action => action = .editDetails
  | resetPassword _ _, action => action = .resetPassword
  | deleteKit _ _, action => action = .delete
  | addMember _ _ member, action => action = member.action
  | patchKitMembership _ _ _, action | deleteKitMembership _ _, action =>
      action = .editMembers ∨ action = .editSuperMembers
  | createConfiguration _ _ _ _, action | onConfiguration _ _ _, action
  | onPeripheral _ _ _, action => action = .editConfiguration
  | deleteMedia _ _, action => action = .deleteMedia

def deletesMedia : Request → Bool
  | deleteMedia _ _ => true
  | _ => false

/-- The actor of the request may do what it asks to the kit. -/
def MayWrite (r : Request) (kitId : Int) (s : Store) : Prop :=
  ∃ kit ∈ s.kits, kit.id = kitId ∧ ∃ action, r.requires action
    ∧ action.permitted (.ofModels (r.actor.bind (User.byId · s))
      (membershipOf r.actor kit.id s)) kit = true

theorem requires_readOnly {r : Request} {action : KitAction} (h : r.requires action) :
    action.readOnly = false := by
  cases r with
  | createKit _ _ => cases h
  | addMember _ _ member =>
      obtain rfl := h
      rcases member.action_edits with h | h <;> rw [h] <;> rfl
  | patchKitMembership _ _ _ | deleteKitMembership _ _ => rcases h with rfl | rfl <;> rfl
  | _ =>
      obtain rfl := h
      rfl

end Request

/-- Steps that were taken, the latest one first. -/
abbrev Steps := List (Entry Services ServiceRequest ServiceTask)

/-- A step of the request was taken where its actor may write to the kit. -/
def Checked (past : Steps) (r : Request) (kitId : Int) : Prop :=
  ∃ e ∈ past, e.request = .api r ∧ r.MayWrite kitId e.before.store

/-- What the last step changes of a kit, if it is taken for a request, the
request was checked for. -/
def Mediated (e : Entry Services ServiceRequest ServiceTask) (past : Steps) : Prop :=
  ∀ r, e.request = .api r → r.deletesMedia = false → ∀ kit ∈ e.before.store.kits,
    ¬ Leaves kit.id e.before.store e.after.store → Checked (e :: past) r kit.id

/-! ## What a task knows -/

/-- The peripheral with the id was seen, and belongs to the kit. -/
def PeripheralOfKit (s : Store) (id kitId : Int) : Prop :=
  id < s.peripherals.next ∧ ∀ p ∈ s.peripherals, p.id = id → p.kitId = kitId

/-- The rows that the task writes belong to the kit, whenever it does. -/
def Task.Owner (s : Store) (kitId : Int) : Task → Prop
  | .authorizeConfiguration _ kit c _ | .onConfiguration kit c _ =>
      kit.id = kitId ∧ ConfigurationOf s c.id kitId
  | .authorizePeripheral _ _ _ p _ | .onPeripheral _ p _ => PeripheralOfKit s p.id kitId
  | .authorizeMedia _ _ _ | .deleteMedia _ => False
  | t => t.Touches s kitId

/-- The task is about to check the kit, by the serial that it was seen with. -/
def Task.Waits (s : Store) (r : Request) (kitId : Int) : Task → Prop
  | .authorizeConfiguration userId kit _ _ | .authorizePeripheral userId kit _ _ _ =>
      userId = r.actor ∧ r.requires .editConfiguration ∧ kit.id = kitId
        ∧ SerialOf s kit.id kit.serial
  | _ => False

/-- The kit was seen, and if it still exists, the request was checked for it. -/
def Allowed (past : Steps) (r : Request) (s : Store) (kitId : Int) : Prop :=
  kitId < s.kits.next ∧ ∀ k ∈ s.kits, k.id = kitId → Checked past r kitId

def Task.Knows (past : Steps) (r : Request) (s : Store) (t : Task) : Prop :=
  t = .start r ∨ ∃ kitId, t.Owner s kitId ∧ (t.Waits s r kitId ∨ Allowed past r s kitId)

/-! ## What other steps leave of it -/

section

variable {past past' : Steps} {r : Request} {s s' : Store} {kitId : Int}

theorem Checked.mono (hpast : past ⊆ past') (h : Checked past r kitId) : Checked past' r kitId := by
  obtain ⟨e, he, hrest⟩ := h
  exact ⟨e, hpast he, hrest⟩

theorem PeripheralOfKit.keeps {id : Int} (h : Identity s s') (hp : PeripheralOfKit s id kitId) :
    PeripheralOfKit s' id kitId :=
  SerialTable.Keeps.forall_key (h.peripherals.mono fun {_ _} hpp => congrArg Prod.fst hpp) hp

theorem Task.Owner.keeps (h : Identity s s') {t : Task} (ht : t.Owner s kitId) :
    t.Owner s' kitId := by
  cases t with
  | authorizeConfiguration _ _ _ _ | onConfiguration _ _ _ => exact ht.imp_right (·.keeps h)
  | authorizePeripheral _ _ _ _ _ | onPeripheral _ _ _ => exact PeripheralOfKit.keeps h ht
  | _ => exact ht

theorem Task.Waits.keeps (h : Identity s s') {t : Task} (ht : t.Waits s r kitId) :
    t.Waits s' r kitId := by
  cases t with
  | authorizeConfiguration _ _ _ _ | authorizePeripheral _ _ _ _ _ =>
      obtain ⟨hactor, hrequires, hid, hserial⟩ := ht
      exact ⟨hactor, hrequires, hid, hserial.keeps h⟩
  | _ => exact ht

theorem Allowed.keeps (hpast : past ⊆ past') (h : Identity s s')
    (ha : Allowed past r s kitId) : Allowed past' r s' kitId := by
  refine ⟨Int.lt_of_lt_of_le ha.1 h.kits.next_le, fun k' hk' hid => ?_⟩
  obtain ⟨k, hk, hkid, -⟩ := h.kits.old k' hk' (by rw [hid]; exact ha.1)
  exact (ha.2 k hk (hkid.trans hid)).mono hpast

theorem Task.Knows.keeps (hpast : past ⊆ past') (h : Identity s s') {t : Task}
    (ht : t.Knows past r s) : t.Knows past' r s' := by
  rcases ht with ht | ⟨kitId, howner, hkit⟩
  · exact Or.inl ht
  · exact Or.inr ⟨kitId, howner.keeps h, hkit.imp (·.keeps h) (·.keeps hpast h)⟩

end

/-! ## What a step adds to it -/

section

variable {x : Crates} {e : Env} {r : Request} {past : Steps} {s s' : Store}
  {entry : Entry Services ServiceRequest ServiceTask}

theorem checked_of_permitted {kit : Kit} {action : KitAction} (hentry : entry.request = .api r)
    (hs : entry.before.store = s) (hkit : kit ∈ s.kits) (hrequires : r.requires action)
    (hperm : action.permitted (.ofModels (r.actor.bind (User.byId · s))
      (membershipOf r.actor kit.id s)) kit = true) : Checked (entry :: past) r kit.id := by
  refine ⟨entry, List.mem_cons_self, hentry, kit, ?_, rfl, action, hrequires, ?_⟩
  · rwa [hs]
  · rwa [hs]

theorem knows_of_permitted {kitSerial : String} {action : KitAction} {t : Task}
    (next : Kit → Tx Store Problem Task) (hentry : entry.request = .api r)
    (hs : entry.before.store = s) (hrequires : r.requires action)
    (hnext : ∀ kit t' s', (next kit).run s = .ok (t', s') → t'.Owner s kit.id)
    (h : (permitted r.actor kitSerial action next).run s = .ok (.inl t, s')) :
    t.Knows (entry :: past) r s := by
  obtain ⟨kit, task, hkit, hperm, h, hn⟩ := permitted_ok h
  cases hn
  have hmem : kit ∈ s.kits := List.mem_of_find?_eq_some hkit
  refine Or.inr ⟨kit.id, hnext kit t s' h, Or.inr ⟨SerialTable.key_lt_next hmem, fun k _ _ => ?_⟩⟩
  exact checked_of_permitted hentry hs hmem hrequires hperm

/-- After a check by the serial of a kit that was seen. The kit that has the serial
now is that kit, if it still exists. -/
theorem allowed_of_authorize {kit : Kit} {action : KitAction}
    {u : Option User × Option KitMembership}
    (hserials : UniqueSerials s) (hentry : entry.request = .api r) (hs : entry.before.store = s)
    (hrequires : r.requires action) (hseen : SerialOf s kit.id kit.serial)
    (h : (authorize r.actor kit action).run s = .ok (u, s')) :
    Allowed (entry :: past) r s kit.id := by
  obtain ⟨rfl, kit', hkit', hperm⟩ := authorize_ok h
  refine ⟨hseen.1, fun k hk hid => ?_⟩
  have hfound := hserials.bySerial hk
  rw [hseen.2 k hk hid, hkit'] at hfound
  obtain rfl := Option.some.inj hfound
  rw [← hid]
  exact checked_of_permitted hentry hs hk hrequires hperm

/-- A request that finds its kit, or the rows whose kit is still to be checked. -/
theorem Request.knows_next {t : Task} (hentry : entry.request = .api r)
    (hmedia : r.deletesMedia = false) (hs : entry.before.store = s)
    (h : (Task.tx x e (.start r)).run s = .ok (.inl t, s)) : t.Knows (entry :: past) r s := by
  cases r with
  | createKit _ _ | patchKitMembership _ _ _ | deleteKitMembership _ _ =>
      exact absurd h finish_not_inl
  | patchKit userId kitSerial patch =>
      refine knows_of_permitted (fun kit => pure (.patchKit kit patch)) hentry hs rfl
        (fun kit t' s' h => ?_) h
      obtain ⟨rfl, -⟩ := Tx.run_pure_ok.mp h
      rfl
  | resetPassword userId kitSerial =>
      refine knows_of_permitted (fun kit => pure (.resetPassword kit)) hentry hs rfl
        (fun kit t' s' h => ?_) h
      obtain ⟨rfl, -⟩ := Tx.run_pure_ok.mp h
      rfl
  | deleteKit userId kitSerial =>
      refine knows_of_permitted (fun kit => pure (.deleteKit kit)) hentry hs rfl
        (fun kit t' s' h => ?_) h
      obtain ⟨rfl, -⟩ := Tx.run_pure_ok.mp h
      rfl
  | addMember userId kitSerial member =>
      refine knows_of_permitted (fun kit => pure (.lastSeen kit member)) hentry hs rfl
        (fun kit t' s' h => ?_) h
      obtain ⟨rfl, -⟩ := Tx.run_pure_ok.mp h
      rfl
  | createConfiguration userId kitSerial configuration source =>
      refine knows_of_permitted (fun kit =>
        createConfigurationTask userId kit configuration source) hentry hs rfl
        (fun kit t' s' h => ?_) h
      cases configuration <;> cases source
      · cases h
      · obtain ⟨rfl, -⟩ := Tx.run_pure_ok.mp h
        rfl
      · obtain ⟨rfl, -⟩ := Tx.run_pure_ok.mp h
        rfl
      · cases h
  | onConfiguration userId id op =>
      obtain ⟨⟨kit, c⟩, s₁, task, h₁, h, hn⟩ := andThen_ok h
      obtain ⟨rfl, hc, hkit⟩ := getModelsFromKitConfigurationId_ok h₁
      obtain ⟨rfl, -⟩ := Tx.run_pure_ok.mp h
      cases hn
      obtain ⟨hkmem, hkid⟩ := Kit.mem_of_byId hkit
      refine Or.inr ⟨kit.id, ⟨rfl, ?_⟩, Or.inl ⟨rfl, rfl, rfl, .of_mem hkmem⟩⟩
      rw [hkid]
      exact .of_mem (KitConfiguration.mem_of_byId hc).1
  | onPeripheral userId id op =>
      obtain ⟨⟨kit, c, p⟩, s₁, task, h₁, h, hn⟩ := andThen_ok h
      obtain ⟨rfl, hp, hkit, -⟩ := getModelsFromPeripheralId_ok h₁
      obtain ⟨rfl, -⟩ := Tx.run_pure_ok.mp h
      cases hn
      obtain ⟨hkmem, hkid⟩ := Kit.mem_of_byId hkit
      refine Or.inr ⟨kit.id, ?_, Or.inl ⟨rfl, rfl, rfl, .of_mem hkmem⟩⟩
      rw [hkid]
      exact SerialTable.forall_key_of_mem Peripheral.kitId (Peripheral.mem_of_byId hp).1
  | deleteMedia userId id => cases hmedia

/-- A task with the kit that the rows it writes belong to. -/
theorem Task.Owner.knows_next {t t' : Task} {kitId : Int} (hserials : UniqueSerials s)
    (hentry : entry.request = .api r) (hs : entry.before.store = s) (howner : t.Owner s kitId)
    (hkit : t.Waits s r kitId ∨ Allowed past r s kitId)
    (h : (t.tx x e).run s = .ok (.inl t', s)) : t'.Knows (entry :: past) r s := by
  have hallowed : Allowed past r s kitId → Allowed (entry :: past) r s kitId :=
    (·.keeps (List.subset_cons_self _ _) (.refl s))
  cases t with
  | start r' => cases howner
  | lastSeen kit member =>
      obtain ⟨l, s₁, task, -, h, hn⟩ := andThen_ok h
      obtain ⟨rfl, -⟩ := Tx.run_pure_ok.mp h
      cases hn
      exact Or.inr ⟨kitId, howner, Or.inr (hallowed (hkit.resolve_left id))⟩
  | cloneModels userId kit source =>
      obtain ⟨m, s₁, task, -, h, hn⟩ := andThen_ok h
      split at h
      · obtain ⟨rfl, -⟩ := Tx.run_pure_ok.mp h
        cases hn
        exact Or.inr ⟨kitId, howner, Or.inr (hallowed (hkit.resolve_left id))⟩
      · obtain ⟨rfl, -⟩ := Tx.run_pure_ok.mp h
        cases hn
        exact Or.inr ⟨kitId, howner, Or.inr (hallowed (hkit.resolve_left id))⟩
  | cloneAuthorize userId kit fromKit source =>
      obtain ⟨u, s₁, task, -, h, hn⟩ := andThen_ok h
      obtain ⟨rfl, -⟩ := Tx.run_pure_ok.mp h
      cases hn
      exact Or.inr ⟨kitId, howner, Or.inr (hallowed (hkit.resolve_left id))⟩
  | authorizeMedia userId kit id => cases howner
  | authorizeConfiguration userId kit c op | authorizePeripheral userId kit c p op =>
      obtain ⟨u, s₁, task, h₁, h, hn⟩ := andThen_ok h
      obtain ⟨rfl, -⟩ := authorize_ok h₁
      obtain ⟨rfl, -⟩ := Tx.run_pure_ok.mp h
      cases hn
      refine Or.inr ⟨kitId, howner, Or.inr ?_⟩
      rcases hkit with ⟨rfl, hrequires, rfl, hseen⟩ | hkit
      · exact allowed_of_authorize hserials hentry hs hrequires hseen h₁
      · exact hallowed hkit
  | patchKit _ _ | resetPassword _ | deleteKit _ | addMember _ _ _
  | createNewConfiguration _ _ | cloneConfiguration _ _ | onConfiguration _ _ _
  | onPeripheral _ _ _ | deleteMedia _ => exact absurd h finish_not_inl

/-- **The step lemma for tasks.** -/
theorem Task.Knows.next {t t' : Task} (hserials : UniqueSerials s) (hentry : entry.request = .api r)
    (hmedia : r.deletesMedia = false) (hs : entry.before.store = s) (ht : t.Knows past r s)
    (h : (t.tx x e).run s = .ok (.inl t', s')) : t'.Knows (entry :: past) r s' := by
  obtain rfl := Task.tx_inl h
  rcases ht with rfl | ⟨kitId, howner, hkit⟩
  · exact r.knows_next hentry hmedia hs h
  · exact howner.knows_next hserials hentry hs hkit h

/-! ## What is written -/

theorem Task.Owner.touches {t : Task} {kitId : Int} {reply : Reply} (ht : t.Owner s kitId)
    (h : (t.tx x e).run s = .ok (.inr reply, s')) : t.Touches s kitId := by
  cases t with
  | authorizeConfiguration _ _ _ _ | authorizePeripheral _ _ _ _ _ =>
      exact absurd h andThen_not_inr
  | onConfiguration kit c op => exact ⟨ht.1, ht.2.2⟩
  | onPeripheral c p op => exact ht.2
  | authorizeMedia _ _ _ | deleteMedia _ => cases ht
  | _ => exact ht

theorem createKit_leaves {userId : Int} {kit : CreateKit} {reply : Reply} {k : Kit}
    (h : (createKit x e userId kit).run s = .ok (reply, s')) (hk : k ∈ s.kits) :
    Leaves k.id s s' := by
  obtain ⟨new, -, rfl⟩ := createKit_ok h
  have hne : k.id ≠ s.kits.next := Int.ne_of_lt (SerialTable.key_lt_next hk)
  refine { Leaves.refl k.id s with kits := fun k' hid => ?_, kitMemberships := fun m hid => ?_ }
  · refine ⟨fun h => ?_, fun h => NewKit.mem_insert.mpr (Or.inl h)⟩
    rcases NewKit.mem_insert.mp h with h | rfl
    · exact h
    · exact absurd hid.symm hne
  · refine ⟨fun h => ?_, fun h => NewKitMembership.mem_insert.mpr (Or.inl h)⟩
    rcases NewKitMembership.mem_insert.mp h with h | rfl
    · exact h
    · exact absurd hid.symm hne

/-- What changes a kit, and writes only to one kit, writes to this one. -/
theorem Isolated.eq_of_not_leaves {kitId kitId' : Int} (h : Isolated kitId s s')
    (hchange : ¬ Leaves kitId' s s') : kitId' = kitId := by
  by_contra hne
  exact hchange (h.leaves hne)

/-- **The step lemma for writes.** -/
theorem Task.Knows.mediated {t : Task} {reply : Reply} (howned : Owned s)
    (hentry : entry.request = .api r) (hs : entry.before.store = s) (ht : t.Knows past r s)
    (h : (t.tx x e).run s = .ok (.inr reply, s')) {kit : Kit} (hk : kit ∈ s.kits)
    (hchange : ¬ Leaves kit.id s s') : Checked (entry :: past) r kit.id := by
  rcases ht with rfl | ⟨kitId, howner, hkit⟩
  · cases r with
    | createKit userId body =>
        obtain ⟨_, h, -⟩ := finish_ok h
        exact absurd (createKit_leaves h hk) hchange
    | patchKitMembership userId id patch =>
        obtain ⟨_, h, -⟩ := finish_ok h
        obtain ⟨m, k, hm, hkm, hperm, -, rfl⟩ := patchKitMembership_ok h
        obtain ⟨hkmem, hkid⟩ := Kit.mem_of_byId hkm
        have hisolated := Isolated.updateAccess (KitMembership.mem_of_byId hm).1
          patch.accessSuper patch.accessConfigure
        rw [hisolated.eq_of_not_leaves hchange, ← hkid]
        refine checked_of_permitted hentry hs hkmem ?_ hperm
        unfold KitMembershipPatch.action
        split
        · exact Or.inr rfl
        · exact Or.inl rfl
    | deleteKitMembership userId id =>
        obtain ⟨_, h, -⟩ := finish_ok h
        obtain ⟨m, k, hm, hkm, hperm, -, rfl⟩ := deleteKitMembership_ok h
        obtain ⟨hkmem, hkid⟩ := Kit.mem_of_byId hkm
        have hisolated := Isolated.deleteMembership (KitMembership.mem_of_byId hm).1
        rw [hisolated.eq_of_not_leaves hchange, ← hkid]
        refine checked_of_permitted hentry hs hkmem ?_ hperm
        split
        · exact Or.inr rfl
        · exact Or.inl rfl
    | patchKit _ _ _ | resetPassword _ _ | deleteKit _ _ | addMember _ _ _
    | createConfiguration _ _ _ _ | onConfiguration _ _ _ | onPeripheral _ _ _
    | deleteMedia _ _ => exact absurd h andThen_not_inr
  · have hisolated := (howner.touches h).isolated howned h
    have hid := hisolated.eq_of_not_leaves hchange
    rcases hkit with hwaits | hallowed
    · cases t with
      | authorizeConfiguration _ _ _ _ | authorizePeripheral _ _ _ _ _ =>
          exact absurd h andThen_not_inr
      | _ => cases hwaits
    · rw [hid]
      exact (hallowed.2 kit hk hid).mono (List.subset_cons_self _ _)

end

/-! ## Runs -/

section

variable {x : Crates}

/-- Every step of the journal was mediated by the steps before it. -/
def Mediates (journal : Steps) : Prop := ∀ e past, (e :: past) <:+ journal → Mediated e past

theorem Mediates.cons {e : Entry Services ServiceRequest ServiceTask} {past : Steps}
    (h : Mediates past) (he : Mediated e past) : Mediates (e :: past) := by
  intro e' past' hsuffix
  rcases List.suffix_cons_iff.mp hsuffix with heq | hsuffix
  · obtain ⟨rfl, rfl⟩ := List.cons.inj heq
    exact he
  · exact h e' past' hsuffix

/-- What a task of the API knows about its request. -/
def KnowsRequest (s : Journaled Services ServiceRequest ServiceTask)
    (t : ServiceRequest × ServiceTask) : Prop :=
  ∀ r, t.1 = .api r → ∃ task, t.2 = .api task
    ∧ (r.deletesMedia = false → task.Knows s.journal r s.store.store)

theorem knowsRequest_api {t : Task} {r : Request} {s s' : Store} {e : Env} {k : Option Task}
    {past : Steps} {entry : Entry Services ServiceRequest ServiceTask} (hserials : UniqueSerials s)
    (howned : Owned s) (hentry : entry.request = .api r) (hmedia : r.deletesMedia = false)
    (hs : entry.before.store = s) (hs' : entry.after.store = s') (ht : t.Knows past r s)
    (h : (api x).advance e t [] s = some (s', k)) :
    Mediated entry past ∧ ∀ t' ∈ k, t'.Knows (entry :: past) r s' := by
  have hlaw : (∀ kit ∈ s.kits, ¬ Leaves kit.id s s' → Checked (entry :: past) r kit.id) →
      Mediated entry past := by
    rintro hchecked r' hr' - kit hk hchange
    obtain rfl := ServiceRequest.api.inj (hentry.symm.trans hr')
    rw [hs] at hk hchange
    rw [hs'] at hchange
    exact hchecked kit hk hchange
  rcases api_advance h with ⟨rfl, rfl⟩ | ⟨n, hr, rfl⟩
  · exact ⟨hlaw fun kit _ hchange => absurd (Leaves.refl _ _) hchange, fun t' ht' => by cases ht'⟩
  · cases n with
    | inl t₁ =>
        have hnext := ht.next hserials hentry hmedia hs hr
        obtain rfl := Task.tx_inl hr
        refine ⟨hlaw fun kit _ hchange => absurd (Leaves.refl _ _) hchange, fun t' ht' => ?_⟩
        obtain rfl := Option.some.inj ht'
        exact hnext
    | inr reply =>
        exact ⟨hlaw fun kit hk hchange => ht.mediated howned hentry hs hr hk hchange,
          fun t' ht' => by cases ht'⟩

theorem knowsRequest_step {c c' : Conc (Journaled Services ServiceRequest ServiceTask)
      (ServiceRequest × ServiceTask)} {l : Sched ServiceRequest ServiceEnv}
    (howned : Owned c.store.store.store)
    (hc : Program.Holds (fun s => UniqueSerials s.store.store ∧ Mediates s.journal) KnowsRequest c)
    (h : (services x).journaled.step c l = some c') :
    Program.Holds (fun s => UniqueSerials s.store.store ∧ Mediates s.journal) KnowsRequest c' := by
  have hok : Program.Ok (fun _ _ _ => True)
      (fun _ _ _ (s : Journaled Services ServiceRequest ServiceTask) => Owned s.store.store)
      c l := by
    cases l with
    | spawn r => trivial
    | run i e => exact fun _ _ => howned
    | fault i => trivial
  refine Program.holds_step (services x).journaled (fun r _ s _ _ => ?_)
    (fun e t ts s s' k howned hs ht hts hadv => ?_) hc hok h
  · rintro r' rfl
    exact ⟨.start r', rfl, fun _ => Or.inl rfl⟩
  · obtain ⟨r, t⟩ := t
    obtain ⟨store, next, hnext, rfl, rfl⟩ := Program.journaled_advance hadv
    have hothers : ∀ u ∈ ts, KnowsRequest ⟨store, ⟨r, t, s.store, store⟩ :: s.journal⟩ u := by
      intro u hu r' hr'
      obtain ⟨task, htask, hknows⟩ := hts u hu r' hr'
      exact ⟨task, htask, fun hmedia =>
        (hknows hmedia).keeps (List.subset_cons_self _ _) (services_identity hnext)⟩
    have hserials' := uniqueSerials_advance hs.1 hnext
    cases r with
    | api r =>
        obtain ⟨task, rfl, hknows⟩ := ht r rfl
        obtain ⟨after, next, hapi, rfl, rfl⟩ := services_api hnext
        let entry : Entry Services ServiceRequest ServiceTask :=
          ⟨.api r, .api task, s.store, { s.store with store := after }⟩
        have hlaw : r.deletesMedia = false →
            Mediated entry s.journal ∧ ∀ t' ∈ next, t'.Knows (entry :: s.journal) r after :=
          fun hmedia => knowsRequest_api hs.1 howned (show entry.request = .api r from rfl) hmedia
            rfl rfl (hknows hmedia) hapi
        refine ⟨⟨hserials', hs.2.cons fun r' hr' hmedia => ?_⟩, ?_, hothers⟩
        · obtain rfl := ServiceRequest.api.inj hr'
          exact (hlaw hmedia).1 r hr' hmedia
        · simp only [Option.map_map, Option.mem_map, Function.comp]
          rintro _ ⟨task', htask', rfl⟩ r' hr'
          obtain rfl := ServiceRequest.api.inj hr'
          exact ⟨task', rfl, fun hmedia => (hlaw hmedia).2 task' htask'⟩
    | media _ | measurement _ =>
        refine ⟨⟨hserials', hs.2.cons ?_⟩, ?_, hothers⟩
        · intro r' hr'
          cases hr'
        · intro t' ht' r' hr'
          obtain ⟨_, -, rfl⟩ := Option.mem_map.mp ht'
          cases hr'

/-- The services are coherent, every step was mediated, and each task knows what it
may write. -/
def MediatedRun (c : Conc (Journaled Services ServiceRequest ServiceTask)
    (ServiceRequest × ServiceTask)) : Prop :=
  (TrustedRun (Program.forget c) ∧ OwnedRun (Program.forget c))
    ∧ Program.Holds (fun s => UniqueSerials s.store.store ∧ Mediates s.journal) KnowsRequest c

theorem mediatedRun_start {s₀ : Store} (howned : Owned s₀) (hserials : UniqueSerials s₀) :
    MediatedRun ⟨⟨.start s₀, []⟩, []⟩ := by
  refine ⟨⟨trustedRun_start s₀, howned, fun t ht => by cases ht⟩, ⟨hserials, ?_⟩,
    fun t ht => by cases ht⟩
  intro e past hsuffix
  simp at hsuffix

theorem mediatedRun_step {c c' : Conc (Journaled Services ServiceRequest ServiceTask)
      (ServiceRequest × ServiceTask)} {l : Sched ServiceRequest ServiceEnv}
    (hc : MediatedRun c) (hstep : (services x).journaled.step c l = some c') :
    MediatedRun c' := by
  obtain ⟨⟨htrusted, howned⟩, hknows⟩ := hc
  have hforget := Program.step_journaled (services x) c l
  rw [hstep] at hforget
  exact ⟨⟨trustedRun_step htrusted hforget.symm, ownedRun_step htrusted howned hforget.symm⟩,
    knowsRequest_step howned.1 hknows hstep⟩

/-- Others may write to the database as well, as long as they keep whose rows are. -/
theorem MediatedRun.setStore {c : Conc (Journaled Services ServiceRequest ServiceTask)
      (ServiceRequest × ServiceTask)} {store : Store} (hc : MediatedRun c)
    (h : Identity c.store.store.store store) (howned : Owned store)
    (hserials : UniqueSerials store) :
    MediatedRun { c with store := { c.store with store := { c.store.store with store } } } := by
  obtain ⟨⟨htrusted, hcoherent⟩, ⟨-, hmediates⟩, hknows⟩ := hc
  refine ⟨⟨⟨trusted_api h htrusted.1, fun t ht => (htrusted.2 t ht).keeps h⟩, howned,
    fun t ht => (hcoherent.2 t ht).keeps h⟩, ⟨hserials, hmediates⟩, fun t ht r hr => ?_⟩
  obtain ⟨task, htask, hk⟩ := hknows t ht r hr
  exact ⟨task, htask, fun hmedia => (hk hmedia).keeps (List.Subset.refl _) h⟩

/-- Whoever may write to a kit is a member of it with an access flag. -/
theorem Request.MayWrite.member {r : Request} {kitId : Int} {s : Store}
    (h : r.MayWrite kitId s) : ∃ userId ∈ r.actor, ∃ m ∈ s.kitMemberships,
      m.userId = userId ∧ m.kitId = kitId ∧ (m.accessSuper = true ∨ m.accessConfigure = true) := by
  obtain ⟨kit, -, rfl, action, hrequires, hperm⟩ := h
  obtain ⟨userId, hactor, -, _, m, hm, huser, hkit, haccess, -⟩ :=
    member_of_permitted (Request.requires_readOnly hrequires) hperm
  exact ⟨userId, hactor, m, hm, huser, hkit, haccess⟩

end

end AstroPlant
