import AstroPlant.DeclaredBounds
import AstroPlant.SerialActivations

/-!
# The history of activations

A configuration is activated by a patch only, and a trigger records when that
first happens. The index allows one active configuration per kit. What the
columns say together is kept by every statement: a new row is not active, a
deletion takes rows, and an update runs the trigger on each row that it writes.

The record of one configuration is never cleared and never changed
(`KeepsRecord`, a preorder), and the trigger keeps it
(`kitConfigurationTrigger_keeps`). What the columns have to do with each other is
`Store.ActivationHistory`. Both are carried through the API as it was modelled
with atomic transactions, and through the same patches run statement by statement
(`patches_history`), where another transaction may be open on the same kit: there
it takes the index to see that the patched configuration is the only active one
(`PatchTx.sole_of_activates`).
-/

namespace AstroPlant

/-! ## What the columns say -/

/-- The activations of a store: at most one for each kit, each of them recorded,
and `never_used` says whether there is a record. -/
structure Store.ActivationHistory (s : Store) : Prop where
  sole : ∀ c ∈ s.kitConfigurations, ∀ c' ∈ s.kitConfigurations,
    c.active = true → c'.active = true → c.kitId = c'.kitId → c = c'
  recorded : ∀ c ∈ s.kitConfigurations, c.active = true → c.firstActivatedAt.isSome = true
  neverUsed : ∀ c ∈ s.kitConfigurations, c.neverUsed = true ↔ c.firstActivatedAt = none

/-- A recorded activation stays as it is. -/
def KeepsRecord (c c' : KitConfiguration) : Prop :=
  ∀ t, c.firstActivatedAt = some t → c'.firstActivatedAt = some t

theorem KeepsRecord.refl (c : KitConfiguration) : KeepsRecord c c := fun _ h => h

theorem KeepsRecord.trans {a b c : KitConfiguration} (h : KeepsRecord a b)
    (h' : KeepsRecord b c) : KeepsRecord a c := fun t ht => h' t (h t ht)

/-- The first activation of a configuration is the same in both stores, as far as
the configuration still exists in the second. -/
def Store.SameFirstActivations (s s' : Store) : Prop :=
  ∀ c ∈ s.kitConfigurations, ∀ t, c.firstActivatedAt = some t →
    ∀ c' ∈ s'.kitConfigurations, c'.id = c.id → c'.firstActivatedAt = some t

theorem sameFirstActivations_of_keeps {s s' : Store}
    (h : s.kitConfigurations.Keeps KeepsRecord s'.kitConfigurations) :
    s.SameFirstActivations s' := by
  intro c hc t ht c' hc' hid
  have hlt : c'.id < s.kitConfigurations.next := by
    rw [hid]
    exact SerialTable.key_lt_next hc
  obtain ⟨c₀, hc₀, hid₀, hkeeps⟩ := h.old c' hc' hlt
  obtain rfl := SerialTable.eq_of_key_eq hc₀ hc (hid₀.trans hid)
  exact hkeeps t ht

/-! ## The trigger -/

section Trigger

variable (now : Timestamp) (c : KitConfiguration)

theorem kitConfigurationTrigger_recorded
    (h : (Store.kitConfigurationTrigger now c).active = true) :
    (Store.kitConfigurationTrigger now c).firstActivatedAt.isSome = true := by
  have hactive : c.active = true := h
  simp only [Store.kitConfigurationTrigger, hactive, Bool.true_and]
  cases c.firstActivatedAt <;> rfl

theorem kitConfigurationTrigger_keeps :
    KeepsRecord c (Store.kitConfigurationTrigger now c) := by
  intro t ht
  simp [Store.kitConfigurationTrigger, ht]

theorem deactivate_keeps : KeepsRecord c (c.deactivate now) :=
  kitConfigurationTrigger_keeps now { c with active := false }

theorem UpdateKitConfiguration.apply_keeps (u : UpdateKitConfiguration) :
    KeepsRecord c (u.apply now c) := by
  intro t ht
  exact kitConfigurationTrigger_keeps now _ t ht

end Trigger

/-! ## What the statements keep -/

namespace Store.ActivationHistory

variable {s s' : Store}

theorem empty : Store.empty.ActivationHistory where
  sole := fun c hc => by cases hc
  recorded := fun c hc => by cases hc
  neverUsed := fun c hc => by cases hc

/-- What the index allows, with the records. -/
theorem of_unique (hunique : activeUnique s.kitConfigurations.rows = true)
    (hrecorded : ∀ c ∈ s.kitConfigurations, c.active = true → c.firstActivatedAt.isSome = true) :
    s.ActivationHistory where
  sole := by
    intro c hc c' hc' hactive hactive' hkit
    exact List.inj_on_of_nodup_map (of_decide_eq_true hunique)
      (List.mem_filter.mpr ⟨hc, hactive⟩) (List.mem_filter.mpr ⟨hc', hactive'⟩) hkit
  recorded := hrecorded
  neverUsed := fun c _ => Option.isNone_iff_eq_none

/-- Nothing is lost by taking rows away, nor by adding rows that are not active. -/
theorem of_active (h : s.ActivationHistory)
    (hactive : ∀ c ∈ s'.kitConfigurations, c.active = true → c ∈ s.kitConfigurations) :
    s'.ActivationHistory where
  sole := fun c hc c' hc' hon hon' hkit =>
    h.sole c (hactive c hc hon) c' (hactive c' hc' hon') hon hon' hkit
  recorded := fun c hc hon => h.recorded c (hactive c hc hon) hon
  neverUsed := fun _ _ => Option.isNone_iff_eq_none

theorem insert (h : s.ActivationHistory) (new : NewKitConfiguration) (now : Timestamp) :
    (new.insert now s).ActivationHistory := by
  refine h.of_active fun _ hc hon => ?_
  rcases NewKitConfiguration.mem_insert.mp hc with hc | rfl
  · exact hc
  · cases hon

theorem remove (h : s.ActivationHistory) (d : Doomed) : (s.remove d).ActivationHistory :=
  h.of_active fun _ hc _ => (SerialTable.mem_delete.mp hc).1

theorem of_eq (h : s.ActivationHistory) (heq : s'.kitConfigurations = s.kitConfigurations) :
    s'.ActivationHistory :=
  h.of_active fun _ hc _ => heq ▸ hc

theorem queueMedia (h : s.ActivationHistory) {now : Timestamp} {q : Media → Bool} {u : Unit}
    (hqueue : (AstroPlant.queueMedia now q).run s = .ok (u, s')) : s'.ActivationHistory := by
  rw [queueMedia_ok hqueue]
  exact h.of_eq rfl

end Store.ActivationHistory

theorem recorded_deactivateAll {s : Store} {kitId : Int} {now : Timestamp}
    (h : ∀ c ∈ s.kitConfigurations, c.active = true → c.firstActivatedAt.isSome = true) :
    ∀ c ∈ (KitConfiguration.deactivateAll kitId now s).kitConfigurations,
      c.active = true → c.firstActivatedAt.isSome = true := by
  intro c hc hactive
  obtain ⟨c₀, hc₀, rfl⟩ := KitConfiguration.mem_deactivateAll.mp hc
  split at hactive
  · cases hactive
  · rename_i hkit
    rw [if_neg hkit]
    exact h c₀ hc₀ hactive

theorem recorded_applyTo {s : Store} {u : UpdateKitConfiguration} {now : Timestamp}
    (h : ∀ c ∈ s.kitConfigurations, c.active = true → c.firstActivatedAt.isSome = true) :
    ∀ c ∈ (u.applyTo now s).kitConfigurations,
      c.active = true → c.firstActivatedAt.isSome = true := by
  intro c hc hactive
  obtain ⟨c₀, hc₀, rfl⟩ := SerialTable.mem_update.mp hc
  split at hactive
  · rename_i hid
    rw [if_pos hid]
    exact kitConfigurationTrigger_recorded now _ hactive
  · rename_i hid
    rw [if_neg hid]
    exact h c₀ hc₀ hactive

theorem keeps_deactivateAll (s : Store) (kitId : Int) (now : Timestamp) :
    s.kitConfigurations.Keeps KeepsRecord
      (KitConfiguration.deactivateAll kitId now s).kitConfigurations :=
  .update (KitConfiguration.deactivate_id now) KeepsRecord.refl fun c _ _ => deactivate_keeps now c

theorem keeps_applyTo (s : Store) (u : UpdateKitConfiguration) (now : Timestamp) :
    s.kitConfigurations.Keeps KeepsRecord (u.applyTo now s).kitConfigurations :=
  .update (u.apply_id now) KeepsRecord.refl fun c _ _ => UpdateKitConfiguration.apply_keeps now c u

/-! ## What requests keep -/

theorem change_keepsRecord {t : Task} {s s' : Store} (h : Change t s s') :
    s.kitConfigurations.Keeps KeepsRecord s'.kitConfigurations := by
  cases h with
  | deleteKit id now s₁ hrun | deleteConfiguration id now s₁ hrun =>
      obtain rfl := queueMedia_ok hrun
      exact .delete KeepsRecord.refl
  | deleteMedia id now s₁ hrun =>
      obtain rfl := queueMedia_ok hrun
      exact .refl KeepsRecord.refl
  | deletePeripheral => exact .delete KeepsRecord.refl
  | createConfiguration new now => exact .insert (new.row_id now) KeepsRecord.refl
  | cloneConfiguration kit source now =>
      exact .insert (NewKitConfiguration.row_id _ now) KeepsRecord.refl
  | patchConfiguration kit c patch now s₁ ht hfrozen hs₁ =>
      have hfirst : s.kitConfigurations.Keeps KeepsRecord s₁.kitConfigurations := by
        rcases hs₁ with rfl | rfl
        · exact .refl KeepsRecord.refl
        · exact keeps_deactivateAll s kit.id now
      exact hfirst.trans KeepsRecord.trans (keeps_applyTo s₁ _ now)
  | nothing | createKit | updateKit | addMember | patchKitMembership | deleteKitMembership
  | addPeripheral | patchPeripheral => exact .refl KeepsRecord.refl

theorem change_recorded {t : Task} {s s' : Store} (hs : s.ActivationHistory) (h : Change t s s')
    (hpatch : ∀ kit c patch, t ≠ .onConfiguration kit c (.patch patch)) : s'.ActivationHistory := by
  cases h with
  | deleteKit id now s₁ hrun | deleteConfiguration id now s₁ hrun =>
      exact (hs.queueMedia hrun).remove _
  | deleteMedia id now s₁ hrun => exact hs.queueMedia hrun
  | deletePeripheral => exact hs.remove _
  | createConfiguration new now => exact hs.insert new now
  | cloneConfiguration kit source now => exact (hs.insert _ now).of_eq rfl
  | patchConfiguration kit c patch now s₁ ht => exact absurd ht (hpatch kit c patch)
  | nothing | createKit | updateKit | addMember | patchKitMembership | deleteKitMembership
  | addPeripheral | patchPeripheral => exact hs.of_eq rfl

theorem patchConfiguration_recorded {e : Env} {kit : Kit} {c : KitConfiguration}
    {patch : KitConfigurationPatch} {s s' : Store} {r : Reply} (hs : s.ActivationHistory)
    (h : (patchConfiguration e kit c patch).run s = .ok (r, s')) : s'.ActivationHistory := by
  obtain ⟨-, s₁, hs₁, hunique, rfl⟩ := patchConfiguration_ok h
  refine .of_unique hunique (recorded_applyTo ?_)
  rcases hs₁ with rfl | rfl
  · exact hs.recorded
  · exact recorded_deactivateAll hs.recorded

theorem Task.tx_recorded {x : Crates} {e : Env} {t : Task} {s s' : Store} {n : Task ⊕ Reply}
    (hs : s.ActivationHistory) (h : (t.tx x e).run s = .ok (n, s')) : s'.ActivationHistory := by
  by_cases hpatch : ∃ kit c patch, t = .onConfiguration kit c (.patch patch)
  · obtain ⟨kit, c, patch, rfl⟩ := hpatch
    obtain ⟨_, h, -⟩ := finish_ok h
    exact patchConfiguration_recorded hs h
  · exact change_recorded hs (Task.tx_change h)
      fun kit c patch heq => hpatch ⟨kit, c, patch, heq⟩

/-- **One step of the backend.** -/
theorem backend_recorded {x : Crates} {strings : Strings} {e : BackendEnv} {t : BackendTask}
    {ts : List BackendTask} {s s' : Services} {k : Option BackendTask}
    (hs : s.store.ActivationHistory)
    (h : (backend x strings).advance e t ts s = some (s', k)) :
    s'.store.ActivationHistory
      ∧ s.store.kitConfigurations.Keeps KeepsRecord s'.store.kitConfigurations := by
  rcases backend_cases h
    with ⟨task, store, next, -, hapi, rfl, -⟩ | ⟨-, _, _, _, _, _, hstore⟩
  · refine ⟨?_, change_keepsRecord (api_change hapi)⟩
    rcases api_advance hapi with ⟨rfl, -⟩ | ⟨n, hr, -⟩
    · exact hs
    · exact Task.tx_recorded hs hr
  · rw [hstore]
    exact ⟨hs.of_eq rfl, .refl KeepsRecord.refl⟩

/-! ## What interleaved transactions keep

Statement by statement, two transactions may both be about to activate a
configuration of a kit. What the locks and the index leave is enough. -/

section Statements

variable {s : Store} {d : PatchTx}

/-- A transaction that switches a flag on finds no other configuration of the kit
active when it commits. -/
theorem PatchTx.sole_of_activates (hd : d.Sound s) {f f' : Flag} (hf : f ∈ s.flags)
    (hf' : f' ∈ s.flags) (hoff : f.active = false) (hon : (d.write f).active = true)
    (hon' : (d.write f').active = true) (hkit : f.kitId = f'.kitId) :
    f.kitConfigurationId = f'.kitConfigurationId := by
  obtain ⟨hid, hactivates⟩ := activates_of_write hoff hon
  cases hoff' : f'.active with
  | false => rw [hid, (activates_of_write hoff' hon').1]
  | true =>
      obtain ⟨f₀, hf₀, hid₀, hkit₀⟩ := hd.configuration
      obtain rfl := Store.flag_unique hf hf₀ (hid.trans hid₀.symm)
      have hofKit : f'.kitId = d.kit.id := hkit.symm.trans hkit₀
      by_cases hown : f'.kitConfigurationId = d.kitConfiguration.id
      · rw [hid, hown]
      · -- the other one was not switched off, so this transaction has not deactivated the kit
        have hdeactivated : d.deactivated = false := by
          simpa [write, hown, hofKit, hoff'] using hon'
        exact absurd (hd.sole hactivates hdeactivated f' hf' hofKit hoff') hown

/-- **A commit leaves at most one active configuration of each kit.** -/
theorem Store.ActivationHistory.seen (hs : s.ActivationHistory) (hd : d.Sound s) :
    (d.seen s).ActivationHistory where
  sole := by
    intro c hc c' hc' hon hon' hkit
    have hflags := PatchTx.flags_seen d s
    have hmem : ∀ c ∈ (d.seen s).kitConfigurations, ∃ f ∈ s.flags, d.write f = c.flag := by
      intro c hc
      have hflag : c.flag ∈ (d.seen s).flags := List.mem_map_of_mem hc
      rw [hflags] at hflag
      exact List.mem_map.mp hflag
    obtain ⟨f, hf, hfc⟩ := hmem c hc
    obtain ⟨f', hf', hfc'⟩ := hmem c' hc'
    have hwrite : (d.write f).active = true := by rw [hfc]; exact hon
    have hwrite' : (d.write f').active = true := by rw [hfc']; exact hon'
    have hid : f.kitConfigurationId = c.id := congrArg Flag.kitConfigurationId hfc
    have hid' : f'.kitConfigurationId = c'.id := congrArg Flag.kitConfigurationId hfc'
    have hkits : f.kitId = f'.kitId :=
      (congrArg Flag.kitId hfc).trans (hkit.trans (congrArg Flag.kitId hfc').symm)
    refine SerialTable.eq_of_key_eq hc hc' ?_
    rw [← hid, ← hid']
    cases hactive : f.active with
    | false => exact PatchTx.sole_of_activates hd hf hf' hactive hwrite hwrite' hkits
    | true =>
        cases hactive' : f'.active with
        | false =>
            exact (PatchTx.sole_of_activates hd hf' hf hactive' hwrite' hwrite hkits.symm).symm
        | true =>
            obtain ⟨c₀, hc₀, rfl⟩ := List.mem_map.mp hf
            obtain ⟨c₀', hc₀', rfl⟩ := List.mem_map.mp hf'
            rw [hs.sole c₀ hc₀ c₀' hc₀' hactive hactive' hkits]
  recorded := by
    have hdeactivated : ∀ c ∈ (if d.deactivated then
        KitConfiguration.deactivateAll d.kit.id d.now s else s).kitConfigurations,
        c.active = true → c.firstActivatedAt.isSome = true := by
      split
      · exact recorded_deactivateAll hs.recorded
      · exact hs.recorded
    unfold PatchTx.seen
    dsimp only
    split
    · exact recorded_applyTo hdeactivated
    · exact hdeactivated
  neverUsed := fun c _ => Option.isNone_iff_eq_none

theorem keepsRecord_seen (s : Store) (d : PatchTx) :
    s.kitConfigurations.Keeps KeepsRecord (d.seen s).kitConfigurations := by
  have hdeactivated : s.kitConfigurations.Keeps KeepsRecord (if d.deactivated then
      KitConfiguration.deactivateAll d.kit.id d.now s else s).kitConfigurations := by
    split
    · exact keeps_deactivateAll s d.kit.id d.now
    · exact .refl KeepsRecord.refl
  unfold PatchTx.seen
  dsimp only
  split
  · exact hdeactivated.trans KeepsRecord.trans (keeps_applyTo _ _ d.now)
  · exact hdeactivated

end Statements

/-! ## Runs -/

section Runs

variable {x : Crates} {strings : Strings}

theorem backend_history {s₀ : Store} {c c' : Conc Services BackendTask}
    {ls : List (Sched BackendRequest BackendEnv)}
    (hc : c.store.store.ActivationHistory
      ∧ s₀.kitConfigurations.Keeps KeepsRecord c.store.store.kitConfigurations)
    (hrun : Run.exec (backend x strings).step c ls = some c') :
    c'.store.store.ActivationHistory
      ∧ s₀.kitConfigurations.Keeps KeepsRecord c'.store.store.kitConfigurations := by
  refine @Program.store_exec _ _ _ _ (backend x strings) (fun s => s.store.ActivationHistory
    ∧ s₀.kitConfigurations.Keeps KeepsRecord s.store.kitConfigurations) ?_ _ _ _ hc hrun
  intro e t ts s s' k hs h
  obtain ⟨hhistory, hkeeps⟩ := backend_recorded hs.1 h
  exact ⟨hhistory, hs.2.trans KeepsRecord.trans hkeeps⟩

/-- The same for patches, statement by statement. -/
def PatchesHistory (s₀ : Store) : Conc Activations PatchTask → Prop :=
  Program.HoldsPairwise (fun s => s.store.ActivationHistory
      ∧ s₀.kitConfigurations.Keeps KeepsRecord s.store.kitConfigurations)
    (fun s t => t.Sound s.store) PatchTask.Compatible

theorem patches_history {s₀ : Store} {c c' : Conc Activations PatchTask}
    {ls : List (Sched PatchRequest Env)} (hc : PatchesHistory s₀ c)
    (hrun : Run.exec (patches x).step c ls = some c') : PatchesHistory s₀ c' := by
  refine Run.exec_invariant (fun c l c' hc h => ?_) hc hrun
  refine patches_step (fun e d ts s _ hs hd _ => ?_) hc (Program.ok_true c l) h
  exact ⟨hs.1.seen hd, hs.2.trans KeepsRecord.trans (keepsRecord_seen s.store d)⟩

/-- **The history of activations**, in every state that the backend reaches: each
kit has at most one active configuration, an active configuration has a record,
`never_used` says whether there is one, and a record stays as it is until its
configuration is deleted. The same holds of the states that patches reach from
there when their transactions are interleaved statement by statement. -/
theorem activation_history {ls₁ ls₂ : List (Sched BackendRequest BackendEnv)}
    {c₁ c₂ : Conc Services BackendTask}
    (hrun₁ : Run.exec (backend x strings).step ⟨.start .empty, []⟩ ls₁ = some c₁)
    (hrun₂ : Run.exec (backend x strings).step c₁ ls₂ = some c₂) :
    c₂.store.store.ActivationHistory
      ∧ c₁.store.store.SameFirstActivations c₂.store.store
      ∧ ∀ ls₃ c₃ ls₄ c₄,
        Run.exec (patches x).step ⟨⟨c₂.store.store, []⟩, []⟩ ls₃ = some c₃ →
        Run.exec (patches x).step c₃ ls₄ = some c₄ →
          c₄.store.store.ActivationHistory
            ∧ c₃.store.store.SameFirstActivations c₄.store.store := by
  obtain ⟨hhistory₁, -⟩ := backend_history ⟨.empty, .refl KeepsRecord.refl⟩ hrun₁
  obtain ⟨hhistory₂, hkeeps⟩ := backend_history ⟨hhistory₁, .refl KeepsRecord.refl⟩ hrun₂
  refine ⟨hhistory₂, sameFirstActivations_of_keeps hkeeps, ?_⟩
  intro ls₃ c₃ ls₄ c₄ hrun₃ hrun₄
  have hstart : PatchesHistory c₂.store.store ⟨⟨c₂.store.store, []⟩, []⟩ :=
    ⟨⟨⟨hhistory₂, .refl KeepsRecord.refl⟩, fun t ht => by cases ht⟩, List.Pairwise.nil⟩
  obtain ⟨⟨⟨hhistory₃, -⟩, hsound⟩, hcompatible⟩ := patches_history hstart hrun₃
  have hlater : PatchesHistory c₃.store.store c₃ :=
    ⟨⟨⟨hhistory₃, .refl KeepsRecord.refl⟩, hsound⟩, hcompatible⟩
  obtain ⟨⟨⟨hhistory₄, hkeeps₄⟩, -⟩, -⟩ := patches_history hlater hrun₄
  exact ⟨hhistory₄, sameFirstActivations_of_keeps hkeeps₄⟩

end Runs

/-- A kit with a configuration that is activated. -/
def activateFirst : List (Sched BackendRequest BackendEnv) :=
  [.spawn (.account (.createUser ⟨"ada", "", "ada@astroplant.io"⟩)),
    .run 0 {}, .run 0 {}, .run 0 {},
    .spawn (.service (.api (.createKit 1 ⟨none, none, none, none, true, true⟩))),
    .run 0 { serial := "k1" },
    .spawn (.service (.api (.createConfiguration (some 1) "k1" (some none) none))),
    .run 0 {}, .run 0 {},
    .spawn (.service (.api
      (.onConfiguration (some 1) 1 (.patch ⟨none, none, none, none, some true⟩)))),
    .run 0 {}, .run 0 {}, .run 0 { now := 5 }]

/-- A clone of it is activated in its place. -/
def activateClone : List (Sched BackendRequest BackendEnv) :=
  [.spawn (.service (.api (.createConfiguration (some 1) "k1" none (some 1)))),
    .run 0 {}, .run 0 {}, .run 0 {},
    .spawn (.service (.api
      (.onConfiguration (some 1) 2 (.patch ⟨none, none, none, none, some true⟩)))),
    .run 0 {}, .run 0 {}, .run 0 { now := 9 }]

theorem activation_history_clone :
    ∃ c₁ c₂, Run.exec (backend plainCrates .ascii).step ⟨.start .empty, []⟩ activateFirst = some c₁
      ∧ Run.exec (backend plainCrates .ascii).step c₁ activateClone = some c₂
      ∧ c₂.store.store.kitConfigurations.rows.map (fun c => (c.active, c.firstActivatedAt))
        = [(false, some 5), (true, some 9)]
      ∧ c₂.store.store.ActivationHistory
      ∧ c₁.store.store.SameFirstActivations c₂.store.store := by
  have hflags : (Run.exec (backend plainCrates .ascii).step ⟨.start .empty, []⟩
      (activateFirst ++ activateClone)).map (fun c =>
        c.store.store.kitConfigurations.rows.map fun c => (c.active, c.firstActivatedAt))
      = some [(false, some 5), (true, some 9)] := by
    decide +kernel
  obtain ⟨c₂, hrun, hflags⟩ := Option.map_eq_some_iff.mp hflags
  obtain ⟨c₁, hrun₁, hrun₂⟩ := Run.exec_append.mp hrun
  obtain ⟨hhistory, hsame, -⟩ := activation_history hrun₁ hrun₂
  exact ⟨c₁, c₂, hrun₁, hrun₂, hflags, hhistory, hsame⟩

end AstroPlant
