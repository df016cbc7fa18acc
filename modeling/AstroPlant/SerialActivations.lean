import AstroPlant.Activations
import AstroPlant.Ownership
import Mathlib.Data.List.Permutation

/-!
# Activating and deactivating, one request after the other

What patches do to the active flags should be what they do one after the other:
activating a configuration makes it the only active one of its kit, and
deactivating one leaves the others as they are. A transaction decides with the
row that its request read earlier whether it deactivates the whole kit, so a
request to deactivate may switch off a configuration that was activated in
between (`deactivation_spreads`). In every run in which no transaction does that,
the flags are those of the committed requests in the order of their commits
(`activations_serialisable`).

The serial order is that of the commits, and it is part of the state. The flags
of the store are at all times what the committed requests make of the first
flags, one after the other (`serially`); what an open transaction has done is
what its own request would do to the flags now (`isolated_eq_flags_seen`). For
that it is needed that two open transactions do not touch each other's rows: row
locks keep their writes apart and the index keeps two activations in one kit
apart (`Compatible`), so that a commit breaks nothing another transaction relies
on (`sound_seen`).
-/

namespace AstroPlant

/-! ## The flags, and the requests in isolation -/

structure Flag where
  kitConfigurationId : Int
  kitId : Int
  active : Bool
deriving DecidableEq

def KitConfiguration.flag (c : KitConfiguration) : Flag := ⟨c.id, c.kitId, c.active⟩

def Store.flags (s : Store) : List Flag := s.kitConfigurations.rows.map KitConfiguration.flag

/-- A request by itself. -/
def Activation.isolated (a : Activation) (flags : List Flag) : List Flag :=
  match a.active with
  | some true =>
      let ofKit := fun kitId =>
        flags.any fun f => f.kitConfigurationId = a.kitConfigurationId && f.kitId = kitId
      flags.map fun f =>
        if ofKit f.kitId then
          { f with active := decide (f.kitConfigurationId = a.kitConfigurationId) }
        else f
  | some false =>
      flags.map fun f =>
        if f.kitConfigurationId = a.kitConfigurationId then { f with active := false } else f
  | none => flags

/-- The requests, one after the other. -/
def serially (as : List Activation) (flags : List Flag) : List Flag :=
  as.foldl (fun flags a => a.isolated flags) flags

/-- The flags are those of the committed requests in some order. -/
def Serialisable (s₀ : Store) (s : Activations) : Prop :=
  ∃ order : List Activation, order.Perm s.committed ∧ s.store.flags = serially order s₀.flags

/-- A transaction that deactivated its kit for a request to deactivate finds no
other configuration of the kit active when it commits. -/
def PatchTask.contained (s : Store) : PatchTask → Bool
  | transaction ⟨kit, c, patch, _, .commit true⟩ =>
      patch.active != some false
        || s.flags.all fun f => f.kitId != kit.id || f.kitConfigurationId == c.id || !f.active
  | _ => true

def Contained : Conc Activations PatchTask → Sched PatchRequest Env → Prop :=
  Program.Ok (fun _ _ _ => True) fun _ t _ s => t.contained s.store = true

/-! ## What a transaction does to the flags -/

theorem Store.flag_unique {s : Store} {f f' : Flag} (hf : f ∈ s.flags) (hf' : f' ∈ s.flags)
    (hid : f.kitConfigurationId = f'.kitConfigurationId) : f = f' := by
  obtain ⟨c, hc, rfl⟩ := List.mem_map.mp hf
  obtain ⟨c', hc', rfl⟩ := List.mem_map.mp hf'
  rw [SerialTable.eq_of_key_eq hc hc' hid]

theorem Store.active_unique {s : Store} (hs : Store.activeUnique s.kitConfigurations.rows = true)
    {f f' : Flag} (hf : f ∈ s.flags) (hf' : f' ∈ s.flags) (hactive : f.active = true)
    (hactive' : f'.active = true) (hkit : f.kitId = f'.kitId) : f = f' := by
  obtain ⟨c, hc, rfl⟩ := List.mem_map.mp hf
  obtain ⟨c', hc', rfl⟩ := List.mem_map.mp hf'
  have hnodup := of_decide_eq_true hs
  rw [List.inj_on_of_nodup_map hnodup (List.mem_filter.mpr ⟨hc, hactive⟩)
    (List.mem_filter.mpr ⟨hc', hactive'⟩) hkit]

theorem Store.flags_deactivateAll (kitId : Int) (now : Timestamp) (s : Store) :
    (KitConfiguration.deactivateAll kitId now s).flags
      = s.flags.map fun f => if f.kitId = kitId then { f with active := false } else f := by
  simp only [flags, KitConfiguration.deactivateAll, SerialTable.update, Table.update,
    List.map_map]
  refine List.map_congr_left fun c _ => ?_
  by_cases hkit : c.kitId = kitId
  · simp [hkit, KitConfiguration.flag, KitConfiguration.deactivate, kitConfigurationTrigger]
  · simp [hkit, KitConfiguration.flag]

theorem Store.flags_applyTo (u : UpdateKitConfiguration) (now : Timestamp) (s : Store) :
    (u.applyTo now s).flags = s.flags.map fun f =>
      if f.kitConfigurationId = u.id then { f with active := u.active.getD f.active } else f := by
  simp only [flags, UpdateKitConfiguration.applyTo, SerialTable.update, Table.update,
    List.map_map]
  refine List.map_congr_left fun c _ => ?_
  by_cases hid : c.id = u.id
  · simp [hid, KitConfiguration.flag, UpdateKitConfiguration.apply, kitConfigurationTrigger]
  · simp [hid, KitConfiguration.flag]

namespace PatchTx

/-- The flag of a row after what the transaction has done. -/
def write (d : PatchTx) (f : Flag) : Flag :=
  let active := if d.deactivated && f.kitId == d.kit.id then false else f.active
  { f with
    active :=
      if d.patched && f.kitConfigurationId == d.kitConfiguration.id then
        d.patch.active.getD active
      else active }

theorem flags_seen (d : PatchTx) (s : Store) : (d.seen s).flags = s.flags.map d.write := by
  have hdeactivate : (if d.deactivated then KitConfiguration.deactivateAll d.kit.id d.now s
      else s).flags = s.flags.map fun f =>
        if d.deactivated && f.kitId == d.kit.id then { f with active := false } else f := by
    cases d.deactivated with
    | false => simp
    | true => simpa using Store.flags_deactivateAll d.kit.id d.now s
  rw [seen]
  cases hp : d.patched with
  | false =>
      rw [if_neg (by simp), hdeactivate]
      refine List.map_congr_left fun f _ => ?_
      simp only [write, hp]
      split <;> rfl
  | true =>
      rw [if_pos rfl, Store.flags_applyTo, hdeactivate, List.map_map]
      refine List.map_congr_left fun f _ => ?_
      simp only [write, hp, changes, KitConfigurationPatch.update, Function.comp]
      by_cases hid : f.kitConfigurationId = d.kitConfiguration.id
      · split <;> simp [hid]
      · split <;> simp [hid]

end PatchTx

/-! ## Which transactions are open together -/

/-- The configuration is there, in this kit. -/
def Store.HasConfiguration (s : Store) (id kitId : Int) : Prop :=
  ∃ f ∈ s.flags, f.kitConfigurationId = id ∧ f.kitId = kitId

/-- No other configuration of the kit is active. -/
def Store.NoOther (s : Store) (id kitId : Int) : Prop :=
  ∀ f ∈ s.flags, f.kitId = kitId → f.active = true → f.kitConfigurationId = id

namespace PatchTx

def activates (d : PatchTx) : Bool := d.patched && d.patch.active == some true

/-- What a transaction knows: the configuration is there, it has only
deactivated if it sets the flag, and if it has activated without deactivating
then because no other configuration is active. -/
structure Sound (s : Store) (d : PatchTx) : Prop where
  configuration : s.HasConfiguration d.kitConfiguration.id d.kit.id
  asked : d.stage = .deactivateAll ∨ d.deactivated = true → d.patch.active.isSome = true
  sole : d.activates = true → d.deactivated = false →
    s.NoOther d.kitConfiguration.id d.kit.id

/-- What the locks keep two open transactions from: within a kit, one that has
deactivated it is the only one to have written, and only one can have
activated. -/
def Compatible (d d' : PatchTx) : Prop :=
  d.kit.id = d'.kit.id →
    ¬(d.deactivated = true ∧ d'.patched = true) ∧ ¬(d'.deactivated = true ∧ d.patched = true)
      ∧ ¬(d.activates = true ∧ d'.activates = true)

theorem Compatible.symm {d d' : PatchTx} (h : d.Compatible d') : d'.Compatible d := by
  intro hkit
  obtain ⟨h₁, h₂, h₃⟩ := h hkit.symm
  exact ⟨h₂, h₁, fun hboth => h₃ ⟨hboth.2, hboth.1⟩⟩

/-- Everything one statement of a transaction can do. -/
theorem advance_cases {d : PatchTx} {others : List PatchTx} {s s' : Store}
    {next : Option PatchTx} (h : d.advance others s = some (s', next)) :
    (s' = s ∧ next = none ∧ d.patched = false)
      ∨ (s' = s ∧ d.stage = .deactivateAll ∧ next = some { d with stage := .update true }
        ∧ ∀ c ∈ s.kitConfigurations, c.kitId = d.kit.id → ∀ d' ∈ others, d'.writes c = false)
      ∨ (s' = s ∧ ∃ b c, d.stage = .update b ∧ next = some { d with stage := .commit b }
        ∧ KitConfiguration.byId d.kitConfiguration.id (d.seen s) = some c
        ∧ (∀ d' ∈ others, d'.writes c = false)
        ∧ ((d.changes.apply d.now c).active = true → ∀ d' ∈ others, d'.holdsIndex s c.kitId = false)
        ∧ Store.activeUnique (d.changes.applyTo d.now (d.seen s)).kitConfigurations.rows = true)
      ∨ (d.patched = true ∧ s' = d.seen s ∧ next = none) := by
  unfold advance at h
  split at h
  · rename_i hstage
    dsimp only at h
    split at h
    · cases h
    · rename_i hwaits
      cases h
      refine Or.inr (Or.inl ⟨rfl, hstage, rfl, fun c hc hkit d' hd' => ?_⟩)
      rw [Bool.not_eq_true] at hwaits
      have hrow := List.any_eq_false.mp hwaits c
        (List.mem_filter.mpr ⟨hc, decide_eq_true hkit⟩)
      rw [Bool.not_eq_true] at hrow
      simpa using List.any_eq_false.mp hrow d' hd'
  · rename_i b hstage
    have hpatched : d.patched = false := by
      simp [patched, hstage]
    split at h
    · cases h
      exact Or.inl ⟨rfl, rfl, hpatched⟩
    · rename_i c hc
      dsimp only at h
      split at h
      · cases h
      · rename_i hwaits
        rw [Bool.not_eq_true, Bool.or_eq_false_iff] at hwaits
        split at h
        · cases h
          exact Or.inl ⟨rfl, rfl, hpatched⟩
        · rename_i r hrun
          cases h
          obtain ⟨c', s₁⟩ := r
          obtain ⟨rfl, hunique⟩ := UpdateKitConfiguration.update_ok hrun
          refine Or.inr (Or.inr (Or.inl ⟨rfl, b, c, hstage, rfl, hc, fun d' hd' => ?_,
            fun hactive d' hd' => ?_, hunique⟩))
          · simpa using List.any_eq_false.mp hwaits.1 d' hd'
          · have hindex := hwaits.2
            rw [hactive, Bool.true_and] at hindex
            simpa using List.any_eq_false.mp hindex d' hd'
  · rename_i b hstage
    cases h
    have hpatched : d.patched = true := by
      simp [patched, hstage]
    exact Or.inr (Or.inr (Or.inr ⟨hpatched, rfl, rfl⟩))

/-! ### Its own assertion -/

theorem hasConfiguration_seen {s : Store} {id kitId : Int} (d : PatchTx)
    (h : s.HasConfiguration id kitId) : (d.seen s).HasConfiguration id kitId := by
  obtain ⟨f, hf, hid, hkit⟩ := h
  refine ⟨d.write f, ?_, hid, hkit⟩
  rw [flags_seen]
  exact List.mem_map_of_mem hf

theorem deactivated_start (e : Env) (kit : Kit) (c : KitConfiguration)
    (patch : KitConfigurationPatch) : (start e kit c patch).deactivated = false := by
  by_cases hany : patch.active.any (· != c.active) = true
  · simp [start, deactivated, hany]
  · simp [start, deactivated, hany]

theorem patched_start (e : Env) (kit : Kit) (c : KitConfiguration)
    (patch : KitConfigurationPatch) : (start e kit c patch).patched = false := by
  by_cases hany : patch.active.any (· != c.active) = true
  · simp [start, patched, hany]
  · simp [start, patched, hany]

theorem sound_start {e : Env} {kit : Kit} {c : KitConfiguration} {patch : KitConfigurationPatch}
    {s : Store} (h : s.HasConfiguration c.id kit.id) : (start e kit c patch).Sound s := by
  refine ⟨h, ?_, fun hactivates => ?_⟩
  · rintro (hstage | hdeactivated)
    · simp only [start] at hstage ⊢
      split at hstage
      · rename_i hany
        cases hb : patch.active with
        | none => simp [hb] at hany
        | some b => rfl
      · cases hstage
    · rw [deactivated_start] at hdeactivated
      cases hdeactivated
  · rw [activates, patched_start] at hactivates
    cases hactivates

theorem compatible_start {e : Env} {kit : Kit} {c : KitConfiguration}
    {patch : KitConfigurationPatch} (d : PatchTx) : (start e kit c patch).Compatible d := by
  intro _
  rw [activates, deactivated_start, patched_start]
  simp

/-- Deactivating: no other transaction has written a row of the kit. -/
theorem sound_deactivateAll {s : Store} {d : PatchTx} (hs : d.Sound s)
    (hstage : d.stage = .deactivateAll) : ({ d with stage := .update true } : PatchTx).Sound s :=
  ⟨hs.configuration, fun _ => hs.asked (Or.inl hstage), fun hactivates => by cases hactivates⟩

theorem row_of_hasConfiguration {s : Store} {id kitId : Int} (h : s.HasConfiguration id kitId) :
    ∃ c ∈ s.kitConfigurations, c.id = id ∧ c.kitId = kitId := by
  obtain ⟨f, hf, rfl, rfl⟩ := h
  obtain ⟨c, hc, rfl⟩ := List.mem_map.mp hf
  exact ⟨c, hc, rfl, rfl⟩

theorem writes_of_deactivated {d : PatchTx} {c : KitConfiguration} (hd : d.deactivated = true)
    (hkit : c.kitId = d.kit.id) : d.writes c = true := by
  simp [writes, hd, hkit]

theorem writes_of_patched {d : PatchTx} {c : KitConfiguration} (hd : d.patched = true)
    (hid : c.id = d.kitConfiguration.id) : d.writes c = true := by
  simp [writes, hd, hid]

theorem compatible_deactivateAll {s : Store} {d d' : PatchTx} (hd' : d'.Sound s)
    (hwaits : ∀ c ∈ s.kitConfigurations, c.kitId = d.kit.id → d'.writes c = false) :
    ({ d with stage := .update true } : PatchTx).Compatible d' := by
  intro hkit
  refine ⟨fun ⟨_, hpatched⟩ => ?_, fun ⟨_, hpatched⟩ => ?_, fun ⟨hactivates, _⟩ => ?_⟩
  · obtain ⟨c, hc, hid, hckit⟩ := row_of_hasConfiguration hd'.configuration
    have hfree := hwaits c hc (hckit.trans hkit.symm)
    rw [writes_of_patched hpatched hid] at hfree
    cases hfree
  · cases hpatched
  · cases hactivates

/-- The row that a transaction sees of a row of the store. -/
theorem byId_seen {s : Store} {d : PatchTx} {c : KitConfiguration}
    (hc : c ∈ s.kitConfigurations) :
    ∃ r, KitConfiguration.byId c.id (d.seen s) = some r ∧ r.flag = d.write c.flag := by
  have hmem : d.write c.flag ∈ (d.seen s).flags := by
    rw [flags_seen]
    exact List.mem_map_of_mem (List.mem_map_of_mem hc)
  obtain ⟨r, hr, hflag⟩ := List.mem_map.mp hmem
  have hid : r.id = c.id := congrArg Flag.kitConfigurationId hflag
  exact ⟨r, SerialTable.find?_eq_some.mpr ⟨hr, hid⟩, hflag⟩

/-- A transaction that has activated holds the index of its kit. -/
theorem holdsIndex_of_activates {s : Store} {d : PatchTx} (hd : d.Sound s)
    (hactivates : d.activates = true) : d.holdsIndex s d.kit.id = true := by
  obtain ⟨c, hc, hid, hkit⟩ := row_of_hasConfiguration hd.configuration
  simp only [activates, Bool.and_eq_true, beq_iff_eq] at hactivates
  obtain ⟨hpatched, hactive⟩ := hactivates
  obtain ⟨r, hr, hflag⟩ := byId_seen (d := d) hc
  have hractive : r.active = true := by
    have hwrite := congrArg Flag.active hflag
    simpa [write, hpatched, hactive, KitConfiguration.flag, hid] using hwrite
  refine List.any_eq_true.mpr ⟨c, hc, ?_⟩
  rw [writes_of_patched hpatched hid, hr]
  simp [hkit, hractive]

/-- Updating: no other transaction has written the row, and if the row becomes
active none has touched the index of the kit. -/
theorem sound_update {s : Store} {d : PatchTx} {b : Bool} (hs : d.Sound s)
    (hstage : d.stage = .update b)
    (hunique : Store.activeUnique (d.changes.applyTo d.now (d.seen s)).kitConfigurations.rows
      = true) : ({ d with stage := .commit b } : PatchTx).Sound s := by
  have hdeactivated : d.deactivated = b := by
    simp [deactivated, hstage]
  refine ⟨hs.configuration, fun hd => hs.asked (Or.inr ?_), fun hactivates hb => ?_⟩
  · rcases hd with hd | hd
    · cases hd
    · exact hdeactivated.trans hd
  · -- the transaction sees the committed flags, with its own one set
    obtain rfl : b = false := hb
    have hseen : d.changes.applyTo d.now (d.seen s)
        = ({ d with stage := .commit false } : PatchTx).seen s := by
      simp [seen, deactivated, patched, hstage, changes]
    rw [hseen] at hunique
    obtain ⟨f₀, hf₀, hid₀, hkit₀⟩ := hs.configuration
    have hactive : d.patch.active = some true := by
      simpa [activates, patched] using hactivates
    intro f hf hkit hf_active
    by_contra hne
    have hmem : ∀ f ∈ s.flags, ({ d with stage := .commit false } : PatchTx).write f
        ∈ (({ d with stage := .commit false } : PatchTx).seen s).flags := by
      intro f hf
      rw [flags_seen]
      exact List.mem_map_of_mem hf
    have heq := Store.active_unique hunique (hmem f hf) (hmem f₀ hf₀)
      (by simp [write, patched, deactivated, hne, hf_active])
      (by simp [write, patched, hid₀, hactive]) (hkit.trans hkit₀.symm)
    exact hne ((congrArg Flag.kitConfigurationId heq).trans hid₀)

theorem compatible_update {s : Store} {d d' : PatchTx} {b : Bool} {c : KitConfiguration}
    (hs : d.Sound s) (hd' : d'.Sound s) (hcompat : d.Compatible d') (hstage : d.stage = .update b)
    (hc : KitConfiguration.byId d.kitConfiguration.id (d.seen s) = some c)
    (hwaits : d'.writes c = false)
    (hindex : (d.changes.apply d.now c).active = true → d'.holdsIndex s c.kitId = false) :
    ({ d with stage := .commit b } : PatchTx).Compatible d' := by
  intro hkit
  have hckit : c.kitId = d.kit.id := by
    obtain ⟨c₀, hc₀, hid₀, hkit₀⟩ := row_of_hasConfiguration hs.configuration
    obtain ⟨r, hr, hflag⟩ := byId_seen (d := d) hc₀
    rw [hid₀, hc] at hr
    obtain rfl := Option.some.inj hr
    exact (congrArg Flag.kitId hflag).trans hkit₀
  refine ⟨fun ⟨hd, hpatched⟩ => ?_, fun ⟨hd, _⟩ => ?_, fun ⟨ha, ha'⟩ => ?_⟩
  · refine (hcompat hkit).1 ⟨?_, hpatched⟩
    simpa [deactivated, hstage] using hd
  · rw [writes_of_deactivated hd (hckit.trans hkit)] at hwaits
    cases hwaits
  · have hactive : d.patch.active = some true := by
      simpa [activates, patched] using ha
    have hfree := hindex (by
      simp [changes, UpdateKitConfiguration.apply, KitConfigurationPatch.update,
        Store.kitConfigurationTrigger, hactive])
    rw [hckit, hkit, holdsIndex_of_activates hd' ha'] at hfree
    cases hfree

/-! ### Commits -/

theorem noOther_of_contained {s : Store} {d : PatchTx}
    (hcontained : (PatchTask.transaction d).contained s = true) (hpatched : d.patched = true)
    (hdeactivated : d.deactivated = true) (hactive : d.patch.active = some false) :
    s.NoOther d.kitConfiguration.id d.kit.id := by
  obtain ⟨kit, c, patch, now, stage⟩ := d
  cases stage with
  | deactivateAll | update _ => cases hpatched
  | commit b =>
      obtain rfl : b = true := hdeactivated
      have hactive' : patch.active = some false := hactive
      simp only [PatchTask.contained, hactive', bne_self_eq_false, Bool.false_or] at hcontained
      intro f hf hkit hf_active
      have hother := List.all_eq_true.mp hcontained f hf
      simpa [hkit, hf_active] using hother

theorem kitId_iff {s : Store} {d : PatchTx} (hs : d.Sound s) (kitId : Int) :
    (s.flags.any fun f => f.kitConfigurationId = d.kitConfiguration.id && f.kitId = kitId) = true
      ↔ kitId = d.kit.id := by
  obtain ⟨f₀, hf₀, hid₀, hkit₀⟩ := hs.configuration
  rw [List.any_eq_true]
  constructor
  · rintro ⟨f, hf, hand⟩
    simp only [Bool.and_eq_true, decide_eq_true_eq] at hand
    obtain ⟨hid, hkit⟩ := hand
    obtain rfl := Store.flag_unique hf hf₀ (hid.trans hid₀.symm)
    exact hkit.symm.trans hkit₀
  · rintro rfl
    exact ⟨f₀, hf₀, by simp [hid₀, hkit₀]⟩

/-- **What a contained transaction commits** is what its request does by
itself. -/
theorem isolated_eq_flags_seen {s : Store} {d : PatchTx} (hs : d.Sound s)
    (hpatched : d.patched = true)
    (hcontained : (PatchTask.transaction d).contained s = true) :
    d.activation.isolated s.flags = (d.seen s).flags := by
  rw [flags_seen]
  cases hactive : d.patch.active with
  | none =>
      have hdeactivated : d.deactivated = false := by
        by_contra hd
        have hsome := hs.asked (Or.inr (by simpa using hd))
        rw [hactive] at hsome
        cases hsome
      have hsame : ∀ f ∈ s.flags, d.write f = f := by
        intro f _
        simp [write, hdeactivated, hactive]
      simp only [Activation.isolated, activation, hactive]
      rw [List.map_congr_left hsame, List.map_id']
  | some b =>
      cases b with
      | false =>
          simp only [Activation.isolated, activation, hactive]
          refine List.map_congr_left fun f hf => ?_
          by_cases hid : f.kitConfigurationId = d.kitConfiguration.id
          · simp [write, hpatched, hid, hactive]
          · by_cases hspread : d.deactivated = true ∧ f.kitId = d.kit.id
            · -- the transaction has deactivated the kit, where nothing else was active
              have hoff : f.active = false := by
                by_contra hon
                exact hid (noOther_of_contained hcontained hpatched hspread.1 hactive f hf
                  hspread.2 (by simpa using hon))
              have hwrite : d.write f = { f with active := false } := by
                simp [write, hid, hspread.1, hspread.2]
              rw [if_neg hid, hwrite, ← hoff]
            · rw [not_and] at hspread
              have hcond : (d.deactivated && f.kitId == d.kit.id) = false := by
                simpa using hspread
              simp [write, hid, hcond]
      | true =>
          simp only [Activation.isolated, activation, hactive]
          refine List.map_congr_left fun f hf => ?_
          by_cases hkit : f.kitId = d.kit.id
          · rw [if_pos ((kitId_iff hs f.kitId).mpr hkit)]
            by_cases hid : f.kitConfigurationId = d.kitConfiguration.id
            · simp [write, hpatched, hid, hactive]
            · have hoff : d.deactivated = false → f.active = false := by
                intro hd
                by_contra hon
                have hactivates : d.activates = true := by
                  simp [activates, hpatched, hactive]
                exact hid (hs.sole hactivates hd f hf hkit (by simpa using hon))
              cases hd : d.deactivated with
              | true => simp [write, hid, hkit, hd]
              | false => simp [write, hid, hd, hoff hd]
          · rw [if_neg (mt (kitId_iff hs f.kitId).mp hkit)]
            have hid : f.kitConfigurationId ≠ d.kitConfiguration.id := by
              intro hid
              obtain ⟨f₀, hf₀, hid₀, hkit₀⟩ := hs.configuration
              rw [Store.flag_unique hf hf₀ (hid.trans hid₀.symm)] at hkit
              exact hkit hkit₀
            simp [write, hid, hkit]

/-- The only flag that a transaction switches on is that of its configuration. -/
theorem activates_of_write {d : PatchTx} {f : Flag} (hoff : f.active = false)
    (hon : (d.write f).active = true) :
    f.kitConfigurationId = d.kitConfiguration.id ∧ d.activates = true := by
  simp only [write, hoff, ite_self] at hon
  split at hon
  · rename_i hcond
    obtain ⟨hpatched, hid⟩ := Bool.and_eq_true_iff.mp hcond
    refine ⟨beq_iff_eq.mp hid, ?_⟩
    cases hpatch : d.patch.active with
    | none =>
        rw [hpatch] at hon
        cases hon
    | some b =>
        rw [hpatch, Option.getD_some] at hon
        simp [activates, hpatched, hpatch, hon]
  · cases hon

/-- A commit breaks nothing that another open transaction knows. -/
theorem sound_seen {s : Store} {d d' : PatchTx} (hd : d.Sound s) (hd' : d'.Sound s)
    (hcompat : d.Compatible d') : d'.Sound (d.seen s) := by
  refine ⟨hasConfiguration_seen d hd'.configuration, hd'.asked, fun hactivates hdeactivated => ?_⟩
  intro f' hf' hkit hactive
  rw [flags_seen] at hf'
  obtain ⟨f, hf, rfl⟩ := List.mem_map.mp hf'
  cases hon : f.active with
  | true => exact hd'.sole hactivates hdeactivated f hf hkit hon
  | false =>
      -- only the activation of another configuration of the kit could break it
      obtain ⟨hid, hboth⟩ := activates_of_write hon hactive
      obtain ⟨f₀, hf₀, hid₀, hkit₀⟩ := hd.configuration
      obtain rfl := Store.flag_unique hf hf₀ (hid.trans hid₀.symm)
      exact absurd ⟨hboth, hactivates⟩ (hcompat (hkit₀.symm.trans hkit)).2.2

end PatchTx

/-! ## Runs -/

namespace PatchTask

/-- Requests only patch, and know the kit of the configuration. -/
def Sound (s : Store) : PatchTask → Prop
  | request (.start (.onConfiguration _ _ (.patch _))) => True
  | request (.authorizeConfiguration _ kit c (.patch _))
  | request (.onConfiguration kit c (.patch _)) => s.HasConfiguration c.id kit.id
  | request _ => False
  | transaction d => d.Sound s

def Compatible (t u : PatchTask) : Prop :=
  ∀ d ∈ t.transaction?, ∀ d' ∈ u.transaction?, d.Compatible d'

theorem Sound.seen {s : Store} {d : PatchTx} {t : PatchTask} (hd : d.Sound s) (ht : t.Sound s)
    (hcompat : (transaction d).Compatible t) : t.Sound (d.seen s) := by
  cases t with
  | transaction d' =>
      exact PatchTx.sound_seen hd ht (hcompat d rfl d' rfl)
  | request task =>
      unfold Sound at ht ⊢
      split at ht
      · trivial
      · rename_i heq
        cases heq
        exact PatchTx.hasConfiguration_seen d ht
      · rename_i heq
        cases heq
        exact PatchTx.hasConfiguration_seen d ht
      · cases ht
      · rename_i heq
        cases heq

end PatchTask

theorem patches_request {x : Crates} {e : Env} {task : Task} {ts : List PatchTask}
    {s s' : Activations} {k : Option PatchTask} (ht : (PatchTask.request task).Sound s.store)
    (h : (patches x).advance e (.request task) ts s = some (s', k)) :
    s' = s ∧ ∀ t' ∈ k, t'.Sound s.store ∧ ∀ u, t'.Compatible u := by
  unfold PatchTask.Sound at ht
  split at ht
  · rename_i heq
    cases heq
    obtain ⟨store, next, hadv, rfl, rfl⟩ := patches_api (fun _ _ _ => by simp) h
    rcases api_advance hadv with ⟨rfl, rfl⟩ | ⟨n, hr, rfl⟩
    · exact ⟨rfl, fun _ ht' => by cases ht'⟩
    · obtain ⟨m, s₁, task, h₁, hr, rfl⟩ := andThen_ok hr
      obtain ⟨rfl, hc, hkit⟩ := getModelsFromKitConfigurationId_ok h₁
      obtain ⟨rfl, rfl⟩ := Tx.run_pure_ok.mp hr
      refine ⟨rfl, fun t' ht' => ?_⟩
      obtain rfl := Option.some.inj ht'
      refine ⟨?_, fun u d hd => by cases hd⟩
      have hmem := (KitConfiguration.mem_of_byId hc).1
      exact ⟨_, List.mem_map_of_mem hmem, rfl, (Kit.mem_of_byId hkit).2.symm⟩
  · rename_i heq
    cases heq
    obtain ⟨store, next, hadv, rfl, rfl⟩ := patches_api (fun _ _ _ => by simp) h
    rcases api_advance hadv with ⟨rfl, rfl⟩ | ⟨n, hr, rfl⟩
    · exact ⟨rfl, fun _ ht' => by cases ht'⟩
    · obtain ⟨m, s₁, task, h₁, hr, rfl⟩ := andThen_ok hr
      obtain ⟨rfl, -⟩ := authorize_ok h₁
      obtain ⟨rfl, rfl⟩ := Tx.run_pure_ok.mp hr
      refine ⟨rfl, fun t' ht' => ?_⟩
      obtain rfl := Option.some.inj ht'
      exact ⟨ht, fun u d hd => by cases hd⟩
  · rename_i heq
    cases heq
    simp only [patches] at h
    split at h
    · cases h
      refine ⟨rfl, fun t' ht' => ?_⟩
      obtain rfl := Option.some.inj ht'
      refine ⟨PatchTx.sound_start ht, fun u d hd d' _ => ?_⟩
      obtain rfl := Option.some.inj hd
      exact PatchTx.compatible_start d'
    · cases h
      exact ⟨rfl, fun _ ht' => by cases ht'⟩
  · cases ht
  · rename_i heq
    cases heq

/-- What the statements of a transaction change, and that they break nothing that
the open transactions know and share. -/
theorem patches_statement {x : Crates} {e : Env} {d : PatchTx} {ts : List PatchTask}
    {s s' : Activations} {k : Option PatchTask} (hd : d.Sound s.store)
    (hts : ∀ u ∈ ts, u.Sound s.store ∧ (PatchTask.transaction d).Compatible u)
    (h : (patches x).advance e (.transaction d) ts s = some (s', k)) :
    (s' = s ∨ d.patched = true ∧ s' = ⟨d.seen s.store, s.committed ++ [d.activation]⟩)
      ∧ (∀ t' ∈ k, t'.Sound s'.store ∧ ∀ u ∈ ts, t'.Compatible u)
      ∧ ∀ u ∈ ts, u.Sound s'.store := by
  obtain ⟨⟨store, next⟩, hadv, heq⟩ := Option.map_eq_some_iff.mp h
  cases heq
  have hothers : ∀ d' ∈ ts.filterMap PatchTask.transaction?,
      d'.Sound s.store ∧ d.Compatible d' := by
    intro d' hd'
    obtain ⟨u, hu, heq⟩ := List.mem_filterMap.mp hd'
    cases u with
    | request task => cases heq
    | transaction d₁ =>
        obtain rfl := Option.some.inj heq
        exact ⟨(hts _ hu).1, (hts _ hu).2 d rfl d₁ rfl⟩
  have hmem : ∀ u ∈ ts, ∀ d' ∈ u.transaction?, d' ∈ ts.filterMap PatchTask.transaction? :=
    fun u hu d' hd' => List.mem_filterMap.mpr ⟨u, hu, hd'⟩
  rcases PatchTx.advance_cases hadv with ⟨rfl, rfl, hpatched⟩
    | ⟨rfl, hstage, rfl, hwaits⟩ | ⟨rfl, b, c, hstage, rfl, hc, hwaits, hindex, hunique⟩
    | ⟨hpatched, rfl, rfl⟩
  · rw [hpatched]
    exact ⟨Or.inl rfl, (fun _ ht' => by cases ht'), fun u hu => (hts u hu).1⟩
  · have hpatched : d.patched = false := by
      simp [PatchTx.patched, hstage]
    rw [hpatched]
    refine ⟨Or.inl rfl, fun t' ht' => ?_, fun u hu => (hts u hu).1⟩
    obtain rfl := Option.some.inj ht'
    refine ⟨PatchTx.sound_deactivateAll hd hstage, fun u hu d₁ hd₁ d' hd' => ?_⟩
    obtain rfl := Option.some.inj hd₁
    have hd'ts := hmem u hu d' hd'
    exact PatchTx.compatible_deactivateAll (hothers d' hd'ts).1
      fun c hc hkit => hwaits c hc hkit d' hd'ts
  · have hpatched : d.patched = false := by
      simp [PatchTx.patched, hstage]
    rw [hpatched]
    refine ⟨Or.inl rfl, fun t' ht' => ?_, fun u hu => (hts u hu).1⟩
    obtain rfl := Option.some.inj ht'
    refine ⟨PatchTx.sound_update hd hstage hunique, fun u hu d₁ hd₁ d' hd' => ?_⟩
    obtain rfl := Option.some.inj hd₁
    have hd'ts := hmem u hu d' hd'
    exact PatchTx.compatible_update hd (hothers d' hd'ts).1 (hothers d' hd'ts).2 hstage hc
      (hwaits d' hd'ts) fun hactive => hindex hactive d' hd'ts
  · rw [hpatched]
    exact ⟨Or.inr ⟨rfl, rfl⟩, (fun _ ht' => by cases ht'),
      fun u hu => (hts u hu).1.seen hd (hts u hu).2⟩

/-- **The step lemma** for any assertion about the store and what has committed:
a transaction changes both at once, when it commits. -/
theorem patches_step {x : Crates} {I : Activations → Prop}
    {ok : Env → PatchTask → List PatchTask → Activations → Prop}
    (hI : ∀ e d ts s, ok e (.transaction d) ts s → I s → d.Sound s.store → d.patched = true →
      I ⟨d.seen s.store, s.committed ++ [d.activation]⟩)
    {c c' : Conc Activations PatchTask} {l : Sched PatchRequest Env}
    (hc : Program.HoldsPairwise I (fun s t => t.Sound s.store) PatchTask.Compatible c)
    (hok : Program.Ok (fun _ _ _ => True) ok c l) (h : (patches x).step c l = some c') :
    Program.HoldsPairwise I (fun s t => t.Sound s.store) PatchTask.Compatible c' := by
  refine Program.holdsPairwise_step (patches x) (fun t u htu d hd d' hd' => ?_)
    (fun r ts s _ _ => ⟨trivial, fun u d hd => by cases hd⟩)
    (fun e t ts s s' k hok hs ht hts hadv => ?_) hc hok h
  · exact (htu d' hd' d hd).symm
  · cases t with
    | request task =>
        obtain ⟨rfl, hk⟩ := patches_request ht hadv
        exact ⟨hs, fun t' ht' => ⟨(hk t' ht').1, fun u _ => (hk t' ht').2 u⟩,
          fun u hu => (hts u hu).1⟩
    | transaction d =>
        obtain ⟨hstore, hrest⟩ := patches_statement ht hts hadv
        refine ⟨?_, hrest⟩
        rcases hstore with rfl | ⟨hpatched, rfl⟩
        · exact hs
        · exact hI e d ts s hok hs ht hpatched

/-- The flags are those of the committed requests in the order of their
commits, and what the open transactions know and share. -/
def SerialRun (s₀ : Store) : Conc Activations PatchTask → Prop :=
  Program.HoldsPairwise (fun s => s.store.flags = serially s.committed s₀.flags)
    (fun s t => t.Sound s.store) PatchTask.Compatible

theorem serialRun_step {x : Crates} {s₀ : Store} {c c' : Conc Activations PatchTask}
    {l : Sched PatchRequest Env} (hc : SerialRun s₀ c) (hok : Contained c l)
    (h : (patches x).step c l = some c') : SerialRun s₀ c' := by
  refine patches_step (fun e d ts s hcontained hs hd hpatched => ?_) hc hok h
  have hisolated := PatchTx.isolated_eq_flags_seen hd hpatched hcontained
  rw [hs] at hisolated
  show (d.seen s.store).flags = serially (s.committed ++ [d.activation]) s₀.flags
  rw [← hisolated, serially, serially, List.foldl_append]
  rfl

/-- **Activations are serialisable** in every run in which no transaction that
deactivated the kit for a request to deactivate finds another configuration
active when it commits: the flags are those of the committed requests, one after
the other. -/
theorem activations_serialisable {x : Crates} {s₀ : Store} {ls : List (Sched PatchRequest Env)}
    {c : Conc Activations PatchTask}
    (hok : Run.Guarded (patches x).step Contained ⟨⟨s₀, []⟩, []⟩ ls)
    (hrun : Run.exec (patches x).step ⟨⟨s₀, []⟩, []⟩ ls = some c) : Serialisable s₀ c.store := by
  have hstart : SerialRun s₀ ⟨⟨s₀, []⟩, []⟩ :=
    ⟨⟨rfl, fun t ht => by cases ht⟩, .nil⟩
  have hserial := Run.exec_invariant_guarded (fun _ _ _ hI hl hs => serialRun_step hI hl hs)
    hstart hok hrun
  exact ⟨c.store.committed, .refl _, hserial.1.1⟩

/-- A kit with two configurations, the first of them active, and a member. -/
def twoConfigurations : Store :=
  let user := fun id => (⟨id, "bob", "bob", "", "bob", true, "", 1, 1⟩ : User)
  let kit := fun id => (⟨id, "k1", "", none, none, none, none, true, true, 1, 1⟩ : Kit)
  let configuration := fun active id =>
    (⟨id, 1, none, "", "", .null, active, some 1, 1, 1⟩ : KitConfiguration)
  { Store.empty with
    users := SerialTable.empty.insert user fun _ => rfl
    kits := SerialTable.empty.insert kit fun _ => rfl
    kitMemberships := SerialTable.empty.insert (fun id => ⟨id, 1, 1, 1, true, true⟩) fun _ => rfl
    kitConfigurations :=
      (SerialTable.empty.insert (configuration true) fun _ => rfl).insert (configuration false)
        fun _ => rfl }

def setActive (kitConfigurationId : Int) (active : Bool) : PatchRequest :=
  ⟨some 1, kitConfigurationId, ⟨none, none, none, none, some active⟩⟩

/-- Two requests overlap: the second one waits for the first one's commit. -/
def overlapping : List (Sched PatchRequest Env) :=
  [.spawn (setActive 1 false), .run 0 {}, .run 0 {}, .run 0 {}, .run 0 {},
    .spawn (setActive 2 true), .run 1 {}, .run 1 {}, .run 1 {}, .run 0 {}, .run 0 {},
    .run 0 {}, .run 0 {}, .run 0 {}]

theorem activations_serialisable_overlapping :
    ∃ c, Run.exec (patches plainCrates).step ⟨⟨twoConfigurations, []⟩, []⟩ overlapping = some c
      ∧ c.store.committed = [⟨1, some false⟩, ⟨2, some true⟩]
      ∧ c.store.store.flags = [⟨1, 1, false⟩, ⟨2, 1, true⟩]
      ∧ Serialisable twoConfigurations c.store := by
  have hrun : ∃ c, Run.exec (patches plainCrates).step ⟨⟨twoConfigurations, []⟩, []⟩
        overlapping = some c
      ∧ c.store.committed = [⟨1, some false⟩, ⟨2, some true⟩]
      ∧ c.store.store.flags = [⟨1, 1, false⟩, ⟨2, 1, true⟩] :=
    ⟨_, rfl, rfl, rfl⟩
  have hok : Run.Guarded (patches plainCrates).step
      (Program.Ok (fun _ _ _ => True) fun _ t _ s => t.contained s.store = true)
      ⟨⟨twoConfigurations, []⟩, []⟩ overlapping := by
    decide
  obtain ⟨c, hrun, hcommitted, hflags⟩ := hrun
  exact ⟨c, hrun, hcommitted, hflags, activations_serialisable hok hrun⟩

/-- The request to deactivate the first configuration reads it before the second
one is activated. -/
def staleDeactivation : List (Sched PatchRequest Env) :=
  [.spawn (setActive 1 false), .run 0 {}, .run 0 {},
    .spawn (setActive 2 true), .run 1 {}, .run 1 {}, .run 1 {}, .run 1 {}, .run 1 {}, .run 1 {},
    .run 0 {}, .run 0 {}, .run 0 {}, .run 0 {}]

/-- No configuration is active in the end, which no order of the two requests
leads to. -/
theorem deactivation_spreads :
    ∃ c, Run.exec (patches plainCrates).step ⟨⟨twoConfigurations, []⟩, []⟩ staleDeactivation
        = some c
      ∧ c.tasks.length = 0
      ∧ c.store.committed = [⟨2, some true⟩, ⟨1, some false⟩]
      ∧ c.store.store.flags = [⟨1, 1, false⟩, ⟨2, 1, false⟩]
      ∧ ¬Serialisable twoConfigurations c.store := by
  have hrun : ∃ c, Run.exec (patches plainCrates).step ⟨⟨twoConfigurations, []⟩, []⟩
        staleDeactivation = some c
      ∧ c.tasks.length = 0
      ∧ c.store.committed = [⟨2, some true⟩, ⟨1, some false⟩]
      ∧ c.store.store.flags = [⟨1, 1, false⟩, ⟨2, 1, false⟩] :=
    ⟨_, rfl, rfl, rfl, rfl⟩
  obtain ⟨c, hrun, htasks, hcommitted, hflags⟩ := hrun
  refine ⟨c, hrun, htasks, hcommitted, hflags, fun ⟨order, hperm, heq⟩ => ?_⟩
  rw [hcommitted, ← List.mem_permutations'] at hperm
  rw [hflags] at heq
  have hnone : ∀ order ∈ [(⟨2, some true⟩ : Activation), ⟨1, some false⟩].permutations',
      [(⟨1, 1, false⟩ : Flag), ⟨2, 1, false⟩] ≠ serially order twoConfigurations.flags := by
    decide
  exact hnone order hperm heq

end AstroPlant
