import AstroPlant.Api

/-!
# Every kit keeps a member with super access

Five requests insert, change or remove memberships. Two of them can take super
access away and count the members that have it first; the count and the write
are in one serializable transaction, hence in one step. Another one inserts the
kit together with its first member, and deleting a kit takes its members with
it. So the law is an invariant of every step (`superMembered_change`), and of
every run.

The cases are those of `Change`. A deletion takes the members of the kits that it
removes; the two guarded requests find another member with super access before
they write (`exists_super_besides`). Faults need no case of their own: a
transaction that is rolled back changes nothing.
-/

namespace AstroPlant

/-- Every kit has a membership with super access. -/
def SuperMembered (s : Store) : Prop :=
  ∀ k ∈ s.kits, ∃ m ∈ s.kitMemberships, m.kitId = k.id ∧ m.accessSuper = true

/-- A deletion with its cascade takes the members of the kits it takes, and no
others. -/
theorem superMembered_remove {s : Store} (hs : SuperMembered s) (d : Store.Doomed) :
    SuperMembered (s.remove d) := by
  intro k hk
  obtain ⟨hk, hd⟩ := SerialTable.mem_delete.mp hk
  obtain ⟨m, hm, hmk, hsuper⟩ := hs k hk
  refine ⟨m, SerialTable.mem_delete.mpr ⟨hm, ?_⟩, hmk, hsuper⟩
  rw [hmk]
  exact Store.Doomed.kitId_eq_false hk hd

theorem superMembered_queueMedia {now : Timestamp} {p : Media → Bool} {s s' : Store} {u : Unit}
    (hs : SuperMembered s) (h : (queueMedia now p).run s = .ok (u, s')) : SuperMembered s' := by
  rw [queueMedia_ok h]
  exact hs

/-- A membership that is about to lose its super access, or to go, is not the
only one its kit has. -/
theorem exists_super_besides {s : Store} (hs : SuperMembered s) {m : KitMembership}
    (hm : m ∈ s.kitMemberships)
    (hguard : m.accessSuper = true → 2 ≤ KitMembership.superCount m.kitId s) {k : Kit}
    (hk : k ∈ s.kits) :
    ∃ m' ∈ s.kitMemberships, m'.kitId = k.id ∧ m'.accessSuper = true ∧ m'.id ≠ m.id := by
  obtain ⟨m₀, hm₀, hkit, hsuper⟩ := hs k hk
  by_cases hid : m₀.id = m.id
  · obtain rfl := SerialTable.eq_of_key_eq hm₀ hm hid
    rw [← hkit]
    exact KitMembership.exists_other_super (hguard hsuper) m₀.id
  · exact ⟨m₀, hm₀, hkit, hsuper, hid⟩

/-- **The step lemma**, by cases over what a step can do. -/
theorem superMembered_change {t : Task} {s s' : Store} (hs : SuperMembered s)
    (h : Change t s s') : SuperMembered s' := by
  cases h with
  | createKit userId new now hserial =>
      intro k hk
      rcases NewKit.mem_insert.mp hk with hk | rfl
      · obtain ⟨m, hm, hmk⟩ := hs k hk
        exact ⟨m, NewKitMembership.mem_insert.mpr (Or.inl hm), hmk⟩
      · exact ⟨_, NewKitMembership.mem_insert.mpr (Or.inr rfl), rfl, rfl⟩
  | updateKit u now =>
      intro k hk
      obtain ⟨k₀, hk₀, rfl⟩ := UpdateKit.mem_applyTo.mp hk
      obtain ⟨m, hm, hmk, hsuper⟩ := hs k₀ hk₀
      refine ⟨m, hm, ?_, hsuper⟩
      rw [hmk]
      split <;> rfl
  | deleteKit id now s₁ hqueue =>
      exact superMembered_remove (superMembered_queueMedia hs hqueue) _
  | deleteConfiguration id now s₁ hqueue =>
      exact superMembered_remove (superMembered_queueMedia hs hqueue) _
  | deletePeripheral c p ht hnever => exact superMembered_remove hs _
  | addMember new hnew =>
      intro k hk
      obtain ⟨m, hm, hmk⟩ := hs k hk
      exact ⟨m, NewKitMembership.mem_insert.mpr (Or.inl hm), hmk⟩
  | patchKitMembership m accessSuper accessConfigure hm hguard =>
      intro k hk
      have hmem := (KitMembership.mem_of_byId hm).1
      cases accessSuper with
      | true =>
          -- the membership that gave the kit its law keeps or gains access
          obtain ⟨m₀, hm₀, hkit, hsuper⟩ := hs k hk
          refine ⟨_, KitMembership.mem_updateAccess.mpr ⟨m₀, hm₀, rfl⟩, ?_⟩
          split
          · exact ⟨hkit, rfl⟩
          · exact ⟨hkit, hsuper⟩
      | false =>
          obtain ⟨m', hm', hkit, hsuper, hid⟩ :=
            exists_super_besides hs hmem (fun h => hguard h rfl) hk
          refine ⟨_, KitMembership.mem_updateAccess.mpr ⟨m', hm', rfl⟩, ?_⟩
          rw [if_neg hid]
          exact ⟨hkit, hsuper⟩
  | deleteKitMembership m hm hguard =>
      intro k hk
      have hmem := (KitMembership.mem_of_byId hm).1
      obtain ⟨m', hm', hkit, hsuper, hid⟩ := exists_super_besides hs hmem hguard hk
      exact ⟨m', KitMembership.mem_deleteFrom.mpr ⟨hm', hid⟩, hkit, hsuper⟩
  | deleteMedia id now s₁ hqueue => exact superMembered_queueMedia hs hqueue
  | patchConfiguration kit c patch now s₁ ht hfrozen hs₁ =>
      rcases hs₁ with rfl | rfl
      · exact hs
      · exact hs
  | nothing | createConfiguration _ _ _ | cloneConfiguration _ _ _ _
  | addPeripheral _ _ _ _ _ _ _ _ | patchPeripheral _ _ _ _ _ _ _ => exact hs

/-- **Every kit has a member with super access**, in every state that any
interleaving of requests, faults included, reaches from a store without
kits. -/
theorem every_kit_has_super_member (x : Crates) {s₀ : Store} (hstart : s₀.kits.rows = [])
    {ls : List (Sched Request Env)} {c : Conc Store Task}
    (hrun : Run.exec (api x).step ⟨s₀, []⟩ ls = some c) :
    ∀ k ∈ c.store.kits, ∃ m ∈ c.store.kitMemberships,
      m.kitId = k.id ∧ m.accessSuper = true := by
  have h₀ : SuperMembered s₀ := by
    intro k hk
    rw [SerialTable.mem_def, hstart] at hk
    cases hk
  exact Program.store_exec (api x) (I := SuperMembered)
    (fun e t ts s s' k hs ha => superMembered_change hs (api_change ha)) h₀ hrun

/-! ## A run -/

/-- Two users and nothing else. -/
def twoUsers : Store :=
  let user := fun name id => (⟨id, name, name, "", name, true, "", 0, 0⟩ : User)
  let users := (SerialTable.empty.insert (user "ada") fun _ => rfl).insert (user "bob") fun _ => rfl
  { Store.empty with users }

/-- The first user creates a kit, makes the second one a super member, leaves
the kit, and the second one can then not leave it. -/
def handover : List (Sched Request Env) :=
  [.spawn (.createKit 1 ⟨some "greenhouse", none, none, none, true, true⟩),
   .run 0 { serial := "k-3b4c-6d7f-8g9h" },
   .spawn (.addMember (some 1) "k-3b4c-6d7f-8g9h" ⟨"bob", true, true⟩),
   .run 0 {}, .run 0 {}, .run 0 {},
   .spawn (.deleteKitMembership (some 1) 1),
   .run 0 {},
   .spawn (.deleteKitMembership (some 2) 2),
   .run 0 {}]

theorem every_kit_has_super_member_handover :
    ∃ c, Run.exec (api plainCrates).step ⟨twoUsers, []⟩ handover = some c
      ∧ c.store.kits.rows.length = 1
      ∧ (c.store.kitMemberships.rows.map (·.userId)) = [2]
      ∧ ∀ k ∈ c.store.kits, ∃ m ∈ c.store.kitMemberships,
          m.kitId = k.id ∧ m.accessSuper = true := by
  have hrun : Run.exec (api plainCrates).step ⟨twoUsers, []⟩ handover = some _ := rfl
  exact ⟨_, hrun, rfl, rfl, every_kit_has_super_member plainCrates rfl hrun⟩

end AstroPlant
