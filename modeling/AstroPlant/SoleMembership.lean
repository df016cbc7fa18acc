import AstroPlant.DeclaredBounds
import AstroPlant.MemberAuthority

/-!
# One membership per user and kit

The schema does not forbid a second membership of a user in a kit; the lookup of
permissions takes the first one it finds. Two handlers insert memberships:
`create_kit`, for a kit that nobody can be a member of yet, and `add_member`,
whose serializable transaction looks for a membership before it inserts one.

The invariant is the one of `MemberAuthority`, `MembersSound`: at most one
membership for a user and a kit, and none for a kit that does not exist. The
second half is what makes `create_kit` safe, and the ids that are never reused
keep it. What `add_member` answers is settled by the lookup: an existing
membership, or the one it inserts.
-/

namespace AstroPlant

section Requests

variable {x : Crates} {strings : Strings} {s s' : Store}

/-- An existing membership is what `add_member` answers with. -/
theorem addMember_existing (hs : MembersSound s) {e : Env} {kit : Kit}
    {kitLastSeen : Option Timestamp} {member : AddMember} {user : User} {m : KitMembership}
    (huser : User.withUsername member.username s = some user) (hm : m ∈ s.kitMemberships)
    (huserId : m.userId = user.id) (hkitId : m.kitId = kit.id) :
    (addMember e kit kitLastSeen member).run s = .ok (.member m user kit kitLastSeen, s) := by
  have hexisting : KitMembership.byUserIdAndKitId user.id kit.id s = some m := by
    rw [← huserId, ← hkitId]
    exact hs.byUserIdAndKitId hm
  rw [addMember, Tx.run_read_bind]
  refine Tx.run_ofOption_bind_ok.mpr ⟨user, huser, ?_⟩
  rw [Tx.run_read_bind, hexisting]
  exact Tx.run_pure_ok.mpr ⟨rfl, rfl⟩

/-- A step after which something is left of the request has only read. -/
theorem commit_andThen {α : Type} {t : Task} {e : Env} {first : Tx Store Problem α}
    {rest : α → Tx Store Problem Task} (ht : t.tx x e = andThen first rest) :
    ((t.tx x e).commit s).2 = s := by
  rcases Tx.commit_cases (t.tx x e) s with ⟨p, hc⟩ | ⟨n, s₁, hr, hc⟩
  · rw [hc]
  · rw [hc]
    cases n with
    | inl t' => exact Task.tx_inl hr
    | inr r =>
        rw [ht] at hr
        exact absurd hr andThen_not_inr

/-- **One step of the backend.** -/
theorem backend_membersSound {e : BackendEnv} {t : BackendTask} {ts : List BackendTask}
    {c c' : Services} {k : Option BackendTask} (hs : MembersSound c.store)
    (h : (backend x strings).advance e t ts c = some (c', k)) : MembersSound c'.store := by
  rcases backend_cases h
    with ⟨task, store, next, -, hapi, rfl, -⟩ | ⟨-, _, _, _, _, _, hstore⟩
  · rcases api_advance hapi with ⟨rfl, -⟩ | ⟨n, hr, -⟩
    · exact hs
    · exact membersSound_step hs hr
  · rw [hstore]
    exact ⟨hs.kits, hs.sole⟩

/-- **A user has one membership of a kit at most**, in every state that the
backend reaches, and `add_member` for a user who is a member answers with that
membership and changes nothing: neither in its transaction nor in the steps
before it. -/
theorem sole_membership {ls : List (Sched BackendRequest BackendEnv)}
    {c : Conc Services BackendTask}
    (hrun : Run.exec (backend x strings).step ⟨.start .empty, []⟩ ls = some c) :
    (∀ m ∈ c.store.store.kitMemberships, ∀ m' ∈ c.store.store.kitMemberships,
        m.userId = m'.userId → m.kitId = m'.kitId → m = m')
      ∧ (∀ e kit kitLastSeen member user, ∀ m ∈ c.store.store.kitMemberships,
          User.withUsername member.username c.store.store = some user →
          m.userId = user.id → m.kitId = kit.id →
            (addMember e kit kitLastSeen member).run c.store.store
              = .ok (.member m user kit kitLastSeen, c.store.store))
      ∧ ∀ e userId kitSerial member,
          (((Task.start (.addMember userId kitSerial member)).tx x e).commit c.store.store).2
              = c.store.store
            ∧ ∀ kit, (((Task.lastSeen kit member).tx x e).commit c.store.store).2
              = c.store.store := by
  have hsound : MembersSound c.store.store := by
    refine Program.store_exec (backend x strings) (I := fun s => MembersSound s.store)
      (fun _ _ _ _ _ _ hs h => backend_membersSound hs h) ?_ hrun
    exact ⟨fun m hm => (by cases hm), fun m hm => (by cases hm)⟩
  refine ⟨hsound.sole, ?_, ?_⟩
  · intro e kit kitLastSeen member user m hm huser huserId hkitId
    exact addMember_existing hsound huser hm huserId hkitId
  · intro e userId kitSerial member
    exact ⟨commit_andThen rfl, fun kit => commit_andThen rfl⟩

end Requests

/-- Two members of a kit add the same third user at the same time. -/
def addedTwice : List (Sched BackendRequest BackendEnv) :=
  [.spawn (.account (.createUser ⟨"ada", "", "ada@astroplant.io"⟩)),
    .run 0 {}, .run 0 {}, .run 0 {},
    .spawn (.account (.createUser ⟨"bob", "", "bob@astroplant.io"⟩)),
    .run 0 {}, .run 0 {}, .run 0 {},
    .spawn (.service (.api (.createKit 1 ⟨none, none, none, none, true, true⟩))),
    .run 0 { serial := "k1" },
    .spawn (.service (.api (.addMember (some 1) "k1" ⟨"bob", true, false⟩))),
    .spawn (.service (.api (.addMember (some 1) "k1" ⟨"bob", true, true⟩))),
    .run 0 {}, .run 1 {}, .run 0 {}, .run 1 {}, .run 0 {}, .run 0 {}]

theorem sole_membership_addedTwice :
    ∃ c, Run.exec (backend plainCrates .ascii).step ⟨.start .empty, []⟩ addedTwice = some c
      ∧ c.store.store.kitMemberships.rows.map (fun m => (m.userId, m.kitId, m.accessSuper))
        = [(1, 1, true), (2, 1, false)]
      ∧ ∀ m ∈ c.store.store.kitMemberships, ∀ m' ∈ c.store.store.kitMemberships,
        m.userId = m'.userId → m.kitId = m'.kitId → m = m' := by
  have hmembers : (Run.exec (backend plainCrates .ascii).step ⟨.start .empty, []⟩ addedTwice).map
      (fun c => c.store.store.kitMemberships.rows.map fun m => (m.userId, m.kitId, m.accessSuper))
      = some [(1, 1, true), (2, 1, false)] := by
    decide +kernel
  obtain ⟨c, hrun, hmembers⟩ := Option.map_eq_some_iff.mp hmembers
  exact ⟨c, hrun, hmembers, (sole_membership hrun).1⟩

end AstroPlant
