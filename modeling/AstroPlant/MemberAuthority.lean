import AstroPlant.Journal
import AstroPlant.KitMembers
import AstroPlant.Ownership

/-!
# Who changes the members of a kit

Only a member with super access may change who the members of a kit are. Two of
the three requests for it check this in the transaction that writes. The third
one, `add_member`, checks it in its first transaction and inserts in its last
one, and in between the acting user can be removed; a removed user can even put
himself back (`removed_member_returns`).

So the law holds of a run exactly when every insertion of `add_member` is made
in a state in which its check, made again, would still succeed
(`member_authority_iff`).

The law is one about steps, so the program is journaled: each entry has the
request, and the states before and after. `Authorized` says of an entry that
changes who the members are that its actor is a member with super access in the
state before. For the two requests that check in their last transaction this
follows from the transaction alone (`authorized_patch`, `authorized_delete`). For
`add_member` it is equivalent to the check made again (`authorized_add_iff`),
which is a condition on the state before the insertion and uses nothing but the
code's own predicate.
-/

namespace AstroPlant

/-! ## The law -/

/-- The acting user of a request that changes the members of a kit. -/
def Request.memberActor : Request → Option (Option Int)
  | .addMember userId _ _ | .patchKitMembership userId _ _ | .deleteKitMembership userId _ =>
      some userId
  | _ => none

/-- The user has a membership of the kit with super access. -/
def SuperMember (s : Store) (userId kitId : Int) : Prop :=
  ∃ m ∈ s.kitMemberships, m.userId = userId ∧ m.kitId = kitId ∧ m.accessSuper = true

/-- A membership of the kit is inserted, changed or deleted. -/
def MembersChange (kitId : Int) (s s' : Store) : Prop :=
  ∃ m : KitMembership, m.kitId = kitId ∧ ¬(m ∈ s.kitMemberships ↔ m ∈ s'.kitMemberships)

/-- Whoever changes the members of a kit is a super member of it when the change
is made. -/
def Authorized (entry : Entry Store Request Task) : Prop :=
  ∀ actor ∈ entry.request.memberActor, ∀ kitId, MembersChange kitId entry.before entry.after →
    ∃ userId ∈ actor, SuperMember entry.before userId kitId

/-- Whether the last transaction of `add_member` inserts a membership: the user
exists and is not a member of the kit, which still exists. -/
def adds (kit : Kit) (member : AddMember) (s : Store) : Bool :=
  (User.withUsername member.username s).any fun user =>
    (KitMembership.byUserIdAndKitId user.id kit.id s).isNone
      && ((User.byId user.id s).isSome && (Kit.byId kit.id s).isSome)

/-- A membership that `add_member` is about to insert passes the check that was
made for it in the first transaction: this is the check that the other two
requests make where they write. -/
def StillPermitted (s : Store) : Request × Task → Bool
  | (.addMember userId _ _, .addMember kit _ member) =>
      !adds kit member s || ((kitPermissionOrForbidden userId kit member.action).run s).isOk
  | _ => true

/-! ## Checks and super members -/

theorem AddMember.action_edits (member : AddMember) :
    member.action = .editMembers ∨ member.action = .editSuperMembers := by
  unfold action
  split
  · exact Or.inr rfl
  · exact Or.inl rfl

/-- Whatever changes a kit or commands it is permitted to a member of the kit, by an
access flag of his membership. -/
theorem member_of_permitted {action : KitAction} {userId : Option Int} {kit : Kit} {s : Store}
    (hro : action.readOnly = false)
    (h : action.permitted (.ofModels (userId.bind (User.byId · s))
      (membershipOf userId kit.id s)) kit = true) :
    ∃ id ∈ userId, (User.byId id s).isSome = true ∧ ∃ user, ∃ m ∈ s.kitMemberships,
      m.userId = id ∧ m.kitId = kit.id ∧ (m.accessSuper = true ∨ m.accessConfigure = true)
        ∧ action.permitted (.userWithMembership user m) kit = true := by
  obtain ⟨u, m, hm, haccess⟩ := KitAction.permitted_of_not_readOnly hro h
  cases userId with
  | none => cases hm
  | some id =>
      rw [hm] at h
      simp only [Option.bind_some, membershipOf] at hm
      cases hu : User.byId id s with
      | none =>
          rw [hu] at hm
          cases hm
      | some user =>
          rw [hu] at hm
          cases hfound : KitMembership.byUserIdAndKitId id kit.id s with
          | none =>
              rw [hfound] at hm
              cases hm
          | some m' =>
              rw [hfound] at hm
              cases hm
              have hm' := List.find?_some hfound
              simp only [decide_eq_true_eq] at hm'
              refine ⟨id, rfl, ?_, _, _, List.mem_of_find?_eq_some hfound, hm'.1, hm'.2, haccess, h⟩
              rw [hu]
              rfl

/-- An action for which a membership needs super access is permitted to super
members only. -/
theorem superMember_of_superOnly {action : KitAction} {userId : Option Int} {kit : Kit} {s : Store}
    (hro : action.readOnly = false)
    (hsuper : ∀ u m, action.permitted (.userWithMembership u m) kit = true → m.accessSuper = true)
    (h : action.permitted (.ofModels (userId.bind (User.byId · s))
      (membershipOf userId kit.id s)) kit = true) :
    ∃ id ∈ userId, (User.byId id s).isSome = true ∧ SuperMember s id kit.id := by
  obtain ⟨id, hid, huser, user, m, hm, hmuser, hmkit, -, hperm⟩ := member_of_permitted hro h
  exact ⟨id, hid, huser, m, hm, hmuser, hmkit, hsuper user m hperm⟩

theorem superMember_of_permitted {action : KitAction} {userId : Option Int} {kit : Kit} {s : Store}
    (ha : action = .editMembers ∨ action = .editSuperMembers)
    (h : action.permitted (.ofModels (userId.bind (User.byId · s))
      (membershipOf userId kit.id s)) kit = true) :
    ∃ id ∈ userId, (User.byId id s).isSome = true ∧ SuperMember s id kit.id := by
  rcases ha with rfl | rfl <;> exact superMember_of_superOnly rfl (fun _ _ => id) h

/-- What the handlers keep of memberships: their kits were created before, and a
user has one membership of a kit at most. -/
structure MembersSound (s : Store) : Prop where
  kits : ∀ m ∈ s.kitMemberships, m.kitId < s.kits.next
  sole : ∀ m ∈ s.kitMemberships, ∀ m' ∈ s.kitMemberships, m.userId = m'.userId →
    m.kitId = m'.kitId → m = m'

theorem MembersSound.byUserIdAndKitId {s : Store} (hs : MembersSound s) {m : KitMembership}
    (hm : m ∈ s.kitMemberships) : KitMembership.byUserIdAndKitId m.userId m.kitId s = some m := by
  cases hfound : KitMembership.byUserIdAndKitId m.userId m.kitId s with
  | none =>
      have hnone := List.find?_eq_none.mp hfound m hm
      simp at hnone
  | some m' =>
      have hm' := List.find?_some hfound
      simp only [decide_eq_true_eq] at hm'
      rw [hs.sole m' (List.mem_of_find?_eq_some hfound) m hm hm'.1 hm'.2]

theorem MembersSound.check {s : Store} (hs : MembersSound s) {userId : Int} {kit : Kit}
    {action : KitAction} (ha : action = .editMembers ∨ action = .editSuperMembers)
    (hu : (User.byId userId s).isSome = true) (hsuper : SuperMember s userId kit.id) :
    ((kitPermissionOrForbidden (some userId) kit action).run s).isOk = true := by
  obtain ⟨user, hu⟩ := Option.isSome_iff_exists.mp hu
  obtain ⟨m, hm, rfl, hkit, haccess⟩ := hsuper
  have hmember : membershipOf (some m.userId) kit.id s = some m := by
    rw [← hkit]
    exact hs.byUserIdAndKitId hm
  have hpermitted : action.permitted (.ofModels (some user) (some m)) kit = true := by
    rcases ha with rfl | rfl <;> exact haccess
  have hrun : ∃ r, (kitPermissionOrForbidden (some m.userId) kit action).run s = .ok (r, s) := by
    refine ⟨(KitUser.ofModels (some user) (some m)).toModels, ?_⟩
    refine Tx.run_bind_ok.mpr ⟨some user, s, ?_, ?_⟩
    · rw [actingUser, Tx.run_read_bind, hu]
      rfl
    · rw [Tx.run_read_bind, hmember]
      refine Tx.run_ensure_bind_ok.mpr ⟨hpermitted, ?_⟩
      exact Tx.run_pure_ok.mpr ⟨rfl, rfl⟩
  obtain ⟨r, hrun⟩ := hrun
  rw [hrun]
  rfl

theorem permitted_of_check {userId : Option Int} {kit : Kit} {action : KitAction} {s : Store}
    (h : ((kitPermissionOrForbidden userId kit action).run s).isOk = true) :
    action.permitted (.ofModels (userId.bind (User.byId · s))
      (membershipOf userId kit.id s)) kit = true := by
  cases hrun : (kitPermissionOrForbidden userId kit action).run s with
  | error p =>
      rw [hrun] at h
      cases h
  | ok r => exact (kitPermissionOrForbidden_ok hrun).2

/-! ## What a step does to the members -/

/-- The tasks whose step writes memberships one by one. -/
def Task.writesMembers : Task → Bool
  | .start (.createKit _ _) | .start (.patchKitMembership _ _ _)
  | .start (.deleteKitMembership _ _) | .addMember _ _ _ => true
  | _ => false

theorem members_queueMedia {now : Timestamp} {p : Media → Bool} {s s' : Store} {u : Unit}
    (h : (queueMedia now p).run s = .ok (u, s')) : s'.kitMemberships = s.kitMemberships := by
  rw [queueMedia_ok h]
  rfl

theorem members_remove {s : Store} {d : Store.Doomed} {m : KitMembership}
    (hm : m ∈ (s.remove d).kitMemberships) : m ∈ s.kitMemberships :=
  (SerialTable.mem_delete.mp hm).1

/-- Any other step only takes members away, with their kit. -/
theorem Task.tx_members {x : Crates} {e : Env} {t : Task} {s s' : Store} {n : Task ⊕ Reply}
    (ht : t.writesMembers = false) (h : (t.tx x e).run s = .ok (n, s')) :
    ∀ m ∈ s'.kitMemberships, m ∈ s.kitMemberships := by
  cases n with
  | inl t' =>
      rw [Task.tx_inl h]
      exact fun m hm => hm
  | inr reply =>
      cases t with
      | start r =>
          cases r with
          | createKit _ _ | patchKitMembership _ _ _ | deleteKitMembership _ _ => cases ht
          | patchKit _ _ _ | resetPassword _ _ | deleteKit _ _ | addMember _ _ _
          | createConfiguration _ _ _ _ | onConfiguration _ _ _ | onPeripheral _ _ _
          | deleteMedia _ _ => exact absurd h andThen_not_inr
      | lastSeen _ _ | cloneModels _ _ _ | cloneAuthorize _ _ _ _
      | authorizeConfiguration _ _ _ _ | authorizePeripheral _ _ _ _ _
      | authorizeMedia _ _ _ => exact absurd h andThen_not_inr
      | addMember _ _ _ => cases ht
      | patchKit kit patch =>
          obtain ⟨_, h, -⟩ := finish_ok h
          obtain ⟨u, -, rfl⟩ := patchKit_ok h
          exact fun m hm => hm
      | resetPassword kit =>
          obtain ⟨_, h, -⟩ := finish_ok h
          obtain ⟨u, -, rfl⟩ := resetPassword_ok h
          exact fun m hm => hm
      | deleteKit kit =>
          obtain ⟨_, h, -⟩ := finish_ok h
          obtain ⟨s₁, hqueue, rfl⟩ := deleteKit_ok h
          rw [← members_queueMedia hqueue]
          exact fun m hm => members_remove hm
      | createNewConfiguration kit description =>
          obtain ⟨_, h, -⟩ := finish_ok h
          obtain ⟨-, rfl⟩ := createNewConfiguration_ok h
          exact fun m hm => hm
      | cloneConfiguration kit source =>
          obtain ⟨_, h, -⟩ := finish_ok h
          obtain ⟨-, rfl⟩ := cloneConfiguration_ok h
          exact fun m hm => hm
      | onConfiguration kit configuration op =>
          obtain ⟨_, h, -⟩ := finish_ok h
          cases op with
          | patch change =>
              obtain ⟨-, s₁, hs₁, -, rfl⟩ := patchConfiguration_ok h
              rcases hs₁ with rfl | rfl <;> exact fun m hm => hm
          | delete =>
              obtain ⟨s₁, hqueue, rfl⟩ := deleteConfiguration_ok h
              rw [← members_queueMedia hqueue]
              exact fun m hm => members_remove hm
          | addPeripheral peripheral =>
              obtain ⟨-, new, -, -, -, -, -, -, -, rfl⟩ := addPeripheralToConfiguration_ok h
              exact fun m hm => hm
      | onPeripheral configuration peripheral op =>
          obtain ⟨_, h, -⟩ := finish_ok h
          cases op with
          | patch change =>
              obtain ⟨-, u, -, -, -, -, -, -, rfl⟩ := patchPeripheral_ok h
              exact fun m hm => hm
          | delete =>
              obtain ⟨-, rfl⟩ := deletePeripheral_ok h
              exact fun m hm => members_remove hm
      | deleteMedia id =>
          obtain ⟨_, h, -⟩ := finish_ok h
          obtain ⟨_, s₁, h₁, h⟩ := Tx.run_bind_ok.mp h
          obtain ⟨-, rfl⟩ := Tx.run_pure_ok.mp h
          rw [members_queueMedia (run_db_ok.mp h₁)]
          exact fun m hm => hm

/-! ## What the last transaction of `add_member` does -/

theorem adds_eq_true {kit : Kit} {member : AddMember} {s : Store} :
    adds kit member s = true ↔ ∃ user, User.withUsername member.username s = some user
      ∧ KitMembership.byUserIdAndKitId user.id kit.id s = none
      ∧ (User.byId user.id s).isSome = true ∧ (Kit.byId kit.id s).isSome = true := by
  simp [adds, Option.any_eq_true]

/-- It inserts a membership of the kit for a user who has none. -/
theorem addMember_of_adds (e : Env) {kit : Kit} (kitLastSeen : Option Timestamp)
    {member : AddMember} {s : Store} (h : adds kit member s = true) :
    ∃ userId r, KitMembership.byUserIdAndKitId userId kit.id s = none
      ∧ (Kit.byId kit.id s).isSome = true
      ∧ (addMember e kit kitLastSeen member).run s
        = .ok (r, (member.new userId kit.id e.now).insert s) := by
  obtain ⟨user, huser, hexisting, hbyId, hkit⟩ := adds_eq_true.mp h
  have hcreate : (member.new user.id kit.id e.now).create.run s
      = .ok ((member.new user.id kit.id e.now).row s.kitMemberships.next,
        (member.new user.id kit.id e.now).insert s) :=
    Tx.run_write_ok.mpr (if_pos (Bool.and_eq_true_iff.mpr ⟨hbyId, hkit⟩))
  refine ⟨user.id, .member ((member.new user.id kit.id e.now).row s.kitMemberships.next) user kit
    kitLastSeen, hexisting, hkit, ?_⟩
  rw [addMember, Tx.run_read_bind]
  refine Tx.run_ofOption_bind_ok.mpr ⟨user, huser, ?_⟩
  rw [Tx.run_read_bind, hexisting]
  refine Tx.run_bind_ok.mpr ⟨_, _, run_db_ok.mpr hcreate, ?_⟩
  exact Tx.run_pure_ok.mpr ⟨rfl, rfl⟩

theorem addMember_of_not_adds {e : Env} {kit : Kit} {kitLastSeen : Option Timestamp}
    {member : AddMember} {s s' : Store} {r : Reply} (hadds : adds kit member s = false)
    (h : (addMember e kit kitLastSeen member).run s = .ok (r, s')) : s' = s := by
  refine (addMember_ok h).resolve_right ?_
  rintro ⟨user, huser, hkit, hexisting, -⟩
  have hmem : user ∈ s.users := List.mem_of_find?_eq_some huser
  have hbyId : (User.byId user.id s).isSome = true :=
    Option.isSome_iff_exists.mpr ⟨user, SerialTable.find?_eq_some.mpr ⟨hmem, rfl⟩⟩
  rw [adds_eq_true.mpr ⟨user, huser, hexisting, hbyId, hkit⟩] at hadds
  cases hadds

/-! ## What is known along a run -/

theorem change_users {t : Task} {s s' : Store} (h : Change t s s') : s'.users = s.users := by
  have hqueue : ∀ {now p s s₁}, (queueMedia now p).run s = .ok ((), s₁) → s₁.users = s.users := by
    intro now p s s₁ h
    rw [queueMedia_ok h]
    rfl
  cases h with
  | deleteKit id now s₁ hq | deleteConfiguration id now s₁ hq =>
      have husers := hqueue hq
      exact husers
  | deleteMedia id now s₁ hq => exact hqueue hq
  | patchConfiguration kit c patch now s₁ ht hfrozen hs₁ => rcases hs₁ with rfl | rfl <;> rfl
  | _ => rfl

/-- What is known of a request and what is left of it: an `add_member` that has
passed its check acts for a user, on a kit that has been created. -/
def Answers (s : Store) : Request × Task → Prop
  | (r, .start r') => r' = r
  | (r, .lastSeen kit member) | (r, .addMember kit _ member) =>
      ∃ userId kitSerial, r = .addMember (some userId) kitSerial member
        ∧ kit.id < s.kits.next ∧ (User.byId userId s).isSome = true
  | (r, _) => r.memberActor = none

theorem Answers.keeps {t₀ : Task} {s s' : Store} (h : Change t₀ s s') {u : Request × Task}
    (hu : Answers s u) : Answers s' u := by
  have hkits := (change_identity h).kits.next_le
  have husers := change_users h
  obtain ⟨r, t⟩ := u
  cases t with
  | lastSeen kit member | addMember kit _ member =>
      obtain ⟨userId, kitSerial, hr, hkit, huser⟩ := hu
      refine ⟨userId, kitSerial, hr, Int.lt_of_lt_of_le hkit hkits, ?_⟩
      unfold User.byId at huser ⊢
      rw [husers]
      exact huser
  | _ => exact hu

theorem Answers.next {x : Crates} {e : Env} {r : Request} {t t' : Task} {s s' : Store}
    (ht : Answers s (r, t)) (h : (t.tx x e).run s = .ok (.inl t', s')) : Answers s' (r, t') := by
  obtain rfl := Task.tx_inl h
  cases t with
  | start r' =>
      obtain rfl := ht
      cases r' with
      | createKit _ _ | patchKitMembership _ _ _ | deleteKitMembership _ _ =>
          exact absurd h finish_not_inl
      | addMember userId kitSerial member =>
          unfold Task.tx Request.tx at h
          obtain ⟨kit, task, hkit, hperm, h, hn⟩ := permitted_ok h
          obtain ⟨rfl, -⟩ := Tx.run_pure_ok.mp h
          cases hn
          obtain ⟨id, rfl, huser, -⟩ := superMember_of_permitted member.action_edits hperm
          exact ⟨id, kitSerial, rfl,
            SerialTable.key_lt_next (List.mem_of_find?_eq_some hkit), huser⟩
      | patchKit _ _ _ | resetPassword _ _ | deleteKit _ _ =>
          unfold Task.tx Request.tx at h
          obtain ⟨kit, task, -, -, h, hn⟩ := permitted_ok h
          obtain ⟨rfl, -⟩ := Tx.run_pure_ok.mp h
          cases hn
          rfl
      | createConfiguration userId kitSerial configuration source =>
          unfold Task.tx Request.tx at h
          obtain ⟨kit, task, -, -, h, hn⟩ := permitted_ok h
          cases configuration <;> cases source
          · cases h
          · obtain ⟨rfl, -⟩ := Tx.run_pure_ok.mp h
            cases hn
            rfl
          · obtain ⟨rfl, -⟩ := Tx.run_pure_ok.mp h
            cases hn
            rfl
          · cases h
      | onConfiguration _ _ _ | onPeripheral _ _ _ =>
          obtain ⟨m, s₁, task, h₁, h, hn⟩ := andThen_ok h
          obtain ⟨rfl, -⟩ := Tx.run_pure_ok.mp h
          cases hn
          rfl
      | deleteMedia userId id =>
          obtain ⟨kit, s₁, task, h₁, h, hn⟩ := andThen_ok h
          obtain ⟨kit', -, h⟩ := Tx.run_ofOption_bind_ok.mp h
          obtain ⟨rfl, -⟩ := Tx.run_pure_ok.mp h
          cases hn
          rfl
  | lastSeen kit member =>
      obtain ⟨l, s₁, task, -, h, hn⟩ := andThen_ok h
      obtain ⟨rfl, -⟩ := Tx.run_pure_ok.mp h
      cases hn
      exact ht
  | cloneModels userId kit source =>
      obtain ⟨m, s₁, task, -, h, hn⟩ := andThen_ok h
      split at h
      · obtain ⟨rfl, -⟩ := Tx.run_pure_ok.mp h
        cases hn
        exact ht
      · obtain ⟨rfl, -⟩ := Tx.run_pure_ok.mp h
        cases hn
        exact ht
  | cloneAuthorize _ _ _ _ | authorizeConfiguration _ _ _ _ | authorizePeripheral _ _ _ _ _
  | authorizeMedia _ _ _ =>
      obtain ⟨m, s₁, task, -, h, hn⟩ := andThen_ok h
      obtain ⟨rfl, -⟩ := Tx.run_pure_ok.mp h
      cases hn
      exact ht
  | patchKit _ _ | resetPassword _ | deleteKit _ | addMember _ _ _
  | createNewConfiguration _ _ | cloneConfiguration _ _ | onConfiguration _ _ _
  | onPeripheral _ _ _ | deleteMedia _ => exact absurd h finish_not_inl

namespace MembersSound

variable {s s' : Store}

/-- Members that stay as they are, in a store whose kits are as old. -/
theorem mono (hs : MembersSound s) (hkits : s.kits.next ≤ s'.kits.next)
    (hmembers : ∀ m' ∈ s'.kitMemberships, ∃ m ∈ s.kitMemberships, m.id = m'.id
      ∧ m.userId = m'.userId ∧ m.kitId = m'.kitId) : MembersSound s' where
  kits m' hm' := by
    obtain ⟨m, hm, -, -, hkit⟩ := hmembers m' hm'
    have hlt := hs.kits m hm
    omega
  sole m₁' hm₁' m₂' hm₂' huser hkit := by
    obtain ⟨m₁, hm₁, hid₁, huser₁, hkit₁⟩ := hmembers m₁' hm₁'
    obtain ⟨m₂, hm₂, hid₂, huser₂, hkit₂⟩ := hmembers m₂' hm₂'
    have hsame := hs.sole m₁ hm₁ m₂ hm₂ (by omega) (by omega)
    exact SerialTable.eq_of_key_eq hm₁' hm₂' (by rw [← hid₁, ← hid₂, hsame])

theorem insert (hs : MembersSound s) {new : NewKitMembership} (hkit : new.kitId < s.kits.next)
    (hnew : ∀ m ∈ s.kitMemberships, m.userId = new.userId → m.kitId ≠ new.kitId) :
    MembersSound (new.insert s) where
  kits m hm := by
    rcases NewKitMembership.mem_insert.mp hm with hm | rfl
    · exact hs.kits m hm
    · exact hkit
  sole m hm m' hm' huser hkit := by
    rcases NewKitMembership.mem_insert.mp hm with hm | rfl
    · rcases NewKitMembership.mem_insert.mp hm' with hm' | rfl
      · exact hs.sole m hm m' hm' huser hkit
      · exact absurd hkit (hnew m hm huser)
    · rcases NewKitMembership.mem_insert.mp hm' with hm' | rfl
      · exact absurd hkit.symm (hnew m' hm' huser.symm)
      · rfl

end MembersSound

/-- **The step lemma** for what is kept of memberships. -/
theorem membersSound_step {x : Crates} {e : Env} {t : Task} {s s' : Store} {n : Task ⊕ Reply}
    (hs : MembersSound s) (h : (t.tx x e).run s = .ok (n, s')) : MembersSound s' := by
  have hkits := (change_identity (Task.tx_change h)).kits.next_le
  cases hwrites : t.writesMembers with
  | false =>
      exact hs.mono hkits fun m hm => ⟨m, Task.tx_members hwrites h m hm, rfl, rfl, rfl⟩
  | true =>
      unfold Task.writesMembers at hwrites
      split at hwrites
      · -- the founder of a new kit, of which nobody is a member yet
        obtain ⟨_, h, -⟩ := finish_ok h
        obtain ⟨new, -, rfl⟩ := createKit_ok h
        have hnew : MembersSound (new.insert e.now s) :=
          hs.mono (by simp [NewKit.insert]) fun m hm => ⟨m, hm, rfl, rfl, rfl⟩
        refine hnew.insert ?_ fun m hm _ hkit => ?_
        · simp [founder, NewKit.insert]
        · have hlt := hs.kits m hm
          rw [hkit] at hlt
          exact absurd hlt (Int.lt_irrefl _)
      · obtain ⟨_, h, -⟩ := finish_ok h
        obtain ⟨m, kit, -, -, -, -, rfl⟩ := patchKitMembership_ok h
        refine hs.mono (Int.le_refl _) fun m' hm' => ?_
        obtain ⟨m₀, hm₀, rfl⟩ := KitMembership.mem_updateAccess.mp hm'
        refine ⟨m₀, hm₀, ?_⟩
        split <;> exact ⟨rfl, rfl, rfl⟩
      · obtain ⟨_, h, -⟩ := finish_ok h
        obtain ⟨m, kit, -, -, -, -, rfl⟩ := deleteKitMembership_ok h
        refine hs.mono (Int.le_refl _) fun m' hm' => ?_
        exact ⟨m', (KitMembership.mem_deleteFrom.mp hm').1, rfl, rfl, rfl⟩
      · rename_i kit kitLastSeen member
        obtain ⟨_, h, -⟩ := finish_ok h
        rcases addMember_ok h with rfl | ⟨user, -, hexists, hnone, rfl⟩
        · exact hs
        · obtain ⟨k, hk⟩ := Option.isSome_iff_exists.mp hexists
          obtain ⟨hmem, hid⟩ := Kit.mem_of_byId hk
          have hkit : kit.id < s.kits.next := hid ▸ SerialTable.key_lt_next hmem
          refine hs.insert hkit fun m hm huser hkit => ?_
          have hfound := List.find?_eq_none.mp hnone m hm
          simp only [decide_eq_true_eq] at hfound
          exact hfound ⟨huser, hkit⟩
      · cases hwrites

/-! ## When a step is lawful -/

theorem not_membersChange {kitId : Int} (s : Store) : ¬MembersChange kitId s s := by
  rintro ⟨m, -, h⟩
  exact h Iff.rfl

/-- Changing one membership changes the members of its kit only. -/
theorem MembersChange.kitId_eq {kitId : Int} {s s' : Store} {m : KitMembership}
    (hm : m ∈ s.kitMemberships) (h : MembersChange kitId s s')
    (hkeep : ∀ m' : KitMembership, m'.id ≠ m.id →
      (m' ∈ s'.kitMemberships ↔ m' ∈ s.kitMemberships))
    (hkit : ∀ m' ∈ s'.kitMemberships, m'.id = m.id → m'.kitId = m.kitId) : m.kitId = kitId := by
  obtain ⟨m', rfl, hchange⟩ := h
  by_cases hid : m'.id = m.id
  · by_cases hold : m' ∈ s.kitMemberships
    · rw [SerialTable.eq_of_key_eq hold hm hid]
    · by_cases hnew : m' ∈ s'.kitMemberships
      · exact (hkit m' hnew hid).symm
      · exact absurd (iff_of_false hold hnew) hchange
  · exact absurd (hkeep m' hid).symm hchange

/-- A write is lawful if it was permitted in the state that it was made in, and
changes the members of no other kit. -/
theorem authorized_of_permitted {entry : Entry Store Request Task} {actor : Option Int}
    {action : KitAction} {m : KitMembership} {kit : Kit}
    (hactor : entry.request.memberActor = some actor)
    (hkit : Kit.byId m.kitId entry.before = some kit)
    (hedits : action = .editMembers ∨ action = .editSuperMembers)
    (hperm : action.permitted (.ofModels (actor.bind (User.byId · entry.before))
      (membershipOf actor kit.id entry.before)) kit = true)
    (honly : ∀ kitId, MembersChange kitId entry.before entry.after → m.kitId = kitId) :
    Authorized entry := by
  intro actor' hactor' kitId hchange
  obtain rfl := Option.some.inj (hactor.symm.trans hactor')
  obtain ⟨actorId, hid, -, hsuper⟩ := superMember_of_permitted hedits hperm
  rw [(Kit.mem_of_byId hkit).2, honly kitId hchange] at hsuper
  exact ⟨actorId, hid, hsuper⟩

/-- The two requests that check where they write are always lawful. -/
theorem authorized_patch {userId : Option Int} {id : Int} {patch : KitMembershipPatch}
    {s s' : Store} {r : Reply} (t : Task)
    (h : (patchKitMembership userId id patch).run s = .ok (r, s')) :
    Authorized ⟨.patchKitMembership userId id patch, t, s, s'⟩ := by
  obtain ⟨m, kit, hm, hkit, hperm, -, rfl⟩ := patchKitMembership_ok h
  obtain ⟨hmem, -⟩ := KitMembership.mem_of_byId hm
  have hedits : patch.action m = .editMembers ∨ patch.action m = .editSuperMembers := by
    unfold KitMembershipPatch.action
    split
    · exact Or.inr rfl
    · exact Or.inl rfl
  refine authorized_of_permitted rfl hkit hedits hperm fun kitId hchange => ?_
  refine hchange.kitId_eq hmem (fun m' hid => ?_) fun m' hm' hid => ?_
  · rw [KitMembership.mem_updateAccess]
    constructor
    · rintro ⟨m₀, hm₀, rfl⟩
      split at hid
      · exact absurd ‹m₀.id = m.id› hid
      · rw [if_neg ‹¬m₀.id = m.id›]
        exact hm₀
    · intro hm'
      exact ⟨m', hm', if_neg hid⟩
  · obtain ⟨m₀, hm₀, rfl⟩ := KitMembership.mem_updateAccess.mp hm'
    split at hid
    · rw [if_pos ‹m₀.id = m.id›, ← SerialTable.eq_of_key_eq hm₀ hmem ‹m₀.id = m.id›]
      rfl
    · exact absurd hid ‹¬m₀.id = m.id›

theorem authorized_delete {userId : Option Int} {id : Int} {s s' : Store} {r : Reply} (t : Task)
    (h : (deleteKitMembership userId id).run s = .ok (r, s')) :
    Authorized ⟨.deleteKitMembership userId id, t, s, s'⟩ := by
  obtain ⟨m, kit, hm, hkit, hperm, -, rfl⟩ := deleteKitMembership_ok h
  obtain ⟨hmem, -⟩ := KitMembership.mem_of_byId hm
  have hedits : (if m.accessSuper then KitAction.editSuperMembers else .editMembers) = .editMembers
      ∨ (if m.accessSuper then KitAction.editSuperMembers else .editMembers)
        = .editSuperMembers := by
    split
    · exact Or.inr rfl
    · exact Or.inl rfl
  refine authorized_of_permitted rfl hkit hedits hperm fun kitId hchange => ?_
  refine hchange.kitId_eq hmem (fun m' hid => ?_) fun m' hm' hid => ?_
  · rw [KitMembership.mem_deleteFrom]
    exact and_iff_left hid
  · exact absurd hid (KitMembership.mem_deleteFrom.mp hm').2

/-- An insertion by `add_member` is lawful exactly when its check still
succeeds. -/
theorem authorized_add_iff {e : Env} {userId : Int} {kitSerial : String} {kit : Kit}
    {kitLastSeen : Option Timestamp} {member : AddMember} {s s' : Store} {r : Reply} {t : Task}
    (hs : MembersSound s) (huser : (User.byId userId s).isSome = true)
    (hadds : adds kit member s = true)
    (h : (addMember e kit kitLastSeen member).run s = .ok (r, s')) :
    Authorized ⟨.addMember (some userId) kitSerial member, t, s, s'⟩
      ↔ ((kitPermissionOrForbidden (some userId) kit member.action).run s).isOk = true := by
  obtain ⟨newUserId, r', -, -, hrun⟩ := addMember_of_adds e kitLastSeen hadds
  obtain ⟨-, rfl⟩ := Prod.mk.inj (Except.ok.inj (hrun.symm.trans h))
  constructor
  · intro hlaw
    have hchange : MembersChange kit.id s ((member.new newUserId kit.id e.now).insert s) := by
      refine ⟨(member.new newUserId kit.id e.now).row s.kitMemberships.next, rfl, fun hiff => ?_⟩
      have hold := hiff.mpr (NewKitMembership.mem_insert.mpr (Or.inr rfl))
      have hlt := SerialTable.key_lt_next hold
      exact absurd hlt (Int.lt_irrefl _)
    obtain ⟨id, hid, hsuper⟩ := hlaw (some userId) rfl kit.id hchange
    obtain rfl := Option.some.inj hid
    exact hs.check member.action_edits huser hsuper
  · rintro hcheck actor hactor kitId ⟨m, rfl, hchange⟩
    obtain rfl := Option.some.inj hactor
    obtain ⟨id, hid, -, hsuper⟩ :=
      superMember_of_permitted member.action_edits (permitted_of_check hcheck)
    refine ⟨id, hid, ?_⟩
    by_cases hold : m ∈ s.kitMemberships
    · exact absurd (iff_of_true hold (NewKitMembership.mem_insert.mpr (Or.inl hold))) hchange
    · by_cases hnew : m ∈ ((member.new newUserId kit.id e.now).insert s).kitMemberships
      · rcases NewKitMembership.mem_insert.mp hnew with h | rfl
        · exact absurd h hold
        · exact hsuper
      · exact absurd (iff_of_false hold hnew) hchange

/-- **The step lemma**: what makes a step lawful. -/
theorem authorized_iff {x : Crates} {e : Env} {r : Request} {t : Task} {ts : List Task}
    {s s' : Store} {k : Option Task} (hs : MembersSound s) (ht : Answers s (r, t))
    (h : (api x).advance e t ts s = some (s', k)) :
    Authorized ⟨r, t, s, s'⟩ ↔ StillPermitted s (r, t) = true := by
  have hsame : ∀ r t, Authorized ⟨r, t, s, s⟩ :=
    fun r t actor _ kitId hchange => absurd hchange (not_membersChange s)
  have hother : r.memberActor = none → Authorized ⟨r, t, s, s'⟩ := by
    intro hnone actor hactor
    rw [hnone] at hactor
    cases hactor
  cases t with
  | start r' =>
      obtain rfl := ht
      refine iff_of_true ?_ (by cases r' <;> rfl)
      rcases api_advance h with ⟨rfl, -⟩ | ⟨n, hr, -⟩
      · exact hsame _ _
      · cases n with
        | inl t' =>
            obtain rfl := Task.tx_inl hr
            exact hsame _ _
        | inr reply =>
            cases r' with
            | patchKitMembership userId id patch =>
                obtain ⟨_, hr, -⟩ := finish_ok hr
                exact authorized_patch _ hr
            | deleteKitMembership userId id =>
                obtain ⟨_, hr, -⟩ := finish_ok hr
                exact authorized_delete _ hr
            | addMember userId kitSerial member =>
                obtain ⟨_, _, _, -, -, hn⟩ := andThen_ok hr
                cases hn
            | _ => exact hother rfl
  | lastSeen kit member =>
      obtain ⟨userId, kitSerial, rfl, -, -⟩ := ht
      refine iff_of_true ?_ rfl
      rcases api_advance h with ⟨rfl, -⟩ | ⟨n, hr, -⟩
      · exact hsame _ _
      · obtain ⟨_, _, _, h₁, h₂, rfl⟩ := andThen_ok hr
        obtain rfl := Task.tx_inl hr
        exact hsame _ _
  | addMember kit kitLastSeen member =>
      obtain ⟨userId, kitSerial, rfl, -, huser⟩ := ht
      simp only [StillPermitted, Bool.or_eq_true, Bool.not_eq_true']
      cases hadds : adds kit member s with
      | false =>
          refine iff_of_true ?_ (Or.inl rfl)
          rcases api_advance h with ⟨rfl, -⟩ | ⟨n, hr, -⟩
          · exact hsame _ _
          · obtain ⟨_, hr, -⟩ := finish_ok hr
            obtain rfl := addMember_of_not_adds hadds hr
            exact hsame _ _
      | true =>
          obtain ⟨newUserId, reply, -, -, hrun⟩ := addMember_of_adds e kitLastSeen hadds
          have hstep : (finish (addMember e kit kitLastSeen member)).run s
              = .ok (.inr reply, (member.new newUserId kit.id e.now).insert s) :=
            Tx.run_bind_ok.mpr ⟨reply, _, hrun, Tx.run_pure_ok.mpr ⟨rfl, rfl⟩⟩
          have hcommit : (Task.tx x e (.addMember kit kitLastSeen member)).commit s
              = (.ok (.inr reply), (member.new newUserId kit.id e.now).insert s) := by
            unfold Task.tx Tx.commit
            rw [hstep]
          have hs' : s' = (member.new newUserId kit.id e.now).insert s := by
            have hfst := congrArg Prod.fst (Option.some.inj h)
            rw [hcommit] at hfst
            exact hfst.symm
          subst hs'
          rw [authorized_add_iff hs huser hadds hrun]
          simp
  | _ => exact iff_of_true (hother ht) (by cases r <;> rfl)

/-- **Authority at commit.** From any store with sound memberships, a run of the
API changes the members of a kit only for super members of it if and only if no
`add_member` inserts a member when its check would no longer succeed. -/
theorem member_authority_iff (x : Crates) {s₀ : Store} (h₀ : MembersSound s₀)
    (ls : List (Sched Request Env)) :
    Run.Always (api x).journaled.step (Program.Lawful Authorized) ⟨⟨s₀, []⟩, []⟩ ls
      ↔ Run.Guarded (api x).journaled.step
          (Program.Ok (fun _ _ _ => True) fun _ t _ s => StillPermitted s.store t = true)
          ⟨⟨s₀, []⟩, []⟩ ls := by
  refine Program.journal_always_iff (api x) (I := MembersSound) (T := Answers)
    (fun _ t s => StillPermitted s t = true) (fun r s _ => rfl) ?_ ?_ h₀ ls
  · intro e r t ts s s' k hs ht hadv
    refine ⟨?_, fun t' ht' => ?_, fun u hu => hu.keeps (api_change hadv)⟩
    · rcases api_advance hadv with ⟨rfl, -⟩ | ⟨n, hr, -⟩
      · exact hs
      · exact membersSound_step hs hr
    · rcases api_advance hadv with ⟨-, rfl⟩ | ⟨n, hr, rfl⟩
      · cases ht'
      · cases n with
        | inl t₁ =>
            obtain rfl := Option.some.inj ht'
            exact Answers.next ht hr
        | inr reply => cases ht'
  · intro e r t ts s s' k hs ht hadv
    exact authorized_iff hs ht hadv

theorem twoUsers_membersSound : MembersSound twoUsers where
  kits m hm := by cases hm
  sole m hm := by cases hm

theorem member_authority_iff_handover :
    Run.Guarded (api plainCrates).journaled.step
        (Program.Ok (fun _ _ _ => True) fun _ t _ s => StillPermitted s.store t = true)
        ⟨⟨twoUsers, []⟩, []⟩ handover
      ∧ Run.Always (api plainCrates).journaled.step (Program.Lawful Authorized)
        ⟨⟨twoUsers, []⟩, []⟩ handover := by
  have hguarded : Run.Guarded (api plainCrates).journaled.step
      (Program.Ok (fun _ _ _ => True) fun _ t _ s => StillPermitted s.store t = true)
      ⟨⟨twoUsers, []⟩, []⟩ handover := by decide
  exact ⟨hguarded, (member_authority_iff plainCrates twoUsers_membersSound handover).mpr hguarded⟩

/-! ## A removed member returns -/

/-- The second user, a super member, is adding himself when the first one
removes him. -/
def removedWhileAdding : List (Sched Request Env) :=
  [.spawn (.createKit 1 ⟨some "greenhouse", none, none, none, true, true⟩),
   .run 0 { serial := "k-3b4c-6d7f-8g9h" },
   .spawn (.addMember (some 1) "k-3b4c-6d7f-8g9h" ⟨"bob", true, true⟩),
   .run 0 {}, .run 0 {}, .run 0 {},
   .spawn (.addMember (some 2) "k-3b4c-6d7f-8g9h" ⟨"bob", true, true⟩),
   .run 0 {},
   .spawn (.deleteKitMembership (some 1) 2),
   .run 1 {}, .run 0 {}, .run 0 {}]

/-- His request inserts his membership in a state in which he has none, and
makes him a super member again. -/
theorem removed_member_returns :
    ∃ c, Run.exec (api plainCrates).journaled.step ⟨⟨twoUsers, []⟩, []⟩ removedWhileAdding
        = some c
      ∧ Run.exec (api plainCrates).step ⟨twoUsers, []⟩ removedWhileAdding
        = some (Program.forget c)
      ∧ c.tasks.length = 0
      ∧ ∃ entry ∈ c.store.journal,
        entry.request = .addMember (some 2) "k-3b4c-6d7f-8g9h" ⟨"bob", true, true⟩
        ∧ entry.before.kitMemberships.rows = [⟨1, 1, 1, 0, true, true⟩]
        ∧ entry.after.kitMemberships.rows
          = [⟨1, 1, 1, 0, true, true⟩, ⟨3, 2, 1, 0, true, true⟩]
        ∧ ¬Authorized entry := by
  have hrun : ∃ c, Run.exec (api plainCrates).journaled.step ⟨⟨twoUsers, []⟩, []⟩
        removedWhileAdding = some c
      ∧ c.tasks.length = 0
      ∧ ∃ entry ∈ c.store.journal,
        entry.request = .addMember (some 2) "k-3b4c-6d7f-8g9h" ⟨"bob", true, true⟩
        ∧ entry.before.kitMemberships.rows = [⟨1, 1, 1, 0, true, true⟩]
        ∧ entry.after.kitMemberships.rows
          = [⟨1, 1, 1, 0, true, true⟩, ⟨3, 2, 1, 0, true, true⟩] :=
    ⟨_, rfl, rfl, _, List.mem_cons_self, rfl, rfl, rfl⟩
  obtain ⟨c, hrun, htasks, entry, hentry, hrequest, hbefore, hafter⟩ := hrun
  have hforget := Program.exec_journaled (api plainCrates) ⟨⟨twoUsers, []⟩, []⟩ removedWhileAdding
  rw [hrun] at hforget
  refine ⟨c, hrun, hforget.symm, htasks, entry, hentry, hrequest, hbefore, hafter,
    fun hlaw => ?_⟩
  have hchange : MembersChange 1 entry.before entry.after := by
    refine ⟨⟨3, 2, 1, 0, true, true⟩, rfl, fun hiff => ?_⟩
    rw [SerialTable.mem_def, SerialTable.mem_def, hbefore, hafter] at hiff
    simp at hiff
  obtain ⟨id, hid, m, hm, huser, -⟩ := hlaw (some 2) (by rw [hrequest]; rfl) 1 hchange
  obtain rfl := Option.some.inj hid
  rw [SerialTable.mem_def, hbefore, List.mem_singleton] at hm
  rw [hm] at huser
  cases huser

end AstroPlant
