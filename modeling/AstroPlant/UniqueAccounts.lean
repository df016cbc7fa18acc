import AstroPlant.Accounts
import AstroPlant.UserLookup

/-!
# Usernames and email addresses, ignoring case

The two unique indexes compare the exact text. Usernames are always stored in
lower case, so for them that is enough. An email address is lowercased when a
user is created and stored as it is given when a user is patched; the lookup
before the update ignores case, but its pattern may find the user's own row
first, and another request may store the same address before the update runs.

Usernames and addresses are kept apart for different reasons. That stored
usernames are in lower case is an invariant by itself (`LowercaseUsernames`), and
then the exact index separates them ignoring case. For addresses the condition is
on the write: every other user's address that is the same ignoring case is the
same text, so that the index sees it (`AccountTask.Apart`). The lookup before the
write is enough for that where nothing is written in between
(`apart_of_checked`), which is why the counterexample takes two requests.
-/

namespace AstroPlant

/-- Equal ignoring case. -/
def Strings.Same (x : Strings) (a b : String) : Prop := x.toLowercase a = x.toLowercase b

/-- No two users have the same username or the same email address. -/
structure Distinct (x : Strings) (s : Store) : Prop where
  usernames : ∀ u ∈ s.users, ∀ v ∈ s.users, x.Same u.username v.username → u.id = v.id
  emailAddresses : ∀ u ∈ s.users, ∀ v ∈ s.users, x.Same u.emailAddress v.emailAddress →
    u.id = v.id

/-- Usernames are in lower case, and no two of them are the same text. -/
structure LowercaseUsernames (x : Strings) (s : Store) : Prop where
  lowercase : ∀ u ∈ s.users, x.toLowercase u.username = u.username
  distinct : ∀ u ∈ s.users, ∀ v ∈ s.users, u.username = v.username → u.id = v.id

theorem LowercaseUsernames.same {x : Strings} {s : Store} (h : LowercaseUsernames x s)
    {u v : User} (hu : u ∈ s.users) (hv : v ∈ s.users) (hsame : x.Same u.username v.username) :
    u.id = v.id := by
  refine h.distinct u hu v hv ?_
  rw [← h.lowercase u hu, ← h.lowercase v hv]
  exact hsame

/-! ## Writes of email addresses -/

/-- A user is given an email address: everybody else whose address is the same
ignoring case has this very text. -/
def KeepsApart (x : Strings) (s : Store) (id : Int) (emailAddress : String) : Prop :=
  ∀ v ∈ s.users, v.id ≠ id → x.Same v.emailAddress emailAddress →
    v.emailAddress = emailAddress

/-- The address that the step is about to write, if it gets as far as the unique
indexes, is kept apart from those of the other users. -/
def AccountTask.Apart (x : Strings) (e : AccountEnv) (s : Store) : AccountTask → Prop
  | .createUser user none none =>
      validate ((user.new x e).errors x) = .ok () → (user.new x e).stored.toBool = true →
        (∀ v ∈ s.users, v.username ≠ (user.new x e).username) →
          KeepsApart x s s.users.next (user.new x e).emailAddress
  | .updateUser u =>
      validate (u.errors x.validateEmail) = .ok () → u.stored.toBool = true →
        (∃ v ∈ s.users, v.id = u.id) →
          ∀ emailAddress ∈ u.emailAddress, KeepsApart x s u.id emailAddress
  | _ => True

variable {x : Strings} {e : AccountEnv} {s s' : Store}

theorem exists_of_toBool {ε α : Type} {r : Except ε α} (h : r.toBool = true) :
    ∃ a, r = .ok a := by
  cases r with
  | error e => cases h
  | ok a => exact ⟨a, rfl⟩

theorem LowercaseUsernames.insert (h : LowercaseUsernames x s) {user : UserBody}
    {new : NewUser} {now : Timestamp} (hname : new.username = (user.new x e).username)
    (hfree : new.taken s = false) : LowercaseUsernames x (new.insert now s) := by
  have hfree := NewUser.taken_eq_false.mp hfree
  constructor
  · intro u hu
    rcases NewUser.mem_insert.mp hu with hu | rfl
    · exact h.lowercase u hu
    · show x.toLowercase new.username = new.username
      rw [hname]
      exact x.toLowercase_toLowercase user.username
  · intro u hu v hv heq
    rcases NewUser.mem_insert.mp hu with hu | rfl <;> rcases NewUser.mem_insert.mp hv with hv | rfl
    · exact h.distinct u hu v hv heq
    · exact absurd heq (hfree u hu).1
    · exact absurd heq.symm (hfree v hv).1
    · rfl

theorem LowercaseUsernames.update (h : LowercaseUsernames x s) (u : UpdateUser)
    (now : Timestamp) : LowercaseUsernames x (u.applyTo now s) := by
  have hmem : ∀ v ∈ (u.applyTo now s).users, ∃ v₀ ∈ s.users,
      v₀.id = v.id ∧ v₀.username = v.username := by
    intro v hv
    obtain ⟨v₀, hv₀, rfl⟩ := UpdateUser.mem_applyTo.mp hv
    refine ⟨v₀, hv₀, ?_⟩
    split <;> exact ⟨rfl, rfl⟩
  constructor
  · intro v hv
    obtain ⟨v₀, hv₀, -, hname⟩ := hmem v hv
    rw [← hname]
    exact h.lowercase v₀ hv₀
  · intro v hv w hw heq
    obtain ⟨v₀, hv₀, hvid, hvname⟩ := hmem v hv
    obtain ⟨w₀, hw₀, hwid, hwname⟩ := hmem w hw
    rw [← hvid, ← hwid]
    exact h.distinct v₀ hv₀ w₀ hw₀ (hvname.trans (heq.trans hwname.symm))

/-- An inserted user is apart from the others exactly if the address is. -/
theorem distinct_insert_iff (hnames : LowercaseUsernames x s) (hs : Distinct x s)
    {user : UserBody} {new : NewUser} {now : Timestamp}
    (hname : new.username = (user.new x e).username) (hfree : new.taken s = false) :
    Distinct x (new.insert now s) ↔ KeepsApart x s s.users.next new.emailAddress := by
  have hother := NewUser.taken_eq_false.mp hfree
  constructor
  · intro h v hv hne hsame
    exact absurd (h.emailAddresses v (NewUser.mem_insert.mpr (Or.inl hv)) _
      (NewUser.mem_insert.mpr (Or.inr rfl)) hsame) hne
  · intro hapart
    have hnot : ∀ v ∈ s.users, ¬x.Same v.emailAddress new.emailAddress := by
      intro v hv hsame
      have hlt := SerialTable.key_lt_next hv
      exact (hother v hv).2 (hapart v hv (by omega) hsame)
    constructor
    · intro u hu v hv hsame
      exact (hnames.insert hname hfree).same hu hv hsame
    · intro u hu v hv hsame
      rcases NewUser.mem_insert.mp hu with hu | rfl
        <;> rcases NewUser.mem_insert.mp hv with hv | rfl
      · exact hs.emailAddresses u hu v hv hsame
      · exact absurd hsame (hnot u hu)
      · exact absurd hsame.symm (hnot v hv)
      · rfl

/-- A patched user is apart from the others exactly if the new address is. -/
theorem distinct_update_iff (hnames : LowercaseUsernames x s) (hs : Distinct x s)
    {u : UpdateUser} {now : Timestamp} (huser : ∃ v ∈ s.users, v.id = u.id)
    (hfree : ∀ emailAddress ∈ u.emailAddress, ∀ v ∈ s.users, v.id ≠ u.id →
      v.emailAddress ≠ emailAddress) :
    Distinct x (u.applyTo now s)
      ↔ ∀ emailAddress ∈ u.emailAddress, KeepsApart x s u.id emailAddress := by
  obtain ⟨w, hw, hwid⟩ := huser
  constructor
  · intro h emailAddress hemail v hv hne hsame
    have hself : u.apply now w ∈ (u.applyTo now s).users :=
      UpdateUser.mem_applyTo.mpr ⟨w, hw, if_pos hwid⟩
    have hother : v ∈ (u.applyTo now s).users :=
      UpdateUser.mem_applyTo.mpr ⟨v, hv, if_neg hne⟩
    have haddress : (u.apply now w).emailAddress = emailAddress := by
      show u.emailAddress.getD w.emailAddress = _
      rw [Option.mem_def.mp hemail]
      rfl
    rw [← haddress] at hsame
    exact absurd ((h.emailAddresses v hother _ hself hsame).trans hwid) hne
  · intro hapart
    refine ⟨fun a ha b hb hsame => (hnames.update u now).same ha hb hsame, ?_⟩
    -- the patched row against another one
    have hcross : ∀ v₁ ∈ s.users, v₁.id = u.id → ∀ v₂ ∈ s.users, v₂.id ≠ u.id →
        ¬x.Same v₂.emailAddress (u.apply now v₁).emailAddress := by
      intro v₁ hv₁ hid₁ v₂ hv₂ hid₂ hsame
      cases hemail : u.emailAddress with
      | none =>
          have hkept : (u.apply now v₁).emailAddress = v₁.emailAddress := by
            show u.emailAddress.getD v₁.emailAddress = _
            rw [hemail]
            rfl
          rw [hkept] at hsame
          exact hid₂ ((hs.emailAddresses v₂ hv₂ v₁ hv₁ hsame).trans hid₁)
      | some emailAddress =>
          have hset : (u.apply now v₁).emailAddress = emailAddress := by
            show u.emailAddress.getD v₁.emailAddress = _
            rw [hemail]
            rfl
          rw [hset] at hsame
          exact hfree emailAddress hemail v₂ hv₂ hid₂
            (hapart emailAddress hemail v₂ hv₂ hid₂ hsame)
    intro a ha b hb hsame
    obtain ⟨a₀, ha₀, rfl⟩ := UpdateUser.mem_applyTo.mp ha
    obtain ⟨b₀, hb₀, rfl⟩ := UpdateUser.mem_applyTo.mp hb
    by_cases hida : a₀.id = u.id <;> by_cases hidb : b₀.id = u.id
    · rw [if_pos hida, if_pos hidb]
      exact hida.trans hidb.symm
    · rw [if_pos hida, if_neg hidb] at hsame
      exact absurd hsame.symm (hcross a₀ ha₀ hida b₀ hb₀ hidb)
    · rw [if_neg hida, if_pos hidb] at hsame
      exact absurd hsame (hcross b₀ hb₀ hidb a₀ ha₀ hida)
    · rw [if_neg hida, if_neg hidb] at hsame ⊢
      exact hs.emailAddresses a₀ ha₀ b₀ hb₀ hsame

/-! ## Steps -/

/-- An address that somebody else has is kept apart: everybody who has the same
one ignoring case is that user. -/
theorem KeepsApart.of_conflict (hs : Distinct x s) {id : Int} {emailAddress : String}
    {w : User} (hw : w ∈ s.users) (heq : w.emailAddress = emailAddress) :
    KeepsApart x s id emailAddress := by
  intro v hv _ hsame
  rw [← heq] at hsame
  rw [SerialTable.eq_of_key_eq hv hw (hs.emailAddresses v hv w hw hsame)]
  exact heq

theorem createUser_distinct_iff (hnames : LowercaseUsernames x s) (hs : Distinct x s)
    {user : UserBody} (h : (createUser x e user none none).run s = .ok ((), s')) :
    Distinct x s' ↔ (AccountTask.createUser user none none).Apart x e s := by
  obtain ⟨hvalid, -, -, new, hstored, hfree, rfl⟩ := createUser_iff.mp h
  obtain ⟨hname, -, hemail⟩ := NewUser.stored_of_valid hvalid hstored
  rw [distinct_insert_iff hnames hs hname hfree, hemail]
  refine ⟨fun hapart _ _ _ => hapart, fun hapart => hapart hvalid ?_ ?_⟩
  · rw [hstored]
    rfl
  · rw [← hname]
    exact fun v hv => (NewUser.taken_eq_false.mp hfree v hv).1

/-- A creation that is refused for no other reason has found its address taken. -/
theorem apart_of_not_created (hs : Distinct x s) {user : UserBody}
    (h : ¬∃ s', (createUser x e user none none).run s = .ok ((), s')) :
    (AccountTask.createUser user none none).Apart x e s := by
  intro hvalid hfits hunused
  obtain ⟨new, hstored⟩ := exists_of_toBool hfits
  obtain ⟨hname, -, hemail⟩ := NewUser.stored_of_valid hvalid hstored
  by_cases hconflict : ∃ w ∈ s.users, w.emailAddress = new.emailAddress
  · obtain ⟨w, hw, heq⟩ := hconflict
    exact .of_conflict hs hw (heq.trans hemail)
  · have hfree : new.taken s = false := by
      refine NewUser.taken_eq_false.mpr fun v hv => ⟨?_, fun heq => hconflict ⟨v, hv, heq⟩⟩
      rw [hname]
      exact hunused v hv
    exact absurd ⟨_, createUser_iff.mpr ⟨hvalid, rfl, rfl, new, hstored, hfree, rfl⟩⟩ h

theorem updateUser_distinct_iff (hnames : LowercaseUsernames x s) (hs : Distinct x s)
    {u : UpdateUser} {user : User} (h : (updateUser x e u).run s = .ok (user, s')) :
    Distinct x s' ↔ (AccountTask.updateUser u).Apart x e s := by
  obtain ⟨hvalid, -, u', hstored, hexists, hfree, rfl⟩ := updateUser_iff.mp ⟨user, h⟩
  obtain ⟨-, hemail⟩ := UpdateUser.stored_of_valid hvalid hstored
  have hid := UpdateUser.stored_id hstored
  rw [← hid] at hexists hfree
  rw [distinct_update_iff hnames hs hexists hfree, hemail, hid]
  rw [hid] at hexists
  refine ⟨fun hapart _ _ _ => hapart, fun hapart => hapart hvalid ?_ hexists⟩
  rw [hstored]
  rfl

theorem apart_of_not_updated (hs : Distinct x s) {u : UpdateUser}
    (h : ¬∃ s' user, (updateUser x e u).run s = .ok (user, s')) :
    (AccountTask.updateUser u).Apart x e s := by
  intro hvalid hfits hexists emailAddress hemail
  obtain ⟨u', hstored⟩ := exists_of_toBool hfits
  obtain ⟨-, hsame⟩ := UpdateUser.stored_of_valid hvalid hstored
  by_cases hconflict : ∃ w ∈ s.users, w.emailAddress = emailAddress
  · obtain ⟨w, hw, heq⟩ := hconflict
    exact .of_conflict hs hw heq
  · have hempty : u.isEmpty = false := by
      rw [UpdateUser.isEmpty, Option.mem_def.mp hemail]
      simp
    have hfree : ∀ a ∈ u'.emailAddress, ∀ v ∈ s.users, v.id ≠ u.id → v.emailAddress ≠ a := by
      rw [hsame]
      intro a ha v hv _ heq
      obtain rfl := Option.mem_unique ha hemail
      exact hconflict ⟨v, hv, heq⟩
    obtain ⟨user, hrun⟩ :=
      updateUser_iff.mpr ⟨hvalid, hempty, u', hstored, hexists, hfree, rfl⟩
    exact absurd ⟨_, user, hrun⟩ h

/-- **A step keeps the users apart exactly if the address it writes is.** -/
theorem accounts_distinct_step {t : AccountTask} {ts : List AccountTask}
    {k : Option AccountTask} (hnames : LowercaseUsernames x s) (hs : Distinct x s)
    (h : (accounts x).advance e t ts s = some (s', k)) :
    Distinct x s' ↔ t.Apart x e s := by
  rcases accounts_advance h with ⟨rfl, hnot⟩ | ⟨user, rfl, hcreate⟩ | ⟨u, user, rfl, hupdate⟩
  · refine ⟨fun _ => ?_, fun _ => hs⟩
    cases t with
    | createUser user byUsername byEmailAddress =>
        cases byUsername <;> cases byEmailAddress
        case none.none =>
          refine apart_of_not_created hs ?_
          rintro ⟨s₁, hrun⟩
          exact hnot .created s₁ (Tx.run_bind_ok.mpr ⟨(), s₁, hrun, rfl⟩)
        all_goals trivial
    | updateUser u =>
        refine apart_of_not_updated hs ?_
        rintro ⟨s₁, user, hrun⟩
        exact hnot (.user (.ofModel user)) s₁ (Tx.run_bind_ok.mpr ⟨user, s₁, hrun, rfl⟩)
    | _ => trivial
  · exact createUser_distinct_iff hnames hs hcreate
  · exact updateUser_distinct_iff hnames hs hupdate

theorem accounts_lowercase_step {t : AccountTask} {ts : List AccountTask}
    {k : Option AccountTask} (hnames : LowercaseUsernames x s)
    (h : (accounts x).advance e t ts s = some (s', k)) : LowercaseUsernames x s' := by
  rcases accounts_advance h with ⟨rfl, -⟩ | ⟨user, -, hcreate⟩ | ⟨u, user, -, hupdate⟩
  · exact hnames
  · obtain ⟨hvalid, -, -, new, hstored, hfree, rfl⟩ := createUser_iff.mp hcreate
    exact hnames.insert (NewUser.stored_of_valid hvalid hstored).1 hfree
  · obtain ⟨-, -, u', -, -, -, rfl⟩ := updateUser_iff.mp ⟨user, hupdate⟩
    exact hnames.update u' e.now

/-- What the lookup before an update is worth: if nothing is written between the
two and the address has no special character, the address is kept apart. Here
the database folds case as the program does. -/
theorem apart_of_checked (hcase : ∀ a b, x.Same a b ↔ x.pg.fold a = x.pg.fold b)
    (hs : Distinct x s) {u : UpdateUser}
    (hplain : ∀ emailAddress ∈ u.emailAddress, Plain emailAddress)
    (hcheck : checkEmailAddress x.pg u s = .ok ()) :
    (AccountTask.updateUser u).Apart x e s := by
  intro _ _ _ emailAddress hemail v hv hne hsame
  have hfind := byEmailAddress_of_plain x.pg (hplain emailAddress hemail) s
  rw [checkEmailAddress, Option.mem_def.mp hemail] at hcheck
  obtain ⟨found, hfound, hcheck⟩ := bind_ok.mp hcheck
  rw [hfind] at hfound
  obtain rfl := Except.ok.inj hfound
  cases hfirst : (x.pg.scan s.users.rows).find? fun w =>
      decide (x.pg.fold w.emailAddress = x.pg.fold emailAddress) with
  | none =>
      have hnone := List.find?_eq_none.mp hfirst v ((x.pg.scan_perm _).mem_iff.mpr hv)
      exact absurd ((hcase _ _).mp hsame) (by simpa using hnone)
  | some w =>
      rw [hfirst] at hcheck
      have hw : w ∈ s.users :=
        (x.pg.scan_perm _).mem_iff.mp (List.mem_of_find?_eq_some hfirst)
      have hwsame : x.Same w.emailAddress emailAddress := by
        have := List.find?_some hfirst
        exact (hcase _ _).mpr (by simpa using this)
      by_cases hid : w.id = u.id
      · exact absurd ((hs.emailAddresses v hv w hw (hsame.trans hwsame.symm)).trans hid) hne
      · simp only [ne_eq, hid, not_false_eq_true, if_true] at hcheck
        cases hcheck

/-! ## Runs -/

/-- **No two users have the same username or email address, ignoring case,**
throughout exactly those runs in which every address is written apart from those
of the other users. -/
theorem accounts_distinct_iff (x : Strings) (ls : List (Sched AccountRequest AccountEnv)) :
    Run.Always (accounts x).step (fun c => Distinct x c.store) ⟨.empty, []⟩ ls
      ↔ Run.Guarded (accounts x).step
        (Program.Ok (fun _ _ _ => True) fun e t _ s => t.Apart x e s) ⟨.empty, []⟩ ls :=
  Program.store_always_iff _ (J := LowercaseUsernames x) (I := Distinct x)
    (fun _ _ _ _ _ _ hnames h => accounts_lowercase_step hnames h)
    (fun _ _ _ _ _ _ hnames hs h => accounts_distinct_step hnames hs h) ls
    ⟨fun u hu => (by cases hu), fun u hu => (by cases hu)⟩
    ⟨fun u hu => (by cases hu), fun u hu => (by cases hu)⟩

/-- Two users choose the same new address in different case; both look it up
before either of them stores it. -/
def sameAddress : List (Sched AccountRequest AccountEnv) :=
  [.spawn (.createUser ⟨"ada", "", "ada@astroplant.io"⟩), .run 0 {}, .run 0 {}, .run 0 {},
    .spawn (.createUser ⟨"eve", "", "eve@astroplant.io"⟩), .run 0 {}, .run 0 {}, .run 0 {},
    .spawn (.patchUser "ada" (some 1) ⟨none, some "flora@astroplant.io", none⟩),
    .spawn (.patchUser "eve" (some 2) ⟨none, some "Flora@astroplant.io", none⟩),
    .run 0 {}, .run 1 {}, .run 0 {}, .run 1 {}, .run 0 {}, .run 0 {}]

theorem same_address_twice :
    ∃ c, Run.exec (accounts .ascii).step ⟨.empty, []⟩ sameAddress = some c
      ∧ c.store.users.rows.map (fun u => (u.id, u.emailAddress))
        = [(1, "flora@astroplant.io"), (2, "Flora@astroplant.io")]
      ∧ ¬ Distinct .ascii c.store := by
  have hrun : ∃ c, Run.exec (accounts .ascii).step ⟨.empty, []⟩ sameAddress = some c
      ∧ c.store.users.rows.map (fun u => (u.id, u.emailAddress))
        = [(1, "flora@astroplant.io"), (2, "Flora@astroplant.io")] := ⟨_, rfl, rfl⟩
  obtain ⟨c, hrun, haddresses⟩ := hrun
  refine ⟨c, hrun, haddresses, fun hdistinct => ?_⟩
  have hmem : ∀ p ∈ [((1 : Int), "flora@astroplant.io"), (2, "Flora@astroplant.io")],
      ∃ u ∈ c.store.users, u.id = p.1 ∧ u.emailAddress = p.2 := by
    intro p hp
    rw [← haddresses] at hp
    obtain ⟨u, hu, rfl⟩ := List.mem_map.mp hp
    exact ⟨u, hu, rfl, rfl⟩
  obtain ⟨u, hu, hid, haddress⟩ := hmem (1, "flora@astroplant.io") (by simp)
  obtain ⟨v, hv, hid', haddress'⟩ := hmem (2, "Flora@astroplant.io") (by simp)
  have hsame : Strings.ascii.Same u.emailAddress v.emailAddress := by
    rw [haddress, haddress']
    show String.ofList _ = String.ofList _
    decide
  have heq := hdistinct.emailAddresses u hu v hv hsame
  rw [hid, hid'] at heq
  cases heq

end AstroPlant
