import AstroPlant.UniqueAccounts

/-!
# Conflicts of email addresses

Before an address is stored, the first user is looked up whose address matches
it as a pattern. Which of several matching rows is the first is for the database
to say, so all orders count.

An address without a percent sign, an underscore and a backslash matches itself
and nothing else, ignoring case, and then the lookup tells whether somebody has the
address, whatever the table. When a user is patched the row that is found may be
its own, which hides that of somebody who has the same address. With one of the
three characters there is a table in which the lookup finds somebody else, or ends
in an error (`email_conflicts_iff`). An address with the character U+0000 is refused
by the database, whoever has it.

What the database may choose is in the statement: exactness is asked for in every
order (`CreateExact`, `PatchExact`). Taking the order away leaves a condition on
the rows (`PatternExact`): a row that matches stands for the address being taken.
For a plain address matching is having the address (`matchesEmail_of_plain`), and
the condition is true, or says who shares the address; for any other address a
row that breaks it is made up from the address itself (`exists_otherAddress`).
The condition in the theorem is on the characters of the address, and runs no
lookup.
-/

namespace AstroPlant

/-! ## Orders -/

/-- The same strings, in a database that scans in this order. -/
def Strings.scanning (x : Strings) (scan : List User → List User)
    (hscan : ∀ us, (scan us).Perm us) : Strings :=
  { x with pg := { x.pg with scan, scan_perm := hscan } }

/-- One user first, and then the others. -/
def scanFirst (w : User) (us : List User) : List User := if w ∈ us then w :: us.erase w else us

theorem scanFirst_perm (w : User) (us : List User) : (scanFirst w us).Perm us := by
  unfold scanFirst
  split
  · exact (List.perm_cons_erase ‹_›).symm
  · exact .refl _

/-! ## Lookups -/

theorem User.first_cases (found : User → Option Bool) (us : List User) :
    (User.first found us = .ok none ∧ ∀ u ∈ us, found u = some false)
      ∨ (∃ u ∈ us, found u = some true ∧ User.first found us = .ok (some u))
      ∨ ∃ u ∈ us, found u = none ∧ User.first found us = .error .databaseError := by
  induction us with
  | nil => exact Or.inl ⟨rfl, fun u hu => by cases hu⟩
  | cons u us ih =>
      cases hu : found u with
      | none =>
          refine Or.inr (Or.inr ⟨u, List.mem_cons_self, hu, ?_⟩)
          rw [User.first, hu]
      | some b =>
          cases b with
          | true =>
              refine Or.inr (Or.inl ⟨u, List.mem_cons_self, hu, ?_⟩)
              rw [User.first, hu]
          | false =>
              have hrest : User.first found (u :: us) = User.first found us := by
                rw [User.first, hu]
              rw [hrest]
              rcases ih with ⟨h, hall⟩ | ⟨v, hv, hfound, h⟩ | ⟨v, hv, hfound, h⟩
              · exact Or.inl ⟨h, List.forall_mem_cons.mpr ⟨hu, hall⟩⟩
              · exact Or.inr (Or.inl ⟨v, List.mem_cons_of_mem _ hv, hfound, h⟩)
              · exact Or.inr (Or.inr ⟨v, List.mem_cons_of_mem _ hv, hfound, h⟩)

/-- The row's address matches the given one as a pattern. -/
def User.matchesEmail (x : Strings) (emailAddress : String) (u : User) : Option Bool :=
  x.pg.ilike u.emailAddress emailAddress

variable {x : Strings} {emailAddress : String} {s : Store}

theorem byEmailAddress_cases (hstorable : isStorable emailAddress = true)
    {scan : List User → List User} (hscan : ∀ us, (scan us).Perm us) :
    (User.byEmailAddress (x.scanning scan hscan).pg emailAddress s = .ok none
        ∧ ∀ u ∈ s.users, u.matchesEmail x emailAddress = some false)
      ∨ (∃ u ∈ s.users, u.matchesEmail x emailAddress = some true
        ∧ User.byEmailAddress (x.scanning scan hscan).pg emailAddress s = .ok (some u))
      ∨ ∃ u ∈ s.users, u.matchesEmail x emailAddress = none
        ∧ User.byEmailAddress (x.scanning scan hscan).pg emailAddress s
          = .error .databaseError := by
  have hmem : ∀ u, u ∈ scan s.users.rows ↔ u ∈ s.users := fun u => (hscan _).mem_iff
  rw [User.byEmailAddress, if_pos hstorable]
  rcases User.first_cases (User.matchesEmail x emailAddress) (scan s.users.rows)
    with ⟨h, hall⟩ | ⟨u, hu, hfound, h⟩ | ⟨u, hu, hfound, h⟩
  · exact Or.inl ⟨h, fun u hu => hall u ((hmem u).mpr hu)⟩
  · exact Or.inr (Or.inl ⟨u, (hmem u).mp hu, hfound, h⟩)
  · exact Or.inr (Or.inr ⟨u, (hmem u).mp hu, hfound, h⟩)

theorem byEmailAddress_scanFirst (hstorable : isStorable emailAddress = true) {w : User}
    (hw : w ∈ s.users) :
    (w.matchesEmail x emailAddress = none →
        User.byEmailAddress (x.scanning (scanFirst w) (scanFirst_perm w)).pg emailAddress s
          = .error .databaseError)
      ∧ (w.matchesEmail x emailAddress = some true →
        User.byEmailAddress (x.scanning (scanFirst w) (scanFirst_perm w)).pg emailAddress s
          = .ok (some w)) := by
  have hscan : scanFirst w s.users.rows = w :: s.users.rows.erase w := if_pos hw
  have hlookup : User.byEmailAddress (x.scanning (scanFirst w) (scanFirst_perm w)).pg emailAddress s
      = User.first (User.matchesEmail x emailAddress) (w :: s.users.rows.erase w) := by
    rw [User.byEmailAddress, if_pos hstorable]
    exact congrArg _ hscan
  rw [hlookup, User.first]
  constructor
  · intro h
    rw [h]
  · intro h
    rw [h]

/-! ## Exactness -/

/-- In every order, somebody else is found if the address is taken, and otherwise
nobody else is. -/
def LookupExact (x : Strings) (emailAddress : String) (own : User → Prop) (taken : Prop)
    (s : Store) : Prop :=
  ∀ (scan : List User → List User) (hscan : ∀ us, (scan us).Perm us),
    (taken ↔ ∃ v, User.byEmailAddress (x.scanning scan hscan).pg emailAddress s = .ok (some v)
      ∧ ¬own v)
    ∧ (¬taken → ∃ found, User.byEmailAddress (x.scanning scan hscan).pg emailAddress s = .ok found)

/-- The pattern is no error for any row, a row that it matches is somebody else's
exactly if the address is taken, and if it is, it matches some row. -/
structure PatternExact (x : Strings) (emailAddress : String) (own : User → Prop) (taken : Prop)
    (s : Store) : Prop where
  noError : ∀ u ∈ s.users, u.matchesEmail x emailAddress ≠ none
  own_iff : ∀ u ∈ s.users, u.matchesEmail x emailAddress = some true → (¬own u ↔ taken)
  found : taken → ∃ u ∈ s.users, u.matchesEmail x emailAddress = some true

theorem lookupExact_iff (hstorable : isStorable emailAddress = true) {own : User → Prop}
    {taken : Prop} :
    LookupExact x emailAddress own taken s ↔ PatternExact x emailAddress own taken s := by
  constructor
  · intro h
    refine ⟨fun w hw hnone => ?_, fun w hw hmatch => ?_, fun htaken => ?_⟩
    · have herror := (byEmailAddress_scanFirst hstorable hw).1 hnone
      obtain ⟨hiff, hok⟩ := h (scanFirst w) (scanFirst_perm w)
      rw [herror] at hiff hok
      have hnot : ¬taken := fun ht => by
        obtain ⟨v, hv, -⟩ := hiff.mp ht
        cases hv
      obtain ⟨found, hfound⟩ := hok hnot
      cases hfound
    · have hfirst := (byEmailAddress_scanFirst hstorable hw).2 hmatch
      obtain ⟨hiff, -⟩ := h (scanFirst w) (scanFirst_perm w)
      rw [hfirst] at hiff
      constructor
      · exact fun hown => hiff.mpr ⟨w, rfl, hown⟩
      · intro ht
        obtain ⟨v, hv, hown⟩ := hiff.mp ht
        obtain rfl := Option.some.inj (Except.ok.inj hv)
        exact hown
    · obtain ⟨v, hv, -⟩ := (h id fun _ => .refl _).1.mp htaken
      have hcases := @byEmailAddress_cases x emailAddress s hstorable id fun _ => .refl _
      rcases hcases with ⟨h, -⟩ | ⟨u, hu, hmatch, -⟩ | ⟨u, -, -, h⟩
      · rw [h] at hv
        cases hv
      · exact ⟨u, hu, hmatch⟩
      · rw [h] at hv
        cases hv
  · intro h scan hscan
    rcases @byEmailAddress_cases x emailAddress s hstorable scan hscan
      with ⟨hlookup, hall⟩ | ⟨u, hu, hmatch, hlookup⟩ | ⟨u, hu, hnone, -⟩
    · rw [hlookup]
      refine ⟨iff_of_false (fun ht => ?_) ?_, fun _ => ⟨_, rfl⟩⟩
      · obtain ⟨u, hu, hmatch⟩ := h.found ht
        rw [hall u hu] at hmatch
        cases hmatch
      · rintro ⟨v, hv, -⟩
        cases hv
    · rw [hlookup]
      refine ⟨?_, fun _ => ⟨_, rfl⟩⟩
      rw [← h.own_iff u hu hmatch]
      constructor
      · exact fun hown => ⟨u, rfl, hown⟩
      · rintro ⟨v, hv, hown⟩
        obtain rfl := Option.some.inj (Except.ok.inj hv)
        exact hown
    · exact absurd hnone (h.noError u hu)

/-! ## Requests -/

/-- The transaction that creates a user, while nothing else is written. -/
def createUserRequest (x : Strings) (e : AccountEnv) (user : UserBody) : Tx Store Problem Unit := do
  let byUsername ← lookupUser (User.byUsername x.pg user.username)
  let byEmailAddress ← lookupUser (User.byEmailAddress x.pg user.emailAddress)
  createUser x e user byUsername byEmailAddress

/-- What is left of a patch once the user is known who is patched. -/
def patchUserRequest (pg : Postgres) (validateEmail : String → Bool) (now : Timestamp)
    (u : UpdateUser) (atCheck atUpdate : Store) : Except Problem (UserView × Store) := do
  checkEmailAddress pg u atCheck
  validate (u.errors validateEmail)
  let patched ← (db (u.update now)).run atUpdate
  return (.ofModel patched.1, patched.2)

theorem patchUser_eq (pg : Postgres) (validateEmail : String → Bool) (now : Timestamp)
    (objectUsername : String) (actorUserId : Option Int) (patch : UserPatch)
    (s₁ s₂ s₃ : Store) :
    patchUser pg validateEmail now objectUsername actorUserId patch s₁ s₂ s₃ = (do
      let r ← (futUserPermissionOrForbidden pg actorUserId objectUsername .editDetails).run s₁
      patchUserRequest pg validateEmail now (patch.update r.1.2.id) s₂ s₃) := rfl

/-- The email address is reported to exist already. -/
def Problem.reportsEmailAddress : Problem → Prop
  | .invalidParameters ps => .alreadyExists ∈ (ps.lookup "emailAddress").getD []
  | _ => False

def Reported {α : Type} (r : Except Problem α) : Prop :=
  ∃ problem, r = .error problem ∧ problem.reportsEmailAddress

/-- The address is that of the user, ignoring case. -/
def User.HasEmailAddress (x : Strings) (emailAddress : String) (u : User) : Prop :=
  x.pg.fold u.emailAddress = x.pg.fold emailAddress

/-- The conflict is reported exactly if somebody has the address, and otherwise
nobody is found. -/
def CreateExact (x : Strings) (e : AccountEnv) (user : UserBody) (s : Store) : Prop :=
  ∀ (scan : List User → List User) (hscan : ∀ us, (scan us).Perm us),
    (Reported ((createUserRequest (x.scanning scan hscan) e user).run s)
      ↔ ∃ v ∈ s.users, v.HasEmailAddress x user.emailAddress)
    ∧ ((¬∃ v ∈ s.users, v.HasEmailAddress x user.emailAddress) →
      User.byEmailAddress (x.scanning scan hscan).pg user.emailAddress s = .ok none)

/-- The conflict is reported exactly if somebody else has the address, and
otherwise the check is passed. -/
def PatchExact (x : Strings) (now : Timestamp) (u : UpdateUser) (s : Store) : Prop :=
  ∀ (scan : List User → List User) (hscan : ∀ us, (scan us).Perm us),
    (Reported (patchUserRequest (x.scanning scan hscan).pg x.validateEmail now u s s)
      ↔ ∃ emailAddress, u.emailAddress = some emailAddress
        ∧ ∃ v ∈ s.users, v.id ≠ u.id ∧ v.HasEmailAddress x emailAddress)
    ∧ ((¬∃ emailAddress, u.emailAddress = some emailAddress
        ∧ ∃ v ∈ s.users, v.id ≠ u.id ∧ v.HasEmailAddress x emailAddress) →
      checkEmailAddress (x.scanning scan hscan).pg u s = .ok ())

/-! ## Reports -/

theorem lookupUser_bind_ok {α : Type} {found : Store → Except DieselError (Option User)}
    {g : Option User → Tx Store Problem α} {u : Option User} (h : found s = .ok u) :
    (lookupUser found >>= g).run s = (g u).run s := by
  show ((Tx.ofExcept ((found s).mapError Problem.ofDiesel) : Tx Store Problem _) >>= g).run s = _
  rw [h]
  rfl

theorem lookupUser_bind_error {α : Type} {found : Store → Except DieselError (Option User)}
    {g : Option User → Tx Store Problem α} {e : DieselError} (h : found s = .error e) :
    (lookupUser found >>= g).run s = .error (.ofDiesel e) := by
  show ((Tx.ofExcept ((found s).mapError Problem.ofDiesel) : Tx Store Problem _) >>= g).run s = _
  rw [h]
  rfl

theorem not_reported_ofDiesel {α : Type} (e : DieselError) :
    ¬Reported (.error (.ofDiesel e) : Except Problem α) := by
  rintro ⟨problem, h, hreports⟩
  obtain rfl := Except.error.inj h
  cases e <;> exact hreports

theorem not_reported_ok {α : Type} (a : α) : ¬Reported (.ok a : Except Problem α) := by
  rintro ⟨problem, h, -⟩
  cases h

theorem not_reported_db_bind {α β : Type} {t : Tx Store DieselError α}
    {g : α → Tx Store Problem β} (hg : ∀ a s', ¬Reported ((g a).run s')) :
    ¬Reported ((db t >>= g).run s) := by
  rw [StateT.run_bind]
  cases ht : t.run s with
  | error e =>
      have hdb : (db t).run s = .error (.ofDiesel e) := by
        show Tx.adapt Problem.ofDiesel t s = _
        rw [Tx.adapt, ht]
      rw [hdb]
      exact not_reported_ofDiesel e
  | ok r =>
      rw [run_db_ok.mpr ht]
      exact hg r.1 r.2

theorem not_reported_ensure {c : Bool} {problem : Problem} (h : ¬problem.reportsEmailAddress)
    (s : Store) : ¬Reported ((Tx.ensure c problem : Tx Store Problem Unit).run s) := by
  cases c with
  | true => exact not_reported_ok _
  | false =>
      rintro ⟨problem', herror, hreports⟩
      obtain rfl := Except.error.inj herror
      exact h hreports

/-- A valid user is reported exactly if the lookup has found somebody. -/
theorem reported_createUser {e : AccountEnv} {user : UserBody} {byUsername byEmailAddress}
    (hvalid : validate ((user.new x e).errors x) = .ok ()) :
    Reported ((createUser x e user byUsername byEmailAddress).run s)
      ↔ byEmailAddress.isSome = true := by
  have hrun : (createUser x e user byUsername byEmailAddress).run s
      = (check (alreadyExists byUsername byEmailAddress) >>= fun _ =>
          db ((user.new x e).create e.now) >>= fun createdUser =>
            Tx.ensure createdUser.isSome .INTERNAL_SERVER_ERROR).run s := by
    simp only [createUser, hvalid]
    rfl
  rw [hrun]
  cases byEmailAddress with
  | some v =>
      refine iff_of_true ?_ rfl
      cases byUsername with
      | none =>
          refine ⟨_, rfl, ?_⟩
          show .alreadyExists ∈ ((InvalidParameters.add ∅ "emailAddress" .alreadyExists).lookup
            "emailAddress").getD []
          decide
      | some w =>
          refine ⟨_, rfl, ?_⟩
          show .alreadyExists ∈ ((((InvalidParameters.add ∅ "username" .alreadyExists).add
            "emailAddress" .alreadyExists).lookup "emailAddress").getD [])
          decide
  | none =>
      refine iff_of_false ?_ Bool.false_ne_true
      cases byUsername with
      | some w =>
          rintro ⟨problem, herror, hreports⟩
          obtain rfl := Except.error.inj herror
          have hname : .alreadyExists ∈ ((InvalidParameters.add ∅ "username" .alreadyExists).lookup
            "emailAddress").getD [] := hreports
          revert hname
          decide
      | none =>
          exact not_reported_db_bind fun _ _ => not_reported_ensure id _

theorem plain_of_valid
    (halphanumeric : ∀ c, x.isAlphanumeric c = true → Like.isMeta c = false ∧ c ≠ '\x00')
    (hlowercase : ∀ t, Plain (x.toLowercase t) → Plain t) {e : AccountEnv} {user : UserBody}
    (hvalid : validate ((user.new x e).errors x) = .ok ()) : Plain user.username := by
  have husername := validate_eq_ok.mp hvalid _ List.mem_cons_self
  have hname := (List.append_eq_nil_iff.mp (List.append_eq_nil_iff.mp husername).1).2
  refine hlowercase _ fun c hc => ?_
  unfold validateUsername at hname
  split at hname
  · cases hname
  · rename_i hchars
    simp only [Bool.or_eq_true, Bool.not_eq_true', not_or] at hchars
    have hc := List.all_eq_true.mp (Bool.not_eq_false _ ▸ hchars.1.1) c hc
    rcases Bool.or_eq_true_iff.mp hc with h | h
    · exact halphanumeric c h
    · rw [of_decide_eq_true h]
      exact ⟨rfl, by decide⟩

theorem createExact_iff {e : AccountEnv} {user : UserBody} (hplain : Plain user.username)
    (hvalid : validate ((user.new x e).errors x) = .ok ()) :
    CreateExact x e user s ↔ LookupExact x user.emailAddress (fun _ => False)
      (∃ v ∈ s.users, v.HasEmailAddress x user.emailAddress) s := by
  refine forall_congr' fun scan => forall_congr' fun hscan => ?_
  have hreported : Reported ((createUserRequest (x.scanning scan hscan) e user).run s)
      ↔ ∃ v, User.byEmailAddress (x.scanning scan hscan).pg user.emailAddress s = .ok (some v)
        ∧ ¬False := by
    have hname := byUsername_of_plain (x.scanning scan hscan).pg hplain s
    rw [createUserRequest, lookupUser_bind_ok hname]
    cases hemail : User.byEmailAddress (x.scanning scan hscan).pg user.emailAddress s with
    | error d =>
        rw [lookupUser_bind_error hemail]
        exact iff_of_false (not_reported_ofDiesel d) fun ⟨v, hv, _⟩ => by cases hv
    | ok found =>
        rw [lookupUser_bind_ok hemail, reported_createUser (x := x.scanning scan hscan) hvalid,
          Option.isSome_iff_exists]
        simp
  rw [hreported]
  constructor
  · rintro ⟨hiff, hnone⟩
    exact ⟨hiff.symm, fun hnot => ⟨none, hnone hnot⟩⟩
  · rintro ⟨hiff, hok⟩
    refine ⟨hiff.symm, fun hnot => ?_⟩
    obtain ⟨found, hfound⟩ := hok hnot
    cases found with
    | none => exact hfound
    | some v => exact absurd (hiff.mpr ⟨v, hfound, id⟩) hnot

theorem checkEmailAddress_iff {pg : Postgres} {u : UpdateUser} {emailAddress : String}
    (hemail : u.emailAddress = some emailAddress) :
    (Reported (checkEmailAddress pg u s)
        ↔ ∃ v, User.byEmailAddress pg emailAddress s = .ok (some v) ∧ ¬v.id = u.id)
      ∧ (checkEmailAddress pg u s = .ok () ↔ ∃ found,
        User.byEmailAddress pg emailAddress s = .ok found ∧ ∀ v ∈ found, v.id = u.id) := by
  rw [checkEmailAddress, hemail]
  dsimp only
  cases hlookup : User.byEmailAddress pg emailAddress s with
  | error d =>
      refine ⟨iff_of_false (not_reported_ofDiesel d) ?_, iff_of_false ?_ ?_⟩
      · rintro ⟨v, hv, -⟩
        cases hv
      · intro h
        cases h
      · rintro ⟨found, hfound, -⟩
        cases hfound
  | ok found =>
      cases found with
      | none =>
          refine ⟨iff_of_false (not_reported_ok _) ?_, iff_of_true rfl ⟨none, rfl, by simp⟩⟩
          rintro ⟨v, hv, -⟩
          cases hv
      | some v =>
          dsimp only [Except.mapError, bind, Except.bind]
          by_cases hid : v.id = u.id
          · rw [if_neg (not_not.mpr hid)]
            refine ⟨iff_of_false (not_reported_ok _) ?_, iff_of_true rfl ⟨_, rfl, ?_⟩⟩
            · rintro ⟨w, hw, hne⟩
              obtain rfl := Option.some.inj (Except.ok.inj hw)
              exact hne hid
            · rintro w ⟨⟩
              exact hid
          · rw [if_pos hid]
            refine ⟨iff_of_true ⟨_, rfl, ?_⟩ ⟨v, rfl, hid⟩, iff_of_false (fun h => by cases h) ?_⟩
            · show .alreadyExists ∈ ((InvalidParameters.add ∅ "emailAddress" .alreadyExists).lookup
                "emailAddress").getD []
              decide
            · rintro ⟨found, hfound, hown⟩
              obtain rfl := Except.ok.inj hfound
              exact hid (hown v rfl)

theorem reported_patchUserRequest {pg : Postgres} {validateEmail : String → Bool}
    {now : Timestamp} {u : UpdateUser} (hvalid : validate (u.errors validateEmail) = .ok ()) :
    Reported (patchUserRequest pg validateEmail now u s s)
      ↔ Reported (checkEmailAddress pg u s) := by
  rw [patchUserRequest, hvalid]
  cases hcheck : checkEmailAddress pg u s with
  | error problem =>
      constructor
      · rintro ⟨problem', h, hreports⟩
        obtain rfl := Except.error.inj h
        exact ⟨problem, rfl, hreports⟩
      · rintro ⟨problem', h, hreports⟩
        obtain rfl := Except.error.inj h
        exact ⟨problem, rfl, hreports⟩
  | ok _ =>
      refine iff_of_false ?_ (not_reported_ok _)
      show ¬Reported ((db (u.update now)).run s >>= fun patched =>
        .ok (UserView.ofModel patched.1, patched.2))
      cases hupdate : (u.update now).run s with
      | error d =>
          have hdb : (db (u.update now)).run s = .error (.ofDiesel d) := by
            show Tx.adapt Problem.ofDiesel (u.update now) s = _
            rw [Tx.adapt, hupdate]
          rw [hdb]
          exact not_reported_ofDiesel d
      | ok r =>
          rw [run_db_ok.mpr hupdate]
          exact not_reported_ok _

theorem patchExact_iff {now : Timestamp} {u : UpdateUser}
    (hvalid : validate (u.errors x.validateEmail) = .ok ()) :
    PatchExact x now u s ↔ ∀ emailAddress, u.emailAddress = some emailAddress →
      LookupExact x emailAddress (fun v => v.id = u.id)
        (∃ v ∈ s.users, v.id ≠ u.id ∧ v.HasEmailAddress x emailAddress) s := by
  cases hemail : u.emailAddress with
  | none =>
      refine iff_of_true (fun scan hscan => ?_) fun _ h => by cases h
      have hcheck : checkEmailAddress (x.scanning scan hscan).pg u s = .ok () := by
        rw [checkEmailAddress, hemail]
      rw [reported_patchUserRequest hvalid, hcheck, hemail]
      refine ⟨iff_of_false (not_reported_ok _) ?_, fun _ => rfl⟩
      rintro ⟨emailAddress, h, -⟩
      cases h
  | some emailAddress =>
      have hsome : ∀ p : String → Prop,
          (∀ a, some emailAddress = some a → p a) ↔ p emailAddress := by simp
      rw [hsome]
      refine forall_congr' fun scan => forall_congr' fun hscan => ?_
      obtain ⟨hreport, hpass⟩ :=
        @checkEmailAddress_iff s (x.scanning scan hscan).pg u emailAddress hemail
      have htaken : (∃ a, u.emailAddress = some a
          ∧ ∃ v ∈ s.users, v.id ≠ u.id ∧ v.HasEmailAddress x a)
          ↔ ∃ v ∈ s.users, v.id ≠ u.id ∧ v.HasEmailAddress x emailAddress := by
        simp [hemail]
      rw [reported_patchUserRequest hvalid, hreport, htaken, hpass]
      constructor
      · rintro ⟨hiff, hok⟩
        refine ⟨hiff.symm, fun hnot => ?_⟩
        obtain ⟨found, hfound, -⟩ := hok hnot
        exact ⟨found, hfound⟩
      · rintro ⟨hiff, hok⟩
        refine ⟨hiff.symm, fun hnot => ?_⟩
        obtain ⟨found, hfound⟩ := hok hnot
        refine ⟨found, hfound, fun v hv => ?_⟩
        obtain rfl := Option.mem_def.mp hv
        by_contra hid
        exact hnot (hiff.mpr ⟨v, hfound, hid⟩)

/-! ## Addresses -/

/-- No two users have the same address, ignoring case. -/
def DistinctAddresses (x : Strings) (s : Store) : Prop :=
  ∀ u ∈ s.users, ∀ v ∈ s.users, x.pg.fold u.emailAddress = x.pg.fold v.emailAddress → u.id = v.id

/-- The user who is patched has the address already, and so has somebody else. -/
def SharesAddress (x : Strings) (u : UpdateUser) (s : Store) : Prop :=
  ∃ emailAddress, u.emailAddress = some emailAddress
    ∧ (∃ v ∈ s.users, v.id = u.id ∧ v.HasEmailAddress x emailAddress)
    ∧ ∃ v ∈ s.users, v.id ≠ u.id ∧ v.HasEmailAddress x emailAddress

theorem matchesEmail_of_plain (hplain : Plain emailAddress) (u : User) :
    u.matchesEmail x emailAddress = some (decide (x.pg.fold u.emailAddress
      = x.pg.fold emailAddress)) :=
  Like.like_of_plain (x.pg.forall_mem_fold.mpr (plain_iff.mp hplain).1) _

theorem patternExact_of_plain (hplain : Plain emailAddress) {own : User → Prop} {taken : Prop} :
    PatternExact x emailAddress own taken s
      ↔ (∀ u ∈ s.users, u.HasEmailAddress x emailAddress → (¬own u ↔ taken))
        ∧ (taken → ∃ u ∈ s.users, u.HasEmailAddress x emailAddress) := by
  have hmatches : ∀ u : User, u.matchesEmail x emailAddress = some true
      ↔ u.HasEmailAddress x emailAddress := by
    intro u
    rw [matchesEmail_of_plain hplain, Option.some.injEq, decide_eq_true_eq]
    rfl
  constructor
  · intro h
    exact ⟨fun u hu hhas => h.own_iff u hu ((hmatches u).mpr hhas), fun ht =>
      (h.found ht).imp fun u hu => ⟨hu.1, (hmatches u).mp hu.2⟩⟩
  · rintro ⟨hown, hfound⟩
    refine ⟨fun u _ => ?_, fun u hu hm => hown u hu ((hmatches u).mp hm), fun ht =>
      (hfound ht).imp fun u hu => ⟨hu.1, (hmatches u).mpr hu.2⟩⟩
    rw [matchesEmail_of_plain hplain]
    exact Option.some_ne_none _

/-- Whatever somebody else's row makes of the address, it tells that it is taken. -/
theorem not_patternExact {own : User → Prop} {w : User} (hw : w ∈ s.users)
    (hmatch : w.matchesEmail x emailAddress ≠ some false) (hown : ¬own w) {taken : Prop}
    (hfree : ¬taken) : ¬PatternExact x emailAddress own taken s := by
  intro h
  cases hm : w.matchesEmail x emailAddress with
  | none => exact h.noError w hw hm
  | some b =>
      cases b with
      | true => exact hfree ((h.own_iff w hw hm).mp hown)
      | false => exact hmatch hm

/-- An address that the database refuses is looked up in vain, and any other finds
whoever its pattern matches. -/
theorem not_lookupExact {own : User → Prop} {w : User} (hw : w ∈ s.users)
    (hmatch : isStorable emailAddress = true → w.matchesEmail x emailAddress ≠ some false)
    (hown : ¬own w) {taken : Prop} (hfree : ¬taken) : ¬LookupExact x emailAddress own taken s := by
  intro h
  cases hstorable : isStorable emailAddress with
  | true =>
      exact not_patternExact hw (hmatch hstorable) hown hfree ((lookupExact_iff hstorable).mp h)
  | false =>
      obtain ⟨found, hfound⟩ := (h id fun _ => .refl _).2 hfree
      rw [User.byEmailAddress, hstorable] at hfound
      cases hfound

/-- Somebody with another address stands in the way of one that is not plain. -/
theorem exists_otherAddress (hspecial : ¬Plain emailAddress) :
    ∃ other, x.pg.fold other ≠ x.pg.fold emailAddress
      ∧ (isStorable emailAddress = true → x.pg.ilike other emailAddress ≠ some false) := by
  cases hstorable : isStorable emailAddress with
  | true =>
      obtain ⟨other, -, hne, hilike⟩ := x.pg.exists_ilike_ne_false fun hplain =>
        hspecial (plain_iff.mpr ⟨hplain, hstorable⟩)
      exact ⟨other, hne, fun _ => hilike⟩
  | false =>
      refine ⟨"", fun hempty => ?_, fun h => by cases h⟩
      have hnil : emailAddress.toList = [] := List.map_eq_nil_iff.mp hempty.symm
      rw [isStorable, hnil] at hstorable
      cases hstorable

theorem createExact_of_plain {e : AccountEnv} {user : UserBody} (hname : Plain user.username)
    (hvalid : validate ((user.new x e).errors x) = .ok ()) (hplain : Plain user.emailAddress) :
    CreateExact x e user s := by
  rw [createExact_iff hname hvalid, lookupExact_iff (plain_iff.mp hplain).2,
    patternExact_of_plain hplain]
  exact ⟨fun u hu hhas => iff_of_true id ⟨u, hu, hhas⟩, id⟩

theorem patchExact_of_plain {now : Timestamp} {u : UpdateUser}
    (hvalid : validate (u.errors x.validateEmail) = .ok ())
    (hplain : ∀ emailAddress, u.emailAddress = some emailAddress → Plain emailAddress) :
    PatchExact x now u s ↔ ¬SharesAddress x u s := by
  rw [patchExact_iff hvalid]
  cases hemail : u.emailAddress with
  | none =>
      refine iff_of_true (fun _ h => by cases h) ?_
      rintro ⟨emailAddress, h, -⟩
      rw [hemail] at h
      cases h
  | some emailAddress =>
      constructor
      · rintro h ⟨_, ha, ⟨w, hw, hid, hhas⟩, hother⟩
        obtain rfl := Option.some.inj (hemail.symm.trans ha)
        have hexact := (lookupExact_iff (plain_iff.mp (hplain _ hemail)).2).mp (h _ rfl)
        rw [patternExact_of_plain (hplain _ hemail)] at hexact
        exact (hexact.1 w hw hhas).mpr hother hid
      · rintro hnot _ ⟨⟩
        rw [lookupExact_iff (plain_iff.mp (hplain _ hemail)).2,
          patternExact_of_plain (hplain _ hemail)]
        refine ⟨fun w hw hhas => ⟨fun hid => ⟨w, hw, hid, hhas⟩, fun hother hid => ?_⟩, ?_⟩
        · exact hnot ⟨_, hemail, ⟨w, hw, hid, hhas⟩, hother⟩
        · rintro ⟨v, hv, -, hhas⟩
          exact ⟨v, hv, hhas⟩

/-- A user of whom nothing counts but the address. -/
def userWith (emailAddress : String) (id : Int) : User :=
  ⟨id, "", "", "", emailAddress, true, "", 0, 0⟩

theorem userWith_id (emailAddress : String) (id : Int) : (userWith emailAddress id).id = id := rfl

def oneAddress (emailAddress : String) : Store :=
  { Store.empty with
    users := SerialTable.empty.insert (userWith emailAddress) (userWith_id emailAddress) }

theorem mem_oneAddress {u : User} (h : u ∈ (oneAddress emailAddress).users) :
    u = userWith emailAddress 1 := List.mem_singleton.mp h

/-- The user who is patched has one address, and the next user the other. -/
def twoAddresses (id : Int) (own other : String) : Store :=
  let start : SerialTable User (·.id) :=
    { rows := [], nodup := List.nodup_nil, next := id, fresh := fun u hu => by cases hu }
  { Store.empty with
    users := (start.insert (userWith own) (userWith_id own)).insert (userWith other)
      (userWith_id other) }

theorem mem_twoAddresses {id : Int} {own other : String} {u : User} :
    u ∈ (twoAddresses id own other).users
      ↔ u = userWith own id ∨ u = userWith other (id + 1) := by
  show u ∈ [userWith own id, userWith other (id + 1)] ↔ _
  simp

theorem not_createExact {e : AccountEnv} {user : UserBody} (hname : Plain user.username)
    (hvalid : validate ((user.new x e).errors x) = .ok ()) (hspecial : ¬Plain user.emailAddress) :
    ∃ s, DistinctAddresses x s ∧ ¬CreateExact x e user s := by
  obtain ⟨other, hne, hilike⟩ := @exists_otherAddress x _ hspecial
  refine ⟨oneAddress other, fun u hu v hv _ => ?_, ?_⟩
  · rw [mem_oneAddress hu, mem_oneAddress hv]
  rw [createExact_iff hname hvalid]
  refine not_lookupExact (w := userWith other 1) (List.mem_singleton.mpr rfl) hilike id ?_
  rintro ⟨v, hv, hhas⟩
  rw [mem_oneAddress hv] at hhas
  exact hne hhas

theorem not_patchExact {now : Timestamp} {u : UpdateUser}
    (hvalid : validate (u.errors x.validateEmail) = .ok ())
    (hemail : u.emailAddress = some emailAddress) (hspecial : ¬Plain emailAddress) :
    ∃ s, DistinctAddresses x s ∧ (User.byId u.id s).isSome = true ∧ ¬PatchExact x now u s := by
  obtain ⟨other, hne, hilike⟩ := @exists_otherAddress x _ hspecial
  refine ⟨twoAddresses u.id emailAddress other, fun v hv w hw hsame => ?_, ?_, ?_⟩
  · rcases mem_twoAddresses.mp hv with rfl | rfl <;> rcases mem_twoAddresses.mp hw with rfl | rfl
    · rfl
    · exact absurd hsame.symm hne
    · exact absurd hsame hne
    · rfl
  · have hfound : User.byId u.id (twoAddresses u.id emailAddress other)
        = some (userWith emailAddress u.id) :=
      SerialTable.find?_eq_some.mpr ⟨mem_twoAddresses.mpr (Or.inl rfl), rfl⟩
    rw [hfound]
    rfl
  rw [patchExact_iff hvalid]
  intro h
  have hother : (userWith other (u.id + 1)).id ≠ u.id := by
    show u.id + 1 ≠ u.id
    omega
  refine not_lookupExact (mem_twoAddresses.mpr (Or.inr rfl)) hilike hother ?_ (h _ hemail)
  rintro ⟨v, hv, hid, hhas⟩
  rcases mem_twoAddresses.mp hv with rfl | rfl
  · exact hid rfl
  · exact hne hhas

/-- **The check for conflicts of email addresses is exact**, whatever the table, exactly
if the address has no special character. That is so for all tables in which the
addresses are distinct; with a plain address there may be others, except that of a
patched user who has the address together with somebody else. -/
theorem email_conflicts_iff {x : Strings} (e : AccountEnv)
    (halphanumeric : ∀ c, x.isAlphanumeric c = true → Like.isMeta c = false ∧ c ≠ '\x00')
    (hlowercase : ∀ t, Plain (x.toLowercase t) → Plain t) :
    (∀ user : UserBody, validate ((user.new x e).errors x) = .ok () →
        ((∀ s, DistinctAddresses x s → CreateExact x e user s) ↔ Plain user.emailAddress)
        ∧ (Plain user.emailAddress → ∀ s, CreateExact x e user s))
      ∧ ∀ u : UpdateUser, validate (u.errors x.validateEmail) = .ok () →
        ((∀ s, DistinctAddresses x s → (User.byId u.id s).isSome = true →
            PatchExact x e.now u s)
          ↔ ∀ emailAddress, u.emailAddress = some emailAddress → Plain emailAddress)
        ∧ ((∀ emailAddress, u.emailAddress = some emailAddress → Plain emailAddress) →
          ∀ s, PatchExact x e.now u s ↔ ¬SharesAddress x u s) := by
  constructor
  · intro user hvalid
    have hname := plain_of_valid halphanumeric hlowercase hvalid
    have hexact : Plain user.emailAddress → ∀ s, CreateExact x e user s :=
      fun hplain s => createExact_of_plain hname hvalid hplain
    refine ⟨⟨fun h => ?_, fun hplain s _ => hexact hplain s⟩, hexact⟩
    by_contra hspecial
    obtain ⟨s, hs, hnot⟩ := not_createExact (e := e) hname hvalid hspecial
    exact hnot (h s hs)
  · intro u hvalid
    have hexact : (∀ emailAddress, u.emailAddress = some emailAddress → Plain emailAddress) →
        ∀ s, PatchExact x e.now u s ↔ ¬SharesAddress x u s :=
      fun hplain s => patchExact_of_plain hvalid hplain
    refine ⟨⟨fun h emailAddress hemail => ?_, fun hplain s hs _ => ?_⟩, hexact⟩
    · by_contra hspecial
      obtain ⟨s, hs, hfound, hnot⟩ := @not_patchExact _ _ e.now _ hvalid hemail hspecial
      exact hnot (h s hs hfound)
    · refine (hexact hplain s).mpr ?_
      rintro ⟨emailAddress, -, ⟨v, hv, hid, hhas⟩, w, hw, hne, hhas'⟩
      exact hne ((hs w hw v hv (hhas'.trans hhas.symm)).trans hid)

theorem plain_of_isAlphanum (c : Char) (h : c.isAlphanum = true) :
    Like.isMeta c = false ∧ c ≠ '\x00' := by
  have hne : ∀ m : Char, m.isAlphanum = false → c ≠ m := by
    rintro m hm rfl
    rw [hm] at h
    cases h
  exact ⟨by simp [Like.isMeta, hne '%' rfl, hne '_' rfl, hne '\\' rfl], hne _ rfl⟩

theorem plain_of_ascii (t : String) (h : Plain (Strings.ascii.toLowercase t)) : Plain t := by
  have hlower : ∀ c ∈ t.toList.map Char.toLower, Like.isMeta c = false ∧ c ≠ '\x00' := by
    intro c hc
    refine h c ?_
    show c ∈ (String.ofList (t.toList.map Char.toLower)).toList
    rwa [String.toList_ofList]
  refine fun c hc => ⟨(Postgres.forall_mem_fold .ascii).mp (fun c hc => (hlower c hc).1) c hc, ?_⟩
  rintro rfl
  exact (hlower _ (List.mem_map_of_mem hc)).2 rfl

/-- Somebody with an address of their own, and somebody who writes theirs in
another case. -/
theorem email_conflicts_iff_ada :
    CreateExact .ascii {} ⟨"bob", "pw", "bob@example.org"⟩ onlyAda
      ∧ PatchExact .ascii 0 ⟨1, none, some "Ada@Example.org", none, none⟩ onlyAda := by
  obtain ⟨hcreate, hpatch⟩ :=
    email_conflicts_iff (x := .ascii) {} plain_of_isAlphanum plain_of_ascii
  refine ⟨(hcreate _ (by decide)).2 (by decide) _, ?_⟩
  refine ((hpatch ⟨1, none, some "Ada@Example.org", none, none⟩ (by decide)).2 ?_ _).mpr ?_
  · rintro _ ⟨⟩
    decide
  · rintro ⟨_, -, -, v, hv, hne, -⟩
    rw [List.mem_singleton.mp hv] at hne
    exact hne rfl

/-- Nobody has the address, but as a pattern it matches another one, so it is
reported to exist already. -/
theorem underscore_conflicts :
    validate ((UserBody.new .ascii {} ⟨"bob", "pw", "a_a@example.org"⟩).errors .ascii) = .ok ()
      ∧ (∀ v ∈ onlyAda.users, ¬v.HasEmailAddress .ascii "a_a@example.org")
      ∧ Reported ((createUserRequest .ascii {} ⟨"bob", "pw", "a_a@example.org"⟩).run onlyAda)
      ∧ ¬CreateExact .ascii {} ⟨"bob", "pw", "a_a@example.org"⟩ onlyAda := by
  have hvalid : validate ((UserBody.new .ascii {} ⟨"bob", "pw", "a_a@example.org"⟩).errors .ascii)
      = .ok () := by decide
  have hfree : ∀ v ∈ onlyAda.users, ¬v.HasEmailAddress .ascii "a_a@example.org" := by
    intro v hv
    rw [List.mem_singleton.mp hv]
    unfold User.HasEmailAddress
    decide
  have hreported : Reported ((createUserRequest .ascii {} ⟨"bob", "pw", "a_a@example.org"⟩).run
      onlyAda) :=
    ⟨_, rfl, List.mem_singleton.mpr rfl⟩
  refine ⟨hvalid, hfree, hreported, fun h => ?_⟩
  obtain ⟨v, hv, hhas⟩ := (h id fun _ => .refl _).1.mp hreported
  exact hfree v hv hhas

end AstroPlant
