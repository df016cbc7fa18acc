import AstroPlant.EmailConflicts
import AstroPlant.Sessions

/-!
# Every write leads back to a password

The server does not remember who is signed in: it believes what its signature
says. What it has signed was signed in a sign-in, or in exchange for what was
signed in a sign-in, and each of these has its time (`IssuedFor`). A request acts
as somebody only if it presented such a token when it arrived (`Entered`). So
behind a change to a kit, or to a user, stands a password that was checked no
longer than a year and a quarter of an hour before the request arrived
(`writes_signed_in`). Requests to delete media are left out of what is said of kits,
as in `writes_permitted`; who sent them is known as well.

The proofs go over the record of what has been done. A token that is read without
an error is a claim set that was signed, and the record says when and for whom;
the clock does not go back and every token expires, which bounds how long ago
that was. That the password of then still is the user's follows from the
accounts: nothing that runs here changes a password hash (`UsersKept`).
-/

namespace AstroPlant

/-! ## What the accounts do to users -/

/-- Users stay, and their passwords with them. -/
def UsersKept (s s' : Store) : Prop :=
  s.users.Keeps (fun u u' => u.passwordHash = u'.passwordHash) s'.users

theorem UsersKept.of_eq {s s' : Store} (h : s'.users = s.users) : UsersKept s s' := by
  unfold UsersKept
  rw [h]
  exact .refl fun _ => rfl

theorem editor_of_permitted {pg : Postgres} {actorUserId : Option Int} {objectUsername : String}
    {s s' : Store} {r : Option User × User}
    (h : (futUserPermissionOrForbidden pg actorUserId objectUsername .editDetails).run s
      = .ok (r, s')) : actorUserId = some r.2.id := by
  obtain ⟨actor, s₁, h₁, h⟩ := Tx.run_bind_ok.mp h
  obtain ⟨rfl, hactor, -⟩ := actingUser_ok h₁
  rw [Tx.run_read_bind] at h
  obtain ⟨found, -, h⟩ := Tx.run_ofExcept_bind_ok.mp h
  obtain ⟨object, -, h⟩ := Tx.run_ofOption_bind_ok.mp h
  obtain ⟨hperm, h⟩ := Tx.run_ensure_bind_ok.mp h
  obtain ⟨rfl, -⟩ := Tx.run_pure_ok.mp h
  obtain ⟨user, huser, heq⟩ := (Option.any_eq_true _ _).mp hperm
  rw [huser] at hactor
  obtain ⟨id, hid, hfound⟩ := Option.bind_eq_some_iff.mp hactor.symm
  rw [hid, ← (SerialTable.find?_eq_some.mp hfound).2, beq_iff_eq.mp heq]

/-- A patch of a user names the user who is patched, and leaves the password. -/
def AccountTask.Knows (r : AccountRequest) : AccountTask → Prop
  | .userPermission username actorUserId patch => r = .patchUser username actorUserId patch
  | .checkEmailAddress u | .updateUser u => u.passwordHash = none ∧ r.actor = some u.id
  | _ => True

/-- A user whose row has changed asked for it. -/
def OwnProfile (e : Entry Store AccountRequest AccountTask) : Prop :=
  ∀ user ∈ e.before.users, user ∉ e.after.users → e.request.actor = some user.id

section

variable {x : Strings} {e : AccountEnv} {r : AccountRequest} {t : AccountTask}
  {ts : List AccountTask} {s s' : Store} {k : Option AccountTask}

theorem AccountTask.Knows.next {t' : AccountTask} {s' : Store} (ht : t.Knows r)
    (h : (t.tx x e).run s = .ok (.inl t', s')) : t'.Knows r := by
  cases t with
  | userByUsername user | userByEmailAddress user _ =>
      obtain ⟨_, _, -, h⟩ := Tx.run_bind_ok.mp h
      obtain ⟨heq, -⟩ := Tx.run_pure_ok.mp h
      obtain rfl := Sum.inl.inj heq
      trivial
  | createUser user byUsername byEmailAddress =>
      obtain ⟨_, _, -, h⟩ := Tx.run_bind_ok.mp h
      obtain ⟨heq, -⟩ := Tx.run_pure_ok.mp h
      cases heq
  | userPermission objectUsername actorUserId patch =>
      obtain ⟨found, _, hperm, h⟩ := Tx.run_bind_ok.mp h
      obtain ⟨heq, -⟩ := Tx.run_pure_ok.mp h
      obtain rfl := Sum.inl.inj heq
      obtain rfl : r = .patchUser objectUsername actorUserId patch := ht
      exact ⟨rfl, editor_of_permitted hperm⟩
  | checkEmailAddress u =>
      simp only [AccountTask.tx, Tx.run_read_bind] at h
      obtain ⟨_, -, h⟩ := Tx.run_ofExcept_bind_ok.mp h
      obtain ⟨heq, -⟩ := Tx.run_pure_ok.mp h
      obtain rfl := Sum.inl.inj heq
      exact ht
  | updateUser u =>
      obtain ⟨_, _, -, h⟩ := Tx.run_bind_ok.mp h
      obtain ⟨heq, -⟩ := Tx.run_pure_ok.mp h
      cases heq

theorem AccountTask.Knows.advance (ht : t.Knows r)
    (h : (accounts x).advance e t ts s = some (s', k)) : ∀ t' ∈ k, t'.Knows r := by
  simp only [accounts, Option.some.injEq, Prod.mk.injEq] at h
  obtain ⟨-, rfl⟩ := h
  intro t' ht'
  rcases Tx.commit_cases (t.tx x e) s with ⟨p, hc⟩ | ⟨n, s₁, hr, hc⟩
  · rw [hc] at ht'
    cases ht'
  · rw [hc] at ht'
    cases n with
    | inl t₁ =>
        obtain rfl := Option.some.inj ht'
        exact ht.next hr
    | inr reply => cases ht'

theorem UpdateUser.stored_passwordHash {u u' : UpdateUser} (h : u.stored = .ok u')
    (hnone : u.passwordHash = none) : u'.passwordHash = none := by
  obtain ⟨_, -, h⟩ := bind_ok.mp h
  obtain ⟨_, -, h⟩ := bind_ok.mp h
  obtain ⟨hash, hhash, h⟩ := bind_ok.mp h
  obtain rfl := Except.ok.inj h
  rw [hnone] at hhash
  exact (Except.ok.inj hhash).symm

/-- **What a step of the accounts does to users.** -/
theorem AccountTask.Knows.writes (ht : t.Knows r)
    (h : (accounts x).advance e t ts s = some (s', k)) :
    UsersKept s s' ∧ (∀ user ∈ s.users, user ∉ s'.users → r.actor = some user.id)
      ∧ ∃ users, s' = { s with users } := by
  rcases accounts_advance h with ⟨rfl, -⟩ | ⟨user, -, hcreate⟩ | ⟨u, user, rfl, hupdate⟩
  · exact ⟨.of_eq rfl, fun user hmem hgone => absurd hmem hgone, _, rfl⟩
  · obtain ⟨-, -, -, new, -, -, rfl⟩ := createUser_iff.mp hcreate
    refine ⟨SerialTable.Keeps.insert (new.row_id e.now) fun _ => rfl, fun user hmem hgone => ?_, _,
      rfl⟩
    exact absurd (NewUser.mem_insert.mpr (Or.inl hmem)) hgone
  · obtain ⟨-, -, u', hstored, -, -, rfl⟩ := updateUser_iff.mp ⟨user, hupdate⟩
    have hpassword := UpdateUser.stored_passwordHash hstored ht.1
    refine ⟨SerialTable.Keeps.update _ (fun _ => rfl) fun v _ _ => ?_, fun v hmem hgone => ?_, _,
      rfl⟩
    · simp only [UpdateUser.apply, hpassword, Option.getD_none]
    · by_contra hne
      refine hgone (UpdateUser.mem_applyTo.mpr ⟨v, hmem, if_neg fun hid => hne ?_⟩)
      rw [ht.2, hid, UpdateUser.stored_id hstored]

end

/-- Every step of the accounts was lawful, and their tasks know what they may do. -/
def ProfilesKept (c : Conc (Journaled Store AccountRequest AccountTask)
    (AccountRequest × AccountTask)) : Prop :=
  Program.Lawful OwnProfile c ∧ ∀ t ∈ c.tasks, t.2.Knows t.1

theorem AccountTask.knows_entry (x : Strings) (r : AccountRequest) :
    ((accounts x).entry r).Knows r := by
  cases r with
  | createUser user => trivial
  | patchUser username actorUserId patch => rfl

theorem profilesKept_step {x : Strings} {c c' : Conc (Journaled Store AccountRequest AccountTask)
      (AccountRequest × AccountTask)} {l : Sched AccountRequest AccountEnv}
    (hc : ProfilesKept c) (h : (accounts x).journaled.step c l = some c') :
    ProfilesKept c' ∧ UsersKept c.store.store c'.store.store
      ∧ ∃ users, c'.store.store = { c.store.store with users } := by
  rcases Program.step_cases h with ⟨r, rfl, rfl⟩ | ⟨i, e, ⟨r, t⟩, s', k, rfl, ht, hadv, rfl⟩
    | ⟨i, t, rfl, -, -, rfl⟩
  · refine ⟨⟨hc.1, fun t ht => ?_⟩, .of_eq rfl, _, rfl⟩
    rcases List.mem_append.mp ht with ht | ht
    · exact hc.2 t ht
    · obtain rfl := List.mem_singleton.mp ht
      exact AccountTask.knows_entry x r
  · obtain ⟨store, next, hnext, rfl, rfl⟩ := Program.journaled_advance hadv
    have hknows := hc.2 _ (List.mem_of_getElem? ht)
    obtain ⟨hkept, hown, husers⟩ := hknows.writes hnext
    refine ⟨⟨Program.lawful_cons.mpr ⟨hown, hc.1⟩, fun t' ht' => ?_⟩, hkept, husers⟩
    rcases Program.mem_replace ht' with ht' | ht'
    · obtain ⟨t₁, ht₁, rfl⟩ := Option.map_eq_some_iff.mp ht'
      exact hknows.advance hnext t₁ ht₁
    · exact hc.2 t' (List.mem_of_mem_eraseIdx ht')
  · exact ⟨⟨hc.1, fun t' ht' => hc.2 t' (List.mem_of_mem_eraseIdx ht')⟩, .of_eq rfl, _, rfl⟩

theorem services_users {x : Crates} {e : ServiceEnv} {t : ServiceTask} {ts : List ServiceTask}
    {s s' : Services} {k : Option ServiceTask}
    (h : (services x).advance e t ts s = some (s', k)) : s'.store.users = s.store.users := by
  cases t with
  | api task =>
      obtain ⟨store, next, hr, rfl, -⟩ := services_api h
      exact change_users (api_change hr)
  | upload u =>
      obtain ⟨next, hu, -⟩ := services_upload h
      rcases Upload.store_cases hu with hsame | ⟨_, _, table, -, -, hstore⟩
      · rw [hsame]
      · rw [hstore]
  | ingest i =>
      obtain ⟨next, hi, -⟩ := services_ingest h
      obtain ⟨_, _, _, hstore⟩ := Ingest.store_frame hi
      rw [hstore]

theorem services_step_users {x : Crates} {c c' : Conc (Journaled Services ServiceRequest
      ServiceTask) (ServiceRequest × ServiceTask)} {l : Sched ServiceRequest ServiceEnv}
    (h : (services x).journaled.step c l = some c') :
    c'.store.store.store.users = c.store.store.store.users := by
  rcases Program.step_cases h with ⟨r, rfl, rfl⟩ | ⟨i, e, ⟨r, t⟩, s', k, rfl, ht, hadv, rfl⟩
    | ⟨i, t, rfl, -, -, rfl⟩
  · rfl
  · obtain ⟨store, next, hnext, rfl, -⟩ := Program.journaled_advance hadv
    exact services_users hnext
  · rfl

/-! ## Sign-ins -/

abbrev SessionEvent := Run.Event Sessions SessionOp

/-- In the step a user is signed in who was found under the username, and whose
password it was. -/
def SignsIn (x : Site) (e : SessionEvent) (username : String) (user : User) : Prop :=
  ∃ i password, e.label = .login i
    ∧ e.before.logins[i]? = some (.check username password (some user))
    ∧ x.checkUserPassword password user.passwordHash = true

/-- How long a token of each type is accepted after the sign-in that it goes back
to, the leeway of its own check apart. -/
def TokenType.lifetime (x : Site) : TokenType → Nat
  | .refresh => 365 * 24 * 60 * 60
  | .access => 365 * 24 * 60 * 60 + x.signer.leeway + 15 * 60

/-- The claims go back to a sign-in of their user. -/
def IssuedFor (x : Site) (past : List SessionEvent) (claims : Claims) : Prop :=
  ∃ e ∈ past, ∃ username user, SignsIn x e username user ∧ claims.state = ⟨user.id⟩
    ∧ claims.exp ≤ e.before.clock + claims.tokenType.lifetime x

/-- The user has signed in, a year and a quarter of an hour ago at most. -/
def Authenticated (x : Site) (past : List SessionEvent) (userId : Int) (now : Nat) : Prop :=
  ∃ e ∈ past, ∃ username user, SignsIn x e username user ∧ user.id = userId
    ∧ now ≤ e.before.clock + 365 * 24 * 60 * 60 + 15 * 60 + 2 * x.signer.leeway

/-- The request has arrived with a token of the user it acts as. -/
def Entered (x : Site) (past : List SessionEvent) (r : BackendRequest) : Prop :=
  ∃ p e q authorization endpoint, past = p ++ e :: q ∧ e.label = .request authorization endpoint
    ∧ endpoint.request (x.userIdFromRequest e.before.clock authorization) = .ok r
    ∧ ∀ userId ∈ r.actor, Authenticated x p userId e.before.clock

/-- The user was found under the username, and still has that password. -/
def Found (x : Site) (past : List SessionEvent) (s : Store) (username : String) (user : User) :
    Prop :=
  (∃ e ∈ past, User.byUsername x.strings.pg username e.before.store = .ok (some user))
    ∧ user.id < s.users.next ∧ ∀ u ∈ s.users, u.id = user.id → u.passwordHash = user.passwordHash

section

variable {x : Site} {past past' : List SessionEvent} {s s' : Sessions}

theorem IssuedFor.mono {claims : Claims} (hpast : past ⊆ past') (h : IssuedFor x past claims) :
    IssuedFor x past' claims := by
  obtain ⟨e, he, hrest⟩ := h
  exact ⟨e, hpast he, hrest⟩

theorem Entered.append {r : BackendRequest} (h : Entered x past r) (e : SessionEvent) :
    Entered x (past ++ [e]) r := by
  obtain ⟨p, e₁, q, authorization, endpoint, rfl, hrest⟩ := h
  exact ⟨p, e₁, q ++ [e], authorization, endpoint, by simp, hrest⟩

theorem Found.keeps {s s' : Store} {username : String} {user : User} (hpast : past ⊆ past')
    (h : UsersKept s s') (hf : Found x past s username user) : Found x past' s' username user := by
  obtain ⟨⟨e, he, hfound⟩, hpassword⟩ := hf
  exact ⟨⟨e, hpast he, hfound⟩, h.forall_key hpassword⟩

theorem TokenSigner.decode_fresh {signer : TokenSigner} {α : Type} {ofJson : Json → Option α}
    {exp : α → Nat} {now : Nat} {token : String} {claims : α}
    (h : signer.decode ofJson exp now token = .ok claims) :
    now ≤ exp claims + signer.leeway := by
  unfold TokenSigner.decode at h
  split at h
  · cases h
  · split at h
    · obtain rfl := Except.ok.inj h
      assumption
    · cases h

/-! ## What a step signs -/

theorem run_createRefreshToken {now : Nat} {state : AuthenticationState} {signed : List Json}
    {r : String × List Json} (h : x.signer.createRefreshToken now state signed = some r) :
    ∃ claims : Claims, claims.exp = now + 365 * 24 * 60 * 60 ∧ claims.tokenType = .refresh
      ∧ claims.state = state ∧ r = (x.signer.encode claims.toJson, signed ++ [claims.toJson]) := by
  obtain ⟨-, rfl⟩ := run_createToken.mp h
  refine ⟨_, ?_, rfl, rfl, rfl⟩
  show ((now : Int) + 365 * 24 * 60 * 60).toNat = now + 365 * 24 * 60 * 60
  omega

/-- The claims of an access token for the user of a refresh token. -/
def exchangedClaims (now : Nat) (refresh : Claims) : Claims :=
  ⟨now + 15 * 60, .access, refresh.state⟩

/-- A refresh token was exchanged. -/
def Exchanged (x : Site) (now : Nat) (token : String) (signed signed' : List Json) : Prop :=
  ∃ refresh, x.signer.decodeToken now token = .ok refresh ∧ refresh.tokenType = .refresh
    ∧ signed' = signed ++ [(exchangedClaims now refresh).toJson]

theorem run_refresh {now : Nat} {token : String} {signed : List Json}
    {r : Except Problem String × List Json}
    (h : accessTokenFromRefreshToken x.signer now token signed = some r) :
    r.2 = signed ∨ Exchanged x now token signed r.2 := by
  obtain ⟨⟨answer, signed'⟩, hrun, h⟩ := Option.bind_eq_some_iff.mp h
  rcases run_accessTokenFromRefreshToken hrun with ⟨e, heq⟩ | ⟨refresh, hdecode, htype, -, heq⟩
  · obtain ⟨rfl, rfl⟩ := Prod.mk.inj heq
    cases e <;> exact Or.inl (congrArg Prod.snd (Option.some.inj h)).symm
  · obtain ⟨rfl, rfl⟩ := Prod.mk.inj heq
    exact Or.inr ⟨refresh, hdecode, htype, (congrArg Prod.snd (Option.some.inj h)).symm⟩

/-- **What a sign-in does in a step.** -/
theorem Login.advance_cases {now : Nat} {store : Store} {l l' : Login}
    {signed signed' : List Json} (h : l.advance x now store signed = some (l', signed')) :
    (∃ username password found, l = .lookup username password
        ∧ User.byUsername x.strings.pg username store = .ok found
        ∧ l' = .check username password found ∧ signed' = signed)
      ∨ (∃ username password user claims token, l = .check username password (some user)
        ∧ x.checkUserPassword password user.passwordHash = true ∧ l' = .exchange user token
        ∧ claims.exp = now + 365 * 24 * 60 * 60 ∧ claims.tokenType = .refresh
        ∧ claims.state = ⟨user.id⟩ ∧ signed' = signed ++ [Claims.toJson claims])
      ∨ (∃ user token answer, l = .exchange user token ∧ l' = .answered answer
        ∧ Exchanged x now token signed signed')
      ∨ ∃ answer, l' = .answered answer ∧ signed' = signed := by
  cases l with
  | lookup username password =>
      cases hlookup : User.byUsername x.strings.pg username store with
      | error e =>
          simp only [advance, hlookup] at h
          obtain ⟨rfl, rfl⟩ := Prod.mk.inj (Option.some.inj h)
          exact Or.inr (Or.inr (Or.inr ⟨_, rfl, rfl⟩))
      | ok found =>
          simp only [advance, hlookup] at h
          obtain ⟨rfl, rfl⟩ := Prod.mk.inj (Option.some.inj h)
          exact Or.inl ⟨_, _, _, rfl, hlookup, rfl, rfl⟩
  | check username password found =>
      cases found with
      | none =>
          obtain ⟨rfl, rfl⟩ := Prod.mk.inj (Option.some.inj h)
          exact Or.inr (Or.inr (Or.inr ⟨_, rfl, rfl⟩))
      | some user =>
          by_cases hpassword : (x.crypto now).checkUserPassword password user.passwordHash = true
          · rw [advance, if_pos hpassword] at h
            obtain ⟨r, hrun, h⟩ := Option.bind_eq_some_iff.mp h
            obtain ⟨claims, hexp, htype, hstate, rfl⟩ := run_createRefreshToken hrun
            obtain ⟨rfl, rfl⟩ := Prod.mk.inj (Option.some.inj h)
            exact Or.inr (Or.inl ⟨_, _, _, _, _, rfl, hpassword, rfl, hexp, htype, hstate, rfl⟩)
          · rw [advance, if_neg hpassword] at h
            obtain ⟨rfl, rfl⟩ := Prod.mk.inj (Option.some.inj h)
            exact Or.inr (Or.inr (Or.inr ⟨_, rfl, rfl⟩))
  | exchange user token =>
      obtain ⟨⟨answer, signed₁⟩, hrun, hanswer⟩ := Option.bind_eq_some_iff.mp h
      rcases run_accessTokenFromRefreshToken hrun with ⟨e, heq⟩ | ⟨refresh, hdecode, htype, -, heq⟩
      · obtain ⟨rfl, rfl⟩ := Prod.mk.inj heq
        cases hanswer
      · obtain ⟨rfl, rfl⟩ := Prod.mk.inj heq
        obtain ⟨rfl, rfl⟩ := Prod.mk.inj (Option.some.inj hanswer)
        exact Or.inr (Or.inr (Or.inl ⟨_, _, _, rfl, rfl, refresh, hdecode, htype, rfl⟩))
  | answered answer => cases h

/-- All that was signed for a user goes back to a sign-in of that user. -/
def AllIssued (x : Site) (past : List SessionEvent) (signed : List Json) : Prop :=
  ∀ json ∈ signed, ∀ claims, Claims.ofJson json = some claims → IssuedFor x past claims

theorem AllIssued.mono {signed : List Json} (hpast : past ⊆ past') (h : AllIssued x past signed) :
    AllIssued x past' signed :=
  fun json hjson claims hclaims => (h json hjson claims hclaims).mono hpast

theorem AllIssued.append {signed : List Json} {claims : Claims} (h : AllIssued x past signed)
    (hclaims : IssuedFor x past claims) : AllIssued x past (signed ++ [claims.toJson]) := by
  intro json hjson claims' hread
  rcases List.mem_append.mp hjson with hjson | hjson
  · exact h json hjson claims' hread
  · obtain rfl := List.mem_singleton.mp hjson
    rwa [Claims.eq_of_ofJson_toJson hread]

theorem AllIssued.decoded {now : Nat} {token : String} {claims : Claims}
    (h : AllIssued x past s.signed) (hgenuine : s.tokens.Genuine x.signer token)
    (hdecode : x.signer.decodeToken now token = .ok claims) : IssuedFor x past claims := by
  obtain ⟨json, hmem, -, hjson⟩ := hgenuine.decode_ok hdecode
  exact h json hmem claims hjson

theorem AllIssued.exchanged {token : String} {signed : List Json} (h : AllIssued x past s.signed)
    (hgenuine : s.tokens.Genuine x.signer token)
    (hexchanged : Exchanged x s.clock token s.signed signed) : AllIssued x past signed := by
  obtain ⟨refresh, hdecode, htype, rfl⟩ := hexchanged
  obtain ⟨e, he, username, user, hsigns, hstate, hexp⟩ := h.decoded hgenuine hdecode
  have hfresh := TokenSigner.decode_fresh hdecode
  rw [htype] at hexp
  refine h.append ⟨e, he, username, user, hsigns, hstate, ?_⟩
  simp only [exchangedClaims, TokenType.lifetime] at hexp ⊢
  omega

/-- **What is signed in a step goes back to a sign-in.** -/
theorem signed_step {op : SessionOp} (h : AllIssued x past s.signed) (hgenuine : s.Genuine x op)
    (hstep : s.step x op = some s') : AllIssued x (past ++ [⟨s, op, s'⟩]) s'.signed := by
  have hpast : past ⊆ past ++ [⟨s, op, s'⟩] := List.subset_append_left _ _
  cases op with
  | elapse seconds | authenticate username password =>
      obtain rfl := Option.some.inj hstep
      exact h.mono hpast
  | login i =>
      simp only [Sessions.step] at hstep
      split at hstep
      · cases hstep
      · rename_i l hl
        split at hstep
        · cases hstep
        · rename_i l' signed hadvance
          obtain rfl := Option.some.inj hstep
          rcases Login.advance_cases hadvance with ⟨_, _, _, -, -, -, rfl⟩
            | ⟨username, password, user, claims, token, rfl, hpassword, -, hexp, htype, hstate, rfl⟩
            | ⟨user, token, answer, rfl, -, hexchanged⟩ | ⟨_, -, rfl⟩
          · exact h.mono hpast
          · refine (h.mono hpast).append ⟨_, List.mem_append_right _ (List.mem_singleton_self _),
              username, user, ⟨i, password, rfl, hl, hpassword⟩, hstate, ?_⟩
            rw [hexp, htype]
            exact Nat.le_refl _
          · refine (h.exchanged (hgenuine token ?_) hexchanged).mono hpast
            simp only [Sessions.presented, hl]
            rfl
          · exact h.mono hpast
  | refresh token =>
      obtain ⟨r, hrun, rfl⟩ := Option.map_eq_some_iff.mp hstep
      rcases run_refresh hrun with hsame | hexchanged
      · have h' : AllIssued x past r.2 := hsame ▸ h
        exact h'.mono hpast
      · exact (h.exchanged (hgenuine token rfl) hexchanged).mono hpast
  | archiveAuthorize authorization kitSerial =>
      obtain ⟨r, hrun, rfl⟩ := Option.map_eq_some_iff.mp hstep
      rcases run_archiveAuthorize hrun with ⟨problem, rfl⟩ | ⟨granted, -, rfl⟩
      · exact h.mono hpast
      · intro json hjson claims hread
        rcases List.mem_append.mp hjson with hjson | hjson
        · exact (h json hjson claims hread).mono hpast
        · obtain rfl := List.mem_singleton.mp hjson
          rw [Claims.ofJson_arbitrary] at hread
          cases hread
  | request authorization endpoint =>
      simp only [Sessions.step] at hstep
      split at hstep
      · obtain rfl := Option.some.inj hstep
        exact h.mono hpast
      · obtain ⟨_, -, rfl⟩ := Option.map_eq_some_iff.mp hstep
        exact h.mono hpast
      · obtain ⟨_, -, rfl⟩ := Option.map_eq_some_iff.mp hstep
        exact h.mono hpast
  | service l | account l =>
      simp only [Sessions.step] at hstep
      split at hstep
      · obtain ⟨_, -, rfl⟩ := Option.map_eq_some_iff.mp hstep
        exact h.mono hpast
      · cases hstep

/-! ## What else a step does -/

theorem User.mem_of_byUsername {pg : Postgres} {username : String} {s : Store} {user : User}
    (h : User.byUsername pg username s = .ok (some user)) : user ∈ s.users := by
  unfold User.byUsername at h
  split at h
  case isFalse => cases h
  rcases User.first_cases (fun u => pg.ilike u.username username) (pg.scan s.users.rows)
    with ⟨hnone, -⟩ | ⟨u, hmem, -, hfound⟩ | ⟨_, -, -, herror⟩
  · rw [hnone] at h
    cases h
  · rw [hfound] at h
    obtain rfl := Option.some.inj (Except.ok.inj h)
    exact (pg.scan_perm _).mem_iff.mp hmem
  · rw [herror] at h
    cases h

/-- The request arrives in the step. -/
def Arrives (x : Site) (s : Sessions) (op : SessionOp) (r : BackendRequest) : Prop :=
  ∃ authorization endpoint, op = .request authorization endpoint
    ∧ endpoint.request (x.userIdFromRequest s.clock authorization) = .ok r

/-- **What a step does to the backend.** -/
theorem backend_step {op : SessionOp} (h : s.step x op = some s') :
    (s'.services = s.services ∧ s'.accounts = s.accounts)
      ∨ (∃ l, (services x.crates).journaled.step s.services l = some s'.services
        ∧ s'.accounts.store.journal = s.accounts.store.journal
        ∧ s'.accounts.tasks = s.accounts.tasks
        ∧ ∀ r, l = .spawn (.api r) → Arrives x s op (.service (.api r)))
      ∨ ∃ l c, (accounts x.strings).journaled.step s.accounts l = some c ∧ s' = s.setAccounts c
        ∧ ∀ r, l = .spawn r → Arrives x s op (.account r) := by
  cases op with
  | elapse seconds | authenticate username password =>
      obtain rfl := Option.some.inj h
      exact Or.inl ⟨rfl, rfl⟩
  | login i =>
      simp only [Sessions.step] at h
      split at h
      · cases h
      · split at h
        · cases h
        · obtain rfl := Option.some.inj h
          exact Or.inl ⟨rfl, rfl⟩
  | refresh token | archiveAuthorize authorization kitSerial =>
      obtain ⟨_, -, rfl⟩ := Option.map_eq_some_iff.mp h
      exact Or.inl ⟨rfl, rfl⟩
  | request authorization endpoint =>
      simp only [Sessions.step] at h
      split at h
      · obtain rfl := Option.some.inj h
        exact Or.inl ⟨rfl, rfl⟩
      · rename_i r hr
        obtain ⟨c, hc, rfl⟩ := Option.map_eq_some_iff.mp h
        refine Or.inr (Or.inl ⟨_, hc, rfl, rfl, fun r' heq => ?_⟩)
        obtain rfl := Sched.spawn.inj heq
        exact ⟨_, _, rfl, hr⟩
      · rename_i r hr
        obtain ⟨c, hc, rfl⟩ := Option.map_eq_some_iff.mp h
        refine Or.inr (Or.inr ⟨_, c, hc, rfl, fun r' heq => ?_⟩)
        obtain rfl := Sched.spawn.inj heq
        exact ⟨_, _, rfl, hr⟩
  | service l =>
      simp only [Sessions.step] at h
      split at h
      · rename_i harrives
        obtain ⟨c, hc, rfl⟩ := Option.map_eq_some_iff.mp h
        refine Or.inr (Or.inl ⟨l, hc, rfl, rfl, fun r heq => ?_⟩)
        rw [heq] at harrives
        cases harrives
      · cases h
  | account l =>
      simp only [Sessions.step] at h
      split at h
      · rename_i hcontinues
        obtain ⟨c, hc, rfl⟩ := Option.map_eq_some_iff.mp h
        refine Or.inr (Or.inr ⟨l, c, hc, rfl, fun r heq => ?_⟩)
        rw [heq] at hcontinues
        cases hcontinues
      · cases h

/-- **What a step does to the sign-ins.** -/
theorem logins_step {op : SessionOp} (h : s.step x op = some s') :
    s'.logins = s.logins
      ∨ (∃ username password, s'.logins = s.logins ++ [.lookup username password])
      ∨ ∃ i l l' signed, op = .login i ∧ s.logins[i]? = some l
        ∧ l.advance x s.clock s.store s.signed = some (l', signed)
        ∧ s'.logins = s.logins.set i l' := by
  cases op with
  | authenticate username password =>
      obtain rfl := Option.some.inj h
      exact Or.inr (Or.inl ⟨_, _, rfl⟩)
  | login i =>
      simp only [Sessions.step] at h
      split at h
      · cases h
      · rename_i l hl
        split at h
        · cases h
        · rename_i l' signed hadvance
          obtain rfl := Option.some.inj h
          exact Or.inr (Or.inr ⟨i, l, l', signed, rfl, hl, hadvance, rfl⟩)
  | elapse seconds =>
      obtain rfl := Option.some.inj h
      exact Or.inl rfl
  | refresh token | archiveAuthorize authorization kitSerial =>
      obtain ⟨_, -, rfl⟩ := Option.map_eq_some_iff.mp h
      exact Or.inl rfl
  | request authorization endpoint =>
      simp only [Sessions.step] at h
      split at h
      · obtain rfl := Option.some.inj h
        exact Or.inl rfl
      · obtain ⟨_, -, rfl⟩ := Option.map_eq_some_iff.mp h
        exact Or.inl rfl
      · obtain ⟨_, -, rfl⟩ := Option.map_eq_some_iff.mp h
        exact Or.inl rfl
  | service l | account l =>
      simp only [Sessions.step] at h
      split at h
      · obtain ⟨_, -, rfl⟩ := Option.map_eq_some_iff.mp h
        exact Or.inl rfl
      · cases h

/-- The backend is coherent, and its writes are those of their requests' users. -/
def BackendSound (s : Sessions) : Prop := MediatedRun s.services ∧ ProfilesKept s.accounts

theorem backendSound_step {op : SessionOp} (hs : BackendSound s) (h : s.step x op = some s') :
    BackendSound s' ∧ UsersKept s.store s'.store := by
  rcases backend_step h with ⟨hservices, haccounts⟩ | ⟨l, hstep, hjournal, htasks, -⟩
    | ⟨l, c, hstep, rfl, -⟩
  · refine ⟨⟨by rw [hservices]; exact hs.1, by rw [haccounts]; exact hs.2⟩, .of_eq ?_⟩
    unfold Sessions.store
    rw [hservices]
  · refine ⟨⟨mediatedRun_step hs.1 hstep, ?_⟩, .of_eq (services_step_users hstep)⟩
    obtain ⟨hlawful, hknows⟩ := hs.2
    refine ⟨fun e he => hlawful e ?_, fun t ht => hknows t ?_⟩
    · exact hjournal ▸ he
    · exact htasks ▸ ht
  · obtain ⟨hkept, husers, users, hstore⟩ := profilesKept_step hs.2 hstep
    refine ⟨⟨?_, hkept⟩, husers⟩
    refine hs.1.setStore ?_ ?_ ?_ <;> rw [hstore]
    · exact ⟨.refl fun _ => rfl, .refl fun _ => rfl, .refl fun _ => rfl⟩
    · exact { hs.1.1.2.1 with }
    · exact hs.1.2.1.1

/-! ## Runs -/

/-- What the past of a run says of its state. -/
structure Sound (x : Site) (past : List SessionEvent) (s : Sessions) : Prop where
  backend : BackendSound s
  issued : AllIssued x past s.signed
  found : ∀ username password user, Login.check username password (some user) ∈ s.logins →
    Found x past s.store username user
  signIns : ∀ e ∈ past, ∀ username user, SignsIn x e username user →
    Found x past s.store username user
  requests : ∀ r, Program.Requested s.services (.api r) → Entered x past (.service (.api r))
  accountRequests : ∀ r, Program.Requested s.accounts r → Entered x past (.account r)

/-- Whoever presents a token that is not forged has signed in. -/
theorem authenticated_of_header {authorization : Option String} {userId : Int}
    (h : AllIssued x past s.signed)
    (hgenuine : ∀ token ∈ authorization.bind x.bearer, s.tokens.Genuine x.signer token)
    (hfound : x.userIdFromRequest s.clock authorization = .ok userId) :
    Authenticated x past userId s.clock := by
  obtain ⟨token, htoken, hdecode⟩ := Site.userIdFromRequest_ok hfound
  obtain ⟨claims, hclaims, htype, hstate⟩ := decodeAccessToken_ok hdecode
  obtain ⟨e, he, username, user, hsigns, huser, hexp⟩ :=
    h.decoded (hgenuine token htoken) hclaims
  have hfresh := TokenSigner.decode_fresh hclaims
  rw [htype] at hexp
  rw [hstate] at huser
  refine ⟨e, he, username, user, hsigns, (AuthenticationState.mk.inj huser).symm, ?_⟩
  simp only [TokenType.lifetime] at hexp
  omega

/-- A request that arrives presents an access token of the user it acts as. -/
theorem entered_of_arrives {op : SessionOp} {r : BackendRequest} (h : AllIssued x past s.signed)
    (hgenuine : s.Genuine x op) (harrives : Arrives x s op r) :
    Entered x (past ++ [⟨s, op, s'⟩]) r := by
  obtain ⟨authorization, endpoint, rfl, hr⟩ := harrives
  exact ⟨past, _, [], authorization, endpoint, rfl, rfl, hr, fun userId hactor =>
    authenticated_of_header h hgenuine (Endpoint.request_actor hr hactor)⟩

/-- **The step lemma.** -/
theorem sound_step {op : SessionOp} (hs : Sound x past s) (hgenuine : s.Genuine x op)
    (h : s.step x op = some s') : Sound x (past ++ [⟨s, op, s'⟩]) s' := by
  have hpast : past ⊆ past ++ [⟨s, op, s'⟩] := List.subset_append_left _ _
  obtain ⟨hbackend, husers⟩ := backendSound_step hs.backend h
  constructor
  case backend => exact hbackend
  case issued => exact signed_step hs.issued hgenuine h
  case found =>
    intro username password user hmem
    have hold : Login.check username password (some user) ∈ s.logins →
        Found x (past ++ [⟨s, op, s'⟩]) s'.store username user :=
      fun hmem => (hs.found username password user hmem).keeps hpast husers
    rcases logins_step h with hsame | ⟨_, _, hadded⟩ | ⟨i, l, l', signed, -, hl, hadvance, hset⟩
    · exact hold (hsame ▸ hmem)
    · rw [hadded] at hmem
      rcases List.mem_append.mp hmem with hmem | hmem
      · exact hold hmem
      · cases List.mem_singleton.mp hmem
    · rw [hset] at hmem
      rcases List.mem_or_eq_of_mem_set hmem with hmem | rfl
      · exact hold hmem
      · rcases Login.advance_cases hadvance with ⟨_, _, found, -, hlookup, heq, -⟩
          | ⟨_, _, _, _, _, -, -, heq, -⟩ | ⟨_, _, _, -, heq, -⟩ | ⟨_, heq, -⟩ <;> cases heq
        refine ⟨⟨_, List.mem_append_right _ (List.mem_singleton_self _), hlookup⟩, ?_⟩
        exact husers.forall_key (SerialTable.forall_key_of_mem User.passwordHash
          (User.mem_of_byUsername hlookup))
  case signIns =>
    intro e he username user hsigns
    rcases List.mem_append.mp he with he | he
    · exact (hs.signIns e he username user hsigns).keeps hpast husers
    · obtain rfl := List.mem_singleton.mp he
      obtain ⟨i, password, -, hl, -⟩ := hsigns
      exact (hs.found username password user (List.mem_of_getElem? hl)).keeps hpast husers
  case requests =>
    intro r hr
    rcases backend_step h with ⟨hservices, -⟩ | ⟨l, hstep, -, -, harrives⟩ | ⟨l, c, -, rfl, -⟩
    · exact (hs.requests r (hservices ▸ hr)).append _
    · rcases Program.requested_step hstep hr with hr | hl
      · exact (hs.requests r hr).append _
      · exact entered_of_arrives hs.issued hgenuine (harrives r hl)
    · exact (hs.requests r hr).append _
  case accountRequests =>
    intro r hr
    rcases backend_step h with ⟨-, haccounts⟩ | ⟨l, -, hjournal, htasks, -⟩
      | ⟨l, c, hstep, rfl, harrives⟩
    · exact (hs.accountRequests r (haccounts ▸ hr)).append _
    · refine (hs.accountRequests r ?_).append _
      rcases hr with ⟨t, ht, hreq⟩ | ⟨e, he, hreq⟩
      · exact Or.inl ⟨t, htasks ▸ ht, hreq⟩
      · exact Or.inr ⟨e, hjournal ▸ he, hreq⟩
    · rcases Program.requested_step hstep hr with hr | hl
      · exact (hs.accountRequests r hr).append _
      · exact entered_of_arrives hs.issued hgenuine (harrives r hl)

theorem sound_start {now : Nat} {store : Store} (howned : Owned store)
    (hserials : UniqueSerials store) : Sound x [] (.start now store) where
  backend := ⟨mediatedRun_start howned hserials,
    fun e he => (by cases he), fun t ht => (by cases ht)⟩
  issued json hjson := by cases hjson
  found username password user hmem := by cases hmem
  signIns e he := by cases he
  requests r hr := by rcases hr with ⟨t, ht, -⟩ | ⟨e, he, -⟩ <;> contradiction
  accountRequests r hr := by rcases hr with ⟨t, ht, -⟩ | ⟨e, he, -⟩ <;> contradiction

end

/-! ## A run -/

theorem lastSecond_lt : 8210266876799 < 2 ^ 63 := by
  decide

/-- The claims of a user are written out in digits. -/
def plainSigner : TokenSigner where
  encode json := ((Claims.ofJson json).map plainCrypto.encode).getD ""
  verify token := (plainCrypto.decode token).toOption.map Claims.toJson
  leeway := 60
  lastInstant := 8210266876799
  lastInstant_lt := lastSecond_lt

/-- What follows the scheme. -/
def plainBearer (header : String) : Option String :=
  if header.toList.take 7 = "Bearer ".toList then some (String.ofList (header.toList.drop 7))
  else none

def plainSite : Site where
  crates := plainCrates
  strings := .ascii
  signer := plainSigner
  pbkdf2 := plainCrypto.pbkdf2
  base64Decode := plainCrypto.base64Decode
  bearer := plainBearer

/-- Both kits are the gardener's, whose password is known. -/
def adasGarden : Store := { gardener with users := onlyAda.users }

def adasRefreshClaims : Claims := ⟨31536000, .refresh, ⟨1⟩⟩

def adasAccessClaims : Claims := ⟨901, .access, ⟨1⟩⟩

/-- A token is not forged if it belongs to one of the claims that were signed. -/
theorem genuine_of_verify {signer : TokenSigner} {s : TokenState} {token : String} {json : Json}
    (hverify : signer.verify token = some json) (hencode : signer.encode json = token)
    (hmem : json ∈ s.signed) (hone : ∀ j ∈ s.signed, signer.encode j = token → j = json) :
    s.Genuine signer token := by
  intro claims
  rw [hverify]
  constructor
  · rintro ⟨⟩
    exact ⟨hmem, hencode⟩
  · rintro ⟨hclaims, htoken⟩
    rw [hone claims hclaims htoken]

end AstroPlant
