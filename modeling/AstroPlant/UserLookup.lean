import AstroPlant.Authentication

/-!
# Who is found by a username

A username in a request is a pattern. If it has no special character, the user
who is found is the one of that name, whoever else is in the table; if it has
one, there is a table in which somebody else is found, or in which the lookup is
an error although nobody has that name (`exact_lookup_iff`). The character U+0000
counts as special: no text of the database has it, and a query that asks for one
is an error rather than without a result.

That plain names are found is a fact about `find?` and about the pattern matching
only itself (`byUsername_of_plain`). The other direction makes up a table. For a
name with a special character there is a text that the pattern does not refuse
and that is another name (`Postgres.exists_ilike_ne_false`, from a sample of the
pattern), and a table with only that user answers with it, or with an error.
Folding of case is the database's, and all that is used of it is that it commutes
with what is special in a pattern.
-/

namespace AstroPlant

/-- The user's name is the given one, ignoring case. -/
def User.Named (pg : Postgres) (username : String) (u : User) : Prop :=
  pg.fold u.username = pg.fold username

instance (pg : Postgres) (username : String) (u : User) : Decidable (u.Named pg username) :=
  inferInstanceAs (Decidable (pg.fold u.username = pg.fold username))

/-- Usernames are lowercase and pairwise distinct. -/
structure Usernames (pg : Postgres) (s : Store) : Prop where
  lowercase : ∀ u ∈ s.users, pg.fold u.username = u.username.toList
  distinct : ∀ u ∈ s.users, ∀ v ∈ s.users, u.username = v.username → u = v

/-- The user of that name is found if there is one, and nobody is if there is
none; tokens are issued for that user, and the endpoints act on that user. -/
structure ExactLookup (pg : Postgres) (username : String) (s : Store) : Prop where
  found : ∀ u ∈ s.users, u.Named pg username → User.byUsername pg username s = .ok (some u)
  notFound : (∀ u ∈ s.users, ¬u.Named pg username) → User.byUsername pg username s = .ok none
  tokens : ∀ crypto now password tokens,
    authenticateByCredentials pg crypto now username password s = .ok tokens →
    ∃ u ∈ s.users, u.Named pg username
      ∧ crypto.checkUserPassword password u.passwordHash = true
      ∧ issueTokens crypto now u = .ok tokens
  view : ∀ actorUserId v, userByUsername pg username actorUserId s = .ok v →
    ∃ u ∈ s.users, u.Named pg username ∧ v = .ofModel u
  patch : ∀ validateEmail now actorUserId userPatch s₂ s₃ v s',
    patchUser pg validateEmail now username actorUserId userPatch s s₂ s₃ = .ok (v, s') →
    ∃ u ∈ s.users, u.Named pg username
      ∧ ∃ update : UpdateUser, update.id = u.id ∧ s' = update.applyTo now s₃
  kitMemberships : ∀ actorUserId s₂ ms,
    listKitMemberships pg username actorUserId s s₂ = .ok ms →
    ∃ u ∈ s.users, u.Named pg username
      ∧ ∀ m ∈ ms, m.membership.userId = u.id ∧ m.user = .ofModel u

/-- No character is special in a pattern, and the database takes them all. -/
def Plain (username : String) : Prop :=
  ∀ c ∈ username.toList, Like.isMeta c = false ∧ c ≠ '\x00'

instance (username : String) : Decidable (Plain username) :=
  decidable_of_iff ((username.toList.all fun c => !Like.isMeta c && c != '\x00') = true) (by
    simp [Plain])

/-! ## Plain usernames -/

theorem plain_iff {username : String} :
    Plain username
      ↔ (∀ c ∈ username.toList, Like.isMeta c = false) ∧ isStorable username = true := by
  rw [isStorable_iff]
  exact ⟨fun h => ⟨fun c hc => (h c hc).1, fun c hc => (h c hc).2⟩,
    fun h c hc => ⟨h.1 c hc, h.2 c hc⟩⟩

theorem Postgres.forall_mem_fold (pg : Postgres) {text : String} :
    (∀ c ∈ pg.fold text, Like.isMeta c = false) ↔ ∀ c ∈ text.toList, Like.isMeta c = false := by
  have hmeta : ∀ c, Like.isMeta (pg.lower c) = Like.isMeta c := by
    intro c
    by_cases hc : Like.isMeta (pg.lower c) = true
    · have heq : c = pg.lower c := (pg.lower_eq_meta c _ hc).mp rfl
      rw [← heq]
    · by_cases hc' : Like.isMeta c = true
      · have heq : pg.lower c = c := (pg.lower_eq_meta c c hc').mpr rfl
        rw [heq]
      · rw [Bool.not_eq_true] at hc hc'
        rw [hc, hc']
  unfold Postgres.fold
  constructor
  · intro h c hc
    rw [← hmeta]
    exact h _ (List.mem_map_of_mem hc)
  · intro h c hc
    obtain ⟨c', hc', rfl⟩ := List.mem_map.mp hc
    rw [hmeta]
    exact h c' hc'

theorem User.first_eq_find? {found : User → Option Bool} {named : User → Bool} {us : List User}
    (h : ∀ u ∈ us, found u = some (named u)) : User.first found us = .ok (us.find? named) := by
  induction us with
  | nil => rfl
  | cons u us ih =>
      have hu := h u (List.mem_cons_self ..)
      have hrest := ih fun v hv => h v (List.mem_cons_of_mem _ hv)
      rw [User.first, hu, List.find?_cons]
      cases named u with
      | true => rfl
      | false => exact hrest

theorem byUsername_of_plain (pg : Postgres) {username : String} (h : Plain username)
    (s : Store) : User.byUsername pg username s
      = .ok ((pg.scan s.users.rows).find? fun u => decide (u.Named pg username)) := by
  obtain ⟨hplain, hstorable⟩ := plain_iff.mp h
  rw [User.byUsername, if_pos hstorable]
  exact User.first_eq_find? fun u _ =>
    Like.like_of_plain (pg.forall_mem_fold.mpr hplain) (pg.fold u.username)

/-- If nobody else has the plain name, whoever has it is found. -/
theorem byUsername_of_only {pg : Postgres} {username : String} (h : Plain username) {s : Store}
    {u : User} (hu : u ∈ s.users) (hnamed : u.Named pg username)
    (honly : ∀ v ∈ s.users, v.Named pg username → v = u) :
    User.byUsername pg username s = .ok (some u) := by
  have hscan : ∀ v, v ∈ pg.scan s.users.rows ↔ v ∈ s.users := fun v => (pg.scan_perm _).mem_iff
  rw [byUsername_of_plain pg h s]
  cases hfind : (pg.scan s.users.rows).find? fun v => decide (v.Named pg username) with
  | none =>
      have hno := List.find?_eq_none.mp hfind u ((hscan u).mpr hu)
      exact absurd hnamed (by simpa using hno)
  | some v =>
      have hv := (hscan v).mp (List.mem_of_find?_eq_some hfind)
      have hvnamed := List.find?_some hfind
      rw [honly v hv (by simpa using hvnamed)]

theorem byEmailAddress_of_plain (pg : Postgres) {emailAddress : String} (h : Plain emailAddress)
    (s : Store) : User.byEmailAddress pg emailAddress s
      = .ok ((pg.scan s.users.rows).find? fun u =>
        decide (pg.fold u.emailAddress = pg.fold emailAddress)) := by
  obtain ⟨hplain, hstorable⟩ := plain_iff.mp h
  rw [User.byEmailAddress, if_pos hstorable]
  exact User.first_eq_find? fun u _ =>
    Like.like_of_plain (pg.forall_mem_fold.mpr hplain) (pg.fold u.emailAddress)

/-- A plain address that nobody else has passes the check of a patch. -/
theorem checkEmailAddress_of_only {pg : Postgres} {update : UpdateUser} {s : Store}
    (h : ∀ emailAddress, update.emailAddress = some emailAddress → Plain emailAddress
      ∧ ∀ v ∈ s.users, pg.fold v.emailAddress = pg.fold emailAddress → v.id = update.id) :
    checkEmailAddress pg update s = .ok () := by
  rw [checkEmailAddress]
  cases hemail : update.emailAddress with
  | none => rfl
  | some emailAddress =>
      obtain ⟨hplain, honly⟩ := h emailAddress hemail
      dsimp only
      rw [byEmailAddress_of_plain pg hplain s]
      cases hfind : (pg.scan s.users.rows).find? fun v =>
          decide (pg.fold v.emailAddress = pg.fold emailAddress) with
      | none => rfl
      | some v =>
          have hv := (pg.scan_perm _).mem_iff.mp (List.mem_of_find?_eq_some hfind)
          have hhas := List.find?_some hfind
          exact if_neg (not_not.mpr (honly v hv (by simpa using hhas)))

theorem exactLookup_of_plain {pg : Postgres} {username : String} (h : Plain username)
    {s : Store} (hs : Usernames pg s) : ExactLookup pg username s := by
  have hscan : ∀ u, u ∈ pg.scan s.users.rows ↔ u ∈ s.users := fun u => (pg.scan_perm _).mem_iff
  have hlookup := byUsername_of_plain pg h s
  -- whoever is found is in the table and of that name
  have hsome : ∀ u, User.byUsername pg username s = .ok (some u) →
      u ∈ s.users ∧ u.Named pg username := by
    intro u hu
    rw [hlookup] at hu
    have hfind := Except.ok.inj hu
    have hnamed := List.find?_some hfind
    exact ⟨(hscan u).mp (List.mem_of_find?_eq_some hfind), by simpa using hnamed⟩
  constructor
  · intro u hu hnamed
    refine byUsername_of_only h hu hnamed fun v hv hvnamed => ?_
    have hfold : pg.fold v.username = pg.fold u.username := hvnamed.trans hnamed.symm
    rw [hs.lowercase u hu, hs.lowercase v hv] at hfold
    exact hs.distinct v hv u hu (String.toList_inj.mp hfold)
  · intro hno
    rw [hlookup, List.find?_eq_none.mpr]
    intro u hu
    simpa using hno u ((hscan u).mp hu)
  · intro crypto now password tokens htokens
    obtain ⟨u, hu, hpassword, hissued⟩ := authenticateByCredentials_ok htokens
    exact ⟨u, (hsome u hu).1, (hsome u hu).2, hpassword, hissued⟩
  · intro actorUserId v hv
    obtain ⟨u, hu, hview⟩ := userByUsername_ok hv
    exact ⟨u, (hsome u hu).1, (hsome u hu).2, hview⟩
  · intro validateEmail now actorUserId userPatch s₂ s₃ v s' hpatch
    obtain ⟨u, hu, hupdate⟩ := patchUser_ok hpatch
    exact ⟨u, (hsome u hu).1, (hsome u hu).2, hupdate⟩
  · intro actorUserId s₂ ms hms
    obtain ⟨u, hu, hmemberships⟩ := listKitMemberships_ok hms
    exact ⟨u, (hsome u hu).1, (hsome u hu).2, hmemberships⟩

/-! ## Other usernames -/

/-- A store with one user. -/
def oneUser (username : String) : Store :=
  { Store.empty with
    users := SerialTable.empty.insert
      (fun id => ⟨id, username, username, "", "", true, "", 0, 0⟩) fun _ => rfl }

theorem mem_oneUser {username : String} {u : User} (h : u ∈ (oneUser username).users) :
    u = ⟨1, username, username, "", "", true, "", 0, 0⟩ := List.mem_singleton.mp h

/-- A pattern with a special character does not refuse every other text; the text
is in lower case, as a percent sign is, and so is the folded pattern. -/
theorem Postgres.exists_ilike_ne_false (pg : Postgres) {pattern : String}
    (h : ¬∀ c ∈ pattern.toList, Like.isMeta c = false) :
    ∃ text, pg.fold text = text.toList ∧ pg.fold text ≠ pg.fold pattern
      ∧ pg.ilike text pattern ≠ some false := by
  have hspecial : ∃ c ∈ pg.fold pattern, Like.isMeta c = true := by
    by_contra hno
    refine h (pg.forall_mem_fold.mp fun c hc => ?_)
    by_contra hmeta
    exact hno ⟨c, hc, by simpa using hmeta⟩
  obtain ⟨t, hne, hchars, hlike⟩ := Like.exists_like_ne_false hspecial
  have hfold : pg.fold (String.ofList t) = t := by
    have hlower : ∀ c ∈ t, pg.lower c = c := by
      intro c hc
      rcases hchars c hc with rfl | hc
      · exact (pg.lower_eq_meta _ _ (by decide)).mpr rfl
      · obtain ⟨c', -, rfl⟩ := List.mem_map.mp hc
        exact pg.lower_lower c'
    rw [Postgres.fold, String.toList_ofList, List.map_congr_left hlower, List.map_id']
  refine ⟨String.ofList t, ?_, ?_, ?_⟩
  · rw [hfold, String.toList_ofList]
  · rw [hfold]
    exact hne
  · rw [Postgres.ilike, hfold]
    exact hlike

theorem not_exactLookup_of_special (pg : Postgres) {username : String} (h : ¬Plain username) :
    ∃ s, Usernames pg s ∧ ¬ExactLookup pg username s := by
  cases hstorable : isStorable username with
  | false =>
      -- there is nobody to be found, and yet that is not the answer
      refine ⟨Store.empty, ⟨fun u hu => (by cases hu), fun u hu => (by cases hu)⟩, fun hexact => ?_⟩
      have hnone := hexact.notFound fun u hu => by cases hu
      rw [User.byUsername, hstorable] at hnone
      cases hnone
  | true =>
  replace h := fun hplain => h (plain_iff.mpr ⟨hplain, hstorable⟩)
  obtain ⟨other, hfold, hne, hilike⟩ := pg.exists_ilike_ne_false h
  refine ⟨oneUser other, ⟨fun u hu => ?_, fun u hu v hv _ => ?_⟩, fun hexact => ?_⟩
  · rw [mem_oneUser hu]
    exact hfold
  · rw [mem_oneUser hu, mem_oneUser hv]
  · have hnone := hexact.notFound fun u hu hnamed => by
      rw [mem_oneUser hu] at hnamed
      exact hne hnamed
    have hscan : pg.scan (oneUser other).users.rows = (oneUser other).users.rows :=
      List.perm_singleton.mp (pg.scan_perm _)
    rw [User.byUsername, if_pos hstorable, hscan] at hnone
    change User.first _ [_] = _ at hnone
    simp only [User.first] at hnone
    split at hnone
    · cases hnone
    · cases hnone
    · rename_i hfalse
      exact hilike hfalse

/-- **The lookup of a username is exact**, whatever the table, exactly if the
username has no special character. -/
theorem exact_lookup_iff (pg : Postgres) (username : String) :
    (∀ s, Usernames pg s → ExactLookup pg username s) ↔ Plain username := by
  constructor
  · intro h
    by_contra hspecial
    obtain ⟨s, hs, hexact⟩ := not_exactLookup_of_special pg hspecial
    exact hexact (h s hs)
  · intro h s hs
    exact exactLookup_of_plain h hs

/-! ## A wildcard -/

/-- The characters of an ASCII string as bytes. -/
def asciiBytes (s : String) : List UInt8 := s.toList.map fun c => .ofNat c.toNat

/-- Claims are written out in digits, Base64 is left out, and a derived key
begins with the password. -/
def plainCrypto : Crypto where
  pbkdf2 password salt _ := (asciiBytes password ++ salt ++ salt).take 32
  base64Decode s := some (asciiBytes s)
  encode claims :=
    let type := match claims.tokenType with
      | .refresh => 'r'
      | .access => 'a'
    String.ofList
      (Nat.toDigits 10 claims.exp ++ [type] ++ Nat.toDigits 10 claims.state.userId.toNat)
  decode token :=
    let number := fun ds : List Char => ds.foldl (fun n d => 10 * n + (d.toNat - 48)) 0
    let exp := token.toList.takeWhile Char.isDigit
    match token.toList.drop exp.length with
    | 'r' :: user => .ok ⟨number exp, .refresh, ⟨number user⟩⟩
    | 'a' :: user => .ok ⟨number exp, .access, ⟨number user⟩⟩
    | _ => .error .other

def ada : User :=
  ⟨1, "ada", "Ada", "1$0123456789abcdef$pw0123456789abcdef0123456789abcd", "ada@example.org", true,
    "", 0, 0⟩

def onlyAda : Store :=
  { Store.empty with users := SerialTable.empty.insert (fun id => { ada with id }) fun _ => rfl }

/-- Nobody is called `%`, and yet whoever gives that name and the password of
the first user is logged in as that user. -/
theorem wildcard_finds_ada :
    Usernames .ascii onlyAda
      ∧ (∀ u ∈ onlyAda.users, ¬u.Named .ascii "%")
      ∧ User.byUsername .ascii "%" onlyAda = .ok (some ada)
      ∧ userByUsername .ascii "%" none onlyAda = .ok (.ofModel ada)
      ∧ authenticateByCredentials .ascii plainCrypto 0 "%" "pw" onlyAda
        = issueTokens plainCrypto 0 ada
      ∧ (issueTokens plainCrypto 0 ada).toOption.isSome = true := by
  have hada : ∀ u ∈ onlyAda.users, u = ada := fun u hu => List.mem_singleton.mp hu
  refine ⟨⟨fun u hu => ?_, fun u hu v hv _ => ?_⟩, fun u hu => ?_, rfl, rfl, ?_, ?_⟩
  · rw [hada u hu]
    rfl
  · rw [hada u hu, hada v hv]
  · rw [hada u hu]
    decide
  · rfl
  · decide

end AstroPlant
