import AstroPlant.Tokens

/-!
# Token kinds never cross

Every claim set that is signed comes from one operation (`Mints`), and the JSON
that one kind of operation signs is not deserialised as another kind. So a token
that is accepted leads back to the operation that made it, and an access token
leads on to the refresh token that it was made from.

The three kinds are told apart by their JSON. A claim set that was written is
read back by its own kind (`ofJson_toJson`), what is read is what was written
(`eq_of_ofJson_toJson`), and a download token has no token type while the other
two have no data. `Signed` is the state of a run as far as it matters here: which
values have been signed. An event that signs one remembers it (`signed_exec`),
and an accepted token, not being forged, is one of them; `created_of_decoded` and
its siblings turn that into the event that signed it.
-/

namespace AstroPlant

/-! ## What is read back -/

namespace Json

theorem usize?_ofNat {n : Nat} (h : n < 2 ^ 64) : (ofNat n).usize? = some n := if_pos h

theorem eq_of_usize?_ofNat {n m : Nat} (h : (ofNat n).usize? = some m) : m = n := by
  simp only [ofNat, usize?] at h
  split at h
  · exact (Option.some.inj h).symm
  · cases h

theorem i32?_ofInt {n : Int} (hlow : -2 ^ 31 ≤ n) (hhigh : n < 2 ^ 31) :
    (ofInt n).i32? = some n := by
  unfold ofInt
  split
  · rename_i hn
    have hsmall : n.toNat < 2 ^ 31 := by omega
    simp only [i32?, hsmall, if_true, Option.some.injEq]
    omega
  · simp only [i32?, hlow, if_true]

theorem eq_of_i32?_ofInt {n m : Int} (h : (ofInt n).i32? = some m) : m = n := by
  unfold ofInt at h
  split at h
  · simp only [i32?] at h
    split at h
    · have := Option.some.inj h
      omega
    · cases h
  · simp only [i32?] at h
    split at h
    · exact (Option.some.inj h).symm
    · cases h

end Json

theorem TokenType.ofJson_toJson (tokenType : TokenType) :
    TokenType.ofJson tokenType.toJson = some tokenType := by
  cases tokenType <;> rfl

theorem AuthenticationState.ofJson_toJson_eq (state : AuthenticationState) :
    AuthenticationState.ofJson state.toJson
      = (Json.ofInt state.userId).i32?.map fun userId => ⟨userId⟩ := rfl

namespace Claims

theorem ofJson_toJson_eq (claims : Claims) : Claims.ofJson claims.toJson
    = (Json.ofNat claims.exp).usize?.bind fun exp =>
      (TokenType.ofJson claims.tokenType.toJson).bind fun tokenType =>
        (AuthenticationState.ofJson claims.state.toJson).map fun state =>
          ⟨exp, tokenType, state⟩ := rfl

theorem ofJson_toJson {claims : Claims} (hexp : claims.exp < 2 ^ 64)
    (hlow : -2 ^ 31 ≤ claims.state.userId) (hhigh : claims.state.userId < 2 ^ 31) :
    Claims.ofJson claims.toJson = some claims := by
  rw [ofJson_toJson_eq, Json.usize?_ofNat hexp, TokenType.ofJson_toJson,
    AuthenticationState.ofJson_toJson_eq, Json.i32?_ofInt hlow hhigh]
  rfl

theorem eq_of_ofJson_toJson {claims claims' : Claims}
    (h : Claims.ofJson claims.toJson = some claims') : claims' = claims := by
  rw [ofJson_toJson_eq, TokenType.ofJson_toJson, AuthenticationState.ofJson_toJson_eq] at h
  obtain ⟨exp, hexp, h⟩ := Option.bind_eq_some_iff.mp h
  obtain ⟨state, hstate, rfl⟩ := Option.map_eq_some_iff.mp h
  obtain ⟨userId, huser, rfl⟩ := Option.map_eq_some_iff.mp hstate
  rw [Json.eq_of_usize?_ofNat hexp, Json.eq_of_i32?_ofInt huser]

theorem ofJson_arbitrary (claims : ArbitraryTokenClaims) :
    Claims.ofJson claims.toJson = none := rfl

end Claims

namespace ArbitraryTokenClaims

theorem ofJson_toJson_eq (claims : ArbitraryTokenClaims) :
    ArbitraryTokenClaims.ofJson claims.toJson
      = (Json.ofNat claims.exp).usize?.map fun exp => ⟨exp, claims.data⟩ := by
  show ((Json.ofNat claims.exp).usize?.bind fun exp =>
    (some claims.data).map fun data => (⟨exp, data⟩ : ArbitraryTokenClaims)) = _
  cases (Json.ofNat claims.exp).usize? <;> rfl

theorem eq_of_ofJson_toJson {claims claims' : ArbitraryTokenClaims}
    (h : ArbitraryTokenClaims.ofJson claims.toJson = some claims') : claims' = claims := by
  rw [ofJson_toJson_eq] at h
  obtain ⟨exp, hexp, rfl⟩ := Option.map_eq_some_iff.mp h
  rw [Json.eq_of_usize?_ofNat hexp]

theorem ofJson_claims (claims : Claims) : ArbitraryTokenClaims.ofJson claims.toJson = none := rfl

end ArbitraryTokenClaims

/-! ## What an operation signs -/

variable {signer : TokenSigner} {s s' : TokenState}

/-- An operation signs a claim set and returns the token of it. -/
inductive Mints (signer : TokenSigner) (s s' : TokenState) : TokenOp → Json → Prop
  | refresh {now : Nat} {userId : Int32} {claims : Claims}
      (htype : claims.tokenType = .refresh) (hstate : claims.state = ⟨userId.toInt⟩)
      (hperform : s.perform (signer.createRefreshToken now ⟨userId.toInt⟩)
        = some (signer.encode claims.toJson, s')) :
      Mints signer s s' (.createRefreshToken now userId) claims.toJson
  | access {now : Nat} {token : String} {claims refresh : Claims}
      (htype : claims.tokenType = .access) (hstate : claims.state = refresh.state)
      (hdecode : signer.decodeToken now token = .ok refresh)
      (hrefresh : refresh.tokenType = .refresh)
      (hperform : s.perform (signer.accessTokenFromRefreshToken now token)
        = some (.ok (signer.encode claims.toJson), s')) :
      Mints signer s s' (.accessTokenFromRefreshToken now token) claims.toJson
  | arbitrary {now : Nat} {validityTime : Int} {claims : ArbitraryTokenClaims}
      (hperform : s.perform (signer.createArbitraryToken now claims.data validityTime)
        = some (signer.encode claims.toJson, s')) :
      Mints signer s s' (.createArbitraryToken now claims.data validityTime) claims.toJson
  | archive {now : Nat} {userId : Option Int} {kitSerial : String}
      {claims : ArbitraryTokenClaims} {r : Option User × Option KitMembership × Kit}
      (hgranted : (futKitPermissionOrForbidden userId kitSerial .view).run s.store
        = .ok (r, s.store))
      (hdata : claims.data = ⟨"kit-archive-download", r.2.2.serial⟩)
      (hperform : s.perform (archiveAuthorize signer now userId kitSerial s.store)
        = some (.ok (signer.encode claims.toJson), s')) :
      Mints signer s s' (.archiveAuthorize now userId kitSerial) claims.toJson

theorem run_createToken {now : Nat} {validityTime : Int} {tokenType : TokenType}
    {state : AuthenticationState} {signed : List Json} {r : String × List Json} :
    signer.createToken now validityTime tokenType state signed = some r
      ↔ (0 ≤ now + validityTime ∧ now + validityTime ≤ signer.lastInstant)
        ∧ r = (signer.encode (Claims.toJson ⟨(now + validityTime).toNat, tokenType, state⟩),
          signed ++ [Claims.toJson ⟨(now + validityTime).toNat, tokenType, state⟩]) := by
  simp only [TokenSigner.createToken, TokenSigner.expiry, TokenSigner.sign, bind, StateT.bind]
  split <;> rename_i hlast <;> simp [hlast, eq_comm]

theorem run_createArbitraryToken {now : Nat} {validityTime : Int} {data : DownloadToken}
    {signed : List Json} {r : String × List Json} :
    signer.createArbitraryToken now data validityTime signed = some r
      ↔ (0 ≤ now + validityTime ∧ now + validityTime ≤ signer.lastInstant)
        ∧ r = (signer.encode (ArbitraryTokenClaims.toJson ⟨(now + validityTime).toNat, data⟩),
          signed ++ [ArbitraryTokenClaims.toJson ⟨(now + validityTime).toNat, data⟩]) := by
  simp only [TokenSigner.createArbitraryToken, TokenSigner.expiry, TokenSigner.sign, bind,
    StateT.bind]
  split <;> rename_i hlast <;> simp [hlast, eq_comm]

/-- An exchange is refused, and signs nothing, or it signs an access token with the
state of the refresh token. -/
theorem run_accessTokenFromRefreshToken {now : Nat} {token : String} {signed : List Json}
    {r : Except TokenError String × List Json}
    (h : signer.accessTokenFromRefreshToken now token signed = some r) :
    (∃ e, r = (.error e, signed))
      ∨ ∃ refresh, signer.decodeToken now token = .ok refresh ∧ refresh.tokenType = .refresh
        ∧ now + 15 * 60 ≤ signer.lastInstant
        ∧ r = (.ok (signer.encode (Claims.toJson ⟨now + 15 * 60, .access, refresh.state⟩)),
          signed ++ [Claims.toJson ⟨now + 15 * 60, .access, refresh.state⟩]) := by
  unfold TokenSigner.accessTokenFromRefreshToken at h
  cases hdecode : signer.decodeToken now token with
  | error e =>
      rw [hdecode] at h
      exact Or.inl ⟨e, (Option.some.inj h).symm⟩
  | ok refresh =>
      simp only [hdecode] at h
      cases htype : refresh.tokenType with
      | refresh =>
          rw [htype] at h
          obtain ⟨q, hq, h⟩ := Option.bind_eq_some_iff.mp h
          obtain ⟨hlast, rfl⟩ := run_createToken.mp hq
          have hexp : ((now : Int) + 15 * 60).toNat = now + 15 * 60 := by omega
          rw [hexp] at h
          exact Or.inr ⟨refresh, rfl, htype, by omega, (Option.some.inj h).symm⟩
      | access =>
          rw [htype] at h
          exact Or.inl ⟨.other, (Option.some.inj h).symm⟩

/-- The signer at a time, as the handler that authenticates a user sees it. -/
def TokenSigner.crypto (signer : TokenSigner) (now : Nat)
    (pbkdf2 : String → List UInt8 → Nat → List UInt8)
    (base64Decode : String → Option (List UInt8)) : Crypto where
  pbkdf2 := pbkdf2
  base64Decode := base64Decode
  encode claims := signer.encode claims.toJson
  decode := signer.decodeToken now

section Crypto

variable {pbkdf2 : String → List UInt8 → Nat → List UInt8}
  {base64Decode : String → Option (List UInt8)} {now : Nat} {signed : List Json}

theorem crypto_createToken {validityTime : Nat} {tokenType : TokenType}
    {state : AuthenticationState} (hlast : now + validityTime ≤ signer.lastInstant) :
    ∃ signed', signer.createToken now validityTime tokenType state signed
      = some ((signer.crypto now pbkdf2 base64Decode).createToken now validityTime tokenType state,
        signed') := by
  have hexp : ((now : Int) + validityTime).toNat = now + validityTime := by omega
  obtain ⟨r, hr⟩ : ∃ r, signer.createToken now validityTime tokenType state signed = some r :=
    ⟨_, run_createToken.mpr ⟨by omega, rfl⟩⟩
  obtain ⟨-, rfl⟩ := run_createToken.mp hr
  rw [hr, hexp]
  exact ⟨_, rfl⟩

/-- While the clock does not run out, an exchange answers the handler with the
token that is signed. -/
theorem crypto_accessTokenFromRefreshToken {token : String}
    (hlast : now + 15 * 60 ≤ signer.lastInstant) :
    ∃ signed', signer.accessTokenFromRefreshToken now token signed
      = some ((signer.crypto now pbkdf2 base64Decode).accessTokenFromRefreshToken now token,
        signed') := by
  simp only [TokenSigner.accessTokenFromRefreshToken, Crypto.accessTokenFromRefreshToken,
    TokenSigner.crypto]
  cases signer.decodeToken now token with
  | error e => exact ⟨signed, rfl⟩
  | ok claims =>
      obtain ⟨exp, tokenType, state⟩ := claims
      cases tokenType with
      | access => exact ⟨signed, rfl⟩
      | refresh =>
          obtain ⟨signed', hcreate⟩ := @crypto_createToken signer pbkdf2 base64Decode now signed
            (15 * 60) .access state hlast
          exact ⟨signed', Option.bind_eq_some_iff.mpr ⟨_, hcreate, rfl⟩⟩

end Crypto

theorem run_archiveAuthorize {now : Nat} {userId : Option Int} {kitSerial : String}
    {store : Store} {signed : List Json} {r : Except Problem String × List Json}
    (h : archiveAuthorize signer now userId kitSerial store signed = some r) :
    (∃ problem, r = (.error problem, signed))
      ∨ ∃ granted, (futKitPermissionOrForbidden userId kitSerial .view).run store
          = .ok (granted, store)
        ∧ r = (.ok (signer.encode (ArbitraryTokenClaims.toJson
              ⟨now + 30, ⟨"kit-archive-download", granted.2.2.serial⟩⟩)),
            signed ++ [ArbitraryTokenClaims.toJson
              ⟨now + 30, ⟨"kit-archive-download", granted.2.2.serial⟩⟩]) := by
  unfold archiveAuthorize at h
  cases hgranted : (futKitPermissionOrForbidden userId kitSerial .view).run store with
  | error problem =>
      rw [hgranted] at h
      exact Or.inl ⟨problem, (Option.some.inj h).symm⟩
  | ok q =>
      obtain ⟨granted, store'⟩ := q
      obtain ⟨rfl, -⟩ := futKitPermissionOrForbidden_ok hgranted
      rw [hgranted] at h
      obtain ⟨q, hq, h⟩ := Option.bind_eq_some_iff.mp h
      obtain ⟨-, rfl⟩ := run_createArbitraryToken.mp hq
      have hexp : ((now : Int) + 30).toNat = now + 30 := by omega
      rw [hexp] at h
      exact Or.inr ⟨granted, rfl, (Option.some.inj h).symm⟩

/-- **What a step signs.** -/
theorem step_signed {op : TokenOp} (h : TokenState.step signer s op = some s') :
    s'.signed = s.signed ∨ ∃ claims, s'.signed = s.signed ++ [claims]
      ∧ Mints signer s s' op claims := by
  cases op with
  | createRefreshToken now userId =>
      obtain ⟨⟨token, s₁⟩, hperform, rfl⟩ := Option.map_eq_some_iff.mp h
      have hrun := hperform
      obtain ⟨r, hr, heq⟩ := Option.map_eq_some_iff.mp hrun
      obtain ⟨-, rfl⟩ := run_createToken.mp hr
      obtain ⟨rfl, rfl⟩ := Prod.mk.inj heq
      exact Or.inr ⟨_, rfl, .refresh rfl rfl hperform⟩
  | accessTokenFromRefreshToken now token =>
      obtain ⟨⟨result, s₁⟩, hperform, rfl⟩ := Option.map_eq_some_iff.mp h
      have hrun := hperform
      obtain ⟨r, hr, heq⟩ := Option.map_eq_some_iff.mp hrun
      rcases run_accessTokenFromRefreshToken hr with ⟨e, rfl⟩ | ⟨refresh, hdecode, htype, -, rfl⟩
      · obtain ⟨-, rfl⟩ := Prod.mk.inj heq
        exact Or.inl rfl
      · obtain ⟨rfl, rfl⟩ := Prod.mk.inj heq
        exact Or.inr ⟨_, rfl, @Mints.access signer _ _ now token
          ⟨now + 15 * 60, .access, refresh.state⟩ refresh rfl rfl hdecode htype hperform⟩
  | createArbitraryToken now data validityTime =>
      obtain ⟨⟨token, s₁⟩, hperform, rfl⟩ := Option.map_eq_some_iff.mp h
      have hrun := hperform
      obtain ⟨r, hr, heq⟩ := Option.map_eq_some_iff.mp hrun
      obtain ⟨-, rfl⟩ := run_createArbitraryToken.mp hr
      obtain ⟨rfl, rfl⟩ := Prod.mk.inj heq
      exact Or.inr ⟨_, rfl,
        @Mints.arbitrary signer _ _ now validityTime
          ⟨(now + validityTime).toNat, data⟩ hperform⟩
  | archiveAuthorize now userId kitSerial =>
      obtain ⟨⟨result, s₁⟩, hperform, rfl⟩ := Option.map_eq_some_iff.mp h
      have hrun := hperform
      obtain ⟨r, hr, heq⟩ := Option.map_eq_some_iff.mp hrun
      rcases run_archiveAuthorize hr with ⟨problem, rfl⟩ | ⟨granted, hgranted, rfl⟩
      · obtain ⟨-, rfl⟩ := Prod.mk.inj heq
        exact Or.inl rfl
      · obtain ⟨rfl, rfl⟩ := Prod.mk.inj heq
        exact Or.inr ⟨_, rfl, .archive hgranted rfl hperform⟩
  | database store =>
      obtain rfl := Option.some.inj h
      exact Or.inl rfl

/-! ## Histories -/

abbrev TokenEvent := Run.Event TokenState TokenOp

/-- Everything signed was signed by one of the operations. -/
def Signed (signer : TokenSigner) (past : List TokenEvent) (s : TokenState) : Prop :=
  ∀ claims ∈ s.signed, ∃ p e q, past = p ++ e :: q ∧ Mints signer e.before e.after e.label claims

theorem signed_exec {store : Store} {ops : List TokenOp}
    (hrun : Run.exec (TokenState.step signer) ⟨store, []⟩ ops = some s) :
    Signed signer (Run.history (TokenState.step signer) ⟨store, []⟩ ops) s := by
  refine Run.exec_history ?_ (fun claims hclaims => by cases hclaims) hrun
  intro past s op s' hpast hstep claims hclaims
  have hold : claims ∈ s.signed → ∃ p e q, past ++ [⟨s, op, s'⟩] = p ++ e :: q
      ∧ Mints signer e.before e.after e.label claims := by
    intro hmem
    obtain ⟨p, e, q, rfl, hmints⟩ := hpast claims hmem
    exact ⟨p, e, q ++ [⟨s, op, s'⟩], by simp, hmints⟩
  rcases step_signed hstep with hsame | ⟨claims', happend, hmints⟩
  · rw [hsame] at hclaims
    exact hold hclaims
  · rw [happend] at hclaims
    rcases List.mem_append.mp hclaims with hmem | hmem
    · exact hold hmem
    · rw [List.mem_singleton.mp hmem]
      exact ⟨past, ⟨s, op, s'⟩, [], rfl, hmints⟩

theorem signed_grows {store : Store} {ops : List TokenOp}
    (hrun : Run.exec (TokenState.step signer) ⟨store, []⟩ ops = some s) :
    ∀ e ∈ Run.history (TokenState.step signer) ⟨store, []⟩ ops,
      ∀ claims ∈ e.after.signed, claims ∈ s.signed := by
  refine @Run.exec_history _ _ _
    (fun past s => ∀ e ∈ past, ∀ claims ∈ e.after.signed, claims ∈ s.signed) ?_ _ _ _
    (fun e he => by cases he) hrun
  intro past s op s' hpast hstep e he claims hclaims
  rcases List.mem_append.mp he with he | he
  · have hmem := hpast e he claims hclaims
    rcases step_signed hstep with hsame | ⟨claims', happend, -⟩
    · rwa [hsame]
    · rw [happend]
      exact List.mem_append_left _ hmem
  · obtain rfl := List.mem_singleton.mp he
    exact hclaims

/-! ## What tokens lead back to -/

/-- The event creates this refresh token for the user. -/
def CreatesRefresh (signer : TokenSigner) (e : TokenEvent) (now : Nat) (userId : Int)
    (token : String) : Prop :=
  ∃ id : Int32, e.label = .createRefreshToken now id ∧ id.toInt = userId
    ∧ e.before.perform (signer.createRefreshToken now ⟨userId⟩) = some (token, e.after)

/-- The event makes the access token from the refresh token. -/
def Exchanges (signer : TokenSigner) (e : TokenEvent) (now : Nat) (refreshToken token : String) :
    Prop :=
  e.label = .accessTokenFromRefreshToken now refreshToken
    ∧ e.before.perform (signer.accessTokenFromRefreshToken now refreshToken)
      = some (.ok token, e.after)

/-- The event creates an arbitrary token with the data. -/
def CreatesArbitrary (signer : TokenSigner) (e : TokenEvent) (data : DownloadToken)
    (token : String) : Prop :=
  ∃ now validityTime, e.label = .createArbitraryToken now data validityTime
    ∧ e.before.perform (signer.createArbitraryToken now data validityTime)
      = some (token, e.after)

/-- The event grants somebody to view the kit, and answers with the token. -/
def Authorizes (signer : TokenSigner) (e : TokenEvent) (kitSerial token : String) : Prop :=
  ∃ now userId path granted, e.label = .archiveAuthorize now userId path
    ∧ (futKitPermissionOrForbidden userId path .view).run e.before.store
      = .ok (granted, e.before.store)
    ∧ granted.2.2.serial = kitSerial
    ∧ e.before.perform (archiveAuthorize signer now userId path e.before.store)
      = some (.ok token, e.after)

/-- What holds of every token that is presented after a run. -/
structure KindsKept (signer : TokenSigner) (past : List TokenEvent) (s : TokenState) : Prop where
  access : ∀ now token userId, s.Genuine signer token →
    signer.decodeAccessToken now token = .ok ⟨userId⟩ →
    ∃ p e q now₁ refreshToken, past = p ++ e :: q ∧ Exchanges signer e now₁ refreshToken token
      ∧ ∃ e₀ ∈ p, ∃ now₀, CreatesRefresh signer e₀ now₀ userId refreshToken
  refresh : ∀ now token accessToken s', s.Genuine signer token →
    s.perform (signer.accessTokenFromRefreshToken now token) = some (.ok accessToken, s') →
    ∃ e ∈ past, ∃ now₀ userId, CreatesRefresh signer e now₀ userId token
  arbitrary : ∀ now token data, s.Genuine signer token →
    signer.decodeArbitraryToken now token = .ok data →
    ∃ e ∈ past, CreatesArbitrary signer e data token
      ∨ Authorizes signer e data.kitSerial token ∧ data.action = "kit-archive-download"
  archive : (∀ e ∈ past, ∀ data token, ¬CreatesArbitrary signer e data token) →
    ∀ now kitSerial token kit, s.Genuine signer token →
      archive signer now kitSerial token s.store = .ok kit →
      kit.serial = kitSerial ∧ ∃ e ∈ past, Authorizes signer e kitSerial token
  fresh : ∀ e ∈ past, ∀ now₀ userId token, CreatesRefresh signer e now₀ userId token →
    s.Genuine signer token → ∀ now, now ≤ now₀ + 365 * 24 * 60 * 60 →
      now + 15 * 60 ≤ signer.lastInstant →
      ∃ accessToken s',
        s.perform (signer.accessTokenFromRefreshToken now token) = some (.ok accessToken, s')
  roundTrip : ∀ p e q, past = p ++ e :: q → ∀ now₁ refreshToken token,
    Exchanges signer e now₁ refreshToken token →
    ∀ e₀ ∈ p, ∀ now₀ userId, CreatesRefresh signer e₀ now₀ userId refreshToken →
      s.Genuine signer token → ∀ now, now ≤ now₁ + 15 * 60 →
        signer.decodeAccessToken now token = .ok ⟨userId⟩

/-- The token that an operation is given. -/
def TokenOp.presented : TokenOp → Option String
  | .accessTokenFromRefreshToken _ token => some token
  | _ => none

/-- A token that is accepted is one of the claim sets that have been signed. -/
theorem TokenState.Genuine.decode_ok {token : String} (hgenuine : s.Genuine signer token) {α : Type}
    {ofJson : Json → Option α} {exp : α → Nat} {now : Nat} {a : α}
    (h : signer.decode ofJson exp now token = .ok a) :
    ∃ claims ∈ s.signed, signer.encode claims = token ∧ ofJson claims = some a := by
  unfold TokenSigner.decode at h
  split at h
  · cases h
  · rename_i claims hclaims
    split at h
    · obtain rfl := Except.ok.inj h
      obtain ⟨json, hverify, hjson⟩ := Option.bind_eq_some_iff.mp hclaims
      obtain ⟨hmem, hencode⟩ := (hgenuine json).mp hverify
      exact ⟨json, hmem, hencode, hjson⟩
    · cases h

/-- A claim set that has been signed is accepted until it expires. -/
theorem TokenState.Genuine.decode_signed {token : String} (hgenuine : s.Genuine signer token)
    {α : Type} {ofJson : Json → Option α} {exp : α → Nat} {now : Nat} {json : Json} {a : α}
    (hmem : json ∈ s.signed) (hencode : signer.encode json = token) (hjson : ofJson json = some a)
    (hexp : now ≤ exp a) : signer.decode ofJson exp now token = .ok a := by
  have hverify : signer.verify token = some json := (hgenuine json).mpr ⟨hmem, hencode⟩
  have hleeway : now ≤ exp a + signer.leeway := Nat.le_trans hexp (Nat.le_add_right _ _)
  simp only [TokenSigner.decode, hverify, Option.bind_some, hjson, hleeway, if_true]

/-! ## Every token leads back to its operation -/

variable {past : List TokenEvent} {now : Nat} {token : String}

theorem created_of_decoded {claims : Claims} (hsigned : Signed signer past s)
    (hgenuine : s.Genuine signer token) (hdecode : signer.decodeToken now token = .ok claims)
    (htype : claims.tokenType = .refresh) :
    ∃ e ∈ past, ∃ now₀, CreatesRefresh signer e now₀ claims.state.userId token := by
  obtain ⟨json, hmem, rfl, hjson⟩ := hgenuine.decode_ok hdecode
  obtain ⟨p, e, q, rfl, hmints⟩ := hsigned json hmem
  have he : e ∈ p ++ e :: q := List.mem_append_right p List.mem_cons_self
  obtain ⟨before, op, after⟩ := e
  cases hmints with
  | refresh _ hstate hperform =>
      obtain rfl := Claims.eq_of_ofJson_toJson hjson
      rw [hstate]
      exact ⟨_, he, _, _, rfl, rfl, hperform⟩
  | access htype' =>
      obtain rfl := Claims.eq_of_ofJson_toJson hjson
      rw [htype'] at htype
      cases htype
  | arbitrary =>
      rw [Claims.ofJson_arbitrary] at hjson
      cases hjson
  | archive =>
      rw [Claims.ofJson_arbitrary] at hjson
      cases hjson

theorem exchanged_of_decoded {claims : Claims} (hsigned : Signed signer past s)
    (hgenuine : s.Genuine signer token) (hdecode : signer.decodeToken now token = .ok claims)
    (htype : claims.tokenType = .access) :
    ∃ p e q now₁ refreshToken refresh, past = p ++ e :: q
      ∧ Exchanges signer e now₁ refreshToken token
      ∧ signer.decodeToken now₁ refreshToken = .ok refresh ∧ refresh.tokenType = .refresh
      ∧ claims.state = refresh.state := by
  obtain ⟨json, hmem, rfl, hjson⟩ := hgenuine.decode_ok hdecode
  obtain ⟨p, e, q, rfl, hmints⟩ := hsigned json hmem
  obtain ⟨before, op, after⟩ := e
  cases hmints with
  | refresh htype' =>
      obtain rfl := Claims.eq_of_ofJson_toJson hjson
      rw [htype'] at htype
      cases htype
  | access _ hstate hrefresh htype' hperform =>
      obtain rfl := Claims.eq_of_ofJson_toJson hjson
      exact ⟨p, _, q, _, _, _, rfl, ⟨rfl, hperform⟩, hrefresh, htype', hstate⟩
  | arbitrary =>
      rw [Claims.ofJson_arbitrary] at hjson
      cases hjson
  | archive =>
      rw [Claims.ofJson_arbitrary] at hjson
      cases hjson

theorem arbitrary_of_decoded {data : DownloadToken} (hsigned : Signed signer past s)
    (hgenuine : s.Genuine signer token)
    (hdecode : signer.decodeArbitraryToken now token = .ok data) :
    ∃ e ∈ past, CreatesArbitrary signer e data token
      ∨ Authorizes signer e data.kitSerial token ∧ data.action = "kit-archive-download" := by
  obtain ⟨wrapped, hwrapped, hdata⟩ := bind_ok.mp hdecode
  obtain rfl := Except.ok.inj hdata
  obtain ⟨json, hmem, rfl, hjson⟩ := hgenuine.decode_ok hwrapped
  obtain ⟨p, e, q, rfl, hmints⟩ := hsigned json hmem
  have he : e ∈ p ++ e :: q := List.mem_append_right p List.mem_cons_self
  obtain ⟨before, op, after⟩ := e
  cases hmints with
  | refresh =>
      rw [ArbitraryTokenClaims.ofJson_claims] at hjson
      cases hjson
  | access =>
      rw [ArbitraryTokenClaims.ofJson_claims] at hjson
      cases hjson
  | arbitrary hperform =>
      obtain rfl := ArbitraryTokenClaims.eq_of_ofJson_toJson hjson
      exact ⟨_, he, Or.inl ⟨_, _, rfl, hperform⟩⟩
  | archive hgranted hdata hperform =>
      obtain rfl := ArbitraryTokenClaims.eq_of_ofJson_toJson hjson
      rw [hdata]
      exact ⟨_, he, Or.inr ⟨⟨_, _, _, _, rfl, hgranted, rfl, hperform⟩, rfl⟩⟩

/-- An access token is decoded to the state of its claims. -/
theorem decodeAccessToken_ok {state : AuthenticationState}
    (h : signer.decodeAccessToken now token = .ok state) :
    ∃ claims, signer.decodeToken now token = .ok claims ∧ claims.tokenType = .access
      ∧ claims.state = state := by
  obtain ⟨claims, hdecode, h⟩ := bind_ok.mp h
  cases htype : claims.tokenType with
  | refresh =>
      rw [htype] at h
      cases h
  | access =>
      rw [htype] at h
      exact ⟨claims, hdecode, htype, Except.ok.inj h⟩

/-- The archive is sent for a download token of the kit asked for. -/
theorem archive_ok {kitSerial : String} {kit : Kit} {store : Store}
    (h : archive signer now kitSerial token store = .ok kit) :
    signer.decodeArbitraryToken now token = .ok ⟨"kit-archive-download", kitSerial⟩
      ∧ kit.serial = kitSerial := by
  obtain ⟨data, hdata, hrest⟩ := bind_ok.mp h
  obtain ⟨action, kitSerial'⟩ := data
  have hdecode : signer.decodeArbitraryToken now token = .ok ⟨action, kitSerial'⟩ := by
    cases hdecode : signer.decodeArbitraryToken now token with
    | error e =>
        rw [hdecode] at hdata
        cases hdata
    | ok data =>
        rw [hdecode] at hdata
        exact congrArg Except.ok (Except.ok.inj hdata)
  split at hrest
  · cases hrest
  · rename_i hmatch
    obtain ⟨haction, hserial⟩ := not_or.mp hmatch
    obtain rfl : action = "kit-archive-download" := not_not.mp haction
    obtain rfl : kitSerial' = kitSerial := not_not.mp hserial
    cases hkit : Kit.bySerial kitSerial' store with
    | none =>
        rw [hkit] at hrest
        cases hrest
    | some kit' =>
        rw [hkit] at hrest
        obtain rfl := Except.ok.inj hrest
        have hfound := List.find?_some hkit
        exact ⟨hdecode, of_decide_eq_true hfound⟩

/-! ## Every token leads on to its user -/

variable {e : TokenEvent} {userId : Int}

/-- A refresh token that has been created signs claims that are read back. -/
theorem CreatesRefresh.signed (h : CreatesRefresh signer e now userId token) :
    ∃ claims : Claims, claims.toJson ∈ e.after.signed ∧ signer.encode claims.toJson = token
      ∧ Claims.ofJson claims.toJson = some claims ∧ claims.tokenType = .refresh
      ∧ claims.state = ⟨userId⟩ ∧ claims.exp = now + 365 * 24 * 60 * 60 := by
  obtain ⟨id, -, rfl, hperform⟩ := h
  obtain ⟨r, hr, heq⟩ := Option.map_eq_some_iff.mp hperform
  obtain ⟨⟨-, hlast⟩, rfl⟩ := run_createToken.mp hr
  obtain ⟨rfl, hafter⟩ := Prod.mk.inj heq
  have hexp : ((now : Int) + 365 * 24 * 60 * 60).toNat = now + 365 * 24 * 60 * 60 := by omega
  have hbound := signer.lastInstant_lt
  refine ⟨⟨_, .refresh, ⟨id.toInt⟩⟩, ?_, rfl, ?_, rfl, rfl, hexp⟩
  · rw [← hafter]
    exact List.mem_append_right _ (List.mem_singleton_self _)
  · refine Claims.ofJson_toJson ?_ id.le_toInt id.toInt_lt
    show ((now : Int) + 365 * 24 * 60 * 60).toNat < 2 ^ 64
    omega

/-- An access token signs the state of the refresh token. -/
theorem Exchanges.signed {refreshToken : String} (h : Exchanges signer e now refreshToken token) :
    ∃ refresh, signer.decodeToken now refreshToken = .ok refresh
      ∧ now + 15 * 60 < 2 ^ 64
      ∧ Claims.toJson ⟨now + 15 * 60, .access, refresh.state⟩ ∈ e.after.signed
      ∧ signer.encode (Claims.toJson ⟨now + 15 * 60, .access, refresh.state⟩) = token := by
  obtain ⟨-, hperform⟩ := h
  obtain ⟨r, hr, heq⟩ := Option.map_eq_some_iff.mp hperform
  rcases run_accessTokenFromRefreshToken hr with ⟨error, rfl⟩ | ⟨refresh, hdecode, -, hlast, rfl⟩
  · cases heq
  · obtain ⟨hanswer, hafter⟩ := Prod.mk.inj heq
    have hbound := signer.lastInstant_lt
    refine ⟨refresh, hdecode, by omega, ?_, Except.ok.inj hanswer⟩
    rw [← hafter]
    exact List.mem_append_right _ (List.mem_singleton_self _)

/-- A refresh token that has been created is decoded to its user only. -/
theorem decoded_of_created {claims : Claims} {now₀ : Nat}
    (hcreated : CreatesRefresh signer e now₀ userId token)
    (hgrows : ∀ claims ∈ e.after.signed, claims ∈ s.signed) (hgenuine : s.Genuine signer token)
    (hdecode : signer.decodeToken now token = .ok claims) :
    claims.state = ⟨userId⟩ := by
  obtain ⟨created, hmem, hencode, hread, -, hstate, -⟩ := hcreated.signed
  obtain ⟨json, hjson, hencode', hclaims⟩ := hgenuine.decode_ok hdecode
  have hverify := (hgenuine json).mpr ⟨hjson, hencode'⟩
  have hverify' := (hgenuine created.toJson).mpr ⟨hgrows _ hmem, hencode⟩
  obtain rfl : json = created.toJson := Option.some.inj (hverify.symm.trans hverify')
  obtain rfl : claims = created := Option.some.inj (hclaims.symm.trans hread)
  exact hstate

/-- A refresh token that is decoded is exchanged, unless the clock runs out. -/
theorem exchange_succeeds {claims : Claims} (hdecode : signer.decodeToken now token = .ok claims)
    (htype : claims.tokenType = .refresh) (hlast : now + 15 * 60 ≤ signer.lastInstant) :
    ∃ accessToken s',
      s.perform (signer.accessTokenFromRefreshToken now token) = some (.ok accessToken, s') := by
  obtain ⟨r, hr⟩ : ∃ r, signer.createToken now (15 * 60) .access claims.state s.signed = some r :=
    ⟨_, run_createToken.mpr ⟨by omega, rfl⟩⟩
  have hrun : signer.accessTokenFromRefreshToken now token s.signed = some (.ok r.1, r.2) := by
    simp only [TokenSigner.accessTokenFromRefreshToken, hdecode, htype]
    exact Option.bind_eq_some_iff.mpr ⟨r, hr, rfl⟩
  exact ⟨r.1, { s with signed := r.2 }, by rw [TokenState.perform, hrun]; rfl⟩

/-- What has happened when an exchange takes place is a run of its own, and the
token that is exchanged is checked like any other. -/
theorem before_exchange {store : Store} {ops : List TokenOp}
    (hgenuine : Run.Guarded (TokenState.step signer)
      (fun s op => ∀ token ∈ op.presented, s.Genuine signer token) ⟨store, []⟩ ops)
    {p q : List TokenEvent} {refreshToken : String}
    (hsplit : Run.history (TokenState.step signer) ⟨store, []⟩ ops = p ++ e :: q)
    (hex : Exchanges signer e now refreshToken token) :
    e.before.Genuine signer refreshToken ∧ Signed signer p e.before
      ∧ ∀ e₀ ∈ p, ∀ claims ∈ e₀.after.signed, claims ∈ e.before.signed := by
  obtain ⟨ls₁, ls₂, rfl, hrun₁, rfl, hstep⟩ := Run.history_split hsplit
  have hguard := (Run.guarded_cons hstep).mp ((Run.guarded_append hrun₁).mp hgenuine).2
  have hpresented : refreshToken ∈ e.label.presented := by
    rw [hex.1]
    rfl
  exact ⟨hguard.1 refreshToken hpresented, signed_exec hrun₁, signed_grows hrun₁⟩

/-- **Token kinds never cross and identities are kept.** The hypothesis is that of
the signature: verification accepts what has been signed and nothing else, at
every exchange of the run and for every token presented after it. -/
theorem token_kinds_kept {store : Store} {ops : List TokenOp}
    (hrun : Run.exec (TokenState.step signer) ⟨store, []⟩ ops = some s)
    (hgenuine : Run.Guarded (TokenState.step signer)
      (fun s op => ∀ token ∈ op.presented, s.Genuine signer token) ⟨store, []⟩ ops) :
    KindsKept signer (Run.history (TokenState.step signer) ⟨store, []⟩ ops) s := by
  have hsigned := signed_exec hrun
  have hgrows := signed_grows hrun
  constructor
  case access =>
    intro now token userId htoken hdecode
    obtain ⟨claims, hclaims, htype, hstate⟩ := decodeAccessToken_ok hdecode
    obtain ⟨p, e, q, now₁, refreshToken, refresh, hsplit, hex, hrefresh, hkind, hsame⟩ :=
      exchanged_of_decoded hsigned htoken hclaims htype
    obtain ⟨hbefore, hpast, -⟩ := before_exchange hgenuine hsplit hex
    obtain ⟨e₀, he₀, now₀, hcreated⟩ := created_of_decoded hpast hbefore hrefresh hkind
    rw [← hsame, hstate] at hcreated
    exact ⟨p, e, q, now₁, refreshToken, hsplit, hex, e₀, he₀, now₀, hcreated⟩
  case refresh =>
    intro now token accessToken s' htoken hperform
    obtain ⟨r, hr, heq⟩ := Option.map_eq_some_iff.mp hperform
    rcases run_accessTokenFromRefreshToken hr with ⟨error, rfl⟩ | ⟨claims, hdecode, htype, -, -⟩
    · cases heq
    · obtain ⟨e, he, now₀, hcreated⟩ := created_of_decoded hsigned htoken hdecode htype
      exact ⟨e, he, now₀, _, hcreated⟩
  case arbitrary =>
    intro now token data htoken hdecode
    exact arbitrary_of_decoded hsigned htoken hdecode
  case archive =>
    intro honly now kitSerial token kit htoken hserved
    obtain ⟨hdecode, hserial⟩ := archive_ok hserved
    obtain ⟨e, he, hmade⟩ := arbitrary_of_decoded hsigned htoken hdecode
    rcases hmade with hcreated | ⟨hauthorized, -⟩
    · exact absurd hcreated (honly e he _ _)
    · exact ⟨hserial, e, he, hauthorized⟩
  case fresh =>
    intro e he now₀ userId token hcreated htoken now hnow hlast
    obtain ⟨claims, hmem, hencode, hread, htype, -, hexp⟩ := hcreated.signed
    have hdecode : signer.decodeToken now token = .ok claims :=
      htoken.decode_signed (hgrows e he _ hmem) hencode hread (hexp ▸ hnow)
    exact exchange_succeeds hdecode htype hlast
  case roundTrip =>
    intro p e q hsplit now₁ refreshToken token hex e₀ he₀ now₀ userId hcreated htoken now hnow
    obtain ⟨hbefore, -, hgrows₁⟩ := before_exchange hgenuine hsplit hex
    obtain ⟨refresh, hrefresh, hbound, hmem, hencode⟩ := hex.signed
    have hstate := decoded_of_created hcreated (hgrows₁ e₀ he₀) hbefore hrefresh
    rw [hstate] at hmem hencode
    have he : e ∈ Run.history (TokenState.step signer) ⟨store, []⟩ ops := by
      rw [hsplit]
      exact List.mem_append_right p List.mem_cons_self
    obtain ⟨id, -, rfl, -⟩ := hcreated
    have hdecode : signer.decodeToken now token = .ok ⟨now₁ + 15 * 60, .access, ⟨id.toInt⟩⟩ :=
      htoken.decode_signed (hgrows e he _ hmem) hencode
        (Claims.ofJson_toJson hbound id.le_toInt id.toInt_lt) hnow
    exact bind_ok.mpr ⟨_, hdecode, rfl⟩

/-! A user is given an access token, and somebody downloads the archive of a kit
with a public dashboard. -/

def ferns : Store :=
  NewKit.insert ⟨"k-fern", "", none, none, none, none, true, true⟩ 0 .empty

def refreshClaims : Json := Claims.toJson ⟨31536000, .refresh, ⟨7⟩⟩

def accessClaims : Json := Claims.toJson ⟨960, .access, ⟨7⟩⟩

def downloadClaims : Json :=
  ArbitraryTokenClaims.toJson ⟨100, ⟨"kit-archive-download", "k-fern"⟩⟩

def fernSigner : TokenSigner where
  encode claims :=
    match Claims.ofJson claims, ArbitraryTokenClaims.ofJson claims with
    | some ⟨_, .refresh, _⟩, _ => "refresh.signed"
    | some ⟨_, .access, _⟩, _ => "access.signed"
    | none, some _ => "download.signed"
    | none, none => "unknown.signed"
  verify token :=
    if token = "refresh.signed" then some refreshClaims
    else if token = "access.signed" then some accessClaims
    else if token = "download.signed" then some downloadClaims
    else none
  leeway := 60
  lastInstant := 8210266876799
  lastInstant_lt := by decide

def fernOps : List TokenOp :=
  [.createRefreshToken 0 7, .accessTokenFromRefreshToken 60 "refresh.signed",
    .archiveAuthorize 70 none "k-fern"]

theorem token_kinds_kept_ferns :
    KindsKept fernSigner (Run.history (TokenState.step fernSigner) ⟨ferns, []⟩ fernOps)
      ⟨ferns, [refreshClaims, accessClaims, downloadClaims]⟩
      ∧ fernSigner.decodeAccessToken 960 "access.signed" = .ok ⟨7⟩
      ∧ (archive fernSigner 90 "k-fern" "download.signed" ferns).map (·.serial)
        = .ok "k-fern" := by
  have hrefresh : TokenState.step fernSigner ⟨ferns, []⟩ (.createRefreshToken 0 7)
      = some ⟨ferns, [refreshClaims]⟩ := rfl
  have haccess : TokenState.step fernSigner ⟨ferns, [refreshClaims]⟩
      (.accessTokenFromRefreshToken 60 "refresh.signed")
      = some ⟨ferns, [refreshClaims, accessClaims]⟩ := rfl
  have hdownload : TokenState.step fernSigner ⟨ferns, [refreshClaims, accessClaims]⟩
      (.archiveAuthorize 70 none "k-fern")
      = some ⟨ferns, [refreshClaims, accessClaims, downloadClaims]⟩ := rfl
  have hgenuine : TokenState.Genuine fernSigner ⟨ferns, [refreshClaims]⟩ "refresh.signed" := by
    intro claims
    constructor
    · intro hverify
      obtain rfl : refreshClaims = claims := Option.some.inj hverify
      exact ⟨List.mem_singleton_self _, rfl⟩
    · rintro ⟨hmem, -⟩
      rw [List.mem_singleton.mp hmem]
      rfl
  refine ⟨token_kinds_kept (Run.exec_cons.mpr ⟨_, hrefresh, Run.exec_cons.mpr ⟨_, haccess,
    Run.exec_cons.mpr ⟨_, hdownload, rfl⟩⟩⟩) ?_, rfl, rfl⟩
  refine (Run.guarded_cons hrefresh).mpr ⟨?_, (Run.guarded_cons haccess).mpr ⟨?_,
    (Run.guarded_cons hdownload).mpr ⟨?_, trivial⟩⟩⟩
  · intro token htoken
    cases htoken
  · intro token htoken
    obtain rfl := Option.some.inj htoken
    exact hgenuine
  · intro token htoken
    cases htoken

end AstroPlant
