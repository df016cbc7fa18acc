import AstroPlant.Users

/-!
# Authentication by credentials

A user who gives a username and the right password is issued a refresh token and
an access token. Key derivation, Base64 and the signing of tokens are those of
libraries.

A stored hash names its version and its salt and is checked with these; a hash
that cannot be taken apart refuses every password. Whether the user does not
exist or the password is wrong, the answer is the same (`invalidCredentials`).
Behind an answer with tokens is always a row whose hash has accepted the password
(`authenticateByCredentials_ok`).
-/

namespace AstroPlant

/-! ## Tokens -/

inductive TokenType where
  | refresh
  | access
deriving DecidableEq

structure AuthenticationState where
  userId : Int
deriving DecidableEq

/-- `exp` is in seconds. -/
structure Claims where
  exp : Nat
  tokenType : TokenType
  state : AuthenticationState
deriving DecidableEq

inductive TokenError where
  | expired
  | other
deriving DecidableEq

/-- The libraries, with the key of the token signer. -/
structure Crypto where
  pbkdf2 : String → List UInt8 → Nat → List UInt8
  base64Decode : String → Option (List UInt8)
  encode : Claims → String
  decode : String → Except TokenError Claims

namespace Crypto

variable (crypto : Crypto)

def createToken (now validityTime : Nat) (tokenType : TokenType) (state : AuthenticationState) :
    String :=
  crypto.encode ⟨now + validityTime, tokenType, state⟩

/-- Valid for 365 days. -/
def createRefreshToken (now : Nat) (state : AuthenticationState) : String :=
  crypto.createToken now (365 * 24 * 60 * 60) .refresh state

/-- Valid for 15 minutes. -/
def accessTokenFromRefreshToken (now : Nat) (token : String) : Except TokenError String := do
  let claims ← crypto.decode token
  match claims.tokenType with
  | .refresh => .ok (crypto.createToken now (15 * 60) .access claims.state)
  | .access => .error .other

/-! ## Passwords -/

/-- `1$salt$hash`, the salt and the hash in Base64. -/
structure V1Hash where
  salt : List UInt8
  hash : List UInt8
  salt_length : salt.length = 16
  hash_length : hash.length = 32

def PBKDF2_ITERATIONS : Nat := 15000

def V1Hash.fromStr (s : String) : Option V1Hash :=
  match (s.toList.splitOn '$').map String.ofList with
  | [version, salt, hash] =>
      if version ≠ "1" then none
      else
        match crypto.base64Decode salt, crypto.base64Decode hash with
        | some salt, some hash =>
            if h : salt.length = 16 ∧ hash.length = 32 then some ⟨salt, hash, h.1, h.2⟩ else none
        | _, _ => none
  | _ => none

def V1Hash.check (v : V1Hash) (password : String) : Bool :=
  crypto.pbkdf2 password v.salt PBKDF2_ITERATIONS = v.hash

inductive HashVersion where
  | v1

/-- What comes before the first dollar sign. -/
def HashVersion.fromHash (hash : String) : Option HashVersion :=
  if String.ofList (hash.toList.takeWhile (· ≠ '$')) = "1" then some v1 else none

def checkUserPassword (password hash : String) : Bool :=
  match HashVersion.fromHash hash with
  | some .v1 =>
      match V1Hash.fromStr crypto hash with
      | some v1Hash => v1Hash.check crypto password
      | none => false
  | none => false

end Crypto

/-! ## The handler -/

structure AuthenticationTokens where
  refreshToken : String
  accessToken : String
deriving DecidableEq

/-- What comes of a request instead of tokens. -/
inductive AuthenticationFailure where
  | problem (p : Problem)
  | panic

/-- The tokens of a user; unwrapping the access token panics if the refresh
token just made cannot be decoded. -/
def issueTokens (crypto : Crypto) (now : Nat) (user : User) :
    Except AuthenticationFailure AuthenticationTokens :=
  let refreshToken := crypto.createRefreshToken now ⟨user.id⟩
  match crypto.accessTokenFromRefreshToken now refreshToken with
  | .ok accessToken => .ok { refreshToken, accessToken }
  | .error _ => .error .panic

def invalidCredentials : Problem :=
  let invalidParameters := InvalidParameters.add ∅ "username" .other
  let invalidParameters := InvalidParameters.add invalidParameters "password" .other
  invalidParameters.intoProblem

/-- An unknown user and a wrong password are told apart neither by the answer
nor, as the password is hashed in both cases, by its time. -/
def authenticateByCredentials (pg : Postgres) (crypto : Crypto) (now : Nat)
    (username password : String) (s : Store) :
    Except AuthenticationFailure AuthenticationTokens :=
  match User.byUsername pg username s with
  | .error e => .error (.problem (.ofDiesel e))
  | .ok (some user) =>
      if crypto.checkUserPassword password user.passwordHash then issueTokens crypto now user
      else .error (.problem invalidCredentials)
  | .ok none => .error (.problem invalidCredentials)

/-- Tokens are issued for the user who was found, and whose password it is. -/
theorem authenticateByCredentials_ok {pg : Postgres} {crypto : Crypto} {now : Nat}
    {username password : String} {s : Store} {tokens : AuthenticationTokens}
    (h : authenticateByCredentials pg crypto now username password s = .ok tokens) :
    ∃ u, User.byUsername pg username s = .ok (some u)
      ∧ crypto.checkUserPassword password u.passwordHash = true
      ∧ issueTokens crypto now u = .ok tokens := by
  unfold authenticateByCredentials at h
  split at h
  · cases h
  · rename_i user hlookup
    split at h
    · rename_i hpassword
      exact ⟨user, hlookup, hpassword, h⟩
    · cases h
  · cases h

end AstroPlant
