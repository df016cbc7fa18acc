import AstroPlant.Authentication
import AstroPlant.Run
import AstroPlant.Serde

/-!
# Tokens as JSON claim sets

Refresh tokens, access tokens and download tokens are signed with one key and
have the same envelope: a JSON object with its expiry. Which kind a token is can
only be seen from the fields that it has and from the token type. The operations
here are those of `TokenSigner`, at the level of the JSON that is signed.

Readers do not look for fields that they do not know, so that a token of one kind
may well be read as another if it has its fields. It is for the writers to make
that impossible, and the proofs over this file go through the fields that each of
them writes. Signing is a library's (`TokenSigner`); the state keeps what was
signed, so that a token can be genuine: the text that was made for one of these
(`Genuine`).
-/

namespace AstroPlant

/-! ## Claims -/

namespace TokenType

def toJson : TokenType → Json
  | refresh => .string "Refresh"
  | access => .string "Access"

def ofJson (j : Json) : Option TokenType :=
  match j.unitVariant with
  | some "Refresh" => some refresh
  | some "Access" => some access
  | _ => none

end TokenType

namespace AuthenticationState

def toJson (state : AuthenticationState) : Json :=
  .object [("user_id", .ofInt state.userId)]

def ofJson (j : Json) : Option AuthenticationState :=
  match j.struct ["user_id"] with
  | some [userId] => userId.i32?.map fun userId => ⟨userId⟩
  | _ => none

end AuthenticationState

namespace Claims

def toJson (claims : Claims) : Json :=
  .object [("exp", .ofNat claims.exp), ("token_type", claims.tokenType.toJson),
    ("state", claims.state.toJson)]

def ofJson (j : Json) : Option Claims :=
  match j.struct ["exp", "token_type", "state"] with
  | some [exp, tokenType, state] =>
      exp.usize?.bind fun exp =>
        (TokenType.ofJson tokenType).bind fun tokenType =>
          (AuthenticationState.ofJson state).map fun state => ⟨exp, tokenType, state⟩
  | _ => none

end Claims

/-- What allows a download. -/
structure DownloadToken where
  action : String
  kitSerial : String
deriving DecidableEq

namespace DownloadToken

def toJson (token : DownloadToken) : Json :=
  .object [("action", .string token.action), ("kit_serial", .string token.kitSerial)]

def ofJson (j : Json) : Option DownloadToken :=
  match j.struct ["action", "kit_serial"] with
  | some [action, kitSerial] =>
      action.string?.bind fun action => kitSerial.string?.map fun kitSerial => ⟨action, kitSerial⟩
  | _ => none

end DownloadToken

/-- `ArbitraryTokenClaims<DownloadToken>`. -/
structure ArbitraryTokenClaims where
  exp : Nat
  data : DownloadToken

namespace ArbitraryTokenClaims

def toJson (claims : ArbitraryTokenClaims) : Json :=
  .object [("exp", .ofNat claims.exp), ("data", claims.data.toJson)]

def ofJson (j : Json) : Option ArbitraryTokenClaims :=
  match j.struct ["exp", "data"] with
  | some [exp, data] =>
      exp.usize?.bind fun exp => (DownloadToken.ofJson data).map fun data => ⟨exp, data⟩
  | _ => none

end ArbitraryTokenClaims

/-! ## The signer -/

/-- The token library with the signer's key, and the last instant of the clock.
`verify` checks the signature of a token and returns the claims that it signs. -/
structure TokenSigner where
  encode : Json → String
  verify : String → Option Json
  leeway : Nat
  lastInstant : Nat
  lastInstant_lt : lastInstant < 2 ^ 63

/-- The claim sets that the key has signed; `none` is a panic. -/
abbrev Signing (α : Type) := StateT (List Json) Option α

namespace TokenSigner

variable (signer : TokenSigner)

def sign (claims : Json) : Signing String :=
  fun signed => some (signer.encode claims, signed ++ [claims])

/-- Adding a duration to the current time must not leave the range of the clock,
and the timestamp must not be negative. -/
def expiry (now : Nat) (validityTime : Int) : Signing Nat :=
  fun signed =>
    if 0 ≤ now + validityTime ∧ now + validityTime ≤ signer.lastInstant then
      some ((now + validityTime).toNat, signed)
    else none

/-- `jsonwebtoken::decode` into claims of some type: the signature, then the
fields, then the expiry. -/
def decode {α : Type} (ofJson : Json → Option α) (exp : α → Nat) (now : Nat) (token : String) :
    Except TokenError α :=
  match (signer.verify token).bind ofJson with
  | none => .error .other
  | some claims => if now ≤ exp claims + signer.leeway then .ok claims else .error .expired

def createToken (now : Nat) (validityTime : Int) (tokenType : TokenType)
    (state : AuthenticationState) : Signing String := do
  let exp ← signer.expiry now validityTime
  signer.sign (Claims.toJson ⟨exp, tokenType, state⟩)

def decodeToken (now : Nat) (token : String) : Except TokenError Claims :=
  signer.decode Claims.ofJson Claims.exp now token

/-- Valid for 365 days. -/
def createRefreshToken (now : Nat) (state : AuthenticationState) : Signing String :=
  signer.createToken now (365 * 24 * 60 * 60) .refresh state

/-- Valid for 15 minutes. -/
def accessTokenFromRefreshToken (now : Nat) (token : String) :
    Signing (Except TokenError String) :=
  match signer.decodeToken now token with
  | .error e => return .error e
  | .ok claims =>
      match claims.tokenType with
      | .refresh => do
          let token ← signer.createToken now (15 * 60) .access claims.state
          return .ok token
      | .access => return .error .other

def decodeAccessToken (now : Nat) (token : String) : Except TokenError AuthenticationState := do
  let claims ← signer.decodeToken now token
  match claims.tokenType with
  | .access => .ok claims.state
  | .refresh => .error .other

def createArbitraryToken (now : Nat) (data : DownloadToken) (validityTime : Int) :
    Signing String := do
  let exp ← signer.expiry now validityTime
  signer.sign (ArbitraryTokenClaims.toJson ⟨exp, data⟩)

def decodeArbitraryToken (now : Nat) (token : String) : Except TokenError DownloadToken := do
  let wrapped ← signer.decode ArbitraryTokenClaims.ofJson ArbitraryTokenClaims.exp now token
  return wrapped.data

end TokenSigner

/-! ## Downloads -/

/-- `POST /kits/{kitSerial}/archive`: a token for 30 seconds. -/
def archiveAuthorize (signer : TokenSigner) (now : Nat) (userId : Option Int)
    (kitSerial : String) (s : Store) : Signing (Except Problem String) :=
  match (futKitPermissionOrForbidden userId kitSerial .view).run s with
  | .error problem => return .error problem
  | .ok ((_, _, kit), _) => do
      let token ← signer.createArbitraryToken now ⟨"kit-archive-download", kit.serial⟩ 30
      return .ok token

/-- `GET /kits/{kitSerial}/archive`: the kit whose archive is sent. -/
def archive (signer : TokenSigner) (now : Nat) (kitSerial token : String) (s : Store) :
    Except Problem Kit := do
  let token ← (signer.decodeArbitraryToken now token).mapError fun _ => Problem.FORBIDDEN
  if token.action ≠ "kit-archive-download" ∨ token.kitSerial ≠ kitSerial then
    .error .FORBIDDEN
  else
    match Kit.bySerial token.kitSerial s with
    | none => .error .NOT_FOUND
    | some kit => .ok kit

/-! ## Runs of token operations -/

/-- The database, and the claim sets signed so far. -/
structure TokenState where
  store : Store
  signed : List Json

/-- The operations that sign, each at its time; the database changes in any way. -/
inductive TokenOp where
  | createRefreshToken (now : Nat) (userId : Int32)
  | accessTokenFromRefreshToken (now : Nat) (token : String)
  | createArbitraryToken (now : Nat) (data : DownloadToken) (validityTime : Int)
  | archiveAuthorize (now : Nat) (userId : Option Int) (kitSerial : String)
  | database (store : Store)

namespace TokenState

/-- The result of an operation that signs, or `none` when it panics. -/
def perform {α : Type} (s : TokenState) (op : Signing α) : Option (α × TokenState) :=
  (op s.signed).map fun r => (r.1, { s with signed := r.2 })

def step (signer : TokenSigner) (s : TokenState) : TokenOp → Option TokenState
  | .createRefreshToken now userId =>
      (s.perform (signer.createRefreshToken now ⟨userId.toInt⟩)).map Prod.snd
  | .accessTokenFromRefreshToken now token =>
      (s.perform (signer.accessTokenFromRefreshToken now token)).map Prod.snd
  | .createArbitraryToken now data validityTime =>
      (s.perform (signer.createArbitraryToken now data validityTime)).map Prod.snd
  | .archiveAuthorize now userId kitSerial =>
      (s.perform (AstroPlant.archiveAuthorize signer now userId kitSerial s.store)).map Prod.snd
  | .database store => some { s with store }

/-- Verification accepts the token exactly for a claim set that has been signed. -/
def Genuine (signer : TokenSigner) (s : TokenState) (token : String) : Prop :=
  ∀ claims, signer.verify token = some claims ↔ claims ∈ s.signed ∧ signer.encode claims = token

end TokenState

end AstroPlant
