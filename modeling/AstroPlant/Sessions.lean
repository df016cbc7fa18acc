import AstroPlant.DeclaredBounds
import AstroPlant.PermittedWrites
import AstroPlant.TokenKinds

/-!
# Sessions

What a request may do is decided from the user id that it carries. A client has
no session at the server: it gives its username and password once, is handed a
refresh token and an access token, exchanges the refresh token for further access
tokens, and presents one of these with each request. The server knows the user
only from the claims that it has signed.

Here are the endpoints under `/me`, the extractor of the user id, and the backend
behind them, with the clock that tokens expire by. A sign-in waits for the
database, so the user that it signs in may have been changed by then.
-/

namespace AstroPlant

/-! ## The user of a request -/

/-- The crates, and the key, that the API runs with. `bearer` is the token of an
authorization header. -/
structure Site where
  crates : Crates
  strings : Strings
  signer : TokenSigner
  pbkdf2 : String → List UInt8 → Nat → List UInt8
  base64Decode : String → Option (List UInt8)
  bearer : String → Option String

namespace Site

variable (x : Site)

def crypto (now : Nat) : Crypto := x.signer.crypto now x.pbkdf2 x.base64Decode

/-- No clock is needed to check a password. -/
def checkUserPassword (password hash : String) : Bool :=
  (x.crypto 0).checkUserPassword password hash

/-- `UserId::from_request`, of the authorization header if there is one. -/
def userIdFromRequest (now : Nat) (authorization : Option String) :
    Except AccessTokenProblemCategory Int :=
  match authorization with
  | none => .error .missing
  | some header =>
      match x.bearer header with
      | none => .error .malformed
      | some accessToken =>
          match x.signer.decodeAccessToken now accessToken with
          | .ok authenticationState => .ok authenticationState.userId
          | .error .expired => .error .expired
          | .error .other => .error .malformed

theorem userIdFromRequest_ok {x : Site} {now : Nat} {authorization : Option String} {userId : Int}
    (h : x.userIdFromRequest now authorization = .ok userId) :
    ∃ token, authorization.bind x.bearer = some token
      ∧ x.signer.decodeAccessToken now token = .ok ⟨userId⟩ := by
  unfold userIdFromRequest at h
  split at h
  · cases h
  · rename_i header
    split at h
    · cases h
    · rename_i token hbearer
      split at h
      · rename_i state hdecode
        cases h
        exact ⟨token, hbearer, hdecode⟩
      · cases h
      · cases h

end Site

/-- The endpoints that write. -/
inductive Endpoint where
  | createKit (kit : CreateKit)
  | patchKit (kitSerial : String) (patch : KitPatch)
  | resetPassword (kitSerial : String)
  | deleteKit (kitSerial : String)
  | addMember (kitSerial : String) (member : AddMember)
  | patchKitMembership (id : Int) (patch : KitMembershipPatch)
  | deleteKitMembership (id : Int)
  | createConfiguration (kitSerial : String) (configuration : Option (Option String))
      (source : Option Int)
  | onConfiguration (id : Int) (op : ConfigurationOp)
  | onPeripheral (id : Int) (op : PeripheralOp)
  | deleteMedia (id : Uuid)
  | createUser (user : UserBody)
  | patchUser (username : String) (patch : UserPatch)

namespace Endpoint

/-- What the handler starts with. Creating a kit takes a `UserId`, whose rejection
is the answer; the others take an `Option<UserId>`, for which any rejection is an
anonymous request. -/
def request (userId : Except AccessTokenProblemCategory Int) :
    Endpoint → Except Problem BackendRequest
  | createKit kit => do
      let userId ← userId.mapError .authorizationHeader
      return .service (.api (.createKit userId kit))
  | patchKit kitSerial patch => .ok (.service (.api (.patchKit userId.toOption kitSerial patch)))
  | resetPassword kitSerial => .ok (.service (.api (.resetPassword userId.toOption kitSerial)))
  | deleteKit kitSerial => .ok (.service (.api (.deleteKit userId.toOption kitSerial)))
  | addMember kitSerial member =>
      .ok (.service (.api (.addMember userId.toOption kitSerial member)))
  | patchKitMembership id patch =>
      .ok (.service (.api (.patchKitMembership userId.toOption id patch)))
  | deleteKitMembership id => .ok (.service (.api (.deleteKitMembership userId.toOption id)))
  | createConfiguration kitSerial configuration source =>
      .ok (.service (.api (.createConfiguration userId.toOption kitSerial configuration source)))
  | onConfiguration id op => .ok (.service (.api (.onConfiguration userId.toOption id op)))
  | onPeripheral id op => .ok (.service (.api (.onPeripheral userId.toOption id op)))
  | deleteMedia id => .ok (.service (.api (.deleteMedia userId.toOption id)))
  | createUser user => .ok (.account (.createUser user))
  | patchUser username patch => .ok (.account (.patchUser username userId.toOption patch))

end Endpoint

def AccountRequest.actor : AccountRequest → Option Int
  | .createUser _ => none
  | .patchUser _ actorUserId _ => actorUserId

def BackendRequest.actor : BackendRequest → Option Int
  | .service (.api r) => r.actor
  | .service _ => none
  | .account r => r.actor

/-- A request acts as the user that the extractor found, or as nobody. -/
theorem Endpoint.request_actor {endpoint : Endpoint} {r : BackendRequest}
    {found : Except AccessTokenProblemCategory Int} (h : endpoint.request found = .ok r)
    {userId : Int} (hactor : userId ∈ r.actor) : found = .ok userId := by
  cases found with
  | ok u =>
      suffices hr : r.actor = some u ∨ r.actor = none by
        rcases hr with hr | hr <;> rw [hr] at hactor
        · exact congrArg Except.ok (Option.some.inj hactor)
        · cases hactor
      cases endpoint with
      | createUser _ =>
          obtain rfl := Except.ok.inj h
          exact Or.inr rfl
      | _ =>
          obtain rfl := Except.ok.inj h
          exact Or.inl rfl
  | error category =>
      suffices hr : r.actor = none by
        rw [hr] at hactor
        cases hactor
      cases endpoint with
      | createKit _ => cases h
      | _ =>
          obtain rfl := Except.ok.inj h
          rfl

/-! ## Signing in -/

/-- `authenticate_by_credentials` before the lookup of the user, with what it
found, between the creation of the refresh token and that of the access token
(each reads the clock), and at its end. -/
inductive Login where
  | lookup (username password : String)
  | check (username password : String) (user : Option User)
  | exchange (user : User) (refreshToken : String)
  | answered (answer : Except Problem AuthenticationTokens)

namespace Login

/-- A sign-in that has been answered does nothing more; nor does one that panics,
as when the access token is unwrapped. -/
def advance (x : Site) (now : Nat) (s : Store) : Login → Signing Login
  | lookup username password =>
      match User.byUsername x.strings.pg username s with
      | .error e => return answered (.error (.ofDiesel e))
      | .ok user => return check username password user
  | check _ password (some user) =>
      if (x.crypto now).checkUserPassword password user.passwordHash then do
        let refreshToken ← x.signer.createRefreshToken now ⟨user.id⟩
        return exchange user refreshToken
      else return answered (.error invalidCredentials)
  | check _ _ none => return answered (.error invalidCredentials)
  | exchange _ refreshToken => do
      match ← x.signer.accessTokenFromRefreshToken now refreshToken with
      | .ok accessToken => return answered (.ok { refreshToken, accessToken })
      | .error _ => fun _ => none
  | answered _ => fun _ => none

end Login

/-- `POST /me/refresh`. -/
def accessTokenFromRefreshToken (signer : TokenSigner) (now : Nat) (refreshToken : String) :
    Signing (Except Problem String) := do
  let invalid (category : AccessTokenProblemCategory) : Problem :=
    (InvalidParameters.add ∅ "refreshToken" (.invalidToken category)).intoProblem
  match ← signer.accessTokenFromRefreshToken now refreshToken with
  | .ok accessToken => return .ok accessToken
  | .error .expired => return .error (invalid .expired)
  | .error .other => return .error (invalid .malformed)

/-! ## The site -/

/-- The backend, what has been signed, and the sign-ins. -/
structure Sessions where
  clock : Nat
  services : Conc (Journaled Services ServiceRequest ServiceTask) (ServiceRequest × ServiceTask)
  accountJournal : List (Entry Store AccountRequest AccountTask)
  accountTasks : List (AccountRequest × AccountTask)
  logins : List Login
  signed : List Json

namespace Sessions

def start (now : Nat) (store : Store) : Sessions where
  clock := now
  services := ⟨⟨.start store, []⟩, []⟩
  accountJournal := []
  accountTasks := []
  logins := []
  signed := []

def store (s : Sessions) : Store := s.services.store.store.store

def tokens (s : Sessions) : TokenState := ⟨s.store, s.signed⟩

/-- The accounts, over the database that all share. -/
def accounts (s : Sessions) :
    Conc (Journaled Store AccountRequest AccountTask) (AccountRequest × AccountTask) :=
  ⟨⟨s.store, s.accountJournal⟩, s.accountTasks⟩

def setAccounts (s : Sessions)
    (c : Conc (Journaled Store AccountRequest AccountTask) (AccountRequest × AccountTask)) :
    Sessions :=
  { s with
    services := { s.services with
      store := { s.services.store with
        store := { s.services.store.store with store := c.store.store } } }
    accountJournal := c.store.journal
    accountTasks := c.tasks }

end Sessions

/-- Who moves next. Requests arrive with their authorization header; messages of
kits arrive, and tasks move on, with `service` and `account`. A request for a
download token is answered in the step in which it arrives: its header is checked,
the permission looked up and the token signed at one time. -/
inductive SessionOp where
  | elapse (seconds : Nat)
  | authenticate (username password : String)
  | login (i : Nat)
  | refresh (refreshToken : String)
  | archiveAuthorize (authorization : Option String) (kitSerial : String)
  | request (authorization : Option String) (endpoint : Endpoint)
  | service (l : Sched ServiceRequest ServiceEnv)
  | account (l : Sched AccountRequest AccountEnv)

namespace Sessions

/-- A request of the API arrives as a request to an endpoint only. -/
def arrives : Sched ServiceRequest ServiceEnv → Bool
  | .spawn (.api _) => false
  | _ => true

def continues : Sched AccountRequest AccountEnv → Bool
  | .spawn _ => false
  | _ => true

def step (x : Site) (s : Sessions) : SessionOp → Option Sessions
  | .elapse seconds => some { s with clock := s.clock + seconds }
  | .authenticate username password =>
      some { s with logins := s.logins ++ [.lookup username password] }
  | .login i =>
      match s.logins[i]? with
      | none => none
      | some l =>
          match l.advance x s.clock s.store s.signed with
          | none => none
          | some (l, signed) => some { s with logins := s.logins.set i l, signed }
  | .refresh refreshToken =>
      (accessTokenFromRefreshToken x.signer s.clock refreshToken s.signed).map fun r =>
        { s with signed := r.2 }
  | .archiveAuthorize authorization kitSerial =>
      (AstroPlant.archiveAuthorize x.signer s.clock
        (x.userIdFromRequest s.clock authorization).toOption kitSerial s.store s.signed).map
          fun r => { s with signed := r.2 }
  | .request authorization endpoint =>
      match endpoint.request (x.userIdFromRequest s.clock authorization) with
      | .error _ => some s
      | .ok (.service r) =>
          ((AstroPlant.services x.crates).journaled.step s.services (.spawn r)).map fun services =>
            { s with services }
      | .ok (.account r) =>
          ((AstroPlant.accounts x.strings).journaled.step s.accounts (.spawn r)).map s.setAccounts
  | .service l =>
      if arrives l then
        ((AstroPlant.services x.crates).journaled.step s.services l).map fun services =>
          { s with services }
      else none
  | .account l =>
      if continues l then
        ((AstroPlant.accounts x.strings).journaled.step s.accounts l).map s.setAccounts
      else none

/-- The token that is presented in the step; a sign-in presents the refresh token
that it has just made. -/
def presented (x : Site) (s : Sessions) : SessionOp → Option String
  | .login i =>
      match s.logins[i]? with
      | some (.exchange _ refreshToken) => some refreshToken
      | _ => none
  | .refresh refreshToken => some refreshToken
  | .archiveAuthorize authorization _ | .request authorization _ => authorization.bind x.bearer
  | _ => none

/-- Signatures are not forged, and hold for what they were made for. -/
def Genuine (x : Site) (s : Sessions) (op : SessionOp) : Prop :=
  ∀ token ∈ s.presented x op, s.tokens.Genuine x.signer token

end Sessions

/-! ## A sign-in that nothing interrupts

It answers what the handler answers that is one function of the database. -/

namespace Login

/-- At most that many steps at one time, over one state of the database. -/
def run (x : Site) (now : Nat) (s : Store) : Nat → Login → Signing Login
  | 0, l => return l
  | _ + 1, answered answer => return answered answer
  | n + 1, l => do run x now s n (← l.advance x now s)

/-- There is no answer after a panic. -/
def answerOf :
    Except AuthenticationFailure AuthenticationTokens → Option (Except Problem AuthenticationTokens)
  | .ok tokens => some (.ok tokens)
  | .error (.problem problem) => some (.error problem)
  | .error .panic => none

section

variable {x : Site} {now : Nat} {s : Store} {username password : String} {signed : List Json}

theorem run_answered {n : Nat} {answer : Except Problem AuthenticationTokens} :
    run x now s n (answered answer) signed = some (answered answer, signed) := by
  cases n <;> rfl

theorem run_succ {n : Nat} {l l' : Login} {signed' : List Json}
    (h : l.advance x now s signed = some (l', signed')) :
    run x now s (n + 1) l signed = run x now s n l' signed' := by
  cases l with
  | answered answer => cases h
  | lookup _ _ | check _ _ _ | exchange _ _ =>
      simp only [run, bind, StateT.bind, h, Option.bind_some]

/-- **The sign-in is the handler**, while the clock does not run out. -/
theorem run_lookup (hlast : now + 365 * 24 * 60 * 60 ≤ x.signer.lastInstant) :
    (run x now s 3 (.lookup username password) signed).map Prod.fst
      = (answerOf (authenticateByCredentials x.strings.pg (x.crypto now) now username password
          s)).map answered := by
  unfold authenticateByCredentials
  cases hlookup : User.byUsername x.strings.pg username s with
  | error e =>
      have hadvance : (lookup username password).advance x now s signed
          = some (answered (.error (.ofDiesel e)), signed) := by
        simp only [advance, hlookup]
        rfl
      rw [run_succ hadvance, run_answered]
      rfl
  | ok found =>
      have hfound : (lookup username password).advance x now s signed
          = some (check username password found, signed) := by
        simp only [advance, hlookup]
        rfl
      rw [run_succ hfound]
      cases found with
      | none => rfl
      | some user =>
          by_cases hpassword : (x.crypto now).checkUserPassword password user.passwordHash = true
          case neg =>
              have hadvance : (check username password (some user)).advance x now s signed
                  = some (answered (.error invalidCredentials), signed) := by
                rw [advance, if_neg hpassword]
                rfl
              simp only [run_succ hadvance, run_answered, hpassword]
              rfl
          case pos =>
              obtain ⟨signed₁, hcreate⟩ := @crypto_createToken x.signer x.pbkdf2 x.base64Decode now
                signed (365 * 24 * 60 * 60) .refresh ⟨user.id⟩ hlast
              have hrefresh : x.signer.createRefreshToken now ⟨user.id⟩ signed
                  = some ((x.crypto now).createRefreshToken now ⟨user.id⟩, signed₁) := hcreate
              obtain ⟨signed₂, hexchange⟩ := @crypto_accessTokenFromRefreshToken x.signer x.pbkdf2
                x.base64Decode now signed₁ ((x.crypto now).createRefreshToken now ⟨user.id⟩)
                (by omega)
              have haccess : x.signer.accessTokenFromRefreshToken now
                    ((x.crypto now).createRefreshToken now ⟨user.id⟩) signed₁
                  = some ((x.crypto now).accessTokenFromRefreshToken now
                    ((x.crypto now).createRefreshToken now ⟨user.id⟩), signed₂) := hexchange
              have hcheck : (check username password (some user)).advance x now s signed
                  = some (exchange user ((x.crypto now).createRefreshToken now ⟨user.id⟩),
                    signed₁) := by
                rw [advance, if_pos hpassword]
                simp only [bind, StateT.bind, hrefresh]
                rfl
              rw [run_succ hcheck]
              simp only [hpassword, if_true, run, advance, bind, StateT.bind, haccess, issueTokens]
              cases (x.crypto now).accessTokenFromRefreshToken now
                  ((x.crypto now).createRefreshToken now ⟨user.id⟩) with
              | ok accessToken => rfl
              | error e => rfl

end

end Login

end AstroPlant
