import EspressoLogs.Auth.Schema
import EspressoLogs.Lib.Outline

/-!
Login, refresh and logout.

The queries on users and refresh tokens, the part of the authentication service
that the endpoints use, and the endpoints. The transaction of a request begins
with its first statement, and `NOW()` is that moment throughout.
-/

namespace EspressoLogs.Auth

open Lib Py

/-- What a request sees of the world outside the database. -/
structure Env where
  /-- `datetime.now(utc)`. -/
  now : Instant
  /-- `NOW()`. -/
  dbNow : Instant
  /-- `lower` of the database. -/
  lower : String → String
  /-- `pwd_context.verify`, none where it raises a `ValueError`. -/
  verify : (secret hash : String) → Option Bool
  dummyHash : String
  sha256Hex : String → String
  /-- The random part of a new refresh token. -/
  rawToken : String
  /-- `create_access_token`, none where it raises a `RuntimeError`. -/
  accessToken : Uuid → Option String

/-! ### Statements -/

abbrev AuthM := Prog Statement Resp Exc

namespace AuthM

variable {α : Type}

def select (t : Table) (p : t.Row → Bool) : AuthM (List t.Row) := Prog.ask .db (.select t p)

def insert (t : Table) (make : Uuid → Except StmtError t.Row) : AuthM t.Row :=
  Prog.ask .db (.insert t make)

def update (t : Table) (p : t.Row → Bool) (set : t.Row → Except StmtError t.Row) :
    AuthM (List t.Row) :=
  Prog.ask .db (.update t p set)

def commit : AuthM Unit := Prog.ask .db .commit

/-- `scalar_one_or_none`. -/
def scalarOneOrNone : List α → AuthM (Option α)
  | [] => pure none
  | [a] => pure (some a)
  | _ => throw .multipleResults

/-- Raises unless a value was obtained. -/
def orRaise (e : Exc) : Option α → AuthM α
  | some a => pure a
  | none => throw e

/-- `refresh` of a row just written. -/
def refresh (t : Table) (row : t.Row) : AuthM t.Row := do
  orRaise .notRefreshed (← scalarOneOrNone (← select t fun r => t.id r == t.id row))

end AuthM

/-! ### Users -/

namespace UserRepo

/-- Case-insensitive lookup. -/
def getByUsername (env : Env) (username : String) : AuthM (Option User) := do
  AuthM.scalarOneOrNone
    (← AuthM.select .users fun u => u.username.map env.lower == some (env.lower username))

/-- The largest value of an `INTEGER` column. -/
def integerMax : Nat := 2147483647

/-- `login_attempts + 1`. -/
def incremented (u : User) : Except StmtError User :=
  if u.loginAttempts + 1 ≤ integerMax then .ok { u with loginAttempts := u.loginAttempts + 1 }
  else .error .data

/-- A failed attempt after which the account is locked. -/
def maxAttempts : Nat := 10

/-- `INTERVAL '15 minutes'`. -/
def lockPeriod : Instant := minutes 15

/-- Increment failed login counter; lock account at 10 attempts. -/
def incrementLoginAttempts (env : Env) (userId : Uuid) : AuthM Unit := do
  discard (AuthM.update .users (fun u => u.id == userId) incremented)
  discard (AuthM.update .users
    (fun u => u.id == userId && decide (maxAttempts ≤ u.loginAttempts) && u.lockedUntil.isNone)
    fun u => .ok { u with lockedUntil := some (env.dbNow + lockPeriod) })

/-- Clear failed-login counter and any lock. -/
def resetLoginState (userId : Uuid) : AuthM Unit :=
  discard (AuthM.update .users (fun u => u.id == userId)
    fun u => .ok { u with loginAttempts := 0, lockedUntil := none })

end UserRepo

/-! ### Refresh tokens -/

/-- Marked as revoked. -/
def RefreshToken.revoke (t : RefreshToken) : RefreshToken := { t with revoked := true }

/-- Revoked for a successor. -/
def RefreshToken.rotate (at_ : Instant) (t : RefreshToken) : RefreshToken :=
  { t with revoked := true, rotatedAt := some at_ }

namespace RefreshTokenRepo

/-- A row that is about to be inserted. -/
def fresh (userId : Uuid) (tokenHash : String) (expiresAt : Instant) (id : Uuid) : RefreshToken :=
  { id, userId, tokenHash, expiresAt, revoked := false, rotatedAt := none }

/-- Insert a new refresh token row. -/
def create (userId : Uuid) (tokenHash : String) (expiresAt : Instant) : AuthM RefreshToken := do
  let token ← AuthM.insert .refreshTokens fun id => .ok (fresh userId tokenHash expiresAt id)
  AuthM.refresh .refreshTokens token

def hasHash (tokenHash : String) (t : RefreshToken) : Bool := t.tokenHash == tokenHash

def getByHash (tokenHash : String) : AuthM (Option RefreshToken) := do
  AuthM.scalarOneOrNone (← AuthM.select .refreshTokens (hasHash tokenHash))

def isValid (env : Env) (tokenHash : String) (t : RefreshToken) : Bool :=
  t.tokenHash == tokenHash && !t.revoked && decide (env.dbNow < t.expiresAt)

/-- Atomically revoke a still-valid refresh token and return the revoked row. -/
def rotate (env : Env) (tokenHash : String) : AuthM (Option RefreshToken) := do
  AuthM.scalarOneOrNone
    (← AuthM.update .refreshTokens (isValid env tokenHash) fun t => .ok (t.rotate env.dbNow))

def hasId (tokenId : Uuid) (t : RefreshToken) : Bool := t.id == tokenId

/-- Mark a single token as revoked. -/
def revoke (tokenId : Uuid) : AuthM Unit :=
  discard (AuthM.update .refreshTokens (hasId tokenId) fun t => .ok t.revoke)

/-- A token of the user that is not revoked. -/
def isOpenFor (userId : Uuid) (t : RefreshToken) : Bool := t.userId == userId && !t.revoked

/-- Revoke all non-revoked tokens for a user. -/
def revokeAllForUser (userId : Uuid) : AuthM Unit :=
  discard (AuthM.update .refreshTokens (isOpenFor userId) fun t => .ok t.revoke)

end RefreshTokenRepo

/-! ### Endpoints -/

/-- How a request ends that does not raise: `TokenOut` and the new `rt` cookie, or
`{}` and the cookie cleared. -/
inductive Reply where
  | token (accessToken rt : String)
  | loggedOut
  deriving DecidableEq, Repr

/-- `_REFRESH_REPLAY_GRACE_SECONDS`. -/
def replayGrace : Instant := seconds 5

/-- The lifetime of a refresh token. -/
def tokenLifetime : Instant := days 30

/-- `verify_password`. -/
def verifyPassword (env : Env) (plain hashed : String) : AuthM Bool :=
  AuthM.orRaise .valueError (env.verify plain hashed)

def invalidCredentials : Exc := httpError 401 "Invalid credentials"

def tooManyAttempts : Exc :=
  httpError 429 "Too many failed attempts. Account locked temporarily."

def invalidRefreshToken : Exc := httpError 401 "Invalid refresh token"

/-- `LoginRequest`. -/
structure LoginRequest where
  username : String
  password : String
  deriving DecidableEq, Repr

/-- The account is locked at a time. -/
def User.isLocked (u : User) (now : Instant) : Bool :=
  match u.lockedUntil with
  | some lockedUntil => decide (now < lockedUntil)
  | none => false

/-- A new refresh token for a user, in a transaction of its own or of its caller. -/
def issue (env : Env) (userId : Uuid) : AuthM Reply := do
  discard (RefreshTokenRepo.create userId (env.sha256Hex env.rawToken) (env.now + tokenLifetime))
  AuthM.commit
  let accessToken ← AuthM.orRaise .runtimeError (env.accessToken userId)
  return .token accessToken env.rawToken

/-- `POST /auth/login`. -/
def login (env : Env) (body : LoginRequest) : AuthM Reply := do
  match ← UserRepo.getByUsername env body.username with
  | none =>
      discard (verifyPassword env body.password env.dummyHash)
      throw invalidCredentials
  | some user =>
      if user.isLocked env.now then
        throw tooManyAttempts
      if ← verifyPassword env body.password (user.passwordHash.getD "") then
        UserRepo.resetLoginState user.id
        issue env user.id
      else
        UserRepo.incrementLoginAttempts env user.id
        AuthM.commit
        throw invalidCredentials

/-- The token that a refresh presents: the cookie, else the one in the body. -/
def presented (rt bodyToken : Option String) : Option String :=
  match rt with
  | some raw => if raw.isEmpty then bodyToken else some raw
  | none => bodyToken

/-- The token was rotated so recently that presenting it again is no replay. -/
def RefreshToken.inGrace (t : RefreshToken) (now : Instant) : Bool :=
  match t.rotatedAt with
  | some rotatedAt => decide (now - rotatedAt ≤ replayGrace)
  | none => false

/-- What a refresh does with a token that it could not rotate. -/
def rejectRefresh (env : Env) (tokenHash : String) : AuthM Reply := do
  if let some existing ← RefreshTokenRepo.getByHash tokenHash then
    if existing.revoked then
      if existing.inGrace env.now then
        throw invalidRefreshToken
      RefreshTokenRepo.revokeAllForUser existing.userId
      AuthM.commit
  throw invalidRefreshToken

/-- `POST /auth/refresh`. -/
def refreshToken (env : Env) (rt bodyToken : Option String) : AuthM Reply := do
  let raw := (presented rt bodyToken).getD ""
  if raw.isEmpty then
    throw (httpError 401 "Refresh token missing")
  match ← RefreshTokenRepo.rotate env (env.sha256Hex raw) with
  | none => rejectRefresh env (env.sha256Hex raw)
  | some stored => issue env stored.userId

/-- The revocation at logout, of which every exception is swallowed. -/
def revokePresented (env : Env) (rt : String) : AuthM Unit := do
  if let some stored ← RefreshTokenRepo.getByHash (env.sha256Hex rt) then
    if !stored.revoked then
      RefreshTokenRepo.revoke stored.id
      AuthM.commit

/-- `POST /auth/logout`: revoke the refresh token (best-effort) and clear the cookie. -/
def logout (env : Env) (rt : Option String) : AuthM Reply := do
  if !(rt.getD "").isEmpty then
    tryCatch (revokePresented env (rt.getD "")) fun _ => pure ()
  return .loggedOut

/-! ### Requests -/

inductive Request where
  | login (body : LoginRequest)
  | refresh (rt bodyToken : Option String)
  | logout (rt : Option String)
  deriving DecidableEq, Repr

namespace Request

def program (env : Env) : Request → AuthM Reply
  | login body => Auth.login env body
  | refresh rt bodyToken => refreshToken env rt bodyToken
  | logout rt => Auth.logout env rt

end Request

/-- What is outside a request: its world, the ids that the database will give its
new rows, and which of its statements fail for a reason outside the database. -/
structure Call where
  env : Env
  supply : Nat → Uuid
  faults : List Bool

/-- A request that is about to be served. -/
def Call.client (c : Call) (r : Request) : Client Table Exc Reply :=
  Client.start (r.program c.env) c.supply c.faults

/-- Requests that are served side by side. -/
def sideBySide (db : State) (requests : List (Call × Request)) : Pool Table Exc Reply :=
  ⟨db, requests.map fun x => x.1.client x.2, []⟩

/-- Serves one request: how it ends and the rows that are there afterwards. -/
def Call.serve (c : Call) (r : Request) (db : State) : Except Exc Reply × State :=
  let (result, w) := (r.program c.env).run World.exec
    { db, session := { Session.idle (T := Table) c.supply with faults := c.faults } }
  (result, w.db)

end EspressoLogs.Auth
