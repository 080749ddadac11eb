import EspressoLogs.OAuth.Schema

/-!
The callback of a login with Google.

A callback finds the state that the login stored, deletes it, exchanges the code
for a token at Google, reads the profile, and stores the user and a refresh token.
The remote calls are inputs: each answers or raises.
-/

namespace EspressoLogs.OAuth

open Lib Py
open Auth (Instant RefreshToken)

/-- What Google says of a user, each as `str` of it, the email in lower case. -/
structure Userinfo where
  sub : String
  email : String
  name : String
  picture : String
  deriving DecidableEq, Repr

/-- One callback: its query, and what it sees of the world outside the database. -/
structure Callback where
  state : String
  code : String
  /-- `datetime.now(utc)`. -/
  now : Instant
  /-- `NOW()`. -/
  dbNow : Instant
  /-- `fetch_token` does not raise. -/
  tokenFetched : Bool
  /-- The profile, `none` where the request for it raises. -/
  userinfo : Option Userinfo
  /-- The random part of the new refresh token. -/
  rawToken : String
  /-- `create_access_token`, `none` where it raises. -/
  accessToken : Uuid → Option String
  supply : Nat → Uuid
  /-- Which of its statements fail for a reason outside the database. -/
  faults : List Bool

/-- Where a callback redirects to, and what it sets. -/
inductive Reply where
  | oauthFailed
  | oauthSuccess (accessToken rt : String)
  deriving DecidableEq, Repr

/-! ### Statements -/

abbrev OAuthM := Prog Statement Resp Exc

namespace OAuthM

variable {α : Type}

def select (t : Table) (p : t.Row → Bool) : OAuthM (List t.Row) := Prog.ask .db (.select t p)

def insert (t : Table) (make : Uuid → Except StmtError t.Row) : OAuthM t.Row :=
  Prog.ask .db (.insert t make)

def update (t : Table) (p : t.Row → Bool) (set : t.Row → Except StmtError t.Row) :
    OAuthM (List t.Row) :=
  Prog.ask .db (.update t p set)

/-- `delete` of an object, and `flush`. -/
def delete (t : Table) (row : t.Row) : OAuthM Unit :=
  discard (Prog.ask .db (.delete t fun r => t.id r == t.id row) : OAuthM (List t.Row))

def commit : OAuthM Unit := Prog.ask .db .commit

def rollback : OAuthM Unit := Prog.ask .db .rollback

/-- `scalar_one_or_none`. -/
def scalarOneOrNone : List α → OAuthM (Option α)
  | [] => pure none
  | [a] => pure (some a)
  | _ => throw .multipleResults

def orRaise (e : Exc) : Option α → OAuthM α
  | some a => pure a
  | none => throw e

/-- `refresh`: the row of a primary key, unless it is gone. -/
def refresh (t : Table) (row : t.Row) : OAuthM t.Row := do
  orRaise .notRefreshed (← select t fun r => t.id r == t.id row).head?

end OAuthM

/-- A text that the database stores. -/
def storable (s : String) : Bool := '\x00' ∉ s.toList

/-! ### Users and tokens -/

namespace UserRepo

def getByGoogleSub (googleSub : String) : OAuthM (Option User) := do
  OAuthM.scalarOneOrNone (← OAuthM.select .users fun u => u.googleSub == some googleSub)

/-- `s or None`. -/
def nonEmpty (s : String) : Option String := if s = "" then none else some s

/-- The new user of a profile. -/
def newUser (c : Callback) (info : Userinfo) (id : Uuid) : Except StmtError User :=
  if storable info.sub && storable info.email && storable info.name && storable info.picture then
    .ok { id, googleSub := some info.sub, email := nonEmpty info.email,
          displayName := ((nonEmpty info.name).or (nonEmpty info.email)).getD info.sub,
          pictureUrl := nonEmpty info.picture, lastSeenAt := c.dbNow }
  else .error .data

def create (c : Callback) (info : Userinfo) : OAuthM User := do
  let user ← OAuthM.insert .users (newUser c info)
  OAuthM.refresh .users user

/-- The profile fields of a user that are refreshed. -/
def refreshed (c : Callback) (info : Userinfo) (user u : User) : Except StmtError User :=
  if storable info.email && storable info.name && storable info.picture then
    .ok { u with email := (nonEmpty info.email).or user.email,
                 displayName := (nonEmpty info.name).getD user.displayName,
                 pictureUrl := (nonEmpty info.picture).or user.pictureUrl,
                 lastSeenAt := c.dbNow }
  else .error .data

/-- Upsert by `google_sub`. -/
def upsert (c : Callback) (info : Userinfo) : OAuthM User := do
  match ← getByGoogleSub info.sub with
  | none => create c info
  | some user =>
      discard (OAuthM.update .users (fun u => u.id == user.id) (refreshed c info user))
      OAuthM.refresh .users user

end UserRepo

/-- `RefreshTokenRepo.create`. -/
def createRefreshToken (userId : Uuid) (tokenHash : String) (expiresAt : Instant) :
    OAuthM RefreshToken := do
  let token ← OAuthM.insert .refreshTokens fun id =>
    .ok (Auth.RefreshTokenRepo.fresh userId tokenHash expiresAt id)
  OAuthM.refresh .refreshTokens token

/-! ### The callback -/

section Program

variable (hashToken : String → String) (c : Callback)

/-- The state of the callback, if there is one to be used; an expired one is
deleted. Its PKCE verifier is read here. -/
def findState : OAuthM (Option OAuthState) := do
  if c.state = "" ∨ c.code = "" then
    return none
  match ← OAuthM.scalarOneOrNone
      (← OAuthM.select .oauthStates fun s => s.stateHash == hashToken c.state) with
  | none => return none
  | some oauthState =>
      if oauthState.expiresAt < c.now then
        OAuthM.delete .oauthStates oauthState
        OAuthM.commit
        return none
      return some oauthState

/-- The callback up to the token exchange, which it goes on to with a verifier. -/
def claimState : OAuthM (Option String) := do
  match ← findState hashToken c with
  | none => return none
  | some oauthState =>
      OAuthM.delete .oauthStates oauthState
      return some oauthState.pkceVerifier

/-- The remote calls: the token exchange with a verifier, and the profile. -/
def fetchUserinfo (_pkceVerifier : String) : OAuthM Userinfo := do
  if !c.tokenFetched then throw .runtimeError
  OAuthM.orRaise .runtimeError c.userinfo

/-- The part after the profile was read. -/
def finish (info : Userinfo) : OAuthM Reply := do
  if info.sub = "" then
    return .oauthFailed
  let user ← UserRepo.upsert c info
  discard (createRefreshToken user.id (hashToken c.rawToken) (c.now + Auth.tokenLifetime))
  OAuthM.commit
  let accessToken ← OAuthM.orRaise .runtimeError (c.accessToken user.id)
  return .oauthSuccess accessToken c.rawToken

/-- `google_callback`. -/
def googleCallback : OAuthM Reply :=
  tryCatch (do
      match ← claimState hashToken c with
      | none => return .oauthFailed
      | some pkceVerifier => finish hashToken c (← fetchUserinfo c pkceVerifier))
    fun _ => do
      OAuthM.rollback
      return .oauthFailed

end Program

/-! ### One callback after the other -/

/-- A session of its own, which is closed at the end: what is not committed by then
is dropped. -/
def Callback.start (c : Callback) (db : State) : World Table :=
  { db, session := { Session.idle (T := Table) c.supply with faults := c.faults } }

variable (hashToken : String → String)

def Callback.serve (c : Callback) (db : State) : Reply × State :=
  match (googleCallback hashToken c).run World.exec (c.start db) with
  | (.ok reply, w) => (reply, w.db)
  | (.error _, w) => (.oauthFailed, w.db)

def serveAll (callbacks : List Callback) (db : State) : State :=
  callbacks.foldl (fun db c => (c.serve hashToken db).2) db

/-- The callback reads the verifier of its state. -/
def Uses (c : Callback) (db : State) : Prop :=
  ∃ s, ((findState hashToken c).run World.exec (c.start db)).1 = .ok (some s)

/-- The callback proceeds to the token exchange. -/
def Exchanges (c : Callback) (db : State) : Prop :=
  ∃ verifier, ((claimState hashToken c).run World.exec (c.start db)).1 = .ok (some verifier)

/-- No state is exchanged after a callback has used it. -/
def SingleUse (callbacks : List Callback) (db : State) : Prop :=
  ∀ before c between c' after, callbacks = before ++ c :: between ++ c' :: after →
    c'.state = c.state → Uses hashToken c (serveAll hashToken before db) →
      ¬ Exchanges hashToken c' (serveAll hashToken (before ++ c :: between) db)

end EspressoLogs.OAuth
