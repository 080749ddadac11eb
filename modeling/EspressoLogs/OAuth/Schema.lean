import EspressoLogs.Auth.Endpoints

/-!
Accounts at Google.

The states of logins under way, the columns of `users` that such a login reads and
writes, and the refresh tokens.
-/

namespace EspressoLogs.OAuth

open Lib Py
open Auth (Instant RefreshToken)

/-- A sign-in that was begun: the hash of its state and the verifier of its challenge. -/
structure OAuthState where
  id : Uuid
  stateHash : String
  pkceVerifier : String
  expiresAt : Instant
  deriving DecidableEq, Repr

/-- The columns of `users` that the callback reads or writes. -/
structure User where
  id : Uuid
  googleSub : Option String
  email : Option String
  displayName : String
  pictureUrl : Option String
  lastSeenAt : Instant
  deriving DecidableEq, Repr

/-- The tables that a sign-in touches. -/
inductive Table where
  | oauthStates
  | users
  | refreshTokens
  deriving DecidableEq, Repr

/-- The entries of the unique indexes. -/
inductive UniqueEntry where
  | stateHash (hash : String)
  | googleSub (sub : String)
  | tokenHash (hash : String)
  deriving DecidableEq, Repr

namespace Table

abbrev Row : Table → Type
  | oauthStates => OAuthState
  | users => User
  | refreshTokens => RefreshToken

def decRow : (t : Table) → DecidableEq t.Row
  | oauthStates => inferInstanceAs (DecidableEq OAuthState)
  | users => inferInstanceAs (DecidableEq User)
  | refreshTokens => inferInstanceAs (DecidableEq RefreshToken)

instance (t : Table) : DecidableEq t.Row := t.decRow

def id : (t : Table) → t.Row → Uuid
  | oauthStates, r => r.id
  | users, r => r.id
  | refreshTokens, r => r.id

/-- The entries of the unique indexes that a row takes up. -/
def entries : (t : Table) → t.Row → List UniqueEntry
  | oauthStates, r => [.stateHash r.stateHash]
  | users, r => (r.googleSub.map .googleSub).toList
  | refreshTokens, r => [.tokenHash r.tokenHash]

/-- The foreign keys. -/
def parents : (t : Table) → t.Row → List (Table × Uuid)
  | refreshTokens, r => [(users, r.userId)]
  | _, _ => []

/-- `ON DELETE`: a user takes the tokens along. -/
def orphaned : (t : Table) → t.Row → Table × Uuid → Option t.Row
  | refreshTokens, _, (users, _) => none
  | _, r, _ => some r

end Table

instance : Schema Table where
  Row := Table.Row
  RowId := Uuid
  Entry := UniqueEntry
  decTable := inferInstance
  decRow := Table.decRow
  decId := inferInstance
  decEntry := inferInstance
  tables := [.oauthStates, .users, .refreshTokens]
  key := Table.id
  owner _ _ := none
  secured _ := false
  entries := Table.entries
  parents := Table.parents
  orphaned := Table.orphaned

/-- The database. -/
abbrev State := Tables Table

/-- A statement on it. -/
abbrev Statement := Stmt Table

end EspressoLogs.OAuth
