import EspressoLogs.Db
import EspressoLogs.Lib.Schedule

/-!
Accounts and sessions.

The columns of `users` that authentication reads and writes, and the table of
refresh tokens. Neither is under row-level security, and no statement reaches
them together with other tables, so they make a schema of their own.
-/

namespace EspressoLogs.Auth

open Lib Py

/-- `timestamptz`, in microseconds. -/
abbrev Instant := Int

/-- Instants are counted in microseconds. -/
def seconds (n : Int) : Instant := n * 1000000

def minutes (n : Int) : Instant := seconds (n * 60)

def days (n : Int) : Instant := minutes (n * 24 * 60)

/-- The columns of `users` that the login and its lockout use. -/
structure User where
  id : Uuid
  username : Option String
  passwordHash : Option String
  loginAttempts : Nat
  lockedUntil : Option Instant
  deriving DecidableEq, Repr

/-- A row of `refresh_tokens`, which holds the hash of the token and not the token. -/
structure RefreshToken where
  id : Uuid
  userId : Uuid
  tokenHash : String
  expiresAt : Instant
  revoked : Bool
  rotatedAt : Option Instant
  deriving DecidableEq, Repr

/-- The tables that the sessions live in. -/
inductive Table where
  | users
  | refreshTokens
  deriving DecidableEq, Repr

/-- The entries of the unique indexes. -/
inductive UniqueEntry where
  | username (name : String)
  | tokenHash (hash : String)
  deriving DecidableEq, Repr

namespace Table

abbrev Row : Table → Type
  | users => User
  | refreshTokens => RefreshToken

def decRow : (t : Table) → DecidableEq t.Row
  | users => inferInstanceAs (DecidableEq User)
  | refreshTokens => inferInstanceAs (DecidableEq RefreshToken)

instance (t : Table) : DecidableEq t.Row := t.decRow

def id : (t : Table) → t.Row → Uuid
  | users, r => r.id
  | refreshTokens, r => r.id

/-- The entries of the unique indexes that a row takes up. -/
def entries : (t : Table) → t.Row → List UniqueEntry
  | users, r => (r.username.map .username).toList
  | refreshTokens, r => [.tokenHash r.tokenHash]

/-- The foreign keys. -/
def parents : (t : Table) → t.Row → List (Table × Uuid)
  | users, _ => []
  | refreshTokens, r => [(users, r.userId)]

/-- `ON DELETE`: a user takes the tokens along. -/
def orphaned : (t : Table) → t.Row → Table × Uuid → Option t.Row
  | refreshTokens, _, (users, _) => none
  | _, r, _ => some r

end Table

instance : Schema Table where
  Row := Table.Row
  RowId := Uuid
  Entry := UniqueEntry
  decTable := inferInstance
  decRow := Table.decRow
  decId := inferInstance
  decEntry := inferInstance
  tables := [.users, .refreshTokens]
  key := Table.id
  owner _ _ := none
  secured _ := false
  entries := Table.entries
  parents := Table.parents
  orphaned := Table.orphaned

instance : CompleteSchema Table where
  mem_tables t := by cases t <;> decide

/-- The database. -/
abbrev State := Tables Table

/-- A statement on it. -/
abbrev Statement := Stmt Table

/-- The indexes of the tables hold. -/
structure Indexed (db : State) : Prop where
  keyed : ∀ t : Table, ((db t).map t.id).Nodup
  distinct : ∀ t : Table, NoShare (T := Table) t (db t)

end EspressoLogs.Auth
