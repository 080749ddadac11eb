import EspressoLogs.Lib.Noninterference
import EspressoLogs.Schema

/-!
The code's view of the database: exceptions, statements that raise, and what
each layer of the code is able to do with them.

The layers are sublanguages. `ReadM` only reads; `DbM`, the repositories of the
tenant tables, writes and ends transactions but never chooses the household it
acts for; `TenantM h` is an endpoint acting for household `h`, which may set the
context to `h` again. `AccountM` stays on the tables outside row-level security;
there `LookupM` only reads, `UserM` writes just the users, and `DissolveM h` may
delete the household `h` besides. `AppM` is a whole request.
-/

namespace EspressoLogs

open Lib Py

/-! ### Exceptions and the outside world -/

/-- The `detail` of an `HTTPException`. -/
inductive Detail where
  | text (s : String)
  | texts (ss : List String)
  | coded (error message : String)
  | invalid (loc : List String) (msg : String)
  deriving DecidableEq, Repr

/-- The exceptions that the modelled code raises or lets through. -/
inductive Exc where
  | http (status : Nat) (detail : Detail)
  | db (e : StmtError)
  | multipleResults
  | notRefreshed
  | staleData
  | missingGreenlet
  | valueError
  | keyError
  | overflowError
  | typeError
  | assertionError
  | runtimeError
  | llmError
  | timeout
  deriving DecidableEq, Repr

/-- `HTTPException(status_code=..., detail=...)`. -/
def httpError (status : Nat) (detail : String) : Exc := .http status (.text detail)

/-- What the language model makes of a prompt. -/
inductive LlmOutcome where
  | reply (text : String)
  | llmError
  | timeout
  | crash
  deriving DecidableEq, Repr

/-- What a request sees of the world outside the database: the clock, the
libraries, the network. -/
structure Env where
  today : Date
  now : Timestamp
  /-- `now` less and plus a number of hours. -/
  hoursAgo : Nat → Timestamp
  hoursAhead : Nat → Timestamp
  sha256Hex : String → String
  /-- `repr` of a finite float. -/
  floatRepr : ℚ → String
  /-- `datetime.fromisoformat` of a text that is more than a date, in UTC. -/
  parseDatetime : String → Option Timestamp
  title : String → String
  lower : String → String
  /-- `lower(a) <= lower(b)` under the database's collation. -/
  collates : String → String → Bool
  urlScheme : String → String
  /-- `source_bean_image`, "" also when it fails. -/
  sourceBeanImage : (roaster beanName productUrl : String) → String
  /-- `fetch_image_bytes` and `upload_image`: the path of the stored image. -/
  storeImage : (objectName cdnUrl : String) → Option String
  llm : String → LlmOutcome
  rawToken : String
  encryptToken : String → Option String
  decryptToken : Option String → Option String
  /-- Whether an attribute that a rollback expired can still be read outside an
  awaited call. -/
  expiredReadable : Bool

/-! ### Layers -/

/-- The statements of the code, on the tables of the schema. -/
abbrev Statement := Stmt Table

/-- A statement that only reads. -/
def IsRead : Statement → Prop
  | .currentSetting | .select _ _ | .join _ _ _ _ | .column _ _ => True
  | _ => False

/-- A statement of a repository of the tenant tables. -/
def IsPlain : Statement → Prop
  | .setConfig _ | .deleteCascade _ _ => False
  | _ => True

/-- A statement that is about no tenant table. -/
def OnAccounts : Statement → Prop := Stmt.Spares

/-- Of these, one that only reads. -/
def IsLookup (s : Statement) : Prop := IsRead s ∧ OnAccounts s

/-- Of these, one that reads or writes users. -/
def WritesUsers : Statement → Prop
  | .insert t _ | .update t _ _ | .delete t _ => t = .users
  | .commit | .rollback => True
  | s => IsLookup s

/-- A statement of the deletion of household `h`. -/
def Dissolves (h : Uuid) (s : Statement) : Prop :=
  OnAccounts s ∨ ∃ p, (∀ r, p r = true → r.id = h) ∧ s = .deleteCascade .households p

/-- Code of the application that performs statements of a kind only. -/
abbrev CodeM (P : Statement → Prop) (α : Type) := ProgOf P Resp Exc α

/-- Code that reads under the context that is set. -/
abbrev ReadM := CodeM IsRead
/-- Code that also writes, and leaves the context as it is. -/
abbrev DbM := CodeM IsPlain
/-- Code of an endpoint that acts for `h`. -/
abbrev TenantM (h : Uuid) := CodeM (Stmt.ActsFor (T := Table) h)
/-- Code that reads tables outside row-level security only. -/
abbrev LookupM := CodeM IsLookup
/-- Code that also selects a household for a user. -/
abbrev UserM := CodeM WritesUsers
/-- Code of the account endpoints: it writes tables outside row-level security. -/
abbrev AccountM := CodeM OnAccounts
/-- Account code that may delete household `h`. -/
abbrev DissolveM (h : Uuid) := CodeM (Dissolves h)
/-- A whole request. -/
abbrev AppM := CodeM fun _ => True

theorem IsRead.isPlain (s : Statement) (h : IsRead s) : IsPlain s := by
  cases s <;> trivial

theorem IsLookup.writesUsers (s : Statement) (h : IsLookup s) : WritesUsers s := by
  cases s with
  | insert t make => exact h.1.elim
  | update t p set => exact h.1.elim
  | delete t p => exact h.1.elim
  | commit => trivial
  | rollback => trivial
  | _ => exact h

theorem WritesUsers.onAccounts (s : Statement) (h : WritesUsers s) : OnAccounts s := by
  cases s with
  | insert t make => exact h ▸ rfl
  | update t p set => exact h ▸ rfl
  | delete t p => exact h ▸ rfl
  | commit => trivial
  | rollback => trivial
  | _ => exact h.2

theorem OnAccounts.actsFor (household : Uuid) (s : Statement) (h : OnAccounts s) :
    s.ActsFor (T := Table) household := by
  cases s <;> trivial

theorem IsPlain.actsFor (household : Uuid) (s : Statement) (h : IsPlain s) :
    s.ActsFor (T := Table) household := by
  cases s <;> trivial

/-- Rows of tenant tables that reference the household go with it. -/
theorem household_takesOnly {h : Uuid} {r : Household} (hr : r.id = h) :
    TakesOnly (T := Table) h .households r := by
  subst hr
  intro t ht c hc
  exact ⟨(Table.household_mem_parents ht).mp hc, Table.orphaned_household ht c _⟩

theorem Dissolves.actsFor (household : Uuid) (s : Statement) (h : Dissolves household s) :
    s.ActsFor (T := Table) household := by
  rcases h with h | ⟨p, hp, rfl⟩
  · exact OnAccounts.actsFor household s h
  · exact fun r hr => household_takesOnly (hp r hr)

instance : MonadLift ReadM DbM := ⟨fun p => p.weaken IsRead.isPlain⟩
instance : MonadLift LookupM UserM := ⟨fun p => p.weaken IsLookup.writesUsers⟩
instance : MonadLift LookupM AccountM := ⟨fun p => p.weaken fun _ => And.right⟩
instance : MonadLift UserM AccountM := ⟨fun p => p.weaken WritesUsers.onAccounts⟩
instance (h : Uuid) : MonadLift DbM (TenantM h) := ⟨fun p => p.weaken (IsPlain.actsFor h)⟩
instance (h : Uuid) : MonadLift AccountM (TenantM h) :=
  ⟨fun p => p.weaken (OnAccounts.actsFor h)⟩
instance (h : Uuid) : MonadLift AccountM (DissolveM h) := ⟨fun p => p.weaken fun _ => .inl⟩
instance (h : Uuid) : MonadLift (DissolveM h) (TenantM h) :=
  ⟨fun p => p.weaken (Dissolves.actsFor h)⟩
instance : MonadLift AccountM AppM := ⟨fun p => p.weaken fun _ _ => trivial⟩

/-- An endpoint as part of a whole request. -/
def TenantM.asApp {h : Uuid} {α : Type} (p : TenantM h α) : AppM α := p.weaken fun _ _ => trivial

/-! ### Statements that raise -/

section Statements

variable {P : Statement → Prop} {α : Type}

/-- Performs a statement and raises what the database reports. -/
def ask (s : Statement) (hs : P s) : CodeM P (Ans s) where
  prog := .op s fun
    | .ok a => .pure a
    | .error e => .raise (.db e)
  within := ⟨hs, fun r => by cases r <;> trivial⟩

/-- `current_setting('app.household_id')`, null when it was never set in the
transaction. -/
def currentSetting : ReadM (Option Uuid) := ask .currentSetting trivial

/-- `SELECT ... WHERE`, in the order of the table. -/
def select (t : Table) (p : t.Row → Bool) : ReadM (List t.Row) := ask (.select t p) trivial

/-- A left outer join of two tables. -/
def leftJoin (t u : Table) (on : t.Row → u.Row → Bool) (p : t.Row → Bool) :
    ReadM (List (t.Row × Option u.Row)) :=
  ask (.join t u on p) trivial

/-- `SELECT` of one column; null is left out. -/
def column (t : Table) (c : t.Row → Option String) : ReadM (List String) :=
  ask (.column t c) trivial

/-- Reads of tables that are not the tenants'. -/
def lookup (t : Table) (p : t.Row → Bool)
    (ht : t.tenantScoped = false := by exact Eq.refl false) :
    LookupM (List t.Row) :=
  ask (.select t p) ⟨trivial, ht⟩

/-- A left outer join of tables outside row-level security. -/
def lookupJoin (t u : Table) (on : t.Row → u.Row → Bool) (p : t.Row → Bool)
    (ht : t.tenantScoped = false ∧ u.tenantScoped = false := by exact ⟨rfl, rfl⟩) :
    LookupM (List (t.Row × Option u.Row)) :=
  ask (.join t u on p) ⟨trivial, ht⟩

/-- `set_config('app.household_id', ..., true)`: until the transaction ends. -/
def setConfig (h : Uuid) : TenantM h Unit := ask (.setConfig h) rfl

/-- A `DELETE` of a household, which takes with it or nulls what refers to it. -/
def deleteHouseholds {h : Uuid} (p : Household → Bool) (hp : ∀ r, p r = true → r.id = h) :
    DissolveM h (List Household) :=
  ask (.deleteCascade .households p) (.inr ⟨p, hp, rfl⟩)

namespace DbM

def insert (t : Table) (make : Uuid → Except StmtError t.Row) : DbM t.Row := ask (.insert t make) trivial

def update (t : Table) (p : t.Row → Bool) (set : t.Row → Except StmtError t.Row) : DbM (List t.Row) :=
  ask (.update t p set) trivial

def delete (t : Table) (p : t.Row → Bool) : DbM (List t.Row) := ask (.delete t p) trivial

def commit : DbM Unit := ask .commit trivial

def rollback : DbM Unit := ask .rollback trivial

end DbM

namespace UserM

def update (p : User → Bool) (set : User → Except StmtError User) : UserM (List User) :=
  ask (.update .users p set) rfl

def commit : UserM Unit := ask .commit trivial

end UserM

namespace AccountM

def insert (t : Table) (make : Uuid → Except StmtError t.Row)
    (ht : t.tenantScoped = false := by exact Eq.refl false) :
    AccountM t.Row :=
  ask (.insert t make) ht

def update (t : Table) (p : t.Row → Bool) (set : t.Row → Except StmtError t.Row)
    (ht : t.tenantScoped = false := by exact Eq.refl false) : AccountM (List t.Row) :=
  ask (.update t p set) ht

def delete (t : Table) (p : t.Row → Bool)
    (ht : t.tenantScoped = false := by exact Eq.refl false) :
    AccountM (List t.Row) :=
  ask (.delete t p) ht

def commit : AccountM Unit := ask .commit trivial

end AccountM

/-- `scalar_one_or_none`. -/
def oneOrNone : List α → CodeM P (Option α)
  | [] => pure none
  | [a] => pure (some a)
  | _ => throw .multipleResults

/-- Raises unless a value was obtained. -/
def orRaise (e : Exc) : Option α → CodeM P α
  | some a => pure a
  | none => throw e

/-- `refresh` of a row just written, by its primary key. -/
def refresh (t : Table) (row : t.Row) : ReadM t.Row := do
  orRaise .notRefreshed (← oneOrNone (← select t fun r => t.id r == t.id row))

/-- `refresh` of a row that is not a tenant's. -/
def AccountM.refresh (t : Table) (row : t.Row)
    (ht : t.tenantScoped = false := by exact Eq.refl false) :
    AccountM t.Row := do
  orRaise .notRefreshed (← oneOrNone (← lookup t (fun r => t.id r == t.id row) ht))

end Statements

end EspressoLogs
