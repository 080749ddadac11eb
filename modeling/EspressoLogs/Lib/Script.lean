import EspressoLogs.Lib.Upsert

/-!
Scripts: programs that open their transactions themselves.

A `transaction` ends with a commit, or rolls back whatever failed in it; a `connection`
only reads. Between two of them nothing is pending (`Idle`), so that a script is told
transaction by transaction (`of_transaction`).
-/

namespace EspressoLogs.Lib

open Schema

/-! ### Statements -/

/-- The statements of a script: those of a session, and the inserts that mind a conflict. -/
inductive Command (T : Type) [Schema T] (K : Type) where
  | plain (s : Stmt T)
  | upsert (t : T) (column : Row t → Option K) (ps : List (Proposal K t))
  | insertUnless (t : T) (conflicting : Row t → Bool) (make : RowId T → Except StmtError (Row t))

variable {T : Type} [Schema T] {K E α β : Type} [DecidableEq K]

namespace Command

/-- What a command answers. -/
abbrev Answer : Command T K → Type
  | plain s => Ans s
  | upsert _ _ _ => Unit
  | insertUnless t _ _ => Option (Row t)

abbrev Result (c : Command T K) : Type := Except StmtError c.Answer

/-- How a command acts on the world. -/
def exec : (c : Command T K) → World T → c.Result × World T
  | plain s, w => w.exec s
  | upsert _ column ps, w => w.upsert column ps
  | insertUnless _ conflicting make, w => w.insertUnless conflicting make

end Command

/-- A script. What a statement raises is not said here. -/
abbrev Script (T : Type) [Schema T] (K E α : Type) := Prog (Command T K) Command.Result E α

namespace Script

variable (raised : StmtError → E)

/-- A command as a script, whose failure is raised. -/
def perform (c : Command T K) : Script T K E c.Answer :=
  .op c fun
    | .ok a => .pure a
    | .error e => .raise (raised e)

/-- The body, and then the statement that ends its transaction. -/
def endedBy (s : Stmt T) (body : Script T K E α) : Script T K E α := do
  let a ← body
  discard (perform raised (.plain s))
  return a

/-- Rolls back and raises. -/
def undo (e : E) : Script T K E α := do
  discard (perform raised (.plain .rollback))
  throw e

/-- `async with engine.begin()`: what fails is rolled back. -/
def transaction (body : Script T K E α) : Script T K E α :=
  tryCatch (endedBy raised .commit body) (undo raised)

/-- `async with engine.connect()`: what was read is dropped. -/
def connection (body : Script T K E α) : Script T K E α :=
  tryCatch (endedBy raised .rollback body) (undo raised)

/-! ### Runs -/

/-- A script runs on a world, as any program does. -/
abbrev runOn (p : Script T K E α) (w : World T) : Except E α × World T := Prog.run Command.exec p w

variable {raised : StmtError → E} {w w' : World T} {p : Script T K E α} {f : α → Script T K E β}

/-- A run ends in its first part, or goes on with what that came to. -/
theorem of_bind {r : Except E β} (h : (p >>= f).runOn w = (r, w')) :
    (∃ a w₁, p.runOn w = (.ok a, w₁) ∧ (f a).runOn w₁ = (r, w')) ∨
      ∃ e, p.runOn w = (.error e, w') ∧ r = .error e := by
  cases first : p.runOn w with
  | mk x w₁ =>
      cases x with
      | ok a => exact .inl ⟨a, w₁, rfl, (Prog.run_bind_ok first).symm.trans h⟩
      | error e =>
          cases (Prog.run_bind_error first).symm.trans h
          exact .inr ⟨e, rfl, rfl⟩

/-- A composition that returned has returned from both of its parts. -/
theorem of_bind_ok {b : β} (h : (p >>= f).runOn w = (.ok b, w')) :
    ∃ a w₁, p.runOn w = (.ok a, w₁) ∧ (f a).runOn w₁ = (.ok b, w') := by
  rcases of_bind h with ends | ⟨e, _, none⟩
  · exact ends
  · cases none

/-- A command that succeeds. -/
theorem run_perform {c : Command T K} {a : c.Answer} (h : c.exec w = (.ok a, w')) :
    (perform raised c).runOn w = (.ok a, w') := by
  show Prog.run Command.exec (match (c.exec w).1 with
    | .ok a => .pure a
    | .error e => .raise (raised e)) (c.exec w).2 = _
  rw [h]
  rfl

/-- A command that fails raises what the driver makes of it. -/
theorem run_perform_error {c : Command T K} {e : StmtError} (h : c.exec w = (.error e, w')) :
    (perform raised c).runOn w = (.error (raised e), w') := by
  show Prog.run Command.exec (match (c.exec w).1 with
    | .ok a => .pure a
    | .error e => .raise (raised e)) (c.exec w).2 = _
  rw [h]
  rfl

theorem of_perform {c : Command T K} {a : c.Answer} (h : (perform raised c).runOn w = (.ok a, w')) :
    c.exec w = (.ok a, w') := by
  cases performed : c.exec w with
  | mk x w₁ =>
      cases x with
      | ok b =>
          cases (run_perform performed).symm.trans h
          rfl
      | error e => cases (run_perform_error performed).symm.trans h

/-- A statement that was performed without a fault. -/
theorem of_plain {s : Stmt T} {a : Ans s} (unending : s ≠ .rollback)
    (h : (perform raised (.plain s : Command T K)).runOn w = (.ok a, w')) :
    w.advance.perform s = (.ok a, w') := by
  have performed : w.exec s = (.ok a, w') := of_perform h
  cases s with
  | rollback => exact absurd rfl unending
  | currentSetting | setConfig | select | join | column | insert | update | delete | deleteCascade
  | commit =>
      simp only [World.exec] at performed
      split at performed
      · cases performed
      · split at performed
        · cases performed
        · exact performed

theorem run_plain {s : Stmt T} {a : Ans s} (live : w.Live) (h : w.perform s = (.ok a, w')) :
    (perform raised (.plain s : Command T K)).runOn w = (.ok a, w') :=
  run_perform ((World.exec_of_live live s).trans h)

/-! ### Transactions -/

/-- Between two transactions: nothing is pending, no household is set. -/
structure Idle (w : World T) : Prop where
  pending : w.session.pending = fun _ => []
  failed : w.session.failed = false
  context : w.session.context = none

/-- An idle session sees the database. -/
theorem Idle.view (idle : Idle w) : w.view = w.db := by
  funext t
  unfold World.view
  rw [idle.pending]
  rfl

theorem idle_undone (w : World T) : Idle w.undone := ⟨rfl, rfl, rfl⟩

theorem idle_committed (w : World T) : Idle w.committed := ⟨rfl, rfl, rfl⟩

/-- Only a commit changes the database. -/
theorem exec_db {c : Command T K} (uncommitting : c ≠ .plain .commit) (w : World T) :
    (c.exec w).2.db = w.db := by
  cases c with
  | plain s => exact World.exec_db (fun commits => uncommitting (commits ▸ rfl)) w
  | upsert t column ps => exact World.upsert_db column ps w
  | insertUnless t conflicting make => exact World.insertUnless_db conflicting make w

/-- What is stored stays as it is while the script runs. -/
def Uncommitted (p : Script T K E α) : Prop := p.All (· ≠ .plain .commit)

/-- So a script without one leaves it as it is. -/
theorem Uncommitted.db (kept : Uncommitted p) (w : World T) : (p.runOn w).2.db = w.db :=
  Prog.All.run_invariant Command.exec (I := fun v => v.db = w.db)
    (fun _ v uncommitting same => (exec_db uncommitting v).trans same) kept rfl

omit [DecidableEq K] in
theorem uncommitted_perform {c : Command T K} (uncommitting : c ≠ .plain .commit) :
    Uncommitted (perform raised c) := by
  refine ⟨uncommitting, fun r => ?_⟩
  cases r with
  | ok | error => trivial

theorem run_undo (e : E) (w : World T) :
    (undo raised e : Script T K E α).runOn w = (.error e, w.undone) := rfl

theorem run_catch_ok {k : E → Script T K E α} {a : α} (h : p.runOn w = (.ok a, w')) :
    (tryCatch p k).runOn w = (.ok a, w') := Prog.run_catch_ok h

theorem run_catch_error {k : E → Script T K E α} {e : E} (h : p.runOn w = (.error e, w')) :
    (tryCatch p k).runOn w = (k e).runOn w' := Prog.run_catch_error h

/-- The statement at the end may fail by itself. -/
theorem run_endedBy {s : Stmt T} {a : α} {w₁ : World T} {u : Ans s} (h : p.runOn w = (.ok a, w₁))
    (ends : w₁.exec s = (.ok u, w')) : (endedBy raised s p).runOn w = (.ok a, w') :=
  (Prog.run_bind_ok h).trans (Prog.run_bind_ok (Prog.run_bind_ok (run_perform (c := .plain s) ends)))

theorem run_endedBy_error {s : Stmt T} {a : α} {w₁ : World T} {e : StmtError}
    (h : p.runOn w = (.ok a, w₁)) (fails : w₁.exec s = (.error e, w')) :
    (endedBy raised s p).runOn w = (.error (raised e), w') :=
  (Prog.run_bind_ok h).trans
    (Prog.run_bind_error (Prog.run_bind_error (run_perform_error (c := .plain s) fails)))

/-- A commit stores what the session sees, or nothing. -/
theorem exec_commit_cases (w : World T) : w.exec .commit = (.ok (), w.advance.committed) ∨
    ∃ e, (w.exec .commit).1 = .error e ∧ (w.exec .commit).2.db = w.db := by
  simp only [World.exec]
  split
  · exact .inr ⟨_, rfl, rfl⟩
  · split
    · exact .inr ⟨_, rfl, rfl⟩
    · exact .inl rfl

/-- How a transaction ends: with what it made of the tables, or with them as they were. -/
theorem of_transaction {r : Except E α} (kept : Uncommitted p)
    (h : (transaction raised p).runOn w = (r, w')) :
    Idle w' ∧ ((∃ e, r = .error e ∧ w'.db = w.db) ∨
      ∃ a w₁, r = .ok a ∧ p.runOn w = (.ok a, w₁) ∧ w'.db = w₁.view) := by
  have same := kept.db w
  cases body : p.runOn w with
  | mk x w₁ =>
      rw [body] at same
      cases x with
      | error e =>
          have raises : (endedBy raised .commit p).runOn w = (.error e, w₁) :=
            Prog.run_bind_error body
          cases ((run_catch_error raises).trans (run_undo e w₁)).symm.trans h
          exact ⟨idle_undone w₁, .inl ⟨e, rfl, same⟩⟩
      | ok a =>
          rcases exec_commit_cases w₁ with done | ⟨e, failed, still⟩
          · cases (run_catch_ok (run_endedBy body done)).symm.trans h
            exact ⟨idle_committed _, .inr ⟨a, w₁, rfl, rfl, rfl⟩⟩
          · have ends : w₁.exec .commit = (.error e, (w₁.exec .commit).2) :=
              Prod.ext failed rfl
            cases ((run_catch_error (run_endedBy_error body ends)).trans
              (run_undo _ _)).symm.trans h
            exact ⟨idle_undone _, .inl ⟨_, rfl, still.trans same⟩⟩

/-- A transaction whose commit succeeds. -/
theorem run_transaction {a : α} {w₁ : World T} (h : p.runOn w = (.ok a, w₁)) (live : w₁.Live) :
    (transaction raised p).runOn w = (.ok a, w₁.committed) := by
  have commits : w₁.exec .commit = (.ok (), w₁.committed) := World.exec_of_live live .commit
  exact run_catch_ok (run_endedBy h commits)

/-- A connection is rolled back when it is closed. -/
theorem run_connection {a : α} {w₁ : World T} (h : p.runOn w = (.ok a, w₁)) :
    (connection raised p).runOn w = (.ok a, w₁.undone) := by
  have drops : w₁.exec .rollback = (.ok (), w₁.undone) := rfl
  exact run_catch_ok (run_endedBy h drops)

/-- A connection leaves everything as it is. -/
theorem of_connection {r : Except E α} (kept : Uncommitted p)
    (h : (connection raised p).runOn w = (r, w')) : Idle w' ∧ w'.db = w.db ∧
      ∀ a, r = .ok a → ∃ w₁, p.runOn w = (.ok a, w₁) := by
  have same := kept.db w
  cases body : p.runOn w with
  | mk x w₁ =>
      rw [body] at same
      cases x with
      | error e =>
          have raises : (endedBy raised .rollback p).runOn w = (.error e, w₁) :=
            Prog.run_bind_error body
          cases ((run_catch_error raises).trans (run_undo e w₁)).symm.trans h
          exact ⟨idle_undone w₁, same, fun _ done => by cases done⟩
      | ok a =>
          cases (run_connection body).symm.trans h
          exact ⟨idle_undone w₁, same, fun b done => ⟨w₁, by cases done; rfl⟩⟩

end Script

end EspressoLogs.Lib
