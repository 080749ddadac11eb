import EspressoLogs.Lib.Store

/-!
A role that bypasses row-level security.

`Bypass T` are the tables of `T` as such a role reaches them: the same rows and
the same constraints, with no table secured. A statement over `T` is performed in
a world over `Bypass T`, so that a program is run for such a role as it is.
-/

namespace EspressoLogs.Lib

open Schema

/-- A table as a role that bypasses row-level security reaches it. -/
structure Bypass (T : Type) where
  table : T

namespace Bypass

variable {T : Type} [Schema T]

instance : Schema (Bypass T) where
  Row t := Row t.table
  RowId := RowId T
  Entry := Entry T
  decTable a b := decidable_of_iff (a.table = b.table) (by cases a; cases b; simp)
  decRow t := decRow t.table
  decId := decId
  decEntry := decEntry
  tables := tables.map mk
  key t := key t.table
  owner t := owner t.table
  secured _ := false
  entries t := entries t.table
  parents t r := (parents t.table r).map fun p => (⟨p.1⟩, p.2)
  orphaned t r p := orphaned t.table r (p.1.table, p.2)

/-- The rows as the role reaches them. -/
def tablesOf (db : Tables T) : Tables (Bypass T) := fun t => db t.table

/-- The rows, whoever reaches them. -/
def rowsOf (db : Tables (Bypass T)) : Tables T := fun t => db ⟨t⟩

/-- Performs a statement for the role. -/
def exec : (s : Stmt T) → World (Bypass T) → Resp s × World (Bypass T)
  | .currentSetting, w => World.exec (T := Bypass T) .currentSetting w
  | .setConfig value, w => World.exec (T := Bypass T) (.setConfig value) w
  | .select t p, w => World.exec (T := Bypass T) (.select ⟨t⟩ p) w
  | .join t u on p, w => World.exec (T := Bypass T) (.join ⟨t⟩ ⟨u⟩ on p) w
  | .column t c, w => World.exec (T := Bypass T) (.column ⟨t⟩ c) w
  | .insert t make, w => World.exec (T := Bypass T) (.insert ⟨t⟩ make) w
  | .update t p set, w => World.exec (T := Bypass T) (.update ⟨t⟩ p set) w
  | .delete t p, w => World.exec (T := Bypass T) (.delete ⟨t⟩ p) w
  | .deleteCascade t p, w => World.exec (T := Bypass T) (.deleteCascade ⟨t⟩ p) w
  | .commit, w => World.exec (T := Bypass T) .commit w
  | .rollback, w => World.exec (T := Bypass T) .rollback w

/-- What is stored changes at a commit only. -/
theorem exec_db {s : Stmt T} (uncommitting : s ≠ .commit) (w : World (Bypass T)) :
    (exec s w).2.db = w.db := by
  cases s with
  | currentSetting => exact World.exec_db (T := Bypass T) (s := .currentSetting) nofun w
  | setConfig value => exact World.exec_db (T := Bypass T) (s := .setConfig value) nofun w
  | select t p => exact World.exec_db (T := Bypass T) (s := .select ⟨t⟩ p) nofun w
  | join t u on p => exact World.exec_db (T := Bypass T) (s := .join ⟨t⟩ ⟨u⟩ on p) nofun w
  | column t c => exact World.exec_db (T := Bypass T) (s := .column ⟨t⟩ c) nofun w
  | insert t make => exact World.exec_db (T := Bypass T) (s := .insert ⟨t⟩ make) nofun w
  | update t p set => exact World.exec_db (T := Bypass T) (s := .update ⟨t⟩ p set) nofun w
  | delete t p => exact World.exec_db (T := Bypass T) (s := .delete ⟨t⟩ p) nofun w
  | deleteCascade t p => exact World.exec_db (T := Bypass T) (s := .deleteCascade ⟨t⟩ p) nofun w
  | commit => exact absurd rfl uncommitting
  | rollback => exact World.exec_db (T := Bypass T) (s := .rollback) nofun w

/-- A commit that failed has changed nothing. -/
theorem exec_commit_error {w w' : World (Bypass T)} {e : StmtError}
    (h : exec (T := T) .commit w = (.error e, w')) : w'.db = w.db := by
  have performed : exec (T := T) .commit w = if w.session.failed then (.error .aborted, w)
      else if w.session.faults.headD false then w.advance.fail .operational
      else w.advance.perform .commit := rfl
  rw [performed] at h
  split at h
  · cases h
    rfl
  · split at h
    · cases h
      rfl
    · cases h

/-! ### In a live world -/

section Live

variable {w : World (Bypass T)} (live : w.Live)

include live

theorem exec_currentSetting : exec (T := T) .currentSetting w = (.ok w.session.context, w) :=
  World.exec_of_live (T := Bypass T) live .currentSetting

theorem exec_commit : exec (T := T) .commit w = (.ok (), w.committed) :=
  World.exec_of_live (T := Bypass T) live .commit

/-- The role sees every row. -/
theorem exec_select (t : T) (p : Row t → Bool) :
    exec (.select t p) w = (.ok ((w.view ⟨t⟩).filter p), w) := by
  have performed := World.exec_of_live (T := Bypass T) live (.select ⟨t⟩ p)
  have sees := World.visible_of_unsecured (w := w) (t := (⟨t⟩ : Bypass T)) rfl
  refine Eq.trans performed ?_
  rw [World.perform, sees]
  rfl

/-- A row may be inserted for any household, or for none. -/
theorem exec_insert {t : T} {make : RowId T → Except StmtError (Row t)} {r : Row t}
    (made : make w.nextId = .ok r) (fits : w.refused (T := Bypass T) ⟨t⟩ (.ins r) = none) :
    exec (.insert t make) w = (.ok r, w.drew.pend (T := Bypass T) ⟨t⟩ (.ins r)) := by
  refine Eq.trans (World.exec_of_live (T := Bypass T) live (.insert ⟨t⟩ make)) ?_
  exact World.perform_insert (T := Bypass T) (t := ⟨t⟩) made fits

/-- The constraints hold for the role as well. -/
theorem exec_insert_refused {t : T} {make : RowId T → Except StmtError (Row t)} {r : Row t}
    {e : StmtError} (made : make w.nextId = .ok r)
    (verdict : w.refused (T := Bypass T) ⟨t⟩ (.ins r) = some e) :
    exec (.insert t make) w = (.error e, w.drew.aborted) := by
  refine Eq.trans (World.exec_of_live (T := Bypass T) live (.insert ⟨t⟩ make)) ?_
  exact World.perform_insert_refused (T := Bypass T) (t := ⟨t⟩) made verdict

/-- A row that cannot be made aborts the transaction. -/
theorem exec_insert_invalid {t : T} {make : RowId T → Except StmtError (Row t)} {e : StmtError}
    (made : make w.nextId = .error e) : exec (.insert t make) w = (.error e, w.aborted) := by
  refine Eq.trans (World.exec_of_live (T := Bypass T) live (.insert ⟨t⟩ make)) ?_
  exact World.perform_insert_invalid (T := Bypass T) (t := ⟨t⟩) made

/-- An update that finds one row. -/
theorem exec_update {t : T} {p : Row t → Bool} {set : Row t → Except StmtError (Row t)}
    {old new : Row t} (found : (w.view ⟨t⟩).filter p = [old]) (valid : set old = .ok new)
    (fits : w.refused (T := Bypass T) ⟨t⟩ (.upd [(old, new)]) = none) :
    exec (.update t p set) w = (.ok [new], w.pend (T := Bypass T) ⟨t⟩ (.upd [(old, new)])) := by
  have sees := World.visible_of_unsecured (w := w) (t := (⟨t⟩ : Bypass T)) rfl
  have rows : (w.visible (T := Bypass T) ⟨t⟩).filter p = [old] := sees ▸ found
  have pairs : rewritten set [old] = [(old, new)] := by simp [rewritten, valid, Except.toOption]
  refine Eq.trans (World.exec_of_live (T := Bypass T) live (.update ⟨t⟩ p set)) ?_
  refine Eq.trans (World.perform_update (T := Bypass T) (t := ⟨t⟩) ?_ ?_) ?_
  · rw [rows]
    intro r hr
    rw [List.mem_singleton.mp hr, valid]
    rfl
  · rw [rows, pairs]
    exact fits
  · rw [rows, pairs]
    rfl

/-- An update that a constraint refuses aborts the transaction. -/
theorem exec_update_refused {t : T} {p : Row t → Bool} {set : Row t → Except StmtError (Row t)}
    {old new : Row t} {e : StmtError} (found : (w.view ⟨t⟩).filter p = [old])
    (valid : set old = .ok new)
    (verdict : w.refused (T := Bypass T) ⟨t⟩ (.upd [(old, new)]) = some e) :
    exec (.update t p set) w = (.error e, w.aborted) := by
  have sees := World.visible_of_unsecured (w := w) (t := (⟨t⟩ : Bypass T)) rfl
  have rows : (w.visible (T := Bypass T) ⟨t⟩).filter p = [old] := sees ▸ found
  have pairs : rewritten set [old] = [(old, new)] := by simp [rewritten, valid, Except.toOption]
  refine Eq.trans (World.exec_of_live (T := Bypass T) live (.update ⟨t⟩ p set)) ?_
  refine World.perform_update_refused (T := Bypass T) (t := ⟨t⟩) ?_ ?_
  · rw [rows]
    intro r hr
    rw [List.mem_singleton.mp hr, valid]
    rfl
  · rw [rows, pairs]
    exact verdict

/-- So does a value that cannot be stored. -/
theorem exec_update_invalid {t : T} {p : Row t → Bool} {set : Row t → Except StmtError (Row t)}
    {old : Row t} {e : StmtError} (found : (w.view ⟨t⟩).filter p = [old])
    (invalid : set old = .error e) : exec (.update t p set) w = (.error e, w.aborted) := by
  have sees := World.visible_of_unsecured (w := w) (t := (⟨t⟩ : Bypass T)) rfl
  have rows : (w.visible (T := Bypass T) ⟨t⟩).filter p = [old] := sees ▸ found
  refine Eq.trans (World.exec_of_live (T := Bypass T) live (.update ⟨t⟩ p set)) ?_
  refine World.perform_update_invalid (T := Bypass T) (t := ⟨t⟩) ?_
  rw [rows, List.findSome?_cons, invalid]
  rfl

end Live

end Bypass

end EspressoLogs.Lib
