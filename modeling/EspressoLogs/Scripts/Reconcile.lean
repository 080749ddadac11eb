import EspressoLogs.Lib.Isolation
import EspressoLogs.Py.Fixed
import EspressoLogs.Startup.Backfill
import Mathlib.Data.List.ReduceOption

/-!
`brew_log_reconcile.py`: the rows of the sheet that the database does not have.

All missing rows are inserted through one session, each in a `try` of its own.
The session is blocked by the first row that the database rejects, and nothing
rolls it back: of the rows after it none is inserted.
-/

namespace EspressoLogs.Reconcile

open Lib Py

/-! ### The script -/

/-- `str(v)`. -/
def str (env : Env) : Val → String
  | .none => "None"
  | .str s => s
  | .int i => toString i
  | .float (.fin q) => env.floatRepr q
  | .float (.inf negative) => if negative then "-inf" else "inf"
  | .float .nan => "nan"
  | .uuid u => u.text

/-- `str(row.get(key) or "")`. -/
def textAt (env : Env) (row : Dict) (key : String) : String := str env ((row.get key).or (.str ""))

def shotId (env : Env) (row : Dict) : String := textAt env row "Shot_ID"

/-- The options that narrow the rows down. -/
structure Args where
  since : Option Date
  til : Option Date
  shotIds : List String

/-- A day by the order of days. -/
def dayRank (d : Date) : Nat := d.year * 10000 + d.month * 100 + d.day

def Args.inRange (args : Args) (d : Date) : Bool :=
  args.since.all (fun since => dayRank since ≤ dayRank d) &&
    args.til.all fun til => dayRank d ≤ dayRank til

/-- The row, if `_filter_rows` keeps it. -/
def keepRow (env : Env) (args : Args) (row : Dict) : Except Exc (Option Dict) :=
  let id := strip (shotId env row)
  if id = "" ∨ (args.shotIds ≠ [] ∧ id ∉ args.shotIds) then .ok none
  else if args.since.isNone ∧ args.til.isNone then .ok (some row)
  else match Date.fromIsoformat
      (String.ofList ((strip (textAt env row "Date")).toList.take 10)) with
    | some brewedOn => .ok (if args.inRange brewedOn then some row else none)
    | none => .error .valueError

/-- `_filter_rows`. -/
def filterRows (env : Env) (args : Args) (rows : List Dict) : Except Exc (List Dict) := do
  return (← rows.mapM (keepRow env args)).reduceOption

/-- `_apply_missing`: how many rows failed. -/
def applyMissing (env : Env) (rows : List Dict) : DbM Nat :=
  rows.foldlM (fun failures row => tryCatch (do
    SqlBrewLogRepo.add env row true
    return failures) fun _ => return failures + 1) 0

/-- What a run of the script comes to. -/
inductive Report where
  | noDrift
  | drift (missing : Nat)
  | applied (inserted failures : Nat)
  deriving DecidableEq, Repr

def Report.exitCode : Report → Nat
  | noDrift => 0
  | drift _ => 1
  | applied _ failures => if failures = 0 then 0 else 1

/-- `_run`, over the rows of the sheet. -/
def run (env : Env) (args : Args) (apply : Bool) (sheet : List Dict) : DbM Report := do
  let sheetsRows ← liftExcept (filterRows env args sheet)
  let postgresIds ← SqlBrewLogRepo.listExistingIds
  let missingRows := sheetsRows.filter fun row => shotId env row ∉ postgresIds
  if missingRows.isEmpty then
    return .noDrift
  if !apply then
    return .drift missingRows.length
  let failures ← applyMissing env missingRows
  return .applied (missingRows.length - failures) failures

/-! ### Sessions -/

/-- The roles that the script can log in with: row-level security binds the one, the
other bypasses it. -/
inductive Role where
  | bound
  | bypassing
  deriving DecidableEq, Repr

namespace Role

abbrev World : Role → Type
  | bound => Lib.World Table
  | bypassing => Lib.World (Bypass Table)

/-- Performs a statement for the role. -/
def exec : (role : Role) → (s : Statement) → role.World → Resp s × role.World
  | bound => Lib.World.exec
  | bypassing => Bypass.exec

def run (role : Role) {P : Statement → Prop} {α : Type} (p : CodeM P α) (w : role.World) :
    Except Exc α × role.World :=
  p.prog.run role.exec w

/-- A session that was just opened. -/
def opened : (role : Role) → (supply : Nat → Uuid) → (db : State) → role.World
  | bound, supply, db => { db, session := Session.idle (T := Table) supply }
  | bypassing, supply, db => startupWorld supply db

/-- What is stored. -/
def stored : (role : Role) → role.World → State
  | bound, w => Lib.World.db w
  | bypassing, w => Bypass.rowsOf (Lib.World.db w)

/-- The transaction is aborted. -/
def blocked : (role : Role) → role.World → Bool
  | bound, w => (Lib.World.session w).failed
  | bypassing, w => (Lib.World.session w).failed

/-- The world after a rollback. -/
def undone : (role : Role) → role.World → role.World
  | bound, w => Lib.World.undone w
  | bypassing, w => Lib.World.undone w

end Role

/-- One row in a `try` of its own. -/
def attempt (env : Env) (role : Role) (row : Dict) (w : role.World) : Bool × role.World :=
  let ended := role.run (SqlBrewLogRepo.add env row true) w
  (ended.1.toOption.isSome, ended.2)

section Row

variable (env : Env) (row : Dict)

/-- What `add` reads off a row before it speaks to the database. -/
def readRow (row : Dict) : Except Exc (Option Uuid × Option Int × Option Int) := do
  let owner ← parseUuid ((row.get "household_id").or (row.get "Household_ID"))
  let timeSec ← SqlBrewLogRepo.toInt (row.get "Time_Sec")
  let rating ← SqlBrewLogRepo.toInt (row.get "Rating")
  return (owner, timeSec, rating)

/-- What `add` does with it. -/
def addRead (read : Option Uuid × Option Int × Option Int) : DbM Unit := do
  let householdId ← match read.1 with
    | some h => pure (some h)
    | none => currentHouseholdId
  let entry ← DbM.insert .brewLog (SqlBrewLogRepo.make env row householdId read.2.1 read.2.2)
  discard (refresh .brewLog entry)
  DbM.commit

variable {env row}

theorem add_unread {e : Exc} (unread : readRow row = .error e) :
    (SqlBrewLogRepo.add env row true).prog = .raise e := by
  unfold readRow at unread
  unfold SqlBrewLogRepo.add
  cases owner : parseUuid ((row.get "household_id").or (row.get "Household_ID")) with
  | error e' =>
      rw [owner] at unread
      cases unread
      rfl
  | ok h =>
      rw [owner, ok_bind] at unread
      cases timeSec : SqlBrewLogRepo.toInt (row.get "Time_Sec") with
      | error e' =>
          rw [timeSec] at unread
          cases unread
          rfl
      | ok t =>
          rw [timeSec, ok_bind] at unread
          cases rating : SqlBrewLogRepo.toInt (row.get "Rating") with
          | error e' =>
              rw [rating] at unread
              cases unread
              rfl
          | ok n =>
              rw [rating] at unread
              cases unread

theorem add_read {read : Option Uuid × Option Int × Option Int} (eq : readRow row = .ok read) :
    (SqlBrewLogRepo.add env row true).prog = (addRead env row read).prog := by
  unfold readRow at eq
  obtain ⟨owner, hOwner, eq⟩ := bind_eq_ok eq
  obtain ⟨timeSec, hTime, eq⟩ := bind_eq_ok eq
  obtain ⟨rating, hRating, eq⟩ := bind_eq_ok eq
  cases eq
  unfold SqlBrewLogRepo.add addRead
  rw [hOwner, hTime, hRating]
  rfl

omit env in
/-- What a row that was made has from the dictionary. -/
theorem make_shot {env : Env} {h : Option Uuid} {timeSec rating : Option Int} {id : Uuid} {r : BrewLog}
    (made : SqlBrewLogRepo.make env row h timeSec rating id = .ok r) :
    r.id = id ∧ asText (row.get "Shot_ID") = .ok r.sheetsId := by
  unfold SqlBrewLogRepo.make at made
  obtain ⟨sheetsId, text, made⟩ := bind_eq_ok made
  repeat obtain ⟨_, _, made⟩ := bind_eq_ok made
  cases made
  exact ⟨rfl, text⟩

/-! For the role that bypasses row-level security. -/

section Bypassing

variable {w : Lib.World (Bypass Table)} (rest : Resting w)

include rest

/-- A row that was inserted, and the only one with its id, can be read again. -/
theorem runFor_refresh {r : BrewLog} (fresh : ∀ x ∈ w.db ⟨.brewLog⟩, Table.id .brewLog x ≠ r.id) :
    (discard (refresh .brewLog r) : ReadM Unit).runFor
        (w.drew.pend (T := Bypass Table) ⟨.brewLog⟩ (.ins r)) =
      (.ok (), w.drew.pend (T := Bypass Table) ⟨.brewLog⟩ (.ins r)) := by
  have live : (w.drew.pend (T := Bypass Table) ⟨.brewLog⟩ (.ins r)).Live := rest.live.drew.pend _ _
  have viewed : ((w.drew.pend (T := Bypass Table) ⟨.brewLog⟩ (.ins r)).view ⟨.brewLog⟩).filter
      (fun x => Table.id .brewLog x == Table.id .brewLog r) = [r] := by
    have rows : (w.drew.pend (T := Bypass Table) ⟨.brewLog⟩ (.ins r)).view ⟨.brewLog⟩ =
        w.db ⟨.brewLog⟩ ++ [r] := by
      have before := rest.view .brewLog
      rw [World.pend_view_self]
      exact congrArg (· ++ [r]) before
    rw [rows, List.filter_append, List.filter_eq_nil_iff.mpr, List.filter_cons,
      if_pos (beq_self_eq_true _)]
    · rfl
    · exact fun x mem same => fresh x mem (beq_iff_eq.mp same)
  have selected : (select .brewLog fun x => Table.id .brewLog x == Table.id .brewLog r).runFor
      (w.drew.pend (T := Bypass Table) ⟨.brewLog⟩ (.ins r)) =
        (.ok [r], w.drew.pend (T := Bypass Table) ⟨.brewLog⟩ (.ins r)) :=
    (runFor_ask trivial (Bypass.exec_select live .brewLog _)).trans
      (congrArg (fun rows : List BrewLog => ((.ok rows : Except Exc (List BrewLog)), _)) viewed)
  exact CodeM.runFor_bind_of (CodeM.runFor_bind_of selected rfl) rfl

/-- How a row that can be read ends: it is inserted, or it aborts the transaction. -/
theorem runFor_addRead (read : Option Uuid × Option Int × Option Int)
    (fresh : ∀ r ∈ w.db ⟨.brewLog⟩, Table.id .brewLog r ≠ w.nextId) :
    (∃ e w', (addRead env row read).runFor w = (.error e, w'.aborted) ∧ (w' = w ∨ w' = w.drew)) ∨
      ∃ r : BrewLog, asText (row.get "Shot_ID") = .ok r.sheetsId ∧ r.id = w.nextId ∧
        (addRead env row read).runFor w =
          (.ok (), (w.drew.pend (T := Bypass Table) ⟨.brewLog⟩ (.ins r)).committed) := by
  obtain ⟨owner, timeSec, rating⟩ := read
  have afterOwner : (addRead env row (owner, timeSec, rating)).runFor w =
      (do
        let entry ← DbM.insert .brewLog (SqlBrewLogRepo.make env row owner timeSec rating)
        discard (refresh .brewLog entry)
        DbM.commit : DbM Unit).runFor w := by
    cases owner with
    | some h => rfl
    | none =>
        have lifted : CodeM.runFor (currentHouseholdId : DbM (Option Uuid)) w = (.ok none, w) :=
          runFor_setting rest
        exact CodeM.runFor_bind_ok lifted
  rw [afterOwner]
  cases made : SqlBrewLogRepo.make env row owner timeSec rating w.nextId with
  | error e =>
      have stops : (DbM.insert .brewLog (SqlBrewLogRepo.make env row owner timeSec rating)).runFor w =
          (.error (.db e), w.aborted) :=
        runFor_ask_error trivial (Bypass.exec_insert_invalid rest.live made)
      exact .inl ⟨.db e, w, CodeM.runFor_bind_error stops, .inl rfl⟩
  | ok r =>
      obtain ⟨sameId, text⟩ := make_shot made
      cases verdict : w.refused (T := Bypass Table) ⟨.brewLog⟩ (.ins r) with
      | some e =>
          have stops : (DbM.insert .brewLog
              (SqlBrewLogRepo.make env row owner timeSec rating)).runFor w =
                (.error (.db e), w.drew.aborted) :=
            runFor_ask_error trivial (Bypass.exec_insert_refused rest.live made verdict)
          exact .inl ⟨.db e, w.drew, CodeM.runFor_bind_error stops, .inr rfl⟩
      | none =>
          refine .inr ⟨r, text, sameId, ?_⟩
          have live : (w.drew.pend (T := Bypass Table) ⟨.brewLog⟩ (.ins r)).Live :=
            rest.live.drew.pend _ _
          refine CodeM.runFor_bind_of
            (runFor_ask trivial (Bypass.exec_insert rest.live made verdict)) ?_
          refine CodeM.runFor_bind_of (runFor_refresh rest (sameId ▸ fresh)) ?_
          exact runFor_ask trivial (Bypass.exec_commit live)

end Bypassing

/-! For the role that row-level security binds: it has no household to write for. -/

theorem run_addRead {w : Lib.World Table} (live : w.Live) (unset : w.session.context = none)
    (read : Option Uuid × Option Int × Option Int) :
    ∃ e w', (addRead env row read).run w = (.error e, w'.aborted) ∧ (w' = w ∨ w' = w.drew) := by
  obtain ⟨owner, timeSec, rating⟩ := read
  have afterOwner : (addRead env row (owner, timeSec, rating)).run w =
      (do
        let entry ← DbM.insert .brewLog (SqlBrewLogRepo.make env row owner timeSec rating)
        discard (refresh .brewLog entry)
        DbM.commit : DbM Unit).run w := by
    cases owner with
    | some h => rfl
    | none =>
        have lifted : CodeM.run (currentHouseholdId : DbM (Option Uuid)) w = (.ok none, w) :=
          (run_currentSetting live).trans (by rw [unset])
        exact CodeM.run_bind_ok lifted
  rw [afterOwner]
  cases made : SqlBrewLogRepo.make env row owner timeSec rating w.nextId with
  | error e =>
      have stops : (DbM.insert .brewLog (SqlBrewLogRepo.make env row owner timeSec rating)).run w =
          (.error (.db e), w.aborted) := run_insert_invalid live made
      exact ⟨.db e, w, CodeM.run_bind_error stops, .inl rfl⟩
  | ok r =>
      have verdict : w.refused .brewLog (.ins r) = some .rowSecurity := by
        unfold World.refused
        rw [unset]
        rfl
      have stops : (DbM.insert .brewLog (SqlBrewLogRepo.make env row owner timeSec rating)).run w =
          (.error (.db .rowSecurity), w.drew.aborted) := run_insert_refused live made verdict
      exact ⟨.db .rowSecurity, w.drew, CodeM.run_bind_error stops, .inr rfl⟩

/-! In an aborted transaction. -/

theorem exec_blocked {role : Role} {w : role.World} (stuck : role.blocked w = true) {s : Statement}
    (working : s ≠ .rollback) : role.exec s w = (.error .aborted, w) := by
  cases role with
  | bound =>
      cases s with
      | rollback => exact absurd rfl working
      | _ => exact if_pos stuck
  | bypassing =>
      cases s with
      | rollback => exact absurd rfl working
      | _ => exact if_pos stuck

theorem run_ask_blocked {role : Role} {w : role.World} (stuck : role.blocked w = true)
    {P : Statement → Prop} {s : Statement} (working : s ≠ .rollback) (hs : P s) :
    role.run (ask s hs) w = (.error (.db .aborted), w) := by
  simp only [ask, Role.run, Prog.run, exec_blocked stuck working]

theorem run_add_blocked {role : Role} {w : role.World} (stuck : role.blocked w = true) :
    ∃ e, role.run (SqlBrewLogRepo.add env row true) w = (.error e, w) := by
  unfold Role.run
  cases read : readRow row with
  | error e =>
      rw [add_unread read]
      exact ⟨e, rfl⟩
  | ok read' =>
      rw [add_read read]
      refine ⟨.db .aborted, ?_⟩
      obtain ⟨owner, timeSec, rating⟩ := read'
      cases owner with
      | some h =>
          refine (Prog.run_bind_ok (a := some h) rfl).trans ?_
          exact Prog.run_bind_error (run_ask_blocked stuck (fun same => by cases same) trivial)
      | none => exact Prog.run_bind_error (run_ask_blocked stuck (fun same => by cases same) trivial)

end Row

/-! ### All rows -/

/-- The ids that the session's inserts will be given are new. -/
def Unused (supply : Nat → Uuid) (drawn n : Nat) (rows : List BrewLog) : Prop :=
  (∀ k < n, ∀ r ∈ rows, r.id ≠ supply (drawn + k)) ∧
    ∀ k < n, ∀ j < k, supply (drawn + j) ≠ supply (drawn + k)

theorem Unused.mono {supply : Nat → Uuid} {drawn n : Nat} {rows : List BrewLog}
    (unused : Unused supply drawn (n + 1) rows) : Unused supply drawn n rows :=
  ⟨fun k less => unused.1 k (Nat.lt_succ_of_lt less), fun k less => unused.2 k (Nat.lt_succ_of_lt less)⟩

/-- One of them is no longer. -/
theorem Unused.drew {supply : Nat → Uuid} {drawn n : Nat} {rows : List BrewLog}
    (unused : Unused supply drawn (n + 1) rows) : Unused supply (drawn + 1) n rows := by
  have shift : ∀ k, drawn + 1 + k = drawn + (k + 1) := fun k => by omega
  constructor
  · intro k less
    rw [shift]
    exact unused.1 (k + 1) (Nat.succ_lt_succ less)
  · intro k less j before
    rw [shift, shift]
    exact unused.2 (k + 1) (Nat.succ_lt_succ less) (j + 1) (Nat.succ_lt_succ before)

theorem Unused.insert {supply : Nat → Uuid} {drawn n : Nat} {rows : List BrewLog} {r : BrewLog}
    (unused : Unused supply drawn (n + 1) rows) (given : r.id = supply drawn) :
    Unused supply (drawn + 1) n (rows ++ [r]) := by
  refine ⟨fun k less x mem => ?_, unused.drew.2⟩
  rcases List.mem_append.mp mem with old | new
  · exact unused.drew.1 k less x old
  · rw [List.mem_singleton.mp new, given, Nat.add_assoc, Nat.add_comm 1 k]
    exact unused.2 (k + 1) (Nat.succ_lt_succ less) 0 (Nat.succ_pos k)

/-- A session between two transactions, with new ids for a number of rows. -/
def Ready : (role : Role) → Nat → role.World → Prop
  | .bound, _, w => Lib.World.Live w ∧ (Lib.World.session w).context = none ∧
      (Lib.World.session w).pending = fun _ => []
  | .bypassing, n, w => Resting w ∧
      Unused (Lib.World.session w).supply (Lib.World.session w).drawn n (Lib.World.db w ⟨.brewLog⟩)

theorem attempt_ok {env : Env} {role : Role} {row : Dict} {w w' : role.World}
    (h : role.run (SqlBrewLogRepo.add env row true) w = (.ok (), w')) :
    attempt env role row w = (true, w') := by
  rw [attempt, h]
  rfl

theorem attempt_error {env : Env} {role : Role} {row : Dict} {w w' : role.World} {e : Exc}
    (h : role.run (SqlBrewLogRepo.add env row true) w = (.error e, w')) :
    attempt env role row w = (false, w') := by
  rw [attempt, h]
  rfl

/-- How an attempt ends. -/
inductive Outcome (env : Env) (role : Role) (row : Dict) (n : Nat) (w : role.World) : Prop where
  /-- The row cannot be read. -/
  | refused (ended : attempt env role row w = (false, w)) (free : role.blocked w = false)
      (next : Ready role n w) (clean : role.undone w = w)
  /-- The database rejects it. -/
  | blocking (w' : role.World) (ended : attempt env role row w = (false, w'))
      (stuck : role.blocked w' = true) (next : Ready role n (role.undone w'))
      (undone : role.stored (role.undone w') = role.stored w) (kept : role.stored w' = role.stored w)
  | done (w' : role.World) (r : BrewLog) (ended : attempt env role row w = (true, w'))
      (next : Ready role n w') (text : asText (row.get "Shot_ID") = .ok r.sheetsId)
      (stored : role.stored w' =
        Function.update (role.stored w) .brewLog (role.stored w .brewLog ++ [r]))

theorem undone_resting {T : Type} [Schema T] {w : Lib.World T} (live : w.Live)
    (context : w.session.context = none) (pending : w.session.pending = fun _ => []) :
    w.undone = w := by
  obtain ⟨db, session⟩ := w
  obtain ⟨c, p, f, supply, drawn, faults⟩ := session
  cases context
  cases pending
  cases live.failed
  rfl

theorem outcome_bypassing (env : Env) (row : Dict) {w : Lib.World (Bypass Table)} {n : Nat}
    (ready : Ready .bypassing (n + 1) w) : Outcome env .bypassing row n w := by
  obtain ⟨rest, unused⟩ := ready
  cases read : readRow row with
  | error e =>
      have ran : Role.run .bypassing (SqlBrewLogRepo.add env row true) w = (.error e, w) := by
        rw [Role.run, add_unread read]
        rfl
      exact .refused (attempt_error ran) rest.live.failed ⟨rest, unused.mono⟩
        (undone_resting rest.live rest.context rest.pending)
  | ok read' =>
      have same : Role.run .bypassing (SqlBrewLogRepo.add env row true) w =
          (addRead env row read').runFor w := by
        rw [Role.run, add_read read]
        rfl
      have fresh : ∀ r ∈ w.db ⟨.brewLog⟩, Table.id .brewLog r ≠ w.nextId :=
        unused.1 0 (Nat.succ_pos n)
      rcases runFor_addRead rest read' fresh with ⟨e, w', ran, which⟩ | ⟨r, text, given, ran⟩
      · refine .blocking w'.aborted (attempt_error (same.trans ran)) rfl ?_ ?_ ?_
        · rcases which with rfl | rfl
          · exact ⟨⟨⟨rfl, rest.live.faults⟩, rfl, rfl⟩, unused.mono⟩
          · exact ⟨⟨⟨rfl, rest.live.faults⟩, rfl, rfl⟩, unused.drew⟩
        · rcases which with rfl | rfl
          · rfl
          · rfl
        · rcases which with rfl | rfl
          · rfl
          · rfl
      · have rows := @committed_pend w rest .brewLog (.ins r) w.drew rfl
        have here : (w.drew.pend (T := Bypass Table) ⟨.brewLog⟩ (.ins r)).committed.db ⟨.brewLog⟩ =
            w.db ⟨.brewLog⟩ ++ [r] := by
          rw [rows, Function.update_self]
          rfl
        refine .done _ r (attempt_ok (same.trans ran)) ⟨⟨⟨rfl, rest.live.faults⟩, rfl, rfl⟩, ?_⟩ text ?_
        · rw [here]
          exact unused.insert given
        · funext t
          by_cases same : t = .brewLog
          · subst same
            rw [Function.update_self]
            exact here
          · have other : (⟨t⟩ : Bypass Table) ≠ ⟨.brewLog⟩ :=
              fun eq => same (congrArg Bypass.table eq)
            rw [Function.update_of_ne same]
            exact (congrFun rows ⟨t⟩).trans (Function.update_of_ne other _ _)

/-- The role that row-level security binds inserts nothing. -/
theorem attempt_bound (env : Env) (row : Dict) {w : Lib.World Table} {n : Nat}
    (ready : Ready .bound n w) :
    attempt env .bound row w = (false, w) ∨
      ∃ w', attempt env .bound row w = (false, w'.aborted) ∧ (w' = w ∨ w' = w.drew) := by
  obtain ⟨live, context, -⟩ := ready
  cases read : readRow row with
  | error e =>
      have ran : Role.run .bound (SqlBrewLogRepo.add env row true) w = (.error e, w) := by
        rw [Role.run, add_unread read]
        rfl
      exact .inl (attempt_error ran)
  | ok read' =>
      have same : Role.run .bound (SqlBrewLogRepo.add env row true) w =
          (addRead env row read').run w := by
        rw [Role.run, add_read read]
        rfl
      obtain ⟨e, w', ran, which⟩ := @run_addRead env row w live context read'
      exact .inr ⟨w', attempt_error (same.trans ran), which⟩

theorem outcome_bound (env : Env) (row : Dict) {w : Lib.World Table} {n : Nat}
    (ready : Ready .bound (n + 1) w) : Outcome env .bound row n w := by
  have ended := attempt_bound env row ready
  obtain ⟨live, context, pending⟩ := ready
  rcases ended with ended | ⟨w', ended, rfl | rfl⟩
  · exact .refused ended live.failed ⟨live, context, pending⟩
      (undone_resting live context pending)
  · exact .blocking _ ended rfl ⟨⟨rfl, live.faults⟩, rfl, rfl⟩ rfl rfl
  · exact .blocking _ ended rfl ⟨⟨rfl, live.faults⟩, rfl, rfl⟩ rfl rfl

theorem outcome (env : Env) (row : Dict) {role : Role} {w : role.World} {n : Nat}
    (ready : Ready role (n + 1) w) : Outcome env role row n w := by
  cases role with
  | bound => exact outcome_bound env row ready
  | bypassing => exact outcome_bypassing env row ready

theorem shared (env : Env) (role : Role) :
    Jobs.Shared (attempt env role) role.blocked role.undone role.stored
      (fun db : State => (db .brewLog).length) (Ready role) where
  done {n w row w'} ready ended := by
    cases outcome env row ready with
    | refused ended' => cases ended.symm.trans ended'
    | blocking _ ended' => cases ended.symm.trans ended'
    | done w'' r ended' next text stored =>
        cases ended.symm.trans ended'
        refine ⟨next, ?_⟩
        rw [stored, Function.update_self, List.length_append]
        exact Nat.lt_succ_self _
  refused {n w row w'} ready ended free := by
    cases outcome env row ready with
    | refused ended' _ next clean =>
        cases ended.symm.trans ended'
        exact ⟨next, rfl, clean⟩
    | blocking _ ended' stuck =>
        cases ended.symm.trans ended'
        cases stuck.symm.trans free
    | done _ _ ended' => cases ended.symm.trans ended'
  blocking {n w row w'} ready ended stuck := by
    cases outcome env row ready with
    | refused ended' free =>
        cases ended.symm.trans ended'
        cases stuck.symm.trans free
    | blocking _ ended' _ next undone kept =>
        cases ended.symm.trans ended'
        exact ⟨next, undone, kept⟩
    | done _ _ ended' => cases ended.symm.trans ended'
  stuck {row w} stuck := by
    obtain ⟨e, ran⟩ := @run_add_blocked env row role w stuck
    exact attempt_error ran

theorem Role.run_bind_of {role : Role} {P : Statement → Prop} {α β : Type} {p : CodeM P α}
    {f : α → CodeM P β} {a : α} {w w' : role.World} {x : Except Exc β × role.World}
    (h : role.run p w = (.ok a, w')) (rest : role.run (f a) w' = x) : role.run (p >>= f) w = x :=
  (Prog.run_bind_ok h).trans rest

namespace Sample

open EspressoLogs.Sample

def supply (n : Nat) : Uuid := EspressoLogs.Sample.id (100 + n)

end Sample

end EspressoLogs.Reconcile
