import EspressoLogs.Tenant.Entry
import EspressoLogs.Tenant.Upserts

/-!
Statements on tenant tables and the context they run in.

A program is guarded when every statement on a tenant table that it performs has
the household for its context. Statements that do not end the transaction keep
the context, so it is only behind a commit or a rollback that the guard can fail.
A statement of an aborted transaction is refused before it does anything; it
asks for no context.
-/

namespace EspressoLogs

open Lib Py

/-- The statement is about a tenant table. -/
def OnTenant : Statement → Prop
  | .select t _ | .column t _ | .insert t _ | .update t _ _ | .delete t _ | .deleteCascade t _ =>
      t.tenantScoped = true
  | .join t u _ _ => t.tenantScoped = true ∨ u.tenantScoped = true
  | .currentSetting | .setConfig _ | .commit | .rollback => False

/-- Unless it is aborted, the transaction has `h` as its context. -/
def HasContext (h : Uuid) (w : World Table) : Prop :=
  w.session.failed = false → w.session.context = some h

/-- Whatever the program performs on a tenant table, it performs for `h`. -/
abbrev CodeM.Guarded {P : Statement → Prop} {α : Type} (h : Uuid) (p : CodeM P α)
    (w : World Table) : Prop :=
  p.prog.Shows World.exec (fun s v => OnTenant s → HasContext h v) w

/-- The statement does not end the transaction or set its context. -/
def Lasting : Statement → Prop
  | .setConfig _ | .commit | .rollback => False
  | _ => True

variable {h : Uuid} {w w' : World Table} {P : Statement → Prop} {α β : Type}

/-- A read ends no context. -/
theorem IsRead.lasting (s : Statement) (hs : IsRead s) : Lasting s := by
  cases s <;> trivial

/-- The tables of the accounts are not under the policies. -/
theorem OnAccounts.not_onTenant (s : Statement) (hs : OnAccounts s) : ¬ OnTenant s := by
  cases s with
  | join t u on p =>
      rintro (ht | ht)
      · exact absurd (hs.1.symm.trans ht) Bool.false_ne_true
      · exact absurd (hs.2.symm.trans ht) Bool.false_ne_true
  | select t p => exact fun ht => absurd (hs.symm.trans ht) Bool.false_ne_true
  | column t c => exact fun ht => absurd (hs.symm.trans ht) Bool.false_ne_true
  | insert t make => exact fun ht => absurd (hs.symm.trans ht) Bool.false_ne_true
  | update t p set => exact fun ht => absurd (hs.symm.trans ht) Bool.false_ne_true
  | delete t p => exact fun ht => absurd (hs.symm.trans ht) Bool.false_ne_true
  | deleteCascade t p => exact hs.elim
  | _ => exact id

/-! ### Statements that keep the context -/

theorem write_keeps {t : Table} {c : Change t.Row} {answer : α} (hw : HasContext h w) :
    HasContext h (w.write t c answer).2 := by
  unfold World.write
  cases w.refused t c with
  | some e =>
      intro inOrder
      cases inOrder
  | none => exact hw

/-- A statement that ends no transaction leaves the context as it was. -/
theorem perform_keeps {s : Statement} (hs : Lasting s) (hw : HasContext h w) :
    HasContext h (World.perform s w).2 := by
  cases s with
  | insert t make =>
      simp only [World.perform]
      cases make w.nextId with
      | error e =>
          intro inOrder
          cases inOrder
      | ok r => exact write_keeps (w := w.drew) hw
  | update t p set =>
      simp only [World.perform]
      cases ((w.visible t).filter p).findSome? fun r => rejected (set r) with
      | some e =>
          intro inOrder
          cases inOrder
      | none => exact write_keeps hw
  | delete t p => exact write_keeps hw
  | deleteCascade t p =>
      simp only [World.perform, World.performDelete]
      split
      · intro inOrder
        cases inOrder
      · exact hw
  | setConfig value => exact hs.elim
  | commit => exact hs.elim
  | rollback => exact hs.elim
  | _ => exact hw

/-- The same with the faults, which abort the transaction and not the context. -/
theorem exec_keeps {s : Statement} (hs : Lasting s) (hw : HasContext h w) :
    HasContext h (World.exec s w).2 := by
  cases s with
  | rollback => exact hs.elim
  | _ =>
      simp only [World.exec]
      split
      · exact hw
      · split
        · intro inOrder
          cases inOrder
        · exact perform_keeps (w := w.advance) hs hw

/-! ### Guarded programs -/

/-- A program without statements on tenant tables shows what holds of all others. -/
theorem shows_of_quiet {p : Prog Statement Resp Exc α} {G : Statement → World Table → Prop}
    (hp : p.All fun s => ¬ OnTenant s) (hG : ∀ s v, ¬ OnTenant s → G s v) :
    p.Shows World.exec G w := by
  intro x hx
  have shown := hp.shows World.exec (I := fun _ => True) (fun _ _ _ _ => trivial) (w := w) trivial
  exact hG x.1 x.2 (shown x hx).1

namespace CodeM

theorem Guarded.pure (a : α) : (Pure.pure a : CodeM P α).Guarded h w := Prog.Shows.pure a w

theorem Guarded.throw (e : Exc) : (MonadExceptOf.throw e : CodeM P α).Guarded h w :=
  Prog.Shows.raise e w

/-- The second part is guarded in the states that the first one leaves. -/
theorem Guarded.bind {p : CodeM P α} {f : α → CodeM P β} (hp : p.Guarded h w)
    (hf : ∀ a w', p.run w = (.ok a, w') → (f a).Guarded h w') : (p >>= f).Guarded h w :=
  Prog.Shows.bind hp hf

/-- So is a handler, in the states that an exception leaves. -/
theorem Guarded.catch {p : CodeM P α} {k : Exc → CodeM P α} (hp : p.Guarded h w)
    (hk : ∀ e w', p.run w = (.error e, w') → (k e).Guarded h w') :
    CodeM.Guarded h (tryCatch p k) w :=
  Prog.Shows.catchWith hp hk

/-- Back to the second part, in the state of a run that returned. -/
theorem Guarded.of_bind {p : CodeM P α} {f : α → CodeM P β} {a : α}
    (guarded : (p >>= f).Guarded h w) (hp : p.run w = (.ok a, w')) : (f a).Guarded h w' :=
  Prog.Shows.of_bind (p := p.prog) (f := fun a => (f a).prog) guarded hp

theorem Guarded.left {p : CodeM P α} {f : α → CodeM P β} (guarded : (p >>= f).Guarded h w) :
    p.Guarded h w :=
  Prog.Shows.left (p := p.prog) (f := fun a => (f a).prog) guarded

/-- Back to what a handler is about. -/
theorem Guarded.of_catch {p : CodeM P α} {k : Exc → CodeM P α}
    (guarded : CodeM.Guarded h (tryCatch p k) w) : p.Guarded h w :=
  Prog.Shows.of_catch (p := p.prog) (k := fun e => (k e).prog) guarded

/-- A program without statements on tenant tables is guarded. -/
theorem Guarded.quiet {p : CodeM P α} (hp : p.prog.All fun s => ¬ OnTenant s) :
    p.Guarded h w :=
  shows_of_quiet hp fun _ _ quiet onTenant => absurd onTenant quiet

/-- So is one that does not end its transaction, where the context is set. -/
theorem Guarded.lasting {p : CodeM P α} (hp : p.prog.All Lasting) (hw : HasContext h w) :
    p.Guarded h w := by
  intro x hx _
  exact (hp.shows World.exec (fun _ _ => exec_keeps) hw x hx).2

/-- A program that ends no transaction keeps its context throughout. -/
theorem run_lasting {p : CodeM P α} (hp : p.prog.All Lasting) (hw : HasContext h w) :
    HasContext h (p.run w).2 :=
  hp.run_invariant World.exec (fun _ _ => exec_keeps) hw

/-- A program goes on guarded behind one that keeps the context. -/
theorem Guarded.after {p : CodeM P α} {f : α → CodeM P β} (hp : p.prog.All Lasting)
    (hw : HasContext h w)
    (hf : ∀ a w', p.run w = (.ok a, w') → HasContext h w' → (f a).Guarded h w') :
    (p >>= f).Guarded h w := by
  refine Guarded.bind (Guarded.lasting hp hw) fun a w' run => hf a w' run ?_
  have kept := run_lasting hp hw
  rw [run] at kept
  exact kept

/-- What runs on the accounts is guarded in any context: it asks for no tenant row. -/
theorem Guarded.account (p : AccountM α) : p.Guarded h w :=
  Guarded.quiet (p.within.mono OnAccounts.not_onTenant)

/-- A statement on a tenant table in a transaction that has lost its context. -/
theorem not_guarded_op {s : Statement} {k : Resp s → Prog Statement Resp Exc β}
    (onTenant : OnTenant s) (inOrder : w.session.failed = false)
    (lost : w.session.context = none) :
    ¬ (Prog.op s k).Shows World.exec (fun s v => OnTenant s → HasContext h v) w := by
  intro guarded
  have first := guarded (s, w) List.mem_cons_self onTenant inOrder
  rw [lost] at first
  cases first

end CodeM

theorem reads (p : ReadM α) : p.prog.All Lasting := p.within.mono IsRead.lasting

theorem lasting_liftExcept (x : Except Exc α) : (liftExcept x : CodeM P α).prog.All Lasting := by
  cases x <;> trivial

theorem lasting_orRaise (e : Exc) (o : Option α) : (orRaise e o : CodeM P α).prog.All Lasting := by
  cases o <;> trivial

theorem lasting_oneOrNone (rows : List α) :
    (oneOrNone rows : CodeM P (Option α)).prog.All Lasting := by
  unfold oneOrNone
  split <;> trivial

theorem lasting_ask (s : Statement) (hs : P s) (lasting : Lasting s) :
    (ask s hs).prog.All Lasting :=
  ⟨lasting, fun r => by cases r <;> trivial⟩

theorem lasting_discard {p : CodeM P α} (hp : p.prog.All Lasting) :
    (discard p : CodeM P Unit).prog.All Lasting :=
  hp.bind fun _ => trivial

/-- A statement on no tenant row needs no context. -/
theorem quiet_ask {s : Statement} (hs : P s) (quiet : ¬ OnTenant s) : (ask s hs).Guarded h w :=
  .quiet ⟨quiet, fun r => by cases r <;> trivial⟩

/-! ### The writes of the repositories -/

theorem lasting_flush (t : Table) (old : t.Row) (assign : t.Row → Except StmtError t.Row) :
    (DbM.flush t old assign).prog.All Lasting := by
  unfold DbM.flush
  split
  · trivial
  · refine (lasting_ask (.update t _ assign) _ trivial).bind fun written => ?_
    simp only
    split <;> trivial

/-- The upsert looks its row up before the commit, and asks for nothing after it. -/
theorem SheetsEntity.upsert_guarded {t : Table} (e : SheetsEntity t) (row : Dict)
    (hw : HasContext h w) : (e.upsert row).Guarded h w := by
  refine .after (reads (rowHouseholdIdOrContext row)) hw fun householdId w₁ _ h₁ => ?_
  refine .after (reads (e.existing row)) h₁ fun existing w₂ _ h₂ => ?_
  cases existing with
  | some r => exact .after (lasting_flush t r _) h₂ fun _ _ _ _ => quiet_ask _ id
  | none =>
      have made : (discard (DbM.insert t (e.make row householdId)) : DbM Unit).prog.All Lasting :=
        (lasting_ask (.insert t _) _ trivial).bind fun _ => trivial
      exact .after made h₂ fun _ _ _ _ => quiet_ask _ id

/-- An upsert that has lost its context looks its row up all the same. -/
theorem SheetsEntity.upsert_lost {t : Table} (e : SheetsEntity t) {row : Dict} (live : w.Live)
    (lost : w.session.context = none) (anonymous : Dict.Anonymous row)
    (named : (row.get e.idField).truthy = true) : ¬ (e.upsert row).Guarded h w := by
  intro guarded
  have owner : CodeM.run (rowHouseholdIdOrContext row : DbM (Option Uuid)) w = _ :=
    run_rowHouseholdIdOrContext anonymous live
  have behind := CodeM.Guarded.of_bind guarded owner
  have rest := CodeM.Guarded.left behind
  unfold SheetsEntity.existing at rest
  rw [if_pos named] at rest
  exact CodeM.not_guarded_op (s := .select t _) e.tenantScoped live.failed lost rest

/-- What returns through the rollback handler returned by itself. -/
theorem orRollback_eq_ok {p : DbM α} {a : α} (returned : (orRollback p).run w = (.ok a, w')) :
    p.run w = (.ok a, w') := by
  cases first : p.run w with
  | mk result w₁ =>
      cases result with
      | ok b =>
          have same := CodeM.run_catch_ok (k := fun e => do DbM.rollback; throw e) first
          exact same.symm.trans returned
      | error e =>
          have raised := CodeM.run_catch_error (k := fun e => do DbM.rollback; throw e) first
          rw [CodeM.run_bind_ok (run_rollback w₁)] at raised
          cases raised.symm.trans returned

/-- A rollback asks for nothing. -/
theorem orRollback_guarded {p : DbM α} (hp : p.Guarded h w) : (orRollback p).Guarded h w :=
  .catch hp fun _ _ _ => .bind (quiet_ask _ id) fun _ _ _ => .throw _

end EspressoLogs
