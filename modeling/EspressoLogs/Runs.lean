import EspressoLogs.Repos.Tenant

/-!
Running the code alone.

The lemmas of `Prog.run` for programs of the code, and what each statement does
in a live world: one whose transaction is in order and that meets no fault. A
program that only reads leaves such a world as it is (`run_read`), so a run is
followed from write to write.
-/

namespace EspressoLogs

open Lib Py

variable {P : Statement → Prop} {α β : Type} {w w' : World Table}

namespace CodeM

/-- Runs a program of the code. -/
def run (p : CodeM P α) (w : World Table) : Except Exc α × World Table := p.prog.run World.exec w

@[simp] theorem run_pure (a : α) : run (pure a : CodeM P α) w = (.ok a, w) := rfl

@[simp] theorem run_throw (e : Exc) : run (throw e : CodeM P α) w = (.error e, w) := rfl

@[simp] theorem run_weaken {Q : Statement → Prop} (sub : ∀ s, P s → Q s) (p : CodeM P α) :
    run (p.weaken sub : CodeM Q α) w = run p w := rfl

/-- Past a part that returned, a run goes on with the rest. -/
theorem run_bind_ok {p : CodeM P α} {f : α → CodeM P β} {a : α} (h : run p w = (.ok a, w')) :
    run (p >>= f) w = run (f a) w' :=
  Prog.run_bind_ok h

/-- A part that raised ends the run. -/
theorem run_bind_error {p : CodeM P α} {f : α → CodeM P β} {e : Exc}
    (h : run p w = (.error e, w')) : run (p >>= f) w = (.error e, w') :=
  Prog.run_bind_error h

/-- A handler has nothing to do where nothing was raised. -/
theorem run_catch_ok {p : CodeM P α} {k : Exc → CodeM P α} {a : α} (h : run p w = (.ok a, w')) :
    run (tryCatch p k) w = (.ok a, w') :=
  Prog.run_catch_ok h

/-- A handler starts in the state that the exception left. -/
theorem run_catch_error {p : CodeM P α} {k : Exc → CodeM P α} {e : Exc}
    (h : run p w = (.error e, w')) : run (tryCatch p k) w = run (k e) w' :=
  Prog.run_catch_error h

/-- A sequence that returns went through its first part. -/
theorem run_bind_eq_ok {p : CodeM P α} {f : α → CodeM P β} {b : β}
    (h : run (p >>= f) w = (.ok b, w')) :
    ∃ a w₁, run p w = (.ok a, w₁) ∧ run (f a) w₁ = (.ok b, w') := by
  cases first : run p w with
  | mk result w₁ =>
      cases result with
      | error e =>
          rw [run_bind_error first] at h
          cases h
      | ok a =>
          rw [run_bind_ok first] at h
          exact ⟨a, w₁, rfl, h⟩

/-- A check that lets a value through leaves the state as it is. -/
theorem run_liftExcept_eq_ok {x : Except Exc α} {a : α}
    (h : run (liftExcept x : CodeM P α) w = (.ok a, w')) : x = .ok a ∧ w = w' := by
  cases x with
  | error e => cases h
  | ok b =>
      cases h
      exact ⟨rfl, rfl⟩

theorem run_orRaise_eq_ok {e : Exc} {o : Option α} {a : α}
    (h : run (orRaise e o : CodeM P α) w = (.ok a, w')) : o = some a ∧ w = w' := by
  cases o with
  | none => cases h
  | some b =>
      cases h
      exact ⟨rfl, rfl⟩

/-- `scalar_one_or_none` returns on at most one row. -/
theorem run_oneOrNone_eq_ok {rows : List α} {o : Option α}
    (h : run (oneOrNone rows : CodeM P (Option α)) w = (.ok o, w')) :
    rows = o.toList ∧ w = w' := by
  rcases rows with _ | ⟨a, _ | ⟨b, rest⟩⟩
  · cases h
    exact ⟨rfl, rfl⟩
  · cases h
    exact ⟨rfl, rfl⟩
  · cases h

theorem run_bind_of {p : CodeM P α} {f : α → CodeM P β} {a : α} {x : Except Exc β × World Table}
    (h : run p w = (.ok a, w')) (rest : run (f a) w' = x) : run (p >>= f) w = x :=
  (run_bind_ok h).trans rest

/-- A step that performs no statement. -/
theorem run_bind_still {p : CodeM P α} {f : α → CodeM P β} {x : Except Exc β × World Table} (a : α)
    (h : run p w = (.ok a, w)) (rest : run (f a) w = x) : run (p >>= f) w = x :=
  run_bind_of h rest

end CodeM

/-! ### Statements in a live world -/

section Live

variable (hw : w.Live)

include hw

/-- A statement on a live session is what its rule of the database says. -/
theorem run_ask (s : Statement) (hs : P s) :
    (ask s hs).run w = match World.perform s w with
      | (.ok a, w') => (.ok a, w')
      | (.error e, w') => (.error (.db e), w') := by
  simp only [ask, CodeM.run, Prog.run, World.exec_of_live hw]
  cases World.perform s w with
  | mk r w' => cases r <;> rfl

theorem run_currentSetting : currentSetting.run w = (.ok w.session.context, w) :=
  run_ask hw .currentSetting _

/-- A `SELECT` returns the rows that the policies show. -/
theorem run_select (t : Table) (p : t.Row → Bool) :
    (select t p).run w = (.ok ((w.visible t).filter p), w) :=
  run_ask hw (.select t p) _

/-- The join of the policies' rows, both sides of them. -/
theorem run_leftJoin (t u : Table) (on : t.Row → u.Row → Bool) (p : t.Row → Bool) :
    (leftJoin t u on p).run w = (.ok (w.joined t u on p), w) :=
  run_ask hw (.join t u on p) _

/-- `set_config` changes the context and nothing else. -/
theorem run_setConfig (h : Uuid) : (setConfig h).run w = (.ok (), w.withContext h) :=
  run_ask hw (.setConfig h) _

/-- A commit keeps the changes and ends the context with the transaction. -/
theorem run_commit : DbM.commit.run w = (.ok (), w.committed) := run_ask hw .commit _

/-- An insert that no constraint refuses is pending in the transaction. -/
theorem run_insert {t : Table} {make : Uuid → Except StmtError t.Row} {r : t.Row}
    (made : make w.nextId = .ok r) (fits : w.refused t (.ins r) = none) :
    (DbM.insert t make).run w = (.ok r, w.drew.pend t (.ins r)) := by
  refine (run_ask hw (.insert t make) _).trans ?_
  rw [World.perform_insert made fits]
  rfl

/-- An insert that is refused aborts the transaction. -/
theorem run_insert_refused {t : Table} {make : Uuid → Except StmtError t.Row} {r : t.Row}
    {e : StmtError} (made : make w.nextId = .ok r) (verdict : w.refused t (.ins r) = some e) :
    (DbM.insert t make).run w = (.error (.db e), w.drew.aborted) := by
  refine (run_ask hw (.insert t make) _).trans ?_
  rw [World.perform_insert_refused made verdict]
  rfl

/-- A row that cannot be made aborts the transaction too. -/
theorem run_insert_invalid {t : Table} {make : Uuid → Except StmtError t.Row} {e : StmtError}
    (made : make w.nextId = .error e) :
    (DbM.insert t make).run w = (.error (.db e), w.aborted) := by
  refine (run_ask hw (.insert t make) _).trans ?_
  rw [World.perform_insert_invalid made]
  rfl

/-- What is known after an insert that returned. -/
theorem run_insert_eq_ok {t : Table} {make : Uuid → Except StmtError t.Row} {r : t.Row}
    (h : (DbM.insert t make).run w = (.ok r, w')) :
    make w.nextId = .ok r ∧ w.refused t (.ins r) = none ∧ w' = w.drew.pend t (.ins r) := by
  cases made : make w.nextId with
  | error e =>
      rw [run_insert_invalid hw made] at h
      cases h
  | ok r₁ =>
      cases verdict : w.refused t (.ins r₁) with
      | some e =>
          rw [run_insert_refused hw made verdict] at h
          cases h
      | none =>
          rw [run_insert hw made verdict] at h
          cases h
          exact ⟨rfl, verdict, rfl⟩

/-- An `UPDATE` that no constraint refuses returns the rows as it left them. -/
theorem run_update {t : Table} {p : t.Row → Bool} {set : t.Row → Except StmtError t.Row}
    (fits : ∀ r ∈ (w.visible t).filter p, rejected (set r) = none)
    (verdict : w.refused t (.upd (rewritten set ((w.visible t).filter p))) = none) :
    (DbM.update t p set).run w =
      (.ok ((rewritten set ((w.visible t).filter p)).map Prod.snd),
        w.pend t (.upd (rewritten set ((w.visible t).filter p)))) := by
  refine (run_ask hw (.update t p set) _).trans ?_
  rw [World.perform_update fits verdict]
  rfl

/-- A value that cannot be stored aborts the transaction. -/
theorem run_update_invalid {t : Table} {p : t.Row → Bool} {set : t.Row → Except StmtError t.Row}
    {e : StmtError}
    (invalid : (((w.visible t).filter p).findSome? fun r => rejected (set r)) = some e) :
    (DbM.update t p set).run w = (.error (.db e), w.aborted) := by
  refine (run_ask hw (.update t p set) _).trans ?_
  rw [World.perform_update_invalid invalid]
  rfl

/-- What is known after an `UPDATE` that returned. -/
theorem run_update_eq_ok {t : Table} {p : t.Row → Bool} {set : t.Row → Except StmtError t.Row}
    {rows : List t.Row} (h : (DbM.update t p set).run w = (.ok rows, w')) :
    (∀ r ∈ (w.visible t).filter p, rejected (set r) = none) ∧
      w.refused t (.upd (rewritten set ((w.visible t).filter p))) = none ∧
      rows = (rewritten set ((w.visible t).filter p)).map Prod.snd ∧
      w' = w.pend t (.upd (rewritten set ((w.visible t).filter p))) := by
  cases invalid : ((w.visible t).filter p).findSome? fun r => rejected (set r) with
  | some e =>
      rw [run_update_invalid hw invalid] at h
      cases h
  | none =>
      have fits := List.findSome?_eq_none_iff.mp invalid
      cases verdict : w.refused t (.upd (rewritten set ((w.visible t).filter p))) with
      | some e =>
          have refused := run_ask hw (P := IsPlain) (.update t p set) trivial
          rw [World.perform_update_refused fits verdict] at refused
          cases h.symm.trans refused
      | none =>
          rw [run_update hw fits verdict] at h
          cases h
          exact ⟨fits, rfl, rfl, rfl⟩

/-! ### Statements on accounts in a live world -/

/-- A lookup past the policies sees every row. -/
theorem run_lookup (t : Table) (p : t.Row → Bool) (ht : t.tenantScoped = false) :
    (lookup t p ht).run w = (.ok ((w.view t).filter p), w) := by
  refine (run_ask hw (.select t p) _).trans ?_
  rw [World.perform, World.visible_of_unsecured ht]
  rfl

theorem run_lookupJoin (t u : Table) (on : t.Row → u.Row → Bool) (p : t.Row → Bool)
    (ht : t.tenantScoped = false ∧ u.tenantScoped = false) :
    (lookupJoin t u on p ht).run w = (.ok (leftJoined on ((w.view t).filter p) (w.view u)), w) := by
  refine (run_ask hw (.join t u on p) _).trans ?_
  rw [World.perform, World.joined, World.visible_of_unsecured ht.1, World.visible_of_unsecured ht.2]
  rfl

end Live

theorem run_oneOrNone (o : Option α) :
    (oneOrNone o.toList : CodeM P (Option α)).run w = (.ok o, w) := by
  cases o <;> rfl

/-- `rollback` always goes through. -/
theorem run_rollback (w : World Table) : DbM.rollback.run w = (.ok (), w.undone) := rfl

/-- A program that only reads leaves a live world as it is. -/
theorem run_read {p : CodeM P α} (hp : p.prog.All IsRead) (hw : w.Live) : (p.run w).2 = w := by
  refine hp.run_invariant World.exec (I := (· = w)) (fun s v hs hv => ?_) rfl
  subst hv
  rw [World.exec_of_live hw]
  cases s with
  | currentSetting => rfl
  | select t p => rfl
  | join t u on p => rfl
  | column t c => rfl
  | _ => exact hs.elim

/-- A program that does not commit leaves what is stored. -/
theorem run_uncommitting {p : CodeM P α} (hp : p.prog.All (· ≠ .commit)) (w : World Table) :
    (p.run w).2.db = w.db :=
  hp.run_invariant World.exec (I := fun v => v.db = w.db)
    (fun _ v hs hv => (World.exec_db hs v).trans hv) rfl

/-! ### The statements of a program -/

section All

variable {P Q : Statement → Prop} {α β : Type}

/-- What every statement of both parts satisfies, those of the whole do. -/
theorem all_bind {p : CodeM P α} {f : α → CodeM P β} (hp : p.prog.All Q)
    (hf : ∀ a, (f a).prog.All Q) : (p >>= f).prog.All Q :=
  Prog.All.bind hp hf

theorem all_liftExcept (x : Except Exc α) : (liftExcept x : CodeM P α).prog.All Q := by
  cases x <;> trivial

theorem all_orRaise (e : Exc) (o : Option α) : (orRaise e o : CodeM P α).prog.All Q := by
  cases o <;> trivial

theorem all_oneOrNone (rows : List α) : (oneOrNone rows : CodeM P (Option α)).prog.All Q := by
  unfold oneOrNone
  split <;> trivial

theorem all_ask {s : Statement} {hs : P s} (h : Q s) : (ask s hs).prog.All Q :=
  ⟨h, fun r => by cases r <;> trivial⟩

theorem all_discard {p : CodeM P α} (hp : p.prog.All Q) : (discard p : CodeM P Unit).prog.All Q :=
  hp.bind fun _ => trivial

theorem all_ite {c : Prop} [Decidable c] {p q : CodeM P α} (hp : p.prog.All Q) (hq : q.prog.All Q) :
    (if c then p else q).prog.All Q := by
  split
  · exact hp
  · exact hq

end All

/-- What only reads does not commit. -/
theorem read_uncommitting {α : Type} (p : ReadM α) : p.prog.All (· ≠ .commit) :=
  p.within.mono fun s reads committing => by
    rw [committing] at reads
    exact reads

theorem flush_uncommitting (t : Table) (old : t.Row) (assign : t.Row → Except StmtError t.Row) :
    (DbM.flush t old assign).prog.All (· ≠ .commit) := by
  unfold DbM.flush
  split
  · trivial
  · refine all_bind (all_ask nofun) fun written => ?_
    split <;> trivial

/-! ### Runs that met faults -/

/-- A run that returns would have returned so without faults. -/
def CodeM.Firm (p : CodeM P α) : Prop :=
  ∀ (w w' : World Table) (a : α), p.run w = (.ok a, w') → p.run w.calm = (.ok a, w'.calm)

namespace CodeM.Firm

theorem pure (a : α) : (Pure.pure a : CodeM P α).Firm := by
  intro w w' b h
  cases h
  rfl

theorem throw (e : Exc) : (MonadExceptOf.throw e : CodeM P α).Firm := by
  intro w w' b h
  cases h

theorem bind {p : CodeM P α} {f : α → CodeM P β} (hp : p.Firm) (hf : ∀ a, (f a).Firm) :
    (p >>= f).Firm := by
  intro w w' b h
  obtain ⟨a, w₁, first, rest⟩ := CodeM.run_bind_eq_ok h
  rw [CodeM.run_bind_ok (hp w w₁ a first)]
  exact hf a w₁ w' b rest

theorem ask (s : Statement) (hs : P s) : (ask s hs).Firm := by
  intro w w' a h
  have performed : World.exec s w = (.ok a, w') := by
    simp only [EspressoLogs.ask, CodeM.run, Prog.run] at h
    cases answer : (World.exec s w).1 with
    | error e => rw [answer] at h; cases h
    | ok b =>
        rw [answer] at h
        cases h
        exact Prod.ext answer rfl
  simp only [EspressoLogs.ask, CodeM.run, Prog.run, World.exec_calm performed]

theorem lift {Q : Statement → Prop} (sub : ∀ s, P s → Q s) {p : CodeM P α} (hp : p.Firm) :
    CodeM.Firm (p.weaken sub : CodeM Q α) :=
  hp

theorem liftExcept : (x : Except Exc α) → (liftExcept x : CodeM P α).Firm
  | .ok a => pure a
  | .error e => throw e

theorem oneOrNone (rows : List α) : (oneOrNone rows : CodeM P (Option α)).Firm := by
  unfold EspressoLogs.oneOrNone
  split
  · exact pure _
  · exact pure _
  · exact throw _

theorem orRaise (e : Exc) (o : Option α) : (orRaise e o : CodeM P α).Firm := by
  unfold EspressoLogs.orRaise
  split
  · exact pure _
  · exact throw _

end CodeM.Firm

/-- A read that returned left the world as it was, but for the faults it met. -/
theorem read_calm {p : CodeM P α} {a : α} (hp : p.prog.All IsRead) (firm : p.Firm)
    (inOrder : w.session.failed = false) (returned : p.run w = (.ok a, w')) :
    w'.calm = w.calm ∧ p.run w.calm = (.ok a, w.calm) := by
  have calm := firm w w' a returned
  have same := run_read hp (World.calm_live inOrder)
  rw [calm] at same
  exact ⟨same, same ▸ calm⟩

/-! ### Programs that commit at their end -/

/-- Where the program raises, it has stored nothing. -/
def CodeM.CommitsLast (p : CodeM P α) : Prop :=
  ∀ (w w' : World Table) (e : Exc), p.run w = (.error e, w') → w'.db = w.db

namespace CodeM.CommitsLast

/-- Without a commit there is none that is not the last. -/
theorem of_all {p : CodeM P α} (all : p.prog.All (· ≠ .commit)) : p.CommitsLast := by
  intro w w' e raised
  have kept := run_uncommitting all w
  rw [raised] at kept
  exact kept

theorem bind {p : CodeM P α} {f : α → CodeM P β} (all : p.prog.All (· ≠ .commit))
    (rest : ∀ a, (f a).CommitsLast) : (p >>= f).CommitsLast := by
  intro w w' e raised
  cases first : p.run w with
  | mk result w₁ =>
      have kept := run_uncommitting all w
      rw [first] at kept
      cases result with
      | error e₁ =>
          rw [CodeM.run_bind_error first] at raised
          cases raised
          exact kept
      | ok a =>
          rw [CodeM.run_bind_ok first] at raised
          exact (rest a w₁ w' e raised).trans kept

/-- The commit may stand last, with a value after it. -/
theorem commit (hs : P .commit) (b : β) :
    (EspressoLogs.ask .commit hs >>= fun _ => Pure.pure b : CodeM P β).CommitsLast := by
  intro w w' e raised
  have performed : World.exec (T := Table) .commit w = if w.session.failed then (.error .aborted, w)
      else if w.session.faults.headD false then w.advance.fail .operational
      else w.advance.perform .commit := rfl
  simp only [CodeM.run, EspressoLogs.ask, ProgOf.prog_bind] at raised
  by_cases failed : w.session.failed = true
  · rw [if_pos failed] at performed
    simp only [Bind.bind, Prog.bind, Prog.run, performed] at raised
    cases raised
    rfl
  · rw [if_neg failed] at performed
    by_cases fault : w.session.faults.headD false = true
    · rw [if_pos fault] at performed
      simp only [Bind.bind, Prog.bind, Prog.run, performed, World.fail] at raised
      cases raised
      rfl
    · rw [if_neg fault] at performed
      simp only [Bind.bind, Prog.bind, Prog.run, performed, World.perform] at raised
      cases raised

end CodeM.CommitsLast

/-! ### Keeping an invariant -/

/-- A program keeps an invariant of worlds; where it returns, its transaction is
still in order. -/
abbrev CodeM.Keeps (I : World Table → Prop) (p : CodeM P α) (R : α → Prop) : Prop :=
  ProgOf.Keeps World.exec I (fun w => w.session.failed = false) p R

/-- One statement keeps the invariant, and its answer is what it promises. -/
theorem keeps_ask_of {s : Statement} {hs : P s} {I L : World Table → Prop} {R : Ans s → Prop}
    (step : ∀ w, I w → I (World.exec s w).2)
    (answer : ∀ w, I w → ∀ a, (World.exec s w).1 = .ok a → L (World.exec s w).2 ∧ R a) :
    ProgOf.Keeps World.exec I L (ask s hs : CodeM P (Ans s)) R := by
  intro w hw _
  have next := step w hw
  have answered := answer w hw
  simp only [ask, Prog.run]
  cases h : (World.exec s w).1 with
  | error e =>
      refine ⟨next, fun _ done => ?_⟩
      cases done
  | ok a => exact ⟨next, fun b hb => Except.ok.inj hb ▸ answered a h⟩

/-- A statement that keeps `I` keeps it when the code performs it. -/
theorem keeps_ask {s : Statement} {hs : P s} {I : World Table → Prop} {R : Ans s → Prop}
    (step : ∀ w, I w → I (World.exec s w).2)
    (answer : ∀ w, I w → ∀ a, (World.exec s w).1 = .ok a → R a) :
    (ask s hs : CodeM P (Ans s)).Keeps I R :=
  keeps_ask_of step fun w hw a h => ⟨World.failed_of_exec_ok h, answer w hw a h⟩

section Lookups

variable {I : World Table → Prop} (lookups : ∀ s w, IsLookup s → I w → I (World.exec s w).2)

include lookups

/-- The rows of a lookup are rows of the table, so they are as the invariant says. -/
theorem keeps_lookup {t : Table} {p : t.Row → Bool} {ht : t.tenantScoped = false}
    {R : t.Row → Prop} (holds : ∀ w, I w → ∀ r ∈ w.view t, p r = true → R r) :
    (lookup t p ht).Keeps I fun rows => ∀ r ∈ rows, R r :=
  keeps_ask (fun w => lookups _ w ⟨trivial, ht⟩) fun w hw rows h r hr => by
    obtain ⟨seen, hp⟩ := World.mem_of_select h hr
    exact holds w hw r (World.mem_view_of_mem_visible seen) hp

theorem keeps_lookupJoin {t u : Table} {on : t.Row → u.Row → Bool} {p : t.Row → Bool}
    {ht : t.tenantScoped = false ∧ u.tenantScoped = false} {R : t.Row × Option u.Row → Prop}
    (holds : ∀ w, I w → ∀ r ∈ w.view t, p r = true → ∀ o : Option u.Row,
      (∀ m, o = some m → m ∈ w.view u ∧ on r m = true) → R (r, o)) :
    (lookupJoin t u on p ht).Keeps I fun rows => ∀ x ∈ rows, R x :=
  keeps_ask (fun w => lookups _ w ⟨trivial, ht⟩) fun w hw rows h x hx => by
    obtain ⟨seen, hp, partner⟩ := World.mem_of_join h hx
    refine holds w hw x.1 (World.mem_view_of_mem_visible seen) hp x.2 fun m hm => ?_
    exact ⟨World.mem_view_of_mem_visible (partner m hm).1, (partner m hm).2⟩

end Lookups

theorem keeps_oneOrNone {I : World Table → Prop} (rows : List α) :
    (oneOrNone rows : CodeM P (Option α)).Keeps I fun o => ∀ a, o = some a → a ∈ rows := by
  unfold oneOrNone
  split
  · exact ProgOf.Keeps.pure nofun
  · exact ProgOf.Keeps.pure fun b h => Option.some.inj h ▸ List.mem_cons_self
  · exact ProgOf.Keeps.throw _

theorem keeps_orRaise {I : World Table → Prop} (e : Exc) (o : Option α) :
    (orRaise e o : CodeM P α).Keeps I fun a => o = some a := by
  unfold orRaise
  split
  · exact ProgOf.Keeps.pure rfl
  · exact ProgOf.Keeps.throw _

end EspressoLogs
