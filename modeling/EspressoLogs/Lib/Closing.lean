import EspressoLogs.Lib.Outline

/-!
The statement that ends a program.

A client that is answered has performed a last statement. `Prog.Closes` says of a program
where that statement is performed and what it answers, depending on how the program ends;
an outline (`Prog.Safe`) says only what holds when it is over.

* `Prog.Closes.bind`: a program closes as its last part does, after a first part that
  cannot end it but by raising.
* `Step.result`: a client that is over in a pool was over in the one before, or ended in
  this step, by its last statement.
* `Run.closes`: what closes at the start closes so at every point of every run, so that in
  `Step.result` the last statement is one that `Prog.Closes` speaks of.
-/

namespace EspressoLogs.Lib

open Schema

variable {T : Type} [Schema T] {E α β : Type}

namespace Prog

/-- How a program that is over has ended. -/
def result {S : Type} {R : S → Type} : Prog S R E α → Option (Except E α)
  | .pure a => some (.ok a)
  | .raise e => some (.error e)
  | .op _ _ => none

/-- Whatever the others do, the statement that ends the program is performed, and answers,
as `last` says for that end. -/
def Closes (last : Except E α → (s : Stmt T) → Resp s → World T → Prop) :
    Prog (Stmt T) Resp E α → World T → Prop
  | .op s k, w => ∀ (db : Tables T) (found : List (RowId T)) (r : Resp s) (w' : World T),
      World.execOn found s ⟨db, w.session⟩ = (r, w') →
        (∀ x, (k r).result = some x → last x s r ⟨db, w.session⟩) ∧ Closes last (k r) w'
  | _, _ => True

namespace Closes

variable {last : Except E β → (s : Stmt T) → Resp s → World T → Prop} {w : World T}

/-- The committed rows do not matter. -/
theorem move {p : Prog (Stmt T) Resp E β} (closes : p.Closes last w) (db : Tables T) :
    p.Closes last ⟨db, w.session⟩ := by
  cases p with
  | pure a => trivial
  | raise e => trivial
  | op s k => exact closes

/-- A first part that ends the program by raising only. -/
theorem bind {p : Prog (Stmt T) Resp E α} {f : α → Prog (Stmt T) Resp E β}
    (first : p.Safe (fun _ _ => True) (fun _ _ => True)
      (fun a v => (f a).result = none ∧ (f a).Closes last v)
      (fun e _ => ∀ s r v, last (.error e) s r v) w) : (p >>= f).Closes last w := by
  induction p generalizing w with
  | pure a => exact first.2
  | raise e => trivial
  | op s k ih =>
      intro db found r w' answered
      have next := (first db trivial).2 found r w' answered
      refine ⟨fun x ended => ?_, ih r next⟩
      change (k r >>= f).result = some x at ended
      cases rest : k r with
      | pure a =>
          rw [rest] at next ended
          exact absurd (next.1.symm.trans ended) (Option.some_ne_none x).symm
      | raise e =>
          rw [rest] at next ended
          cases ended
          exact next s r _
      | op s' k' =>
          rw [rest] at ended
          cases ended

/-- A program that ends by raising only. -/
theorem of_raises {p : Prog (Stmt T) Resp E β}
    (raises : p.Safe (fun _ _ => True) (fun _ _ => True) (fun _ _ => False)
      (fun e _ => ∀ s r v, last (.error e) s r v) w) : p.Closes last w := by
  rw [← bind_pure p]
  exact bind (Prog.Safe.mono raises (fun _ _ no => no.elim) fun _ _ h => h)

end Closes

end Prog

namespace Pool

variable {allowed : Pool T E α → Client T E α → List (Client T E α) → Stmt T → Prop}
  {last : Except E α → (s : Stmt T) → Resp s → World T → Prop} {p p' : Pool T E α} {i : Nat}

/-- The client at a position ends as `last` says, if it ends. -/
def Closes (last : Except E α → (s : Stmt T) → Resp s → World T → Prop) (i : Nat)
    (p : Pool T E α) : Prop :=
  ∃ c, p.clients[i]? = some c ∧ c.prog.Closes last ⟨p.db, c.session⟩

theorem Step.closes (step : Step allowed p p') (closes : Closes last i p) : Closes last i p' := by
  obtain ⟨c, here, closes⟩ := closes
  cases step with
  | @find db before after log s k session found looked =>
      by_cases mine : i = before.length
      · subst mine
        cases here.symm.trans (getElem?_middle before after _)
        exact ⟨_, getElem?_middle before after _, closes⟩
      · exact ⟨c, (getElem?_middle_of_ne mine _ _).trans here, closes⟩
  | @leave db before after log prog session finished =>
      by_cases mine : i = before.length
      · subst mine
        cases here.symm.trans (getElem?_middle before after _)
        refine ⟨_, getElem?_middle before after _, ?_⟩
        cases prog with
        | pure a => trivial
        | raise e => trivial
        | op s k => exact finished.elim
      · exact ⟨c, (getElem?_middle_of_ne mine _ _).trans here, closes⟩
  | @perform db before after log s k session found r w ready fresh may answered clear =>
      by_cases mine : i = before.length
      · subst mine
        cases here.symm.trans (getElem?_middle before after _)
        exact ⟨_, getElem?_middle before after _, (closes db _ r w answered).2⟩
      · exact ⟨c, (getElem?_middle_of_ne mine _ _).trans here, closes.move w.db⟩

theorem Run.closes (run : Run allowed p p') (start : Closes last i p) : Closes last i p' := by
  induction run with
  | refl => exact start
  | tail _ step ih => exact step.closes ih

/-- In this step the client at a position performed the statement that ended it. -/
inductive Last (p p' : Pool T E α) (i : Nat) (x : Except E α) : Prop where
  | intro {c : Client T E α} {s : Stmt T} {k : Resp s → Prog (Stmt T) Resp E α} {r : Resp s}
      {w : World T} (here : p.clients[i]? = some c) (prog : c.prog = .op s k)
      (answered : World.execOn (c.found.getD []) s ⟨p.db, c.session⟩ = (r, w))
      (ended : (k r).result = some x) (db : p'.db = w.db)
      (log : p'.log = logged s r c.writes p.log)
      (others : ∀ j, j ≠ i → p'.clients[j]? = p.clients[j]?)

/-- A client that is over was over before the step, or ended in it. -/
theorem Step.result (step : Step allowed p p') {c' : Client T E α}
    (there : p'.clients[i]? = some c') {x : Except E α} (ended : c'.prog.result = some x) :
    (∃ c, p.clients[i]? = some c ∧ c.prog.result = some x) ∨ Last p p' i x := by
  cases step with
  | @find db before after log s k session found looked =>
      by_cases mine : i = before.length
      · subst mine
        cases there.symm.trans (getElem?_middle before after _)
        cases ended
      · exact .inl ⟨c', (getElem?_middle_of_ne mine _ _).trans there, ended⟩
  | @leave db before after log prog session finished =>
      by_cases mine : i = before.length
      · subst mine
        cases there.symm.trans (getElem?_middle before after _)
        exact .inl ⟨_, getElem?_middle before after _, ended⟩
      · exact .inl ⟨c', (getElem?_middle_of_ne mine _ _).trans there, ended⟩
  | @perform db before after log s k session found r w ready fresh may answered clear =>
      by_cases mine : i = before.length
      · subst mine
        cases there.symm.trans (getElem?_middle before after _)
        exact .inr ⟨getElem?_middle before after _, rfl, answered, ended, rfl, rfl,
          fun j other => getElem?_middle_of_ne other _ _⟩
      · exact .inl ⟨c', (getElem?_middle_of_ne mine _ _).trans there, ended⟩

/-- What ended in this step did so as it closes. -/
theorem Last.closed {x : Except E α} (ended : Last p p' i x) (closes : Closes last i p) :
    ∃ c s r w, p.clients[i]? = some c ∧ (∃ k, c.prog = .op s k) ∧
      World.execOn (c.found.getD []) s ⟨p.db, c.session⟩ = (r, w) ∧ p'.db = w.db ∧
      p'.log = logged s r c.writes p.log ∧ last x s r ⟨p.db, c.session⟩ := by
  obtain ⟨here, prog, answered, finished, db, log, _⟩ := ended
  obtain ⟨c', here', closes⟩ := closes
  cases here.symm.trans here'
  rw [prog] at closes
  exact ⟨_, _, _, _, here, ⟨_, prog⟩, answered, db, log,
    (closes p.db _ _ _ answered).1 _ finished⟩

end Pool

end EspressoLogs.Lib
