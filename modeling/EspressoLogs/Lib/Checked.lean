import EspressoLogs.Lib.Outline

/-!
What a program checked, and what it does on the strength of it.

Under READ COMMITTED a check and the write that follows are two statements, and the others
may come between them. `Prog.Checked known` says what a program knows whenever it gets to a
statement: of the rows as they were when the statement before was answered. An outline
(`Prog.Safe`) says what holds when the statement is performed, whatever the others did in
between.

* `Prog.Checked.bind`: a program gets to its statements as its last part does, after a first
  part that knows what it has to anyway.
* `Step.checked`: what a client knows it goes on knowing, as long as no other commits
  anything to the contrary. The client at work is the one for which the check was made.
-/

namespace EspressoLogs.Lib

open Schema

variable {T : Type} [Schema T] {E α β : Type} {known : Stmt T → World T → Prop} {w : World T}

namespace Prog

/-- Whatever the others do, the program knows this of a statement when it gets to it. -/
def Checked (known : Stmt T → World T → Prop) : Prog (Stmt T) Resp E α → World T → Prop
  | .op s k, w => known s w ∧ ∀ (db : Tables T) (found : List (RowId T)) (r : Resp s) (w' : World T),
      World.execOn found s ⟨db, w.session⟩ = (r, w') → Checked known (k r) w'
  | _, _ => True

namespace Checked

theorem bind {p : Prog (Stmt T) Resp E α} {f : α → Prog (Stmt T) Resp E β}
    (first : p.Safe (fun _ _ => True) known (fun a v => (f a).Checked known v) (fun _ _ => True)
      w) : (p >>= f).Checked known w := by
  induction p generalizing w with
  | pure a => exact first
  | raise e => trivial
  | op s k ih =>
      refine ⟨(first w.db trivial).1, fun db found r w' answered => ih r ?_⟩
      exact (first db trivial).2 found r w' answered

/-- What a program promises of its statements it knows when it gets to them. -/
theorem of_safe {p : Prog (Stmt T) Resp E α} {post : α → World T → Prop}
    {fails : E → World T → Prop} (safe : p.Safe (fun _ _ => True) known post fails w) :
    p.Checked known w := by
  rw [← bind_pure p]
  exact bind (safe.mono (fun _ _ _ => trivial) fun _ _ _ => trivial)

/-- A last part that knows what it has to wherever it starts. -/
theorem andThen {p : Prog (Stmt T) Resp E α} {f : α → Prog (Stmt T) Resp E β}
    (first : p.Checked known w) (later : ∀ a v, (f a).Checked known v) :
    (p >>= f).Checked known w := by
  induction p generalizing w with
  | pure a => exact later a w
  | raise e => trivial
  | op s k ih => exact ⟨first.1, fun db found r w' answered => ih r (first.2 db found r w' answered)⟩

/-- The others leave what the program knows of its next statement. -/
theorem move {p : Prog (Stmt T) Resp E α} {db : Tables T} (checked : p.Checked known w)
    (kept : ∀ s k, p = .op s k → known s w → known s ⟨db, w.session⟩) :
    p.Checked known ⟨db, w.session⟩ := by
  cases p with
  | pure a => trivial
  | raise e => trivial
  | op s k => exact ⟨kept s k rfl checked.1, checked.2⟩

end Checked

end Prog

/-- What a client knows when it gets to its next statement, and from there on. -/
def Client.Checked (known : Stmt T → World T → Prop) (db : Tables T) (c : Client T E α) : Prop :=
  c.prog.Checked known ⟨db, c.session⟩

/-- What the client commits leaves what another one knows of its next statement. -/
def Client.Spares (known : Stmt T → World T → Prop) (db : Tables T) (c o : Client T E α) : Prop :=
  ∀ s k, o.prog = .op s k → known s ⟨db, o.session⟩ →
    known s ⟨World.view ⟨db, c.session⟩, o.session⟩

namespace Pool

variable {allowed : Pool T E α → Client T E α → List (Client T E α) → Stmt T → Prop}

/-- A step keeps what the clients know, as long as commits spare it. -/
theorem Step.checked {p p' : Pool T E α} (step : Step allowed p p')
    (spares : ∀ before c after k, p.clients = before ++ c :: after → c.prog = .op .commit k →
      allowed p c (before ++ after) .commit → ∀ o ∈ before ++ after, c.Spares known p.db o)
    (checked : ∀ c ∈ p.clients, c.Checked known p.db) :
    ∀ c ∈ p'.clients, c.Checked known p'.db := by
  cases step with
  | find looked =>
      exact forall_mem_middle.mpr ⟨(forall_mem_middle.mp checked).1, (forall_mem_middle.mp checked).2⟩
  | @leave db before after log p session finished =>
      refine forall_mem_middle.mpr ⟨?_, (forall_mem_middle.mp checked).2⟩
      cases p with
      | pure a => trivial
      | raise e => trivial
      | op s k => exact finished.elim
  | @perform db before after log s k session found r w ready fresh may answered clear =>
      refine forall_mem_middle.mpr ⟨?_, fun o ho => ?_⟩
      · exact ((forall_mem_middle.mp checked).1).2 db _ r w answered
      · have knows : o.Checked known db := (forall_mem_middle.mp checked).2 o ho
        have world : w = (World.exec (s.narrow (found.getD [])) ⟨db, session⟩).2 := by
          rw [← World.execOn_world, answered]
        by_cases committing : s = .commit
        · subst committing
          rcases World.exec_commit (T := T) ⟨db, session⟩ with ⟨_, _, here, _⟩ | ⟨_, here, _⟩
          · have stored : w.db = World.view ⟨db, session⟩ := world ▸ here
            rw [stored]
            exact knows.move (spares before _ after k rfl rfl may o ho)
          · have stored : w.db = db := world ▸ here
            rw [stored]
            exact knows
        · have stored : w.db = db := by
            rw [world]
            exact World.exec_db (fun eq => committing (Stmt.narrow_eq_commit.mp eq)) _
          rw [stored]
          exact knows

end Pool

end EspressoLogs.Lib
