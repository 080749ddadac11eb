import EspressoLogs.Lib.Concurrent

/-!
Proof outlines for the clients of a pool.

`Prog.Safe` follows a program statement by statement. Before each statement the
committed rows may have moved, as far as `rely` lets the other clients move
them; the statement is performed where the program has what it promises, and the
outline goes on with whatever it answers. An outline that holds when a client
starts holds at every point of every run (`Pool.Run.safe`), so each client has
kept its promises whenever it performs a statement.
-/

namespace EspressoLogs.Lib

open Schema

variable {T : Type} [Schema T] {E α β : Type}

section Outline

variable (rely : World T → Tables T → Prop) (promise : Stmt T → World T → Prop)

/-- Whatever the others do and whatever the statements answer, the program
performs them where it promised to, and ends as `post` or `fails` says. -/
def Prog.Safe (post : α → World T → Prop) (fails : E → World T → Prop) :
    Prog (Stmt T) Resp E α → World T → Prop
  | .pure a, w => post a w
  | .raise e, w => fails e w
  | .op s k, w => ∀ db, rely w db → promise s ⟨db, w.session⟩ ∧
      ∀ (found : List (RowId T)) (r : Resp s) (w' : World T),
        World.execOn found s ⟨db, w.session⟩ = (r, w') → Prog.Safe post fails (k r) w'

end Outline

namespace Prog

/-- The program that is one statement. -/
def ask (raised : StmtError → E) (s : Stmt T) : Prog (Stmt T) Resp E (Ans s) :=
  .op s fun
    | .ok a => .pure a
    | .error e => .raise (raised e)

namespace Safe

variable {rely : World T → Tables T → Prop} {promise : Stmt T → World T → Prop}
  {post post' : α → World T → Prop} {fails fails' : E → World T → Prop} {w : World T}

theorem mono {p : Prog (Stmt T) Resp E α} (safe : p.Safe rely promise post fails w)
    (hpost : ∀ a v, post a v → post' a v) (hfails : ∀ e v, fails e v → fails' e v) :
    p.Safe rely promise post' fails' w := by
  induction p generalizing w with
  | pure a => exact hpost a w safe
  | raise e => exact hfails e w safe
  | op s k ih =>
      intro db moved
      obtain ⟨kept, goes_on⟩ := safe db moved
      exact ⟨kept, fun found r w' answered => ih r (goes_on found r w' answered)⟩

theorem bind {p : Prog (Stmt T) Resp E α} {f : α → Prog (Stmt T) Resp E β}
    {after : β → World T → Prop}
    (first : p.Safe rely promise (fun a v => (f a).Safe rely promise after fails v) fails w) :
    (p >>= f).Safe rely promise after fails w := by
  induction p generalizing w with
  | pure a => exact first
  | raise e => exact first
  | op s k ih =>
      intro db moved
      obtain ⟨kept, goes_on⟩ := first db moved
      exact ⟨kept, fun found r w' answered => ih r (goes_on found r w' answered)⟩

theorem catchWith {p : Prog (Stmt T) Resp E α} {handler : E → Prog (Stmt T) Resp E α}
    (first : p.Safe rely promise post (fun e v => (handler e).Safe rely promise post fails v) w) :
    (p.catchWith handler).Safe rely promise post fails w := by
  induction p generalizing w with
  | pure a => exact first
  | raise e => exact first
  | op s k ih =>
      intro db moved
      obtain ⟨kept, goes_on⟩ := first db moved
      exact ⟨kept, fun found r w' answered => ih r (goes_on found r w' answered)⟩

/-- One statement. -/
theorem ask {raised : StmtError → E} {s : Stmt T} {post : Ans s → World T → Prop}
    (kept : ∀ db, rely w db → promise s ⟨db, w.session⟩)
    (answers : ∀ db found a w', rely w db →
      World.execOn found s ⟨db, w.session⟩ = (.ok a, w') → post a w')
    (raises : ∀ db found e w', rely w db →
      World.execOn found s ⟨db, w.session⟩ = (.error e, w') → fails (raised e) w') :
    (Prog.ask raised s).Safe rely promise post fails w := by
  intro db moved
  refine ⟨kept db moved, fun found r w' answered => ?_⟩
  cases r with
  | ok a => exact answers db found a w' moved answered
  | error e => exact raises db found e w' moved answered

/-- An invariant that the statements of a sublanguage keep. -/
theorem of_all {J : World T → Prop} {sub : Stmt T → Prop} {p : Prog (Stmt T) Resp E α}
    (within : p.All sub) (kept : ∀ s v, sub s → J v → ∀ db, rely v db → promise s ⟨db, v.session⟩)
    (step : ∀ s v, sub s → J v → ∀ db found, rely v db →
      J (World.execOn found s ⟨db, v.session⟩).2)
    (start : J w) : p.Safe rely promise (fun _ => J) (fun _ => J) w := by
  induction p generalizing w with
  | pure a => exact start
  | raise e => exact start
  | op s k ih =>
      intro db moved
      refine ⟨kept s w within.1 start db moved, fun found r w' answered => ?_⟩
      have next := step s w within.1 start db found moved
      rw [answered] at next
      exact ih r (within.2 r) next

/-- What the others may do once, they may do again. -/
theorem move (again : ∀ v db db', rely v db → rely ⟨db, v.session⟩ db' → rely v db')
    {p : Prog (Stmt T) Resp E α}
    (safe : p.Safe rely promise (fun _ _ => True) (fun _ _ => True) w) {db : Tables T}
    (moved : rely w db) :
    p.Safe rely promise (fun _ _ => True) (fun _ _ => True) ⟨db, w.session⟩ := by
  cases p with
  | pure a => trivial
  | raise e => trivial
  | op s k =>
      intro db' moved'
      exact safe db' (again w db db' moved moved')

end Safe

end Prog

/-! ### Outlines hold throughout -/

/-- The client keeps its promises from here on. -/
def Client.Safe (rely : World T → Tables T → Prop) (promise : Stmt T → World T → Prop)
    (db : Tables T) (c : Client T E α) : Prop :=
  c.prog.Safe rely promise (fun _ _ => True) (fun _ _ => True) ⟨db, c.session⟩

namespace Pool

variable {allowed : Pool T E α → Client T E α → List (Client T E α) → Stmt T → Prop}
  {rely : World T → Tables T → Prop} {promise : Stmt T → World T → Prop}

/-- A step keeps every outline, as long as the others can live with it. -/
theorem Step.safe {p p' : Pool T E α} (step : Step allowed p p')
    (still : ∀ w, rely w w.db)
    (again : ∀ v db db', rely v db → rely ⟨db, v.session⟩ db' → rely v db')
    (tolerated : ∀ c ∈ p.clients, rely ⟨p.db, c.session⟩ p'.db)
    (safe : ∀ c ∈ p.clients, c.Safe rely promise p.db) :
    ∀ c ∈ p'.clients, c.Safe rely promise p'.db := by
  cases step with
  | find looked => exact forall_mem_middle.mpr ⟨(forall_mem_middle.mp safe).1,
      (forall_mem_middle.mp safe).2⟩
  | @leave db before after log p session finished =>
      refine forall_mem_middle.mpr ⟨?_, (forall_mem_middle.mp safe).2⟩
      cases p with
      | pure a => trivial
      | raise e => trivial
      | op s k => exact finished.elim
  | perform ready fresh may answered clear =>
      refine forall_mem_middle.mpr ⟨?_, fun o ho => ?_⟩
      · exact ((forall_mem_middle.mp safe).1 _ (still _)).2 _ _ _ answered
      · exact ((forall_mem_middle.mp safe).2 o ho).move again
          ((forall_mem_middle.mp tolerated).2 o ho)

/-- Outlines that rely on nothing hold in every reachable pool. -/
theorem Run.safe {p p' : Pool T E α} (run : Run allowed p p')
    (safe : ∀ c ∈ p.clients, c.Safe (fun _ _ => True) promise p.db) :
    ∀ c ∈ p'.clients, c.Safe (fun _ _ => True) promise p'.db := by
  induction run with
  | refl => exact safe
  | tail _ step ih =>
      exact step.safe (fun _ => trivial) (fun _ _ _ _ _ => trivial) (fun _ _ => trivial) ih

/-- What every client promises of what it commits holds of what is committed. -/
theorem Run.committed {Q : Writes T → Prop} {p p' : Pool T E α} (run : Run allowed p p')
    (orderly : ∀ c ∈ p.clients, c.prog.All Stmt.Orderly)
    (safe : ∀ c ∈ p.clients, c.Safe (fun _ _ => True) promise p.db)
    (promises : ∀ w, promise .commit w → Q w.session.pending) (start : ∀ ws ∈ p.log, Q ws) :
    ∀ ws ∈ p'.log, Q ws := by
  induction run with
  | refl => exact start
  | @tail q q' before step ih =>
      cases step.did (Run.all before orderly) with
      | quiet here there db log writes =>
          rw [log]
          exact ih
      | wrote here there db log =>
          rw [log]
          exact ih
      | @committed _ _ c _ k here there prog may _ db log writes =>
          rw [log]
          refine List.forall_mem_cons.mpr ⟨promises ⟨q.db, c.session⟩ ?_, ih⟩
          have outline := Run.safe before safe c (here ▸ List.mem_append_right _ List.mem_cons_self)
          rw [Client.Safe, prog] at outline
          exact (outline q.db trivial).1

end Pool

/-! ### What answers say -/

namespace World

variable {w w' : World T} {found : List (RowId T)} {t : T}

/-- A statement that answers was performed in a transaction in order. -/
theorem exec_eq_ok {s : Stmt T} {a : Ans s} (rolling : s ≠ .rollback)
    (h : exec s w = (.ok a, w')) : w.session.failed = false ∧ perform s w.advance = (.ok a, w') := by
  cases s with
  | rollback => exact absurd rfl rolling
  | _ =>
      simp only [exec] at h
      split at h
      · cases h
      · rename_i inOrder
        split at h
        · cases h
        · exact ⟨Bool.eq_false_iff.mpr inOrder, h⟩

theorem execOn_select {p : Row t → Bool} {rows : List (Row t)}
    (h : execOn found (.select t p) w = (.ok rows, w')) :
    w.session.failed = false ∧ rows = (w.visible t).filter p ∧
      w'.session.pending = w.session.pending ∧ w'.db = w.db ∧ w'.session.failed = false := by
  obtain ⟨inOrder, performed⟩ := exec_eq_ok (s := .select t p) nofun h
  cases performed
  exact ⟨inOrder, rfl, rfl, rfl, inOrder⟩

theorem execOn_insert {make : RowId T → Except StmtError (Row t)} {r : Row t}
    (h : execOn found (.insert t make) w = (.ok r, w')) :
    w.session.failed = false ∧ make w.nextId = .ok r ∧ w.refused t (.ins r) = none ∧
      w'.session.pending = (w.session.add t (.ins r)).pending ∧ w'.db = w.db ∧
      w'.session.failed = false := by
  obtain ⟨inOrder, performed⟩ := exec_eq_ok (s := .insert t make) nofun h
  simp only [perform] at performed
  cases made : make w.advance.nextId with
  | error e =>
      rw [made] at performed
      cases performed
  | ok r₁ =>
      rw [made] at performed
      cases verdict : w.refused t (.ins r₁) with
      | some e =>
          have verdict' : w.advance.drew.refused t (.ins r₁) = some e := verdict
          simp only [write, verdict', fail] at performed
          cases performed
      | none =>
          have verdict' : w.advance.drew.refused t (.ins r₁) = none := verdict
          simp only [write, verdict'] at performed
          cases performed
          exact ⟨inOrder, made, verdict, rfl, rfl, inOrder⟩

/-- The rows that an `UPDATE` or `DELETE` takes of those that it looked up. -/
def matched (w : World T) (t : T) (p : Row t → Bool) (found : List (RowId T)) : List (Row t) :=
  (w.visible t).filter fun r => p r && decide (key t r ∈ found)

theorem mem_matched {p : Row t → Bool} {r : Row t} :
    r ∈ w.matched t p found ↔ r ∈ w.visible t ∧ p r = true ∧ key t r ∈ found := by
  simp [matched, List.mem_filter]

theorem execOn_update {p : Row t → Bool} {set : Row t → Except StmtError (Row t)}
    {rows : List (Row t)} (h : execOn found (.update t p set) w = (.ok rows, w')) :
    w.session.failed = false ∧ (∀ r ∈ w.matched t p found, rejected (set r) = none) ∧
      w.refused t (.upd (rewritten set (w.matched t p found))) = none ∧
      rows = (rewritten set (w.matched t p found)).map Prod.snd ∧
      w'.session.pending =
        (w.session.add t (.upd (rewritten set (w.matched t p found)))).pending ∧
      w'.db = w.db ∧ w'.session.failed = false := by
  obtain ⟨inOrder, performed⟩ := exec_eq_ok
    (s := .update t (fun r => p r && decide (key t r ∈ found)) set) nofun h
  simp only [perform] at performed
  have same : (w.advance.visible t).filter (fun r => p r && decide (key t r ∈ found)) =
      w.matched t p found := rfl
  rw [same] at performed
  cases valid : (w.matched t p found).findSome? fun r => rejected (set r) with
  | some e =>
      rw [valid] at performed
      cases performed
  | none =>
      rw [valid] at performed
      cases verdict : w.refused t (.upd (rewritten set (w.matched t p found))) with
      | some e =>
          have verdict' : w.advance.refused t (.upd (rewritten set (w.matched t p found))) =
            some e := verdict
          simp only [write, verdict', fail] at performed
          cases performed
      | none =>
          have verdict' : w.advance.refused t (.upd (rewritten set (w.matched t p found))) =
            none := verdict
          simp only [write, verdict'] at performed
          cases performed
          exact ⟨inOrder, List.findSome?_eq_none_iff.mp valid, rfl, rfl, rfl, rfl, inOrder⟩

/-- An insert adds its row to what the transaction sees. -/
theorem view_of_insert {make : RowId T → Except StmtError (Row t)} {r : Row t}
    (h : execOn found (.insert t make) w = (.ok r, w')) : w'.view t = w.view t ++ [r] := by
  obtain ⟨_, _, _, added, stored, _⟩ := execOn_insert h
  have same : w'.view t = (w.pend t (.ins r)).view t := by
    simp only [view, pend, added, stored]
  rw [same, pend_view_self]
  rfl

/-- An update rewrites the rows that it takes. -/
theorem view_of_update {p : Row t → Bool} {set : Row t → Except StmtError (Row t)}
    {rows : List (Row t)} (unsecured : secured t = false)
    (h : execOn found (.update t p set) w = (.ok rows, w')) :
    w'.view t = (w.view t).map fun r =>
      if (p r && decide (key t r ∈ found)) = true then (set r).toOption.getD r else r := by
  obtain ⟨_, _, _, _, added, stored, _⟩ := execOn_update h
  have same : w'.view t = (w.pend t (.upd (rewritten set (w.matched t p found)))).view t := by
    simp only [view, pend, added, stored]
  rw [same, pend_view_self, matched, visible_of_unsecured unsecured, rewritten,
    Change.apply_upd_filter]

/-! ### Alone -/

/-- A statement performed on all the rows that it looked up. -/
theorem execOn_targets (s : Stmt T) (w : World T) :
    execOn ((w.targets s).getD []) s w = exec s w := by
  have all {t : T} (p : Row t → Bool) :
      (w.advance.visible t).filter (fun r => p r &&
        decide (key t r ∈ ((w.visible t).filter p).map (key t))) = (w.visible t).filter p := by
    refine List.filter_congr fun r hr => ?_
    cases here : p r with
    | false => rfl
    | true =>
        have looked : key t r ∈ ((w.visible t).filter p).map (key t) :=
          List.mem_map_of_mem (List.mem_filter.mpr ⟨hr, here⟩)
        rw [decide_eq_true looked]
        rfl
  cases s with
  | update t p set =>
      show exec (.update t (fun r => p r &&
        decide (key t r ∈ ((w.visible t).filter p).map (key t))) set) w = exec (.update t p set) w
      simp only [exec, perform, all p]
      rfl
  | delete t p =>
      show exec (.delete t (fun r => p r &&
        decide (key t r ∈ ((w.visible t).filter p).map (key t)))) w = exec (.delete t p) w
      simp only [exec, perform, all p]
      rfl
  | deleteCascade t p =>
      show exec (.deleteCascade t (fun r => p r &&
        decide (key t r ∈ ((w.visible t).filter p).map (key t)))) w = exec (.deleteCascade t p) w
      simp only [exec, perform, all p]
      rfl
  | _ => rfl

end World

/-- One statement in a transaction in order. -/
theorem Prog.run_ask {raised : StmtError → E} {w : World T} (live : w.Live) (s : Stmt T) :
    (Prog.ask raised s).run World.exec w =
      ((w.perform s).1.mapError raised, (w.perform s).2) := by
  unfold Prog.ask
  rw [Prog.run, World.exec_of_live live]
  cases w.perform s with
  | mk answer w' => cases answer <;> rfl

/-- Nobody else changes the committed rows. -/
def Frozen (w : World T) (db : Tables T) : Prop := db = w.db

/-- What a program promises to have whenever it commits, it leaves the store with
when it runs alone. -/
theorem Prog.Safe.stored {promise : Stmt T → World T → Prop} {post : α → World T → Prop}
    {fails : E → World T → Prop} {Q : Tables T → Prop}
    (promises : ∀ w, promise .commit w → Q w.view) {p : Prog (Stmt T) Resp E α} {w : World T}
    (safe : p.Safe Frozen promise post fails w) (start : Q w.db) : Q (p.run World.exec w).2.db := by
  induction p generalizing w with
  | pure a => exact start
  | raise e => exact start
  | op s k ih =>
      obtain ⟨kept, goes_on⟩ := safe w.db rfl
      have answered := World.execOn_targets s w
      refine ih (World.exec s w).1 (goes_on _ (World.exec s w).1 (World.exec s w).2 answered) ?_
      by_cases committing : s = .commit
      · subst committing
        rcases World.exec_commit w with ⟨_, _, db, _⟩ | ⟨_, db, _⟩
        · rw [db]
          exact promises w kept
        · rw [db]
          exact start
      · rw [World.exec_db committing]
        exact start

end EspressoLogs.Lib
