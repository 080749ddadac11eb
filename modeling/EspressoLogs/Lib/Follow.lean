import EspressoLogs.Lib.Outline

/-!
Outlines of one client, with what its statements looked up.

`Prog.Follows` follows a program like `Prog.Safe`, and knows besides that an `UPDATE` or
`DELETE` looked its rows up in a state that the program could meet, and what is
`given` of the rows that a statement is performed on. An outline that a client of a
run follows once it follows throughout, up to what holds when it is over.
-/

namespace EspressoLogs.Lib

open Schema

variable {T : Type} [Schema T] {E α β : Type}

/-- The rows that a statement is performed on, where it looked them up. -/
def World.lookedUp (w : World T) (s : Stmt T) : List (RowId T) := (w.targets s).getD []

/-- A statement that answers leaves a session as live as it was. -/
theorem World.live_execOn {w w' : World T} {found : List (RowId T)} {s : Stmt T} {a : Ans s}
    (live : w.Live) (answered : World.execOn found s w = (.ok a, w')) : w'.Live := by
  have world : w' = (World.exec (s.narrow found) w).2 := by rw [← World.execOn_world, answered]
  refine ⟨?_, world ▸ World.faults_exec live.faults⟩
  rw [world, ← World.execOn_world]
  cases s <;> exact World.failed_of_exec_ok (congrArg Prod.fst answered)

section Outline

variable (rely : World T → Tables T → Prop) (given : Stmt T → List (RowId T) → World T → Prop)
  (promise : Stmt T → World T → Prop)

/-- Whatever the others do between its statements and between the two halves of one,
the program performs them where it promised to, and ends as `post` or `fails` says. -/
def Prog.Follows (post : α → World T → Prop) (fails : E → World T → Prop) :
    Prog (Stmt T) Resp E α → World T → Prop
  | .pure a, w => post a w
  | .raise e, w => fails e w
  | .op s k, w => ∀ db₀ db, rely w db₀ → rely ⟨db₀, w.session⟩ db →
      given s (World.lookedUp ⟨db₀, w.session⟩ s) ⟨db, w.session⟩ → promise s ⟨db, w.session⟩ ∧
        ∀ (r : Resp s) (w' : World T),
          World.execOn (World.lookedUp ⟨db₀, w.session⟩ s) s ⟨db, w.session⟩ = (r, w') →
            Prog.Follows post fails (k r) w'

end Outline

namespace Prog.Follows

variable {rely : World T → Tables T → Prop} {given : Stmt T → List (RowId T) → World T → Prop}
  {promise : Stmt T → World T → Prop} {post post' : α → World T → Prop}
  {fails fails' : E → World T → Prop} {w : World T}

theorem mono {p : Prog (Stmt T) Resp E α} (follows : p.Follows rely given promise post fails w)
    (hpost : ∀ a v, post a v → post' a v) (hfails : ∀ e v, fails e v → fails' e v) :
    p.Follows rely given promise post' fails' w := by
  induction p generalizing w with
  | pure a => exact hpost a w follows
  | raise e => exact hfails e w follows
  | op s k ih =>
      intro db₀ db moved again allowed
      obtain ⟨kept, goes_on⟩ := follows db₀ db moved again allowed
      exact ⟨kept, fun r w' answered => ih r (goes_on r w' answered)⟩

theorem bind {p : Prog (Stmt T) Resp E α} {f : α → Prog (Stmt T) Resp E β}
    {after : β → World T → Prop}
    (first : p.Follows rely given promise
      (fun a v => (f a).Follows rely given promise after fails v) fails w) :
    (p >>= f).Follows rely given promise after fails w := by
  induction p generalizing w with
  | pure a => exact first
  | raise e => exact first
  | op s k ih =>
      intro db₀ db moved again allowed
      obtain ⟨kept, goes_on⟩ := first db₀ db moved again allowed
      exact ⟨kept, fun r w' answered => ih r (goes_on r w' answered)⟩

theorem catchWith {p : Prog (Stmt T) Resp E α} {handler : E → Prog (Stmt T) Resp E α}
    (first : p.Follows rely given promise post
      (fun e v => (handler e).Follows rely given promise post fails v) w) :
    (p.catchWith handler).Follows rely given promise post fails w := by
  induction p generalizing w with
  | pure a => exact first
  | raise e => exact first
  | op s k ih =>
      intro db₀ db moved again allowed
      obtain ⟨kept, goes_on⟩ := first db₀ db moved again allowed
      exact ⟨kept, fun r w' answered => ih r (goes_on r w' answered)⟩

/-- One statement. -/
theorem ask {raised : StmtError → E} {s : Stmt T} {post : Ans s → World T → Prop}
    (kept : ∀ db₀ db, rely w db₀ → rely ⟨db₀, w.session⟩ db →
      given s (World.lookedUp ⟨db₀, w.session⟩ s) ⟨db, w.session⟩ → promise s ⟨db, w.session⟩)
    (answers : ∀ db₀ db a w', rely w db₀ → rely ⟨db₀, w.session⟩ db →
      given s (World.lookedUp ⟨db₀, w.session⟩ s) ⟨db, w.session⟩ →
        World.execOn (World.lookedUp ⟨db₀, w.session⟩ s) s ⟨db, w.session⟩ = (.ok a, w') →
          post a w')
    (raises : ∀ db₀ db e w', rely w db₀ → rely ⟨db₀, w.session⟩ db →
      given s (World.lookedUp ⟨db₀, w.session⟩ s) ⟨db, w.session⟩ →
        World.execOn (World.lookedUp ⟨db₀, w.session⟩ s) s ⟨db, w.session⟩ = (.error e, w') →
          fails (raised e) w') :
    (Prog.ask raised s).Follows rely given promise post fails w := by
  intro db₀ db moved again allowed
  refine ⟨kept db₀ db moved again allowed, fun r w' answered => ?_⟩
  cases r with
  | ok a => exact answers db₀ db a w' moved again allowed answered
  | error e => exact raises db₀ db e w' moved again allowed answered

end Prog.Follows

/-! ### Along a run -/

/-- What a client relies on, what it is given, what it promises, and how it ends. -/
structure Outline (T : Type) [Schema T] (E α : Type) where
  rely : World T → Tables T → Prop
  given : Stmt T → List (RowId T) → World T → Prop
  promise : Stmt T → World T → Prop
  post : α → World T → Prop
  fails : E → World T → Prop

namespace Outline

variable (o : Outline T E α)

/-- What the others may do once, they may do again, and it changes nothing about how
the client ends; nor does the end of its session. -/
structure Stable : Prop where
  again : ∀ w db db', o.rely w db → o.rely ⟨db, w.session⟩ db' → o.rely w db'
  post : ∀ a w db, o.post a w → o.rely w db → o.post a ⟨db, w.session⟩
  fails : ∀ e w db, o.fails e w → o.rely w db → o.fails e ⟨db, w.session⟩
  ended : ∀ a w, o.post a w → o.post a ⟨w.db, w.session.ended⟩
  failed : ∀ e w, o.fails e w → o.fails e ⟨w.db, w.session.ended⟩

/-- The program follows the outline. -/
abbrev Allows (p : Prog (Stmt T) Resp E α) (w : World T) : Prop :=
  p.Follows o.rely o.given o.promise o.post o.fails w

/-- The client follows the outline, from its last statement or from where it looked up
the rows of the one that is under way. -/
inductive Holds (db : Tables T) (c : Client T E α) : Prop where
  | between (found : c.found = none) (allows : o.Allows c.prog ⟨db, c.session⟩)
  | within {s : Stmt T} {k : Resp s → Prog (Stmt T) Resp E α} {db₀ : Tables T}
      (prog : c.prog = .op s k) (allows : o.Allows c.prog ⟨db₀, c.session⟩)
      (start : o.rely ⟨db₀, c.session⟩ db₀)
      (looked : World.targets ⟨db₀, c.session⟩ s = c.found) (some : c.found.isSome)
      (moved : o.rely ⟨db₀, c.session⟩ db)

variable {o} {db db' : Tables T} {c : Client T E α}

theorem Allows.move (stable : o.Stable) {p : Prog (Stmt T) Resp E α} {w : World T}
    (allows : o.Allows p w) (moved : o.rely w db) : o.Allows p ⟨db, w.session⟩ := by
  cases p with
  | pure a => exact stable.post a w db allows moved
  | raise e => exact stable.fails e w db allows moved
  | op s k =>
      intro db₀ db₁ moved' again allowed
      exact allows db₀ db₁ (stable.again w db db₀ moved moved') again allowed

/-- The others make a step. -/
theorem Holds.move (stable : o.Stable) (holds : o.Holds db c)
    (moved : o.rely ⟨db, c.session⟩ db') : o.Holds db' c := by
  cases holds with
  | between found allows => exact .between found (Allows.move stable allows moved)
  | within prog allows start looked some earlier =>
      exact .within prog allows start looked some (stable.again _ _ _ earlier moved)

end Outline

namespace Pool

variable {allowed : Pool T E α → Client T E α → List (Client T E α) → Stmt T → Prop}
  {o : Outline T E α} {i : Nat}

/-- The client at a position follows the outline. -/
def Follows (o : Outline T E α) (i : Nat) (p : Pool T E α) : Prop :=
  ∃ c, p.clients[i]? = some c ∧ o.Holds p.db c

/-- A step keeps the outline of the client at a position, as long as that client can
live with what the others do. -/
theorem Step.follows {p p' : Pool T E α} (step : Step allowed p p') (stable : o.Stable)
    (still : ∀ c, p.clients[i]? = some c → o.rely ⟨p.db, c.session⟩ p.db)
    (tolerated : ∀ c, p.clients[i]? = some c → p'.clients[i]? = some c →
      o.rely ⟨p.db, c.session⟩ p'.db)
    (granted : ∀ c others s, allowed p c others s →
      o.given s (c.found.getD []) ⟨p.db, c.session⟩)
    (follows : Follows o i p) : Follows o i p' := by
  obtain ⟨c, here, holds⟩ := follows
  cases step with
  | @find db before after log s k session found looked =>
      by_cases mine : i = before.length
      · subst mine
        have same := here.symm.trans (getElem?_middle before after _)
        cases same
        have stays : o.rely ⟨db, session⟩ db := still _ here
        refine ⟨_, getElem?_middle before after _, ?_⟩
        cases holds with
        | between none allows => exact .within rfl allows stays looked rfl stays
        | within prog allows start looked' some moved => cases some
      · exact ⟨c, (getElem?_middle_of_ne mine _ _).trans here, holds⟩
  | @leave db before after log prog session finished =>
      by_cases mine : i = before.length
      · subst mine
        have same := here.symm.trans (getElem?_middle before after _)
        cases same
        refine ⟨_, getElem?_middle before after _, ?_⟩
        cases holds with
        | between none allows =>
            refine .between rfl ?_
            cases prog with
            | pure a => exact stable.ended a _ allows
            | raise e => exact stable.failed e _ allows
            | op s k => exact finished.elim
        | within prog allows start looked some moved => cases some
      · exact ⟨c, (getElem?_middle_of_ne mine _ _).trans here, holds⟩
  | @perform db before after log s k session found r w ready fresh may answered clear =>
      -- a step of another client is one that the outline tolerates
      by_cases mine : i = before.length
      · subst mine
        have same := here.symm.trans (getElem?_middle before after _)
        cases same
        refine ⟨_, getElem?_middle before after _, .between rfl ?_⟩
        have given := granted _ _ _ may
        -- the rows that the statement waits for were looked up in an older state; between
        -- then and now only tolerated changes were made
        cases holds with
        | between none allows =>
            cases none
            have none : World.lookedUp ⟨db, session⟩ s = [] := by
              cases looked : World.targets ⟨db, session⟩ s with
              | none => rw [World.lookedUp, looked, Option.getD_none]
              | some l =>
                  rw [looked] at ready
                  exact absurd (ready rfl) Bool.false_ne_true
            have next := allows db db (still _ here) (still _ here)
            rw [none] at next
            exact (next given).2 r w answered
        | @within s' k' db₀ prog allows start looked some moved =>
            cases prog
            have same : World.lookedUp ⟨db₀, session⟩ s = found.getD [] :=
              congrArg (fun l => Option.getD l []) looked
            have next := allows db₀ db start moved
            rw [same] at next
            exact (next given).2 r w answered
      · have there := (getElem?_middle_of_ne mine ⟨k r, w.session, none⟩ _).trans here
        exact ⟨c, there, holds.move stable (tolerated c here there)⟩

/-- Along a run of pools with an invariant. -/
theorem Run.follows {I : Pool T E α → Prop} {p p' : Pool T E α} (run : Run allowed p p')
    (keeps : ∀ q q', I q → Step allowed q q' → I q') (start : I p) (stable : o.Stable)
    (still : ∀ q c, I q → q.clients[i]? = some c → o.rely ⟨q.db, c.session⟩ q.db)
    (tolerated : ∀ q q' c, I q → Step allowed q q' → q.clients[i]? = some c →
      q'.clients[i]? = some c → o.rely ⟨q.db, c.session⟩ q'.db)
    (granted : ∀ q c others s, allowed q c others s →
      o.given s (c.found.getD []) ⟨q.db, c.session⟩)
    (follows : Follows o i p) : I p' ∧ Follows o i p' := by
  induction run with
  | refl => exact ⟨start, follows⟩
  | tail _ step ih =>
      obtain ⟨kept, so_far⟩ := ih
      exact ⟨keeps _ _ kept step, step.follows stable (fun c here => still _ c kept here)
        (fun c here there => tolerated _ _ c kept step here there) (granted _) so_far⟩

/-- A client that is about to commit has what it promised. -/
theorem Follows.promised {p : Pool T E α} (follows : Follows o i p)
    (still : ∀ c, p.clients[i]? = some c → o.rely ⟨p.db, c.session⟩ p.db)
    (granted : ∀ w, o.given .commit [] w) {c : Client T E α} (here : p.clients[i]? = some c)
    {k : Resp (.commit : Stmt T) → Prog (Stmt T) Resp E α} (prog : c.prog = .op .commit k) :
    o.promise .commit ⟨p.db, c.session⟩ := by
  obtain ⟨c', here', holds⟩ := follows
  cases here.symm.trans here'
  cases holds with
  | between _ allows =>
      rw [prog] at allows
      have stays := still c here
      exact (allows p.db p.db stays stays (granted _)).1
  | within prog' allows start looked some moved =>
      rw [prog] at prog'
      cases prog'
      rw [← looked] at some
      cases some

/-- A client that ended did so as its outline says. -/
theorem Follows.ended {p : Pool T E α} (follows : Follows o i p) {c : Client T E α}
    (here : p.clients[i]? = some c) {a : α} (prog : c.prog = .pure a) :
    o.post a ⟨p.db, c.session⟩ := by
  obtain ⟨c', here', holds⟩ := follows
  cases here.symm.trans here'
  cases holds with
  | between _ allows =>
      rw [prog] at allows
      exact allows
  | within prog' allows start looked some moved =>
      rw [prog] at prog'
      cases prog'

/-- What a client sees of a step of the others: nothing, or what one of them committed
that did not stand in its way. -/
theorem Step.seen {p p' : Pool T E α} (step : Step allowed p p') (inOrder : p.InOrder)
    {c : Client T E α} (here : p.clients[i]? = some c) (there : p'.clients[i]? = some c) :
    p'.db = p.db ∨ ∃ other ∈ p.clients, Clear other.writes c.writes ∧
      p'.log = other.writes :: p.log ∧
        ∀ t, p'.db t = Change.applyAll (other.writes t) (p.db t) := by
  cases step.did fun c hc => (inOrder.clients c hc).orderly with
  | quiet _ _ db => exact .inl db
  | wrote _ _ db => exact .inl db
  | @committed before after c₁ c₁' k clients clients' prog may _ db log writes =>
      refine .inr ⟨c₁, clients ▸ List.mem_append_right _ List.mem_cons_self, ?_, log,
        fun t => congrFun db t⟩
      by_cases mine : i = before.length
      · -- the client itself, which has nothing pending then
        subst mine
        rw [clients'] at there
        cases there.symm.trans (getElem?_middle before after c₁')
        rw [writes]
        exact (clear_nil _).symm
      · rw [clients] at here
        have clear := inOrder.clear
        rw [clients] at clear
        exact (pairwise_middle.mp clear).1 c (mem_of_getElem?_middle mine here)

/-- A step that logs what a transaction wrote made it part of the committed rows. -/
theorem Step.stored {p p' : Pool T E α} (step : Step allowed p p') (inOrder : p.InOrder)
    {ws : Writes T} (logged : p'.log = ws :: p.log) (t : T) :
    p'.db t = Change.applyAll (ws t) (p.db t) := by
  cases step.did fun c hc => (inOrder.clients c hc).orderly with
  | quiet _ _ _ log => exact absurd (log.symm.trans logged) (List.cons_ne_self _ _).symm
  | wrote _ _ _ log => exact absurd (log.symm.trans logged) (List.cons_ne_self _ _).symm
  | committed _ _ _ _ _ db log =>
      rw [← (List.cons.inj (log.symm.trans logged)).1]
      exact congrFun db t

end Pool

end EspressoLogs.Lib
