import EspressoLogs.Lib.Follow

/-!
What stays in the tables.

Some tables lose no rows, and of their rows a column stays as it is: no statement of
any client deletes from them, and no update touches the column. What is stored there
once is then stored in every later pool of a run, whichever way the clients' statements
fall, and a client can rely on what it read or wrote there until it is over.
-/

namespace EspressoLogs.Lib

open Schema

namespace Change

variable {R L : Type} [DecidableEq R] {column : R → L} {rows : List R} {r : R}

/-- The change takes no value of the column away. -/
def Retains (column : R → L) : Change R → Prop
  | .ins _ => True
  | .upd pairs => ∀ p ∈ pairs, column p.2 = column p.1
  | .del gone => gone = []

theorem Retains.apply {c : Change R} (retains : c.Retains column) (here : r ∈ rows) :
    ∃ r' ∈ c.apply rows, column r' = column r := by
  cases c with
  | ins n => exact ⟨r, List.mem_append_left _ here, rfl⟩
  | del gone =>
      refine ⟨r, mem_apply_of_notMem_olds here fun mem => ?_, rfl⟩
      have none : gone = [] := retains
      subst none
      exact List.not_mem_nil mem
  | upd pairs =>
      refine ⟨(pairs.lookup r).getD r, List.mem_map_of_mem here, ?_⟩
      cases found : pairs.lookup r with
      | none => rfl
      | some n => exact retains (r, n) (mem_of_lookup found)

theorem retained {cs : List (Change R)} (retains : ∀ c ∈ cs, c.Retains column) (here : r ∈ rows) :
    ∃ r' ∈ applyAll cs rows, column r' = column r := by
  induction cs generalizing rows r with
  | nil => exact ⟨r, here, rfl⟩
  | cons c cs ih =>
      obtain ⟨first, rest⟩ := List.forall_mem_cons.mp retains
      obtain ⟨r₁, here₁, same₁⟩ := first.apply here
      obtain ⟨r₂, here₂, same₂⟩ := ih rest here₁
      exact ⟨r₂, here₂, same₂.trans same₁⟩

end Change

/-! ### Tables that retain a column -/

variable {T : Type} [Schema T] {E α : Type} {L : T → Type}

section Kept

variable (kept : T → Bool) (column : (t : T) → Row t → L t)

/-- A statement that deletes nothing from the tables that are kept, and leaves the
column of their rows as it is. -/
def Stmt.Retains : Stmt T → Prop
  | .update t _ set => kept t = true → ∀ r r', set r = .ok r' → column t r' = column t r
  | .delete t _ => kept t = false
  | .deleteCascade _ _ => False
  | _ => True

/-- What a transaction wrote takes none of their values away. -/
def Writes.Retain (ws : Writes T) : Prop :=
  ∀ t, kept t = true → ∀ c ∈ ws t, c.Retains (column t)

/-- Every value that is stored in one is stored in the other. -/
def Retained (db db' : Tables T) : Prop :=
  ∀ t, kept t = true → ∀ r ∈ db t, ∃ r' ∈ db' t, column t r' = column t r

end Kept

variable {kept : T → Bool} {column : (t : T) → Row t → L t}

theorem Stmt.Retains.narrow {s : Stmt T} (h : s.Retains kept column) (found : List (RowId T)) :
    (s.narrow found).Retains kept column := by
  cases s <;> exact h

theorem Writes.retain_nil : Writes.Retain kept column (fun _ => ([] : List (Change (Row _)))) :=
  fun _ _ _ none => absurd none List.not_mem_nil

theorem Writes.Retain.add {ws : Writes T} {t : T} {c : Change (Row t)}
    (retain : ws.Retain kept column) (retains : kept t = true → c.Retains (column t)) :
    Writes.Retain kept column (Function.update ws t (ws t ++ [c])) := by
  intro u hu d hd
  by_cases same : u = t
  · subst same
    rw [Function.update_self] at hd
    rcases List.mem_append.mp hd with old | new
    · exact retain u hu d old
    · rw [List.mem_singleton.mp new]
      exact retains hu
  · rw [Function.update_of_ne same] at hd
    exact retain u hu d hd

namespace Retained

theorem refl (db : Tables T) : Retained kept column db db := fun _ _ r hr => ⟨r, hr, rfl⟩

theorem trans {db₁ db₂ db₃ : Tables T} (first : Retained kept column db₁ db₂)
    (second : Retained kept column db₂ db₃) : Retained kept column db₁ db₃ := by
  intro t ht r hr
  obtain ⟨r₂, hr₂, same₂⟩ := first t ht r hr
  obtain ⟨r₃, hr₃, same₃⟩ := second t ht r₂ hr₂
  exact ⟨r₃, hr₃, same₃.trans same₂⟩

theorem of_writes {ws : Writes T} {db db' : Tables T} (retain : ws.Retain kept column)
    (stored : ∀ t, db' t = Change.applyAll (ws t) (db t)) : Retained kept column db db' := by
  intro t ht r hr
  rw [stored t]
  exact Change.retained (retain t ht) hr

end Retained

theorem Wrote.retains {w : World T} {s : Stmt T} {t : T} {c : Change (Row t)}
    (wrote : Wrote w s t c) (retains : s.Retains kept column) (ht : kept t = true) :
    c.Retains (column t) := by
  cases wrote with
  | insert made => trivial
  | delete =>
      have not : kept t = false := retains
      exact absurd (not.symm.trans ht) Bool.false_ne_true
  | @update _ p set valid =>
      intro pair hpair
      obtain ⟨r, hr, rfl⟩ := List.mem_map.mp hpair
      cases new : set r with
      | error e =>
          have none := valid r hr
          rw [new] at none
          cases none
      | ok r' => exact retains ht r r' new

/-- A statement that retains the column, in a transaction that does. -/
theorem World.execOn_retains {s : Stmt T} (orderly : s.Orderly) (retains : s.Retains kept column)
    (found : List (RowId T)) {w : World T}
    (start : Writes.Retain kept column w.session.pending) :
    Writes.Retain kept column (World.execOn found s w).2.session.pending ∧
      Retained kept column w.db (World.execOn found s w).2.db := by
  by_cases committing : s = .commit
  · subst committing
    show Writes.Retain kept column (World.exec .commit w).2.session.pending ∧
      Retained kept column w.db (World.exec .commit w).2.db
    rcases World.exec_commit w with ⟨_, empty, db, _⟩ | ⟨_, db, empty | same⟩
    · rw [empty, db]
      exact ⟨Writes.retain_nil, Retained.of_writes start fun _ => rfl⟩
    · rw [empty, db]
      exact ⟨Writes.retain_nil, Retained.refl _⟩
    · rw [same, db]
      exact ⟨start, Retained.refl _⟩
  · have uncommitting : s.narrow found ≠ .commit :=
      fun eq => committing (Stmt.narrow_eq_commit.mp eq)
    rw [World.execOn_world, World.exec_db uncommitting]
    refine ⟨?_, Retained.refl _⟩
    cases World.exec_leaves uncommitting (orderly.narrow found) (w := w) with
    | kept same =>
        rw [same]
        exact start
    | dropped empty =>
        rw [empty]
        exact Writes.retain_nil
    | wrote t c _ change _ added =>
        rw [added]
        exact start.add (change.retains (retains.narrow found))

/-! ### Runs -/

/-- A program all of whose statements retain the column. -/
abbrev Prog.Retaining (kept : T → Bool) (column : (t : T) → Row t → L t)
    (p : Prog (Stmt T) Resp E α) : Prop :=
  p.All fun s => s.Orderly ∧ s.Retains kept column

namespace Pool

variable {allowed : Pool T E α → Client T E α → List (Client T E α) → Stmt T → Prop}
  {p p' : Pool T E α}

variable (kept column) in
/-- Every client retains the column, and did so far. -/
structure Retaining (p : Pool T E α) : Prop where
  progs : ∀ c ∈ p.clients, c.prog.Retaining kept column
  writes : ∀ c ∈ p.clients, c.writes.Retain kept column

theorem Step.retaining (step : Step allowed p p') (retaining : p.Retaining kept column) :
    p'.Retaining kept column ∧ Retained kept column p.db p'.db := by
  have progs := step.all retaining.progs
  have orderly : ∀ c ∈ p.clients, c.prog.All Stmt.Orderly :=
    fun c hc => (retaining.progs c hc).mono fun _ h => h.1
  -- only a commit changes the database, and it does so by writes that retain
  cases step.did orderly with
  | quiet here there db log writes =>
      refine ⟨⟨progs, ?_⟩, db ▸ Retained.refl _⟩
      have old := retaining.writes
      rw [here] at old
      rw [there]
      refine forall_mem_middle.mpr ⟨?_, (forall_mem_middle.mp old).2⟩
      rcases writes with same | empty
      · rw [same]
        exact (forall_mem_middle.mp old).1
      · rw [empty]
        exact Writes.retain_nil
  | @wrote before after c c' s k t change here there db log prog may fresh inOrder written
      verdict writes =>
      refine ⟨⟨progs, ?_⟩, db ▸ Retained.refl _⟩
      have mine : c ∈ p.clients := here ▸ List.mem_append_right _ List.mem_cons_self
      have own := retaining.progs c mine
      rw [prog] at own
      have old := retaining.writes
      rw [here] at old
      rw [there]
      refine forall_mem_middle.mpr ⟨?_, (forall_mem_middle.mp old).2⟩
      rw [writes]
      exact (forall_mem_middle.mp old).1.add (written.retains (own.1.2.narrow _))
  | @committed before after c c' k here there prog may inOrder db log writes =>
      have mine : c ∈ p.clients := here ▸ List.mem_append_right _ List.mem_cons_self
      refine ⟨⟨progs, ?_⟩, Retained.of_writes (retaining.writes c mine) fun t => congrFun db t⟩
      have old := retaining.writes
      rw [here] at old
      rw [there]
      refine forall_mem_middle.mpr ⟨?_, (forall_mem_middle.mp old).2⟩
      rw [writes]
      exact Writes.retain_nil

end Pool

/-! ### Outlines that rely on what stays -/

/-- The others take nothing away that is kept. -/
def Unharmed (kept : T → Bool) (column : (t : T) → Row t → L t) (w : World T)
    (db : Tables T) : Prop :=
  Retained kept column w.db db

theorem Unharmed.trans {w : World T} {db db' : Tables T} (first : Unharmed kept column w db)
    (second : Unharmed kept column ⟨db, w.session⟩ db') : Unharmed kept column w db' :=
  Retained.trans first second

theorem Prog.Safe.follows {rely : World T → Tables T → Prop} {promise : Stmt T → World T → Prop}
    {post : α → World T → Prop} {fails : E → World T → Prop} {p : Prog (Stmt T) Resp E α}
    {w : World T} (given : Stmt T → List (RowId T) → World T → Prop)
    (safe : p.Safe rely promise post fails w)
    (stays : ∀ v db₀ db, rely v db₀ → rely ⟨db₀, v.session⟩ db → rely v db) :
    p.Follows rely given promise post fails w := by
  induction p generalizing w with
  | pure a => exact safe
  | raise e => exact safe
  | op s k ih =>
      intro db₀ db moved again _
      obtain ⟨kept, goes_on⟩ := safe db (stays w db₀ db moved again)
      exact ⟨kept, fun r w' answered => ih r (goes_on _ r w' answered)⟩

/-- Every program follows the outline that promises nothing. -/
theorem Prog.Safe.anyhow {rely : World T → Tables T → Prop} (p : Prog (Stmt T) Resp E α)
    {w : World T} : p.Safe rely (fun _ _ => True) (fun _ _ => True) (fun _ _ => True) w := by
  induction p generalizing w with
  | pure a => trivial
  | raise e => trivial
  | op s k ih => exact fun db moved => ⟨trivial, fun found r w' answered => ih r⟩

/-- Two outlines of one program. -/
theorem Prog.Safe.and {rely : World T → Tables T → Prop} {promise : Stmt T → World T → Prop}
    {post post' : α → World T → Prop} {fails fails' : E → World T → Prop}
    {p : Prog (Stmt T) Resp E α} {w : World T} (first : p.Safe rely promise post fails w)
    (second : p.Safe rely promise post' fails' w) :
    p.Safe rely promise (fun a v => post a v ∧ post' a v) (fun e v => fails e v ∧ fails' e v) w := by
  induction p generalizing w with
  | pure a => exact ⟨first, second⟩
  | raise e => exact ⟨first, second⟩
  | op s k ih =>
      intro db moved
      refine ⟨(first db moved).1, fun found r w' answered => ?_⟩
      exact ih r ((first db moved).2 found r w' answered) ((second db moved).2 found r w' answered)

/-- What a program can rely on where it retains the column itself: that which no change that
retains it makes false. -/
theorem Prog.Safe.of_retaining {rely : World T → Tables T → Prop}
    (unharmed : ∀ w db, rely w db → Retained kept column w.db db) {F : Tables T → Prop}
    (stays : ∀ db db', F db → Retained kept column db db' → F db')
    {p : Prog (Stmt T) Resp E α} (retaining : p.Retaining kept column) {w : World T}
    (start : F w.db) (own : Writes.Retain kept column w.session.pending) :
    p.Safe rely (fun _ _ => True) (fun _ v => F v.db) (fun _ v => F v.db) w := by
  refine Prog.Safe.mono (Prog.Safe.of_all
    (J := fun v => F v.db ∧ Writes.Retain kept column v.session.pending) retaining
    (fun _ _ _ _ _ _ => trivial) ?_ ⟨start, own⟩) (fun _ _ here => here.1) fun _ _ here => here.1
  rintro s v ⟨orderly, retains⟩ ⟨here, retain⟩ db found moved
  obtain ⟨retain', retained⟩ := World.execOn_retains orderly retains found
    (w := ⟨db, v.session⟩) retain
  exact ⟨stays _ _ (stays _ _ here (unharmed v db moved)) retained, retain'⟩

/-- What a program says of its end, when it says it of rows that are kept, holds in every
pool in which it has ended. -/
theorem Pool.Run.ended {allowed : Pool T E α → Client T E α → List (Client T E α) → Stmt T → Prop}
    {p p' : Pool T E α} (run : Run allowed p p') (retaining : p.Retaining kept column)
    {post : α → Tables T → Prop}
    (stays : ∀ a db db', post a db → Retained kept column db db' → post a db')
    {i : Nat} {c : Client T E α} (here : p.clients[i]? = some c) (start : c.found = none)
    (safe : c.prog.Safe (Unharmed kept column) (fun _ _ => True) (fun a v => post a v.db)
      (fun _ _ => True) ⟨p.db, c.session⟩)
    {c' : Client T E α} (there : p'.clients[i]? = some c') {a : α} (returned : c'.prog = .pure a) :
    post a p'.db := by
  let o : Outline T E α :=
    { rely := Unharmed kept column, given := fun _ _ _ => True, promise := fun _ _ => True,
      post := fun a v => post a v.db, fails := fun _ _ => True }
  have stable : o.Stable :=
    { again := fun _ _ _ first second => Unharmed.trans first second
      post := fun a w db said moved => stays a w.db db said moved
      fails := fun _ _ _ _ _ => trivial
      ended := fun _ _ said => said
      failed := fun _ _ _ => trivial }
  have follows : Follows o i p :=
    ⟨c, here, .between start (safe.follows _ fun _ _ _ first second =>
      Unharmed.trans first second)⟩
  have at_end : Follows o i p' := (Run.follows (I := Retaining kept column) run
    (fun _ _ so_far step => (step.retaining so_far).1) retaining stable
    (fun q _ _ _ => Retained.refl q.db) (fun _ _ _ so_far step _ _ => (step.retaining so_far).2)
    (fun _ _ _ _ _ => trivial) follows).2
  exact at_end.ended there returned

/-! ### Alone -/

/-- How a run ended. -/
def Ended (post : α → World T → Prop) (fails : E → World T → Prop) : Except E α × World T → Prop
  | (.ok a, w) => post a w
  | (.error e, w) => fails e w

/-- A program that runs alone ends as its outline says. -/
theorem Prog.Safe.ended {promise : Stmt T → World T → Prop} {post : α → World T → Prop}
    {fails : E → World T → Prop} {p : Prog (Stmt T) Resp E α} {w : World T}
    (safe : p.Safe Frozen promise post fails w) : Ended post fails (p.run World.exec w) := by
  induction p generalizing w with
  | pure a => exact safe
  | raise e => exact safe
  | op s k ih =>
      obtain ⟨_, goes_on⟩ := safe w.db rfl
      exact ih (World.exec s w).1 (goes_on _ _ _ (World.execOn_targets s w))

end EspressoLogs.Lib
