import EspressoLogs.Auth.Endpoints
import EspressoLogs.Lib.Lockout
import Mathlib.Algebra.Order.Group.Int

/-!
What the lock of an account is good for.

Login attempts on one account, one after the other. As long as each password can be
checked and the counter can hold the failures, the account goes through the attempts as a
gate does (`Gate.course`), so that the failures that are let through in a window of the
lock's length are bounded just when those are that arrive after a lock has run out.
-/

namespace EspressoLogs.Auth

open Lib Py

/-! ### Statements -/

section Statements

variable {w : World Table} (live : w.Live)

include live

theorem run_select (t : Table) (p : t.Row → Bool) :
    (AuthM.select t p).run World.exec w = (.ok ((w.view t).filter p), w) := by
  have visible : w.visible t = w.view t := World.visible_of_unsecured rfl
  refine Eq.trans (Prog.run_ask live (.select t p)) ?_
  rw [World.perform, visible]
  rfl

theorem run_commit : AuthM.commit.run World.exec w = (.ok (), w.committed) :=
  Prog.run_ask live .commit

/-- An update that keeps the index entries and the references. -/
theorem run_update {t : Table} {p : t.Row → Bool} {set : t.Row → Except StmtError t.Row}
    {write : t.Row → t.Row} (sets : ∀ r ∈ w.view t, p r = true → set r = .ok (write r))
    (entries : ∀ r, Table.entries t (write r) = Table.entries t r)
    (parents : ∀ r, Table.parents t (write r) = Table.parents t r) :
    ∃ rows w', (AuthM.update t p set).run World.exec w = (.ok rows, w') ∧ w'.Live ∧ w'.db = w.db ∧
      w'.view t = (w.view t).map (fun r => if p r then write r else r) ∧
        ∀ u, u ≠ t → w'.view u = w.view u := by
  have visible : w.visible t = w.view t := World.visible_of_unsecured rfl
  have found : ∀ r ∈ (w.visible t).filter p, set r = .ok (write r) := by
    intro r mem
    obtain ⟨there, matching⟩ := List.mem_filter.mp mem
    exact sets r (visible ▸ there) matching
  have pairs : rewritten set ((w.visible t).filter p) =
      ((w.view t).filter p).map fun r => (r, write r) := by
    rw [← visible]
    refine List.map_congr_left fun r mem => ?_
    rw [found r mem]
    rfl
  have unrefused : w.refused t (.upd (rewritten set ((w.visible t).filter p))) = none := by
    rw [pairs, World.refused_of_nothing_gained w]
    · simp [sees, Schema.secured]
    · refine World.gained_eq_nil fun x mem => ?_
      obtain ⟨r, -, rfl⟩ := List.mem_map.mp mem
      have same : Table.entries t (write r) ⊆ Table.entries t r := by
        rw [entries r]
        exact List.Subset.refl _
      exact same
    · refine World.referenced_eq_nil fun x mem => ?_
      obtain ⟨r, -, rfl⟩ := List.mem_map.mp mem
      have same : Table.parents t (write r) ⊆ Table.parents t r := by
        rw [parents r]
        exact List.Subset.refl _
      exact same
  refine ⟨(rewritten set ((w.visible t).filter p)).map Prod.snd,
    w.pend t (.upd (rewritten set ((w.visible t).filter p))), ?_, live.pend _ _, rfl, ?_,
    fun u other => World.pend_view_of_ne w _ other⟩
  · refine Eq.trans (Prog.run_ask live (.update t p set)) ?_
    rw [World.perform_update (fun r mem => by rw [found r mem]; rfl) unrefused]
    rfl
  · refine (World.pend_view_self _ _ _).trans ?_
    rw [pairs]
    exact Change.apply_upd_filter p write _

end Statements

/-! ### Attempts -/

/-- A login attempt, when it happens, and what the database and the process draw for it. -/
structure Attempt where
  time : Instant
  body : LoginRequest
  rawToken : String
  supply : Nat → Uuid

namespace Attempt

def env (env : Env) (a : Attempt) : Env :=
  { env with now := a.time, dbNow := a.time, rawToken := a.rawToken }

def serve (env : Env) (a : Attempt) (db : State) : Except Exc Reply × State :=
  (⟨a.env env, a.supply, []⟩ : Call).serve (.login a.body) db

end Attempt

/-- An attempt that was served, with the state that it found. -/
structure Served where
  attempt : Attempt
  before : State
  answer : Except Exc Reply

/-- One attempt after the other. -/
def loginAll (env : Env) : List Attempt → State → List Served
  | [], _ => []
  | a :: rest, db => ⟨a, db, (a.serve env db).1⟩ :: loginAll env rest (a.serve env db).2

/-- The account that a name finds. -/
def isNamed (env : Env) (name : String) (u : User) : Bool :=
  u.username.map env.lower == some (env.lower name)

/-- The account is the only one that the name finds. -/
def Finds (env : Env) (a : Attempt) (db : State) (u : User) : Prop :=
  (db .users).filter (isNamed env a.body.username) = [u]

/-- The account after a failure. -/
def User.failedAt (time : Instant) (u : User) : User :=
  { u with
    loginAttempts := u.loginAttempts + 1
    lockedUntil :=
      if UserRepo.maxAttempts ≤ u.loginAttempts + 1 ∧ u.lockedUntil = none then
        some (time + UserRepo.lockPeriod)
      else u.lockedUntil }

/-- The rows after a failure on an account. -/
def failedOn (u : User) (time : Instant) (db : State) : State := fun t =>
  match t with
  | .users => (db .users).map fun x => if x.id == u.id then x.failedAt time else x
  | .refreshTokens => db .refreshTokens

section Serve

variable {env : Env} {a : Attempt} {db : State} {u : User}

/-- A session of its own. -/
def Attempt.start (a : Attempt) (db : State) : World Table :=
  { db, session := { Session.idle (T := Table) a.supply with faults := [] } }

theorem Attempt.live (a : Attempt) (db : State) : (a.start db).Live := ⟨rfl, rfl⟩

theorem serve_eq : a.serve env db =
    (((Auth.login (a.env env) a.body).run World.exec (a.start db)).1,
      ((Auth.login (a.env env) a.body).run World.exec (a.start db)).2.db) := rfl

theorem run_find (finds : Finds env a db u) :
    (UserRepo.getByUsername (a.env env) a.body.username).run World.exec (a.start db) =
      (.ok (some u), a.start db) := by
  have selected := run_select (a.live db) .users (isNamed env a.body.username)
  have rows : ((a.start db).view .users).filter (isNamed env a.body.username) = [u] := finds
  rw [rows] at selected
  exact Prog.run_bind_ok selected

/-- An account that is locked: the password is not looked at. -/
theorem serve_refused (finds : Finds env a db u) (locked : u.isLocked a.time = true) :
    a.serve env db = (.error tooManyAttempts, db) := by
  have ran : (Auth.login (a.env env) a.body).run World.exec (a.start db) =
      (.error tooManyAttempts, a.start db) := by
    unfold Auth.login
    rw [Prog.run_bind_ok (run_find finds)]
    have refused : u.isLocked (a.env env).now = true := locked
    simp only [refused, if_true]
    rfl
  rw [serve_eq, ran]
  rfl

/-- A password that cannot be checked. -/
theorem serve_unverifiable (finds : Finds env a db u) (unlocked : u.isLocked a.time = false)
    (unverifiable : env.verify a.body.password (u.passwordHash.getD "") = none) :
    a.serve env db = (.error .valueError, db) := by
  have ran : (Auth.login (a.env env) a.body).run World.exec (a.start db) =
      (.error .valueError, a.start db) := by
    unfold Auth.login
    rw [Prog.run_bind_ok (run_find finds)]
    have passed : u.isLocked (a.env env).now = false := unlocked
    have raises : (a.env env).verify a.body.password (u.passwordHash.getD "") = none := unverifiable
    simp only [passed, Bool.false_eq_true, if_false, verifyPassword, raises]
    rfl
  rw [serve_eq, ran]
  rfl

/-- The first of the two updates of a failure. -/
def User.counted (u : User) : User := { u with loginAttempts := u.loginAttempts + 1 }

/-- The condition and the value of the second. -/
def User.isDue (u : User) : Bool :=
  decide (UserRepo.maxAttempts ≤ u.loginAttempts) && u.lockedUntil.isNone

def User.lockedAt (time : Instant) (u : User) : User :=
  { u with lockedUntil := some (time + UserRepo.lockPeriod) }

theorem User.failedAt_eq (time : Instant) (u : User) :
    u.failedAt time = if u.counted.isDue then u.counted.lockedAt time else u.counted := by
  by_cases due : UserRepo.maxAttempts ≤ u.loginAttempts + 1 ∧ u.lockedUntil = none
  · have due' : u.counted.isDue = true := by
      simp only [User.isDue, User.counted, due, decide_true, Option.isNone_none, Bool.and_self]
    rw [if_pos due', User.failedAt, if_pos due]
    rfl
  · have not : ¬ u.counted.isDue = true := by
      intro due'
      simp only [User.isDue, User.counted, Bool.and_eq_true, Option.isNone_iff_eq_none] at due'
      exact due ⟨of_decide_eq_true due'.1, due'.2⟩
    rw [if_neg not, User.failedAt, if_neg due]
    rfl

theorem Finds.mem (finds : Finds env a db u) : u ∈ db .users := by
  have there : u ∈ (db .users).filter (isNamed env a.body.username) :=
    finds.symm ▸ List.mem_singleton_self u
  exact (List.mem_filter.mp there).1

/-- The rest of a login whose password is wrong. -/
theorem run_wrong (finds : Finds env a db u) (unlocked : u.isLocked a.time = false)
    (wrong : env.verify a.body.password (u.passwordHash.getD "") = some false) :
    (Auth.login (a.env env) a.body).run World.exec (a.start db) =
      (do
        UserRepo.incrementLoginAttempts (a.env env) u.id
        AuthM.commit
        throw invalidCredentials : AuthM Reply).run World.exec (a.start db) := by
  unfold Auth.login
  rw [Prog.run_bind_ok (run_find finds)]
  have passed : u.isLocked (a.env env).now = false := unlocked
  have checked : (a.env env).verify a.body.password (u.passwordHash.getD "") = some false := wrong
  simp only [passed, Bool.false_eq_true, if_false, verifyPassword, checked]
  rfl

/-- A counter that cannot hold the failure. -/
theorem serve_overflow (keyed : ((db .users).map User.id).Nodup) (finds : Finds env a db u)
    (unlocked : u.isLocked a.time = false)
    (wrong : env.verify a.body.password (u.passwordHash.getD "") = some false)
    (full : UserRepo.integerMax ≤ u.loginAttempts) :
    a.serve env db = (.error (.db .data), db) := by
  have visible : (a.start db).visible .users = db .users := World.visible_of_unsecured rfl
  have only : (db .users).filter (fun x : User => x.id == u.id) = [u] :=
    filter_eq_singleton (List.Nodup.of_map _ keyed) finds.mem (beq_self_eq_true _)
      fun x mem same => List.inj_on_of_nodup_map keyed mem finds.mem (beq_iff_eq.mp same)
  have full' : UserRepo.incremented u = .error .data := if_neg (by omega)
  have invalid : (((a.start db).visible .users).filter fun x : User => x.id == u.id).findSome?
      (fun x => rejected (UserRepo.incremented x)) = some .data := by
    rw [visible, only, List.findSome?_cons, full']
    rfl
  have performed := @World.perform_update_invalid Table _ (a.start db) .users .data
    (fun x : User => x.id == u.id) UserRepo.incremented invalid
  have asked := @Prog.run_ask Table _ Exc Exc.db (a.start db) (a.live db)
    (.update .users (fun x : User => x.id == u.id) UserRepo.incremented)
  rw [performed] at asked
  have raised : (UserRepo.incrementLoginAttempts (a.env env) u.id).run World.exec (a.start db) =
      (.error (.db .data), (a.start db).aborted) :=
    Prog.run_bind_error (Prog.run_bind_error asked)
  rw [serve_eq, (run_wrong finds unlocked wrong).trans (Prog.run_bind_error raised)]
  rfl

/-- A failure that is counted. -/
theorem serve_wrong (keyed : ((db .users).map User.id).Nodup) (finds : Finds env a db u)
    (unlocked : u.isLocked a.time = false)
    (wrong : env.verify a.body.password (u.passwordHash.getD "") = some false)
    (room : u.loginAttempts < UserRepo.integerMax) :
    a.serve env db = (.error invalidCredentials, failedOn u a.time db) := by
  -- the counter of the user has room, and no other row has the id
  have fits : ∀ r ∈ (a.start db).view .users, (r.id == u.id) = true →
      UserRepo.incremented r = .ok r.counted := by
    intro r mem same
    have here : r = u := List.inj_on_of_nodup_map keyed mem finds.mem (beq_iff_eq.mp same)
    subst here
    exact if_pos (by omega)
  obtain ⟨rows, w, counts, live, stored, users, others⟩ :=
    run_update (a.live db) fits (fun _ => rfl) (fun _ => rfl)
  have due : ∀ r ∈ w.view .users,
      (r.id == u.id && decide (UserRepo.maxAttempts ≤ r.loginAttempts) && r.lockedUntil.isNone) =
        true → (Except.ok (r.lockedAt a.time) : Except StmtError User) = .ok (r.lockedAt a.time) :=
    fun _ _ _ => rfl
  obtain ⟨rows', w', locks, live', stored', users', others'⟩ :=
    run_update live due (fun _ => rfl) (fun _ => rfl)
  have incremented : (UserRepo.incrementLoginAttempts (a.env env) u.id).run World.exec
      (a.start db) = (.ok (), w') := by
    refine (Prog.run_bind_ok (Prog.run_bind_ok counts)).trans ?_
    exact Prog.run_bind_ok locks
  have ran : (Auth.login (a.env env) a.body).run World.exec (a.start db) =
      (.error invalidCredentials, w'.committed) := by
    refine (run_wrong finds unlocked wrong).trans ((Prog.run_bind_ok incremented).trans ?_)
    exact Prog.run_bind_ok (run_commit live')
  -- the two updates put together: counted, and locked if the count has come to the limit
  have rows : w'.view = failedOn u a.time db := by
    funext t
    cases t with
    | users =>
        rw [users', users, List.map_map]
        refine List.map_congr_left fun x _ => ?_
        simp only [Function.comp_apply]
        cases same : x.id == u.id with
        | false =>
            simp only [Bool.false_eq_true, if_false]
            rw [same]
            rfl
        | true =>
            have same' : (x.counted.id == u.id) = true := same
            simp only [if_true, same', Bool.true_and]
            exact (x.failedAt_eq a.time).symm
    | refreshTokens =>
        rw [others' .refreshTokens (by decide), others .refreshTokens (by decide)]
        rfl
  rw [serve_eq, ran]
  exact congrArg (Prod.mk _) rows

end Serve

/-! ### Runs -/

/-- What the lock is about. -/
def User.gate (u : User) : Gate Instant := ⟨u.loginAttempts, u.lockedUntil⟩

theorem User.isLocked_eq (time : Instant) (u : User) : u.isLocked time = u.gate.isLocked time := by
  unfold User.isLocked Gate.isLocked User.gate
  cases u.lockedUntil with
  | none => rfl
  | some lockedUntil => exact decide_eq_decide.mpr Iff.rfl

/-- The account that an attempt found. -/
def Served.account (env : Env) (x : Served) : Option User :=
  ((x.before .users).filter (isNamed env x.attempt.body.username)).head?

namespace Served

variable (env : Env)

/-- Answered that the credentials are invalid. -/
def isRejected (x : Served) : Bool :=
  match x.answer with
  | .error e => e = invalidCredentials
  | .ok _ => false

/-- Refused, whatever a check of the password would have said. -/
def IsRefused (x : Served) : Prop :=
  ∀ verify : String → String → Option Bool,
    x.attempt.serve { env with verify } x.before = (.error tooManyAttempts, x.before)

/-- `[start, start + 15 minutes)`. -/
def inWindow (start : Instant) (x : Served) : Bool :=
  decide (start ≤ x.attempt.time) && decide (x.attempt.time < start + UserRepo.lockPeriod)

/-- The account was locked before and is not any more. -/
def afterLock (x : Served) : Bool :=
  (x.account env).any fun u => match u.lockedUntil with
    | some lockedUntil => decide (lockedUntil ≤ x.attempt.time)
    | none => false

/-- An attempt that is let in can have its password checked, and the failure counted. -/
def Countable (x : Served) : Prop :=
  ∀ u, x.account env = some u → u.isLocked x.attempt.time = false →
    env.verify x.attempt.body.password (u.passwordHash.getD "") ≠ none ∧
      u.loginAttempts < UserRepo.integerMax

/-- The password is not the right one, or is not looked at. -/
def Unsuccessful (x : Served) : Prop :=
  ∀ u, x.account env = some u → u.isLocked x.attempt.time = false →
    env.verify x.attempt.body.password (u.passwordHash.getD "") ≠ some true

end Served

/-- Each attempt is rejected after its password was checked, or refused before, and no window
has more than ten that are rejected. -/
def Bounded (env : Env) (run : List Served) : Prop :=
  (∀ x ∈ run, x.isRejected = true ∨ x.IsRefused env) ∧
    ∀ start, (run.filter (Served.inWindow start)).countP Served.isRejected ≤ UserRepo.maxAttempts

section Runs

variable {env : Env} {db : State} {u : User}

/-- How an attempt ends that has not the right password. -/
inductive Outcome (env : Env) (a : Attempt) (db : State) (u : User) : Prop where
  | refused (locked : u.isLocked a.time = true)
      (served : a.serve env db = (.error tooManyAttempts, db))
  | failed (unlocked : u.isLocked a.time = false) (e : Exc) (served : a.serve env db = (.error e, db))
      (other : e ≠ invalidCredentials ∧ e ≠ tooManyAttempts)
      (uncountable : env.verify a.body.password (u.passwordHash.getD "") = none ∨
        UserRepo.integerMax ≤ u.loginAttempts)
  | rejected (unlocked : u.isLocked a.time = false)
      (checked : env.verify a.body.password (u.passwordHash.getD "") ≠ none)
      (room : u.loginAttempts < UserRepo.integerMax)
      (served : a.serve env db = (.error invalidCredentials, failedOn u a.time db))

theorem outcome {a : Attempt} (keyed : ((db .users).map User.id).Nodup) (finds : Finds env a db u)
    (unsuccessful : u.isLocked a.time = false →
      env.verify a.body.password (u.passwordHash.getD "") ≠ some true) : Outcome env a db u := by
  cases locked : u.isLocked a.time with
  | true => exact .refused locked (serve_refused finds locked)
  | false =>
      cases checked : env.verify a.body.password (u.passwordHash.getD "") with
      | none =>
          exact .failed locked _ (serve_unverifiable finds locked checked) (by decide) (.inl checked)
      | some right =>
          cases right with
          | true => exact absurd checked (unsuccessful locked)
          | false =>
              by_cases room : u.loginAttempts < UserRepo.integerMax
              · refine .rejected locked ?_ room (serve_wrong keyed finds locked checked room)
                rw [checked]
                exact Option.some_ne_none false
              · have full := not_lt.mp room
                exact .failed locked _ (serve_overflow keyed finds locked checked full) (by decide)
                  (.inr full)

theorem Finds.account {a : Attempt} (finds : Finds env a db u) (answer : Except Exc Reply) :
    Served.account env ⟨a, db, answer⟩ = some u := by
  unfold Served.account
  rw [show (db .users).filter (isNamed env a.body.username) = [u] from finds]
  rfl

theorem Finds.failedOn {a : Attempt} (finds : Finds env a db u) (time : Instant) :
    Finds env a (failedOn u time db) (u.failedAt time) := by
  have named : ∀ x : User, isNamed env a.body.username
      (if x.id == u.id then x.failedAt time else x) = isNamed env a.body.username x := by
    intro x
    cases x.id == u.id <;> rfl
  have rows : (Auth.failedOn u time db .users).filter (isNamed env a.body.username) =
      ((db .users).filter (isNamed env a.body.username)).map fun x =>
        if x.id == u.id then x.failedAt time else x := by
    rw [Auth.failedOn, List.filter_map]
    exact congrArg (List.map _) (List.filter_congr fun x _ => named x)
  unfold Finds
  rw [rows, show (db .users).filter (isNamed env a.body.username) = [u] from finds]
  simp only [List.map_cons, List.map_nil, beq_self_eq_true, if_true]

theorem keyed_failedOn (keyed : ((db .users).map User.id).Nodup) (time : Instant) :
    ((failedOn u time db .users).map User.id).Nodup := by
  have ids : (failedOn u time db .users).map User.id = (db .users).map User.id := by
    rw [failedOn, List.map_map]
    refine List.map_congr_left fun x _ => ?_
    simp only [Function.comp_apply]
    cases x.id == u.id <;> rfl
  rw [ids]
  exact keyed

/-- What is kept along a run: the rows have ids of their own, and the later attempts find the
account as the earlier ones left it. -/
theorem outcome_next {a : Attempt} {rest : List Attempt} (out : Outcome env a db u)
    (keyed : ((db .users).map User.id).Nodup) (finds : ∀ b ∈ rest, Finds env b db u) :
    (((a.serve env db).2 .users).map User.id).Nodup ∧
      ∃ u', ∀ b ∈ rest, Finds env b (a.serve env db).2 u' := by
  cases out with
  | refused _ served =>
      rw [served]
      exact ⟨keyed, u, finds⟩
  | failed _ e served _ _ =>
      rw [served]
      exact ⟨keyed, u, finds⟩
  | rejected _ _ _ served =>
      rw [served]
      exact ⟨keyed_failedOn keyed a.time, u.failedAt a.time, fun b mem => (finds b mem).failedOn _⟩

/-- Each attempt of a run ends in one of these ways. -/
theorem outcomes {attempts : List Attempt} (keyed : ((db .users).map User.id).Nodup)
    (finds : ∀ a ∈ attempts, Finds env a db u)
    (unsuccessful : ∀ x ∈ loginAll env attempts db, x.Unsuccessful env) :
    ∀ x ∈ loginAll env attempts db, x.answer = (x.attempt.serve env x.before).1 ∧
      ∃ u', Finds env x.attempt x.before u' ∧ Outcome env x.attempt x.before u' := by
  induction attempts generalizing db u with
  | nil =>
      intro x mem
      cases mem
  | cons a rest ih =>
      have found := finds a List.mem_cons_self
      have first := unsuccessful _ List.mem_cons_self
      have out : Outcome env a db u := outcome keyed found (first u (found.account _))
      obtain ⟨keyed', u', finds'⟩ :=
        outcome_next out keyed fun b mem => finds b (List.mem_cons_of_mem _ mem)
      intro x mem
      rcases List.mem_cons.mp mem with rfl | later
      · exact ⟨rfl, u, found, out⟩
      · exact ih keyed' finds' (fun x mem => unsuccessful x (List.mem_cons_of_mem _ mem)) x later

/-- An attempt is answered as it should be just when it is countable. -/
theorem answered_iff {x : Served} (answer : x.answer = (x.attempt.serve env x.before).1)
    (finds : Finds env x.attempt x.before u) (out : Outcome env x.attempt x.before u) :
    x.isRejected = true ∨ x.IsRefused env ↔ x.Countable env := by
  have account : x.account env = some u := finds.account x.answer
  cases out with
  | refused locked served =>
      constructor
      · intro _ u' found unlocked
        cases account.symm.trans found
        cases locked.symm.trans unlocked
      · intro _
        right
        intro verify
        exact @serve_refused { env with verify } x.attempt x.before u finds locked
  | failed unlocked e served other uncountable =>
      rw [served] at answer
      constructor
      · rintro (rejected | refused)
        · unfold Served.isRejected at rejected
          rw [answer] at rejected
          exact absurd (of_decide_eq_true rejected) other.1
        · have same : x.attempt.serve env x.before = (.error tooManyAttempts, x.before) :=
            refused env.verify
          cases served.symm.trans same
          exact absurd rfl other.2
      · intro countable
        obtain ⟨checked, room⟩ := countable u account unlocked
        rcases uncountable with unverifiable | full
        · exact absurd unverifiable checked
        · exact absurd room (not_lt.mpr full)
  | rejected unlocked checked room served =>
      rw [served] at answer
      constructor
      · intro _ u' found _
        cases account.symm.trans found
        exact ⟨checked, room⟩
      · intro _
        left
        unfold Served.isRejected
        rw [answer]
        exact decide_eq_true rfl

/-- In a run of countable attempts the account goes through them as a gate does. -/
theorem loginAll_course {attempts : List Attempt} (keyed : ((db .users).map User.id).Nodup)
    (finds : ∀ a ∈ attempts, Finds env a db u)
    (unsuccessful : ∀ x ∈ loginAll env attempts db, x.Unsuccessful env)
    (countable : ∀ x ∈ loginAll env attempts db, x.Countable env) :
    (loginAll env attempts db).map (fun x => (x.attempt.time, x.isRejected, x.afterLock env)) =
      (Gate.course UserRepo.maxAttempts UserRepo.lockPeriod (attempts.map Attempt.time) u.gate).map
        fun y => (y.1, Gate.letIn y, Gate.afterLock y) := by
  -- by the attempts, for any state that they find the user in
  induction attempts generalizing db u with
  | nil => rfl
  | cons a rest ih =>
      have found := finds a List.mem_cons_self
      have first := unsuccessful _ List.mem_cons_self
      have out : Outcome env a db u := outcome keyed found (first u (found.account _))
      have later : ∀ b ∈ rest, Finds env b db u := fun b mem => finds b (List.mem_cons_of_mem _ mem)
      have unsuccessful' := fun x mem => unsuccessful x (List.mem_cons_of_mem _ mem)
      have countable' := fun x mem => countable x (List.mem_cons_of_mem _ mem)
      have after : ∀ answer, Served.afterLock env ⟨a, db, answer⟩ = Gate.afterLock (a.time, u.gate) := by
        intro answer
        unfold Served.afterLock
        rw [found.account answer]
        unfold Gate.afterLock User.gate
        cases lock : u.lockedUntil with
        | none => simp only [Option.any_some, lock]
        | some lockedUntil =>
            simp only [Option.any_some, lock]
      simp only [loginAll, List.map_cons, Gate.course]
      cases out with
      | refused locked served =>
          have shut : u.gate.isLocked a.time = true := (u.isLocked_eq a.time).symm.trans locked
          have next : u.gate.next UserRepo.maxAttempts UserRepo.lockPeriod a.time = u.gate := by
            rw [Gate.next, shut]
            rfl
          have here : Gate.letIn (a.time, u.gate) = false := by
            rw [Gate.letIn, shut]
            rfl
          rw [after, next, here, served]
          refine List.cons_eq_cons.mpr ⟨rfl, ?_⟩
          rw [served] at unsuccessful' countable'
          exact ih keyed later unsuccessful' countable'
      | failed unlocked e served other uncountable =>
          -- an attempt that could not be counted is ruled out by the condition
          obtain ⟨checked, room⟩ := countable _ List.mem_cons_self u (found.account _) unlocked
          rcases uncountable with unverifiable | full
          · exact absurd unverifiable checked
          · exact absurd room (not_lt.mpr full)
      | rejected unlocked checked room served =>
          have open_ : u.gate.isLocked a.time = false := (u.isLocked_eq a.time).symm.trans unlocked
          have next : u.gate.next UserRepo.maxAttempts UserRepo.lockPeriod a.time =
              (u.failedAt a.time).gate := by
            rw [Gate.next, open_]
            rfl
          have here : Gate.letIn (a.time, u.gate) = true := by
            rw [Gate.letIn, open_]
            rfl
          rw [after, next, here, served]
          refine List.cons_eq_cons.mpr ⟨rfl, ?_⟩
          rw [served] at unsuccessful' countable'
          exact ih (keyed_failedOn keyed a.time) (fun b mem => (later b mem).failedOn a.time)
            unsuccessful' countable'

theorem countP_filter_map {α β : Type} (l : List α) (f : α → β) (p q : β → Bool) :
    ((l.map f).filter p).countP q = (l.filter fun a => p (f a)).countP fun a => q (f a) := by
  rw [List.filter_map, List.countP_map]
  rfl

/-- Login attempts on an account, one after the other and none with the right password:
each is rejected after a check or refused before, and no 15 minutes have more than ten
that are rejected, if and only if each that is let in can be checked and counted, and no
15 minutes have more than ten that arrive after a lock has run out. The account is
locked once: `increment_login_attempts` sets `locked_until` only where there is none, so
that later attempts are counted and never locked out again. -/
theorem bounded_iff {attempts : List Attempt} (keyed : ((db .users).map User.id).Nodup)
    (finds : ∀ a ∈ attempts, Finds env a db u)
    (ordered : attempts.Pairwise fun a b => a.time ≤ b.time)
    (unsuccessful : ∀ x ∈ loginAll env attempts db, x.Unsuccessful env) :
    Bounded env (loginAll env attempts db) ↔
      (∀ x ∈ loginAll env attempts db, x.Countable env) ∧
        ∀ start, ((loginAll env attempts db).filter (Served.inWindow start)).countP
          (Served.afterLock env) ≤ UserRepo.maxAttempts := by
  have answered : ∀ x ∈ loginAll env attempts db,
      (x.isRejected = true ∨ x.IsRefused env ↔ x.Countable env) := by
    intro x mem
    obtain ⟨answer, u', found, out⟩ := outcomes keyed finds unsuccessful x mem
    exact answered_iff answer found out
  have each : (∀ x ∈ loginAll env attempts db, x.isRejected = true ∨ x.IsRefused env) ↔
      ∀ x ∈ loginAll env attempts db, x.Countable env :=
    forall₂_congr answered
  refine (and_congr_left' each).trans (and_congr_right fun countable => ?_)
  -- the attempts let in are those of the gate, which knows nothing of users and passwords
  have course := loginAll_course keyed finds unsuccessful countable
  have counted : ∀ (start : Instant) (q : Instant × Bool × Bool → Bool),
      ((loginAll env attempts db).filter (Served.inWindow start)).countP
          (fun x => q (x.attempt.time, x.isRejected, x.afterLock env)) =
        ((Gate.course UserRepo.maxAttempts UserRepo.lockPeriod (attempts.map Attempt.time)
          u.gate).filter (Gate.inWindow UserRepo.lockPeriod start)).countP
          fun y => q (y.1, Gate.letIn y, Gate.afterLock y) := by
    intro start q
    let p : Instant × Bool × Bool → Bool := fun t =>
      decide (start ≤ t.1) && decide (t.1 < start + UserRepo.lockPeriod)
    have left := countP_filter_map (loginAll env attempts db)
      (fun x => (x.attempt.time, x.isRejected, x.afterLock env)) p q
    have right := countP_filter_map
      (Gate.course UserRepo.maxAttempts UserRepo.lockPeriod (attempts.map Attempt.time) u.gate)
      (fun y => (y.1, Gate.letIn y, Gate.afterLock y)) p q
    rw [course] at left
    exact left.symm.trans right
  have rejected := fun start => counted start fun t => t.2.1
  have late := fun start => counted start fun t => t.2.2
  simp only at rejected late
  simp only [rejected, late]
  -- what the gate lets in beyond its limit comes after a lock has run out
  refine Gate.letIn_le_iff (by decide) ?_
  exact List.pairwise_map.mpr ordered

end Runs

namespace Sample

/-- A world in which every password is wrong. -/
def guessing : Env where
  now := 0
  dbNow := 0
  lower name := name
  verify _ _ := some false
  dummyHash := ""
  sha256Hex text := text
  rawToken := ""
  accessToken _ := none

def ada : User := ⟨⟨1⟩, some "ada", some "hash", 0, none⟩

/-- One account. -/
def accounts : State
  | .users => [ada]
  | .refreshTokens => []

/-- A guess at a time. -/
def guess (time : Instant) : Attempt := ⟨time, ⟨"ada", "guess"⟩, "", fun _ => ⟨0⟩⟩

/-- Eleven guesses at once, of which ten are let in. -/
theorem guesses_bounded_iff :
    Bounded guessing (loginAll guessing (List.replicate 11 (guess 0)) accounts) ↔
      (∀ x ∈ loginAll guessing (List.replicate 11 (guess 0)) accounts, x.Countable guessing) ∧
        ∀ start, ((loginAll guessing (List.replicate 11 (guess 0)) accounts).filter
          (Served.inWindow start)).countP (Served.afterLock guessing) ≤ UserRepo.maxAttempts := by
  refine @bounded_iff guessing accounts ada _ (by decide) ?_ (by decide) ?_
  · intro a mem
    rw [List.eq_of_mem_replicate mem]
    have found : (accounts .users).filter (isNamed guessing "ada") = [ada] := by decide
    exact found
  · intro x _ u _ _ right
    exact Bool.false_ne_true (Option.some.inj right)

/-- Once the first lock has run out, every guess is let in. -/
theorem guesses_unbounded :
    ¬ Bounded guessing (loginAll guessing
      (List.replicate 10 (guess 0) ++ List.replicate 11 (guess (minutes 15))) accounts) := by
  rintro ⟨-, bounded⟩
  exact absurd (bounded (minutes 15)) (by decide +kernel)

end Sample

end EspressoLogs.Auth
