import EspressoLogs.OAuth.Callback

/-!
A state of a login is used once.

The deletion of a state is committed at the end of a callback only. Where every
callback that reads a verifier gets there, no later one with its state does.
-/

namespace EspressoLogs.OAuth

open Lib Py

/-! ### Runs in a live world -/

section Statements

variable {w : World Table}

/-- A statement, where its outcome is known. -/
theorem run_asked {s : Statement} {answer : Lib.Resp s} {w' : World Table}
    (asked : World.exec s w = (answer, w')) :
    (Prog.ask .db s : OAuthM (Ans s)).run World.exec w = (answer.mapError .db, w') := by
  unfold Prog.ask
  rw [Prog.run, asked]
  cases answer <;> rfl

variable (live : w.Live)

include live

/-- A statement on a live session is what its rule of the database says. -/
theorem run_ask (s : Statement) :
    (Prog.ask .db s : OAuthM (Ans s)).run World.exec w =
      ((w.perform s).1.mapError .db, (w.perform s).2) :=
  run_asked (World.exec_of_live live s)

theorem run_select (t : Table) (p : t.Row → Bool) :
    (OAuthM.select t p).run World.exec w = (.ok ((w.view t).filter p), w) := by
  have sees : w.visible t = w.view t := World.visible_of_unsecured rfl
  refine Eq.trans (run_ask live (.select t p)) ?_
  rw [World.perform, sees]
  rfl

/-- A delete is pending until the commit. -/
theorem run_delete (t : Table) (row : t.Row) :
    (OAuthM.delete t row).run World.exec w =
      (.ok (), w.pend t (.del ((w.view t).filter fun r => t.id r == t.id row))) := by
  have sees : w.visible t = w.view t := World.visible_of_unsecured rfl
  have fits : ∀ gone, w.refused t (.del gone) = none := fun gone => by
    rw [World.refused_of_nothing_gained w rfl rfl]
    rfl
  have performed : w.perform (.delete t fun r => t.id r == t.id row) =
      (.ok ((w.view t).filter fun r => t.id r == t.id row),
        w.pend t (.del ((w.view t).filter fun r => t.id r == t.id row))) := by
    simp only [World.perform, World.write, sees, fits]
  have asked : (Prog.ask .db (.delete t fun r => t.id r == t.id row) : OAuthM _).run World.exec w =
      (.ok ((w.view t).filter fun r => t.id r == t.id row),
        w.pend t (.del ((w.view t).filter fun r => t.id r == t.id row))) := by
    rw [run_ask live, performed]
    rfl
  exact Prog.run_bind_ok asked

theorem run_insert {t : Table} {make : Uuid → Except StmtError t.Row} {r : t.Row}
    (made : make w.nextId = .ok r) (fits : w.refused t (.ins r) = none) :
    (OAuthM.insert t make).run World.exec w = (.ok r, w.drew.pend t (.ins r)) := by
  have performed : w.perform (.insert t make) = _ := World.perform_insert made fits
  refine Eq.trans (run_ask live (.insert t make)) ?_
  rw [performed]
  rfl

theorem run_refresh {t : Table} {row r : t.Row} {rest : List t.Row}
    (found : ((w.view t).filter fun r => t.id r == t.id row) = r :: rest) :
    (OAuthM.refresh t row).run World.exec w = (.ok r, w) := by
  have selected := run_select live t fun r => t.id r == t.id row
  rw [found] at selected
  exact Prog.run_bind_ok selected

theorem run_commit : OAuthM.commit.run World.exec w = (.ok (), w.committed) :=
  run_ask live .commit

end Statements

/-! ### Spent states -/

section Callbacks

variable {hashToken : String → String} {c : Callback} {db : State}

/-- Nothing is left of a state. -/
def Spent (hash : String) (db : State) : Prop := ∀ s ∈ db .oauthStates, s.stateHash ≠ hash

/-- A statement that makes no states. -/
def MakesNoStates : Statement → Prop
  | .insert t _ | .update t _ _ => t ≠ .oauthStates
  | .deleteCascade _ _ | .setConfig _ => False
  | _ => True

theorem all_ask {s : Statement} (makes : MakesNoStates s) :
    (Prog.ask .db s : OAuthM (Ans s)).All MakesNoStates :=
  ⟨makes, fun r => by cases r <;> trivial⟩

theorem all_scalarOneOrNone {α : Type} (rows : List α) :
    (OAuthM.scalarOneOrNone rows).All MakesNoStates := by
  unfold OAuthM.scalarOneOrNone
  split <;> trivial

theorem all_orRaise {α : Type} (e : Exc) (a : Option α) :
    (OAuthM.orRaise e a).All MakesNoStates := by
  cases a <;> trivial

theorem all_delete (t : Table) (row : t.Row) : (OAuthM.delete t row).All MakesNoStates :=
  Prog.All.bind (all_ask trivial) fun _ => trivial

theorem all_refresh (t : Table) (row : t.Row) : (OAuthM.refresh t row).All MakesNoStates :=
  Prog.All.bind (all_ask trivial) fun _ => all_orRaise _ _

theorem all_findState : (findState hashToken c).All MakesNoStates := by
  unfold findState
  split
  · trivial
  · refine Prog.All.bind (all_ask trivial) fun rows => Prog.All.bind (all_scalarOneOrNone rows) ?_
    intro found
    cases found with
    | none => trivial
    | some s =>
        dsimp only
        split
        · exact Prog.All.bind (all_delete _ _) fun _ => Prog.All.bind (all_ask trivial) fun _ => trivial
        · trivial

/-- Finding or making the user touches no state of a sign-in. -/
theorem all_upsert (info : Userinfo) : (UserRepo.upsert c info).All MakesNoStates := by
  refine Prog.All.bind (Prog.All.bind (all_ask trivial) all_scalarOneOrNone) fun found => ?_
  cases found with
  | none => exact Prog.All.bind (all_ask nofun) fun _ => all_refresh _ _
  | some user =>
      exact Prog.All.bind (Prog.All.bind (all_ask nofun) fun _ => trivial) fun _ => all_refresh _ _

/-- Nor does anything behind the state check. -/
theorem all_finish (info : Userinfo) : (finish hashToken c info).All MakesNoStates := by
  unfold finish
  split
  · trivial
  · refine Prog.All.bind (all_upsert info) fun user => ?_
    refine Prog.All.bind (Prog.All.bind (Prog.All.bind (all_ask nofun) fun _ => all_refresh _ _)
      fun _ => trivial) fun _ => ?_
    exact Prog.All.bind (all_ask trivial) fun _ => Prog.All.bind (all_orRaise _ _) fun _ => trivial

/-- A callback makes no state of a sign-in: those come from the login page. -/
theorem googleCallback_makesNoStates (hashToken : String → String) (c : Callback) :
    (googleCallback hashToken c).All MakesNoStates := by
  refine Prog.All.catchWith (Prog.All.bind ?_ fun claimed => ?_) fun _ =>
    Prog.All.bind (all_ask trivial) fun _ => trivial
  · refine Prog.All.bind all_findState fun found => ?_
    cases found with
    | none => trivial
    | some s => exact Prog.All.bind (all_delete _ _) fun _ => trivial
  · cases claimed with
    | none => trivial
    | some verifier =>
        refine Prog.All.bind ?_ fun info => all_finish info
        unfold fetchUserinfo
        split
        · trivial
        · exact all_orRaise _ _

/-- What is spent, in the store and in the session, stays so. -/
theorem spent_step {hash : String} {s : Statement} {w : World Table} (makes : MakesNoStates s)
    (spent : Spent hash w.db ∧ Spent hash w.view) :
    Spent hash (World.exec s w).2.db ∧ Spent hash (World.exec s w).2.view := by
  -- a state can only come back by a row that is written
  have write : ∀ {α : Type} (v : World Table) (t : Table) (change : Change t.Row) (answer : α),
      Spent hash v.db ∧ Spent hash v.view → (t = .oauthStates → change.news = []) →
      Spent hash (v.write t change answer).2.db ∧ Spent hash (v.write t change answer).2.view := by
    intro α v t change answer now none
    unfold World.write
    split
    · exact ⟨now.1, now.1⟩
    · refine ⟨now.1, ?_⟩
      intro s there
      by_cases same : t = .oauthStates
      · subst same
        rw [World.pend_view_self] at there
        rcases Change.mem_apply there with old | new
        · exact now.2 s old
        · rw [none rfl] at new
          cases new
      · have other : (v.pend t change).view .oauthStates = v.view .oauthStates :=
          World.pend_view_of_ne v change (Ne.symm same)
        rw [other] at there
        exact now.2 s there
  have performed : ∀ v : World Table, Spent hash v.db ∧ Spent hash v.view →
      Spent hash (v.perform s).2.db ∧ Spent hash (v.perform s).2.view := by
    intro v now
    cases s with
    | currentSetting => exact now
    | setConfig value => exact makes.elim
    | select t p => exact now
    | join t u on p => exact now
    | column t col => exact now
    | insert t make =>
        simp only [World.perform]
        split
        · exact ⟨now.1, now.1⟩
        · exact write v.drew t _ _ now fun same => absurd same makes
    | update t p set =>
        simp only [World.perform]
        split
        · exact ⟨now.1, now.1⟩
        · exact write v t _ _ now fun same => absurd same makes
    | delete t p => exact write v t _ _ now fun _ => rfl
    | deleteCascade t p => exact makes.elim
    | commit => exact ⟨now.2, now.2⟩
    | rollback => exact ⟨now.1, now.1⟩
  -- a fault keeps the transaction as it was or aborts it
  have general : ∀ next, next = w ∨ next = w.advance.aborted ∨ next = (w.advance.perform s).2 →
      Spent hash next.db ∧ Spent hash next.view := by
    rintro next (rfl | rfl | rfl)
    · exact spent
    · exact ⟨spent.1, spent.1⟩
    · exact performed w.advance spent
  cases s with
  | rollback => exact ⟨spent.1, spent.1⟩
  | _ =>
      apply general
      simp only [World.exec]
      split
      · exact .inl rfl
      · split
        · exact .inr (.inl rfl)
        · exact .inr (.inr rfl)

theorem serve_db : (c.serve hashToken db).2 =
    ((googleCallback hashToken c).run World.exec (c.start db)).2.db := by
  unfold Callback.serve
  cases (googleCallback hashToken c).run World.exec (c.start db) with
  | mk result w => cases result <;> rfl

/-- A state that is gone stays gone. -/
theorem spent_serve {hash : String} (spent : Spent hash db) :
    Spent hash (c.serve hashToken db).2 := by
  have start : Spent hash (c.start db).db ∧ Spent hash (c.start db).view := ⟨spent, spent⟩
  have kept := (googleCallback_makesNoStates hashToken c).run_invariant World.exec
    (I := fun w => Spent hash w.db ∧ Spent hash w.view)
    (fun s w makes now => spent_step makes now) start
  rw [serve_db]
  exact kept.1

/-- It does so over any run of callbacks. -/
theorem spent_serveAll {hash : String} (callbacks : List Callback) (spent : Spent hash db) :
    Spent hash (serveAll hashToken callbacks db) := by
  induction callbacks generalizing db with
  | nil => exact spent
  | cons c rest ih => exact ih (spent_serve spent)

/-! ### A callback that gets to its commit -/

/-- A profile whose texts the database stores. -/
def Userinfo.Storable (info : Userinfo) : Prop :=
  storable info.sub = true ∧ storable info.email = true ∧ storable info.name = true ∧
    storable info.picture = true

/-- Nothing keeps the callback from its commit: no statement is struck by a fault,
Google answers with a subject, and what is to be stored can be. -/
structure Goes (hashToken : String → String) (c : Callback) (db : State) : Prop where
  quiet : true ∉ c.faults
  fetched : c.tokenFetched = true
  known : ∃ info, c.userinfo = some info ∧ info.sub ≠ "" ∧ info.Storable ∧
    ((db .users).filter fun u : User => u.googleSub == some info.sub).length ≤ 1
  unused : ∀ t ∈ db .refreshTokens, t.tokenHash ≠ hashToken c.rawToken

/-- A state that is found is the only one under its hash. -/
theorem findState_found {w w' : World Table} (live : w.Live) {s : OAuthState}
    (ran : (findState hashToken c).run World.exec w = (.ok (some s), w')) :
    w' = w ∧ ((w.view .oauthStates).filter fun s : OAuthState => s.stateHash == hashToken c.state) =
      [s] := by
  unfold findState at ran
  split at ran
  · cases ran
  · have selected := run_select live .oauthStates
      fun s : OAuthState => s.stateHash == hashToken c.state
    rw [Prog.run_bind_ok selected] at ran
    cases rows : (w.view .oauthStates).filter
        fun s : OAuthState => s.stateHash == hashToken c.state with
    | nil =>
        rw [rows] at ran
        cases ran
    | cons first rest =>
        rw [rows] at ran
        cases rest with
        | cons second others => cases ran
        | nil =>
            have one : (OAuthM.scalarOneOrNone [first]).run World.exec w = (.ok (some first), w) := rfl
            rw [Prog.run_bind_ok one] at ran
            dsimp only at ran
            split at ran
            · rw [Prog.run_bind_ok (run_delete live .oauthStates first)] at ran
              rw [Prog.run_bind_ok (run_commit (live.pend _ _))] at ran
              cases ran
            · cases ran
              exact ⟨rfl, rfl⟩

/-- A new row is stored, and what is read back has its id. -/
theorem run_stored {w : World Table} (live : w.Live) {t : Table}
    (make : Uuid → Except StmtError t.Row) {r : t.Row} (made : make w.nextId = .ok r)
    (fits : w.refused t (.ins r) = none) :
    ∃ r', t.id r' = t.id r ∧
      (do OAuthM.refresh t (← OAuthM.insert t make) : OAuthM t.Row).run World.exec w =
        (.ok r', w.drew.pend t (.ins r)) := by
  have sees : (w.drew.pend t (.ins r)).view t = w.view t ++ [r] := World.pend_view_self _ _ _
  have there : r ∈ ((w.drew.pend t (.ins r)).view t).filter fun x => t.id x == t.id r := by
    rw [sees]
    exact List.mem_filter.mpr ⟨List.mem_append_right _ List.mem_cons_self, beq_self_eq_true _⟩
  cases found : ((w.drew.pend t (.ins r)).view t).filter fun x => t.id x == t.id r with
  | nil =>
      rw [found] at there
      cases there
  | cons r' rest =>
      have matching : r' ∈ ((w.drew.pend t (.ins r)).view t).filter fun x => t.id x == t.id r :=
        found ▸ List.mem_cons_self
      refine ⟨r', eq_of_beq (List.mem_filter.mp matching).2, ?_⟩
      rw [Prog.run_bind_ok (run_insert live made fits)]
      exact run_refresh (live.drew.pend _ _) found

/-- The world after a part of the callback that stores a user. -/
structure Upserted (w w' : World Table) (user : User) : Prop where
  live : w'.Live
  known : ∃ u ∈ w'.view .users, Table.users.id u = user.id
  states : w'.view .oauthStates = w.view .oauthStates
  tokens : w'.view .refreshTokens = w.view .refreshTokens

/-- A change of the users that leaves the user there. -/
theorem upserted_pend {w v : World Table} {change : Change User} {user : User} (live : v.Live)
    (same : v.view = w.view)
    (known : ∃ u ∈ change.apply (v.view .users), u.id = user.id) :
    Upserted w (v.pend .users change) user where
  live := live.pend _ _
  known := by
    have sees : (v.pend .users change).view .users = change.apply (v.view .users) :=
      World.pend_view_self _ _ _
    rw [sees]
    exact known
  states := by
    have sees : (v.pend .users change).view .oauthStates = v.view .oauthStates :=
      World.pend_view_of_ne (t := Table.users) v change (by decide)
    rw [sees, same]
  tokens := by
    have sees : (v.pend .users change).view .refreshTokens = v.view .refreshTokens :=
      World.pend_view_of_ne (t := Table.users) v change (by decide)
    rw [sees, same]

section Upsert

variable {w : World Table} {info : Userinfo}

/-- A first sign-in makes a user. -/
theorem run_create (live : w.Live) (fits : info.Storable)
    (new : ((w.view .users).filter fun u : User => u.googleSub == some info.sub) = []) :
    ∃ user w', (UserRepo.create c info).run World.exec w = (.ok user, w') ∧ Upserted w w' user := by
  obtain ⟨sub, email, name, picture⟩ := fits
  obtain ⟨row, made, named⟩ : ∃ row, UserRepo.newUser c info w.nextId = .ok row ∧
      row.googleSub = some info.sub := by
    unfold UserRepo.newUser
    simp only [sub, email, name, picture, Bool.and_self, if_true]
    exact ⟨_, rfl, rfl⟩
  have free : w.refused .users (.ins row) = none := by
    refine (World.refused_eq_none w).mpr ⟨fun _ _ => rfl, ?_, ?_, fun _ ref => by cases ref⟩
    · intro e gains
      have entry : e = .googleSub info.sub := by
        have gains' : e ∈ (row.googleSub.map UniqueEntry.googleSub).toList := gains
        rw [named] at gains'
        exact List.mem_singleton.mp gains'
      subst entry
      refine List.any_eq_false.mpr fun u stored => ?_
      have other := List.filter_eq_nil_iff.mp new u stored
      intro held
      have held' : UniqueEntry.googleSub info.sub ∈ (u.googleSub.map UniqueEntry.googleSub).toList :=
        of_decide_eq_true held
      rw [Option.mem_toList, Option.map_eq_some_iff] at held'
      obtain ⟨sub', has, same⟩ := held'
      injection same with same
      exact other (by rw [has, same]; exact beq_self_eq_true _)
    · show (row.googleSub.map UniqueEntry.googleSub).toList.Nodup
      rw [named]
      exact List.nodup_singleton _
  obtain ⟨user, same, ran⟩ := run_stored live _ made free
  refine ⟨user, _, ran, upserted_pend live.drew rfl ⟨row, ?_, same.symm⟩⟩
  exact List.mem_append_right _ List.mem_cons_self

/-- A later one refreshes the user's name and picture. -/
theorem run_update (live : w.Live) (fits : info.Storable) {user : User}
    (known : user ∈ w.view .users) :
    ∃ user' w', (do
        discard (OAuthM.update .users (fun u => u.id == user.id) (UserRepo.refreshed c info user))
        OAuthM.refresh .users user : OAuthM User).run World.exec w = (.ok user', w') ∧
      Upserted w w' user' := by
  obtain ⟨-, email, name, picture⟩ := fits
  obtain ⟨write, sets, ids, subs⟩ : ∃ write : User → User,
      (∀ u, UserRepo.refreshed c info user u = .ok (write u)) ∧ (∀ u, (write u).id = u.id) ∧
        ∀ u, (write u).googleSub = u.googleSub := by
    unfold UserRepo.refreshed
    simp only [email, name, picture, Bool.and_self, if_true]
    exact ⟨_, fun _ => rfl, fun _ => rfl, fun _ => rfl⟩
  have visible : w.visible .users = w.view .users := World.visible_of_unsecured rfl
  set found := (w.visible .users).filter fun u : User => u.id == user.id with found_eq
  have pairs : rewritten (UserRepo.refreshed c info user) found = found.map fun u => (u, write u) :=
    List.map_congr_left fun u _ => by rw [sets]; rfl
  set change : Change User := .upd (rewritten (UserRepo.refreshed c info user) found) with change_eq
  have unrefused : w.refused .users change = none := by
    rw [World.refused_of_nothing_gained w]
    · simp [sees, Schema.secured]
    · refine World.gained_eq_nil fun p hp => ?_
      rw [pairs] at hp
      obtain ⟨u, -, rfl⟩ := List.mem_map.mp hp
      show ((write u).googleSub.map UniqueEntry.googleSub).toList ⊆ _
      rw [subs]
      exact List.Subset.refl _
    · exact World.referenced_eq_nil fun p _ => List.Subset.refl _
  have asked : (OAuthM.update .users (fun u => u.id == user.id)
      (UserRepo.refreshed c info user)).run World.exec w =
      (.ok ((rewritten (UserRepo.refreshed c info user) found).map Prod.snd),
        w.pend .users change) := by
    refine Eq.trans (run_ask live (.update .users _ _)) ?_
    rw [World.perform_update (fun u _ => by rw [sets]; rfl) unrefused]
    rfl
  -- the rows of the user keep their id
  have after : (w.pend .users change).view .users =
      (w.view .users).map fun u => if u.id == user.id then write u else u := by
    refine (World.pend_view_self _ _ _).trans ?_
    rw [change_eq, pairs, found_eq, visible]
    exact Change.apply_upd_filter (fun u : User => u.id == user.id) write _
  have there : write user ∈ ((w.pend .users change).view .users).filter fun u => Table.users.id u == user.id := by
    rw [after]
    refine List.mem_filter.mpr ⟨List.mem_map.mpr ⟨user, known, ?_⟩, beq_iff_eq.mpr (ids user)⟩
    rw [if_pos (beq_self_eq_true _)]
  cases refetched : ((w.pend .users change).view .users).filter fun u => Table.users.id u == user.id with
  | nil =>
      rw [refetched] at there
      cases there
  | cons user' rest =>
      have matching := refetched ▸ List.mem_cons_self (a := user') (l := rest)
      have same : user'.id = user.id := eq_of_beq (List.mem_filter.mp matching).2
      refine ⟨user', w.pend .users change, ?_, upserted_pend live rfl ⟨user', ?_, rfl⟩⟩
      · refine Eq.trans (Prog.run_bind_ok (Prog.run_bind_ok asked)) ?_
        exact run_refresh (live.pend _ _) refetched
      · have stored := (List.mem_filter.mp matching).1
        rw [World.pend_view_self] at stored
        exact stored

/-- Either way there is a user to make a session for. -/
theorem run_upsert (live : w.Live) (fits : info.Storable)
    (one : ((w.view .users).filter fun u : User => u.googleSub == some info.sub).length ≤ 1) :
    ∃ user w', (UserRepo.upsert c info).run World.exec w = (.ok user, w') ∧ Upserted w w' user := by
  have selected := run_select live .users fun u : User => u.googleSub == some info.sub
  unfold UserRepo.upsert
  cases rows : (w.view .users).filter fun u : User => u.googleSub == some info.sub with
  | nil =>
      rw [rows] at selected
      have none : (UserRepo.getByGoogleSub info.sub).run World.exec w = (.ok none, w) :=
        Prog.run_bind_ok selected
      rw [Prog.run_bind_ok none]
      exact run_create live fits rows
  | cons user rest =>
      rw [rows] at one selected
      obtain rfl : rest = [] := List.eq_nil_of_length_eq_zero (by simpa using one)
      have found : (UserRepo.getByGoogleSub info.sub).run World.exec w = (.ok (some user), w) :=
        Prog.run_bind_ok selected
      have known : user ∈ w.view .users := (List.mem_filter.mp (rows ▸ List.mem_cons_self)).1
      rw [Prog.run_bind_ok found]
      exact run_update live fits known

end Upsert

/-- A token with a new hash is stored, and the states are left alone. -/
theorem run_createRefreshToken {w : World Table} (live : w.Live) {user : User} (hash : String)
    (expiresAt : Auth.Instant) (known : ∃ u ∈ w.view .users, Table.users.id u = user.id)
    (unused : ∀ t ∈ w.view .refreshTokens, t.tokenHash ≠ hash) :
    ∃ token w', (createRefreshToken user.id hash expiresAt).run World.exec w = (.ok token, w') ∧
      w'.Live ∧ w'.view .oauthStates = w.view .oauthStates := by
  set row := Auth.RefreshTokenRepo.fresh user.id hash expiresAt w.nextId with row_eq
  have free : w.refused .refreshTokens (.ins row) = none := by
    refine (World.refused_eq_none w).mpr ⟨fun _ _ => rfl, ?_, List.nodup_singleton _, ?_⟩
    · intro e gains
      obtain rfl : e = .tokenHash hash := List.mem_singleton.mp gains
      refine List.any_eq_false.mpr fun t stored held => ?_
      have same : UniqueEntry.tokenHash hash = .tokenHash t.tokenHash :=
        List.mem_singleton.mp (of_decide_eq_true held)
      exact unused t stored (UniqueEntry.tokenHash.inj same).symm
    · intro ref refers
      obtain rfl : ref = (.users, user.id) := List.mem_singleton.mp refers
      obtain ⟨u, stored, same⟩ := known
      exact List.any_eq_true.mpr ⟨u, stored, decide_eq_true same⟩
  obtain ⟨token, -, ran⟩ := run_stored live (t := .refreshTokens)
    (fun id => .ok (Auth.RefreshTokenRepo.fresh user.id hash expiresAt id)) rfl free
  refine ⟨token, w.drew.pend .refreshTokens (.ins row), ran, live.drew.pend _ _, ?_⟩
  exact World.pend_view_of_ne (t := Table.refreshTokens) w.drew _ (by decide)

/-- What was deleted before the profile was stored stays deleted: the part after it
gets to its commit, even where it raises later. -/
theorem finish_stores {w : World Table} (live : w.Live) {info : Userinfo} (sub : info.sub ≠ "")
    (fits : info.Storable)
    (one : ((w.view .users).filter fun u : User => u.googleSub == some info.sub).length ≤ 1)
    (unused : ∀ t ∈ w.view .refreshTokens, t.tokenHash ≠ hashToken c.rawToken) :
    ((finish hashToken c info).run World.exec w).2.db .oauthStates = w.view .oauthStates := by
  obtain ⟨user, w', upserted, after⟩ := run_upsert (c := c) live fits one
  obtain ⟨token, w'', created, live', kept⟩ :=
    run_createRefreshToken after.live (hashToken c.rawToken) (c.now + Auth.tokenLifetime)
      after.known (by rw [after.tokens]; exact unused)
  have discarded : (discard (createRefreshToken user.id (hashToken c.rawToken)
      (c.now + Auth.tokenLifetime)) : OAuthM Unit).run World.exec w' = (.ok (), w'') :=
    Prog.run_bind_ok created
  unfold finish
  rw [if_neg sub, Prog.run_bind_ok upserted, Prog.run_bind_ok discarded,
    Prog.run_bind_ok (run_commit live')]
  have stored : w''.committed.db .oauthStates = w.view .oauthStates := kept.trans after.states
  cases c.accessToken user.id with
  | none => exact stored
  | some token => exact stored

/-- What a handler rolls back was not stored. -/
theorem rolledBack_db (p : OAuthM Reply) (w : World Table) :
    ((tryCatch p fun _ => do
        OAuthM.rollback
        return .oauthFailed).run World.exec w).2.db = (p.run World.exec w).2.db := by
  rw [Prog.tryCatch_eq, Prog.run_catchWith]
  cases p.run World.exec w with
  | mk result w' => cases result <;> rfl

/-- A callback that uses its state and gets to its commit leaves nothing of it. -/
theorem spent_of_goes (uses : Uses hashToken c db) (goes : Goes hashToken c db) :
    Spent (hashToken c.state) (c.serve hashToken db).2 := by
  have quiet : (c.start db).Quiet := goes.quiet
  set w := (c.start db).calm with w_eq
  have live : w.Live := World.calm_live rfl
  obtain ⟨s, used⟩ := uses
  rw [(World.run_quiet (findState hashToken c) quiet).1, ← w_eq] at used
  have looked : (findState hashToken c).run World.exec w =
      (.ok (some s), ((findState hashToken c).run World.exec w).2) := Prod.ext used rfl
  obtain ⟨same, only⟩ := findState_found live looked
  rw [same] at looked
  set gone := (w.view .oauthStates).filter fun r => Table.oauthStates.id r == s.id with gone_eq
  set w₁ := w.pend .oauthStates (.del gone) with w₁_eq
  have claimed : (claimState hashToken c).run World.exec w = (.ok (some s.pkceVerifier), w₁) := by
    refine Eq.trans (Prog.run_bind_ok looked) ?_
    exact Prog.run_bind_ok (run_delete live .oauthStates s)
  have users : w₁.view .users = db .users :=
    World.pend_view_of_ne (t := Table.oauthStates) w _ (by decide)
  have tokens : w₁.view .refreshTokens = db .refreshTokens :=
    World.pend_view_of_ne (t := Table.oauthStates) w _ (by decide)
  obtain ⟨info, known, sub, fits, one⟩ := goes.known
  have fetched : (fetchUserinfo c s.pkceVerifier).run World.exec w₁ = (.ok info, w₁) := by
    unfold fetchUserinfo
    rw [goes.fetched, known]
    rfl
  have stores := finish_stores (c := c) (live.pend _ _ : w₁.Live) sub fits (users ▸ one)
    (tokens ▸ goes.unused)
  have states : (c.serve hashToken db).2 .oauthStates = w₁.view .oauthStates := by
    have calm := congrArg World.db (World.run_quiet (googleCallback hashToken c) quiet).2
    rw [serve_db, ← World.calm_db, calm, ← w_eq, ← stores]
    unfold googleCallback
    rw [rolledBack_db, Prog.run_bind_ok claimed]
    dsimp only
    rw [Prog.run_bind_ok fetched]
  rw [w₁_eq, World.pend_view_self] at states
  -- a row with the hash of the state is the one found, which was deleted
  intro r stored same
  rw [states] at stored
  obtain ⟨there, kept⟩ := List.mem_filter.mp stored
  have matching : r ∈ [s] := only ▸ List.mem_filter.mpr ⟨there, beq_iff_eq.mpr same⟩
  obtain rfl := List.mem_singleton.mp matching
  exact of_decide_eq_true kept (List.mem_filter.mpr ⟨there, beq_self_eq_true _⟩)

/-- Once the state is gone, no callback finds it. -/
theorem findState_of_spent (spent : Spent (hashToken c.state) db) (s : OAuthState) :
    ((findState hashToken c).run World.exec (c.start db)).1 ≠ .ok (some s) := by
  unfold findState
  split
  · intro found
    cases found
  · cases asked : World.exec (Stmt.select Table.oauthStates fun s : OAuthState =>
        s.stateHash == hashToken c.state) (c.start db) with
    | mk answer w =>
        cases answer with
        | error e =>
            have raised : (OAuthM.select .oauthStates fun s : OAuthState =>
                s.stateHash == hashToken c.state).run World.exec (c.start db) = (.error (.db e), w) :=
              run_asked asked
            rw [Prog.run_bind_error raised]
            intro found
            cases found
        | ok rows =>
            have none : rows = [] := List.eq_nil_iff_forall_not_mem.mpr fun r there => by
              obtain ⟨seen, same⟩ := World.mem_of_select (congrArg Prod.fst asked) there
              exact spent r (World.mem_view_of_mem_visible seen) (eq_of_beq same)
            subst none
            have selected : (OAuthM.select .oauthStates fun s : OAuthState =>
                s.stateHash == hashToken c.state).run World.exec (c.start db) = (.ok [], w) :=
              run_asked asked
            rw [Prog.run_bind_ok selected]
            intro found
            cases found

/-- A callback whose state is spent does not get to the token exchange. -/
theorem not_exchanges_of_spent (spent : Spent (hashToken c.state) db) :
    ¬ Exchanges hashToken c db := by
  rintro ⟨verifier, exchanged⟩
  unfold claimState at exchanged
  rw [Prog.run_bind] at exchanged
  cases looked : (findState hashToken c).run World.exec (c.start db) with
  | mk result w =>
      rw [looked] at exchanged
      cases result with
      | error e => cases exchanged
      | ok found =>
          cases found with
          | none => cases exchanged
          | some s => exact findState_of_spent spent s (congrArg Prod.fst looked)

end Callbacks

/-! ### Runs -/

section Runs

variable (hashToken : String → String)

/-- Every callback of a run that uses its state gets to its commit. -/
def AllGo : List Callback → State → Prop
  | [], _ => True
  | c :: rest, db =>
      (Uses hashToken c db → Goes hashToken c db) ∧ AllGo rest (c.serve hashToken db).2

variable {hashToken}

/-- The later callbacks of a run go through as well. -/
theorem allGo_append {before after : List Callback} {db : State}
    (go : AllGo hashToken (before ++ after) db) :
    AllGo hashToken after (serveAll hashToken before db) := by
  induction before generalizing db with
  | nil => exact go
  | cons c rest ih => exact ih go.2

/-- Where every callback that uses its state gets to its commit, a state is used once.
The row of the state is deleted in the transaction of the callback, so that one which
fails later puts it back, and the state is good for another callback. -/
theorem singleUse_of_allGo {callbacks : List Callback} {db : State}
    (go : AllGo hashToken callbacks db) : SingleUse hashToken callbacks db := by
  intro before c between c' after split same uses
  rw [split, List.append_assoc, List.cons_append] at go
  have goes := (allGo_append go).1 uses
  have served : serveAll hashToken (before ++ c :: between) db =
      serveAll hashToken between (c.serve hashToken (serveAll hashToken before db)).2 := by
    unfold serveAll
    rw [List.foldl_append, List.foldl_cons]
  have spent : Spent (hashToken c'.state) (serveAll hashToken (before ++ c :: between) db) := by
    rw [served, same]
    exact spent_serveAll between (spent_of_goes uses goes)
  exact not_exchanges_of_spent spent

namespace Sample

/-- The hashes of the texts below. -/
def sha256Hex (s : String) : String :=
  if s = "3kq" then "fa77f2d360be1af0edea38a51eaa5f8dfffb43be4cc7d1d01fff9eca2693dde0"
  else if s = "rt-1" then "a33d8c625833429df4658aa6f6940675ca829051a620ed398517039d4a1fc7ec"
  else "454349e422f05297191ead13e21d3db520e5abef52055e4964b82fb213f593a1"

/-- A login under way, and nothing else. -/
def db : State
  | .oauthStates => [⟨⟨1⟩, sha256Hex "3kq", "verifier", Auth.minutes 5⟩]
  | .users => []
  | .refreshTokens => []

/-- A callback that is answered with a session. -/
def done : Callback where
  state := "3kq"
  code := "4/0A"
  now := Auth.minutes 1
  dbNow := Auth.minutes 1
  tokenFetched := true
  userinfo := some ⟨"108", "ada@example.com", "Ada", ""⟩
  rawToken := "rt-1"
  accessToken _ := some "jwt"
  supply n := ⟨Fin.ofNat _ (n + 2)⟩
  faults := []

/-- Google does not answer the token exchange. -/
def failed : Callback := { done with tokenFetched := false }

/-- The callback that failed is rolled back, and the state exchanged again. -/
theorem failed_usable : ¬ SingleUse sha256Hex [failed, done] db := by
  intro single
  refine single [] failed [] done [] rfl rfl ⟨⟨⟨1⟩, _, "verifier", Auth.minutes 5⟩, rfl⟩ ?_
  exact ⟨"verifier", rfl⟩

/-- It meets the condition. -/
theorem done_goes : Goes sha256Hex done db where
  quiet := List.not_mem_nil
  fetched := rfl
  known := ⟨_, rfl, by decide, ⟨by decide, by decide, by decide, by decide⟩, Nat.zero_le 1⟩
  unused _ stored := nomatch stored

theorem done_once : SingleUse sha256Hex [done, done] db := by
  have used : Uses sha256Hex done db := ⟨⟨⟨1⟩, _, "verifier", Auth.minutes 5⟩, rfl⟩
  have spent := spent_of_goes used done_goes
  exact singleUse_of_allGo ⟨fun _ => done_goes,
    fun ⟨s, again⟩ => absurd again (findState_of_spent spent s), trivial⟩

end Sample

end Runs

end EspressoLogs.OAuth
