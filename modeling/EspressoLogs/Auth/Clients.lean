import EspressoLogs.Auth.Endpoints

/-!
What the transactions of login, refresh and logout do to the refresh tokens.

A transaction revokes tokens and issues one at most, at its end; one that issues a token
revoked one at most before (`Shaped`). The outline of each program says so of
whatever it commits, whatever the others do.
-/

namespace EspressoLogs.Auth

open Lib Py

/-! ### Write sets -/

/-- What a token keeps from its issuance. -/
def RefreshToken.issuance (t : RefreshToken) : Uuid × Uuid × String × Instant :=
  (t.id, t.userId, t.tokenHash, t.expiresAt)

/-- Rows that are rewritten end up revoked and otherwise as they were issued. -/
def Revoking (c : Change RefreshToken) : Prop :=
  ∃ pairs, c = .upd pairs ∧ ∀ p ∈ pairs, p.2.revoked = true ∧ p.2.issuance = p.1.issuance

/-- The tokens that were open before the changes and are not any more. -/
def revokedBy (changes : List (Change RefreshToken)) : List RefreshToken :=
  changes.flatMap fun
    | .upd pairs => (pairs.filter fun p => !p.1.revoked && p.2.revoked).map Prod.fst
    | _ => []

/-- A token of the user was taken out of service, or none if this may begin a session. -/
def Succeeds (rooted : Prop) (changes : List (Change RefreshToken)) (userId : Uuid) : Prop :=
  rooted ∧ revokedBy changes = [] ∨ ∃ t, revokedBy changes = [t] ∧ t.userId = userId

/-- Tokens are revoked, and then one may be issued, in place of one of the same user or,
where sessions may begin, of none. -/
def Shaped (rooted : Prop) (ws : Writes Table) : Prop :=
  ∃ changes, (∀ c ∈ changes, Revoking c) ∧
    (ws .refreshTokens = changes ∨
      ∃ t : RefreshToken, ws .refreshTokens = changes ++ [.ins t] ∧ Succeeds rooted changes t.userId)

/-- A login begins a session. -/
def Request.IsLogin : Request → Prop
  | .login _ => True
  | _ => False

/-! ### Statements -/

/-- A statement that writes rows under their ids, and rewrites tokens only to revoke them. -/
def OnlyRevokes : Statement → Prop
  | .insert t make => ∀ id r, make id = .ok r → Table.id t r = id
  | .update .refreshTokens _ set => ∀ r r' : RefreshToken, set r = .ok r' →
      r'.revoked = true ∧ r'.issuance = r.issuance
  | .update .users _ set => ∀ r r' : User, set r = .ok r' → r'.id = r.id
  | .delete _ _ | .deleteCascade _ _ => False
  | _ => True

theorem OnlyRevokes.orderly {s : Statement} (h : OnlyRevokes s) : s.Orderly := by
  cases s with
  | insert t make => exact h
  | update t p set =>
      cases t with
      | users => exact h
      | refreshTokens => exact fun r r' eq => congrArg Prod.fst (h r r' eq).2
  | deleteCascade t p => exact h.elim
  | _ => trivial

/-- What holds of each statement of the endpoints. -/
structure Statements (env : Env) (Q : Statement → Prop) : Prop where
  select : ∀ t p, Q (.select t p)
  commit : Q .commit
  increment : ∀ p, Q (.update .users p UserRepo.incremented)
  lock : ∀ p, Q (.update .users p fun u : User =>
    .ok { u with lockedUntil := some (env.dbNow + UserRepo.lockPeriod) })
  reset : ∀ p, Q (.update .users p fun u : User =>
    .ok { u with loginAttempts := 0, lockedUntil := none })
  issue : ∀ userId hash expiresAt, Q (.insert .refreshTokens fun id =>
    .ok (RefreshTokenRepo.fresh userId hash expiresAt id))
  rotate : ∀ p, Q (.update .refreshTokens p fun t : RefreshToken => .ok (t.rotate env.dbNow))
  revoke : ∀ p, Q (.update .refreshTokens p fun t : RefreshToken => .ok t.revoke)

section Programs

variable {α : Type} {Q : Statement → Prop}

theorem all_ask {s : Statement} (h : Q s) : (Prog.ask .db s : AuthM (Ans s)).All Q :=
  ⟨h, fun r => by cases r <;> trivial⟩

theorem all_scalarOneOrNone (rows : List α) : (AuthM.scalarOneOrNone rows).All Q := by
  unfold AuthM.scalarOneOrNone
  split <;> trivial

theorem all_orRaise (e : Exc) (a : Option α) : (AuthM.orRaise e a).All Q := by
  cases a <;> trivial

theorem all_update {t : Table} {p : t.Row → Bool} {set : t.Row → Except StmtError t.Row}
    (h : Q (.update t p set)) : (discard (AuthM.update t p set)).All Q :=
  Prog.All.bind (all_ask h) fun _ => trivial

namespace Statements

variable {env : Env} (each : Statements env Q)

include each

theorem getByHash (hash : String) : (RefreshTokenRepo.getByHash hash).All Q :=
  Prog.All.bind (all_ask (each.select _ _)) fun rows => all_scalarOneOrNone rows

theorem issues (userId : Uuid) : (Auth.issue env userId).All Q := by
  unfold Auth.issue
  refine Prog.All.bind (Prog.All.bind (Prog.All.bind (all_ask (each.issue _ _ _)) fun token => ?_)
    fun _ => trivial) fun _ => ?_
  · exact Prog.All.bind (all_ask (each.select _ _)) fun rows =>
      Prog.All.bind (all_scalarOneOrNone rows) fun found => all_orRaise _ found
  · exact Prog.All.bind (all_ask each.commit) fun _ =>
      Prog.All.bind (all_orRaise _ _) fun _ => trivial

theorem login (body : LoginRequest) : (Auth.login env body).All Q := by
  unfold Auth.login
  refine Prog.All.bind (Prog.All.bind (all_ask (each.select _ _))
    fun rows => all_scalarOneOrNone rows) ?_
  intro found
  cases found with
  | none => exact Prog.All.bind (Prog.All.bind (all_orRaise _ _) fun _ => trivial) fun _ => trivial
  | some user =>
      dsimp only
      split
      · trivial
      · refine Prog.All.bind (all_orRaise _ _) fun right => ?_
        split
        · exact Prog.All.bind (all_update (each.reset _)) fun _ => each.issues user.id
        · refine Prog.All.bind (Prog.All.bind (all_update (each.increment _))
            fun _ => all_update (each.lock _)) fun _ => ?_
          exact Prog.All.bind (all_ask each.commit) fun _ => trivial

theorem rejectRefresh (hash : String) : (Auth.rejectRefresh env hash).All Q := by
  unfold Auth.rejectRefresh
  refine Prog.All.bind (each.getByHash hash) fun found => ?_
  cases found with
  | none => trivial
  | some existing =>
      dsimp only
      split
      · split
        · trivial
        · exact Prog.All.bind (all_update (each.revoke _)) fun _ =>
            Prog.All.bind (all_ask each.commit) fun _ => trivial
      · trivial

theorem refreshToken (rt bodyToken : Option String) :
    (Auth.refreshToken env rt bodyToken).All Q := by
  unfold Auth.refreshToken
  dsimp only
  split
  · trivial
  · refine Prog.All.bind (Prog.All.bind (all_ask (each.rotate _))
      fun rows => all_scalarOneOrNone rows) ?_
    intro stored
    cases stored with
    | none => exact each.rejectRefresh _
    | some stored => exact each.issues stored.userId

theorem logout (rt : Option String) : (Auth.logout env rt).All Q := by
  unfold Auth.logout
  have revoke : (revokePresented env (rt.getD "")).All Q := by
    unfold revokePresented
    refine Prog.All.bind (each.getByHash _) fun found => ?_
    cases found with
    | none => trivial
    | some stored =>
        dsimp only
        split
        · exact Prog.All.bind (all_update (each.revoke _)) fun _ => all_ask each.commit
        · trivial
  split
  · exact Prog.All.bind (Prog.All.catchWith revoke fun _ => trivial) fun _ => trivial
  · trivial

/-- The endpoints perform no other statements. -/
theorem all (r : Request) : (r.program env).All Q := by
  cases r with
  | login body => exact each.login body
  | refresh rt bodyToken => exact each.refreshToken rt bodyToken
  | logout rt => exact each.logout rt

end Statements

theorem onlyRevokes_statements (env : Env) : Statements env OnlyRevokes where
  select _ _ := trivial
  commit := trivial
  increment p r r' eq := by
    unfold UserRepo.incremented at eq
    split at eq
    · cases eq
      rfl
    · cases eq
  lock p r r' eq := by
    cases eq
    rfl
  reset p r r' eq := by
    cases eq
    rfl
  issue userId hash expiresAt id r made := by
    cases made
    rfl
  rotate p r r' eq := by
    cases eq
    exact ⟨rfl, rfl⟩
  revoke p r r' eq := by
    cases eq
    exact ⟨rfl, rfl⟩

/-- Every request only revokes tokens and issues new ones. -/
theorem Request.onlyRevokes (env : Env) (r : Request) : (r.program env).All OnlyRevokes :=
  (onlyRevokes_statements env).all r

end Programs

/-- Requests side by side are in order. -/
theorem sideBySide_inOrder {db : State} (indexed : Indexed db) (requests : List (Call × Request)) :
    (sideBySide db requests).InOrder where
  keyed := indexed.keyed
  distinct := indexed.distinct
  clients c hc := by
    obtain ⟨x, _, rfl⟩ := List.mem_map.mp hc
    exact ⟨fun _ => trivial, indexed.distinct,
      (x.2.onlyRevokes x.1.env).mono fun _ h => h.orderly⟩
  clear := by
    refine List.pairwise_map.mpr (List.pairwise_of_forall fun x y => ?_)
    exact Pool.clear_nil _

/-! ### What is committed -/

/-- A commit finds writes of that shape. -/
def ShapedOnCommit (rooted : Prop) : Statement → World Table → Prop
  | .commit, w => Shaped rooted w.session.pending
  | _, _ => True

section Outline

variable {α : Type} {rooted : Prop} {w : World Table} {changes : List (Change RefreshToken)}

/-- The program commits nothing of another shape. -/
abbrev Outlined (rooted : Prop) (post : α → World Table → Prop) (p : AuthM α) (w : World Table) :
    Prop :=
  p.Safe (fun _ _ => True) (ShapedOnCommit rooted) post (fun _ _ => True) w

/-- What the transaction did to the tokens so far. -/
def Holding (changes : List (Change RefreshToken)) (w : World Table) : Prop :=
  w.session.pending .refreshTokens = changes

/-- One statement; a commit finds what it has to. -/
theorem outlined_ask {s : Statement} {post : Ans s → World Table → Prop}
    (kept : ∀ db, ShapedOnCommit rooted s ⟨db, w.session⟩)
    (answers : ∀ db found a v, World.execOn found s ⟨db, w.session⟩ = (.ok a, v) → post a v) :
    Outlined rooted post (Prog.ask .db s) w :=
  Prog.Safe.ask (fun db _ => kept db) (fun db found a v _ answered => answers db found a v answered)
    fun _ _ _ _ _ _ => trivial

theorem outlined_select {t : Table} {p : t.Row → Bool} (holding : Holding changes w) :
    Outlined rooted (fun _ => Holding changes) (AuthM.select t p) w := by
  refine outlined_ask (s := .select t p) (fun _ => trivial) fun db found rows v answered => ?_
  obtain ⟨_, _, same, _, _⟩ := World.execOn_select answered
  exact (congrFun same .refreshTokens).trans holding

theorem outlined_scalarOneOrNone {rows : List α} {post : Option α → World Table → Prop}
    (none : rows = [] → post none w) (one : ∀ a, rows = [a] → post (some a) w) :
    Outlined rooted post (AuthM.scalarOneOrNone rows) w := by
  unfold AuthM.scalarOneOrNone
  split
  · exact none rfl
  · exact one _ rfl
  · trivial

theorem outlined_orRaise (e : Exc) (found : Option α) (holding : Holding changes w) :
    Outlined rooted (fun _ => Holding changes) (AuthM.orRaise e found) w := by
  cases found with
  | none => trivial
  | some a => exact holding

/-- An update of another table. -/
theorem outlined_updateUsers {p : User → Bool} {set : User → Except StmtError User}
    (holding : Holding changes w) :
    Outlined rooted (fun _ => Holding changes) (discard (AuthM.update .users p set)) w := by
  refine Prog.Safe.bind (outlined_ask (s := .update Table.users p set) (fun _ => trivial)
    fun db found rows v answered => ?_)
  obtain ⟨_, _, _, _, added, _, _⟩ := World.execOn_update answered
  show v.session.pending .refreshTokens = changes
  have other : Table.refreshTokens ≠ .users := by decide
  rw [added]
  simp only [Session.add, Function.update_of_ne other]
  exact holding

/-- An update that revokes the rows that it answers with. -/
theorem outlined_revoking {p : RefreshToken → Bool}
    {set : RefreshToken → Except StmtError RefreshToken}
    (revokes : OnlyRevokes (.update .refreshTokens p set)) (holding : Holding changes w) :
    Outlined rooted (fun rows v => ∃ pairs, Revoking (.upd pairs) ∧ rows = pairs.map Prod.snd ∧
      (∀ x ∈ pairs, p x.1 = true) ∧ Holding (changes ++ [.upd pairs]) v)
      (AuthM.update .refreshTokens p set) w := by
  refine outlined_ask (s := .update Table.refreshTokens p set) (fun _ => trivial)
    fun db found rows v answered => ?_
  obtain ⟨_, valid, _, returned, added, _, _⟩ := World.execOn_update answered
  refine ⟨_, ⟨_, rfl, ?_⟩, returned, ?_, ?_⟩
  · intro pair hpair
    obtain ⟨r, hr, rfl⟩ := List.mem_map.mp hpair
    cases made : set r with
    | error e =>
        have accepted := valid r hr
        rw [made] at accepted
        cases accepted
    | ok r' => exact revokes r r' made
  · intro x hx
    obtain ⟨r, hr, rfl⟩ := List.mem_map.mp hx
    exact (World.mem_matched.mp hr).2.1
  · show v.session.pending .refreshTokens = _
    rw [added]
    simp only [Session.add, Function.update_self]
    exact congrArg (· ++ _) holding

theorem outlined_commit (shaped : Shaped rooted w.session.pending) :
    Outlined rooted (fun _ _ => True) AuthM.commit w :=
  outlined_ask (s := .commit) (fun _ => shaped) fun _ _ _ _ _ => trivial

theorem outlined_getByHash (hash : String) (holding : Holding changes w) :
    Outlined rooted (fun _ => Holding changes) (RefreshTokenRepo.getByHash hash) w := by
  refine Prog.Safe.bind (Prog.Safe.mono (outlined_select holding) (fun rows v held => ?_)
    fun _ _ h => h)
  exact outlined_scalarOneOrNone (fun _ => held) fun _ _ => held

/-- The insert of a token, in place of one of the user. -/
theorem outlined_issue (env : Env) (userId : Uuid) (holding : Holding changes w)
    (revoking : ∀ c ∈ changes, Revoking c) (succeeds : Succeeds rooted changes userId) :
    Outlined rooted (fun _ _ => True) (issue env userId) w := by
  have created : Outlined rooted
      (fun _ v => ∃ t : RefreshToken, t.userId = userId ∧ Holding (changes ++ [.ins t]) v)
      (RefreshTokenRepo.create userId (env.sha256Hex env.rawToken) (env.now + tokenLifetime)) w := by
    refine Prog.Safe.bind (outlined_ask (s := .insert Table.refreshTokens _) (fun _ => trivial)
      fun db found token v answered => ?_)
    obtain ⟨_, made, _, added, _, _⟩ := World.execOn_insert answered
    have owner : token.userId = userId := by
      cases made
      rfl
    have held : Holding (changes ++ [.ins token]) v := by
      show v.session.pending .refreshTokens = _
      rw [added]
      simp only [Session.add, Function.update_self]
      exact congrArg (· ++ _) holding
    refine Prog.Safe.bind (Prog.Safe.mono (outlined_select held) (fun rows u here => ?_)
      fun _ _ h => h)
    refine Prog.Safe.bind (outlined_scalarOneOrNone (fun _ => ?_) fun found _ => ?_)
    · trivial
    · exact ⟨token, owner, here⟩
  refine Prog.Safe.bind (Prog.Safe.bind (Prog.Safe.mono created (fun _ v held => ?_)
    fun _ _ h => h))
  obtain ⟨token, owner, held⟩ := held
  have shaped : Shaped rooted v.session.pending :=
    ⟨changes, revoking, .inr ⟨token, held, owner ▸ succeeds⟩⟩
  refine Prog.Safe.bind (Prog.Safe.mono (outlined_commit shaped) (fun _ u _ => ?_) fun _ _ h => h)
  cases env.accessToken userId <;> trivial

theorem outlined_login (env : Env) (body : LoginRequest) (root : rooted) (holding : Holding [] w) :
    Outlined rooted (fun _ _ => True) (login env body) w := by
  unfold login
  have found : Outlined rooted (fun _ => Holding []) (UserRepo.getByUsername env body.username) w := by
    refine Prog.Safe.bind (Prog.Safe.mono (outlined_select holding) (fun rows v held => ?_)
      fun _ _ h => h)
    exact outlined_scalarOneOrNone (fun _ => held) fun _ _ => held
  refine Prog.Safe.bind (Prog.Safe.mono found (fun user v held => ?_) fun _ _ h => h)
  cases user with
  | none =>
      refine Prog.Safe.bind (Prog.Safe.bind (Prog.Safe.mono (outlined_orRaise _ _ held)
        (fun _ _ _ => ?_) fun _ _ h => h))
      trivial
  | some user =>
      dsimp only
      split
      · trivial
      · refine Prog.Safe.bind (Prog.Safe.mono (outlined_orRaise _ _ held) (fun right u held => ?_)
          fun _ _ h => h)
        split
        · refine Prog.Safe.bind (Prog.Safe.mono (outlined_updateUsers held) (fun _ u held => ?_)
            fun _ _ h => h)
          exact outlined_issue env user.id held (fun c hc => absurd hc List.not_mem_nil)
            (.inl ⟨root, rfl⟩)
        · refine Prog.Safe.bind (Prog.Safe.bind (Prog.Safe.mono (outlined_updateUsers held)
            (fun _ u held => ?_) fun _ _ h => h))
          refine Prog.Safe.mono (outlined_updateUsers held) (fun _ u held => ?_) fun _ _ h => h
          have shaped : Shaped rooted u.session.pending :=
            ⟨[], fun c hc => absurd hc List.not_mem_nil, .inl held⟩
          exact Prog.Safe.bind (Prog.Safe.mono (outlined_commit shaped) (fun _ _ _ => trivial)
            fun _ _ h => h)

theorem outlined_rejectRefresh (env : Env) (hash : String) (holding : Holding changes w)
    (revoking : ∀ c ∈ changes, Revoking c) :
    Outlined rooted (fun _ _ => True) (rejectRefresh env hash) w := by
  unfold rejectRefresh
  refine Prog.Safe.bind (Prog.Safe.mono (outlined_getByHash hash holding) (fun found v held => ?_)
    fun _ _ h => h)
  cases found with
  | none => trivial
  | some existing =>
      dsimp only
      split
      · split
        · trivial
        · refine Prog.Safe.bind (Prog.Safe.bind (Prog.Safe.mono (outlined_revoking
            (fun r r' eq => ?_) held) (fun _ u ended => ?_) fun _ _ h => h))
          · cases eq
            exact ⟨rfl, rfl⟩
          · obtain ⟨pairs, last, _, _, held⟩ := ended
            have all : ∀ c ∈ changes ++ [.upd pairs], Revoking c :=
              List.forall_mem_append.mpr ⟨revoking, List.forall_mem_singleton.mpr last⟩
            have shaped : Shaped rooted u.session.pending := ⟨_, all, .inl held⟩
            exact Prog.Safe.bind (Prog.Safe.mono (outlined_commit shaped) (fun _ _ _ => trivial)
              fun _ _ h => h)
      · trivial

/-- A rotation revokes one token before it issues the next. -/
theorem outlined_refreshToken (env : Env) (rt bodyToken : Option String) (holding : Holding [] w) :
    Outlined rooted (fun _ _ => True) (refreshToken env rt bodyToken) w := by
  unfold refreshToken
  dsimp only
  split
  · trivial
  · refine Prog.Safe.bind (Prog.Safe.bind (Prog.Safe.mono (outlined_revoking (fun r r' eq => ?_)
      holding) (fun rows v ended => ?_) fun _ _ h => h))
    · cases eq
      exact ⟨rfl, rfl⟩
    · obtain ⟨pairs, revoking, rfl, valid, held⟩ := ended
      have revoking' : ∀ c ∈ [Change.upd pairs], Revoking c := List.forall_mem_singleton.mpr revoking
      refine outlined_scalarOneOrNone (fun _ => ?_) fun stored only => ?_
      · exact outlined_rejectRefresh env _ held revoking'
      · refine outlined_issue env stored.userId held revoking' ?_
        obtain ⟨⟨old, new⟩, rfl, rfl⟩ := List.map_eq_singleton_iff.mp only
        obtain ⟨_, all, revokes⟩ := revoking
        cases all
        obtain ⟨revoked, same⟩ := revokes _ (List.mem_singleton_self _)
        dsimp only at revoked same
        have opened : old.revoked = false := by
          have here := valid _ (List.mem_singleton_self _)
          simp only [RefreshTokenRepo.isValid, Bool.and_eq_true, Bool.not_eq_eq_eq_not,
            Bool.not_true] at here
          exact here.1.2
        refine .inr ⟨old, ?_, (congrArg (fun x => x.2.1) same).symm⟩
        simp [revokedBy, opened, revoked]

theorem outlined_logout (env : Env) (rt : Option String) (holding : Holding [] w) :
    Outlined rooted (fun _ _ => True) (logout env rt) w := by
  have revoke : Outlined rooted (fun _ _ => True) (revokePresented env (rt.getD "")) w := by
    unfold revokePresented
    refine Prog.Safe.bind (Prog.Safe.mono (outlined_getByHash _ holding) (fun found v held => ?_)
      fun _ _ h => h)
    cases found with
    | none => trivial
    | some stored =>
        dsimp only
        split
        · refine Prog.Safe.bind (Prog.Safe.bind (Prog.Safe.mono (outlined_revoking
            (fun r r' eq => ?_) held) (fun _ u ended => ?_) fun _ _ h => h))
          · cases eq
            exact ⟨rfl, rfl⟩
          · obtain ⟨pairs, revoking, _, _, held⟩ := ended
            exact outlined_commit ⟨_, List.forall_mem_singleton.mpr revoking, .inl held⟩
        · trivial
  unfold logout
  split
  · refine Prog.Safe.bind (Prog.Safe.catchWith (Prog.Safe.mono revoke (fun _ _ _ => ?_)
      fun _ _ _ => ?_))
    · trivial
    · trivial
  · trivial

/-- Whatever a request commits has that shape. -/
theorem Request.outlined (env : Env) (r : Request) (roots : r.IsLogin → rooted)
    (holding : Holding [] w) :
    Outlined rooted (fun _ _ => True) (r.program env) w := by
  cases r with
  | login body => exact outlined_login env body (roots trivial) holding
  | refresh rt bodyToken => exact outlined_refreshToken env rt bodyToken holding
  | logout rt => exact outlined_logout env rt holding

end Outline

/-- Whatever requests commit side by side, each transaction has that shape. -/
theorem Run.shaped {allowed : Pool Table Exc Reply → Client Table Exc Reply →
      List (Client Table Exc Reply) → Statement → Prop} {db : State}
    {requests : List (Call × Request)} {p : Pool Table Exc Reply}
    (run : Pool.Run allowed (sideBySide db requests) p) {rooted : Prop}
    (roots : ∀ x ∈ requests, x.2.IsLogin → rooted) : ∀ ws ∈ p.log, Shaped rooted ws := by
  have promises (w : World Table) (kept : ShapedOnCommit rooted .commit w) :
      Shaped rooted w.session.pending := kept
  refine Pool.Run.committed run ?_ ?_ promises fun ws hws => absurd hws List.not_mem_nil
  · intro c hc
    obtain ⟨x, _, rfl⟩ := List.mem_map.mp hc
    exact (x.2.onlyRevokes x.1.env).mono fun _ h => h.orderly
  · intro c hc
    obtain ⟨x, hx, rfl⟩ := List.mem_map.mp hc
    exact x.2.outlined x.1.env (roots x hx) rfl

end EspressoLogs.Auth
