import EspressoLogs.Auth.Rotation
import EspressoLogs.Lib.Retained

/-!
Tokens are backed.

Whoever is answered with a token authenticated, by a password or by an earlier token, and
the refresh token that goes with it is stored for the user that did. Users keep their
credentials and tokens what they were issued with, so what a request read there is still
so when it answers, and afterwards. So every token of a session is for the user who began
it.
-/

namespace EspressoLogs.Auth

open Lib Py Relation

/-! ### What stays -/

/-- What login and refresh go by. -/
abbrev Credentials : Table → Type
  | .users => Uuid × Option String × Option String
  | .refreshTokens => Uuid × Uuid × String × Instant

def credentials : (t : Table) → t.Row → Credentials t
  | .users, u => (u.id, u.username, u.passwordHash)
  | .refreshTokens, t => t.issuance

def everyTable (_ : Table) : Bool := true

/-- Every stored row is stored in the other with the same credentials. -/
abbrev CredentialsKept (db db' : State) : Prop := Retained everyTable credentials db db'

/-- The statements take no credentials away. -/
theorem retaining_statements (env : Env) : Statements env fun s =>
    s.Orderly ∧ s.Retains everyTable credentials where
  select _ _ := ⟨trivial, trivial⟩
  commit := ⟨trivial, trivial⟩
  increment p := by
    refine ⟨(onlyRevokes_statements env).increment p |>.orderly, fun _ r r' eq => ?_⟩
    unfold UserRepo.incremented at eq
    split at eq
    · cases eq
      rfl
    · cases eq
  lock p := by
    refine ⟨(onlyRevokes_statements env).lock p |>.orderly, fun _ r r' eq => ?_⟩
    cases eq
    rfl
  reset p := by
    refine ⟨(onlyRevokes_statements env).reset p |>.orderly, fun _ r r' eq => ?_⟩
    cases eq
    rfl
  issue userId hash expiresAt :=
    ⟨(onlyRevokes_statements env).issue userId hash expiresAt |>.orderly, trivial⟩
  rotate p := by
    refine ⟨(onlyRevokes_statements env).rotate p |>.orderly, fun _ r r' eq => ?_⟩
    cases eq
    rfl
  revoke p := by
    refine ⟨(onlyRevokes_statements env).revoke p |>.orderly, fun _ r r' eq => ?_⟩
    cases eq
    rfl

/-! ### Who authenticated -/

/-- The user's password, or a token that was issued to the user, was presented. -/
def Authenticated (db : State) (env : Env) (userId : Uuid) : Request → Prop
  | .login body => ∃ u ∈ db .users, u.id = userId ∧
      u.username.map env.lower = some (env.lower body.username) ∧
      env.verify body.password (u.passwordHash.getD "") = some true
  | .refresh rt bodyToken => ∃ t ∈ db .refreshTokens, t.userId = userId ∧
      t.tokenHash = env.sha256Hex ((presented rt bodyToken).getD "")
  | .logout _ => False

theorem Authenticated.stays {db db' : State} {env : Env} {userId : Uuid} {r : Request}
    (here : Authenticated db env userId r) (kept : CredentialsKept db db') :
    Authenticated db' env userId r := by
  cases r with
  | login body =>
      obtain ⟨u, hu, rfl, named, verified⟩ := here
      obtain ⟨u', hu', same⟩ := kept .users rfl u hu
      simp only [credentials, Prod.mk.injEq] at same
      obtain ⟨sameId, sameName, samePassword⟩ := same
      exact ⟨u', hu', sameId, sameName ▸ named, samePassword ▸ verified⟩
  | refresh rt bodyToken =>
      obtain ⟨t, ht, rfl, hashed⟩ := here
      obtain ⟨t', ht', same⟩ := kept .refreshTokens rfl t ht
      exact ⟨t', ht', congrArg (fun i => i.2.1) same,
        (congrArg (fun i => i.2.2.1) same).trans hashed⟩
  | logout rt => exact here

/-- The token of a reply is stored for the user that the reply is for. -/
def Issued (db : State) (env : Env) (userId : Uuid) (accessToken rt : String) : Prop :=
  env.accessToken userId = some accessToken ∧ ∃ t ∈ db .refreshTokens,
    t.userId = userId ∧ t.tokenHash = env.sha256Hex rt ∧ t.expiresAt = env.now + tokenLifetime

/-- What a reply tells of the rows. -/
def Backed (env : Env) (r : Request) : Reply → State → Prop
  | .token accessToken rt, db => ∃ userId, Authenticated db env userId r ∧
      Issued db env userId accessToken rt
  | .loggedOut, _ => ∃ rt, r = .logout rt

theorem Backed.stays {env : Env} {r : Request} {reply : Reply} {db db' : State}
    (backed : Backed env r reply db) (kept : CredentialsKept db db') : Backed env r reply db' := by
  cases reply with
  | token accessToken rt =>
      obtain ⟨userId, authenticated, answered, t, ht, rfl, hashed, expires⟩ := backed
      obtain ⟨t', ht', same⟩ := kept .refreshTokens rfl t ht
      simp only [credentials, RefreshToken.issuance, Prod.mk.injEq] at same
      obtain ⟨_, sameUser, sameHash, sameExpiry⟩ := same
      exact ⟨t.userId, authenticated.stays kept, answered, t', ht', sameUser,
        sameHash.trans hashed, sameExpiry.trans expires⟩
  | loggedOut => exact backed

/-! ### The endpoints -/

section Endpoints

variable {α : Type} {env : Env} {w : World Table}

/-- The part of a request that is left, beside others that take no credentials away. -/
abbrev Backing (post : α → World Table → Prop) (p : AuthM α) (w : World Table) : Prop :=
  p.Safe (Unharmed everyTable credentials) (fun _ _ => True) post (fun _ _ => True) w

/-- One statement. -/
theorem backing_ask {s : Statement} {post : Ans s → World Table → Prop}
    (answers : ∀ db found a v, CredentialsKept w.db db →
      World.execOn found s ⟨db, w.session⟩ = (.ok a, v) → post a v) :
    Backing post (Prog.ask .db s) w :=
  Prog.Safe.ask (fun _ _ => trivial) (fun db found a v moved answered =>
    answers db found a v moved answered) fun _ _ _ _ _ _ => trivial

theorem backing_scalarOneOrNone {rows : List α} {post : Option α → World Table → Prop}
    (none : rows = [] → post none w) (one : ∀ a, rows = [a] → post (some a) w) :
    Backing post (AuthM.scalarOneOrNone rows) w := by
  unfold AuthM.scalarOneOrNone
  split
  · exact none rfl
  · exact one _ rfl
  · trivial

theorem backing_orRaise {e : Exc} {found : Option α} {post : α → World Table → Prop}
    (some : ∀ a, found = some a → post a w) : Backing post (AuthM.orRaise e found) w := by
  cases found with
  | none => trivial
  | some a => exact some a rfl

/-- What a new token is for, and that it is stored when the reply is there. -/
theorem backing_issue (userId : Uuid) : Backing (fun reply v => ∃ accessToken,
    reply = .token accessToken env.rawToken ∧ Issued v.db env userId accessToken env.rawToken)
    (issue env userId) w := by
  have created : Backing (fun _ v => ∃ changes id, v.session.pending .refreshTokens =
      changes ++ [.ins (RefreshTokenRepo.fresh userId (env.sha256Hex env.rawToken)
        (env.now + tokenLifetime) id)])
      (RefreshTokenRepo.create userId (env.sha256Hex env.rawToken) (env.now + tokenLifetime)) w := by
    refine Prog.Safe.bind (backing_ask (s := .insert Table.refreshTokens _)
      fun db found token v _ answered => ?_)
    obtain ⟨_, made, _, added, _, _⟩ := World.execOn_insert answered
    have held : v.session.pending .refreshTokens =
        w.session.pending .refreshTokens ++ [.ins token] := by
      rw [added]
      simp only [Session.add, Function.update_self]
    cases made
    refine Prog.Safe.bind (backing_ask (s := .select Table.refreshTokens _)
      fun db found rows u _ answered => ?_)
    obtain ⟨_, _, same, _, _⟩ := World.execOn_select answered
    refine Prog.Safe.bind (backing_scalarOneOrNone (fun _ => trivial) fun _ _ => ?_)
    refine ⟨w.session.pending .refreshTokens, World.nextId ⟨db, w.session⟩, ?_⟩
    rw [same]
    exact held
  refine Prog.Safe.bind (Prog.Safe.bind (Prog.Safe.mono created (fun _ v held => ?_)
    fun _ _ h => h))
  obtain ⟨changes, id, pending⟩ := held
  refine Prog.Safe.bind (backing_ask (s := .commit) fun db found a u _ answered => ?_)
  have world : (World.exec .commit ⟨db, v.session⟩) = (.ok a, u) := answered
  have stored : u.db = World.view ⟨db, v.session⟩ := by
    rcases World.exec_commit ⟨db, v.session⟩ with ⟨_, _, stored, _⟩ | ⟨⟨e, failed⟩, _⟩
    · rw [world] at stored
      exact stored
    · rw [world] at failed
      cases failed
  refine Prog.Safe.bind (backing_orRaise fun accessToken answered => ?_)
  let token := RefreshTokenRepo.fresh userId (env.sha256Hex env.rawToken)
    (env.now + tokenLifetime) id
  refine ⟨accessToken, rfl, answered, token, ?_, rfl, rfl, rfl⟩
  rw [stored, World.view]
  show _ ∈ Change.applyAll (v.session.pending .refreshTokens) (db .refreshTokens)
  rw [pending, Change.applyAll_append]
  exact List.mem_append_right _ (List.mem_singleton_self _)

/-- A reply for a user that authenticated. -/
theorem backing_answer {r : Request} (userId : Uuid) {p : AuthM Reply}
    (retaining : p.Retaining everyTable credentials)
    (authenticated : Authenticated w.db env userId r)
    (own : Writes.Retain everyTable credentials w.session.pending)
    (issues : Backing (fun reply v => ∃ accessToken, reply = .token accessToken env.rawToken ∧
      Issued v.db env userId accessToken env.rawToken) p w) :
    Backing (fun reply v => Backed env r reply v.db) p w := by
  have still := Prog.Safe.of_retaining (fun _ _ moved => moved)
    (fun _ _ here kept => Authenticated.stays here kept) retaining authenticated own
  refine Prog.Safe.mono (Prog.Safe.and still issues) ?_ fun _ _ _ => trivial
  rintro reply v ⟨here, accessToken, rfl, issued⟩
  exact ⟨userId, here, issued⟩

theorem retain_own {w : World Table} (idle : w.session.pending = fun _ => []) :
    Writes.Retain everyTable credentials w.session.pending := by
  rw [idle]
  exact Writes.retain_nil

theorem view_of_idle {w : World Table} (idle : w.session.pending = fun _ => []) : w.view = w.db := by
  funext t
  rw [World.view, idle]
  rfl

theorem backing_login (body : LoginRequest) (idle : w.session.pending = fun _ => []) :
    Backing (fun reply v => Backed env (.login body) reply v.db) (login env body) w := by
  unfold login
  -- the user is one of the database, since nothing is pending yet
  have looked : Backing (fun user v => v.session.pending = (fun _ => []) ∧ ∀ u, user = some u →
      u ∈ v.db .users ∧ u.username.map env.lower = some (env.lower body.username))
      (UserRepo.getByUsername env body.username) w := by
    refine Prog.Safe.bind (backing_ask (s := .select Table.users _)
      fun db found (rows : List User) v _ answered => ?_)
    obtain ⟨_, selected, same, stored, _⟩ := World.execOn_select answered
    refine backing_scalarOneOrNone (fun _ => ⟨same.trans idle, nofun⟩) fun u only =>
      ⟨same.trans idle, ?_⟩
    rintro _ ⟨⟩
    have mine : u ∈ rows := only ▸ List.mem_singleton_self u
    rw [selected] at mine
    obtain ⟨seen, named⟩ := List.mem_filter.mp mine
    have here := World.mem_view_of_mem_visible seen
    rw [view_of_idle (w := ⟨db, w.session⟩) idle] at here
    exact ⟨stored ▸ here, beq_iff_eq.mp named⟩
  refine Prog.Safe.bind (Prog.Safe.mono looked ?_ fun _ _ _ => trivial)
  rintro user v ⟨idle, found⟩
  cases user with
  | none =>
      exact Prog.Safe.bind (Prog.Safe.bind (backing_orRaise fun _ _ => trivial))
  | some user =>
      obtain ⟨here, named⟩ := found user rfl
      dsimp only
      split
      · trivial
      · refine Prog.Safe.bind (backing_orRaise fun right verified => ?_)
        split
        · rename_i correct
          have statements := retaining_statements env
          have retaining : (do UserRepo.resetLoginState user.id; issue env user.id :
              AuthM Reply).Retaining everyTable credentials :=
            Prog.All.bind (all_update (statements.reset _)) fun _ => statements.issues user.id
          refine backing_answer user.id retaining ⟨user, here, rfl, named, ?_⟩
            (retain_own idle) ?_
          · rw [verified, correct]
          · exact Prog.Safe.bind (Prog.Safe.bind (backing_ask fun _ _ _ _ _ _ =>
              backing_issue user.id))
        · refine Prog.Safe.bind (Prog.Safe.bind (Prog.Safe.bind (backing_ask fun _ _ _ _ _ _ => ?_)))
          refine Prog.Safe.bind (backing_ask fun _ _ _ _ _ _ => ?_)
          exact Prog.Safe.bind (backing_ask fun _ _ _ _ _ _ => trivial)

/-- A token that could not be rotated is answered with an error. -/
theorem backing_rejectRefresh {post : Reply → World Table → Prop} (hash : String) :
    Backing post (rejectRefresh env hash) w := by
  unfold rejectRefresh
  refine Prog.Safe.bind (Prog.Safe.bind (backing_ask fun _ _ rows _ _ _ => ?_))
  refine backing_scalarOneOrNone (fun _ => trivial) fun existing _ => ?_
  dsimp only
  split
  · split
    · trivial
    · refine Prog.Safe.bind (Prog.Safe.bind (backing_ask fun _ _ _ _ _ _ => ?_))
      exact Prog.Safe.bind (backing_ask fun _ _ _ _ _ _ => trivial)
  · trivial

theorem backing_refreshToken (rt bodyToken : Option String)
    (idle : w.session.pending = fun _ => []) :
    Backing (fun reply v => Backed env (.refresh rt bodyToken) reply v.db)
      (refreshToken env rt bodyToken) w := by
  unfold refreshToken
  dsimp only
  split
  · trivial
  · have statements := retaining_statements env
    refine Prog.Safe.bind (Prog.Safe.bind (backing_ask (s := .update Table.refreshTokens _ _)
      fun db found (rows : List RefreshToken) v _ answered => ?_))
    obtain ⟨orderly, retains⟩ := statements.rotate
      (RefreshTokenRepo.isValid env (env.sha256Hex ((presented rt bodyToken).getD "")))
    have own := (World.execOn_retains orderly retains found (w := ⟨db, w.session⟩)
      (retain_own idle)).1
    rw [answered] at own
    obtain ⟨_, _, _, returned, _, stored, _⟩ := World.execOn_update answered
    refine backing_scalarOneOrNone (fun _ => backing_rejectRefresh _) fun new only => ?_
    have mine : new ∈ rows := only ▸ List.mem_singleton_self new
    rw [returned] at mine
    obtain ⟨pair, hpair, rfl⟩ := List.mem_map.mp mine
    obtain ⟨old, hold, rfl⟩ := List.mem_map.mp hpair
    obtain ⟨seen, valid, _⟩ := World.mem_matched.mp hold
    have here := World.mem_view_of_mem_visible seen
    rw [view_of_idle (w := ⟨db, w.session⟩) idle] at here
    simp only [RefreshTokenRepo.isValid, Bool.and_eq_true, beq_iff_eq] at valid
    exact backing_answer _ (statements.issues _) ⟨old, stored ▸ here, rfl, valid.1.1⟩ own
      (backing_issue _)

theorem backing_logout (rt : Option String) :
    Backing (fun reply v => Backed env (.logout rt) reply v.db) (logout env rt) w := by
  unfold logout
  split
  · exact Prog.Safe.bind (Prog.Safe.catchWith (Prog.Safe.mono (Prog.Safe.anyhow _) (fun _ _ _ => ⟨rt, rfl⟩)
      fun _ _ _ => ⟨rt, rfl⟩))
  · exact ⟨rt, rfl⟩

theorem backing_program (r : Request) (idle : w.session.pending = fun _ => []) :
    Backing (fun reply v => Backed env r reply v.db) (r.program env) w := by
  cases r with
  | login body => exact backing_login body idle
  | refresh rt bodyToken => exact backing_refreshToken rt bodyToken idle
  | logout rt => exact backing_logout rt

end Endpoints

/-! ### In any order -/

section Run

variable {db : State} {requests : List (Call × Request)} {p : Pool Table Exc Reply}

/-- Logins, refreshes and logouts, their statements in any order: what was answered to a
request is backed, when it is answered and ever after. -/
theorem backed_of_run (run : Pool.Run Pool.Anything (sideBySide db requests) p) {i : Nat}
    {call : Call} {r : Request} (request : requests[i]? = some (call, r))
    {c : Client Table Exc Reply} (there : p.clients[i]? = some c) {reply : Reply}
    (answered : c.prog = .pure reply) : Backed call.env r reply p.db := by
  have retaining : (sideBySide db requests).Retaining everyTable credentials := by
    refine ⟨fun c hc => ?_, fun c hc => ?_⟩
    · obtain ⟨x, hx, rfl⟩ := List.mem_map.mp hc
      exact (retaining_statements x.1.env).all x.2
    · obtain ⟨x, hx, rfl⟩ := List.mem_map.mp hc
      exact Writes.retain_nil
  have here : (sideBySide db requests).clients[i]? = some (call.client r) := by
    show (requests.map fun x => x.1.client x.2)[i]? = _
    rw [List.getElem?_map, request]
    rfl
  exact run.ended retaining (fun _ _ _ backed kept => backed.stays kept) here rfl
    (backing_program r rfl) there answered

/-- A token is stored once, so whoever presents it is the user it was issued to. -/
theorem user_of_hash (indexed : Indexed db)
    (run : Pool.Run Pool.Anything (sideBySide db requests) p) {t t' : RefreshToken}
    (ht : t ∈ p.db .refreshTokens) (ht' : t' ∈ p.db .refreshTokens)
    (same : t.tokenHash = t'.tokenHash) : t.userId = t'.userId := by
  have inOrder := Pool.Run.inOrder run (sideBySide_inOrder indexed requests)
  have shared := inOrder.distinct .refreshTokens t ht t' ht' (.tokenHash t.tokenHash)
    (List.mem_singleton_self _) (same ▸ List.mem_singleton_self _)
  rw [List.inj_on_of_nodup_map (inOrder.keyed .refreshTokens) ht ht' shared]

end Run

/-! ### Sessions -/

section Sessions

variable (requests : List (Call × Request)) (p : Pool Table Exc Reply)

/-- A request, and the tokens that it was answered with. -/
structure Answered where
  call : Call
  request : Request
  accessToken : String
  rt : String

/-- The request at a position was answered so. -/
structure Answered.At (x : Answered) (i : Nat) : Prop where
  sent : requests[i]? = some (x.call, x.request)
  ended : ∃ c : Client Table Exc Reply, p.clients[i]? = some c ∧
    c.prog = .pure (.token x.accessToken x.rt)

/-- The other was answered to a refresh that presented the token of this one. -/
def Answered.ContinuedBy (x y : Answered) : Prop :=
  (∃ i, x.At requests p i) ∧ (∃ j, y.At requests p j) ∧
    ∃ given bodyToken, y.request = .refresh given bodyToken ∧ presented given bodyToken = some x.rt

end Sessions

/-- The tokens of a session, which its requests present to each other in any order that the
server comes to, are all for the user who authenticated at its beginning. -/
theorem session_one_user {db : State} {requests : List (Call × Request)}
    {p : Pool Table Exc Reply} (indexed : Indexed db)
    (run : Pool.Run Pool.Anything (sideBySide db requests) p) {sha256Hex : String → String}
    (hashed : ∀ x ∈ requests, x.1.env.sha256Hex = sha256Hex) {x y : Answered}
    (first : ∃ i, x.At requests p i)
    (session : ReflTransGen (Answered.ContinuedBy requests p) x y) :
    ∃ userId, Authenticated p.db x.call.env userId x.request ∧
      Issued p.db x.call.env userId x.accessToken x.rt ∧
      Issued p.db y.call.env userId y.accessToken y.rt := by
  -- by the answers of the session: each refresh presents the token of the answer before
  induction session with
  | refl =>
      obtain ⟨i, sent, c, there, ended⟩ := first
      obtain ⟨userId, authenticated, issued⟩ := backed_of_run run sent there ended
      exact ⟨userId, authenticated, issued, issued⟩
  | @tail y z _ continued ih =>
      obtain ⟨userId, authenticated, issued, _, t, ht, rfl, hash, _⟩ := ih
      obtain ⟨⟨i, sentY, _⟩, ⟨j, sentZ, c, there, ended⟩, given, bodyToken, isRefresh, shown⟩ :=
        continued
      obtain ⟨userId', by_token, issued'⟩ := backed_of_run run sentZ there ended
      rw [isRefresh] at by_token
      obtain ⟨t', ht', rfl, hash'⟩ := by_token
      -- the two rows have one hash, and the index lets in one row with it
      have same : t.tokenHash = t'.tokenHash := by
        rw [hash, hash', shown, hashed _ (List.mem_of_getElem? sentY),
          hashed _ (List.mem_of_getElem? sentZ)]
        rfl
      have one := user_of_hash indexed run ht ht' same
      exact ⟨t.userId, authenticated, issued, one ▸ issued'⟩

namespace Sample

def loggedIn : Answered := ⟨(twice.map Prod.fst)[0], .login ⟨"ada", "password"⟩, "access", "first"⟩

def refreshed : Answered := ⟨(twice.map Prod.fst)[1], .refresh (some "first") none, "access", "second"⟩

theorem at_of_replies {p : Pool Table Exc Reply} {x : Answered} {i : Nat}
    (sent : twice[i]? = some (x.call, x.request))
    (here : (replies p)[i]? = some (some (.token x.accessToken x.rt))) : x.At twice p i :=
  ⟨sent, result_of_replies here⟩

/-- Ada's second token is for her, though the first was presented twice. -/
theorem twice_one_user : ∃ p,
    Pool.play (fun _ _ _ _ => true) racing (sideBySide account twice) = some p ∧
      ∃ userId, Authenticated p.db (world 0 "first") userId loggedIn.request ∧
        Issued p.db (world 0 "first") userId "access" "first" ∧
        Issued p.db (world 1 "second") userId "access" "second" := by
  have checked : (Pool.play (fun _ _ _ _ => true) racing (sideBySide account twice)).map replies =
      some [some (.token "access" "first"), some (.token "access" "second"), none] := by
    decide +kernel
  obtain ⟨p, played, answered⟩ := Option.map_eq_some_iff.mp checked
  have first : loggedIn.At twice p 0 := at_of_replies rfl (by rw [answered]; rfl)
  have second : refreshed.At twice p 1 := at_of_replies rfl (by rw [answered]; rfl)
  have hashed : ∀ x ∈ twice, x.1.env.sha256Hex = fun text => text := by
    intro x hx
    simp only [twice, List.mem_cons, List.not_mem_nil, or_false] at hx
    rcases hx with rfl | rfl | rfl <;> rfl
  exact ⟨p, played, session_one_user account_indexed
    (Pool.run_of_play (fun _ _ _ _ _ => trivial) played) hashed ⟨0, first⟩
    (.single ⟨⟨0, first⟩, ⟨1, second⟩, _, _, rfl, rfl⟩)⟩

end Sample

end EspressoLogs.Auth
