import EspressoLogs.Auth.Rotation
import EspressoLogs.Lib.Follow

/-!
A token that is presented again.

A refresh that presents a spent token outside the grace period revokes all tokens of
the user. The statement rewrites the rows that it looked up: a successor that another
refresh commits in between is not among them, and lives on. Where the statement meets
no such row, no session of the user is ever refreshed again.
-/

namespace EspressoLogs.Auth

open Lib Py Relation

variable {allowed : Pool Table Exc Reply → Client Table Exc Reply →
  List (Client Table Exc Reply) → Statement → Prop}

/-! ### What a transaction did -/

/-- The tokens that a transaction took out of service. -/
def spentIn (ws : Writes Table) : List Uuid := (revokedBy (ws .refreshTokens)).map RefreshToken.id

/-- The tokens that a transaction issued. -/
def issuedIn (ws : Writes Table) : List Uuid :=
  (Writes.inserted ws .refreshTokens).map RefreshToken.id

/-- The transactions that redeemed a token for another one. -/
def redemptions (t : Uuid) (log : List (Writes Table)) : List (Writes Table) :=
  log.filter fun ws => decide (t ∈ spentIn ws) && decide (issuedIn ws ≠ [])

/-! ### Revocations -/

def Request.IsRefresh : Request → Prop
  | .refresh _ _ => True
  | _ => False

/-- The hash of the token that a refresh or a logout presents. -/
def Request.tokenHash (env : Env) : Request → Option String
  | .login _ => none
  | .refresh rt bodyToken => some (env.sha256Hex ((presented rt bodyToken).getD ""))
  | .logout rt => some (env.sha256Hex (rt.getD ""))

/-- In this step the request at a position commits without having issued a token. Of the
refreshes those do that found their token spent, and revoke all of its user. -/
def Revocation (i : Nat) (p p' : Pool Table Exc Reply) : Prop :=
  ∃ c k, p.clients[i]? = some c ∧ c.prog = .op .commit k ∧ issuedIn c.writes = [] ∧
    p'.log = c.writes :: p.log

/-- Once a refresh that presented a spent token has revoked the tokens of the user, none
of them is redeemed any more. -/
def SessionsEnd (allowed : Pool Table Exc Reply → Client Table Exc Reply →
    List (Client Table Exc Reply) → Statement → Prop) (db : State)
    (requests : List (Call × Request)) : Prop :=
  ∀ p p' p'' i x t, Pool.Run allowed (sideBySide db requests) p → Pool.Step allowed p p' →
    requests[i]? = some x → Revocation i p p' → t ∈ p'.db .refreshTokens →
      x.2.tokenHash x.1.env = some t.tokenHash → Pool.Run allowed p' p'' →
        ∀ s ∈ p''.db .refreshTokens, s.userId = t.userId →
          redemptions s.id p''.log = redemptions s.id p'.log

/-- A statement that just revokes tokens meets none that it did not look up. -/
def Complete (p : Pool Table Exc Reply) (c : Client Table Exc Reply)
    (_ : List (Client Table Exc Reply)) : Statement → Prop
  | .update .refreshTokens q set => (∀ r : RefreshToken, set r = .ok r.revoke) →
      ∀ r : RefreshToken, r ∈ World.visible ⟨p.db, c.session⟩ .refreshTokens → q r = true →
        r.id ∈ c.found.getD []
  | _ => True

/-! ### Rows and changes -/

section Changes

variable {rows : List RefreshToken} {changes : List (Change RefreshToken)}

/-- What is taken out of service was in service before, and is revoked afterwards. -/
theorem spent_of_mem_revokedBy (revoking : ∀ c ∈ changes, Revoking c)
    (fits : Change.AllFit (Table.id .refreshTokens) changes rows) {t : RefreshToken}
    (ht : t ∈ revokedBy changes) :
    (∃ r ∈ rows, r.issuance = t.issuance ∧ r.revoked = false) ∧
      ∃ r ∈ Change.applyAll changes rows, r.id = t.id ∧ r.revoked = true := by
  induction changes generalizing rows with
  | nil => cases ht
  | cons c cs ih =>
      obtain ⟨first, rest⟩ := List.forall_mem_cons.mp revoking
      obtain ⟨pairs, rfl, revokes⟩ := first
      rcases List.mem_append.mp ht with here | later
      · obtain ⟨pair, hpair, rfl⟩ := List.mem_map.mp here
        obtain ⟨hpair, opened⟩ := List.mem_filter.mp hpair
        obtain ⟨stored, _, replaced⟩ := fits.1 pair hpair
        obtain ⟨revoked, same⟩ := revokes pair hpair
        simp only [Bool.and_eq_true, Bool.not_eq_eq_eq_not, Bool.not_true] at opened
        have there : pair.2 ∈ Change.apply (.upd pairs) rows := by
          refine List.mem_map.mpr ⟨pair.1, stored, ?_⟩
          rw [replaced]
          rfl
        obtain ⟨r, hr, one, still⟩ := kept_applyAll rest pair.2 there
        exact ⟨⟨pair.1, stored, rfl, opened.1⟩, r, hr, RefreshToken.id_eq (one.trans same),
          still revoked⟩
      · obtain ⟨⟨r, hr, same, opened⟩, after⟩ := ih rest fits.2 later
        rcases Change.mem_apply hr with old | new
        · exact ⟨⟨r, old, same, opened⟩, after⟩
        · obtain ⟨pair, hpair, rfl⟩ := List.mem_map.mp new
          rw [(revokes pair hpair).1] at opened
          cases opened

theorem inserted_of_revoking (revoking : ∀ c ∈ changes, Revoking c) :
    changes.flatMap Change.inserted = [] := by
  refine List.flatMap_eq_nil_iff.mpr fun c hc => ?_
  obtain ⟨pairs, rfl, _⟩ := revoking c hc
  rfl

/-- Every row after a revocation comes from one before it. -/
theorem origin_of_revoking (revoking : ∀ c ∈ changes, Revoking c) {s : RefreshToken}
    (hs : s ∈ Change.applyAll changes rows) : ∃ r ∈ rows, r.issuance = s.issuance := by
  induction changes generalizing rows with
  | nil => exact ⟨s, hs, rfl⟩
  | cons c cs ih =>
      obtain ⟨first, rest⟩ := List.forall_mem_cons.mp revoking
      obtain ⟨pairs, rfl, revokes⟩ := first
      obtain ⟨x, hx, same⟩ := ih rest hs
      obtain ⟨r, hr, rfl⟩ := List.mem_map.mp hx
      refine ⟨r, hr, ?_⟩
      cases found : pairs.lookup r with
      | none => simpa [found] using same
      | some n =>
          have kept := (revokes _ (Change.mem_of_lookup found)).2
          rw [found, Option.getD_some] at same
          exact kept.symm.trans same

/-- Rows that revocations concern are revoked. -/
theorem revoked_of_touched (revoking : ∀ c ∈ changes, Revoking c)
    (keyed : (rows.map RefreshToken.id).Nodup)
    (fits : Change.AllFit (Table.id .refreshTokens) changes rows) {s : RefreshToken}
    (hs : s ∈ Change.applyAll changes rows)
    (touched : s ∈ rows → s.revoked = false → s.id ∈ Change.keys RefreshToken.id changes) :
    s.revoked = true := by
  rcases Change.mem_applyAll hs with old | ⟨c, hc, new⟩
  · rcases Bool.eq_false_or_eq_true s.revoked with closed | opened
    · exact closed
    · have uninserted : ∀ r, .ins r ∈ changes → r.id ≠ s.id := by
        intro r hr
        obtain ⟨pairs, no, _⟩ := revoking _ hr
        cases no
      obtain ⟨r, hr, same, c, hc, gone⟩ := Change.exists_old fits (touched old opened) uninserted
      have one : r = s := List.inj_on_of_nodup_map keyed hr old same
      subst one
      obtain ⟨pairs, rfl, revokes⟩ := revoking c hc
      obtain ⟨pair, hpair, rfl⟩ := List.mem_map.mp gone
      have spent : pair.1 ∈ revokedBy changes := by
        refine List.mem_flatMap.mpr ⟨_, hc, List.mem_map.mpr ⟨pair, ?_, rfl⟩⟩
        exact List.mem_filter.mpr ⟨hpair, by simp [opened, (revokes pair hpair).1]⟩
      obtain ⟨_, x, hx, same', revoked⟩ := spent_of_mem_revokedBy revoking fits spent
      have distinct := Change.nodup_applyAll keyed fits
      have one : x = pair.1 := List.inj_on_of_nodup_map distinct hx hs same'
      rw [one] at revoked
      exact revoked
  · obtain ⟨pairs, rfl, revokes⟩ := revoking c hc
    obtain ⟨pair, hpair, rfl⟩ := List.mem_map.mp new
    exact (revokes pair hpair).1

end Changes

/-! ### The outline of a refresh -/

/-- A transaction writes every open token of the user. -/
def Covers (userId : Uuid) (ws : Writes Table) (db : State) : Prop :=
  ∀ t : RefreshToken, t ∈ db .refreshTokens → t.userId = userId → t.revoked = false →
    t.id ∈ ws.touched .refreshTokens

/-- What others leave as it is for a transaction. -/
structure Undisturbed (w : World Table) (db : State) : Prop where
  keyed : ((db .refreshTokens).map RefreshToken.id).Nodup
  distinct : NoShare (T := Table) .refreshTokens (db .refreshTokens)
  fits : Change.AllFit (Table.id .refreshTokens) (w.session.pending .refreshTokens)
    (db .refreshTokens)
  kept : Kept (w.db .refreshTokens) (db .refreshTokens)
  covers : ∀ userId, Covers userId w.session.pending w.db → Covers userId w.session.pending db

/-- The statement is performed on all that it is about. -/
def CompleteOn : Statement → List Uuid → World Table → Prop
  | .update .refreshTokens q set, found, w => (∀ r : RefreshToken, set r = .ok r.revoke) →
      ∀ r : RefreshToken, r ∈ w.visible .refreshTokens → q r = true → r.id ∈ found
  | _, _, _ => True

/-- A commit that issues no token leaves none of the user open whose token has the hash. -/
def RevokedOnCommit (hash : String) : Statement → World Table → Prop
  | .commit, w => issuedIn w.session.pending = [] → ∀ t : RefreshToken, t ∈ w.db .refreshTokens →
      t.tokenHash = hash → ∀ s : RefreshToken, s ∈ w.view .refreshTokens → s.userId = t.userId →
        s.revoked = true
  | _, _ => True

/-- What a refresh with that hash relies on and promises. -/
def refreshOutline (hash : String) : Outline Table Exc Reply where
  rely := Undisturbed
  given := CompleteOn
  promise := RevokedOnCommit hash
  post _ _ := True
  fails _ _ := True

theorem Undisturbed.trans {w : World Table} {db db' : State} (first : Undisturbed w db)
    (second : Undisturbed ⟨db, w.session⟩ db') : Undisturbed w db' where
  keyed := second.keyed
  distinct := second.distinct
  fits := second.fits
  kept := first.kept.trans second.kept
  covers userId h := second.covers userId (first.covers userId h)

theorem refreshOutline_stable (hash : String) : (refreshOutline hash).Stable where
  again _ _ _ := Undisturbed.trans
  post _ _ _ _ _ := trivial
  fails _ _ _ _ _ := trivial
  ended _ _ _ := trivial
  failed _ _ _ := trivial

section Outline

variable {α : Type} {hash : String} {w : World Table}

/-- The part of a refresh that is left follows its outline. -/
abbrev Refreshing (hash : String) (post : α → World Table → Prop) (p : AuthM α) (w : World Table) :
    Prop :=
  p.Follows Undisturbed CompleteOn (RevokedOnCommit hash) post (fun _ _ => True) w

theorem refreshing_ask {s : Statement} {post : Ans s → World Table → Prop}
    (kept : ∀ db, Undisturbed w db → RevokedOnCommit hash s ⟨db, w.session⟩)
    (answers : ∀ db found a v, Undisturbed w db → CompleteOn s found ⟨db, w.session⟩ →
      World.execOn found s ⟨db, w.session⟩ = (.ok a, v) → post a v) :
    Refreshing hash post (Prog.ask .db s) w :=
  Prog.Follows.ask (fun _ db first second _ => kept db (first.trans second))
    (fun _ db a v first second complete answered =>
      answers db _ a v (first.trans second) complete answered)
    fun _ _ _ _ _ _ _ _ => trivial

theorem refreshing_scalarOneOrNone {rows : List α} {post : Option α → World Table → Prop}
    (none : rows = [] → post none w) (one : ∀ a, rows = [a] → post (some a) w) :
    Refreshing hash post (AuthM.scalarOneOrNone rows) w := by
  unfold AuthM.scalarOneOrNone
  split
  · exact none rfl
  · exact one _ rfl
  · trivial

/-- A transaction that issues a token has revoked no user. -/
theorem refreshing_issue (env : Env) (userId : Uuid) :
    Refreshing hash (fun _ _ => True) (issue env userId) w := by
  have created : Refreshing hash (fun _ v => issuedIn v.session.pending ≠ [])
      (RefreshTokenRepo.create userId (env.sha256Hex env.rawToken) (env.now + tokenLifetime)) w := by
    refine Prog.Follows.bind (refreshing_ask (s := .insert Table.refreshTokens _)
      (fun _ _ => trivial) fun db found token v _ _ answered => ?_)
    obtain ⟨_, _, _, added, _, _⟩ := World.execOn_insert answered
    have issued : issuedIn v.session.pending ≠ [] := by
      rw [issuedIn, Writes.inserted_self added]
      simp [Change.inserted]
    refine Prog.Follows.bind (refreshing_ask (s := .select Table.refreshTokens _)
      (fun _ _ => trivial) fun db found rows u _ _ answered => ?_)
    obtain ⟨_, _, same, _, _⟩ := World.execOn_select answered
    refine Prog.Follows.bind (refreshing_scalarOneOrNone (fun _ => trivial) fun _ _ => ?_)
    show issuedIn u.session.pending ≠ []
    rw [same]
    exact issued
  refine Prog.Follows.bind (Prog.Follows.bind (Prog.Follows.mono created (fun _ v issued => ?_)
    fun _ _ h => h))
  refine Prog.Follows.bind (refreshing_ask (s := .commit)
    (fun _ _ nothing => absurd nothing issued) fun db found a u _ _ answered => ?_)
  cases env.accessToken userId <;> trivial

/-- A token that is found is in the table. -/
theorem refreshing_getByHash (empty : w.session.pending .refreshTokens = [.upd []]) :
    Refreshing hash (fun found v => v.session.pending .refreshTokens = [.upd []] ∧
      ∀ t, found = some t → t ∈ v.db .refreshTokens ∧ t.tokenHash = hash)
      (RefreshTokenRepo.getByHash hash) w := by
  refine Prog.Follows.bind (refreshing_ask (s := .select Table.refreshTokens _)
    (fun _ _ => trivial) fun db found rows v _ _ answered => ?_)
  obtain ⟨_, rfl, same, stored, _⟩ := World.execOn_select answered
  have pending : v.session.pending .refreshTokens = [.upd []] :=
    (congrFun same .refreshTokens).trans empty
  refine refreshing_scalarOneOrNone (fun _ => ⟨pending, nofun⟩) fun t only => ⟨pending, ?_⟩
  rintro _ ⟨⟩
  have mine : t ∈ [t] := List.mem_singleton_self t
  rw [← only] at mine
  obtain ⟨seen, named⟩ := List.mem_filter.mp mine
  have here := World.mem_view_of_mem_visible seen
  rw [World.view, empty, Change.applyAll_singleton, Change.apply_upd_nil] at here
  rw [stored]
  exact ⟨here, beq_iff_eq.mp named⟩

/-- The revocation covers all tokens of the user, as it met none that was not looked up. -/
theorem refreshing_revokeAll {e : RefreshToken} (here : e ∈ w.db .refreshTokens)
    (empty : w.session.pending .refreshTokens = [.upd []]) :
    Refreshing hash (fun _ v => (∃ x ∈ v.db .refreshTokens, x.issuance = e.issuance) ∧
      Covers e.userId v.session.pending v.db ∧
        ∀ c ∈ v.session.pending .refreshTokens, Revoking c)
      (RefreshTokenRepo.revokeAllForUser e.userId) w := by
  refine Prog.Follows.bind (refreshing_ask (s := .update Table.refreshTokens _ _)
    (fun _ _ => trivial) fun db found rows v undisturbed complete answered => ?_)
  obtain ⟨_, _, _, _, added, stored, _⟩ := World.execOn_update answered
  have pending : v.session.pending .refreshTokens = [.upd []] ++ [.upd (rewritten
      (fun t : RefreshToken => .ok t.revoke) (World.matched ⟨db, w.session⟩ .refreshTokens
        (RefreshTokenRepo.isOpenFor e.userId) found))] := by
    rw [added]
    simp only [Session.add, Function.update_self]
    exact congrArg (· ++ _) empty
  obtain ⟨x, hx, same, _⟩ := undisturbed.kept e here
  refine ⟨⟨x, ?_, same⟩, ?_, ?_⟩
  · rw [stored]
    exact hx
  · intro t ht owned opened
    rw [stored] at ht
    have visible : t ∈ World.visible ⟨db, w.session⟩ .refreshTokens := by
      rw [World.visible_of_unsecured rfl, World.view, empty, Change.applyAll_singleton,
        Change.apply_upd_nil]
      exact ht
    have mine : RefreshTokenRepo.isOpenFor e.userId t = true := by
      simp [RefreshTokenRepo.isOpenFor, owned, opened]
    have matched := World.mem_matched.mpr
      ⟨visible, mine, complete (fun _ => rfl) t visible mine⟩
    refine Change.mem_keys.mpr ⟨_, pending ▸ List.mem_append_right _ (List.mem_singleton_self _),
      t, List.mem_append_left _ (List.mem_map.mpr ⟨_, List.mem_map_of_mem matched, rfl⟩), rfl⟩
  · rw [pending]
    refine List.forall_mem_append.mpr ⟨List.forall_mem_singleton.mpr ⟨[], rfl, fun p hp => ?_⟩,
      List.forall_mem_singleton.mpr ⟨_, rfl, fun pair hpair => ?_⟩⟩
    · exact absurd hp List.not_mem_nil
    obtain ⟨r, _, rfl⟩ := List.mem_map.mp hpair
    exact ⟨rfl, rfl⟩

theorem refreshing_rejectRefresh (env : Env)
    (empty : w.session.pending .refreshTokens = [.upd []]) :
    Refreshing hash (fun _ _ => True) (rejectRefresh env hash) w := by
  unfold rejectRefresh
  refine Prog.Follows.bind (Prog.Follows.mono (refreshing_getByHash empty)
    (fun found v held => ?_) fun _ _ h => h)
  obtain ⟨pending, named⟩ := held
  cases found with
  | none => trivial
  | some e =>
      obtain ⟨here, hashed⟩ := named e rfl
      dsimp only
      split
      · split
        · trivial
        · refine Prog.Follows.bind (Prog.Follows.mono (refreshing_revokeAll here pending)
            (fun _ u held => ?_) fun _ _ h => h)
          obtain ⟨⟨x, hx, same⟩, covers, revoking⟩ := held
          refine Prog.Follows.bind (refreshing_ask (s := .commit) (fun db undisturbed _ => ?_)
            fun _ _ _ _ _ _ _ => trivial)
          intro t ht same' s hs owned
          -- the token that has the hash is the one that was found
          obtain ⟨y, hy, again, _⟩ := undisturbed.kept x hx
          have hash_y : y.tokenHash = t.tokenHash :=
            (RefreshToken.tokenHash_eq (again.trans same)).trans (hashed.trans same'.symm)
          have one : y = t := List.inj_on_of_nodup_map undisturbed.keyed hy ht
            (undisturbed.distinct y hy t ht (.tokenHash y.tokenHash) (List.mem_singleton_self _)
              (hash_y ▸ List.mem_singleton_self _))
          have owner : t.userId = e.userId := one ▸ RefreshToken.userId_eq (again.trans same)
          refine revoked_of_touched revoking undisturbed.keyed undisturbed.fits hs
            fun old opened => ?_
          exact undisturbed.covers e.userId covers s old (owned.trans owner) opened
      · trivial

/-- Every refresh follows its outline. -/
theorem refreshing_refreshToken (env : Env) (rt bodyToken : Option String)
    (idle : w.session.pending .refreshTokens = []) :
    Refreshing (env.sha256Hex ((presented rt bodyToken).getD "")) (fun _ _ => True)
      (refreshToken env rt bodyToken) w := by
  unfold refreshToken
  dsimp only
  split
  · trivial
  · refine Prog.Follows.bind (Prog.Follows.bind (refreshing_ask
      (s := .update Table.refreshTokens _ _) (fun _ _ => trivial)
        fun db found rows v _ _ answered => ?_))
    obtain ⟨_, _, _, returned, added, _, _⟩ := World.execOn_update answered
    refine refreshing_scalarOneOrNone (fun none => ?_) fun stored _ => ?_
    · refine refreshing_rejectRefresh env ?_
      rw [none] at returned
      rw [added, List.map_eq_nil_iff.mp returned.symm]
      simp only [Session.add, Function.update_self]
      exact congrArg (· ++ _) idle
    · exact refreshing_issue env stored.userId

end Outline

/-! ### Along a run -/

namespace Shaped

variable {rooted : Prop} {ws : Writes Table} {rows : List RefreshToken} {s : RefreshToken}

/-- A token that the transaction took out of service was in service before, and is revoked
afterwards. -/
theorem spent {t : Uuid} (shaped : Shaped rooted ws)
    (fits : Change.AllFit (Table.id .refreshTokens) (ws .refreshTokens) rows) (ht : t ∈ spentIn ws) :
    (∃ r ∈ rows, r.id = t ∧ r.revoked = false) ∧
      ∃ r ∈ Change.applyAll (ws .refreshTokens) rows, r.id = t ∧ r.revoked = true := by
  obtain ⟨r, hr, rfl⟩ := List.mem_map.mp ht
  obtain ⟨changes, revoking, only | ⟨token, last, _⟩⟩ := shaped
  · rw [only] at fits hr ⊢
    obtain ⟨⟨x, hx, same, opened⟩, after⟩ := spent_of_mem_revokedBy revoking fits hr
    exact ⟨⟨x, hx, RefreshToken.id_eq same, opened⟩, after⟩
  · rw [last] at fits hr ⊢
    have early : r ∈ revokedBy changes := by simpa [revokedBy] using hr
    obtain ⟨⟨y, hy, issued, opened⟩, x, hx, same, revoked⟩ :=
      spent_of_mem_revokedBy revoking ((Change.allFit_append _).mp fits).1 early
    refine ⟨⟨y, hy, RefreshToken.id_eq issued, opened⟩, x, ?_, same, revoked⟩
    rw [Change.applyAll_append]
    exact List.mem_append_left _ hx

/-- An issued token stands for an open one of the same user, unless it begins a session. -/
theorem parent (shaped : Shaped False ws)
    (fits : Change.AllFit (Table.id .refreshTokens) (ws .refreshTokens) rows)
    (hs : s ∈ Writes.inserted ws .refreshTokens) :
    ∃ r ∈ rows, r.userId = s.userId ∧ r.revoked = false ∧ r.id ∈ ws.touched .refreshTokens := by
  obtain ⟨changes, revoking, only | ⟨token, last, succeeds⟩⟩ := shaped
  · rw [Writes.inserted, only, inserted_of_revoking revoking] at hs
    cases hs
  · rw [Writes.inserted, last, List.flatMap_append, inserted_of_revoking revoking] at hs
    cases List.mem_singleton.mp hs
    rw [last] at fits
    rcases succeeds with ⟨never, _⟩ | ⟨t, spent, owner⟩
    · exact never.elim
    · have ht : t ∈ revokedBy changes := spent ▸ List.mem_singleton_self t
      obtain ⟨⟨r, hr, same, still⟩, _⟩ :=
        spent_of_mem_revokedBy revoking ((Change.allFit_append _).mp fits).1 ht
      refine ⟨r, hr, (RefreshToken.userId_eq same).trans owner, still, ?_⟩
      rw [RefreshToken.id_eq same]
      obtain ⟨d, hd, mine⟩ := List.mem_flatMap.mp ht
      obtain ⟨pairs, rfl, _⟩ := revoking d hd
      obtain ⟨pair, hpair, rfl⟩ := List.mem_map.mp mine
      refine Change.mem_keys.mpr ⟨.upd pairs, ?_, pair.1, ?_, rfl⟩
      · rw [last]
        exact List.mem_append_left _ hd
      · exact List.mem_append_left _ (List.mem_map_of_mem (List.mem_filter.mp hpair).1)

/-- A token that is there afterwards was there before, or is issued. -/
theorem origin (shaped : Shaped rooted ws)
    (hs : s ∈ Change.applyAll (ws .refreshTokens) rows) :
    (∃ r ∈ rows, r.issuance = s.issuance) ∨ s ∈ Writes.inserted ws .refreshTokens := by
  obtain ⟨changes, revoking, only | ⟨token, last, _⟩⟩ := shaped
  · rw [only] at hs
    exact .inl (origin_of_revoking revoking hs)
  · rw [last, Change.applyAll_append] at hs
    rcases List.mem_append.mp hs with early | late
    · exact .inl (origin_of_revoking revoking early)
    · right
      rw [Writes.inserted, last, List.flatMap_append]
      exact List.mem_append_right _ late

/-- A token that is open afterwards was so before, or is issued. -/
theorem opened (shaped : Shaped rooted ws)
    (hs : s ∈ Change.applyAll (ws .refreshTokens) rows) (opened : s.revoked = false) :
    s ∈ rows ∨ s ∈ Writes.inserted ws .refreshTokens := by
  have closed {changes : List (Change RefreshToken)} (revoking : ∀ c ∈ changes, Revoking c)
      (hs : s ∈ Change.applyAll changes rows) : s ∈ rows := by
    rcases Change.mem_applyAll hs with old | ⟨c, hc, new⟩
    · exact old
    · obtain ⟨pairs, rfl, revokes⟩ := revoking c hc
      obtain ⟨pair, hpair, rfl⟩ := List.mem_map.mp new
      rw [(revokes pair hpair).1] at opened
      cases opened
  obtain ⟨changes, revoking, only | ⟨token, last, _⟩⟩ := shaped
  · rw [only] at hs
    exact .inl (closed revoking hs)
  · rw [last, Change.applyAll_append] at hs
    rcases List.mem_append.mp hs with early | late
    · exact .inl (closed revoking early)
    · right
      rw [Writes.inserted, last, List.flatMap_append]
      exact List.mem_append_right _ late

end Shaped

section Run

variable {db : State} {requests : List (Call × Request)} {p p' p'' : Pool Table Exc Reply}

theorem undisturbed_here (inOrder : p.InOrder) {c : Client Table Exc Reply} (hc : c ∈ p.clients) :
    Undisturbed ⟨p.db, c.session⟩ p.db where
  keyed := inOrder.keyed .refreshTokens
  distinct := inOrder.distinct .refreshTokens
  fits := (inOrder.clients c hc).fits .refreshTokens
  kept := Kept.refl _
  covers _ h := h

/-- A client whose transaction covers the user's tokens covers what others commit. -/
theorem undisturbed_step (step : Pool.Step allowed p p') (inOrder : p.InOrder)
    (shaped : ∀ ws ∈ p'.log, Shaped False ws) {i : Nat} {c : Client Table Exc Reply}
    (here : p.clients[i]? = some c) (there : p'.clients[i]? = some c) :
    Undisturbed ⟨p.db, c.session⟩ p'.db := by
  have after := undisturbed_here (step.inOrder inOrder) (List.mem_of_getElem? there)
  rcases step.seen inOrder here there with same | ⟨other, ho, clear, log, stored⟩
  · rw [same]
    exact undisturbed_here inOrder (List.mem_of_getElem? here)
  · have shape : Shaped False other.writes := shaped _ (log ▸ List.mem_cons_self)
    refine ⟨after.keyed, after.distinct, after.fits, ?_, fun userId covers t ht owned opened => ?_⟩
    · rw [stored]
      exact shape.kept
    · rw [stored] at ht
      rcases shape.opened ht opened with old | issued
      · exact covers t old owned opened
      · obtain ⟨r, hr, same, still, taken⟩ :=
          shape.parent ((inOrder.clients other ho).fits .refreshTokens) issued
        exact absurd (covers r hr (same.trans owned) still) (clear.rows .refreshTokens taken)

/-- All tokens of the user are revoked. -/
def AllRevoked (userId : Uuid) (db : State) : Prop :=
  ∀ t : RefreshToken, t ∈ db .refreshTokens → t.userId = userId → t.revoked = true

/-- A step of refreshes redeems no token of a user whose tokens are revoked, and issues none. -/
theorem AllRevoked.step {userId : Uuid} (h : AllRevoked userId p.db)
    (step : Pool.Step allowed p p') (inOrder : p.InOrder)
    (shaped : ∀ ws ∈ p'.log, Shaped False ws) : AllRevoked userId p'.db ∧
      ∀ t : RefreshToken, t ∈ p'.db .refreshTokens → t.userId = userId →
        (∃ r ∈ p.db .refreshTokens, r.id = t.id ∧ r.userId = userId) ∧
          redemptions t.id p'.log = redemptions t.id p.log := by
  cases step.did fun c hc => (inOrder.clients c hc).orderly with
  | quiet _ _ db log =>
      rw [db, log]
      exact ⟨h, fun t ht owned => ⟨⟨t, ht, rfl, owned⟩, rfl⟩⟩
  | wrote _ _ db log =>
      rw [db, log]
      exact ⟨h, fun t ht owned => ⟨⟨t, ht, rfl, owned⟩, rfl⟩⟩
  | @committed before after c c' k here there prog may _ db log writes =>
      have mem : c ∈ p.clients := here ▸ List.mem_append_right _ List.mem_cons_self
      have fits := (inOrder.clients c mem).fits .refreshTokens
      have shape : Shaped False c.writes := shaped _ (log ▸ List.mem_cons_self)
      have stored : p'.db .refreshTokens =
          Change.applyAll (c.writes .refreshTokens) (p.db .refreshTokens) := congrFun db _
      -- a token of the user would have to be issued for an open one
      have unissued {t : RefreshToken} (owned : t.userId = userId) :
          t ∉ Writes.inserted c.writes .refreshTokens := by
        intro issued
        obtain ⟨r, hr, same, still, _⟩ := shape.parent fits issued
        rw [h r hr (same.trans owned)] at still
        cases still
      refine ⟨fun t ht owned => ?_, fun t ht owned => ?_⟩
      · rcases Bool.eq_false_or_eq_true t.revoked with closed | opened
        · exact closed
        · rw [stored] at ht
          rcases shape.opened ht opened with old | issued
          · exact h t old owned
          · exact absurd issued (unissued owned)
      · rw [stored] at ht
        rcases shape.origin ht with ⟨r, hr, same⟩ | issued
        · have owner := (RefreshToken.userId_eq same).trans owned
          refine ⟨⟨r, hr, RefreshToken.id_eq same, owner⟩, ?_⟩
          rw [log, redemptions]
          refine List.filter_cons_of_neg fun redeems => ?_
          rw [Bool.and_eq_true, decide_eq_true_eq] at redeems
          obtain ⟨⟨x, hx, one, opened⟩, _⟩ := shape.spent fits redeems.1
          have unchanged : x = r := List.inj_on_of_nodup_map (inOrder.keyed .refreshTokens) hx hr
            (one.trans (RefreshToken.id_eq same).symm)
          rw [unchanged, h r hr owner] at opened
          cases opened
        · exact absurd issued (unissued owned)

variable {db : State} {requests : List (Call × Request)}

theorem shaped_of_refreshes (refreshes : ∀ x ∈ requests, x.2.IsRefresh)
    (run : Pool.Run allowed (sideBySide db requests) p) : ∀ ws ∈ p.log, Shaped False ws := by
  refine Run.shaped run fun x hx login => ?_
  have refresh := refreshes x hx
  cases request : x.2 with
  | login body => exact (request ▸ refresh : (Request.login body).IsRefresh)
  | refresh rt bodyToken => exact (request ▸ login : (Request.refresh rt bodyToken).IsLogin)
  | logout rt => exact (request ▸ refresh : (Request.logout rt).IsRefresh)

/-- From then on nothing is redeemed for the user. -/
theorem AllRevoked.run {userId : Uuid} (h : AllRevoked userId p.db) (indexed : Indexed db)
    (refreshes : ∀ x ∈ requests, x.2.IsRefresh)
    (reached : Pool.Run allowed (sideBySide db requests) p) (run : Pool.Run allowed p p') :
    AllRevoked userId p'.db ∧ ∀ t : RefreshToken, t ∈ p'.db .refreshTokens → t.userId = userId →
      redemptions t.id p'.log = redemptions t.id p.log := by
  have all : AllRevoked userId p'.db ∧ ∀ t : RefreshToken, t ∈ p'.db .refreshTokens →
      t.userId = userId → (∃ r ∈ p.db .refreshTokens, r.id = t.id ∧ r.userId = userId) ∧
        redemptions t.id p'.log = redemptions t.id p.log := by
    induction run with
    | refl => exact ⟨h, fun t ht owned => ⟨⟨t, ht, rfl, owned⟩, rfl⟩⟩
    | @tail q q' before step ih =>
        have there := reached.trans before
        obtain ⟨revoked, earlier⟩ := ih
        obtain ⟨revoked', latest⟩ := revoked.step step
          (Pool.Run.inOrder there (sideBySide_inOrder indexed requests))
          (shaped_of_refreshes refreshes (there.tail step))
        refine ⟨revoked', fun t ht owned => ?_⟩
        obtain ⟨⟨r, hr, same, owner⟩, kept⟩ := latest t ht owned
        obtain ⟨first, kept'⟩ := earlier r hr owner
        rw [same] at first kept'
        exact ⟨first, kept.trans kept'⟩
  exact ⟨all.1, fun t ht owned => (all.2 t ht owned).2⟩

/-- Every refresh follows its outline throughout. -/
theorem refreshes_follow (indexed : Indexed db) (refreshes : ∀ x ∈ requests, x.2.IsRefresh)
    (run : Pool.Run Complete (sideBySide db requests) p) {i : Nat} {x : Call × Request}
    (hx : requests[i]? = some x) {hash : String} (presents : x.2.tokenHash x.1.env = some hash) :
    Pool.Follows (refreshOutline hash) i p := by
  have inOrder {q : Pool Table Exc Reply} (reached : Pool.Run Complete (sideBySide db requests) q) :=
    Pool.Run.inOrder reached (sideBySide_inOrder indexed requests)
  refine (Pool.Run.follows (I := Pool.Run Complete (sideBySide db requests)) run
    (fun _ _ reached step => reached.tail step) .refl (refreshOutline_stable hash) ?_ ?_ ?_ ?_).2
  · intro q c reached here
    exact undisturbed_here (inOrder reached) (List.mem_of_getElem? here)
  · intro q q' c reached step here there
    exact undisturbed_step step (inOrder reached)
      (shaped_of_refreshes refreshes (reached.tail step)) here there
  · intro q c others s complete
    cases s with
    | update t q set =>
        cases t with
        | users => trivial
        | refreshTokens => exact complete
    | _ => trivial
  · refine ⟨x.1.client x.2, ?_, .between rfl ?_⟩
    · simp [sideBySide, hx]
    · have refresh := refreshes x (List.mem_of_getElem? hx)
      obtain ⟨call, request⟩ := x
      cases request with
      | login body => exact refresh.elim
      | logout rt => exact refresh.elim
      | refresh rt bodyToken =>
          cases presents
          exact refreshing_refreshToken call.env rt bodyToken rfl

/-- Where a revocation meets no token that it did not look up, nobody refreshes a
session of the user once it is committed: the tokens of the user, also those that are
issued later, are exchanged as often as before. The condition is on the one `UPDATE`
that revokes all tokens. Without it a refresh that commits a new token between the
lookup of that statement and its end gets away with it. -/
theorem sessions_end (indexed : Indexed db) (refreshes : ∀ x ∈ requests, x.2.IsRefresh) :
    SessionsEnd Complete db requests := by
  intro p p' p'' i x t run step hx revocation ht presents later s hs owned
  obtain ⟨c, k, here, prog, unissued, log⟩ := revocation
  have inOrder := Pool.Run.inOrder run (sideBySide_inOrder indexed requests)
  have follows := refreshes_follow indexed refreshes run hx presents
  -- what the request promises of its commit: every token of the user is revoked by it
  have promised : RevokedOnCommit t.tokenHash .commit ⟨p.db, c.session⟩ :=
    follows.promised (fun c here => undisturbed_here inOrder (List.mem_of_getElem? here))
      (fun _ => trivial) here prog
  have shape : Shaped False c.writes :=
    shaped_of_refreshes refreshes (run.tail step) _ (log ▸ List.mem_cons_self)
  have stored : p'.db .refreshTokens =
      Change.applyAll (c.writes .refreshTokens) (p.db .refreshTokens) :=
    Pool.Step.stored step inOrder log .refreshTokens
  have revoked : AllRevoked t.userId p'.db := by
    intro s hs owned
    rw [stored] at hs ht
    -- the token was there before, since the transaction issued none
    rcases shape.origin ht with ⟨r, hr, same⟩ | issued
    · exact promised unissued r hr (RefreshToken.tokenHash_eq same) s hs
        (owned.trans (RefreshToken.userId_eq same).symm)
    · rw [issuedIn, List.map_eq_nil_iff] at unissued
      rw [unissued] at issued
      cases issued
  exact (revoked.run indexed refreshes (run.tail step) later).2 s hs owned

end Run

/-! ### A race -/

/-- The client at a position is about to commit, and has issued no token. -/
def commitsNothingNew (i : Nat) (p : Pool Table Exc Reply) : Bool :=
  match p.clients[i]? with
  | some ⟨.op .commit _, session, none⟩ => decide (issuedIn session.pending = [])
  | _ => false

theorem revocation_of_turn
    {permits : Pool Table Exc Reply → Client Table Exc Reply → List (Client Table Exc Reply) →
      Statement → Bool} {i : Nat} {p p' : Pool Table Exc Reply}
    (played : Pool.play permits [i] p = some p') (ready : commitsNothingNew i p = true)
    (longer : p'.log.length = p.log.length + 1) : Revocation i p p' := by
  obtain ⟨q, turned, last⟩ := Option.bind_eq_some_iff.mp played
  cases last
  unfold commitsNothingNew at ready
  split at ready
  · rename_i k session here
    have drop : p.clients.drop i = ⟨.op .commit k, session, none⟩ :: p.clients.drop (i + 1) := by
      obtain ⟨inside, there⟩ := List.getElem?_eq_some_iff.mp here
      rw [List.drop_eq_getElem_cons inside, there]
    refine ⟨_, k, here, rfl, of_decide_eq_true ready, ?_⟩
    rw [Pool.turn, drop] at turned
    simp only [Pool.turnOf, World.targets, Pool.performed] at turned
    generalize World.execOn _ (.commit : Statement) ⟨p.db, session⟩ = answered at turned
    split at turned
    · cases turned
      obtain ⟨answer, w⟩ := answered
      cases answer with
      | ok _ => rfl
      | error e => exact absurd longer (Nat.ne_of_lt (Nat.lt_succ_self _))
    · cases turned
  · cases ready

namespace Sample

/-- The first token, spent. -/
def spentToken : RefreshToken := ⟨⟨10⟩, ⟨1⟩, "first", days 30, true, some 0⟩

/-- Ada's first token was rotated long ago for her second one. -/
def rotatedOnce : State
  | .users => account .users
  | .refreshTokens => [spentToken, ⟨⟨20⟩, ⟨1⟩, "second", days 30, false, none⟩]

/-- The first token is presented again, then the second one and its successor. -/
def replayed : List (Call × Request) :=
  [request (minutes 1) "" 90 (.refresh (some "first") none),
    request (minutes 1) "third" 30 (.refresh (some "second") none),
    request (minutes 1) "fourth" 40 (.refresh (some "third") none)]

/-- The second token is rotated while the revocation waits for it. -/
def waiting : List Nat := List.replicate 4 0 ++ List.replicate 5 1 ++ [0]

/-- The revocation comes first. -/
def ahead : List Nat := List.replicate 5 0

/-- A statement meets none but what it looked up. -/
def isComplete (p : Pool Table Exc Reply) (c : Client Table Exc Reply)
    (_ : List (Client Table Exc Reply)) : Statement → Bool
  | .update .refreshTokens q _ =>
      (World.visible ⟨p.db, c.session⟩ .refreshTokens).all fun (r : RefreshToken) =>
        !q r || decide (r.id ∈ c.found.getD [])
  | _ => true

theorem complete_of_isComplete (p : Pool Table Exc Reply) (c : Client Table Exc Reply)
    (others : List (Client Table Exc Reply)) (s : Statement)
    (h : isComplete p c others s = true) : Complete p c others s := by
  cases s with
  | update t q set =>
      cases t with
      | users => trivial
      | refreshTokens =>
          intro _ r hr mine
          have checked := List.all_eq_true.mp h r hr
          simpa [mine] using checked
  | _ => trivial

theorem rotatedOnce_indexed : Indexed rotatedOnce := by
  constructor
  · intro t
    cases t <;> decide
  · intro t
    cases t <;> decide

theorem replayed_refreshes : ∀ x ∈ replayed, x.2.IsRefresh := by
  intro x hx
  simp only [replayed, List.mem_cons, List.not_mem_nil, or_false] at hx
  rcases hx with rfl | rfl | rfl <;> trivial

/-- Plays up to the commit of the revocation, the commit, and what comes afterwards. -/
def playThrough (permits : Pool Table Exc Reply → Client Table Exc Reply →
    List (Client Table Exc Reply) → Statement → Bool) (before after : List Nat) :
    Option (Pool Table Exc Reply × Pool Table Exc Reply × Pool Table Exc Reply) :=
  (Pool.play permits before (sideBySide rotatedOnce replayed)).bind fun p =>
    (Pool.play permits [0] p).bind fun p' =>
      (Pool.play permits after p').map fun p'' => (p, p', p'')

/-- Whether the revocation is committed, and how often a token is redeemed before and after. -/
def outcome (t : Uuid) (x : Pool Table Exc Reply × Pool Table Exc Reply × Pool Table Exc Reply) :
    Bool × Nat × Nat :=
  (commitsNothingNew 0 x.1 && x.2.1.log.length == x.1.log.length + 1 &&
      decide (spentToken ∈ x.2.1.db .refreshTokens) &&
        (x.2.2.db .refreshTokens).any fun (s : RefreshToken) => s.id == t && s.userId == ⟨1⟩,
    (redemptions t x.2.1.log).length, (redemptions t x.2.2.log).length)

/-- What is played through is a run with a revocation. -/
theorem run_of_playThrough {permits : Pool Table Exc Reply → Client Table Exc Reply →
      List (Client Table Exc Reply) → Statement → Bool}
    (sound : ∀ p c others s, permits p c others s = true → allowed p c others s)
    {before after : List Nat} {t : Uuid} {n m : Nat}
    (played : (playThrough permits before after).map (outcome t) = some (true, n, m)) :
    ∃ p p' p'', playThrough permits before after = some (p, p', p'') ∧
      Pool.Run allowed (sideBySide rotatedOnce replayed) p ∧ Pool.Step allowed p p' ∧
        Revocation 0 p p' ∧ spentToken ∈ p'.db .refreshTokens ∧ Pool.Run allowed p' p'' ∧
          (∃ s ∈ p''.db .refreshTokens, s.id = t ∧ s.userId = spentToken.userId) ∧
            (redemptions t p'.log).length = n ∧ (redemptions t p''.log).length = m := by
  obtain ⟨⟨p, p', p''⟩, through, came⟩ := Option.map_eq_some_iff.mp played
  simp only [outcome, Prod.mk.injEq, Bool.and_eq_true, beq_iff_eq, decide_eq_true_eq,
    List.any_eq_true] at came
  obtain ⟨⟨⟨⟨ready, longer⟩, here⟩, there⟩, counts⟩ := came
  have whole := through
  obtain ⟨q, first, rest⟩ := Option.bind_eq_some_iff.mp through
  obtain ⟨q', second, rest⟩ := Option.bind_eq_some_iff.mp rest
  obtain ⟨q'', third, same⟩ := Option.map_eq_some_iff.mp rest
  cases same
  obtain ⟨turned, one, last⟩ := Option.bind_eq_some_iff.mp second
  cases last
  exact ⟨p, p', p'', whole, Pool.run_of_play sound first, Pool.step_of_turn sound one,
    revocation_of_turn second ready longer, here, Pool.run_of_play sound third, there, counts⟩

/-- Where the revocation comes first, the second token is not redeemed any more. -/
theorem revoked_ahead : ∃ p p' p'', playThrough isComplete ahead (List.replicate 6 1) =
    some (p, p', p'') ∧ Revocation 0 p p' ∧
      ∃ s ∈ p''.db .refreshTokens, s.id = ⟨20⟩ ∧
        redemptions s.id p''.log = redemptions s.id p'.log := by
  have played : (playThrough isComplete ahead (List.replicate 6 1)).map (outcome ⟨20⟩) =
      some (true, 0, 0) := by decide +kernel
  obtain ⟨p, p', p'', whole, run, step, revocation, here, later, ⟨s, hs, id, owned⟩, _⟩ :=
    run_of_playThrough complete_of_isComplete played
  exact ⟨p, p', p'', whole, revocation, s, hs, id,
    sessions_end rotatedOnce_indexed replayed_refreshes p p' p'' 0 _ spentToken run step rfl
      revocation here rfl later s hs owned⟩

/-- A revocation that waits for a refresh misses the successor, which is redeemed. -/
theorem successor_redeemed : ¬ ∀ (db : State) (requests : List (Call × Request)), Indexed db →
    (∀ x ∈ requests, x.2.IsRefresh) → SessionsEnd Pool.Anything db requests := by
  intro ends
  have played : (playThrough (fun _ _ _ _ => true) waiting (List.replicate 5 2)).map
      (outcome ⟨30⟩) = some (true, 0, 1) := by decide +kernel
  obtain ⟨p, p', p'', _, run, step, revocation, here, later, ⟨s, hs, id, owned⟩, none, one⟩ :=
    @run_of_playThrough Pool.Anything _ (fun _ _ _ _ _ => trivial) _ _ _ _ _ played
  have same := ends rotatedOnce replayed rotatedOnce_indexed replayed_refreshes p p' p'' 0 _
    spentToken run step rfl revocation here rfl later s hs owned
  rw [id] at same
  rw [same, none] at one
  cases one

end Sample

end EspressoLogs.Auth
