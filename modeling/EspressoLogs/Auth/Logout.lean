import EspressoLogs.Auth.Rotation
import EspressoLogs.Lib.Follow

/-!
Logout.

A logout revokes the token that it presents, for good, unless that is revoked already. So
it ends a session if the token is the last one of it; a successor that a refresh obtained
for the token before stays as it is.
-/

namespace EspressoLogs.Auth

open Lib Py Relation

/-- The token is in the table, and revoked. -/
def Dead (t : RefreshToken) (db : State) : Prop :=
  ∃ r : RefreshToken, r ∈ db .refreshTokens ∧ r.issuance = t.issuance ∧ r.revoked = true

/-- What others leave as it is for a logout that presents the token. -/
structure Intact (t : RefreshToken) (w : World Table) (db : State) : Prop where
  keyed : ((db .refreshTokens).map RefreshToken.id).Nodup
  distinct : NoShare (T := Table) .refreshTokens (db .refreshTokens)
  fits : Change.AllFit (Table.id .refreshTokens) (w.session.pending .refreshTokens)
    (db .refreshTokens)
  here : ∃ r : RefreshToken, r ∈ db .refreshTokens ∧ r.issuance = t.issuance
  dead : Dead t w.db → Dead t db

/-- What a logout relies on, and that it leaves the token revoked. -/
def logoutOutline (t : RefreshToken) : Outline Table Exc Reply where
  rely := Intact t
  given _ _ _ := True
  promise _ _ := True
  post _ w := Dead t w.db
  fails _ _ := False

theorem Intact.trans {t : RefreshToken} {w : World Table} {db db' : State} (first : Intact t w db)
    (second : Intact t ⟨db, w.session⟩ db') : Intact t w db' where
  keyed := second.keyed
  distinct := second.distinct
  fits := second.fits
  here := second.here
  dead h := second.dead (first.dead h)

theorem logoutOutline_stable (t : RefreshToken) : (logoutOutline t).Stable where
  again _ _ _ := Intact.trans
  post _ _ _ dead moved := moved.dead dead
  fails _ _ _ no _ := no
  ended _ _ dead := dead
  failed _ _ no := no

section Outline

variable {t : RefreshToken} {w : World Table}

/-- The part of a logout that is left follows its outline, and raises nothing. -/
abbrev LoggingOut {α : Type} (t : RefreshToken) (post : α → World Table → Prop) (p : AuthM α)
    (w : World Table) : Prop :=
  p.Follows (Intact t) (fun _ _ _ => True) (fun _ _ => True) post (fun _ _ => False) w

/-- A statement that answers. -/
theorem loggingOut_ask {s : Statement} {post : Ans s → World Table → Prop} (live : w.Live)
    (succeeds : ∀ db, Intact t w db → ∀ found e v,
      World.execOn found s ⟨db, w.session⟩ ≠ (.error e, v))
    (answers : ∀ db₀ db a v, Intact t w db₀ → Intact t w db →
      World.execOn (World.lookedUp ⟨db₀, w.session⟩ s) s ⟨db, w.session⟩ = (.ok a, v) →
        v.Live → post a v) :
    LoggingOut t post (Prog.ask .db s) w := by
  refine Prog.Follows.ask (fun _ _ _ _ _ => trivial)
    (fun db₀ db a v first second _ answered => ?_)
    fun db₀ db e v first second _ answered =>
      absurd answered (succeeds db (first.trans second) _ e v)
  have live' : World.Live ⟨db, w.session⟩ := ⟨live.failed, live.faults⟩
  exact answers db₀ db a v first (first.trans second) answered (World.live_execOn live' answered)

/-- The rows with the hash of the token are one. -/
theorem filter_hasHash {db : State} (intact : Intact t w db) :
    ∃ r : RefreshToken, (db .refreshTokens).filter (RefreshTokenRepo.hasHash t.tokenHash) = [r] ∧
      r.issuance = t.issuance ∧ r ∈ db .refreshTokens := by
  obtain ⟨r, hr, same⟩ := intact.here
  have hash := RefreshToken.tokenHash_eq same
  refine ⟨r, filter_eq_singleton intact.keyed.of_map hr (beq_iff_eq.mpr hash) ?_, same, hr⟩
  intro x hx named
  exact List.inj_on_of_nodup_map intact.keyed hx hr
    (intact.distinct x hx r hr (.tokenHash x.tokenHash) (List.mem_singleton_self _)
      ((beq_iff_eq.mp named).trans hash.symm ▸ List.mem_singleton_self _))

/-- The lookup finds the token. -/
theorem loggingOut_getByHash (live : w.Live) (idle : w.session.pending .refreshTokens = []) :
    LoggingOut t (fun found v => v.Live ∧ v.session.pending .refreshTokens = [] ∧
      ∃ r, found = some r ∧ r.issuance = t.issuance ∧ r ∈ v.db .refreshTokens)
      (RefreshTokenRepo.getByHash t.tokenHash) w := by
  refine Prog.Follows.bind (loggingOut_ask (s := .select Table.refreshTokens _) live ?_ ?_)
  · intro db _ found e v answered
    have live' : World.Live ⟨db, w.session⟩ := ⟨live.failed, live.faults⟩
    have performed : World.exec (.select Table.refreshTokens _) ⟨db, w.session⟩ = (.error e, v) :=
      answered
    rw [World.exec_of_live live'] at performed
    cases performed
  · intro db₀ db rows v _ intact answered live
    obtain ⟨_, rfl, same, stored, _⟩ := World.execOn_select answered
    obtain ⟨r, only, issued, hr⟩ := filter_hasHash intact
    have pending := (congrFun same .refreshTokens).trans idle
    have rows : (World.visible ⟨db, w.session⟩ .refreshTokens).filter
        (RefreshTokenRepo.hasHash t.tokenHash) = [r] := by
      rw [World.visible_of_unsecured rfl, World.view, idle]
      exact only
    rw [rows]
    exact ⟨live, pending, r, rfl, issued, stored ▸ hr⟩

/-- Nothing is in the way of a revocation. -/
theorem refused_of_revoking {pairs : List (RefreshToken × RefreshToken)}
    (same : ∀ x ∈ pairs, x.2.issuance = x.1.issuance) :
    w.refused .refreshTokens (.upd pairs) = none := by
  have gains : gained (T := Table) .refreshTokens (.upd pairs) = [] := by
    refine List.flatMap_eq_nil_iff.mpr fun x hx => List.filter_eq_nil_iff.mpr fun e he gone => ?_
    refine of_decide_eq_true gone ?_
    have hash := RefreshToken.tokenHash_eq (same x hx)
    rw [List.mem_singleton.mp he, hash]
    exact List.mem_singleton_self _
  have refers : referenced (T := Table) .refreshTokens (.upd pairs) = [] := by
    refine List.flatMap_eq_nil_iff.mpr fun x hx => List.filter_eq_nil_iff.mpr fun e he gone => ?_
    refine of_decide_eq_true gone ?_
    have owner := RefreshToken.userId_eq (same x hx)
    rw [List.mem_singleton.mp he, owner]
    exact List.mem_singleton_self _
  refine w.refused_eq_none.mpr ⟨fun r _ => rfl, ?_, ?_, ?_⟩
  · rw [gains]
    exact fun e he => absurd he List.not_mem_nil
  · rw [gains]
    exact List.nodup_nil
  · rw [refers]
    exact fun e he => absurd he List.not_mem_nil

/-- The update revokes the token, wherever it is by then. -/
theorem loggingOut_revoke (live : w.Live) (idle : w.session.pending .refreshTokens = [])
    {r : RefreshToken} (issued : r.issuance = t.issuance) :
    LoggingOut t (fun _ v => v.Live ∧ ∃ pairs, v.session.pending .refreshTokens = [.upd pairs] ∧
      ∃ x, x.issuance = t.issuance ∧ (x, x.revoke) ∈ pairs) (RefreshTokenRepo.revoke r.id) w := by
  refine Prog.Follows.bind (loggingOut_ask (s := .update Table.refreshTokens _ _) live ?_ ?_)
  · intro db _ found e v answered
    have live' : World.Live ⟨db, w.session⟩ := ⟨live.failed, live.faults⟩
    have performed : World.exec (.update Table.refreshTokens (fun x : RefreshToken =>
        RefreshTokenRepo.hasId r.id x && decide (x.id ∈ found)) fun x => .ok x.revoke)
          ⟨db, w.session⟩ = (.error e, v) := answered
    rw [World.exec_of_live live', World.perform_update (fun _ _ => rfl)
      (refused_of_revoking fun x hx => ?_)] at performed
    · cases performed
    · obtain ⟨y, _, rfl⟩ := List.mem_map.mp hx
      rfl
  · intro db₀ db rows v first intact answered live
    have seen (d : State) : World.visible ⟨d, w.session⟩ .refreshTokens = d .refreshTokens := by
      rw [World.visible_of_unsecured rfl, World.view, idle]
      rfl
    -- the token was there when the rows were looked up, and is there now
    obtain ⟨x₀, hx₀, same₀⟩ := first.here
    obtain ⟨x, hx, same⟩ := intact.here
    have id₀ : x₀.id = r.id := RefreshToken.id_eq (same₀.trans issued.symm)
    have id : x.id = r.id := RefreshToken.id_eq (same.trans issued.symm)
    have looked : x.id ∈ World.lookedUp ⟨db₀, w.session⟩
        (.update Table.refreshTokens (RefreshTokenRepo.hasId r.id) fun t => .ok t.revoke) := by
      refine List.mem_map.mpr ⟨x₀, List.mem_filter.mpr ⟨?_, beq_iff_eq.mpr id₀⟩, id₀.trans id.symm⟩
      rw [seen]
      exact hx₀
    revert looked answered
    generalize World.lookedUp ⟨db₀, w.session⟩ (.update Table.refreshTokens
      (RefreshTokenRepo.hasId r.id) fun t => .ok t.revoke) = found
    intro answered looked
    obtain ⟨_, _, _, _, added, _, _⟩ := World.execOn_update answered
    refine ⟨live, rewritten (fun x : RefreshToken => .ok x.revoke) (World.matched ⟨db, w.session⟩
      .refreshTokens (RefreshTokenRepo.hasId r.id) found), ?_, x, same, ?_⟩
    · rw [added]
      simp only [Session.add, Function.update_self]
      exact congrArg (· ++ _) idle
    · exact List.mem_map.mpr
        ⟨x, World.mem_matched.mpr ⟨(seen db).symm ▸ hx, beq_iff_eq.mpr id, looked⟩, rfl⟩

/-- The commit makes it so. -/
theorem loggingOut_commit (live : w.Live) {pairs : List (RefreshToken × RefreshToken)}
    (pending : w.session.pending .refreshTokens = [.upd pairs]) {x : RefreshToken}
    (issued : x.issuance = t.issuance) (revoked : (x, x.revoke) ∈ pairs) :
    LoggingOut t (fun _ v => Dead t v.db) AuthM.commit w := by
  refine loggingOut_ask (s := .commit) live ?_ ?_
  · intro db _ found e v answered
    have live' : World.Live ⟨db, w.session⟩ := ⟨live.failed, live.faults⟩
    have performed : World.exec .commit ⟨db, w.session⟩ = (.error e, v) := answered
    rw [World.exec_of_live live'] at performed
    cases performed
  · intro db₀ db _ v _ intact answered _
    have performed : World.exec .commit ⟨db, w.session⟩ = (.ok (), v) := answered
    have live' : World.Live ⟨db, w.session⟩ := ⟨live.failed, live.faults⟩
    rw [World.exec_of_live live'] at performed
    cases performed
    have fits := intact.fits
    rw [pending] at fits
    obtain ⟨here, _, replaced⟩ := fits.1 _ revoked
    refine ⟨x.revoke, ?_, issued, rfl⟩
    show x.revoke ∈ World.view ⟨db, w.session⟩ .refreshTokens
    rw [World.view, pending]
    exact List.mem_map.mpr ⟨x, here, congrArg (fun o : Option RefreshToken => o.getD x) replaced⟩

/-- A logout that presents the token leaves it revoked. -/
theorem loggingOut_logout (env : Env) {raw : String} (some : raw.isEmpty = false)
    (presents : env.sha256Hex raw = t.tokenHash) (live : w.Live)
    (idle : w.session.pending .refreshTokens = []) :
    LoggingOut t (fun _ v => Dead t v.db) (logout env (.some raw)) w := by
  have revoke : LoggingOut t (fun _ v => Dead t v.db) (revokePresented env raw) w := by
    unfold revokePresented
    rw [presents]
    refine Prog.Follows.bind (Prog.Follows.mono (loggingOut_getByHash live idle)
      (fun found v held => ?_) fun _ _ h => h)
    obtain ⟨live, idle, r, rfl, issued, here⟩ := held
    dsimp only
    split
    · refine Prog.Follows.bind (Prog.Follows.mono (loggingOut_revoke live idle issued)
        (fun _ u held => ?_) fun _ _ h => h)
      obtain ⟨live, pairs, pending, x, same, revoked⟩ := held
      exact loggingOut_commit live pending same revoked
    · rename_i closed
      refine ⟨r, here, issued, ?_⟩
      simpa using closed
  unfold logout
  rw [Option.getD_some, some]
  refine Prog.Follows.bind (Prog.Follows.catchWith (Prog.Follows.mono revoke (fun _ _ dead => ?_)
    fun _ _ no => no.elim))
  exact dead

end Outline

/-! ### Along a run -/

section Run

variable {db : State} {requests : List (Call × Request)} {p p' p'' : Pool Table Exc Reply}

theorem reached_inOrder (indexed : Indexed db)
    (reached : Pool.Run Pool.Anything (sideBySide db requests) p) : p.InOrder :=
  Pool.Run.inOrder reached (sideBySide_inOrder indexed requests)

theorem dead_step (reached : Pool.Run Pool.Anything (sideBySide db requests) p)
    (indexed : Indexed db) (step : Pool.Step Pool.Anything p p') {t : RefreshToken}
    (dead : Dead t p.db) : Dead t p'.db := by
  obtain ⟨r, hr, same, revoked⟩ := dead
  obtain ⟨r', hr', same', revoked'⟩ := kept_step reached indexed step r hr
  exact ⟨r', hr', same'.trans same, revoked' revoked⟩

/-- A revoked token stays so, and no refresh that presents it hands a token out any more. -/
theorem dead_run (indexed : Indexed db)
    (reached : Pool.Run Pool.Anything (sideBySide db requests) p)
    (run : Pool.Run Pool.Anything p p') {t : RefreshToken} (dead : Dead t p.db) :
    Dead t p'.db ∧ ∀ i next, Redeems requests p' i t.tokenHash next →
      Redeems requests p i t.tokenHash next := by
  induction run with
  | refl => exact ⟨dead, fun _ _ redeems => redeems⟩
  | @tail q q' before step ih =>
      have there := reached.trans before
      have inOrder := reached_inOrder indexed there
      refine ⟨dead_step there indexed step ih.1, fun i next redeems => ?_⟩
      rcases redeems.step indexed there step with old | exchanged
      · exact ih.2 i next old
      · -- the exchange would have found the token in service
        obtain ⟨x, hx, hashed, opened⟩ := exchanged.opened
        obtain ⟨r, hr, same, revoked⟩ := ih.1
        have one : x = r := eq_of_tokenHash (inOrder.keyed .refreshTokens)
          (inOrder.distinct .refreshTokens) hx hr
          (hashed.trans (RefreshToken.tokenHash_eq same).symm)
        rw [one, revoked] at opened
        cases opened

/-- A request to log out with a token, from before it begins until it is answered. -/
structure LoggedOut (db : State) (requests : List (Call × Request)) (i : Nat) (t : RefreshToken)
    (p p' : Pool Table Exc Reply) : Prop where
  reached : Pool.Run Pool.Anything (sideBySide db requests) p
  presented : t ∈ p.db .refreshTokens
  /-- It has not begun, and its statements will meet no fault of the connection. -/
  waiting : ∃ call : Call, ∃ raw : String, p.clients[i]? = some (call.client (.logout (some raw))) ∧
    call.faults = [] ∧ raw.isEmpty = false ∧ call.env.sha256Hex raw = t.tokenHash
  run : Pool.Run Pool.Anything p p'
  answered : ∃ c, p'.clients[i]? = some c ∧ c.prog = .pure .loggedOut

/-- A token, by its hash, is not live, and no refresh hands out another one for it that had
not done so before. -/
def Over (requests : List (Call × Request)) (hash : String) (p p' : Pool Table Exc Reply) : Prop :=
  (∀ i next, Redeems requests p' i hash next → Redeems requests p i hash next) ∧
    ∀ now, ∀ r : RefreshToken, r ∈ p'.db .refreshTokens → r.tokenHash = hash →
      r.isLive now = false

theorem over_of_dead (indexed : Indexed db)
    (reached : Pool.Run Pool.Anything (sideBySide db requests) p)
    (run : Pool.Run Pool.Anything p p') {t : RefreshToken} (dead : Dead t p.db) :
    Over requests t.tokenHash p p' := by
  obtain ⟨⟨x, hx, same, revoked⟩, redeemed⟩ := dead_run indexed reached run dead
  refine ⟨redeemed, fun now r hr hash => ?_⟩
  have inOrder := reached_inOrder indexed (reached.trans run)
  have one : r = x := eq_of_tokenHash (inOrder.keyed .refreshTokens)
    (inOrder.distinct .refreshTokens) hr hx (hash.trans (RefreshToken.tokenHash_eq same).symm)
  simp [RefreshToken.isLive, one, revoked]

/-- The pool was reached, and has the token. -/
def Reached (db : State) (requests : List (Call × Request)) (t : RefreshToken)
    (p : Pool Table Exc Reply) : Prop :=
  Pool.Run Pool.Anything (sideBySide db requests) p ∧
    ∃ r : RefreshToken, r ∈ p.db .refreshTokens ∧ r.issuance = t.issuance

theorem Reached.step {t : RefreshToken} (h : Reached db requests t p) (indexed : Indexed db)
    (step : Pool.Step Pool.Anything p p') : Reached db requests t p' := by
  obtain ⟨reached, r, hr, same⟩ := h
  obtain ⟨r', hr', same', _⟩ := kept_step reached indexed step r hr
  exact ⟨reached.tail step, r', hr', same'.trans same⟩

theorem Reached.intact {t : RefreshToken} (h : Reached db requests t p) (indexed : Indexed db)
    {i : Nat} {c : Client Table Exc Reply} (here : p.clients[i]? = some c) {w : World Table}
    (session : w.session = c.session) (dead : Dead t w.db → Dead t p.db) : Intact t w p.db := by
  have inOrder := reached_inOrder indexed h.1
  refine ⟨inOrder.keyed .refreshTokens, inOrder.distinct .refreshTokens, ?_, h.2, dead⟩
  rw [session]
  exact (inOrder.clients c (List.mem_of_getElem? here)).fits .refreshTokens

/-- The logout leaves the token revoked. -/
theorem LoggedOut.dead {i : Nat} {t : RefreshToken} (h : LoggedOut db requests i t p p')
    (indexed : Indexed db) : Dead t p'.db := by
  obtain ⟨call, raw, here, faultless, nonempty, presents⟩ := h.waiting
  obtain ⟨c, there, ended⟩ := h.answered
  have follows := (Pool.Run.follows (I := Reached db requests t) (o := logoutOutline t) (i := i)
    h.run (fun _ _ reached step => reached.step indexed step) ⟨h.reached, t, h.presented, rfl⟩
    (logoutOutline_stable t) ?_ ?_ (fun _ _ _ _ _ => trivial) ?_).2
  · exact follows.ended there ended
  · intro q c reached hc
    exact reached.intact indexed hc rfl id
  · intro q q' c reached step hc hc'
    exact (reached.step indexed step).intact indexed hc' rfl (dead_step reached.1 indexed step)
  · refine ⟨_, here, .between rfl ?_⟩
    exact loggingOut_logout call.env nonempty presents ⟨rfl, faultless⟩ rfl

/-- However a logout and other requests take turns: once it is answered, the token that
it presented is over, which is to say that it is not live and that no refresh that
presents it is answered with a token or commits one. So is every token of the session if
no refresh redeemed that token before. The logout must not meet a fault: it swallows
every exception of its revocation. -/
theorem logout_ends (indexed : Indexed db) {i : Nat} {t : RefreshToken}
    (h : LoggedOut db requests i t p p') (later : Pool.Run Pool.Anything p' p'') :
    Over requests t.tokenHash p' p'' ∧ ((∀ j next, ¬ Redeems requests p' j t.tokenHash next) →
      ∀ s, EqvGen (Successor requests p') t.tokenHash s → Over requests s p' p'') := by
  have dead := h.dead indexed
  have reached := h.reached.trans h.run
  have inOrder := reached_inOrder indexed reached
  refine ⟨over_of_dead indexed reached later dead, fun unredeemed s connected => ?_⟩
  have handed := Handed.run indexed reached
  have linear := handed.linear (inOrder.keyed .refreshTokens) (inOrder.distinct .refreshTokens)
  -- the token is the last one, so every other token of the session was redeemed
  have last : ∀ c, ¬Successor requests p' t.tokenHash c := by
    rintro c ⟨j, redeems⟩
    exact unredeemed j c redeems
  rcases linear.chain t.tokenHash s connected with onward | back
  · rw [eq_of_reflTransGen last onward]
    exact over_of_dead indexed reached later dead
  · rcases back.cases_head with same | ⟨c, ⟨j, redeems⟩, _⟩
    · rw [same]
      exact over_of_dead indexed reached later dead
    · obtain ⟨r, hr, rfl, revoked⟩ := handed.spent j s c redeems
      exact over_of_dead indexed reached later ⟨r, hr, rfl, revoked⟩

end Run

namespace Sample

/-- Ada logs in, logs out, and her token is presented. -/
def leaving : List (Call × Request) :=
  [request 0 "first" 10 (.login ⟨"ada", "password"⟩), request 2 "" 90 (.logout (some "first")),
    request 1 "second" 20 (.refresh (some "first") none)]

/-- The login. -/
def loggingIn : List Nat := List.replicate 6 0

/-- The logout, as long as it has something to do. -/
def loggingOut : List Nat := List.replicate 4 1

/-- The refresh, where it succeeds. -/
def refreshing : List Nat := List.replicate 5 2

def firstToken : RefreshToken := ⟨⟨10⟩, ⟨1⟩, "first", days 30, false, none⟩

/-- Whether the logout is answered. -/
def isAnswered (p : Pool Table Exc Reply) : Bool :=
  p.clients[1]?.any fun (c : Client Table Exc Reply) => match c.prog with
    | .pure .loggedOut => true
    | _ => false

/-- Plays a schedule up to the logout and one up to its answer. -/
def playLogout (before during : List Nat) : Option (Pool Table Exc Reply × Pool Table Exc Reply) :=
  (Pool.play (fun _ _ _ _ => true) before (sideBySide account leaving)).bind fun p =>
    (Pool.play (fun _ _ _ _ => true) during p).map fun p' => (p, p')

theorem loggedOut_of_playLogout {before during : List Nat} {p p' : Pool Table Exc Reply}
    {t : RefreshToken} (played : playLogout before during = some (p, p')) (absent : 1 ∉ before)
    (presented : t ∈ p.db .refreshTokens) (hash : t.tokenHash = "first")
    (answered : isAnswered p' = true) : LoggedOut account leaving 1 t p p' := by
  obtain ⟨q, first, rest⟩ := Option.bind_eq_some_iff.mp played
  obtain ⟨q', second, same⟩ := Option.map_eq_some_iff.mp rest
  cases same
  refine ⟨Pool.run_of_play (fun _ _ _ _ _ => trivial) first, presented, ?_,
    Pool.run_of_play (fun _ _ _ _ _ => trivial) second, ?_⟩
  · exact ⟨_, "first", Pool.getElem?_of_play first absent, rfl, by decide, hash.symm⟩
  · obtain ⟨c, here, ended⟩ := (Option.any_eq_true _ _).mp answered
    split at ended
    · rename_i gone
      exact ⟨c, here, gone⟩
    · cases ended

/-- The program of the client at a position is not over. -/
def isRunning (i : Nat) (p : Pool Table Exc Reply) : Bool :=
  p.clients[i]?.any fun (c : Client Table Exc Reply) => match c.prog with
    | .op _ _ => true
    | _ => false

/-- The refresh has not redeemed anything while it runs, and the others are no refreshes. -/
theorem not_redeems_of_running {p : Pool Table Exc Reply} (running : isRunning 2 p = true)
    (i : Nat) (hash next : String) : ¬ Redeems leaving p i hash next := by
  rintro @⟨call, rt, bodyToken, c, x, sent, _, here, ended, _⟩
  match i with
  | 0 => cases sent
  | 1 => cases sent
  | 2 =>
      rw [isRunning, here, Option.any_some] at running
      split at running
      · rename_i still
        rw [still] at ended
        cases ended
      · cases running
  | i + 3 => cases sent

/-- After the logout the refresh is refused: the token is over, and the session with it. -/
theorem first_over : ∃ p p' p'', playLogout loggingIn loggingOut = some (p, p') ∧
    Pool.play (fun _ _ _ _ => true) (List.replicate 6 2) p' = some p'' ∧
      isRunning 2 p'' = false ∧ (∀ i next, ¬ Redeems leaving p'' i "first" next) ∧
        Over leaving "first" p' p'' := by
  have checked : ((playLogout loggingIn loggingOut).bind fun x =>
      (Pool.play (fun _ _ _ _ => true) (List.replicate 6 2) x.2).map fun p'' =>
        (x.1.db .refreshTokens, isAnswered x.2, isRunning 2 x.2, isRunning 2 p'')) =
          some ([firstToken], true, true, false) := by decide +kernel
  obtain ⟨⟨p, p'⟩, played, rest⟩ := Option.bind_eq_some_iff.mp checked
  obtain ⟨p'', later, came⟩ := Option.map_eq_some_iff.mp rest
  simp only [Prod.mk.injEq] at came
  obtain ⟨stored, answered, running, gone⟩ := came
  have presented : firstToken ∈ p.db .refreshTokens := by
    rw [stored]
    exact List.mem_singleton_self _
  have loggedOut := loggedOut_of_playLogout played (by decide) presented rfl answered
  have unredeemed := not_redeems_of_running running
  have ended : Over leaving "first" p' p'' := (logout_ends account_indexed loggedOut
    (Pool.run_of_play (fun _ _ _ _ _ => trivial) later)).2 (fun j => unredeemed j _) _ (.refl _)
  exact ⟨p, p', p'', played, later, gone,
    fun i next redeems => unredeemed i _ next (ended.1 i next redeems), ended⟩

/-- A logout with a token that was rotated leaves the successor live. -/
theorem second_live : ¬ ∀ (db : State) (requests : List (Call × Request)) (i : Nat)
    (t : RefreshToken) (p p' p'' : Pool Table Exc Reply), Indexed db →
      LoggedOut db requests i t p p' → Pool.Run Pool.Anything p' p'' →
        ∀ s, EqvGen (Successor requests p') t.tokenHash s → Over requests s p' p'' := by
  intro final
  have checked : (playLogout (loggingIn ++ refreshing) [1]).map (fun x =>
      (decide (firstToken.rotate 1 ∈ x.1.db .refreshTokens), isAnswered x.2,
        (replies x.2)[2]?, (x.2.db .refreshTokens).any fun (r : RefreshToken) =>
          r.tokenHash == "second" && r.isLive 2)) =
            some (true, true, some (some (.token "access" "second")), true) := by
    decide +kernel
  obtain ⟨⟨p, p'⟩, played, came⟩ := Option.map_eq_some_iff.mp checked
  simp only [Prod.mk.injEq, decide_eq_true_eq, List.any_eq_true, Bool.and_eq_true,
    beq_iff_eq] at came
  obtain ⟨presented, answered, replied, r, hr, hash, live⟩ := came
  have loggedOut := loggedOut_of_playLogout played (by decide) presented rfl answered
  obtain ⟨c, here, ended⟩ := result_of_replies replied
  have succeeded : Successor leaving p' "first" "second" :=
    ⟨2, .intro (x := .ok (.token "access" "second")) rfl rfl here (by rw [ended]; rfl) rfl⟩
  have gone := final account leaving 1 _ p p' p' account_indexed loggedOut .refl "second"
    (.rel _ _ succeeded)
  rw [gone.2 2 r hr hash] at live
  cases live

end Sample

end EspressoLogs.Auth
