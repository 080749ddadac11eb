import EspressoLogs.Auth.Clients
import EspressoLogs.Lib.Chain
import EspressoLogs.Lib.Closing

/-!
The tokens of one session.

A refresh redeems the token that it presents when its new one is committed: it is answered
with that one then, unless its access token cannot be made. The last statement of such a
refresh is the commit of a transaction that took the presented token out of service and
issued the new one (`Exchanges`), so it found the presented token in service, and nobody
does after that. Along any run every token is redeemed once, and the tokens that follow
from each other form a chain, of which the last one at most is live.

The order of the requests does not matter, nor what statements of them fail.
-/

namespace EspressoLogs.Auth

open Lib Py Relation

/-! ### Tokens stay -/

/-- Neither rotated, revoked nor expired. -/
def RefreshToken.isLive (t : RefreshToken) (now : Instant) : Bool :=
  !t.revoked && t.rotatedAt.isNone && decide (now < t.expiresAt)

/-- Tokens stay in the table, and stay revoked. -/
def Kept (rows rows' : List RefreshToken) : Prop :=
  ∀ r ∈ rows, ∃ r' ∈ rows', r'.issuance = r.issuance ∧ (r.revoked = true → r'.revoked = true)

namespace RefreshToken

variable {t t' : RefreshToken}

theorem id_eq (same : t'.issuance = t.issuance) : t'.id = t.id := congrArg Prod.fst same

theorem userId_eq (same : t'.issuance = t.issuance) : t'.userId = t.userId :=
  congrArg (fun i => i.2.1) same

theorem tokenHash_eq (same : t'.issuance = t.issuance) : t'.tokenHash = t.tokenHash :=
  congrArg (fun i => i.2.2.1) same

end RefreshToken

theorem Kept.refl (rows : List RefreshToken) : Kept rows rows := fun r hr => ⟨r, hr, rfl, id⟩

theorem Kept.trans {a b c : List RefreshToken} (first : Kept a b) (second : Kept b c) : Kept a c := by
  intro r hr
  obtain ⟨r', hr', same, revoked⟩ := first r hr
  obtain ⟨r'', hr'', same', revoked'⟩ := second r' hr'
  exact ⟨r'', hr'', same'.trans same, fun h => revoked' (revoked h)⟩

section Changes

variable {rows : List RefreshToken} {c : Change RefreshToken} {changes : List (Change RefreshToken)}

theorem Revoking.kept (revoking : Revoking c) : Kept rows (c.apply rows) := by
  obtain ⟨pairs, rfl, revokes⟩ := revoking
  intro r hr
  refine ⟨_, List.mem_map_of_mem hr, ?_⟩
  cases found : pairs.lookup r with
  | none => exact ⟨rfl, id⟩
  | some n =>
      obtain ⟨revoked, same⟩ := revokes _ (Change.mem_of_lookup found)
      exact ⟨same, fun _ => revoked⟩

theorem kept_applyAll (revoking : ∀ c ∈ changes, Revoking c) :
    Kept rows (Change.applyAll changes rows) := by
  induction changes generalizing rows with
  | nil => exact Kept.refl rows
  | cons c cs ih =>
      obtain ⟨first, rest⟩ := List.forall_mem_cons.mp revoking
      exact first.kept.trans (ih rest)

theorem kept_insert (t : RefreshToken) : Kept rows (Change.apply (.ins t) rows) :=
  fun r hr => ⟨r, List.mem_append_left _ hr, rfl, id⟩

end Changes

namespace Shaped

variable {rooted : Prop} {ws : Writes Table} {rows : List RefreshToken}

theorem kept (shaped : Shaped rooted ws) : Kept rows (Change.applyAll (ws .refreshTokens) rows) := by
  obtain ⟨changes, revoking, only | ⟨token, last, _⟩⟩ := shaped
  · rw [only]
    exact kept_applyAll revoking
  · rw [last, Change.applyAll_append]
    exact (kept_applyAll revoking).trans (kept_insert token)

end Shaped

/-! ### The last statement of a refresh -/

/-- A transaction took a token with the hash out of service, which was in service, and
issued the token of the environment. -/
def Exchanges (env : Env) (hash : String) (ws : Writes Table) : Prop :=
  ∃ old token : RefreshToken, old.tokenHash = hash ∧ old.revoked = false ∧
    token.tokenHash = env.sha256Hex env.rawToken ∧
    ws .refreshTokens = [.upd [(old, old.rotate env.dbNow)], .ins token]

/-- How a refresh ends once its new token is committed: with the token, or with the
`RuntimeError` of the access token, which is made after the commit. -/
def HandsOut (env : Env) (next : String) : Except Exc Reply → Prop
  | .ok (.token _ rt) => env.sha256Hex rt = next
  | .error .runtimeError => env.sha256Hex env.rawToken = next
  | _ => False

/-- It ends so by the commit of an exchange, and the new token is that of its environment. -/
def ByExchange (env : Env) (hash : String) (x : Except Exc Reply) (s : Statement) (r : Resp s)
    (w : World Table) : Prop :=
  ∀ next, HandsOut env next x → s = .commit ∧ (∃ a, r = .ok a) ∧
    Exchanges env hash w.session.pending ∧ env.sha256Hex env.rawToken = next

theorem HandsOut.unique {env : Env} {next next' : String} {x : Except Exc Reply}
    (first : HandsOut env next x) (second : HandsOut env next' x) : next = next' := by
  unfold HandsOut at first second
  split at first
  · exact first.symm.trans second
  · exact first.symm.trans second
  · exact first.elim

theorem byExchange_of_error {env : Env} {hash : String} {e : Exc} (other : e ≠ .runtimeError)
    (s : Statement) (r : Resp s) (w : World Table) : ByExchange env hash (.error e) s r w := by
  intro next handed
  cases e with
  | runtimeError => exact absurd rfl other
  | _ => exact handed.elim

section Closing

variable {α : Type} {env : Env} {hash : String} {w : World Table}

/-- A part of a refresh that does not end it but by raising. -/
abbrev Leading (post : α → World Table → Prop) (p : AuthM α) (w : World Table) : Prop :=
  p.Safe (fun _ _ => True) (fun _ _ => True) post (fun e _ => e ≠ .runtimeError) w

theorem leading_ask {s : Statement} {post : Ans s → World Table → Prop}
    (answers : ∀ db found a v, World.execOn found s ⟨db, w.session⟩ = (.ok a, v) → post a v) :
    Leading post (Prog.ask .db s) w :=
  Prog.Safe.ask (fun _ _ => trivial) (fun db found a v _ answered => answers db found a v answered)
    fun _ _ _ _ _ _ => nofun

theorem leading_scalarOneOrNone {rows : List α} {post : Option α → World Table → Prop}
    (none : rows = [] → post none w) (one : ∀ a, rows = [a] → post (some a) w) :
    Leading post (AuthM.scalarOneOrNone rows) w := by
  unfold AuthM.scalarOneOrNone
  split
  · exact none rfl
  · exact one _ rfl
  · exact nofun

theorem closes_of_leading {β : Type} {p : AuthM α} {f : α → AuthM β}
    {last : Except Exc β → (s : Statement) → Resp s → World Table → Prop}
    (raises : ∀ e, e ≠ .runtimeError → ∀ s r v, last (.error e) s r v)
    (first : Leading (fun a v => (f a).result = none ∧ (f a).Closes last v) p w) :
    (p >>= f).Closes last w :=
  .bind (Prog.Safe.mono first (fun _ _ h => h) fun e _ other => raises e other)

/-- A refresh that is refused ends by raising only. -/
theorem closes_rejectRefresh : (rejectRefresh env hash).Closes (ByExchange env hash) w := by
  refine .of_raises (Prog.Safe.mono (?_ : Leading _ (rejectRefresh env hash) w) (fun _ _ h => h)
    fun e _ other => byExchange_of_error other)
  unfold rejectRefresh
  refine Prog.Safe.bind (Prog.Safe.bind (leading_ask fun _ _ rows _ _ => ?_))
  refine leading_scalarOneOrNone (fun _ => nofun) fun existing _ => ?_
  dsimp only
  split
  · split
    · exact nofun
    · refine Prog.Safe.bind (Prog.Safe.bind (leading_ask fun _ _ _ _ _ => ?_))
      exact Prog.Safe.bind (leading_ask fun _ _ _ _ _ => nofun)
  · exact nofun

/-- A new token is handed out by its commit. -/
theorem closes_issue (userId : Uuid) {old : RefreshToken} (presented : old.tokenHash = hash)
    (opened : old.revoked = false)
    (holding : Holding [.upd [(old, old.rotate env.dbNow)]] w) :
    (issue env userId).Closes (ByExchange env hash) w := by
  have created : Leading (fun _ v => Exchanges env hash v.session.pending)
      (discard (RefreshTokenRepo.create userId (env.sha256Hex env.rawToken)
        (env.now + tokenLifetime))) w := by
    refine Prog.Safe.bind (Prog.Safe.bind (leading_ask (s := .insert Table.refreshTokens _)
      fun db found token v answered => ?_))
    obtain ⟨_, made, _, added, _, _⟩ := World.execOn_insert answered
    -- both changes are pending, in this order
    have held : v.session.pending .refreshTokens =
        [.upd [(old, old.rotate env.dbNow)], .ins token] := by
      rw [added]
      simp only [Session.add, Function.update_self]
      exact congrArg (· ++ _) holding
    have fresh : token.tokenHash = env.sha256Hex env.rawToken := by
      cases made
      rfl
    refine Prog.Safe.bind (leading_ask (s := .select Table.refreshTokens _)
      fun db found rows u answered => ?_)
    obtain ⟨_, _, same, _, _⟩ := World.execOn_select answered
    refine Prog.Safe.bind (leading_scalarOneOrNone (fun _ same => by cases same) fun _ _ => ?_)
    exact ⟨old, token, presented, opened, fresh, (congrFun same .refreshTokens).trans held⟩
  -- a token is handed out only behind the commit
  refine closes_of_leading (fun e other => byExchange_of_error other)
    (Prog.Safe.mono created (fun _ v exchanges => ⟨rfl, ?_⟩) fun _ _ h => h)
  intro db found r v answered
  cases r with
  | error e =>
      refine ⟨fun x ended => ?_, trivial⟩
      cases ended
      exact byExchange_of_error (e := .db e) (fun same => by cases same) _ _ _
  | ok a =>
      refine ⟨fun x ended next handed => ⟨rfl, ⟨a, rfl⟩, exchanges, ?_⟩, ?_⟩
      · cases made : env.accessToken userId with
        | none =>
            simp only [made] at ended
            cases ended
            exact handed
        | some accessToken =>
            simp only [made] at ended
            cases ended
            exact handed
      · cases env.accessToken userId <;> trivial

/-- Whatever the others do, a refresh that hands a token out does so by committing an
exchange for the token that it presented. -/
theorem closes_refreshToken (rt bodyToken : Option String) (holding : Holding [] w)
    (presents : env.sha256Hex ((presented rt bodyToken).getD "") = hash) :
    (refreshToken env rt bodyToken).Closes (ByExchange env hash) w := by
  unfold refreshToken
  dsimp only
  split
  · trivial
  · rw [presents]
    refine closes_of_leading (fun e other => byExchange_of_error other)
      (Prog.Safe.bind (leading_ask (s := .update Table.refreshTokens _ _)
        fun db found rows v answered => ?_))
    obtain ⟨_, _, _, returned, added, _, _⟩ := World.execOn_update answered
    refine leading_scalarOneOrNone (fun _ => ⟨rfl, closes_rejectRefresh⟩) fun new only =>
      ⟨rfl, ?_⟩
    rw [only] at returned
    obtain ⟨⟨old, new'⟩, pairs, rfl⟩ := List.map_eq_singleton_iff.mp returned.symm
    obtain ⟨taken, matched, same⟩ := List.map_eq_singleton_iff.mp pairs
    cases same
    have valid := (World.mem_matched.mp (matched ▸ List.mem_singleton_self old)).2.1
    simp only [RefreshTokenRepo.isValid, Bool.and_eq_true, beq_iff_eq, Bool.not_eq_eq_eq_not,
      Bool.not_true] at valid
    refine closes_issue _ valid.1.1 valid.1.2 ?_
    show v.session.pending .refreshTokens = _
    rw [added, pairs]
    simp only [Session.add, Function.update_self]
    exact congrArg (· ++ _) holding

end Closing

/-! ### Redemptions -/

section Redemptions

variable (requests : List (Call × Request)) (p : Pool Table Exc Reply)

/-- The request at a position is a refresh that presented a token with a hash and handed out
one with the other. -/
inductive Redeems (i : Nat) (hash next : String) : Prop where
  | intro {call : Call} {rt bodyToken : Option String} {c : Client Table Exc Reply}
      {x : Except Exc Reply} (sent : requests[i]? = some (call, .refresh rt bodyToken))
      (presents : call.env.sha256Hex ((presented rt bodyToken).getD "") = hash)
      (here : p.clients[i]? = some c) (ended : c.prog.result = some x)
      (handed : HandsOut call.env next x)

/-- A token, by its hash, was redeemed for another one. -/
def Successor (hash next : String) : Prop := ∃ i, Redeems requests p i hash next

/-- The tokens that follow from each other form a chain. -/
structure Linear : Prop where
  /-- A token is redeemed once at most. -/
  once : ∀ i j hash next next', Redeems requests p i hash next →
    Redeems requests p j hash next' → i = j
  unbranched : Relator.BiUnique (Successor requests p)
  acyclic : ∀ hash, ¬TransGen (Successor requests p) hash hash
  chain : ∀ a b, EqvGen (Successor requests p) a b →
    ReflTransGen (Successor requests p) a b ∨ ReflTransGen (Successor requests p) b a
  /-- One token of a session at most is live. -/
  oneLive : ∀ now, ∀ a ∈ p.db .refreshTokens, ∀ b ∈ p.db .refreshTokens,
    EqvGen (Successor requests p) a.tokenHash b.tokenHash → a.isLive now = true →
      b.isLive now = true → a = b

end Redemptions

/-- In this step a token was exchanged for another one: it was in service before, and the
new one was not there. -/
structure Exchanged (p p' : Pool Table Exc Reply) (i : Nat) (hash next : String) : Prop where
  opened : ∃ t ∈ p.db .refreshTokens, t.tokenHash = hash ∧ t.revoked = false
  fresh : ∀ t ∈ p.db .refreshTokens, t.tokenHash ≠ next
  spent : ∃ t ∈ p'.db .refreshTokens, t.tokenHash = hash ∧ t.revoked = true
  issued : ∃ t ∈ p'.db .refreshTokens, t.tokenHash = next
  others : ∀ j, j ≠ i → p'.clients[j]? = p.clients[j]?

/-- The tokens of a table are told apart by their hashes. -/
theorem eq_of_tokenHash {rows : List RefreshToken} (keyed : (rows.map RefreshToken.id).Nodup)
    (distinct : NoShare (T := Table) .refreshTokens rows) {a b : RefreshToken} (ha : a ∈ rows)
    (hb : b ∈ rows) (same : a.tokenHash = b.tokenHash) : a = b :=
  List.inj_on_of_nodup_map keyed ha hb (distinct a ha b hb (.tokenHash a.tokenHash)
    (List.mem_singleton_self _) (same ▸ List.mem_singleton_self _))

section Run

variable {allowed : Pool Table Exc Reply → Client Table Exc Reply →
    List (Client Table Exc Reply) → Statement → Prop} {db : State}
  {requests : List (Call × Request)} {p p' : Pool Table Exc Reply} {i : Nat} {hash next : String}

theorem kept_step (reached : Pool.Run allowed (sideBySide db requests) p)
    (indexed : Indexed db) (step : Pool.Step allowed p p') :
    Kept (p.db .refreshTokens) (p'.db .refreshTokens) := by
  have inOrder := Pool.Run.inOrder reached (sideBySide_inOrder indexed requests)
  cases step.did fun c hc => (inOrder.clients c hc).orderly with
  | quiet _ _ db log =>
      rw [db]
      exact Kept.refl _
  | wrote _ _ db log =>
      rw [db]
      exact Kept.refl _
  | committed _ _ _ _ _ db log =>
      have shaped : Shaped True _ := Run.shaped (reached.tail step) (fun _ _ _ => trivial) _
        (log ▸ List.mem_cons_self)
      have stored := congrFun db .refreshTokens
      rw [stored]
      exact shaped.kept

/-- Every refresh closes by an exchange, or hands nothing out. -/
theorem closes_of_run (run : Pool.Run allowed (sideBySide db requests) p) {call : Call}
    {rt bodyToken : Option String} (sent : requests[i]? = some (call, .refresh rt bodyToken))
    (presents : call.env.sha256Hex ((presented rt bodyToken).getD "") = hash) :
    Pool.Closes (ByExchange call.env hash) i p := by
  refine Pool.Run.closes run ⟨call.client (.refresh rt bodyToken), ?_, ?_⟩
  · show (requests.map fun x => x.1.client x.2)[i]? = _
    rw [List.getElem?_map, sent]
    rfl
  · exact closes_refreshToken rt bodyToken rfl presents

/-- A redemption was there before the step, or is the exchange that the step commits. -/
theorem Redeems.step (indexed : Indexed db)
    (reached : Pool.Run allowed (sideBySide db requests) p) (step : Pool.Step allowed p p')
    (redeems : Redeems requests p' i hash next) :
    Redeems requests p i hash next ∨ Exchanged p p' i hash next := by
  obtain @⟨call, rt, bodyToken, _, x, sent, presents, there, ended, handed⟩ := redeems
  rcases step.result there ended with ⟨c, here, before⟩ | last
  · exact .inl ⟨sent, presents, here, before, handed⟩
  · right
    obtain ⟨c, s, r, w, here, _, answered, stored, _, closed⟩ :=
      last.closed (closes_of_run reached sent presents)
    obtain ⟨rfl, ⟨a, rfl⟩, ⟨old, token, hashed, opened, fresh, writes⟩, rfl⟩ := closed _ handed
    have inOrder := Pool.Run.inOrder reached (sideBySide_inOrder indexed requests)
    have inOrder' := step.inOrder inOrder
    have fits := (inOrder.clients c (List.mem_of_getElem? here)).fits .refreshTokens
    have pending : c.writes .refreshTokens = _ := writes
    rw [pending] at fits
    obtain ⟨replaces, unused, _⟩ := fits
    obtain ⟨old_here, _, replaced⟩ := replaces _ (List.mem_singleton_self _)
    have world : World.exec .commit ⟨p.db, c.session⟩ = (.ok a, w) := answered
    -- the commit has two changes: the old token is rotated, and its successor is inserted
    have rows : p'.db .refreshTokens = Change.applyAll
        [.upd [(old, old.rotate call.env.dbNow)], .ins token] (p.db .refreshTokens) := by
      rcases World.exec_commit ⟨p.db, c.session⟩ with ⟨_, _, view, _⟩ | ⟨⟨e, failed⟩, _⟩
      · rw [stored, ← writes]
        rw [world] at view
        exact congrFun view .refreshTokens
      · rw [world] at failed
        cases failed
    have token_there : token ∈ p'.db .refreshTokens := by
      rw [rows]
      exact List.mem_append_right _ (List.mem_singleton_self _)
    refine ⟨⟨old, old_here, hashed, opened⟩, fun t ht same => ?_,
      ⟨old.rotate call.env.dbNow, ?_, hashed, rfl⟩, ⟨token, token_there, fresh⟩, ?_⟩
    · -- the index lets no second token in with the hash
      have revoking : ∀ c ∈ [Change.upd [(old, old.rotate call.env.dbNow)]], Revoking c :=
        List.forall_mem_singleton.mpr ⟨_, rfl, List.forall_mem_singleton.mpr ⟨rfl, rfl⟩⟩
      obtain ⟨t', ht', issued, _⟩ := kept_applyAll revoking t ht
      have there' : t' ∈ p'.db .refreshTokens := by
        rw [rows]
        exact List.mem_append_left _ ht'
      have one := eq_of_tokenHash (inOrder'.keyed .refreshTokens)
        (inOrder'.distinct .refreshTokens) there' token_there
        ((RefreshToken.tokenHash_eq issued).trans (same.trans fresh.symm))
      exact unused (List.mem_map.mpr ⟨t', ht', congrArg RefreshToken.id one⟩)
    · rw [rows]
      exact List.mem_append_left _ (List.mem_map.mpr ⟨old, old_here,
        congrArg (fun o : Option RefreshToken => o.getD old) replaced⟩)
    · obtain ⟨_, _, _, _, _, _, others⟩ := last
      exact others

/-- What is redeemed is revoked and what was issued for it is there, each by one request. -/
structure Handed (requests : List (Call × Request)) (p : Pool Table Exc Reply) : Prop where
  spent : ∀ i hash next, Redeems requests p i hash next →
    ∃ t ∈ p.db .refreshTokens, t.tokenHash = hash ∧ t.revoked = true
  issued : ∀ i hash next, Redeems requests p i hash next →
    ∃ t ∈ p.db .refreshTokens, t.tokenHash = next
  apart : ∀ i j hash hash' next next', Redeems requests p i hash next →
    Redeems requests p j hash' next' → i ≠ j → hash ≠ hash' ∧ next ≠ next'
  acyclic : ∀ hash, ¬TransGen (Successor requests p) hash hash

namespace Handed

/-- Before anything is performed nothing is redeemed. -/
theorem start (db : State) (requests : List (Call × Request)) :
    Handed requests (sideBySide db requests) := by
  have none {i : Nat} {hash next : String} :
      ¬ Redeems requests (sideBySide db requests) i hash next := by
    rintro @⟨call, rt, bodyToken, c, x, sent, presents, here, ended, handed⟩
    have same : (requests.map fun x => x.1.client x.2)[i]? = some c := here
    rw [List.getElem?_map, sent] at same
    cases same
    change (refreshToken call.env rt bodyToken).result = some x at ended
    unfold refreshToken at ended
    dsimp only at ended
    split at ended
    · cases ended
      exact handed
    · cases ended
  refine ⟨fun _ _ _ h => absurd h none, fun _ _ _ h => absurd h none,
    fun _ _ _ _ _ _ h => absurd h none, fun hash circle => ?_⟩
  obtain ⟨_, ⟨_, redeems⟩, _⟩ := TransGen.head'_iff.mp circle
  exact none redeems

theorem step (h : Handed requests p) (indexed : Indexed db)
    (reached : Pool.Run allowed (sideBySide db requests) p) (step : Pool.Step allowed p p') :
    Handed requests p' := by
  have inOrder := Pool.Run.inOrder reached (sideBySide_inOrder indexed requests)
  have kept := kept_step reached indexed step
  -- of two redemptions one was there before
  have before {i j : Nat} {hash next hash' next' : String} (exchanged : Exchanged p p' i hash next)
      (redeems : Redeems requests p' j hash' next') (other : j ≠ i) :
      Redeems requests p j hash' next' := by
    obtain ⟨sent, presents, there, ended, handed⟩ := redeems
    exact ⟨sent, presents, (exchanged.others j other).symm.trans there, ended, handed⟩
  -- what was redeemed before is not in service, and what was issued is there
  have apart {i j : Nat} {hash next hash' next' : String} (exchanged : Exchanged p p' i hash next)
      (redeems : Redeems requests p j hash' next') : hash ≠ hash' ∧ next ≠ next' := by
    obtain ⟨t, ht, hashed, opened⟩ := exchanged.opened
    obtain ⟨t', ht', hashed', revoked⟩ := h.spent _ _ _ redeems
    obtain ⟨u, hu, issued⟩ := h.issued _ _ _ redeems
    refine ⟨fun same => ?_, fun same => exchanged.fresh u hu (issued.trans same.symm)⟩
    have one := eq_of_tokenHash (inOrder.keyed .refreshTokens) (inOrder.distinct .refreshTokens)
      ht ht' (hashed.trans (same.trans hashed'.symm))
    rw [one, revoked] at opened
    cases opened
  refine ⟨?_, ?_, ?_, ?_⟩
  · intro i hash next redeems
    rcases redeems.step indexed reached step with old | exchanged
    · obtain ⟨t, ht, hashed, revoked⟩ := h.spent i hash next old
      obtain ⟨t', ht', same, still⟩ := kept t ht
      exact ⟨t', ht', (RefreshToken.tokenHash_eq same).trans hashed, still revoked⟩
    · exact exchanged.spent
  · intro i hash next redeems
    rcases redeems.step indexed reached step with old | exchanged
    · obtain ⟨t, ht, hashed⟩ := h.issued i hash next old
      obtain ⟨t', ht', same, _⟩ := kept t ht
      exact ⟨t', ht', (RefreshToken.tokenHash_eq same).trans hashed⟩
    · exact exchanged.issued
  · intro i j hash hash' next next' first second other
    rcases first.step indexed reached step with old | exchanged
    · rcases second.step indexed reached step with old' | exchanged
      · exact h.apart i j hash hash' next next' old old' other
      · obtain ⟨spent, issued⟩ := apart exchanged old
        exact ⟨spent.symm, issued.symm⟩
    · exact apart exchanged (before exchanged second other.symm)
  · refine acyclic_of_new_end h.acyclic fun x y link => ?_
    obtain ⟨i, redeems⟩ := link
    rcases redeems.step indexed reached step with old | exchanged
    · exact .inl ⟨i, old⟩
    · right
      rintro z ⟨j, onward⟩
      rcases onward.step indexed reached step with old | again
      · obtain ⟨t, ht, hashed, _⟩ := h.spent j y z old
        exact exchanged.fresh t ht hashed
      · obtain ⟨t, ht, hashed, _⟩ := again.opened
        exact exchanged.fresh t ht hashed

theorem run (indexed : Indexed db) (ran : Pool.Run allowed (sideBySide db requests) p) :
    Handed requests p := by
  induction ran with
  | refl => exact start db requests
  | tail before step ih => exact ih.step indexed before step

theorem linear (h : Handed requests p) (keyed : ((p.db .refreshTokens).map RefreshToken.id).Nodup)
    (distinct : NoShare (T := Table) .refreshTokens (p.db .refreshTokens)) :
    Linear requests p := by
  have once : ∀ i j hash next next', Redeems requests p i hash next →
      Redeems requests p j hash next' → i = j := by
    intro i j hash next next' first second
    by_contra other
    exact (h.apart i j _ _ _ _ first second other).1 rfl
  have right : Relator.RightUnique (Successor requests p) := by
    rintro hash next next' ⟨i, first⟩ ⟨j, second⟩
    cases once i j _ _ _ first second
    obtain ⟨sent, _, here, ended, handed⟩ := first
    obtain ⟨sent', _, here', ended', handed'⟩ := second
    cases sent.symm.trans sent'
    cases here.symm.trans here'
    cases ended.symm.trans ended'
    exact handed.unique handed'
  have left : Relator.LeftUnique (Successor requests p) := by
    rintro hash hash' next ⟨i, first⟩ ⟨j, second⟩
    by_cases same : i = j
    · subst same
      obtain ⟨sent, presents, _⟩ := first
      obtain ⟨sent', presents', _⟩ := second
      cases sent.symm.trans sent'
      exact presents.symm.trans presents'
    · exact absurd rfl (h.apart i j _ _ _ _ first second same).2
  -- a live token was not redeemed, so it has no successor
  have last {t : RefreshToken} (ht : t ∈ p.db .refreshTokens) {now : Instant}
      (live : t.isLive now = true) : ∀ c, ¬Successor requests p t.tokenHash c := by
    rintro c ⟨i, redeems⟩
    obtain ⟨r, hr, same, revoked⟩ := h.spent i _ c redeems
    have one := eq_of_tokenHash keyed distinct hr ht same
    simp [RefreshToken.isLive, ← one, revoked] at live
  refine ⟨once, ⟨left, right⟩, h.acyclic, ?_, ?_⟩
  · intro a b connected
    exact comparable_of_eqvGen right left connected
  · intro now a ha b hb connected liveA liveB
    exact eq_of_tokenHash keyed distinct ha hb
      (eq_of_last right connected (last ha liveA) (last hb liveB))

end Handed

end Run

/-- However logins, refreshes and logouts take turns, every token is redeemed once at
most, and the tokens of a session form a chain with one live token at most. A token is
redeemed by a refresh that presents it and is answered with another one, so that what is
counted are the answers: that there is one for a token is what the locked lookup of an
unrevoked row and the update of that row have to see to. The unique indexes are those of
the table; any statement may fail. -/
theorem rotation_linear {db : State} (indexed : Indexed db) (requests : List (Call × Request))
    {p : Pool Table Exc Reply} (run : Pool.Run Pool.Anything (sideBySide db requests) p) :
    Linear requests p := by
  have inOrder := Pool.Run.inOrder run (sideBySide_inOrder indexed requests)
  exact (Handed.run indexed run).linear (inOrder.keyed .refreshTokens)
    (inOrder.distinct .refreshTokens)

namespace Sample

/-- A world in which the password is right, at a time and with a new token. -/
def world (time : Instant) (rawToken : String) : Env where
  now := time
  dbNow := time
  lower name := name
  verify _ _ := some true
  dummyHash := ""
  sha256Hex text := text
  rawToken
  accessToken _ := some "access"

/-- A request at a time, with the token and the row id that it would issue. -/
def request (time : Instant) (rawToken : String) (row : Nat) (r : Request) : Call × Request :=
  (⟨world time rawToken, fun n => ⟨Fin.ofNat _ (row + n)⟩, []⟩, r)

/-- One account that nobody has logged in to. -/
def account : State
  | .users => [⟨⟨1⟩, some "ada", some "hash", 0, none⟩]
  | .refreshTokens => []

/-- Ada logs in, and her token is presented twice. -/
def twice : List (Call × Request) :=
  [request 0 "first" 10 (.login ⟨"ada", "password"⟩),
    request 1 "second" 20 (.refresh (some "first") none),
    request 1 "third" 30 (.refresh (some "first") none)]

/-- Both look the token up before one of them rotates it. -/
def racing : List Nat := List.replicate 6 0 ++ [1, 2] ++ List.replicate 4 1 ++ List.replicate 2 2

theorem account_indexed : Indexed account := by
  constructor
  · intro t
    cases t <;> decide
  · intro t
    cases t <;> decide

/-- What the requests were answered with. -/
def replies (p : Pool Table Exc Reply) : List (Option Reply) :=
  p.clients.map fun c => match c.prog with
    | .pure reply => some reply
    | _ => none

theorem result_of_replies {p : Pool Table Exc Reply} {i : Nat} {reply : Reply}
    (here : (replies p)[i]? = some (some reply)) :
    ∃ c, p.clients[i]? = some c ∧ c.prog = .pure reply := by
  unfold replies at here
  rw [List.getElem?_map] at here
  obtain ⟨c, there, answered⟩ := Option.map_eq_some_iff.mp here
  refine ⟨c, there, ?_⟩
  cases ended : c.prog with
  | pure reply =>
      rw [ended] at answered
      exact congrArg Prog.pure (Option.some.inj answered)
  | raise e =>
      rw [ended] at answered
      cases answered
  | op s k =>
      rw [ended] at answered
      cases answered

/-- One of two refreshes that race for a token redeems it, and the other does not. -/
theorem racing_linear : ∃ p,
    Pool.play (fun _ _ _ _ => true) racing (sideBySide account twice) = some p ∧
      Redeems twice p 1 "first" "second" ∧ (∀ next, ¬ Redeems twice p 2 "first" next) ∧
        Linear twice p := by
  have checked : (Pool.play (fun _ _ _ _ => true) racing (sideBySide account twice)).map replies =
      some [some (.token "access" "first"), some (.token "access" "second"), none] := by
    decide +kernel
  obtain ⟨p, played, answered⟩ := Option.map_eq_some_iff.mp checked
  obtain ⟨c, here, ended⟩ := result_of_replies (p := p) (i := 1)
    (show (replies p)[1]? = some (some (.token "access" "second")) by rw [answered]; rfl)
  have linear := rotation_linear account_indexed twice
    (Pool.run_of_play (fun _ _ _ _ _ => trivial) played)
  have redeems : Redeems twice p 1 "first" "second" :=
    .intro (x := .ok (.token "access" "second")) rfl rfl here (by rw [ended]; rfl) rfl
  refine ⟨p, played, redeems, fun next again => ?_, linear⟩
  cases linear.once 1 2 _ _ _ redeems again

end Sample

end EspressoLogs.Auth
