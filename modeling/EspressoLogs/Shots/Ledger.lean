import EspressoLogs.Shots.Creates

/-!
What a create knows of the shots.

A create is followed from its first statement to its response, once for all uses: a
`Ledger` says what is known of the shots before the request has stored its own and
after it, while the committed rows move as `rely` allows. Among other requests about
shots the rows may move, but every shot keeps what it is known by; alone they stay
where they are.
-/

namespace EspressoLogs

open Lib Py

variable {h : Uuid} {α : Type}

/-! ### The shot of a request -/

/-- The shot that a create stores for a household, or finds stored, under its key. -/
structure IsShotOf (h : Uuid) (idempotency : Option (String × String)) (shotId : String)
    (s : BrewLog) : Prop where
  household : s.householdId = some h
  key : s.idempotencyKey = idempotency.map Prod.fst
  hash : s.idempotencyRequestHash.getD "" = (idempotency.map Prod.snd).getD ""
  shotId : s.sheetsId.getD "" = shotId

/-- What makes a row the shot of a create are its id, its owner, its key and its hash. -/
theorem IsShotOf.congr {idempotency : Option (String × String)} {shotId : String} {s s' : BrewLog}
    (is : IsShotOf h idempotency shotId s) (same : identity .brewLog s' = identity .brewLog s) :
    IsShotOf h idempotency shotId s' := by
  simp only [identity, Prod.mk.injEq] at same
  obtain ⟨known, owned, keyed, hashed⟩ := same
  exact ⟨owned.trans is.household, keyed.trans is.key, hashed ▸ is.hash, known ▸ is.shotId⟩

section Row

variable {body : BrewLogCreateBody} {shotId : String} {shotDate : Date}
  {idempotency : Option (String × String)}

theorem shotRow_id : (shotRow body shotId shotDate idempotency).get "Shot_ID" = .str shotId := rfl

/-- The row leaves the household to the context. -/
theorem shotRow_owner : ((shotRow body shotId shotDate idempotency).get "household_id").or
    ((shotRow body shotId shotDate idempotency).get "Household_ID") = .none := by
  cases idempotency <;> rfl

/-- The key of the request, unless it is empty. -/
theorem shotRow_key (keyed : ∀ x, idempotency = some x → x.1 ≠ "") :
    (((shotRow body shotId shotDate idempotency).get "idempotency_key").or
      ((shotRow body shotId shotDate idempotency).get "Idempotency_Key")).or .none =
        ofOption (idempotency.map Prod.fst) := by
  cases idempotency with
  | none => rfl
  | some x =>
      have given : x.1 ≠ "" := keyed x rfl
      show (Val.str x.1).or .none = .str x.1
      simp [Val.or, Val.truthy, given]

theorem shotRow_hash :
    (((shotRow body shotId shotDate idempotency).get "idempotency_request_hash").or
      ((shotRow body shotId shotDate idempotency).get "Idempotency_Request_Hash")).or .none =
        ofOption ((idempotency.map Prod.snd).filter fun hash => hash ≠ "") := by
  cases idempotency with
  | none => rfl
  | some x =>
      show (Val.str x.2).or .none = ofOption (Option.filter _ (some x.2))
      by_cases empty : x.2 = ""
      · simp [Val.or, Val.truthy, Option.filter, ofOption, empty]
      · simp [Val.or, Val.truthy, Option.filter, ofOption, empty]

theorem asText_ofOption {o : Option String} {a : Option String} (ok : asText (ofOption o) = .ok a) :
    a = o := by
  cases o with
  | none =>
      cases ok
      rfl
  | some s => exact asText_eq_ok rfl ok

/-- The row that a create inserts is its shot. -/
theorem isShotOf_made {env : Env} {timeSec rating : Option Int} {id : Uuid} {s : BrewLog}
    (keyed : ∀ x, idempotency = some x → x.1 ≠ "")
    (made : SqlBrewLogRepo.make env (shotRow body shotId shotDate idempotency) (some h) timeSec
      rating id = .ok s) : IsShotOf h idempotency shotId s ∧ s.sheetsId = some shotId := by
  obtain ⟨_, owned, known, key, hash⟩ := made_eq_ok made
  have sheetsId : s.sheetsId = some shotId := asText_eq_ok shotRow_id known
  rw [shotRow_key keyed] at key
  rw [shotRow_hash] at hash
  refine ⟨⟨owned, asText_ofOption key, ?_, ?_⟩, sheetsId⟩
  · rw [asText_ofOption hash]
    cases idempotency.map Prod.snd with
    | none => rfl
    | some hash =>
        by_cases empty : hash = ""
        · simp [Option.filter, empty]
        · simp [Option.filter, empty]
  · rw [sheetsId]
    rfl

end Row

/-! ### What is known of the shots -/

/-- A change that comments on the shot with this id. -/
def CommentsOn (shotId : String) : Change BrewLog → Prop
  | .upd pairs => ∀ p ∈ pairs, p.1.sheetsId = some shotId ∧
      identity .brewLog p.2 = identity .brewLog p.1
  | _ => False

/-- No row has the id of the shot. -/
def Unknown (s : BrewLog) (rows : List BrewLog) : Prop :=
  ∀ r ∈ rows, s.sheetsId.isSome = true → r.sheetsId ≠ s.sheetsId

/-- What is known before a request has stored its shot, when the insert was let in, and
after it was committed. -/
structure Ledger (rely : World Table → State → Prop) where
  before : List BrewLog → Prop
  ready : BrewLog → List BrewLog → Prop
  after : BrewLog → List BrewLog → Prop
  unharmed : ∀ w db, rely w db → Retained keptTable identity w.db db
  before_moves : ∀ w db, rely w db → before (w.db .brewLog) → before (db .brewLog)
  ready_moves : ∀ s w db, rely w db → ready s (w.db .brewLog) → ready s (db .brewLog)
  after_moves : ∀ s w db, rely w db → after s (w.db .brewLog) → after s (db .brewLog)
  inserts : ∀ s rows, before rows → Unknown s rows → ready s rows
  fails : ∀ s rows, ready s rows → before rows
  stores : ∀ s rows, ready s rows → after s (rows ++ [s])
  comments : ∀ s shotId rows c, s.sheetsId = some shotId → CommentsOn shotId c → after s rows →
    after s (c.apply rows)

/-- Among other requests about shots: what a shot is known by stays. -/
def Ledger.shared : Ledger (Unharmed keptTable identity) where
  before _ := True
  ready _ _ := True
  after s rows := ∃ s' ∈ rows, identity .brewLog s' = identity .brewLog s
  unharmed _ _ moved := moved
  before_moves _ _ _ _ := trivial
  ready_moves _ _ _ _ _ := trivial
  after_moves s w db moved := by
    rintro ⟨s', here, same⟩
    obtain ⟨s'', there, same'⟩ := moved .brewLog rfl s' here
    exact ⟨s'', there, same'.trans same⟩
  inserts _ _ _ _ := trivial
  fails _ _ _ := trivial
  stores s rows _ := ⟨s, List.mem_append_right _ List.mem_cons_self, rfl⟩
  comments s shotId rows c _ comments := by
    rintro ⟨s', here, same⟩
    have retains : c.Retains (identity .brewLog) := by
      cases c with
      | upd pairs => exact fun p hp => (comments p hp).2
      | _ => exact comments.elim
    obtain ⟨s'', there, same'⟩ := retains.apply here
    exact ⟨s'', there, same'.trans same⟩

/-- Alone, from these rows on: the shot comes behind them, and they stay as they are. -/
def Ledger.alone (rows : List BrewLog) : Ledger (Frozen (T := Table)) where
  before rows' := rows' = rows
  ready s rows' := rows' = rows ∧ Unknown s rows
  after s rows' := Unknown s rows ∧
    ∃ s', rows' = rows ++ [s'] ∧ identity .brewLog s' = identity .brewLog s
  unharmed w db same := same ▸ Retained.refl _
  before_moves w db same := by
    intro start
    rw [same]
    exact start
  ready_moves s w db same := by
    intro start
    rw [same]
    exact start
  after_moves s w db same := by
    intro start
    rw [same]
    exact start
  inserts s rows' start unknown := ⟨start, start ▸ unknown⟩
  fails s rows' ready := ready.1
  stores s rows' ready := ⟨ready.2, s, congrArg (· ++ [s]) ready.1, rfl⟩
  comments s shotId rows' c known comments := by
    rintro ⟨unknown, s', rfl, same⟩
    cases c with
    | upd pairs =>
        refine ⟨unknown, (pairs.lookup s').getD s', ?_, ?_⟩
        · have kept : ∀ r ∈ rows, (pairs.lookup r).getD r = r := by
            intro r hr
            cases found : pairs.lookup r with
            | none => rfl
            | some n =>
                have commented := (comments (r, n) (Change.mem_of_lookup found)).1
                exact absurd (commented.trans known.symm) (unknown r hr (by rw [known]; rfl))
          rw [Change.apply, List.map_append]
          exact congrArg (· ++ [(pairs.lookup s').getD s'])
            ((List.map_congr_left kept).trans (List.map_id rows))
        · cases found : pairs.lookup s' with
          | none => exact same
          | some n => exact (comments (s', n) (Change.mem_of_lookup found)).2.trans same
    | _ => exact comments.elim

/-! ### In the middle of a request -/

/-- Nothing is pending in the tables that are kept. -/
def NothingWritten (w : World Table) : Prop := ∀ t, keptTable t = true → w.session.pending t = []

/-- The request acts for the household, and has not written a shot. -/
structure Acting (h : Uuid) (w : World Table) : Prop where
  untouched : NothingWritten w
  context : HasContext h w

/-- Before the first write a session sees the database. -/
theorem NothingWritten.view {w : World Table} (untouched : NothingWritten w) {t : Table}
    (ht : keptTable t = true) : w.view t = w.db t := by
  rw [World.view, untouched t ht]
  rfl

/-- A statement that writes elsewhere leaves the kept tables as they are. -/
theorem exec_elsewhere {s : Statement} (elsewhere : Elsewhere s) (found : List Uuid)
    {w : World Table} (start : NothingWritten w) : NothingWritten (World.execOn found s w).2 ∧
      ∀ t, keptTable t = true → (World.execOn found s w).2.db t = w.db t := by
  by_cases committing : s = .commit
  · subst committing
    show NothingWritten (World.exec .commit w).2 ∧
      ∀ t, keptTable t = true → (World.exec .commit w).2.db t = w.db t
    rcases World.exec_commit w with ⟨_, empty, db, _⟩ | ⟨_, db, empty | same⟩
    · exact ⟨fun t _ => congrFun empty t, fun t ht => db ▸ start.view ht⟩
    · exact ⟨fun t _ => congrFun empty t, fun t _ => congrFun db t⟩
    · exact ⟨fun t ht => (congrFun same t).trans (start t ht), fun t _ => congrFun db t⟩
  · have uncommitting : s.narrow found ≠ .commit :=
      fun eq => committing (Stmt.narrow_eq_commit.mp eq)
    rw [World.execOn_world, World.exec_db uncommitting]
    refine ⟨fun t ht => ?_, fun t _ => rfl⟩
    cases World.exec_leaves uncommitting (elsewhere.1.narrow found) (w := w) with
    | kept same => exact (congrFun same t).trans (start t ht)
    | dropped empty => exact congrFun empty t
    | wrote u c _ change _ added =>
        have other : keptTable u = false := by
          cases s <;> first | exact (by cases change; exact elsewhere.2) | cases change
        have apart : t ≠ u := by
          intro same
          rw [same, other] at ht
          cases ht
        rw [added]
        exact (Function.update_of_ne apart _ _).trans (start t ht)

/-- Only a commit changes what is stored. -/
def isCommit : Statement → Bool
  | .commit => true
  | _ => false

theorem isCommit_eq_false {s : Statement} (other : s ≠ .commit) : isCommit s = false := by
  cases s with
  | commit => exact absurd rfl other
  | _ => rfl

theorem stored_execOn {s : Statement} {found : List Uuid} {r : Resp s} {w v : World Table}
    (answered : World.execOn found s w = (r, v)) (uncommitting : isCommit s = false) :
    v.db = w.db := by
  have world : v = (World.exec (s.narrow found) w).2 := by rw [← World.execOn_world, answered]
  rw [world]
  refine World.exec_db (fun eq => ?_) w
  rw [Stmt.narrow_eq_commit.mp eq] at uncommitting
  cases uncommitting

/-- A read goes on for the household, and writes nothing. -/
theorem acting_exec {s : Statement} (reads : IsRead s) (found : List Uuid) {w : World Table}
    (acting : Acting h w) : Acting h (World.execOn found s w).2 ∧
      (World.execOn found s w).2.db = w.db := by
  have same : World.execOn found s w = World.exec s w := by
    cases s <;> first | rfl | exact reads.elim
  have uncommitting : s ≠ .commit := fun committing => by
    rw [committing] at reads
    exact reads
  refine ⟨⟨(exec_elsewhere reads.elsewhere found acting.untouched).1, ?_⟩, ?_⟩
  · rw [same]
    exact exec_keeps reads.lasting acting.context
  · rw [same]
    exact World.exec_db uncommitting w

section Outline

variable {rely : World Table → State → Prop} (L : Ledger rely) {P : Statement → Prop}
  {w : World Table}

/-- No promises are made. -/
abbrev NoPromise : Statement → World Table → Prop := fun _ _ => True

/-- A program that reads changes nothing that the others do not change. -/
theorem safe_reads {p : CodeM P α} (reads : p.prog.All IsRead) {F : State → Prop}
    (moves : ∀ w db, rely w db → F w.db → F db) (acting : Acting h w) (start : F w.db) :
    p.prog.Safe rely NoPromise (fun _ v => Acting h v ∧ F v.db) (fun _ v => F v.db) w := by
  refine Prog.Safe.mono (Prog.Safe.of_all (J := fun v => Acting h v ∧ F v.db) reads
    (fun _ _ _ _ _ _ => trivial) ?_ ⟨acting, start⟩) (fun _ _ here => here) fun _ _ here => here.2
  rintro s v hs ⟨acting, here⟩ db found moved
  have moved_acting : Acting h ⟨db, v.session⟩ := ⟨acting.untouched, acting.context⟩
  obtain ⟨still, same⟩ := acting_exec hs found moved_acting
  refine ⟨still, ?_⟩
  rw [same]
  exact moves v db moved here

theorem safe_currentHouseholdId {F : State → Prop} (moves : ∀ w db, rely w db → F w.db → F db)
    (acting : Acting h w) (start : F w.db) :
    currentHouseholdId.prog.Safe rely NoPromise
      (fun o v => o = some h ∧ Acting h v ∧ F v.db) (fun _ v => F v.db) w := by
  refine safe_ask (s := .currentSetting) (fun _ _ => trivial) ?_ ?_
  · intro db found o v moved answered
    obtain ⟨inOrder, performed⟩ := World.exec_eq_ok (s := .currentSetting) nofun answered
    cases performed
    exact ⟨acting.context inOrder, ⟨acting.untouched, acting.context⟩, moves w db moved start⟩
  · intro db found e v moved answered
    rw [stored_execOn answered rfl]
    exact moves w db moved start

/-- The shots that a request sees are stored shots of its household. -/
theorem safe_shots (p : BrewLog → Bool) {F : State → Prop}
    (moves : ∀ w db, rely w db → F w.db → F db) (acting : Acting h w) (start : F w.db) :
    (select .brewLog p).prog.Safe rely NoPromise
      (fun rows v => (∀ r ∈ rows, r ∈ v.db .brewLog ∧ r.householdId = some h ∧ p r = true) ∧
        Acting h v ∧ F v.db) (fun _ v => F v.db) w := by
  refine safe_ask (s := .select .brewLog p) (fun _ _ => trivial) ?_ ?_
  · intro db found rows v moved answered
    obtain ⟨inOrder, selected, _, _, _⟩ := World.execOn_select answered
    obtain ⟨still, same⟩ := acting_exec (s := .select .brewLog p) trivial found
      (w := ⟨db, w.session⟩) ⟨acting.untouched, acting.context⟩
    rw [answered] at still same
    have context : w.session.context = some h := acting.context inOrder
    refine ⟨fun r hr => ?_, still, same ▸ moves w db moved start⟩
    rw [selected] at hr
    obtain ⟨seen, matched⟩ := List.mem_filter.mp hr
    obtain ⟨here, own⟩ := List.mem_filter.mp seen
    refine ⟨?_, ?_, matched⟩
    · rw [same]
      have view : World.view ⟨db, w.session⟩ .brewLog = db .brewLog :=
        NothingWritten.view (w := ⟨db, w.session⟩) acting.untouched rfl
      show r ∈ db .brewLog
      rw [← view]
      exact here
    · simpa [sees, context, Schema.secured, Table.tenantScoped, Schema.owner, Table.householdId]
        using own
  · intro db found e v moved answered
    rw [stored_execOn answered rfl]
    exact moves w db moved start

/-- The response is the shot that is stored under the key. -/
def Replayed (h : Uuid) (keyed : String × String) (r : Response) (db : State) : Prop :=
  ∃ s ∈ db .brewLog, ∃ out, r = ⟨200, .shot out⟩ ∧ IsShotOf h (some keyed) out.shotId s

/-- A shot that is found under the key is one of the household's. -/
theorem safe_getByIdempotencyKey (key : String) {F : State → Prop}
    (moves : ∀ w db, rely w db → F w.db → F db) (acting : Acting h w) (start : F w.db) :
    (SqlBrewLogRepo.getByIdempotencyKey key).prog.Safe rely NoPromise
      (fun o v => (∀ d, o = some d → ∃ r ∈ v.db .brewLog, d = SqlBrewLogRepo.toDict r ∧
        r.householdId = some h ∧ r.idempotencyKey = some key) ∧ Acting h v ∧ F v.db)
      (fun _ v => F v.db) w := by
  refine safe_bind (safe_bind (Prog.Safe.mono
    (safe_currentHouseholdId moves acting start) ?_ fun _ _ here => here))
  rintro o v ⟨rfl, acting, here⟩
  refine Prog.Safe.mono (safe_shots _ moves acting here) ?_ fun _ _ here => here
  rintro rows v₁ ⟨found, acting, here⟩
  refine safe_bind (safe_oneOrNone (fun _ => ?_) (fun r one => ?_) here)
  · exact ⟨fun d none => absurd none (Option.some_ne_none d).symm, acting, here⟩
  · subst one
    obtain ⟨stored, owned, matched⟩ := found r List.mem_cons_self
    rw [Bool.and_eq_true] at matched
    refine ⟨fun d same => ⟨r, stored, (Option.some.inj same).symm, owned, ?_⟩, acting, here⟩
    exact beq_iff_eq.mp matched.2

/-- The check for an earlier create with the key. -/
theorem safe_existing (keyed : String × String) (acting : Acting h w)
    (start : L.before (w.db .brewLog)) :
    (existingIdempotentResponse keyed.1 keyed.2).prog.Safe rely NoPromise
      (fun o v => (∀ r, o = some r → Replayed h keyed r v.db) ∧ Acting h v ∧
        L.before (v.db .brewLog)) (fun _ v => L.before (v.db .brewLog)) w := by
  refine safe_bind (Prog.Safe.mono (safe_getByIdempotencyKey keyed.1
    (F := fun db => L.before (db .brewLog)) L.before_moves acting start) ?_ fun _ _ here => here)
  rintro o v ⟨found, acting, here⟩
  cases o with
  | none => exact ⟨fun r none => absurd none (Option.some_ne_none r).symm, acting, here⟩
  | some d =>
      obtain ⟨s, stored, rfl, owned, key⟩ := found d rfl
      simp only
      split
      · exact here
      · rename_i same
        have hash : s.idempotencyRequestHash.getD "" = keyed.2 := not_not.mp same
        have is : IsShotOf h (some keyed) (s.sheetsId.getD "") s := ⟨owned, key, hash, rfl⟩
        let F (db : State) : Prop := L.before (db .brewLog) ∧
          ∃ s' ∈ db .brewLog, IsShotOf h (some keyed) (s.sheetsId.getD "") s'
        have moves : ∀ w db, rely w db → F w.db → F db := by
          rintro w db moved ⟨before, s₁, stored₁, is₁⟩
          obtain ⟨s₂, stored₂, same₂⟩ := L.unharmed w db moved .brewLog rfl s₁ stored₁
          exact ⟨L.before_moves w db moved before, s₂, stored₂, is₁.congr same₂⟩
        refine safe_bind (safe_bind (Prog.Safe.mono (safe_reads buildLookups.within moves acting
          ⟨here, s, stored, is⟩) ?_ fun _ _ here => here.1))
        rintro lookups v₁ ⟨acting, before, s₁, stored₁, is₁⟩
        refine safe_bind (safe_liftExcept (fun r answers => ?_) fun _ _ => before)
        refine ⟨fun r' same => ?_, acting, before⟩
        cases same
        exact ⟨s₁, stored₁, _, (shotJsonResponse_eq_ok answers).2, is₁⟩

/-! ### The insert -/

/-- A rollback leaves nothing pending. -/
theorem safe_rollback {F : State → Prop} (moves : ∀ w db, rely w db → F w.db → F db)
    {fails : Exc → World Table → Prop} (start : F w.db) :
    DbM.rollback.prog.Safe rely NoPromise (fun _ v => NothingWritten v ∧ F v.db) fails w := by
  refine safe_ask (s := .rollback) (fun _ _ => trivial) ?_ ?_
  · intro db found a v moved answered
    cases answered
    exact ⟨fun _ _ => rfl, moves w db moved start⟩
  · intro db found e v moved answered
    cases answered

theorem safe_setConfig {F : State → Prop} (moves : ∀ w db, rely w db → F w.db → F db)
    (untouched : NothingWritten w) (start : F w.db) :
    (setConfig h).prog.Safe rely NoPromise (fun _ v => Acting h v ∧ F v.db)
      (fun _ v => F v.db) w := by
  refine safe_ask (s := .setConfig h) (fun _ _ => trivial) ?_ ?_
  · intro db found a v moved answered
    obtain ⟨inOrder, performed⟩ :=
      World.exec_eq_ok (s := (.setConfig h : Statement)) nofun answered
    cases performed
    exact ⟨⟨untouched, fun _ => rfl⟩, moves w db moved start⟩
  · intro db found e v moved answered
    rw [stored_execOn answered rfl]
    exact moves w db moved start

/-- The insert of the shot was let in, and is not stored yet. -/
structure Inserted (s : BrewLog) (w : World Table) : Prop where
  pending : w.session.failed = false → w.session.pending .brewLog = [.ins s]
  ready : L.ready s (w.db .brewLog)

/-- A read that goes through leaves what is pending. -/
theorem pending_exec {s : Statement} (reads : IsRead s) {w : World Table}
    (inOrder : (World.exec s w).2.session.failed = false) : w.session.failed = false ∧
      (World.exec s w).2.session.pending = w.session.pending := by
  cases s with
  | currentSetting | select | join | column =>
      simp only [World.exec] at inOrder ⊢
      split
      · rename_i failed
        rw [if_pos failed] at inOrder
        exact absurd (failed.symm.trans inOrder) (by decide)
      · rename_i whole
        rw [if_neg whole] at inOrder
        split
        · rename_i fault
          rw [if_pos fault] at inOrder
          cases inOrder
        · exact ⟨Bool.eq_false_iff.mpr whole, rfl⟩
  | _ => exact reads.elim

/-- Reads between the insert and the commit. -/
theorem safe_inserted_reads {p : CodeM P α} (reads : p.prog.All IsRead) {s : BrewLog}
    (start : Inserted L s w) : p.prog.Safe rely NoPromise (fun _ v => Inserted L s v)
      (fun _ v => L.before (v.db .brewLog)) w := by
  refine Prog.Safe.mono (Prog.Safe.of_all (J := Inserted L s) reads
    (fun _ _ _ _ _ _ => trivial) ?_ start) (fun _ _ here => here) fun _ v here =>
      L.fails s _ here.ready
  intro st v hs here db found moved
  have same : World.execOn found st ⟨db, v.session⟩ = World.exec st ⟨db, v.session⟩ := by
    cases st <;> first | rfl | exact hs.elim
  have uncommitting : st ≠ .commit := fun committing => by
    rw [committing] at hs
    exact hs
  rw [same]
  refine ⟨fun inOrder => ?_, ?_⟩
  · obtain ⟨whole, kept⟩ := pending_exec hs inOrder
    rw [kept]
    exact here.pending whole
  · rw [World.exec_db uncommitting]
    exact L.ready_moves s v db moved here.ready

section Row

variable {env : Env} {body : BrewLogCreateBody} {shotId : String} {shotDate : Date}
  {idempotency : Option (String × String)} (keyed : ∀ x, idempotency = some x → x.1 ≠ "")

include keyed

/-- The insert finds no shot with the id of the new one. -/
theorem safe_insert {timeSec rating : Option Int} (acting : Acting h w)
    (start : L.before (w.db .brewLog)) :
    (DbM.insert .brewLog (SqlBrewLogRepo.make env (shotRow body shotId shotDate idempotency)
      (some h) timeSec rating)).prog.Safe rely NoPromise
        (fun s v => IsShotOf h idempotency shotId s ∧ s.sheetsId = some shotId ∧ Inserted L s v)
        (fun _ v => L.before (v.db .brewLog)) w := by
  refine safe_ask (s := .insert .brewLog _) (fun _ _ => trivial) ?_ ?_
  · intro db found s v moved answered
    obtain ⟨_, made, verdict, added, stored, _⟩ := World.execOn_insert answered
    obtain ⟨is, known⟩ := isShotOf_made keyed made
    have view : World.view ⟨db, w.session⟩ .brewLog = db .brewLog :=
      NothingWritten.view (w := ⟨db, w.session⟩) acting.untouched rfl
    have unknown : Unknown s (db .brewLog) := by
      intro r hr _ same
      obtain ⟨_, free, _, _⟩ := (World.refused_eq_none _).mp verdict
      have claimed : UniqueEntry.sheetsId .brewLog shotId ∈ Table.entries .brewLog s := by
        simp [Table.entries, known]
      have held : UniqueEntry.sheetsId .brewLog shotId ∈ Table.entries .brewLog r := by
        simp [Table.entries, same, known]
      have taken : World.taken ⟨db, w.session⟩ .brewLog
          (UniqueEntry.sheetsId .brewLog shotId) = true := by
        refine List.any_eq_true.mpr ⟨r, ?_, decide_eq_true held⟩
        rw [view]
        exact hr
      exact absurd ((free _ claimed).symm.trans taken) Bool.false_ne_true
    refine ⟨is, known, fun _ => ?_, ?_⟩
    · have empty : w.session.pending .brewLog = [] := acting.untouched .brewLog rfl
      rw [added]
      show Function.update w.session.pending .brewLog (w.session.pending .brewLog ++ [.ins s])
        .brewLog = [.ins s]
      rw [Function.update_self, empty]
      rfl
    · rw [stored]
      exact L.inserts s _ (L.before_moves w db moved start) unknown
  · intro db found e v moved answered
    rw [stored_execOn answered rfl]
    exact L.before_moves w db moved start

/-- The insert puts the shot into the transaction. -/
theorem safe_add (acting : Acting h w) (start : L.before (w.db .brewLog)) :
    (DualWriteBrewLogRepo.add env (shotRow body shotId shotDate idempotency) false).prog.Safe rely
      NoPromise (fun _ v => ∃ s, IsShotOf h idempotency shotId s ∧ s.sheetsId = some shotId ∧
        Inserted L s v) (fun _ v => L.before (v.db .brewLog)) w := by
  let row := shotRow body shotId shotDate idempotency
  have added : (SqlBrewLogRepo.add env row false).prog.Safe rely NoPromise
      (fun _ v => ∃ s, IsShotOf h idempotency shotId s ∧ s.sheetsId = some shotId ∧
        Inserted L s v) (fun _ v => L.before (v.db .brewLog)) w := by
    unfold SqlBrewLogRepo.add
    rw [shotRow_owner]
    refine safe_bind (safe_liftExcept (fun owner none => ?_) fun _ _ => start)
    have none : owner = .none := (Except.ok.inj none).symm
    subst none
    refine safe_bind (safe_liftExcept (fun timeSec _ => ?_) fun _ _ => start)
    refine safe_bind (safe_liftExcept (fun rating _ => ?_) fun _ _ => start)
    refine safe_bind (Prog.Safe.mono (safe_currentHouseholdId
      (F := fun db => L.before (db .brewLog)) L.before_moves acting start) ?_ fun _ _ here => here)
    rintro o v ⟨rfl, acting, here⟩
    refine safe_bind (Prog.Safe.mono (safe_insert L keyed acting here) ?_ fun _ _ here => here)
    rintro s v ⟨is, known, inserted⟩
    refine safe_bind (safe_bind (Prog.Safe.mono (safe_inserted_reads L
      (refresh .brewLog s).within inserted) ?_ fun _ _ here => here))
    exact fun _ v inserted => ⟨s, is, known, inserted⟩
  refine Prog.Safe.catchWith (Prog.Safe.mono added (fun _ _ here => here) ?_)
  intro e v here
  exact safe_bind (Prog.Safe.mono (safe_rollback (F := fun db => L.before (db .brewLog))
    L.before_moves here) (fun _ _ here => here.2) fun _ _ here => here)

/-- The shot of the request is stored, and it has nothing more to write. -/
def Stored (h : Uuid) (idempotency : Option (String × String)) (shotId : String)
    (w : World Table) : Prop :=
  ∃ s, IsShotOf h idempotency shotId s ∧ s.sheetsId = some shotId ∧
    L.after s (w.db .brewLog) ∧ w.session.pending .brewLog = []

omit keyed in
/-- The commit stores it, or fails and stores nothing. -/
theorem safe_commit {s : BrewLog} (is : IsShotOf h idempotency shotId s)
    (known : s.sheetsId = some shotId) (inserted : Inserted L s w) :
    DbM.commit.prog.Safe rely NoPromise (fun _ v => Stored L h idempotency shotId v)
      (fun _ v => L.before (v.db .brewLog)) w := by
  refine safe_ask (s := .commit) (fun _ _ => trivial) ?_ ?_
  · intro db found a v moved answered
    have here : World.exec (.commit : Statement) ⟨db, w.session⟩ = (.ok a, v) := answered
    rcases World.exec_commit (T := Table) ⟨db, w.session⟩ with
      ⟨inOrder, empty, stored, _⟩ | ⟨⟨e, error⟩, _, _⟩
    · rw [here] at empty stored
      refine ⟨s, is, known, ?_, congrFun empty .brewLog⟩
      have view : v.db .brewLog = db .brewLog ++ [s] := by
        rw [stored]
        show Change.applyAll (w.session.pending .brewLog) (db .brewLog) = _
        rw [inserted.pending inOrder]
        rfl
      rw [view]
      exact L.stores s _ (L.ready_moves s w db moved inserted.ready)
    · rw [here] at error
      cases error
  · intro db found e v moved answered
    have here : World.exec (.commit : Statement) ⟨db, w.session⟩ = (.error e, v) := answered
    rcases World.exec_commit (T := Table) ⟨db, w.session⟩ with ⟨_, _, _, ok⟩ | ⟨_, kept, _⟩
    · rw [here] at ok
      cases ok
    · rw [here] at kept
      rw [kept]
      exact L.fails s _ (L.ready_moves s w db moved inserted.ready)

/-- Both together. -/
theorem safe_insertShot (acting : Acting h w) (start : L.before (w.db .brewLog)) :
    (insertShot env (shotRow body shotId shotDate idempotency)).prog.Safe rely NoPromise
      (fun r v => r.1.shotId = shotId ∧ Stored L h idempotency shotId v)
      (fun _ v => L.before (v.db .brewLog)) w := by
  refine safe_bind (Prog.Safe.mono (safe_add L keyed acting start) ?_ fun _ _ here => here)
  rintro _ v ⟨s, is, known, inserted⟩
  refine safe_bind (Prog.Safe.mono (safe_inserted_reads L buildLookups.within inserted) ?_
    fun _ _ here => here)
  intro lookups v inserted
  refine safe_bind (Prog.Safe.mono (safe_commit L is known inserted) ?_ fun _ _ here => here)
  exact fun _ v stored => ⟨rfl, stored⟩

omit keyed in
/-- Behind a conflict there is the shot of another request, or an error. -/
theorem safe_afterConflict (e : Exc) (start : L.before (w.db .brewLog)) :
    (afterConflict env idempotency e : TenantM h Response).prog.Safe rely NoPromise
      (fun r v => (∃ x, idempotency = some x ∧ Replayed h x r v.db) ∧ L.before (v.db .brewLog))
      (fun _ v => L.before (v.db .brewLog)) w := by
  refine safe_bind (Prog.Safe.mono (safe_rollback (F := fun db => L.before (db .brewLog))
    L.before_moves start) ?_ fun _ _ here => here)
  rintro _ v ⟨untouched, here⟩
  cases idempotency with
  | none => exact here
  | some x =>
      by_cases readable : env.expiredReadable = true
      · simp only [readable, if_true]
        refine safe_bind (Prog.Safe.mono (safe_setConfig
          (F := fun db => L.before (db .brewLog)) L.before_moves untouched here) ?_
            fun _ _ here => here)
        rintro _ v ⟨acting, here⟩
        refine safe_bind (Prog.Safe.mono (safe_existing L x acting here) ?_ fun _ _ here => here)
        rintro o v ⟨found, _, here⟩
        exact safe_orRaise (fun r same => ⟨⟨x, rfl, found r same⟩, here⟩) fun _ => here
      · simp only [readable]
        exact here

/-- Either the shot is stored, or the one under its key is handed out. -/
theorem safe_storeShot (acting : Acting h w) (start : L.before (w.db .brewLog)) :
    (storeShot env (shotRow body shotId shotDate idempotency) idempotency :
      TenantM h _).prog.Safe rely NoPromise (fun stored v => match stored with
        | .ok created => created.1.shotId = shotId ∧ Stored L h idempotency shotId v
        | .error r => (∃ x, idempotency = some x ∧ Replayed h x r v.db) ∧ L.before (v.db .brewLog))
      (fun _ v => L.before (v.db .brewLog)) w := by
  refine Prog.Safe.catchWith (safe_bind (Prog.Safe.mono (safe_insertShot L keyed acting start)
    (fun _ _ here => here) ?_))
  intro e v here
  by_cases conflict : e = .db .integrity
  · simp only [conflict, if_true]
    exact safe_bind (Prog.Safe.mono (safe_afterConflict L _ here) (fun _ _ here => here)
      fun _ _ here => here)
  · simp only [conflict, if_false]
    exact safe_bind (Prog.Safe.mono (safe_rollback (F := fun db => L.before (db .brewLog))
      L.before_moves here) (fun _ _ here => here.2) fun _ _ here => here)

end Row

/-! ### After the insert -/

/-- The statements of a comment on the shot with this id. -/
inductive OnlyComments (shotId : String) : Statement → Prop where
  | read {s : Statement} (reads : IsRead s) : OnlyComments shotId s
  | commit : OnlyComments shotId .commit
  | rollback : OnlyComments shotId .rollback
  | setConfig (h : Uuid) : OnlyComments shotId (.setConfig h)
  | feedback (owner : Uuid) {set : BrewLog → Except StmtError BrewLog}
      (kept : ∀ r r', set r = .ok r' → r'.id = r.id ∧ identity .brewLog r' = identity .brewLog r) :
      OnlyComments shotId (.update .brewLog (SqlBrewLogRepo.isShot owner shotId) set)

theorem OnlyComments.orderly {shotId : String} {s : Statement} (only : OnlyComments shotId s) :
    s.Orderly := by
  cases only with
  | read reads => exact reads.elsewhere.1
  | feedback owner kept => exact fun r r' new => (kept r r' new).1
  | _ => trivial

theorem commentsOn_rewritten {shotId : String} {owner : Uuid}
    {set : BrewLog → Except StmtError BrewLog} {rows : List BrewLog} {q : BrewLog → Bool}
    (kept : ∀ r r', set r = .ok r' → r'.id = r.id ∧ identity .brewLog r' = identity .brewLog r) :
    CommentsOn shotId (.upd (rewritten set
      (rows.filter fun r => SqlBrewLogRepo.isShot owner shotId r && q r))) := by
  intro pair hpair
  obtain ⟨r, hr, rfl⟩ := List.mem_map.mp hpair
  obtain ⟨_, matched⟩ := List.mem_filter.mp hr
  rw [Bool.and_eq_true] at matched
  have isShot := matched.1
  simp only [SqlBrewLogRepo.isShot, Bool.and_eq_true, beq_iff_eq] at isShot
  refine ⟨isShot.2, ?_⟩
  cases new : set r with
  | error e => rfl
  | ok r' => exact (kept r r' new).2

/-- A comment adds changes that comment. -/
theorem OnlyComments.pending {shotId : String} {s : Statement} (only : OnlyComments shotId s)
    (uncommitting : s ≠ .commit) (found : List Uuid) (w : World Table) :
    (World.execOn found s w).2.session.pending .brewLog = w.session.pending .brewLog ∨
      (World.execOn found s w).2.session.pending .brewLog = [] ∨
      ∃ c, CommentsOn shotId c ∧ (World.execOn found s w).2.session.pending .brewLog =
        w.session.pending .brewLog ++ [c] := by
  have still : s.narrow found ≠ .commit := fun eq => uncommitting (Stmt.narrow_eq_commit.mp eq)
  rw [World.execOn_world]
  cases World.exec_leaves still (only.orderly.narrow found) (w := w) with
  | kept same => exact .inl (congrFun same .brewLog)
  | dropped empty => exact .inr (.inl (congrFun empty .brewLog))
  | wrote t c _ change _ added =>
      refine .inr (.inr ?_)
      cases only with
      | read reads => cases s <;> first | exact reads.elim | cases change
      | @feedback owner set kept =>
          cases change with
          | update valid =>
              let rows := (w.visible .brewLog).filter fun r =>
                SqlBrewLogRepo.isShot owner shotId r && decide (Schema.key Table.brewLog r ∈ found)
              refine ⟨.upd (rewritten set rows), commentsOn_rewritten kept, ?_⟩
              rw [added]
              show Function.update w.session.pending .brewLog
                (w.session.pending .brewLog ++ [.upd (rewritten set rows)]) .brewLog = _
              rw [Function.update_self]
      | _ => cases change

/-- The shot is stored, and what is pending comments on it. -/
structure Commenting (shotId : String) (s : BrewLog) (w : World Table) : Prop where
  after : L.after s (w.db .brewLog)
  pending : ∀ c ∈ w.session.pending .brewLog, CommentsOn shotId c

/-- Comments on the shot leave it in the ledger. -/
theorem Ledger.after_applyAll {shotId : String} {s : BrewLog} (known : s.sheetsId = some shotId)
    {cs : List (Change BrewLog)} (comments : ∀ c ∈ cs, CommentsOn shotId c) {rows : List BrewLog}
    (after : L.after s rows) : L.after s (Change.applyAll cs rows) := by
  induction cs generalizing rows with
  | nil => exact after
  | cons c cs ih =>
      obtain ⟨first, rest⟩ := List.forall_mem_cons.mp comments
      exact ih rest (L.comments s shotId rows c known first after)

/-- So does every statement that comes after the create. -/
theorem Commenting.exec {shotId : String} {s : BrewLog} (known : s.sheetsId = some shotId)
    {st : Statement} (only : OnlyComments shotId st) (found : List Uuid) {w : World Table}
    (here : Commenting L shotId s w) : Commenting L shotId s (World.execOn found st w).2 := by
  by_cases committing : st = .commit
  · subst committing
    show Commenting L shotId s (World.exec .commit w).2
    rcases World.exec_commit w with ⟨_, empty, db, _⟩ | ⟨_, db, empty | same⟩
    · refine ⟨?_, ?_⟩
      · rw [db]
        exact L.after_applyAll known here.pending here.after
      · rw [empty]
        exact fun c none => absurd none List.not_mem_nil
    · refine ⟨db ▸ here.after, ?_⟩
      rw [empty]
      exact fun c none => absurd none List.not_mem_nil
    · exact ⟨db ▸ here.after, same ▸ here.pending⟩
  · refine ⟨?_, ?_⟩
    · have same : (World.execOn found st w).2.db = w.db :=
        stored_execOn (r := (World.execOn found st w).1) rfl (isCommit_eq_false committing)
      rw [same]
      exact here.after
    · rcases only.pending committing found w with same | empty | ⟨c, comments, added⟩
      · rw [same]
        exact here.pending
      · rw [empty]
        exact fun c none => absurd none List.not_mem_nil
      · rw [added]
        intro d hd
        rcases List.mem_append.mp hd with old | new
        · exact here.pending d old
        · rw [List.mem_singleton.mp new]
          exact comments

theorem safe_feedbackAfterCreate {env : Env} {shotId : String} {extra : ExtraContext} {s : BrewLog}
    (known : s.sheetsId = some shotId) (start : Commenting L shotId s w)
    {fails : Exc → World Table → Prop} :
    (feedbackAfterCreate env shotId extra : TenantM h Unit).prog.Safe rely NoPromise
      (fun _ v => L.after s (v.db .brewLog)) fails w := by
  have only : (do
      setConfig h
      discard (getAiFeedback env shotId (some extra) false false) :
        TenantM h Unit).prog.All (OnlyComments shotId) := by
    refine all_bind (all_ask (.setConfig h)) fun _ => all_discard (Comments.all_getAiFeedback
      ⟨fun _ => .read, .commit, .rollback, fun owner _ kept => .feedback owner kept⟩ env _ _ _)
  have followed : (do
      setConfig h
      discard (getAiFeedback env shotId (some extra) false false) :
        TenantM h Unit).prog.Safe rely NoPromise (fun _ => Commenting L shotId s)
        (fun _ => Commenting L shotId s) w :=
    Prog.Safe.of_all only (fun _ _ _ _ _ _ => trivial) (fun st v hs here db found moved =>
      Commenting.exec L known hs found
        (w := ⟨db, v.session⟩) ⟨L.after_moves s v db moved here.after, here.pending⟩) start
  refine Prog.Safe.catchWith (Prog.Safe.mono followed (fun _ v here => here.after) ?_)
  intro e v here
  cases e with
  | timeout => exact here.after
  | _ =>
      exact Prog.Safe.mono (safe_rollback (F := fun db => L.after s (db .brewLog))
        (L.after_moves s) here.after) (fun _ _ here => here.2) fun _ _ here => here

/-! ### The whole request -/

/-- The key and the hash that a create goes by. -/
def idempotencyOf (env : Env) (body : BrewLogCreateBody) : Option (String × String) :=
  match shotDateOf env body with
  | .error _ => none
  | .ok shotDate => (normaliseIdempotencyKey body.idempotencyKey).map fun key =>
      (key, idempotencyRequestHash env body shotDate)

/-- What a create answers: a new shot that is stored, or the shot that was stored under
its key. -/
inductive AnswersShot (h : Uuid) (idempotency : Option (String × String)) (r : Response)
    (db : State) : Prop where
  | created {s : BrewLog} {out : BrewLogEntryOut} (answer : r = ⟨201, .shot out⟩)
      (after : L.after s (db .brewLog)) (is : IsShotOf h idempotency out.shotId s)
  | replayed {x : String × String} (keyed : idempotency = some x) (replayed : Replayed h x r db)
      (before : L.before (db .brewLog))

/-- Whatever the create answers with, the ledger shows it. -/
theorem safe_createShot {env : Env} {body : BrewLogCreateBody} {shotDate : Date}
    {idempotency : Option (String × String)} (keyed : ∀ x, idempotency = some x → x.1 ≠ "")
    (acting : Acting h w) (start : L.before (w.db .brewLog)) :
    (createShot env body shotDate idempotency : TenantM h Response).prog.Safe rely NoPromise
      (fun r v => AnswersShot L h idempotency r v.db) (fun _ v => L.before (v.db .brewLog)) w := by
  refine safe_bind (Prog.Safe.mono (safe_reads (F := fun db => L.before (db .brewLog))
    SqlBrewLogRepo.listExistingIds.within L.before_moves acting start) ?_ fun _ _ here => here)
  rintro ids v ⟨acting, here⟩
  refine safe_bind (safe_liftExcept (fun shotId _ => ?_) fun _ _ => here)
  refine safe_bind (Prog.Safe.mono (safe_storeShot L keyed acting here) ?_ fun _ _ here => here)
  intro stored v said
  cases stored with
  | error r =>
      obtain ⟨⟨x, same, replayed⟩, before⟩ := said
      exact .replayed same replayed before
  | ok created =>
      obtain ⟨named, s, is, known, after, empty⟩ := said
      refine safe_bind (Prog.Safe.mono (safe_feedbackAfterCreate L known
        ⟨after, fun c hc => absurd (empty ▸ hc) List.not_mem_nil⟩) ?_ fun _ _ here => here)
      exact fun _ v after => .created rfl after (named ▸ is)

theorem normaliseIdempotencyKey_ne {key : Option String} {k : String}
    (normalised : normaliseIdempotencyKey key = some k) : k ≠ "" := by
  unfold normaliseIdempotencyKey nonEmpty at normalised
  obtain ⟨raw, _, here⟩ := Option.bind_eq_some_iff.mp normalised
  split at here
  · cases here
  · rename_i given
    exact Option.some.inj here ▸ given

/-- The handler behind its checks. -/
theorem safe_apiBrewLogCreate (env : Env) (body : BrewLogCreateBody) (acting : Acting h w)
    (start : L.before (w.db .brewLog)) :
    (apiBrewLogCreate env body : TenantM h Response).prog.Safe rely NoPromise
      (fun r v => AnswersShot L h (idempotencyOf env body) r v.db)
      (fun _ v => L.before (v.db .brewLog)) w := by
  refine safe_bind (safe_liftExcept (fun shotDate dated => ?_) fun _ _ => start)
  have goes_by : idempotencyOf env body = (normaliseIdempotencyKey body.idempotencyKey).map
      fun key => (key, idempotencyRequestHash env body shotDate) := by
    rw [idempotencyOf, dated]
  cases normalised : normaliseIdempotencyKey body.idempotencyKey with
  | none =>
      rw [normalised] at goes_by
      rw [goes_by]
      exact safe_createShot L (fun x none => absurd none (Option.some_ne_none x).symm) acting start
  | some key =>
      rw [normalised] at goes_by
      rw [goes_by]
      refine safe_bind (Prog.Safe.mono (safe_existing L
        (key, idempotencyRequestHash env body shotDate) acting start) ?_ fun _ _ here => here)
      rintro existing v ⟨found, acting, here⟩
      cases existing with
      | some r => exact .replayed rfl (found r rfl) here
      | none =>
          refine safe_createShot L (fun x same => ?_) acting here
          rw [← Option.some.inj same]
          exact normaliseIdempotencyKey_ne normalised

/-! ### The membership of the caller -/

/-- A fact about the tables that are kept. -/
structure AboutKept (rely : World Table → State → Prop) (F : State → Prop) : Prop where
  moves : ∀ w db, rely w db → F w.db → F db
  only : ∀ db db' : State, (∀ t, keptTable t = true → db' t = db t) → F db → F db'

theorem Ledger.aboutKept : AboutKept rely fun db => L.before (db .brewLog) where
  moves := L.before_moves
  only db db' same here := by
    rw [same .brewLog rfl]
    exact here

/-- A member stays one. -/
theorem Ledger.aboutMember (m : HouseholdMember) :
    AboutKept rely fun db => m ∈ db .householdMembers ∧ L.before (db .brewLog) where
  moves w db moved := by
    rintro ⟨member, here⟩
    obtain ⟨m', there, same⟩ := L.unharmed w db moved .householdMembers rfl m member
    cases same
    exact ⟨there, L.before_moves w db moved here⟩
  only db db' same := by
    rintro ⟨member, here⟩
    rw [same .brewLog rfl, same .householdMembers rfl]
    exact ⟨member, here⟩

theorem safe_elsewhere {p : CodeM P α} (within : p.prog.All Elsewhere) {F : State → Prop}
    (about : AboutKept rely F) (untouched : NothingWritten w) (start : F w.db) :
    p.prog.Safe rely NoPromise (fun _ v => NothingWritten v ∧ F v.db) (fun _ v => F v.db) w := by
  refine Prog.Safe.mono (Prog.Safe.of_all (J := fun v => NothingWritten v ∧ F v.db) within
    (fun _ _ _ _ _ _ => trivial) ?_ ⟨untouched, start⟩) (fun _ _ here => here) fun _ _ here => here.2
  rintro s v hs ⟨untouched, here⟩ db found moved
  obtain ⟨still, same⟩ := exec_elsewhere hs found (w := ⟨db, v.session⟩) untouched
  exact ⟨still, about.only db _ same (about.moves v db moved here)⟩

theorem safe_member (p : HouseholdMember → Bool) {F : State → Prop} (about : AboutKept rely F)
    (untouched : NothingWritten w) (start : F w.db) :
    (lookup .householdMembers p rfl).prog.Safe rely NoPromise
      (fun rows v => (∀ m ∈ rows, m ∈ v.db .householdMembers ∧ p m = true) ∧ NothingWritten v ∧ F v.db)
      (fun _ v => F v.db) w := by
  refine safe_ask (s := .select .householdMembers p) (fun _ _ => trivial) ?_ ?_
  · intro db found rows v moved answered
    obtain ⟨_, selected, kept, stored, _⟩ := World.execOn_select answered
    have same : v.db = db := stored
    refine ⟨fun m hm => ?_, fun t ht => (congrFun kept t).trans (untouched t ht), ?_⟩
    · rw [selected] at hm
      obtain ⟨seen, matched⟩ := List.mem_filter.mp hm
      have here := World.mem_view_of_mem_visible seen
      rw [NothingWritten.view (w := ⟨db, w.session⟩) untouched rfl] at here
      rw [same]
      exact ⟨here, matched⟩
    · rw [same]
      exact about.moves w db moved start
  · intro db found e v moved answered
    rw [stored_execOn answered rfl]
    exact about.moves w db moved start

/-- The memberships of a user, with their households. -/
abbrev membershipRows (userId : Uuid) : Statement :=
  .join .householdMembers .households (fun m r => r.id == m.householdId) fun m => m.userId == userId

theorem safe_memberships (env : Env) (userId : Uuid) {F : State → Prop} (about : AboutKept rely F)
    (untouched : NothingWritten w) (start : F w.db) :
    (HouseholdRepo.getMembershipsForUser env userId).prog.Safe rely NoPromise
      (fun ms v => (∀ x ∈ ms, x.member ∈ v.db .householdMembers ∧ x.member.userId = userId) ∧
        NothingWritten v ∧ F v.db) (fun _ v => F v.db) w := by
  have joined : (ask (membershipRows userId) trivial : AppM (Ans (membershipRows userId))).prog.Safe
      rely NoPromise (fun (rows : List (HouseholdMember × Option Household)) v =>
        (∀ x ∈ rows, x.1 ∈ v.db .householdMembers ∧ x.1.userId = userId) ∧ NothingWritten v ∧ F v.db)
      (fun _ v => F v.db) w := by
    refine safe_ask (fun _ _ => trivial) ?_ ?_
    · intro db found rows v moved answered
      have here : World.exec (membershipRows userId) ⟨db, w.session⟩ = (.ok rows, v) := answered
      have same : v.db = db := stored_execOn answered rfl
      refine ⟨fun x hx => ?_, ?_, ?_⟩
      · obtain ⟨seen, matched, _⟩ := World.mem_of_join (congrArg Prod.fst here) hx
        have member := World.mem_view_of_mem_visible seen
        rw [NothingWritten.view (w := ⟨db, w.session⟩) untouched rfl] at member
        rw [same]
        exact ⟨member, beq_iff_eq.mp matched⟩
      · have still := (exec_elsewhere (s := membershipRows userId) ⟨trivial, trivial⟩ found
          (w := ⟨db, w.session⟩) untouched).1
        have there : (World.execOn found (membershipRows userId) ⟨db, w.session⟩).2 = v :=
          congrArg Prod.snd answered
        exact there ▸ still
      · rw [same]
        exact about.moves w db moved start
    · intro db found e v moved answered
      rw [stored_execOn answered rfl]
      exact about.moves w db moved start
  refine safe_bind (Prog.Safe.mono joined ?_ fun _ _ here => here)
  rintro rows v ⟨found, untouched, here⟩
  refine ⟨fun x hx => ?_, untouched, here⟩
  obtain ⟨row, hrow, made⟩ := List.mem_filterMap.mp ((List.mergeSort_perm _ _).subset hx)
  obtain ⟨household, _, same⟩ := Option.map_eq_some_iff.mp made
  rw [← same]
  exact found row hrow

/-- Resolving the caller touches no shot. -/
theorem safe_fallbackMembership (env : Env) (user : User) (untouched : NothingWritten w)
    (start : L.before (w.db .brewLog)) :
    (fallbackMembership env user).prog.Safe rely NoPromise
      (fun m v => m.userId = user.id ∧ NothingWritten v ∧
        m ∈ v.db .householdMembers ∧ L.before (v.db .brewLog))
      (fun _ v => L.before (v.db .brewLog)) w := by
  refine safe_bind (Prog.Safe.mono (safe_memberships env user.id L.aboutKept untouched start) ?_
    fun _ _ here => here)
  rintro ms v ⟨found, untouched, here⟩
  refine safe_bind (safe_orRaise (fun x first => ?_) fun _ => here)
  obtain ⟨member, own⟩ := found x (List.mem_of_head? first)
  have active : (UserRepo.setActiveHousehold user.id x.member.householdId).prog.All Elsewhere := by
    refine all_bind (all_discard (all_ask ⟨fun u u' new => ?_, rfl⟩)) fun _ =>
      all_ask ⟨trivial, trivial⟩
    cases new
    rfl
  refine safe_bind (Prog.Safe.mono (safe_elsewhere active (L.aboutMember x.member) untouched
    ⟨member, here⟩) ?_ fun _ _ here => here.2)
  rintro _ v ⟨untouched, member, here⟩
  exact ⟨own, untouched, member, here⟩

theorem safe_resolveMembershipForUser (env : Env) (user : User) (untouched : NothingWritten w)
    (start : L.before (w.db .brewLog)) :
    (resolveMembershipForUser env user).prog.Safe rely NoPromise
      (fun m v => m.userId = user.id ∧ NothingWritten v ∧
        m ∈ v.db .householdMembers ∧ L.before (v.db .brewLog))
      (fun _ v => L.before (v.db .brewLog)) w := by
  unfold resolveMembershipForUser
  cases user.activeHouseholdId with
  | none => exact safe_fallbackMembership L env user untouched start
  | some active =>
      have cleared {v : World Table} (untouched : NothingWritten v) (here : L.before (v.db .brewLog)) :
          (do
            UserRepo.clearActiveHousehold user.id
            fallbackMembership env user : UserM HouseholdMember).prog.Safe rely NoPromise
              (fun m v => m.userId = user.id ∧ NothingWritten v ∧
                m ∈ v.db .householdMembers ∧ L.before (v.db .brewLog))
              (fun _ v => L.before (v.db .brewLog)) v := by
        have clear : (UserRepo.clearActiveHousehold user.id).prog.All Elsewhere := by
          refine all_bind (all_discard (all_ask ⟨fun u u' new => ?_, rfl⟩)) fun _ =>
            all_ask ⟨trivial, trivial⟩
          cases new
          rfl
        refine safe_bind (Prog.Safe.mono (safe_elsewhere clear L.aboutKept untouched here) ?_
          fun _ _ here => here)
        rintro _ v ⟨untouched, here⟩
        exact safe_fallbackMembership L env user untouched here
      refine safe_bind (safe_bind (Prog.Safe.mono (safe_member _ L.aboutKept untouched start) ?_
        fun _ _ here => here))
      rintro rows v ⟨found, untouched, here⟩
      have household : ((HouseholdRepo.getById active : LookupM _) :
          UserM (Option Household)).prog.All Elsewhere :=
        (HouseholdRepo.getById active).within.mono fun s h => h.1.elsewhere
      refine safe_oneOrNone (fun _ => ?_) (fun m one => ?_) here
      · refine safe_bind (Prog.Safe.mono (safe_elsewhere household L.aboutKept untouched here) ?_
          fun _ _ here => here)
        rintro _ v ⟨untouched, here⟩
        exact cleared untouched here
      · subst one
        obtain ⟨member, own⟩ := found m List.mem_cons_self
        refine safe_bind (Prog.Safe.mono (safe_elsewhere household (L.aboutMember m) untouched
          ⟨member, here⟩) ?_ fun _ _ here => here.2)
        rintro found v ⟨untouched, member, here⟩
        cases found with
        | none => exact cleared untouched here
        | some r =>
            simp only [HouseholdRepo.isMember, Bool.and_eq_true, beq_iff_eq] at own
            exact ⟨own.2, untouched, member, here⟩

/-- The membership that is resolved is the caller's. -/
theorem safe_callerMembership (env : Env) (caller : Option Uuid) (untouched : NothingWritten w)
    (start : L.before (w.db .brewLog)) :
    (callerMembership env caller).prog.Safe rely NoPromise
      (fun m v => some m.userId = caller ∧ NothingWritten v ∧
        m ∈ v.db .householdMembers ∧ L.before (v.db .brewLog))
      (fun _ v => L.before (v.db .brewLog)) w := by
  have known : ((currentUser caller : LookupM User) : UserM User).prog.Safe rely NoPromise
      (fun user v => some user.id = caller ∧ NothingWritten v ∧ L.before (v.db .brewLog))
      (fun _ v => L.before (v.db .brewLog)) w := by
    refine safe_bind (safe_orRaise (fun userId same => ?_) fun _ => start)
    subst same
    have selected : (ask (.select .users fun u => u.id == userId) trivial :
        AppM (List User)).prog.Safe rely NoPromise
        (fun (rows : List User) v => (∀ u ∈ rows, u.id = userId) ∧ NothingWritten v ∧
          L.before (v.db .brewLog))
        (fun _ v => L.before (v.db .brewLog)) w := by
      refine safe_ask (fun _ _ => trivial) ?_ ?_
      · intro db found rows v moved answered
        obtain ⟨_, selected, kept, stored, _⟩ := World.execOn_select answered
        refine ⟨fun u hu => ?_, fun t ht => (congrFun kept t).trans (untouched t ht), ?_⟩
        · rw [selected] at hu
          exact beq_iff_eq.mp (List.mem_filter.mp hu).2
        · rw [stored]
          exact L.before_moves w db moved start
      · intro db found e v moved answered
        rw [stored_execOn answered rfl]
        exact L.before_moves w db moved start
    refine safe_bind (safe_bind (Prog.Safe.mono selected ?_ fun _ _ here => here))
    rintro rows v ⟨found, untouched, here⟩
    refine safe_oneOrNone (fun _ => here) (fun u one => ?_) here
    subst one
    exact ⟨congrArg some (found u List.mem_cons_self), untouched, here⟩
  refine safe_bind (Prog.Safe.mono known ?_ fun _ _ here => here)
  rintro user v ⟨rfl, untouched, here⟩
  refine Prog.Safe.mono (safe_resolveMembershipForUser L env user untouched here) ?_
    fun _ _ here => here
  rintro m v ⟨own, untouched, member, here⟩
  exact ⟨congrArg some own, untouched, member, here⟩

include L in
/-- A member stays one while a program spares shots and memberships. -/
theorem safe_member_stays {p : CodeM P α} (within : p.prog.All SparesShots) {m : HouseholdMember}
    (untouched : NothingWritten w) (member : m ∈ w.db .householdMembers) :
    p.prog.Safe rely NoPromise (fun _ v => m ∈ v.db .householdMembers) (fun _ _ => True) w := by
  have stays {db db' : State} (retained : Retained (T := Table) keptTable identity db db')
      (member : m ∈ db .householdMembers) : m ∈ db' .householdMembers := by
    obtain ⟨m', there, same⟩ := retained .householdMembers rfl m member
    cases same
    exact there
  refine Prog.Safe.mono (Prog.Safe.of_retaining L.unharmed
    (fun _ _ member retained => stays retained member) within member fun t ht c hc => ?_)
    (fun _ _ here => here) fun _ _ _ => trivial
  rw [untouched t ht] at hc
  exact absurd hc List.not_mem_nil

/-- A create answers for a household of its caller. -/
def AnswersCaller (caller : Option Uuid) (idempotency : Option (String × String)) (r : Response)
    (db : State) : Prop :=
  ∃ m ∈ db .householdMembers, some m.userId = caller ∧ AnswersShot L m.householdId idempotency r db

/-- `POST /api/brew-log`, from its first statement to its response. -/
theorem safe_brewLogCreate (env : Env) (archive : List String) (caller : Option Uuid)
    (body : BrewLogCreateBody) (untouched : NothingWritten w) (start : L.before (w.db .brewLog)) :
    ((Request.member caller (.brewLogCreate body)).program env archive).prog.Safe rely NoPromise
      (fun r v => AnswersCaller L caller (idempotencyOf env body) r v.db)
      (fun _ v => L.before (v.db .brewLog)) w := by
  refine safe_bind (Prog.Safe.mono (safe_callerMembership L env caller untouched start) ?_
    fun _ _ here => here)
  rintro m v ⟨own, untouched, member, here⟩
  have answered : (inContext m.householdId (apiBrewLogCreate env body)).prog.Safe rely NoPromise
      (fun r v => AnswersShot L m.householdId (idempotencyOf env body) r v.db)
      (fun _ v => L.before (v.db .brewLog)) v := by
    refine safe_bind (Prog.Safe.mono (safe_setConfig (F := fun db => L.before (db .brewLog))
      L.before_moves untouched here) ?_ fun _ _ here => here)
    rintro _ v ⟨acting, here⟩
    exact safe_apiBrewLogCreate L env body acting here
  have stays : (inContext m.householdId (apiBrewLogCreate env body)).prog.Safe rely NoPromise
      (fun _ v => m ∈ v.db .householdMembers) (fun _ _ => True) v :=
    safe_member_stays L (all_bind (sparesShots_setConfig m.householdId) fun _ =>
      sparesShots_apiBrewLogCreate env body) untouched member
  exact Prog.Safe.mono (answered.and stays) (fun r v here => ⟨m, here.2, own, here.1⟩)
    fun _ _ here => here.1

end Outline

end EspressoLogs
