import EspressoLogs.Shots.Pages
import EspressoLogs.Shots.ExactlyOnce

/-!
What a create answers when its key is taken.

A create whose idempotency key is stored for its household is a read: it answers what
`GET` of the stored shot answers when the hash of the request is the stored one, and is
refused otherwise. The hash is that of the body with its date, which is today's when the
body names none, so a retry replays the shot as long as its date is still the same.

The replay is a `JSONResponse`, where `GET` goes through its response model. The two differ
for a shot with a number that is not finite: the model writes null, `JSONResponse` raises.
A dose that was sent as NaN is stored as such, so its create cannot be replayed.
-/

namespace EspressoLogs

open Lib Py

variable {h : Uuid} {w : World Table} {s : BrewLog}

/-! ### The numbers of a stored shot -/

/-- The measured numbers of the shot are such as JSON has a text for. A column of decimals
can hold NaN; an integer would have to be too large for a float, which 32 bits are not. -/
def BrewLog.isFinite (s : BrewLog) : Bool :=
  decide (s.doseG ≠ some .nan) && decide (s.yieldG ≠ some .nan) &&
    s.timeSec.all fun i : Int => (PyFloat.ofRat i).isFinite

/-- A column of decimals is shown as it is stored. -/
theorem floatOrNone_tenths (x : Option Tenths) :
    floatOrNone (textOr (x.map Tenths.repr)) = x.map Tenths.toFloat := by
  cases x with
  | none => decide
  | some x => exact x.floatOf_repr

theorem floatOrNone_integer (x : Option Int) :
    floatOrNone (textOr (x.map toString)) = x.map fun i => .ofRat i := by
  cases x with
  | none => decide
  | some i => exact floatOf_toString i

theorem all_isFinite_tenths (x : Option Tenths) :
    (x.all fun t => t.toFloat.isFinite) = decide (x ≠ some .nan) := by
  rcases x with _ | _ | _ <;> rfl

/-- A shot is shown with finite numbers when it is stored with such. -/
theorem isFinite_shotToOut (s : BrewLog) (names : Names) :
    (shotToOut (SqlBrewLogRepo.toDict s) names).isFinite = s.isFinite := by
  have dose : (SqlBrewLogRepo.toDict s).get "Dose_In_g" =
      textOr (s.doseG.map Tenths.repr) := rfl
  have yield_out : (SqlBrewLogRepo.toDict s).get "Yield_Out_g" =
      textOr (s.yieldG.map Tenths.repr) := rfl
  have time : (SqlBrewLogRepo.toDict s).get "Time_Sec" =
      textOr (s.timeSec.map toString) := rfl
  unfold BrewLogEntryOut.isFinite BrewLog.isFinite shotToOut
  simp only [dose, yield_out, time, floatOrNone_tenths, floatOrNone_integer, List.all_cons,
    List.all_nil, Option.all_map, all_isFinite_tenths, Bool.and_true, Bool.and_assoc]

/-! ### Where the stored shot is found -/

/-- The only shot that the session sees with a property that no other stored one has. -/
theorem run_selectShot (live : w.Live) (context : w.session.context = some h)
    (keyed : Table.Keyed .brewLog (w.view .brewLog)) (here : s ∈ w.view .brewLog)
    (owned : s.householdId = some h) {p : BrewLog → Bool} (matched : p s = true)
    (only : ∀ r ∈ w.view .brewLog, r.householdId = some h → p r = true → r = s) :
    (select .brewLog p).run w = (.ok [s], w) := by
  have distinct : (w.view .brewLog).Nodup := List.Nodup.of_map _ keyed
  have found : (w.visible .brewLog).filter p = [s] := by
    rw [visible_eq_own context rfl]
    refine filter_eq_singleton (distinct.filter _) (mem_own.mpr ⟨here, owned⟩) matched ?_
    intro r hr also
    obtain ⟨stored, own⟩ := mem_own.mp hr
    exact only r stored own also
  rw [run_select live, found]

/-- The shot as it is shown. -/
structure Shown (w : World Table) (s : BrewLog) (out : BrewLogEntryOut) : Prop where
  run : (renderShotResponse (SqlBrewLogRepo.toDict s)).run w = (.ok out, w)
  shotId : out.shotId = s.sheetsId.getD ""
  finite : out.isFinite = s.isFinite

theorem exists_shown (live : w.Live) (s : BrewLog) : ∃ out, Shown w s out := by
  obtain ⟨lookups, looked⟩ := run_buildLookups live
  exact ⟨_, CodeM.run_bind_still _ looked rfl, rfl, isFinite_shotToOut s _⟩

/-- What a request with the key of the stored shot comes to, from what `GET` of the shot
comes to. -/
def replayOf (s : BrewLog) (hash : String) (got : Except Exc Response) : Except Exc Response :=
  if s.idempotencyRequestHash.getD "" ≠ hash then .error keyReused
  else if s.isFinite then got else .error .valueError

/-! ### The endpoints -/

/-- The session reads the committed rows, for the household, and finds the shot there. -/
structure Finds (h : Uuid) (s : BrewLog) (w : World Table) : Prop where
  live : w.Live
  context : w.session.context = some h
  keyed : Table.Keyed .brewLog (w.view .brewLog)
  distinct : NoShare (T := Table) .brewLog (w.view .brewLog)
  here : s ∈ w.view .brewLog
  owned : s.householdId = some h

namespace Finds

variable (finds : Finds h s w)

include finds

theorem same {r : BrewLog} (hr : r ∈ w.view .brewLog) {e : UniqueEntry}
    (held : e ∈ Table.entries .brewLog r) (also : e ∈ Table.entries .brewLog s) : r = s :=
  List.inj_on_of_nodup_map finds.keyed hr finds.here
    (finds.distinct r hr s finds.here e held also)

theorem run_currentHouseholdId : currentHouseholdId.run w = (.ok (some h), w) := by
  rw [← finds.context]
  exact run_currentSetting finds.live

/-- `GET` of the shot. -/
theorem run_detail {shotId : String} (named : s.sheetsId = some shotId) {out : BrewLogEntryOut}
    (shown : Shown w s out) :
    (apiBrewLogDetail shotId).run w = (.ok ⟨200, .shot out⟩, w) := by
  have selected : (select .brewLog (SqlBrewLogRepo.isShot h shotId)).run w = (.ok [s], w) := by
    refine run_selectShot finds.live finds.context finds.keyed finds.here finds.owned ?_ ?_
    · simp [SqlBrewLogRepo.isShot, finds.owned, named]
    · intro r hr _ matched
      simp only [SqlBrewLogRepo.isShot, Bool.and_eq_true, beq_iff_eq] at matched
      refine finds.same hr (e := .sheetsId .brewLog shotId) ?_ ?_
      · simp [Table.entries, matched.2]
      · simp [Table.entries, named]
  have got : (SqlBrewLogRepo.get shotId).run w = (.ok (some (SqlBrewLogRepo.toDict s)), w) :=
    CodeM.run_bind_still _ finds.run_currentHouseholdId
      (CodeM.run_bind_still _ selected (CodeM.run_bind_still (some s) rfl rfl))
  exact CodeM.run_bind_still _ got (CodeM.run_bind_still _ rfl (CodeM.run_bind_still _ shown.run rfl))

theorem run_getByIdempotencyKey {key : String} (given : s.idempotencyKey = some key) :
    (SqlBrewLogRepo.getByIdempotencyKey key).run w =
      (.ok (some (SqlBrewLogRepo.toDict s)), w) := by
  have selected : (select .brewLog fun r : BrewLog => r.householdId == some h &&
      r.idempotencyKey == some key).run w = (.ok [s], w) := by
    refine run_selectShot finds.live finds.context finds.keyed finds.here finds.owned ?_ ?_
    · simp [finds.owned, given]
    · intro r hr owned matched
      rw [Bool.and_eq_true] at matched
      have held : r.idempotencyKey = some key := beq_iff_eq.mp matched.2
      refine finds.same hr (e := .idempotencyKey h key) ?_ ?_
      · simp [Table.entries, owned, held]
      · simp [Table.entries, finds.owned, given]
  have listed : (SqlBrewLogRepo.ofHousehold fun r => r.idempotencyKey == some key).run w =
      (.ok [s], w) := CodeM.run_bind_still _ finds.run_currentHouseholdId selected
  exact CodeM.run_bind_still _ listed (CodeM.run_bind_still (some s) rfl rfl)

theorem run_existing {key hash : String} (given : s.idempotencyKey = some key)
    {out : BrewLogEntryOut} (shown : Shown w s out) :
    (existingIdempotentResponse key hash).run w =
      ((replayOf s hash (.ok ⟨200, .shot out⟩)).map some, w) := by
  refine CodeM.run_bind_still _ (finds.run_getByIdempotencyKey given) ?_
  have stored : (SqlBrewLogRepo.toDict s).text "Idempotency_Request_Hash" =
      s.idempotencyRequestHash.getD "" := rfl
  unfold replayOf
  by_cases same : s.idempotencyRequestHash.getD "" = hash
  · simp only [stored, same, ne_eq, not_true_eq_false, if_false]
    refine CodeM.run_bind_still _ shown.run ?_
    rw [shotJsonResponse, shown.finite]
    cases s.isFinite <;> rfl
  · simp only [stored, same, ne_eq, not_false_eq_true, if_true]
    rfl

/-- A create whose key the shot has. -/
theorem run_create {env : Env} {body : BrewLogCreateBody} {key hash : String}
    (goes_by : idempotencyOf env body = some (key, hash)) (given : s.idempotencyKey = some key)
    {out : BrewLogEntryOut} (shown : Shown w s out) :
    (apiBrewLogCreate env body : TenantM h Response).run w =
      (replayOf s hash (.ok ⟨200, .shot out⟩), w) := by
  unfold idempotencyOf at goes_by
  cases dated : shotDateOf env body with
  | error e =>
      rw [dated] at goes_by
      cases goes_by
  | ok shotDate =>
      rw [dated] at goes_by
      obtain ⟨key', normalised, same⟩ := Option.map_eq_some_iff.mp goes_by
      cases same
      unfold apiBrewLogCreate
      rw [dated, normalised]
      refine CodeM.run_bind_still _ rfl ?_
      have existing : (existingIdempotentResponse key (idempotencyRequestHash env body shotDate)).run
          w = _ := finds.run_existing given shown
      cases replayed : replayOf s (idempotencyRequestHash env body shotDate)
        (.ok ⟨200, .shot out⟩) with
      | ok r =>
          rw [replayed] at existing
          exact CodeM.run_bind_still _ existing rfl
      | error e =>
          rw [replayed] at existing
          exact CodeM.run_bind_error existing

end Finds

/-! ### The requests -/

theorem Entered.finds {db : State} (indexed : Indexed db) (live : w.Live)
    (entered : Entered h db w) (here : s ∈ db .brewLog) (owned : s.householdId = some h) :
    Finds h s w := by
  have view := entered.view (t := .brewLog) rfl
  refine ⟨live, entered.context, ?_, ?_, ?_, owned⟩
  · rw [view]
    exact indexed.keyed .brewLog
  · rw [view]
    exact indexed.distinct .brewLog
  · rw [view]
    exact here

/-- The requests about a stored shot: its `GET`, and a create under its key. -/
theorem outcomes_of_taken_key {c : Call} {caller : Option Uuid} {body : BrewLogCreateBody}
    {db : State} {m : HouseholdMember} {key hash : String} (indexed : Indexed db)
    (calm : c.faults = []) (resolved : c.resolved db (callerMembership c.env caller) = some m)
    (here : s ∈ db .brewLog) (owned : s.householdId = some m.householdId)
    (given : s.idempotencyKey = some key) (goes_by : idempotencyOf c.env body = some (key, hash)) :
    ∃ out db', out.shotId = s.sheetsId.getD "" ∧ db' .brewLog = db .brewLog ∧
      c.outcome (.member caller (.brewLogCreate body)) db =
        (replayOf s hash (.ok ⟨200, .shot out⟩), db') ∧
      ∀ shotId, s.sheetsId = some shotId →
        c.outcome (.member caller (.brewLogDetail shotId)) db = (.ok ⟨200, .shot out⟩, db') := by
  obtain ⟨w, _, live, entered, asMember⟩ := run_asMember calm resolved
  have kept : w.db .brewLog = db .brewLog := (entered.rows .brewLog nofun).1
  have finds := entered.finds indexed live here owned
  obtain ⟨out, shown⟩ := exists_shown live s
  have outcome : ∀ r {x : Except Exc Response},
      CodeM.run (r.program c.env c.archive) (c.start db) = (x, w) →
      c.outcome r db = (x, w.db) := by
    intro r x run
    unfold Call.outcome
    rw [run]
  refine ⟨out, w.db, shown.shotId, kept, ?_, fun shotId named => ?_⟩
  · exact outcome (.member caller (.brewLogCreate body))
      (asMember (fun _ => apiBrewLogCreate c.env body) _ (finds.run_create goes_by given shown))
  · exact outcome (.member caller (.brewLogDetail shotId))
      (asMember (fun _ => apiBrewLogDetail shotId) _ (finds.run_detail named shown))

/-- A create whose key is stored for the household comes to what `GET` of the stored shot
comes to, and stores no shot: it is refused when the stored hash is another one, and raises
when a number of the shot is not finite. -/
theorem create_of_taken_key {c : Call} {caller : Option Uuid} {body : BrewLogCreateBody}
    {db : State} {m : HouseholdMember} {key hash shotId : String} (indexed : Indexed db)
    (calm : c.faults = []) (resolved : c.resolved db (callerMembership c.env caller) = some m)
    (here : s ∈ db .brewLog) (owned : s.householdId = some m.householdId)
    (named : s.sheetsId = some shotId) (given : s.idempotencyKey = some key)
    (goes_by : idempotencyOf c.env body = some (key, hash)) :
    c.outcome (.member caller (.brewLogCreate body)) db =
        (replayOf s hash (c.outcome (.member caller (.brewLogDetail shotId)) db).1,
          (c.outcome (.member caller (.brewLogDetail shotId)) db).2) ∧
      (∃ out, (c.outcome (.member caller (.brewLogDetail shotId)) db).1 = .ok ⟨200, .shot out⟩ ∧
        out.shotId = shotId) ∧
      (c.outcome (.member caller (.brewLogCreate body)) db).2 .brewLog = db .brewLog := by
  obtain ⟨out, db', shown, kept, create, detail⟩ :=
    outcomes_of_taken_key indexed calm resolved here owned given goes_by
  have detail := detail shotId named
  refine ⟨?_, ⟨out, congrArg Prod.fst detail, ?_⟩, ?_⟩
  · rw [create, detail]
  · rw [shown, named]
    rfl
  · rw [create]
    exact kept

namespace Sample

/-- Ada's shot with a dose, stored under the key of the one she pulled. -/
def keptShot (dose : Option Tenths) : BrewLog :=
  { shot with
    doseG := dose
    idempotencyKey := some "k"
    idempotencyRequestHash := (idempotencyOf env pulled).map Prod.snd }

def keptDb (dose : Option Tenths) : State
  | .brewLog => [keptShot dose]
  | t => db t

/-- The shot is replayed, and not when its dose is NaN. -/
theorem pulled_replays :
    (call.outcome (.member (some ada.id) (.brewLogCreate pulled)) (keptDb none)).1 =
        (call.outcome (.member (some ada.id) (.brewLogDetail "S1")) (keptDb none)).1 ∧
      (call.outcome (.member (some ada.id) (.brewLogCreate pulled)) (keptDb (some .nan))).1 =
        .error .valueError ∧
      (call.outcome (.member (some ada.id) (.brewLogCreate pulled)) (keptDb none)).2 .brewLog =
        keptDb none .brewLog := by
  have keyed : idempotencyOf call.env pulled =
      some ("k", idempotencyRequestHash env pulled day) := rfl
  have hash : ∀ dose, ¬ (keptShot dose).idempotencyRequestHash.getD "" ≠
      idempotencyRequestHash env pulled day := fun _ => not_not.mpr rfl
  have indexed : Indexed (keptDb none) := indexed_of_all (by decide +kernel)
  have resolved : call.resolved (keptDb none) (callerMembership call.env (some ada.id)) =
      some membership := by decide +kernel
  obtain ⟨create, _, kept⟩ := create_of_taken_key indexed rfl resolved (List.mem_singleton.mpr rfl)
    rfl rfl rfl keyed
  have indexed' : Indexed (keptDb (some .nan)) := indexed_of_all (by decide +kernel)
  have resolved' : call.resolved (keptDb (some .nan)) (callerMembership call.env (some ada.id)) =
      some membership := by decide +kernel
  obtain ⟨raises, _⟩ := create_of_taken_key indexed' rfl resolved' (List.mem_singleton.mpr rfl)
    rfl rfl rfl keyed
  rw [replayOf, if_neg (hash none), if_pos (by decide)] at create
  rw [replayOf, if_neg (hash (some .nan)), if_neg (by decide)] at raises
  exact ⟨congrArg Prod.fst create, congrArg Prod.fst raises, kept⟩

end Sample

/-- After any run of requests about shots, a create that is sent again under the key and the
hash of one that returned comes to a replay of the shot that its first answer named, and
stores no other. The retry meets no fault, and its caller is in one household, the one it is
resolved to: the key is looked for in the household that is active then. -/
theorem retry_replays {db : State} {requests : List (Call × Request)}
    {p : Pool Table Exc Response} (indexed : Indexed db)
    (about : ∀ x ∈ requests, x.2.AboutShots)
    (run : Pool.Run Pool.Anything (sideBySide db requests) p) {i : Nat} {call : Call}
    {caller : Option Uuid} {body : BrewLogCreateBody} {r : Response}
    (returned : Returned requests p i call caller body r) {again : Call}
    {sent : BrewLogCreateBody} {m : HouseholdMember} (calm : again.faults = [])
    (resolved : again.resolved p.db (callerMembership again.env caller) = some m)
    (home : ∀ m' ∈ p.db .householdMembers, some m'.userId = caller →
      m'.householdId = m.householdId)
    {idempotency : String × String} (keyed : idempotencyOf call.env body = some idempotency)
    (same : idempotencyOf again.env sent = some idempotency) :
    ∃ status out, r = ⟨status, .shot out⟩ ∧ ∃ s ∈ p.db .brewLog,
      IsShotOf m.householdId (some idempotency) out.shotId s ∧
      (∃ out', out'.shotId = out.shotId ∧
        (again.outcome (.member caller (.brewLogCreate sent)) p.db).1 =
          if s.isFinite then .ok ⟨200, .shot out'⟩ else .error .valueError) ∧
      (again.outcome (.member caller (.brewLogCreate sent)) p.db).2 .brewLog = p.db .brewLog := by
  have inOrder := inOrder_of_run about run indexed
  obtain ⟨s, here, m', member, own, out, status, _, answer, is⟩ := returned.answeredBy about run
  rw [home m' member own, keyed] at is
  have given : s.idempotencyKey = some idempotency.1 := is.key
  have hash : s.idempotencyRequestHash.getD "" = idempotency.2 := is.hash
  -- the retry finds the shot that the first answer was about
  obtain ⟨out', db', shown, kept, create, _⟩ :=
    outcomes_of_taken_key ⟨inOrder.keyed, inOrder.distinct⟩ calm resolved here is.household given
      same
  rw [replayOf, if_neg (not_not.mpr hash)] at create
  refine ⟨status, out, answer, s, here, is, ⟨out', ?_, congrArg Prod.fst create⟩, ?_⟩
  · rw [shown]
    exact is.shotId
  · rw [create]
    exact kept

namespace Sample

theorem ended_of_status {p : Pool Table Exc Response} {i n : Nat}
    (here : (statuses p)[i]? = some (some n)) :
    ∃ r, ∃ c : Client Table Exc Response, p.clients[i]? = some c ∧ c.prog = .pure r := by
  unfold statuses at here
  rw [List.getElem?_map] at here
  obtain ⟨c, there, answered⟩ := Option.map_eq_some_iff.mp here
  cases ended : c.prog with
  | pure r => exact ⟨r, c, there, ended⟩
  | raise e =>
      rw [ended] at answered
      cases answered
  | op s k =>
      rw [ended] at answered
      cases answered

theorem sentThrice_finite : (Pool.play (fun _ _ _ _ => true) overtaken
    (sideBySide db sentThrice)).map (fun p => (p.db .brewLog).all BrewLog.isFinite) =
      some true := by
  decide +kernel

theorem retried_replays : ∃ p,
    Pool.play (fun _ _ _ _ => true) overtaken (sideBySide db sentThrice) = some p ∧
      ∃ out, (retry.outcome (.member (some ada.id) (.brewLogCreate pulled)) p.db).1 =
        .ok ⟨200, .shot out⟩ := by
  obtain ⟨p, played, answered, members, resolved⟩ := sentThrice_played
  have finite := sentThrice_finite
  rw [played] at finite
  obtain ⟨r, ended⟩ := ended_of_status (i := 0) (n := 201) (by rw [answered]; rfl)
  have first : Returned sentThrice p 0 call (some ada.id) pulled r := ⟨rfl, ended⟩
  have keyed : idempotencyOf env pulled =
      some ("k", idempotencyRequestHash env pulled day) := rfl
  have home : ∀ m' ∈ p.db .householdMembers, some m'.userId = some ada.id →
      m'.householdId = membership.householdId := by
    rw [members]
    intro m' hm' _
    rw [List.mem_singleton.mp hm']
  obtain ⟨_, _, _, s, here, _, ⟨out, _, replays⟩, _⟩ := retry_replays db_indexed sentThrice_about
    (Pool.run_of_play (fun _ _ _ _ _ => trivial) played) first rfl resolved home keyed keyed
  rw [if_pos (List.all_eq_true.mp (Option.some.inj finite) s here)] at replays
  exact ⟨p, played, out, replays⟩

end Sample

end EspressoLogs
