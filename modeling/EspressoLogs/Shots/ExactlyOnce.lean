import EspressoLogs.Shots.Ledger

/-!
Creates answer for what is stored.

Among requests about shots, their statements in any order, no create returns without its
shot being stored, and an idempotency key is used for one shot. Alone, whatever faults its
statements meet, a create stores its shot exactly when it answers so.
-/

namespace EspressoLogs

open Lib Py

/-! ### Among other requests -/

/-- The request at a position is a create that returned. -/
structure Returned (requests : List (Call × Request)) (p : Pool Table Exc Response) (i : Nat)
    (call : Call) (caller : Option Uuid) (body : BrewLogCreateBody) (r : Response) : Prop where
  request : requests[i]? = some (call, Request.member caller (.brewLogCreate body))
  ended : ∃ c : Client Table Exc Response, p.clients[i]? = some c ∧ c.prog = .pure r

/-- A create that returned answers with a shot that is stored: one of a household of its
caller, under the key and with the hash of the request. -/
def AnsweredBy (db : State) (call : Call) (caller : Option Uuid) (body : BrewLogCreateBody)
    (r : Response) (s : BrewLog) : Prop :=
  ∃ m ∈ db .householdMembers, some m.userId = caller ∧ ∃ out, ∃ status ∈ [200, 201],
    r = ⟨status, .shot out⟩ ∧
      IsShotOf m.householdId (idempotencyOf call.env body) out.shotId s

/-- Two creates returned the same shot for requests with the same hash. -/
def SameShot (x x' : String × String) (r r' : Response) : Prop :=
  x.2 = x'.2 ∧ ∃ status status' out out', r = ⟨status, .shot out⟩ ∧ r' = ⟨status', .shot out'⟩ ∧
    out.shotId = out'.shotId

/-- A household has one shot for an idempotency key, every create that returned did so
with the shot that is stored for it, and creates that returned for one household and key
agree. -/
structure ExactlyOnce (requests : List (Call × Request)) (p : Pool Table Exc Response) : Prop where
  single : ∀ s ∈ p.db .brewLog, ∀ s' ∈ p.db .brewLog, ∀ h key, s.householdId = some h →
    s'.householdId = some h → s.idempotencyKey = some key → s'.idempotencyKey = some key → s = s'
  answered : ∀ i call caller body r, Returned requests p i call caller body r →
    ∃ s ∈ p.db .brewLog, AnsweredBy p.db call caller body r s
  agree : ∀ i call caller body r i' call' caller' body' r' x x',
    Returned requests p i call caller body r → Returned requests p i' call' caller' body' r' →
    idempotencyOf call.env body = some x → idempotencyOf call'.env body' = some x' → x.1 = x'.1 →
    (∀ m ∈ p.db .householdMembers, ∀ m' ∈ p.db .householdMembers, some m.userId = caller →
      some m'.userId = caller' → m.householdId = m'.householdId) → SameShot x x' r r'

theorem single_of_indexed {rows : List BrewLog} (keyed : Table.Keyed .brewLog rows)
    (distinct : NoShare (T := Table) .brewLog rows) {s s' : BrewLog} (hs : s ∈ rows)
    (hs' : s' ∈ rows) {h : Uuid} {key : String} (owned : s.householdId = some h)
    (owned' : s'.householdId = some h) (given : s.idempotencyKey = some key)
    (given' : s'.idempotencyKey = some key) : s = s' := by
  have claimed : UniqueEntry.idempotencyKey h key ∈ Table.entries .brewLog s := by
    simp [Table.entries, owned, given]
  have claimed' : UniqueEntry.idempotencyKey h key ∈ Table.entries .brewLog s' := by
    simp [Table.entries, owned', given']
  exact List.inj_on_of_nodup_map keyed hs hs' (distinct s hs s' hs' _ claimed claimed')

theorem AnswersShot.answeredBy {caller : Option Uuid} {call : Call} {body : BrewLogCreateBody}
    {r : Response} {db : State}
    (answers : AnswersCaller Ledger.shared caller (idempotencyOf call.env body) r db) :
    ∃ s ∈ db .brewLog, AnsweredBy db call caller body r s := by
  obtain ⟨m, member, own, answers⟩ := answers
  cases answers with
  | @created s out answer after is =>
      obtain ⟨s', here, same⟩ := after
      exact ⟨s', here, m, member, own, out, 201, by decide, answer, is.congr same⟩
  | replayed keyed replayed before =>
      obtain ⟨s, here, out, answer, is⟩ := replayed
      exact ⟨s, here, m, member, own, out, 200, by decide, answer, keyed ▸ is⟩

/-- What a create answered stays true. -/
theorem AnswersCaller.stays {caller : Option Uuid} {idempotency : Option (String × String)}
    {r : Response} {db db' : State} (answers : AnswersCaller Ledger.shared caller idempotency r db)
    (retained : Retained (T := Table) keptTable identity db db') :
    AnswersCaller Ledger.shared caller idempotency r db' := by
  obtain ⟨m, member, own, answers⟩ := answers
  obtain ⟨m', member', same⟩ := retained .householdMembers rfl m member
  cases same
  refine ⟨m, member', own, ?_⟩
  cases answers with
  | created answer after is =>
      obtain ⟨s', here, same⟩ := after
      obtain ⟨s'', there, same'⟩ := retained .brewLog rfl s' here
      exact .created answer ⟨s'', there, same'.trans same⟩ is
  | replayed keyed replayed before =>
      obtain ⟨s, here, out, answer, is⟩ := replayed
      obtain ⟨s', there, same⟩ := retained .brewLog rfl s here
      exact .replayed keyed ⟨s', there, out, answer, is.congr same⟩ trivial

section Run

variable {db : State} {requests : List (Call × Request)} {p : Pool Table Exc Response}
  (about : ∀ x ∈ requests, x.2.AboutShots)
  (run : Pool.Run Pool.Anything (sideBySide db requests) p)

include about run

theorem inOrder_of_run (indexed : Indexed db) : Pool.InOrder p := by
  refine Pool.Run.inOrder run (sideBySide_inOrder indexed fun x hx => ?_)
  exact ((about x hx).spares x.1.env x.1.archive).mono fun _ h => h.1

/-- A create that returned has its shot stored, whatever came after. -/
theorem Returned.answeredBy {i : Nat} {call : Call} {caller : Option Uuid}
    {body : BrewLogCreateBody} {r : Response} (returned : Returned requests p i call caller body r) :
    ∃ s ∈ p.db .brewLog, AnsweredBy p.db call caller body r s := by
  have retaining : (sideBySide db requests).Retaining keptTable identity := by
    refine ⟨fun c hc => ?_, fun c hc => ?_⟩
    · obtain ⟨x, hx, rfl⟩ := List.mem_map.mp hc
      exact (about x hx).spares x.1.env x.1.archive
    · obtain ⟨x, hx, rfl⟩ := List.mem_map.mp hc
      exact Writes.retain_nil
  obtain ⟨c, there, done⟩ := returned.ended
  have here : (sideBySide db requests).clients[i]? =
      some (call.client (Request.member caller (.brewLogCreate body))) := by
    show (requests.map fun x => x.1.client x.2)[i]? = _
    rw [List.getElem?_map, returned.request]
    rfl
  have followed := safe_brewLogCreate Ledger.shared call.env call.archive caller body
    (w := ⟨db, (call.client (Request.member caller (.brewLogCreate body))).session⟩)
    (fun _ _ => rfl) trivial
  exact AnswersShot.answeredBy (run.ended retaining (fun _ _ _ here moved => here.stays moved) here
    rfl (Prog.Safe.mono followed (fun _ _ here => here) fun _ _ _ => trivial) there done)

end Run

/-- Requests about shots, their statements in any order and any of them failing: a
household has one shot at most under a key, every create that returned named a shot that
is stored for a household of its caller under the key and hash of the request, and two
of them that share household and key named the same one. The unique indexes hold in the
beginning; they and the lookup of the stored shot are what keeps it so. -/
theorem creates_exactlyOnce {db : State} {requests : List (Call × Request)}
    {p : Pool Table Exc Response} (indexed : Indexed db)
    (about : ∀ x ∈ requests, x.2.AboutShots)
    (run : Pool.Run Pool.Anything (sideBySide db requests) p) : ExactlyOnce requests p := by
  have inOrder := inOrder_of_run about run indexed
  have single : ∀ s ∈ p.db .brewLog, ∀ s' ∈ p.db .brewLog, ∀ h key, s.householdId = some h →
      s'.householdId = some h → s.idempotencyKey = some key → s'.idempotencyKey = some key →
        s = s' := fun s hs s' hs' h key owned owned' given given' =>
    single_of_indexed (inOrder.keyed .brewLog) (inOrder.distinct .brewLog) hs hs' owned owned'
      given given'
  refine ⟨single, fun _ _ _ _ _ returned => returned.answeredBy about run, ?_⟩
  intro i call caller body r i' call' caller' body' r' x x' returned returned' keyed keyed' same home
  obtain ⟨s, here, m, member, own, out, status, _, answer, is⟩ :=
    returned.answeredBy about run
  obtain ⟨s', here', m', member', own', out', status', _, answer', is'⟩ :=
    returned'.answeredBy about run
  -- both answers are about a shot of one household under one key, and the index lets in one
  -- of these
  have one : s = s' := by
    refine single s here s' here' m.householdId x.1 is.household ?_ ?_ ?_
    · rw [is'.household, home m member m' member' own own']
    · rw [is.key, keyed]
      rfl
    · rw [is'.key, keyed', same]
      rfl
  subst one
  have hash := is.hash
  have hash' := is'.hash
  rw [keyed] at hash
  rw [keyed'] at hash'
  exact ⟨hash.symm.trans hash', status, status', out, out', answer, answer',
    is.shotId.symm.trans is'.shotId⟩

namespace Sample

/-- A shot that Ada pulls. -/
def pulled : BrewLogCreateBody :=
  { bagId := "B1", machineId := "", grinderId := "", basketId := "", doseInG := .fin 18,
    yieldOutG := .fin 36, timeSec := .fin 27, grindSetting := "12", shotEligibility := "",
    tasteSummary := "", userNotes := "", storageMethod := "", shotDate := none,
    idempotencyKey := some "k" }

/-- The same create, sent three times. -/
def sentThrice : List (Call × Request) :=
  [100, 150, 170].map fun first => ({ call with supply := fun n => id (first + n) },
    .member (some ada.id) (.brewLogCreate pulled))

/-- The second looks for the key before the first has stored its shot, and runs into it; the
third comes when both are through. -/
def overtaken : List Nat :=
  List.replicate 6 1 ++ List.replicate 19 0 ++ List.replicate 11 1 ++ List.replicate 9 2

def statuses (p : Pool Table Exc Response) : List (Option Nat) :=
  p.clients.map fun c => match c.prog with
    | .pure r => some r.status
    | _ => none

theorem db_indexed : Indexed db := indexed_of_all (by decide +kernel)

theorem sentThrice_about : ∀ x ∈ sentThrice, x.2.AboutShots := by
  intro x hx
  simp only [sentThrice, List.map_cons, List.map_nil, List.mem_cons, List.not_mem_nil,
    or_false] at hx
  rcases hx with rfl | rfl | rfl <;> trivial

/-- A later call. -/
def retry : Call := { call with supply := fun n => id (200 + n) }

/-- One of the three stores the shot. The one that ran into it fails, on the membership that
its rollback has expired, and the last replays the shot. -/
theorem sentThrice_played : ∃ p,
    Pool.play (fun _ _ _ _ => true) overtaken (sideBySide db sentThrice) = some p ∧
      statuses p = [some 201, none, some 200] ∧ p.db .householdMembers = [membership] ∧
        retry.resolved p.db (callerMembership retry.env (some ada.id)) = some membership := by
  have checked : (Pool.play (fun _ _ _ _ => true) overtaken (sideBySide db sentThrice)).map
      (fun p => (statuses p, p.db .householdMembers,
        retry.resolved p.db (callerMembership retry.env (some ada.id)))) =
      some ([some 201, none, some 200], [membership], some membership) := by decide +kernel
  obtain ⟨p, played, same⟩ := Option.map_eq_some_iff.mp checked
  simp only [Prod.mk.injEq] at same
  exact ⟨p, played, same⟩

theorem sentThrice_exactlyOnce : ∃ p,
    Pool.play (fun _ _ _ _ => true) overtaken (sideBySide db sentThrice) = some p ∧
      statuses p = [some 201, none, some 200] ∧ ExactlyOnce sentThrice p := by
  obtain ⟨p, played, both, _⟩ := sentThrice_played
  exact ⟨p, played, both, creates_exactlyOnce db_indexed sentThrice_about
    (Pool.run_of_play (fun _ _ _ _ _ => trivial) played)⟩

end Sample

/-! ### Alone -/

/-- How a request ends when it is served alone: what its program comes to, before that is
made a response, and the rows that are there afterwards. -/
def Call.outcome (c : Call) (r : Request) (db : State) : Except Exc Response × State :=
  let (result, w) := CodeM.run (r.program c.env c.archive) (c.start db)
  (result, w.db)

end EspressoLogs
