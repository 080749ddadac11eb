import EspressoLogs.Accounts.Clients
import EspressoLogs.Lib.Retained
import EspressoLogs.Tenant.Context

/-!
Shots side by side.

Requests that create, correct, comment and read shots, statement by statement between
each other. None of them removes a shot or changes what a shot is known by: its id, its
household, its idempotency key and the hash of the request that created it. So what one
of them answered about a shot stays true while the others go on.
-/

namespace EspressoLogs

open Lib Py

/-! ### The row of a new shot -/

section Rows

variable {env : Env} {row : Dict} {owner : Option Uuid} {timeSec rating : Option Int} {id : Uuid}
  {r r' : BrewLog}

/-- What of a made row does not depend on the clock. -/
theorem made_eq_ok (made : SqlBrewLogRepo.make env row owner timeSec rating id = .ok r) :
    r.id = id ∧ r.householdId = owner ∧ asText (row.get "Shot_ID") = .ok r.sheetsId ∧
      asText (((row.get "idempotency_key").or (row.get "Idempotency_Key")).or .none) =
        .ok r.idempotencyKey ∧
      asText (((row.get "idempotency_request_hash").or
        (row.get "Idempotency_Request_Hash")).or .none) = .ok r.idempotencyRequestHash := by
  unfold SqlBrewLogRepo.make at made
  obtain ⟨sheetsId, known, made⟩ := bind_eq_ok made
  obtain ⟨_, _, made⟩ := bind_eq_ok made
  obtain ⟨_, _, made⟩ := bind_eq_ok made
  obtain ⟨_, _, made⟩ := bind_eq_ok made
  obtain ⟨_, _, made⟩ := bind_eq_ok made
  obtain ⟨_, _, made⟩ := bind_eq_ok made
  obtain ⟨_, _, made⟩ := bind_eq_ok made
  obtain ⟨_, _, made⟩ := bind_eq_ok made
  obtain ⟨_, _, made⟩ := bind_eq_ok made
  obtain ⟨_, _, made⟩ := bind_eq_ok made
  obtain ⟨_, _, made⟩ := bind_eq_ok made
  obtain ⟨_, _, made⟩ := bind_eq_ok made
  obtain ⟨_, _, made⟩ := bind_eq_ok made
  obtain ⟨_, _, made⟩ := bind_eq_ok made
  obtain ⟨_, _, made⟩ := bind_eq_ok made
  obtain ⟨_, _, made⟩ := bind_eq_ok made
  obtain ⟨key, keyed, made⟩ := bind_eq_ok made
  obtain ⟨hash, hashed, made⟩ := bind_eq_ok made
  cases made
  exact ⟨rfl, rfl, known, keyed, hashed⟩

/-- A field of a correction is not the hash. -/
theorem whenGiven_hash {fields : Dict} {key : String}
    {set : Val → BrewLog → Except StmtError BrewLog}
    (kept : ∀ v r r', set v r = .ok r' → r'.idempotencyRequestHash = r.idempotencyRequestHash)
    (ok : SqlBrewLogRepo.whenGiven fields key set r = .ok r') :
    r'.idempotencyRequestHash = r.idempotencyRequestHash := by
  unfold SqlBrewLogRepo.whenGiven at ok
  split at ok
  · exact kept _ _ _ ok
  · cases ok
    rfl

/-- A correction keeps the hash of the request that made the shot. -/
theorem correct_hash {fields : Dict} (ok : SqlBrewLogRepo.correct fields r = .ok r') :
    r'.idempotencyRequestHash = r.idempotencyRequestHash := by
  unfold SqlBrewLogRepo.correct at ok
  obtain ⟨r₁, taste, ok⟩ := bind_eq_ok ok
  obtain ⟨r₂, notes, ok⟩ := bind_eq_ok ok
  obtain ⟨r₃, grind, eligibility⟩ := bind_eq_ok ok
  refine (whenGiven_hash ?_ eligibility).trans ((whenGiven_hash ?_ grind).trans
    ((whenGiven_hash ?_ notes).trans (whenGiven_hash ?_ taste)))
  all_goals
    intro v r r' eq
    obtain ⟨_, _, eq⟩ := bind_eq_ok eq
    cases eq
    rfl

end Rows

/-! ### What such requests leave alone -/

/-- The tables that lose no rows. -/
def keptTable : Table → Bool
  | .brewLog | .householdMembers => true
  | _ => false

/-- What a row of a kept table is known by. -/
abbrev Identity : Table → Type
  | .brewLog => Option String × Option Uuid × Option String × Option String
  | .householdMembers => HouseholdMember
  | _ => Unit

def identity : (t : Table) → t.Row → Identity t
  | .brewLog, r => (r.sheetsId, r.householdId, r.idempotencyKey, r.idempotencyRequestHash)
  | .householdMembers, m => m
  | .users, _ | .households, _ | .pendingInvitations, _ | .guestTokens, _ | .importSessions, _
  | .catalog, _ | .inventoryBags, _ | .hardware, _ | .maintenanceLog, _ => ()

/-- A statement that leaves shots what they are. -/
def SparesShots (s : Statement) : Prop := s.Orderly ∧ s.Retains keptTable identity

/-- A statement that writes to no table that is kept. -/
def Elsewhere (s : Statement) : Prop :=
  s.Orderly ∧ match s with
    | .insert t _ | .update t _ _ | .delete t _ => keptTable t = false
    | .deleteCascade _ _ => False
    | _ => True

theorem IsRead.elsewhere {s : Statement} (h : IsRead s) : Elsewhere s := by
  cases s <;> first | exact ⟨trivial, trivial⟩ | exact h.elim

theorem Elsewhere.sparesShots (s : Statement) (h : Elsewhere s) : SparesShots s := by
  refine ⟨h.1, ?_⟩
  cases s with
  | update t p set => exact fun kept => absurd (h.2.symm.trans kept) Bool.false_ne_true
  | delete t p => exact h.2
  | deleteCascade t p => exact h.2
  | _ => trivial

/-- A read spares every shot. -/
theorem IsRead.sparesShots (s : Statement) (h : IsRead s) : SparesShots s := by
  cases s <;> first | exact ⟨trivial, trivial⟩ | exact h.elim

/-- The requests about shots that delete none. -/
def Request.AboutShots : Request → Prop
  | .member _ (.brewLogCreate _) | .member _ (.brewLogPatch _ _)
  | .member _ (.brewLogFeedbackGenerate _) | .member _ (.brewLogFeedback _)
  | .member _ (.brewLogDetail _) | .brewLogList _ _ _ _ => True
  | _ => False

section Spares

variable {α : Type}

theorem sparesShots_read (p : ReadM α) : p.prog.All SparesShots := p.within.mono IsRead.sparesShots

theorem sparesShots_commit : DbM.commit.prog.All SparesShots := all_ask ⟨trivial, trivial⟩

theorem sparesShots_rollback : DbM.rollback.prog.All SparesShots := all_ask ⟨trivial, trivial⟩

theorem sparesShots_setConfig (h : Uuid) : (setConfig h).prog.All SparesShots :=
  all_ask ⟨trivial, trivial⟩

/-- A new value for columns of shots that are not what a shot is known by. -/
theorem sparesShots_update (p : BrewLog → Bool) {set : BrewLog → Except StmtError BrewLog}
    (kept : ∀ r r', set r = .ok r' → r'.id = r.id ∧
      identity .brewLog r' = identity .brewLog r) : SparesShots (.update .brewLog p set) :=
  ⟨fun r r' new => (kept r r' new).1, fun _ r r' new => (kept r r' new).2⟩

theorem elsewhere_callerMembership (env : Env) (caller : Option Uuid) :
    (callerMembership env caller).prog.All Elsewhere := by
  unfold callerMembership
  have lookups {β : Type} (p : LookupM β) : (p : UserM β).prog.All Elsewhere :=
    p.within.mono fun s h => h.1.elsewhere
  have active (userId : Uuid) (selection : Option Uuid) :
      (UserRepo.setActive userId selection).prog.All Elsewhere := by
    refine all_discard (all_ask ⟨fun u u' new => ?_, rfl⟩)
    cases new
    rfl
  have commit : (UserM.commit).prog.All Elsewhere := all_ask ⟨trivial, trivial⟩
  have fallback (user : User) : (fallbackMembership env user).prog.All Elsewhere := by
    refine all_bind (lookups _) fun _ => all_bind (all_orRaise _ _) fun _ => ?_
    exact all_bind (all_bind (active _ _) fun _ => commit) fun _ => trivial
  refine all_bind (lookups _) fun user => ?_
  unfold resolveMembershipForUser
  cases user.activeHouseholdId with
  | none => exact fallback user
  | some selected =>
      have cleared : (do
          UserRepo.clearActiveHousehold user.id
          fallbackMembership env user).prog.All Elsewhere :=
        all_bind (all_bind (active _ _) fun _ => commit) fun _ => fallback user
      refine all_bind (lookups _) fun membership => all_bind (lookups _) fun household => ?_
      cases membership with
      | none => exact cleared
      | some m =>
          cases household with
          | none => exact cleared
          | some r => trivial

/-! ### The endpoints -/

variable {h : Uuid}

theorem sparesShots_orRollback {p : DbM α} (hp : p.prog.All SparesShots) :
    (orRollback p).prog.All SparesShots :=
  hp.catchWith fun _ => all_bind sparesShots_rollback fun _ => trivial

/-- What commenting on a shot performs. -/
structure Comments (Q : Statement → Prop) (shotId : String) : Prop where
  read : ∀ s, IsRead s → Q s
  commit : Q .commit
  rollback : Q .rollback
  feedback : ∀ owner set, (∀ r r', set r = .ok r' → r'.id = r.id ∧
    identity .brewLog r' = identity .brewLog r) →
      Q (.update .brewLog (SqlBrewLogRepo.isShot owner shotId) set)

/-- Feedback reads, and assigns the comments of its shot. -/
theorem Comments.all_getAiFeedback {Q : Statement → Prop} {shotId : String}
    (comments : Comments Q shotId) (env : Env) (extra : Option ExtraContext)
    (force raiseOnError : Bool) : (getAiFeedback env shotId extra force raiseOnError).prog.All Q := by
  have reads {β : Type} (p : ReadM β) : p.prog.All Q := p.within.mono comments.read
  have stored (text : String) : (DualWriteBrewLogRepo.updateFeedback shotId text).prog.All Q := by
    refine Prog.All.catchWith (all_bind (reads currentHouseholdId) fun context => ?_) fun _ =>
      all_bind (all_ask comments.rollback : DbM.rollback.prog.All Q) fun _ => trivial
    cases context with
    | none => trivial
    | some owner =>
        refine all_bind (all_discard (all_ask (comments.feedback owner _ fun r r' new => ?_)))
          fun _ => all_ask comments.commit
        obtain ⟨_, _, new⟩ := bind_eq_ok new
        cases new
        exact ⟨rfl, rfl⟩
  have failing (e : Exc) (graceful : String) : (failWith raiseOnError e graceful).prog.All Q := by
    unfold failWith
    split <;> trivial
  refine all_bind (reads (SqlBrewLogRepo.get shotId)) fun found => ?_
  cases found with
  | none => exact failing _ _
  | some shot =>
      simp only
      split
      · trivial
      · refine all_bind (reads (historyOf shotId shot)) fun history => ?_
        refine all_bind (reads (maintenanceOf env shot)) fun maintenance => ?_
        split
        · exact failing _ _
        · unfold storeReply
          split
          · trivial
          · trivial
          · exact failing _ _
          · split
            · exact failing _ _
            · split
              · exact failing _ _
              · exact all_bind (stored _) fun _ => trivial

/-- So it spares what identifies a shot. -/
theorem sparesShots_getAiFeedback (env : Env) (shotId : String) (extra : Option ExtraContext)
    (force raiseOnError : Bool) :
    (getAiFeedback env shotId extra force raiseOnError).prog.All SparesShots :=
  Comments.all_getAiFeedback
    ⟨IsRead.sparesShots, ⟨trivial, trivial⟩, ⟨trivial, trivial⟩,
      fun _ _ kept => sparesShots_update _ kept⟩ env extra force raiseOnError

theorem sparesShots_apiBrewLogFeedbackGenerate (env : Env) (shotId : String) :
    (apiBrewLogFeedbackGenerate env shotId : TenantM h Response).prog.All SparesShots := by
  refine all_bind (sparesShots_read (SqlBrewLogRepo.get shotId)) fun found => ?_
  refine all_bind (all_orRaise _ _) fun shot => all_bind (sparesShots_read buildLookups) fun _ => ?_
  refine all_bind ?_ fun _ => trivial
  refine Prog.All.catchWith ?_ fun e => by cases e <;> trivial
  exact all_bind (sparesShots_setConfig h) fun _ => sparesShots_getAiFeedback env shotId _ true true

/-- A correction assigns other columns. -/
theorem sparesShots_apiBrewLogPatch (shotId : String) (body : BrewLogPatchBody) :
    (apiBrewLogPatch shotId body).prog.All SparesShots := by
  refine all_bind (all_liftExcept _) fun fields => all_bind ?_ fun updated => ?_
  · refine sparesShots_orRollback (all_bind (sparesShots_read currentHouseholdId) fun context => ?_)
    cases context with
    | none => trivial
    | some owner =>
        refine all_ite (sparesShots_read (SqlBrewLogRepo.get shotId)) (all_bind
          (all_ask (sparesShots_update _ fun r r' new => ?_)) fun rows =>
            all_bind (all_oneOrNone rows) fun found => ?_)
        · obtain ⟨same, owned, known, keyed⟩ := correct_sameKeys new
          refine ⟨same, ?_⟩
          simp only [identity, owned, known, keyed, correct_hash new]
        · cases found with
          | none => trivial
          | some r => exact all_bind sparesShots_commit fun _ => trivial
  · refine all_bind (all_orRaise _ _) fun shot => ?_
    exact all_bind (sparesShots_read (renderShotResponse shot)) fun _ => trivial

theorem sparesShots_add (env : Env) (row : Dict) :
    (DualWriteBrewLogRepo.add env row false).prog.All SparesShots := by
  refine sparesShots_orRollback (all_bind (all_liftExcept _) fun owner => ?_)
  refine all_bind (all_liftExcept _) fun timeSec => all_bind (all_liftExcept _) fun rating => ?_
  have inserted (owner : Option Uuid) : (do
      let entry ← DbM.insert .brewLog (SqlBrewLogRepo.make env row owner timeSec rating)
      discard (refresh .brewLog entry)
      pure () : DbM Unit).prog.All SparesShots := by
    refine all_bind (all_ask ⟨fun id r made => (made_eq_ok made).1, trivial⟩) fun entry => ?_
    exact all_bind (all_discard (sparesShots_read (refresh .brewLog entry))) fun _ => trivial
  cases owner with
  | some owner => exact inserted (some owner)
  | none => exact all_bind (sparesShots_read currentHouseholdId) fun owner => inserted owner

theorem sparesShots_storeShot (env : Env) (row : Dict) (idempotency : Option (String × String)) :
    (storeShot env row idempotency : TenantM h _).prog.All SparesShots := by
  refine Prog.All.catchWith (all_bind ?_ fun _ => trivial) fun e => ?_
  · refine all_bind (sparesShots_add env row) fun _ => ?_
    exact all_bind (sparesShots_read buildLookups) fun _ =>
      all_bind sparesShots_commit fun _ => trivial
  · refine all_ite (all_bind (all_bind sparesShots_rollback fun _ => ?_) fun _ => trivial)
      (all_bind sparesShots_rollback fun _ => trivial)
    cases idempotency with
    | none => trivial
    | some keyed =>
        refine all_ite (all_bind (sparesShots_setConfig h) fun _ => ?_) trivial
        exact all_bind (sparesShots_read (existingIdempotentResponse _ _)) fun _ => all_orRaise _ _

theorem sparesShots_feedbackAfterCreate (env : Env) (shotId : String) (extra : ExtraContext) :
    (feedbackAfterCreate env shotId extra : TenantM h Unit).prog.All SparesShots := by
  refine Prog.All.catchWith ?_ fun e => ?_
  · exact all_bind (sparesShots_setConfig h) fun _ =>
      all_discard (sparesShots_getAiFeedback env shotId (some extra) false false)
  · cases e with
    | timeout => trivial
    | _ => exact sparesShots_rollback

/-- A create adds a shot and spares those that are there. -/
theorem sparesShots_apiBrewLogCreate (env : Env) (body : BrewLogCreateBody) :
    (apiBrewLogCreate env body : TenantM h Response).prog.All SparesShots := by
  have created (shotDate : Date) (idempotency : Option (String × String)) :
      (createShot env body shotDate idempotency : TenantM h Response).prog.All SparesShots := by
    refine all_bind (sparesShots_read SqlBrewLogRepo.listExistingIds) fun ids => ?_
    refine all_bind (all_liftExcept _) fun shotId => ?_
    refine all_bind (sparesShots_storeShot env _ idempotency) fun stored => ?_
    cases stored with
    | error replayed => trivial
    | ok created => exact all_bind (sparesShots_feedbackAfterCreate env _ _) fun _ => trivial
  refine all_bind (all_liftExcept _) fun shotDate => ?_
  simp only
  split
  · exact created shotDate none
  · refine all_bind (sparesShots_read (existingIdempotentResponse _ _)) fun existing => ?_
    cases existing with
    | some replayed => trivial
    | none => exact created shotDate _

theorem sparesShots_asMember {env : Env} {caller : Option Uuid}
    {endpoint : (m : HouseholdMember) → TenantM m.householdId Response}
    (within : ∀ m, (endpoint m).prog.All SparesShots) :
    (asMember env caller endpoint).prog.All SparesShots :=
  all_bind ((elsewhere_callerMembership env caller).mono Elsewhere.sparesShots) fun m =>
    all_bind (sparesShots_setConfig m.householdId) fun _ => within m

/-- Requests about shots spare them. -/
theorem Request.AboutShots.spares {r : Request} (about : r.AboutShots) (env : Env)
    (archive : List String) : (r.program env archive).prog.All SparesShots := by
  cases r with
  | member caller request =>
      cases request with
      | brewLogCreate body =>
          exact sparesShots_asMember fun m => sparesShots_apiBrewLogCreate env body
      | brewLogPatch shotId body =>
          exact sparesShots_asMember fun m => sparesShots_apiBrewLogPatch shotId body
      | brewLogFeedbackGenerate shotId =>
          exact sparesShots_asMember fun m => sparesShots_apiBrewLogFeedbackGenerate env shotId
      | brewLogFeedback shotId =>
          exact sparesShots_asMember fun m => sparesShots_read (apiBrewLogFeedback shotId)
      | brewLogDetail shotId =>
          exact sparesShots_asMember fun m => sparesShots_read (apiBrewLogDetail shotId)
      | _ => exact about.elim
  | brewLogList guestKey caller page perPage =>
      have listed (owner : Uuid) : (apiBrewLogList page perPage : TenantM owner Response).prog.All
          SparesShots := sparesShots_read (apiBrewLogList page perPage)
      cases guestKey with
      | none => exact sparesShots_asMember fun m => listed m.householdId
      | some raw =>
          have looked : (guestToken env raw : AccountM GuestToken).prog.All SparesShots :=
            (guestToken env raw).within.mono fun s h => h.1.sparesShots
          exact all_bind looked fun token => all_bind (sparesShots_setConfig _) fun _ => listed _
  | _ => exact about.elim

end Spares

end EspressoLogs
