import EspressoLogs.Api
import EspressoLogs.Tenant.Upserts

/-!
How a request enters its endpoint.

The dependencies resolve the household that the request acts for; doing so they
may repair the caller's active household, and so change users, but nothing else.
An endpoint is entered with that household as the context of a new transaction.
-/

namespace EspressoLogs

open Lib Py

/-! ### The household of a request -/

/-- What the dependencies of a request resolve to, if they do not raise. -/
def Call.resolved {α : Type} (c : Call) (db : State) (p : AccountM α) : Option α :=
  (CodeM.run p (c.start db)).1.toOption

/-- The household that a request acts for. -/
def Call.household (c : Call) (db : State) : Request → Option Uuid
  | .member caller _ | .brewLogList none caller _ _ =>
      (c.resolved db (callerMembership c.env caller)).map HouseholdMember.householdId
  | .brewLogList (some raw) _ _ _ =>
      (c.resolved db (guestToken c.env raw)).map GuestToken.householdId
  | .guestView householdId key =>
      (c.resolved db (guestHousehold c.env householdId key)).map fun _ => householdId
  | _ => none

theorem Call.start_spared (c : Call) (db : State) : (c.start db).session.Spared :=
  ⟨rfl, fun _ _ => rfl⟩

/-- A program on accounts ends in a session that has acted for nobody. -/
theorem accountM_run {α : Type} (p : AccountM α) {w : World Table} (hw : w.session.Spared) :
    ∃ result w', CodeM.run p w = (result, w') ∧ w'.session.Spared ∧
      ∀ t, t.tenantScoped = true → w'.db t = w.db t := by
  obtain ⟨spared, same⟩ := run_spares p.within hw
  exact ⟨_, _, rfl, spared, same⟩

/-! ### The caller's membership -/

/-- Committed and pending, all rows but those of the users are those of `db₀`. -/
def OnlyUsersDiffer (db₀ : State) (w : World Table) : Prop :=
  ∀ t, t ≠ .users → w.db t = db₀ t ∧ w.view t = db₀ t

theorem WritesUsers.leaves {s : Statement} (hs : WritesUsers s) :
    s.Leaves fun t => t ≠ Table.users := by
  cases s with
  | insert t make => exact not_not.mpr hs
  | update t p set => exact not_not.mpr hs
  | delete t p => exact not_not.mpr hs
  | deleteCascade t p => exact hs.1.elim
  | _ => trivial

/-- Resolving a caller changes the users at most. -/
theorem onlyUsers_step {db₀ : State} (s : Statement) (w : World Table) (hs : WritesUsers s)
    (hw : OnlyUsersDiffer db₀ w) : OnlyUsersDiffer db₀ (World.exec s w).2 := by
  intro t ht
  obtain ⟨db, view⟩ := hw t ht
  cases World.exec_unwritten hs.leaves w with
  | stays db' view' => exact ⟨(db' t ht).trans db, (view' t ht).trans view⟩
  | committed db' view' => exact ⟨(db' t ht).trans view, (view' t ht).trans view⟩
  | dropped db' view' => exact ⟨(db' t ht).trans db, (view' t ht).trans db⟩

theorem onlyUsers_lookup {db₀ : State} (s : Statement) (w : World Table) (hs : IsLookup s)
    (hw : OnlyUsersDiffer db₀ w) : OnlyUsersDiffer db₀ (World.exec s w).2 :=
  onlyUsers_step s w (IsLookup.writesUsers s hs) hw

/-- Setting the selection does so too. -/
theorem setActive_keeps (db₀ : State) (userId : Uuid) (householdId : Option Uuid) :
    (do UserRepo.setActive userId householdId; UserM.commit).Keeps (OnlyUsersDiffer db₀)
      fun _ => True := by
  refine ProgOf.Keeps.bind (R := fun _ => True) ?_ fun _ _ => ?_
  · exact ProgOf.Keeps.bind
      (keeps_ask (R := fun _ => True) (fun w => onlyUsers_step _ w rfl) fun _ _ _ _ => trivial)
      fun _ _ => .pure trivial
  · exact keeps_ask (fun w => onlyUsers_step _ w trivial) fun _ _ _ _ => trivial

/-- The user that is found has the id of the token. -/
theorem currentUser_keeps (db₀ : State) (caller : Option Uuid) :
    (currentUser caller).Keeps (OnlyUsersDiffer db₀) fun u => caller = some u.id := by
  refine (keeps_orRaise _ caller).bind fun userId hcaller => ?_
  refine .bind (R := fun o => ∀ u, o = some u → u.id = userId) ?_ fun o ho =>
    (keeps_orRaise _ o).mono fun u hu => by rw [hcaller, ho u hu]
  refine (keeps_lookup onlyUsers_lookup (R := fun u : User => u.id = userId)
    fun _ _ u _ hu => beq_iff_eq.mp hu).bind fun rows hrows => ?_
  exact (keeps_oneOrNone rows).mono fun o ho u hu => hrows u (ho u hu)

/-- The membership is one of `db₀`, of that user. -/
def MemberIn (db₀ : State) (userId : Uuid) (m : HouseholdMember) : Prop :=
  m ∈ db₀ .householdMembers ∧ m.userId = userId

/-- The household is one of `db₀`, and not deleted. -/
def HouseholdIn (db₀ : State) (h : Uuid) : Prop :=
  ∃ r ∈ db₀ .households, HouseholdRepo.isLive h r = true

/-- A membership that is read is one of the database. -/
theorem memberIn_of_view {db₀ : State} {w : World Table} (hw : OnlyUsersDiffer db₀ w)
    {userId : Uuid} {m : HouseholdMember} (hm : m ∈ w.view .householdMembers)
    (hu : m.userId = userId) : MemberIn db₀ userId m :=
  ⟨(hw .householdMembers nofun).2 ▸ hm, hu⟩

/-- A household that is read and live is one of the database. -/
theorem householdIn_of_view {db₀ : State} {w : World Table} (hw : OnlyUsersDiffer db₀ w)
    {h : Uuid} {r : Household} (hr : r ∈ w.view .households)
    (live : HouseholdRepo.isLive h r = true) : HouseholdIn db₀ h :=
  ⟨r, (hw .households nofun).2 ▸ hr, live⟩

/-- What resolving a membership of a user comes to. -/
def Resolved (db₀ : State) (userId : Uuid) (m : HouseholdMember) : Prop :=
  MemberIn db₀ userId m ∧ HouseholdIn db₀ m.householdId

/-- The memberships that are listed are the user's. -/
theorem getMembershipsForUser_keeps (env : Env) (db₀ : State) (userId : Uuid) :
    (HouseholdRepo.getMembershipsForUser env userId).Keeps (OnlyUsersDiffer db₀)
      fun ms => ∀ x ∈ ms, Resolved db₀ userId x.member := by
  refine (keeps_lookupJoin onlyUsers_lookup (t := .householdMembers) (u := .households)
    (R := fun x => ∀ r, x.2 = some r → r.deletedAt.isNone = true → Resolved db₀ userId x.1) ?_).bind
      fun rows hrows => .pure ?_
  · intro w hw m hm hu o partner r hr live
    obtain ⟨seen, same⟩ := partner r hr
    refine ⟨memberIn_of_view hw hm (beq_iff_eq.mp hu), householdIn_of_view hw seen ?_⟩
    rw [HouseholdRepo.isLive, same, live]
    rfl
  · intro x hx
    obtain ⟨y, hy, found⟩ := List.mem_filterMap.mp (List.mem_mergeSort.mp hx)
    obtain ⟨r, hr, rfl⟩ := Option.map_eq_some_iff.mp found
    obtain ⟨partner, live⟩ := Option.filter_eq_some_iff.mp hr
    exact hrows y hy r partner live

theorem getMember_keeps (db₀ : State) (householdId userId : Uuid) :
    (HouseholdRepo.getMember householdId userId).Keeps (OnlyUsersDiffer db₀)
      fun o => ∀ m, o = some m → MemberIn db₀ userId m ∧ m.householdId = householdId := by
  refine (keeps_lookup onlyUsers_lookup (R := fun m : HouseholdMember =>
    MemberIn db₀ userId m ∧ m.householdId = householdId) ?_).bind fun rows hrows =>
      (keeps_oneOrNone rows).mono fun o ho m hm => hrows m (ho m hm)
  intro w hw m hm selected
  simp only [HouseholdRepo.isMember, Bool.and_eq_true, beq_iff_eq] at selected
  exact ⟨memberIn_of_view hw hm selected.2, selected.1⟩

theorem getById_keeps (db₀ : State) (householdId : Uuid) :
    (HouseholdRepo.getById householdId).Keeps (OnlyUsersDiffer db₀)
      fun o => ∀ r, o = some r → HouseholdIn db₀ householdId := by
  refine (keeps_lookup onlyUsers_lookup (R := fun _ : Household => HouseholdIn db₀ householdId)
    ?_).bind fun rows hrows => (keeps_oneOrNone rows).mono fun o ho r hr => hrows r (ho r hr)
  intro w hw r hr live
  exact householdIn_of_view hw hr live

/-- The fallback is one of the user's memberships. -/
theorem fallbackMembership_keeps (env : Env) (db₀ : State) (user : User) :
    (fallbackMembership env user).Keeps (OnlyUsersDiffer db₀) (Resolved db₀ user.id) := by
  refine ProgOf.Keeps.bind (getMembershipsForUser_keeps env db₀ user.id) fun ms hms => ?_
  refine (keeps_orRaise _ ms.head?).bind fun x hx => ?_
  exact (setActive_keeps db₀ user.id (some x.member.householdId)).bind fun _ _ =>
    .pure (hms x (List.mem_of_mem_head? hx))

/-- So is the selection, where it is taken. -/
theorem resolveMembershipForUser_keeps (env : Env) (db₀ : State) (user : User) :
    (resolveMembershipForUser env user).Keeps (OnlyUsersDiffer db₀) (Resolved db₀ user.id) := by
  unfold resolveMembershipForUser
  cases user.activeHouseholdId with
  | none => exact fallbackMembership_keeps env db₀ user
  | some active =>
      refine ProgOf.Keeps.bind (getMember_keeps db₀ active user.id) fun o ho => ?_
      refine ProgOf.Keeps.bind (getById_keeps db₀ active) fun household hh => ?_
      split
      · rename_i m r
        obtain ⟨member, here⟩ := ho m rfl
        exact .pure ⟨member, here ▸ hh r rfl⟩
      · exact (setActive_keeps db₀ user.id none).bind fun _ _ =>
          fallbackMembership_keeps env db₀ user

/-- The caller's membership is one of the caller in a household that there is,
and resolving it changes users only. -/
theorem callerMembership_keeps (env : Env) (db₀ : State) (caller : Option Uuid) :
    (callerMembership env caller).Keeps (OnlyUsersDiffer db₀) fun m =>
      (m ∈ db₀ .householdMembers ∧ caller = some m.userId) ∧ HouseholdIn db₀ m.householdId := by
  refine ProgOf.Keeps.bind (currentUser_keeps db₀ caller) fun user hu => ?_
  refine (resolveMembershipForUser_keeps env db₀ user).mono fun m hm => ⟨⟨hm.1.1, ?_⟩, hm.2⟩
  rw [hu, hm.1.2]

/-! ### Entering the endpoint -/

theorem onlyUsers_start (c : Call) (db : State) : OnlyUsersDiffer db (c.start db) :=
  fun _ _ => ⟨rfl, rfl⟩

/-- What is resolved is what a run from the start returns. -/
theorem resolved_eq_some {α : Type} {c : Call} {db : State} {p : AccountM α} {a : α}
    (h : c.resolved db p = some a) : ∃ w, p.run (c.start db) = (.ok a, w) := by
  unfold Call.resolved at h
  cases result : p.run (c.start db) with
  | mk r w =>
      rw [result] at h
      cases r with
      | error e => cases h
      | ok b => cases h; exact ⟨w, rfl⟩

/-- The membership is one of the caller's, in a household that is there. -/
theorem resolved_member {c : Call} {db : State} {caller : Option Uuid} {m : HouseholdMember}
    (h : c.resolved db (callerMembership c.env caller) = some m) :
    (m ∈ db .householdMembers ∧ caller = some m.userId) ∧ HouseholdIn db m.householdId := by
  obtain ⟨w, run⟩ := resolved_eq_some h
  have keeps := (callerMembership_keeps c.env db caller (c.start db) (onlyUsers_start c db) rfl).2
  exact (keeps m (congrArg Prod.fst run)).2

/-- The rows of the tenant tables that the session sees are those of `db`. -/
def Reflects (db : State) (w : World Table) : Prop :=
  ∀ t, t.tenantScoped = true → w.view t = db t

/-- The world in which an endpoint is entered for household `h`. -/
structure Entered (h : Uuid) (db : State) (w : World Table) : Prop where
  inOrder : w.session.failed = false
  context : w.session.context = some h
  rows : OnlyUsersDiffer db w
  household : HouseholdIn db h

namespace Entered

variable {h : Uuid} {db : State} {w : World Table}

/-- The handler enters on the tenant rows of the database as it was. -/
theorem view (entered : Entered h db w) {t : Table} (ht : t.tenantScoped = true) :
    w.view t = db t :=
  (entered.rows t (by rintro rfl; cases ht)).2

/-- The household that it enters for is stored. -/
theorem stored (entered : Entered h db w) : w.stored (.households, h) = true := by
  obtain ⟨r, hr, live⟩ := entered.household
  refine List.any_eq_true.mpr ⟨r, ?_, decide_eq_true (HouseholdRepo.id_of_isLive live)⟩
  rw [(entered.rows .households nofun).2]
  exact hr

theorem reflects (entered : Entered h db w) : Reflects db w := fun _ ht => entered.view ht

/-- Without the faults to come it is a world that serves the household. -/
theorem serves (entered : Entered h db w) : Serves h w.calm :=
  ⟨World.calm_live entered.inOrder, entered.context, entered.stored⟩

/-- Behind a resolved caller the handler enters in its household. -/
theorem of_resolved {c : Call} {caller : Option Uuid} {m : HouseholdMember}
    (run : CodeM.run (callerMembership c.env caller) (c.start db) = (.ok m, w)) :
    w.session.failed = false ∧ Entered m.householdId db (w.withContext m.householdId) := by
  obtain ⟨rows, returned⟩ := callerMembership_keeps c.env db caller (c.start db)
    (onlyUsers_start c db) rfl
  have atEnd : (callerMembership c.env caller).prog.run World.exec (c.start db) = (.ok m, w) := run
  rw [atEnd] at rows returned
  obtain ⟨inOrder, _, household⟩ := returned m rfl
  exact ⟨inOrder, inOrder, rfl, rows, household⟩

end Entered

/-- Without faults, the session is live as long as nothing aborted it. -/
theorem live_of_run {α : Type} {p : AccountM α} {c : Call} {db : State} {w : World Table} {a : α}
    (noFaults : c.faults = []) (inOrder : w.session.failed = false)
    (run : p.run (c.start db) = (.ok a, w)) : w.Live := by
  have faults := Prog.run_invariant World.exec
    (I := fun w : World Table => w.session.faults = []) (fun _ _ => World.faults_exec)
    p.prog (w := c.start db) noFaults
  have atEnd : p.prog.run World.exec (c.start db) = (.ok a, w) := run
  rw [atEnd] at faults
  exact ⟨inOrder, faults⟩

/-! ### Served for a membership -/

theorem currentUser_firm (caller : Option Uuid) : (currentUser caller).Firm :=
  .bind (.orRaise _ _) fun _ => .bind (.bind (.ask _ _) fun _ => .oneOrNone _) fun _ => .orRaise _ _

theorem setActive_firm (userId : Uuid) (selection : Option Uuid) :
    (UserRepo.setActive userId selection).Firm :=
  .bind (.ask _ _) fun _ => .pure _

theorem fallbackMembership_firm (env : Env) (user : User) : (fallbackMembership env user).Firm := by
  have listed : (HouseholdRepo.getMembershipsForUser env user.id).Firm :=
    .bind (.ask _ _) fun _ => .pure _
  refine .bind (.lift _ listed) fun _ => .bind (.orRaise _ _) fun _ => ?_
  exact .bind (.bind (setActive_firm _ _) fun _ => .ask .commit trivial) fun _ => .pure _

theorem resolveMembershipForUser_firm (env : Env) (user : User) :
    (resolveMembershipForUser env user).Firm := by
  unfold resolveMembershipForUser
  cases user.activeHouseholdId with
  | none => exact fallbackMembership_firm env user
  | some active =>
      have member : (HouseholdRepo.getMember active user.id).Firm :=
        .bind (.ask _ _) fun _ => .oneOrNone _
      have household : (HouseholdRepo.getById active).Firm := .bind (.ask _ _) fun _ => .oneOrNone _
      refine .bind (.lift _ member) fun m => .bind (.lift _ household) fun r => ?_
      have cleared : CodeM.Firm (do
          UserRepo.clearActiveHousehold user.id
          fallbackMembership env user) :=
        .bind (.bind (setActive_firm _ _) fun _ => .ask .commit trivial) fun _ =>
          fallbackMembership_firm env user
      cases m with
      | none => exact cleared
      | some m =>
          cases r with
          | none => exact cleared
          | some r => exact .pure _

theorem callerMembership_firm (env : Env) (caller : Option Uuid) :
    (callerMembership env caller).Firm :=
  .bind (.lift _ (currentUser_firm caller)) fun _ => resolveMembershipForUser_firm env _

/-- A request for a membership that was answered: its endpoint was entered, and
answers the same when no statement meets a fault. -/
theorem asMember_answered {c : Call} {db : State} {caller : Option Uuid} {response : Response}
    {w' : World Table} {endpoint : (m : HouseholdMember) → TenantM m.householdId Response}
    (firm : ∀ m, (endpoint m).Firm)
    (answered : (asMember c.env caller endpoint).run (c.start db) = (.ok response, w')) :
    ∃ m w, c.resolved db (callerMembership c.env caller) = some m ∧ w.Live ∧
      Entered m.householdId db w ∧ (endpoint m).run w = (.ok response, w'.calm) := by
  obtain ⟨m, w₀, resolved, entered⟩ := CodeM.run_bind_eq_ok answered
  have found : CodeM.run (callerMembership c.env caller) (c.start db) = (.ok m, w₀) := resolved
  have known : c.resolved db (callerMembership c.env caller) = some m := by
    unfold Call.resolved
    have run : CodeM.run (callerMembership c.env caller : AccountM _) (c.start db) = (.ok m, w₀) :=
      found
    rw [run]
    rfl
  have run : CodeM.run (callerMembership c.calm.env caller) (c.calm.start db) = (.ok m, w₀.calm) :=
    callerMembership_firm c.env caller _ _ _ found
  obtain ⟨inOrder, there⟩ := Entered.of_resolved run
  have live : w₀.calm.Live := live_of_run (p := callerMembership c.calm.env caller) rfl inOrder run
  have inside : (inContext m.householdId (endpoint m)).Firm :=
    .lift (fun _ _ => trivial) (.bind (.ask _ _) fun _ => firm m)
  obtain ⟨_, w₁, context, rest⟩ := CodeM.run_bind_eq_ok (inside _ _ _ entered)
  cases (run_setConfig live m.householdId).symm.trans context
  exact ⟨m, _, known, live.withContext _, there, rest⟩

/-- A request of a caller whose membership is found, when no statement meets a fault: it
comes to what its endpoint comes to. -/
theorem run_asMember {c : Call} {db : State} {caller : Option Uuid} {m : HouseholdMember}
    (calm : c.faults = []) (resolved : c.resolved db (callerMembership c.env caller) = some m) :
    ∃ w, (∃ w₀, CodeM.run (callerMembership c.env caller) (c.start db) = (.ok m, w₀) ∧
        w = w₀.withContext m.householdId) ∧ w.Live ∧ Entered m.householdId db w ∧
      ∀ (endpoint : (m : HouseholdMember) → TenantM m.householdId Response) x,
        (endpoint m).run w = x → (asMember c.env caller endpoint).run (c.start db) = x := by
  obtain ⟨w, run⟩ := resolved_eq_some resolved
  have found : CodeM.run (callerMembership c.env caller) (c.start db) = (.ok m, w) := run
  obtain ⟨inOrder, entered⟩ := Entered.of_resolved found
  have live : w.Live := live_of_run calm inOrder run
  refine ⟨w.withContext m.householdId, ⟨w, found, rfl⟩, live.withContext _, entered, ?_⟩
  intro endpoint x there
  exact CodeM.run_bind_of found (CodeM.run_bind_of (run_setConfig live m.householdId) there)

/-- An answer is one of the handler's, for the membership that was resolved. -/
theorem asMember_eq_ok {c : Call} {db : State} {caller : Option Uuid} {response : Response}
    {w' : World Table} {endpoint : (m : HouseholdMember) → TenantM m.householdId Response}
    (firm : ∀ m, (endpoint m).Firm)
    (answered : (asMember c.env caller endpoint).run (c.start db) = (.ok response, w')) :
    ∃ m w, w.Live ∧ Entered m.householdId db w ∧
      (endpoint m).run w = (.ok response, w'.calm) := by
  obtain ⟨m, w, _, rest⟩ := asMember_answered firm answered
  exact ⟨m, w, rest⟩

/-- A request for a membership that raised changed users at most. -/
theorem asMember_error {c : Call} {db : State} {caller : Option Uuid} {e : Exc} {w' : World Table}
    {endpoint : (m : HouseholdMember) → TenantM m.householdId Response}
    (last : ∀ m, (endpoint m).CommitsLast)
    (raised : (asMember c.env caller endpoint).run (c.start db) = (.error e, w')) :
    ∀ t, t ≠ .users → w'.db t = db t := by
  have rows := (callerMembership_keeps c.env db caller (c.start db) (onlyUsers_start c db) rfl).1
  cases resolved : CodeM.run (callerMembership c.env caller : AppM HouseholdMember) (c.start db) with
  | mk result w =>
      have atEnd : (callerMembership c.env caller).prog.run World.exec (c.start db) = (result, w) :=
        resolved
      rw [atEnd] at rows
      cases result with
      | error e₁ =>
          cases (CodeM.run_bind_error resolved).symm.trans raised
          exact fun t ht => (rows t ht).1
      | ok m =>
          have rest := (CodeM.run_bind_ok resolved).symm.trans raised
          have inside : CodeM.CommitsLast (do
              setConfig m.householdId
              endpoint m) :=
            .bind (all_ask (P := Stmt.ActsFor m.householdId) nofun) fun _ => last m
          intro t ht
          rw [inside w w' e rest]
          exact (rows t ht).1

/-! ### A guest's token -/

section GuestToken

variable {env : Env} {key : String}

/-- The guest's key is that of one link which is not revoked and not expired. -/
theorem guestToken_eq_ok {w w' : World Table} (live : w.Live) {g : GuestToken}
    (returned : (guestToken env key).run w = (.ok g, w')) :
    w' = w ∧ (w.view .guestTokens).filter (fun g : GuestToken => g.tokenHash == env.sha256Hex key &&
      g.revokedAt.isNone && HouseholdRepo.notExpired env g) = [g] := by
  obtain ⟨o, w₁, found, taken⟩ := CodeM.run_bind_eq_ok returned
  obtain ⟨rfl, rfl⟩ := CodeM.run_orRaise_eq_ok taken
  obtain ⟨rows, w₂, selected, one⟩ := CodeM.run_bind_eq_ok found
  obtain ⟨rfl, rfl⟩ := CodeM.run_oneOrNone_eq_ok one
  have looked := run_lookup live .guestTokens (fun g : GuestToken =>
    g.tokenHash == env.sha256Hex key && g.revokedAt.isNone && HouseholdRepo.notExpired env g) rfl
  have same := looked.symm.trans selected
  injection same with rows still
  injection rows with rows
  exact ⟨still.symm, rows⟩

/-- With such a link the guest is let in. -/
theorem run_guestToken {w : World Table} (live : w.Live) {g : GuestToken}
    (found : (w.view .guestTokens).filter (fun g : GuestToken => g.tokenHash == env.sha256Hex key &&
      g.revokedAt.isNone && HouseholdRepo.notExpired env g) = [g]) :
    (guestToken env key).run w = (.ok g, w) := by
  have looked := run_lookup live .guestTokens (fun g : GuestToken =>
    g.tokenHash == env.sha256Hex key && g.revokedAt.isNone && HouseholdRepo.notExpired env g) rfl
  rw [found] at looked
  exact CodeM.run_bind_of (CodeM.run_bind_of looked rfl) rfl

end GuestToken

end EspressoLogs
