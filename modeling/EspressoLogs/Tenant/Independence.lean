import EspressoLogs.Tenant.Confinement

/-!
What the answer to a request depends on.

The endpoints that write no row of a tenant table answer from the accounts and from
the rows of the household that they act for. So whatever the other households log, own
or maintain, the answers are the same, over whole runs (`answers_independent`), and they
are what they were without the requests of the others (`others_unobserved`).
-/

namespace EspressoLogs

open Lib Py

variable {h : Uuid} {w₁ w₂ : World Table}

theorem Table.fst_of_mem_reference {t : Table} {o : Option Uuid} {ref : Table × Uuid}
    (mem : ref ∈ reference t o) : ref.1 = t := by
  cases o with
  | none => cases mem
  | some k =>
      cases List.mem_singleton.mp mem
      rfl

/-- The tables of the accounts refer to each other, and to no tenant table. -/
theorem Table.sharedApart : SharedApart Table := by
  intro t r ht ref mem
  cases t with
  | catalog | inventoryBags | hardware | maintenanceLog | brewLog => cases ht
  | users => exact fst_of_mem_reference mem ▸ rfl
  | households =>
      cases List.mem_singleton.mp mem
      rfl
  | pendingInvitations | guestTokens | importSessions =>
      rcases List.mem_cons.mp mem with rfl | mem
      · rfl
      · cases List.mem_singleton.mp mem
        rfl
  | householdMembers =>
      rcases List.mem_cons.mp mem with rfl | mem
      · rfl
      · rcases List.mem_cons.mp mem with rfl | mem
        · rfl
        · exact fst_of_mem_reference mem ▸ rfl

/-! ### Endpoints -/

/-- A read is sheltered: it changes nothing. -/
theorem sheltered_read {α : Type} (p : ReadM α) : p.prog.All (Stmt.Sheltered (T := Table) h) := by
  refine p.within.mono fun s hs => ?_
  cases s with
  | currentSetting | select | join | column => trivial
  | _ => exact hs.elim

theorem sheltered_account {α : Type} (p : AccountM α) :
    p.prog.All (Stmt.Sheltered (T := Table) h) :=
  p.within.mono fun _ hs => hs.sheltered

/-- The check of the role reads nothing more. -/
theorem sheltered_requireAdmin {m : HouseholdMember} (p : AccountM Response) :
    (requireAdmin m (p : TenantM m.householdId Response)).prog.All
      (Stmt.Sheltered m.householdId) := by
  by_cases admin : m.role = .admin
  · rw [requireAdmin_of_admin admin]
    exact sheltered_account p
  · rw [requireAdmin_of_member admin]
    trivial

/-- The requests that write rows of tenant tables, or let them go. -/
def MemberRequest.writesRows : MemberRequest → Bool
  | brewLogPatch .. | brewLogFeedbackGenerate .. | brewLogCreate .. | brewLogDelete ..
  | catalogCreate .. | catalogUpdate .. | catalogUploadImage .. | catalogAddBag ..
  | inventoryPatch .. | hardwareCreate .. | hardwareUpdate .. | maintenanceCreate ..
  | householdDelete .. => true
  | _ => false

/-- The request writes rows under the policies. -/
def Request.writesRows : Request → Bool
  | .member _ request => request.writesRows
  | _ => false

/-- A request that writes no tenant rows is sheltered. -/
theorem MemberRequest.sheltered {request : MemberRequest} (reads : request.writesRows = false)
    (env : Env) (archive : List String) (m : HouseholdMember) :
    (request.endpoint env archive m).prog.All (Stmt.Sheltered m.householdId) := by
  cases request with
  | brewLogPatch | brewLogFeedbackGenerate | brewLogCreate | brewLogDelete | catalogCreate
  | catalogUpdate | catalogUploadImage | catalogAddBag | inventoryPatch | hardwareCreate
  | hardwareUpdate | maintenanceCreate | householdDelete => cases reads
  | brewLogFeedback | brewLogDetail | catalogList | catalogDetail | catalogInfer | inventoryList
  | inventoryDetail | hardwareActionTypes | hardwareList | hardwareDetail | maintenanceList
  | dashboard | defaults | defaultsQuery => exact sheltered_read _
  | householdDetail householdId => exact sheltered_account (getHousehold env householdId m)
  | householdRename householdId name =>
      exact sheltered_requireAdmin (renameHousehold householdId name m)
  | invitationCreate email role =>
      exact sheltered_requireAdmin (createInvite env email role m)
  | invitationRevoke id =>
      exact sheltered_requireAdmin (revokeInvitation env id m)
  | invitationResend id =>
      exact sheltered_requireAdmin (resendInvitation env id m)
  | memberRemove userId =>
      exact sheltered_requireAdmin (removeMember env userId m)
  | memberUpdateRole userId role =>
      exact sheltered_requireAdmin (updateMemberRole userId role m)
  | guestTokenGenerate householdId =>
      exact sheltered_requireAdmin (generateGuestToken env householdId m)
  | guestTokenRevoke householdId =>
      exact sheltered_requireAdmin (revokeGuestToken env householdId m)
  | resetPassword username newPassword newHash =>
      exact sheltered_requireAdmin (adminResetPassword env username newPassword newHash m)
  | importStart => exact sheltered_requireAdmin (startImportWizard env m)

/-! ### Requests -/

/-- A request that resolves a household, and an endpoint that acts for it. -/
theorem run_resolved {α : Type} (resolve : AccountM α) {of : α → Uuid}
    {endpoint : (a : α) → TenantM (of a) Response} {p : AppM Response}
    (is : p = do let a ← resolve; inContext (of a) (endpoint a)) (alike : Lib.Alike h w₁ w₂)
    (acts : ∀ a, (CodeM.run resolve w₁).1 = .ok a → of a = h)
    (sheltered : ∀ a, (endpoint a).prog.All (Stmt.Sheltered (of a))) :
    (p.run w₁).1 = (p.run w₂).1 ∧ Lib.Alike h (p.run w₁).2 (p.run w₂).2 := by
  subst is
  obtain ⟨same, after⟩ := alike.run Table.sharedApart (sheltered_account resolve)
  cases first : CodeM.run (resolve : AppM α) w₁ with
  | mk r₁ v₁ =>
      cases second : CodeM.run (resolve : AppM α) w₂ with
      | mk r₂ v₂ =>
          have ran₁ : resolve.prog.run World.exec w₁ = (r₁, v₁) := first
          have ran₂ : resolve.prog.run World.exec w₂ = (r₂, v₂) := second
          rw [ran₁, ran₂] at same after
          cases same
          cases r₁ with
          | error e =>
              rw [CodeM.run_bind_error first, CodeM.run_bind_error second]
              exact ⟨rfl, after⟩
          | ok a =>
              rw [CodeM.run_bind_ok first, CodeM.run_bind_ok second]
              cases acts a (congrArg Prod.fst ran₁)
              have inside : (do setConfig (of a); endpoint a).prog.All (Stmt.Sheltered (of a)) :=
                Prog.All.bind ⟨rfl, fun r => by cases r <;> trivial⟩ fun _ => sheltered a
              exact after.run Table.sharedApart inside

/-- The states agree on the accounts and on the rows of a household. -/
structure SameFor (h : Uuid) (db db' : State) : Prop where
  shared : ∀ t, t.tenantScoped = false → db t = db' t
  rows : ∀ t, t.tenantScoped = true → own (T := Table) h t (db t) = own (T := Table) h t (db' t)

/-- The request acts for a household, or for nobody, and writes no row of a tenant table. -/
structure AsksFor (h : Uuid) (c : Call) (r : Request) (db : State) : Prop where
  reads : r.writesRows = false
  acts : c.household db r = none ∨ c.household db r = some h

/-- The household that is asked for is the one that is resolved. -/
theorem AsksFor.resolved {c : Call} {r : Request} {db : State} (asks : AsksFor h c r db) {α : Type}
    {p : AccountM α} {of : α → Uuid} (is : c.household db r = (c.resolved db p).map of) :
    ∀ a, (CodeM.run p (c.start db)).1 = .ok a → of a = h := by
  intro a ran
  have acts := asks.acts
  rw [is, Call.resolved, ran] at acts
  rcases acts with none | some
  · cases none
  · exact Option.some.inj some

/-- Of the rows of tenant tables the answer depends on those of the household only, and
afterwards the states agree again. -/
theorem serve_independent {c : Call} {r : Request} {db db' : State} (asks : AsksFor h c r db)
    (same : SameFor h db db') :
    (c.serve r db).1 = (c.serve r db').1 ∧ SameFor h (c.serve r db).2 (c.serve r db').2 := by
  have alike : Lib.Alike h (c.start db) (c.start db') :=
    ⟨(c.start_spared db).actsFor h, rfl, same.shared, same.rows⟩
  have ran : ((r.program c.env c.archive).run (c.start db)).1 =
        ((r.program c.env c.archive).run (c.start db')).1 ∧
      Lib.Alike h ((r.program c.env c.archive).run (c.start db)).2
        ((r.program c.env c.archive).run (c.start db')).2 := by
    cases r with
    | member caller request =>
        exact run_resolved (callerMembership c.env caller) rfl alike
          (asks.resolved rfl) fun m => MemberRequest.sheltered asks.reads c.env c.archive m
    | brewLogList guestKey caller page perPage =>
        cases guestKey with
        | none =>
            exact run_resolved (callerMembership c.env caller) rfl alike
              (asks.resolved rfl) fun _ => sheltered_read (apiBrewLogList page perPage)
        | some raw =>
            exact run_resolved (guestToken c.env raw) rfl alike
              (asks.resolved rfl) fun _ => sheltered_read (apiBrewLogList page perPage)
    | guestView householdId key =>
        exact run_resolved (guestHousehold c.env householdId key) rfl alike
          (asks.resolved rfl) fun household => sheltered_read (guestView household.name)
    | householdCreate | householdList | invitationPreview | invitationAccept | invitationDecline
    | me | switchHousehold | signIn =>
        exact alike.run Table.sharedApart (sheltered_account _)
  obtain ⟨result, after⟩ := ran
  exact ⟨congrArg respond result, after.shared, after.rows⟩

/-! ### Runs -/

/-- The answers to requests that are served one after the other. -/
def answers : List (Call × Request) → State → List Response
  | [], _ => []
  | (c, r) :: rest, db => (c.serve r db).1 :: answers rest (c.serve r db).2

/-- Each of the requests is one that asks for a household, when it is served. -/
def AllAskFor (h : Uuid) : List (Call × Request) → State → Prop
  | [], _ => True
  | (c, r) :: rest, db => AsksFor h c r db ∧ AllAskFor h rest (c.serve r db).2

/-- Whatever the other households log, own or maintain: requests that ask for a
household are answered the same. The two states agree on the accounts and on the rows of
the household; the requests act for that household or for nobody and write no tenant
row, each in the state in which it is served. Faults may strike, the same in both runs. -/
theorem answers_independent {requests : List (Call × Request)} {db db' : State}
    (asks : AllAskFor h requests db) (same : SameFor h db db') :
    answers requests db = answers requests db' := by
  induction requests generalizing db db' with
  | nil => rfl
  | cons x rest ih =>
      obtain ⟨c, r⟩ := x
      obtain ⟨first, others⟩ := asks
      obtain ⟨answer, after⟩ := serve_independent first same
      unfold answers
      rw [answer, ih others after]

/-! ### Other households -/

/-- The request acts for another household. -/
def Call.actsElsewhere (c : Call) (h : Uuid) (db : State) (r : Request) : Bool :=
  match c.household db r with
  | some g => g ≠ h
  | none => false

/-- It does, and leaves the accounts as they were. -/
structure ForOthers (h : Uuid) (c : Call) (r : Request) (db : State) : Prop where
  acts : c.actsElsewhere h db r = true
  accounts : ∀ t, t.tenantScoped = false → (c.serve r db).2 t = db t

/-- Such a request acts for no other household. -/
theorem AsksFor.here {c : Call} {r : Request} {db : State} (asks : AsksFor h c r db) :
    c.actsElsewhere h db r = false := by
  unfold Call.actsElsewhere
  rcases asks.acts with none | some
  · rw [none]
  · rw [some]
    exact decide_eq_false (not_not.mpr rfl)

/-- What is not of one household still holds what is of another. -/
theorem own_others {g : Uuid} (other : g ≠ h) {t : Table} (rows : List t.Row) :
    own (T := Table) h t (others (T := Table) g t rows) = own (T := Table) h t rows := by
  unfold own others
  rw [List.filter_filter]
  refine List.filter_congr fun r _ => ?_
  by_cases mine : Schema.owner (T := Table) t r = some h
  · have notTheirs : Schema.owner (T := Table) t r ≠ some g := by
      rw [mine]
      exact fun same => other (Option.some.inj same).symm
    rw [decide_eq_true mine, decide_eq_true notTheirs]
    rfl
  · rw [decide_eq_false mine]
    rfl

/-- What another household does changes nothing for this one. -/
theorem ForOthers.same {c : Call} {r : Request} {db db' : State} (elsewhere : ForOthers h c r db)
    (same : SameFor h db db') : SameFor h (c.serve r db).2 db' := by
  refine ⟨fun t ht => (elsewhere.accounts t ht).trans (same.shared t ht), fun t ht => ?_⟩
  have acts := elsewhere.acts
  have confined := serve_confined c r db
  unfold Call.actsElsewhere at acts
  cases household : c.household db r with
  | none =>
      rw [household] at acts
      cases acts
  | some g =>
      rw [household] at acts confined
      have other : g ≠ h := of_decide_eq_true acts
      calc own (T := Table) h t ((c.serve r db).2 t)
          = own (T := Table) h t (others (T := Table) g t ((c.serve r db).2 t)) :=
            (own_others other _).symm
        _ = own (T := Table) h t (others (T := Table) g t (db t)) := by rw [confined t ht]
        _ = own (T := Table) h t (db t) := own_others other _
        _ = own (T := Table) h t (db' t) := same.rows t ht

/-- The requests of a run that do not act for other households, with their answers. -/
def observed (h : Uuid) : List (Call × Request) → State → List ((Call × Request) × Response)
  | [], _ => []
  | (c, r) :: rest, db =>
      let later := observed h rest (c.serve r db).2
      if c.actsElsewhere h db r then later else ((c, r), (c.serve r db).1) :: later

/-- Each of the requests asks for the household or acts for another, when it is served. -/
def Mixed (h : Uuid) : List (Call × Request) → State → Prop
  | [], _ => True
  | (c, r) :: rest, db =>
      (AsksFor h c r db ∨ ForOthers h c r db) ∧ Mixed h rest (c.serve r db).2

/-- The household's requests are answered as if it were alone. -/
theorem answers_observed {requests : List (Call × Request)} {db db' : State}
    (mixed : Mixed h requests db) (same : SameFor h db db') :
    (observed h requests db).map Prod.snd =
      answers ((observed h requests db).map Prod.fst) db' := by
  induction requests generalizing db db' with
  | nil => rfl
  | cons x rest ih =>
      obtain ⟨c, r⟩ := x
      obtain ⟨asks | elsewhere, later⟩ := mixed
      · obtain ⟨answer, after⟩ := serve_independent asks same
        unfold observed
        rw [asks.here, if_neg Bool.false_ne_true, List.map_cons, List.map_cons, answers, ← answer,
          ih later after]
      · unfold observed
        rw [elsewhere.acts, if_pos rfl]
        exact ih later (elsewhere.same same)

/-- A household that asks is answered as if the requests that act for other households
had never been made, whatever these write to tenant tables. The accounts are not theirs
to write: a request for another household that changes memberships or tokens is not one
of those that are left out, and no run with one is spoken of. -/
theorem others_unobserved {requests : List (Call × Request)} {db : State}
    (mixed : Mixed h requests db) :
    (observed h requests db).map Prod.snd =
      answers ((observed h requests db).map Prod.fst) db :=
  answers_observed mixed ⟨fun _ _ => rfl, fun _ _ => rfl⟩

namespace Sample

/-- A shot of another household. -/
def foreignShot : BrewLog :=
  { shot with id := id 40, householdId := some (id 9), sheetsId := some "S40" }

/-- The sample's database with a shot of another household. -/
def besides : State
  | .brewLog => foreignShot :: db .brewLog
  | t => db t

/-- The two databases are the same for the household of the sample. -/
theorem besides_same : SameFor household.id db besides where
  shared t ht := by cases t <;> first | rfl | cases ht
  rows t _ := by cases t <;> rfl

/-- Requests of one household. -/
def asking : List (Call × Request) :=
  [(call, .member (some ada.id) (.brewLogDetail "S1")), (call, .me (some ada.id)),
    (call, .brewLogList none (some ada.id) 1 50)]

theorem asking_for : AllAskFor household.id asking db :=
  ⟨⟨rfl, .inr (by decide +kernel)⟩, ⟨rfl, .inl rfl⟩, ⟨rfl, .inr (by decide +kernel)⟩,
    trivial⟩

/-- So its requests are answered alike. -/
theorem asking_independent : answers asking db = answers asking besides :=
  answers_independent asking_for besides_same

/-! Bea, the admin of the other household, deletes its shot while Ada asks. -/

/-- The only member of another household. -/
def bea : User := { ada with id := id 8, username := some "bea", activeHouseholdId := some (id 9) }

/-- Two households, each with a shot. -/
def neighbours : State
  | .users => [ada, bea]
  | .households => [household, { household with id := id 9, createdBy := bea.id }]
  | .householdMembers =>
      [membership, { membership with id := id 7, householdId := id 9, userId := bea.id }]
  | .brewLog => [shot, foreignShot]
  | _ => []

/-- Requests of both, one after the other. -/
def mingled : List (Call × Request) :=
  [(call, .member (some ada.id) (.brewLogDetail "S1")),
    (call, .member (some bea.id) (.brewLogDelete "S40")),
    (call, .brewLogList none (some ada.id) 1 50)]

theorem mingled_mixed : Mixed household.id mingled neighbours := by
  refine ⟨.inl ⟨rfl, .inr (by decide +kernel)⟩, .inr ⟨by decide +kernel, fun t ht => ?_⟩,
    .inl ⟨rfl, .inr (by decide +kernel)⟩, trivial⟩
  cases t <;> first | rfl | cases ht

/-- The answers are those without the other household's delete in between. -/
theorem mingled_unobserved : (observed household.id mingled neighbours).map Prod.snd =
    answers ((observed household.id mingled neighbours).map Prod.fst) neighbours :=
  others_unobserved mingled_mixed

end Sample

end EspressoLogs
