import EspressoLogs.Api
import EspressoLogs.Lib.Checked
import EspressoLogs.Lib.Outline
import EspressoLogs.Lib.Schedule

/-!
Requests side by side.

Every request is a client of the database: it runs its program in a session of
its own, and its statements may fall anywhere between those of the others.
-/

namespace EspressoLogs

open Lib Py

instance : CompleteSchema Table where
  mem_tables t := by cases t <;> decide

/-- A request that is about to be served. -/
def Call.client (c : Call) (r : Request) : Client Table Exc Response :=
  Client.start (r.program c.env c.archive).prog c.supply c.faults

/-- Requests that are served side by side. -/
def sideBySide (db : State) (requests : List (Call × Request)) : Pool Table Exc Response :=
  ⟨db, requests.map fun x => x.1.client x.2, []⟩

/-- The indexes of the database hold. -/
structure Indexed (db : State) : Prop where
  keyed : ∀ t : Table, t.Keyed (db t)
  distinct : ∀ t : Table, NoShare (T := Table) t (db t)

instance (t : Table) (rows : List t.Row) : Decidable (t.Keyed rows) :=
  inferInstanceAs (Decidable (rows.map t.id).Nodup)

/-- The indexes may be checked table by table. -/
theorem indexed_of_all {db : State}
    (h : ∀ t ∈ Table.all, t.Keyed (db t) ∧ NoShare (T := Table) t (db t)) : Indexed db where
  keyed t := (h t (CompleteSchema.mem_tables t)).1
  distinct t := (h t (CompleteSchema.mem_tables t)).2

/-- Requests that run side by side start in order. -/
theorem sideBySide_inOrder {db : State} {requests : List (Call × Request)} (indexed : Indexed db)
    (orderly : ∀ x ∈ requests, (x.2.program x.1.env x.1.archive).prog.All Stmt.Orderly) :
    (sideBySide db requests).InOrder where
  keyed := indexed.keyed
  distinct := indexed.distinct
  clients c hc := by
    obtain ⟨x, hx, rfl⟩ := List.mem_map.mp hc
    exact ⟨fun _ => trivial, indexed.distinct, orderly x hx⟩
  clear := by
    refine List.pairwise_map.mpr (List.pairwise_of_forall fun x y => ?_)
    exact Pool.clear_nil _

/-! ### Outlines of reads -/

/-- A read leaves the changes of its transaction pending, or they are gone with it. -/
theorem pending_of_read {s : Statement} (h : IsRead s) (found : List Uuid) (w : World Table) :
    (World.execOn found s w).2.session.pending = w.session.pending ∨
      (World.execOn found s w).2.session.pending = fun _ => [] := by
  have uncommitting : s.narrow found ≠ .commit := fun committing => by
    rw [Stmt.narrow_eq_commit.mp committing] at h
    exact h
  have orderly : (s.narrow found).Orderly := by cases s <;> trivial
  rw [World.execOn_world]
  cases World.exec_leaves uncommitting orderly (w := w) with
  | kept same => exact .inl same
  | dropped empty => exact .inr empty
  | wrote t c inOrder change =>
      cases s <;> first | exact h.elim | cases change

section Safe

variable {rely : World Table → Tables Table → Prop} {promise : Statement → World Table → Prop}
  {α : Type} {w : World Table}

/-- Two parts: what the first leaves is what the second needs. -/
theorem safe_bind {P : Statement → Prop} {β : Type} {p : CodeM P α} {f : α → CodeM P β}
    {post : β → World Table → Prop} {fails : Exc → World Table → Prop}
    (first : p.prog.Safe rely promise
      (fun a v => (f a).prog.Safe rely promise post fails v) fails w) :
    (p >>= f).prog.Safe rely promise post fails w :=
  Prog.Safe.bind first

/-- One statement, asked while others commit. -/
theorem safe_ask {s : Statement} {post : Ans s → World Table → Prop}
    {fails : Exc → World Table → Prop}
    (kept : ∀ db, rely w db → promise s ⟨db, w.session⟩)
    (answers : ∀ db found a v, rely w db →
      World.execOn found s ⟨db, w.session⟩ = (.ok a, v) → post a v)
    (raises : ∀ db found e v, rely w db →
      World.execOn found s ⟨db, w.session⟩ = (.error e, v) → fails (.db e) v) :
    (ask s trivial : AppM (Ans s)).prog.Safe rely promise post fails w := by
  intro db moved
  refine ⟨kept db moved, fun found r v answered => ?_⟩
  cases r with
  | ok a => exact answers db found a v moved answered
  | error e => exact raises db found e v moved answered

/-- A lookup writes nothing, and loses what was written when it fails. -/
theorem safe_lookup (p : LookupM α) (J : Writes Table → Prop)
    (promises : ∀ s v, IsRead s → promise s v) (start : J w.session.pending)
    (dropped : J fun _ => []) :
    p.prog.Safe rely promise (fun _ v => J v.session.pending) (fun _ _ => True) w := by
  refine Prog.Safe.mono (Prog.Safe.of_all (J := fun v => J v.session.pending) p.within ?_ ?_ start)
    (fun _ _ h => h) fun _ _ _ => trivial
  · exact fun s v reads _ db _ => promises s _ reads.1
  · intro s v reads here db found _
    rcases pending_of_read reads.1 found ⟨db, v.session⟩ with same | empty
    · rw [same]
      exact here
    · rw [empty]
      exact dropped

theorem safe_liftExcept {P : Statement → Prop} {post : α → World Table → Prop}
    {fails : Exc → World Table → Prop} {x : Except Exc α}
    (ok : ∀ a, x = .ok a → post a w) (error : ∀ e, x = .error e → fails e w) :
    (liftExcept x : CodeM P α).prog.Safe rely promise post fails w := by
  cases x with
  | ok a => exact ok a rfl
  | error e => exact error e rfl

/-- A missing row is raised as an exception. -/
theorem safe_orRaise {P : Statement → Prop} {post : α → World Table → Prop}
    {fails : Exc → World Table → Prop} {o : Option α} {e : Exc}
    (some : ∀ a, o = .some a → post a w) (none : o = .none → fails e w) :
    (orRaise e o : CodeM P α).prog.Safe rely promise post fails w := by
  cases o with
  | some a => exact some a rfl
  | none => exact none rfl

/-- `scalar_one_or_none` over the rows that were read. -/
theorem safe_oneOrNone {P : Statement → Prop} {post : Option α → World Table → Prop}
    {fails : Exc → World Table → Prop} {rows : List α} (empty : rows = [] → post none w)
    (one : ∀ a, rows = [a] → post (some a) w) (several : fails .multipleResults w) :
    (oneOrNone rows : CodeM P (Option α)).prog.Safe rely promise post fails w := by
  match rows with
  | [] => exact empty rfl
  | [a] => exact one a rfl
  | a :: b :: rest => exact several

/-- Reading a row again gives a row under the same id. -/
theorem safe_refresh (t : Table) (row : t.Row) (ht : t.tenantScoped = false) (J : Writes Table → Prop)
    (promises : ∀ s v, IsRead s → promise s v) (start : J w.session.pending) :
    (AccountM.refresh t row ht).prog.Safe rely promise
      (fun r v => t.id r = t.id row ∧ J v.session.pending) (fun _ _ => True) w := by
  unfold AccountM.refresh
  refine safe_bind (safe_ask (fun db _ => promises _ _ trivial) ?_ fun _ _ _ _ _ _ => trivial)
  intro db found rows v _ answered
  obtain ⟨_, selected, kept, _, _⟩ := World.execOn_select answered
  have here : J v.session.pending := by
    rw [kept]
    exact start
  refine safe_bind (safe_oneOrNone (fun _ => ?_) (fun r one => ?_) trivial)
  · exact safe_orRaise nofun fun _ => trivial
  · refine safe_orRaise (fun a same => ?_) nofun
    cases same
    have mem : r ∈ (World.visible ⟨db, w.session⟩ t).filter fun r => t.id r == t.id row := by
      rw [← selected, one]
      exact List.mem_singleton_self r
    have matched := (List.mem_filter.mp mem).2
    exact ⟨beq_iff_eq.mp matched, here⟩

end Safe

section Checked

variable {known : Statement → World Table → Prop} {P : Statement → Prop} {α β : Type}
  {w : World Table} {p : CodeM P α} {f : α → CodeM P β}

/-- The rest is checked in the states that the first part leaves. -/
theorem checked_bind (first : p.prog.Safe (fun _ _ => True) known
      (fun a v => (f a).prog.Checked known v) (fun _ _ => True) w) :
    (p >>= f).prog.Checked known w :=
  Prog.Checked.bind first

/-- The same where nothing needs to be known of those states. -/
theorem checked_andThen (first : p.prog.Checked known w)
    (later : ∀ a v, (f a).prog.Checked known v) : (p >>= f).prog.Checked known w :=
  Prog.Checked.andThen first later

/-- The statement that needed the check. -/
theorem checked_ask {s : Statement} (here : known s w) :
    (ask s trivial : AppM (Ans s)).prog.Checked known w := by
  refine ⟨here, fun _ _ r _ _ => ?_⟩
  cases r with
  | ok a => trivial
  | error e => trivial

end Checked

/-- What the requests about members and invitations do besides inserting rows and
updating invitations: they read, commit and set the context, they update users,
who stay who they are, and they delete members. -/
structure Usual (Q : Statement → Prop) : Prop where
  read : ∀ s, IsRead s → Q s
  commit : Q .commit
  setConfig : ∀ h, Q (.setConfig h)
  users : ∀ p set, (∀ u u', set u = .ok u' → u'.id = u.id) → Q (.update .users p set)
  members : ∀ p, Q (.delete .householdMembers p)

/-- An update of invitations that stay in their household. -/
def KeepsHousehold (set : PendingInvitation → Except StmtError PendingInvitation) : Prop :=
  ∀ i i', set i = .ok i' → i'.id = i.id ∧ i'.householdId = i.householdId

section Programs

variable {Q : Statement → Prop} (usual : Usual Q)

include usual

/-- A lookup is made of reads. -/
theorem all_lookup {α : Type} (p : LookupM α) : p.prog.All Q :=
  p.within.mono fun s h => usual.read s h.1

theorem all_refresh (t : Table) (row : t.Row) (ht : t.tenantScoped = false) :
    (AccountM.refresh t row ht).prog.All Q :=
  (all_lookup usual _).bind fun _ => (all_oneOrNone _).bind fun _ => all_orRaise _ _

theorem all_setActive (userId : Uuid) (selection : Option Uuid) :
    (UserRepo.setActive userId selection).prog.All Q := by
  refine all_discard (all_ask (usual.users _ _ fun u u' new => ?_))
  cases new
  rfl

theorem all_fallbackMembership (env : Env) (user : User) :
    (fallbackMembership env user).prog.All Q := by
  refine (all_lookup usual _).bind fun _ => (all_orRaise _ _).bind fun _ => ?_
  refine Prog.All.bind ?_ fun _ => trivial
  exact (all_setActive usual _ _).bind fun _ => all_ask usual.commit

theorem all_resolveMembershipForUser (env : Env) (user : User) :
    (resolveMembershipForUser env user).prog.All Q := by
  unfold resolveMembershipForUser
  cases user.activeHouseholdId with
  | none => exact all_fallbackMembership usual env user
  | some active =>
      have cleared : (do
          UserRepo.clearActiveHousehold user.id
          fallbackMembership env user).prog.All Q := by
        refine Prog.All.bind ?_ fun _ => all_fallbackMembership usual env user
        exact (all_setActive usual _ _).bind fun _ => all_ask usual.commit
      refine (all_lookup usual _).bind fun membership => (all_lookup usual _).bind fun household => ?_
      cases membership with
      | none => exact cleared
      | some m =>
          cases household with
          | none => exact cleared
          | some r => trivial

/-- Resolving the caller may repair the selection; it writes nothing else. -/
theorem all_callerMembership (env : Env) (caller : Option Uuid) :
    (callerMembership env caller).prog.All Q :=
  (all_lookup usual _).bind fun user => all_resolveMembershipForUser usual env user

/-- An endpoint that leaves rows in their place, with its dependencies. -/
theorem all_asMember {env : Env} {caller : Option Uuid}
    {endpoint : (m : HouseholdMember) → TenantM m.householdId Response}
    (h : ∀ m, (endpoint m).prog.All Q) :
    (asMember env caller endpoint).prog.All Q :=
  (all_callerMembership usual env caller).bind fun m =>
    (all_ask (usual.setConfig _)).bind fun _ => h m

omit usual in
theorem all_requireAdmin {m : HouseholdMember} {endpoint : TenantM m.householdId Response}
    (h : endpoint.prog.All Q) : (requireAdmin m endpoint).prog.All Q := by
  unfold requireAdmin
  split
  · exact trivial
  · exact h

/-! ### The household endpoints -/

/-- A new household inserts its row and that of its first member. -/
theorem all_householdRows
    (households : ∀ make, (∀ id r, make id = .ok r → r.id = id) → Q (.insert .households make))
    (members : ∀ make, (∀ id m, make id = .ok m → m.id = id) → Q (.insert .householdMembers make))
    (env : Env) (name : String) (createdBy : Uuid) :
    (HouseholdRepo.createHousehold env name createdBy).prog.All Q := by
  unfold HouseholdRepo.createHousehold
  refine Prog.All.bind (all_ask (households _ ?_)) fun _ => ?_
  · intro id r new
    obtain ⟨_, _, new⟩ := bind_eq_ok new
    cases new
    rfl
  · refine (all_refresh usual .households _ rfl).bind fun _ => ?_
    refine Prog.All.bind (all_discard (all_ask (members _ ?_))) fun _ => trivial
    intro id r new
    cases new
    rfl

theorem all_createHousehold
    (households : ∀ make, (∀ id r, make id = .ok r → r.id = id) → Q (.insert .households make))
    (members : ∀ make, (∀ id m, make id = .ok m → m.id = id) → Q (.insert .householdMembers make))
    (env : Env) (caller : Option Uuid) (name : String) :
    (createHousehold env caller name).prog.All Q := by
  unfold createHousehold
  generalize checkName name = checked
  refine all_bind (all_lookup usual _) fun user => all_bind (all_liftExcept _) fun name => ?_
  refine all_bind (all_householdRows usual households members _ _ _) fun household => ?_
  refine all_bind ?_ fun _ => all_bind (all_ask usual.commit) fun _ => ?_
  · exact all_bind (all_setActive usual _ _) fun _ => all_ask usual.commit
  · exact all_bind (all_refresh usual .households _ rfl) fun _ => trivial

/-- A member who joins was invited. -/
theorem all_addMember
    (joins : ∀ make, (∀ id m, make id = .ok m → m.id = id ∧ m.invitedBy.isSome = true) →
      Q (.insert .householdMembers make))
    (env : Env) (i : PendingInvitation) (userId : Uuid) :
    (HouseholdRepo.addMember env i userId).prog.All Q := by
  unfold HouseholdRepo.addMember
  refine all_bind (all_ask (joins _ ?_)) fun _ => all_refresh usual .householdMembers _ rfl
  intro id r new
  cases new
  exact ⟨rfl, rfl⟩

omit usual in
/-- The update of an accept takes no row that is accepted. -/
theorem all_acceptInvitation
    (accepts : ∀ p set, (∀ i : PendingInvitation, p i = true → i.status ≠ .accepted) →
      KeepsHousehold set → Q (.update .pendingInvitations p set)) (env : Env) (id : Uuid) :
    (HouseholdRepo.acceptInvitation env id).prog.All Q := by
  unfold HouseholdRepo.acceptInvitation
  refine all_bind (all_ask (accepts _ _ ?_ ?_)) fun rows => all_ite trivial trivial
  · intro i taken accepted
    simp [accepted] at taken
  · intro i i' new
    cases new
    exact ⟨rfl, rfl⟩

/-- Joining inserts the member and updates the invitation, where that is not accepted
yet. -/
theorem all_acceptInvite
    (joins : ∀ make, (∀ id m, make id = .ok m → m.id = id ∧ m.invitedBy.isSome = true) →
      Q (.insert .householdMembers make))
    (accepts : ∀ p set, (∀ i : PendingInvitation, p i = true → i.status ≠ .accepted) →
      KeepsHousehold set → Q (.update .pendingInvitations p set))
    (env : Env) (caller : Option Uuid) (token : String) :
    (acceptInvite env caller token).prog.All Q := by
  unfold acceptInvite
  refine all_bind (all_lookup usual _) fun user => all_bind (all_lookup usual _) fun i => ?_
  refine all_bind (all_lookup usual _) fun _ => all_bind (all_orRaise _ _) fun household => ?_
  refine all_bind (all_lookup usual _) fun m => ?_
  have joined : (do
      discard (HouseholdRepo.addMember env i user.id)
      HouseholdRepo.acceptInvitation env i.id
      UserRepo.setActive user.id (some i.householdId)
      AccountM.commit
      return (⟨200, .accepted i.householdId household.name i.invitedRole⟩ : Response) :
        AccountM Response).prog.All Q := by
    refine all_bind (all_discard (all_addMember usual joins _ _ _)) fun _ => ?_
    refine all_bind (all_acceptInvitation accepts _ _) fun _ => ?_
    exact all_bind (all_setActive usual _ _) fun _ => all_bind (all_ask usual.commit) fun _ => trivial
  cases m.isSome with
  | true => exact trivial
  | false =>
      refine all_bind (all_lookup usual _) fun members => ?_
      by_cases full : HouseholdRepo.memberLimit ≤ members
      · simp only [full]
        trivial
      · simp only [full]
        exact joined

/-- The repair sets selections. -/
theorem all_repair (env : Env) (userIds : List Uuid) :
    (HouseholdRepo.repairActiveHouseholdsForUsers env userIds).prog.All Q := by
  unfold HouseholdRepo.repairActiveHouseholdsForUsers
  induction userIds with
  | nil => exact trivial
  | cons userId rest ih =>
      unfold List.forM
      refine all_bind ?_ fun _ => ih
      exact all_bind (all_lookup usual _) fun _ => all_setActive usual _ _

theorem all_removeMemberRows (h userId : Uuid) :
    (HouseholdRepo.removeMember h userId).prog.All Q := by
  unfold HouseholdRepo.removeMember
  refine all_bind (all_lookup usual _) fun member => ?_
  have removed : (discard (AccountM.delete .householdMembers (HouseholdRepo.isMember h userId) rfl) :
      AccountM Unit).prog.All Q := all_discard (all_ask (usual.members _))
  cases member with
  | none => exact trivial
  | some m =>
      by_cases admin : m.role = .admin
      · simp only [admin]
        refine all_bind (all_lookup usual _) fun admins => ?_
        by_cases sole : admins ≤ 1
        · simp only [sole]
          trivial
        · simp only [sole]
          exact removed
      · simp only [admin]
        exact removed

/-- Removing a member deletes the membership and repairs the selection. -/
theorem all_removeMember (env : Env) (userId : Uuid) (m : HouseholdMember) :
    (removeMember env userId m).prog.All Q := by
  unfold removeMember
  have removed : (do
      HouseholdRepo.removeMember m.householdId userId
      HouseholdRepo.repairActiveHouseholdsForUsers env [userId]
      AccountM.commit
      return (⟨204, .empty⟩ : Response) : AccountM Response).prog.All Q := by
    refine all_bind (all_removeMemberRows usual _ _) fun _ => ?_
    exact all_bind (all_repair usual _ _) fun _ => all_bind (all_ask usual.commit) fun _ => trivial
  by_cases self : m.userId = userId
  · simp only [self]
    trivial
  · simp only [self]
    exact removed

/-- Revoking keeps the invitation in its household. -/
theorem all_revokeInvitation
    (invitations : ∀ p set, KeepsHousehold set → Q (.update .pendingInvitations p set))
    (env : Env) (id : Uuid) (m : HouseholdMember) :
    (revokeInvitation env id m).prog.All Q := by
  unfold revokeInvitation
  refine all_bind (all_discard (all_lookup usual _)) fun _ => ?_
  refine all_bind ?_ fun _ => all_bind (all_ask usual.commit) fun _ => trivial
  unfold HouseholdRepo.revokeInvitation
  refine all_bind (all_lookup usual _) fun i => ?_
  by_cases used : i.map PendingInvitation.status = some .accepted
  · simp only [used]
    trivial
  · simp only [used]
    refine all_bind (all_ask (invitations _ _ ?_)) fun rows => all_ite trivial trivial
    intro i i' new
    cases new
    exact ⟨rfl, rfl⟩

/-- So does sending it again. -/
theorem all_resendInvitation
    (invitations : ∀ p set, KeepsHousehold set → Q (.update .pendingInvitations p set))
    (env : Env) (id : Uuid) (m : HouseholdMember) :
    (resendInvitation env id m).prog.All Q := by
  unfold resendInvitation
  refine all_bind (all_discard (all_lookup usual _)) fun _ => all_bind (all_liftExcept _) fun token => ?_
  refine all_bind ?_ fun _ => all_bind (all_ask usual.commit) fun _ => trivial
  unfold HouseholdRepo.resendInvitation
  refine all_bind (all_lookup usual _) fun found => all_bind (all_orRaise _ _) fun i => ?_
  by_cases used : i.status = .accepted
  · simp only [used]
    trivial
  · simp only [used]
    refine all_bind (all_ask (invitations _ _ ?_)) fun rows =>
      all_bind (all_oneOrNone _) fun _ => all_orRaise _ _
    intro r r' new
    cases new
    exact ⟨rfl, rfl⟩

end Programs

/-! ### Statements that leave rows in their place -/

/-- An inserted row gets the id it is given, and an updated one keeps its id and
its household. -/
def KeepsPlace : Statement → Prop
  | .insert t make => ∀ id r, make id = .ok r → t.id r = id
  | .update t _ set => ∀ r r', set r = .ok r' → t.id r' = t.id r ∧ t.householdId r' = t.householdId r
  | .deleteCascade _ _ => False
  | _ => True

theorem KeepsPlace.orderly {s : Statement} (h : KeepsPlace s) : s.Orderly := by
  cases s with
  | update t p set => exact fun r r' new => (h r r' new).1
  | _ => exact h

/-- A statement that gets only some of the rows it matched keeps those in their place
too. -/
theorem KeepsPlace.narrow {s : Statement} (h : KeepsPlace s) (found : List Uuid) :
    KeepsPlace (s.narrow found) := by
  cases s <;> exact h

/-- Updated rows stay in their household. -/
theorem KeepsPlace.keeps {s : Statement} (h : KeepsPlace s) {w : World Table} {t : Table}
    {change : Change t.Row} (wrote : Wrote (T := Table) w s t change) :
    change.Keeps t.householdId := by
  cases wrote with
  | insert made => trivial
  | delete => trivial
  | @update _ p set valid =>
      intro pair hpair
      obtain ⟨r, hr, rfl⟩ := List.mem_map.mp hpair
      cases new : set r with
      | error e =>
          have none := valid r hr
          rw [new] at none
          cases none
      | ok r' => exact (h r r' new).2

/-- A table that a statement does not insert into stays without inserts. -/
theorem inserted_execOn {s : Statement} (keeps : KeepsPlace s) {t : Table}
    (other : ∀ make, s ≠ .insert t make) (found : List Uuid) {w : World Table}
    (start : Writes.inserted w.session.pending t = []) :
    Writes.inserted (World.execOn found s w).2.session.pending t = [] := by
  rw [World.execOn_world]
  by_cases committing : s = .commit
  · subst committing
    show Writes.inserted (World.exec .commit w).2.session.pending t = []
    rcases World.exec_commit w with ⟨_, empty, _⟩ | ⟨_, _, empty | same⟩
    · rw [empty]
      rfl
    · rw [empty]
      rfl
    · rw [same]
      exact start
  · have uncommitting : s.narrow found ≠ .commit :=
      fun eq => committing (Stmt.narrow_eq_commit.mp eq)
    cases World.exec_leaves uncommitting ((keeps.narrow found).orderly) (w := w) with
    | kept same =>
        rw [same]
        exact start
    | dropped empty =>
        rw [empty]
        rfl
    | wrote u c _ change _ added =>
        by_cases same : t = u
        · subst same
          rw [Writes.inserted_self added, start, List.nil_append]
          rcases change.inserted with nothing | ⟨make, r, inserting, _, _⟩
          · exact nothing
          · exact absurd (Stmt.narrow_eq_insert.mp inserting) (other make)
        · rw [Writes.inserted_of_ne added same]
          exact start

/-- The statements of every request keep rows in their place. -/
theorem usual_keepsPlace : Usual KeepsPlace where
  read s h := by cases s <;> trivial
  commit := trivial
  setConfig _ := trivial
  users _ _ kept u u' new := ⟨kept u u' new, rfl⟩
  members _ := trivial

theorem KeepsHousehold.keepsPlace {set : PendingInvitation → Except StmtError PendingInvitation}
    (h : KeepsHousehold set) (p : PendingInvitation → Bool) :
    KeepsPlace (.update .pendingInvitations p set) :=
  fun i i' new => ⟨(h i i' new).1, congrArg some (h i i' new).2⟩

/-- A statement that inserts no member. -/
def AdmitsNobody : Statement → Prop
  | .insert .householdMembers _ => False
  | s => KeepsPlace s

/-- Outside of joining, nobody becomes a member. -/
theorem usual_admitsNobody : Usual AdmitsNobody where
  read s h := by cases s <;> first | exact h.elim | trivial
  commit := trivial
  setConfig _ := trivial
  users := usual_keepsPlace.users
  members _ := trivial

/-- A statement that writes no invitation. -/
def SparesInvitations (s : Statement) : Prop := s.Leaves (T := Table) (· = .pendingInvitations)

theorem IsRead.sparesInvitations (s : Statement) (h : IsRead s) : SparesInvitations s := by
  cases s <;> first | exact h.elim | trivial

/-! ### A larger household -/

namespace Sample

def person (n : Nat) : User :=
  { id := id (200 + n), username := none, googleSub := none, email := none, displayName := "",
    pictureUrl := none, passwordHash := none, activeHouseholdId := none }

def place (n : Nat) : HouseholdMember :=
  { id := id (300 + n), householdId := household.id, userId := (person n).id, role := .member,
    invitedBy := some ada.id, invitedAt := none, acceptedAt := none, joinedAt := .midnight day }

/-- An invitation of the household that has run out. -/
def invitation (n : Nat) : PendingInvitation :=
  { id := id (400 + n), householdId := household.id, invitedEmail := none, invitedRole := .member,
    status := .pending, tokenHash := toString n, displayTokenCiphertext := none,
    invitedByUserId := ada.id, invitedAt := .midnight day, expiresAt := .midnight day,
    acceptedAt := none, revokedAt := none }

/-- Ada's household with `n` members more, and invitations for two others. -/
def crowded (n : Nat) : State
  | .users => ada :: person 20 :: person 21 :: (List.range n).map person
  | .households => [household]
  | .householdMembers => membership :: (List.range n).map place
  | .pendingInvitations => [invitation 20, invitation 21]
  | _ => []

end Sample

end EspressoLogs
