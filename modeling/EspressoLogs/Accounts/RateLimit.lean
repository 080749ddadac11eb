import EspressoLogs.Accounts.GuestLinks
import EspressoLogs.Accounts.OpenInvitations

/-!
How many invitations an admin creates in a day.

`create_invitation` counts the invitations of the last 24 hours that are pending
or accepted. One that is revoked is not counted any more, although it was
created. As long as no invitation is created while the ones left out would have
reached the limit, an admin creates ten invitations for a household at most
within any 24 hours.
-/

namespace EspressoLogs

open Lib Py

/-! ### The clock -/

/-- The instants by their microseconds. -/
structure Clock where
  stamp : Nat → Timestamp
  inOrder : ∀ a b, (stamp a).rank ≤ (stamp b).rank ↔ a ≤ b

/-- An hour in microseconds. -/
def hour : Nat := 3600000000

/-- What a request reads from the clock at a time. -/
def Clock.Shows (clock : Clock) (time : Nat) (env : Env) : Prop :=
  env.now = clock.stamp time ∧ ∀ hours, env.hoursAgo hours = clock.stamp (time - hours * hour)

/-- A request and when it is served. -/
structure Timed where
  time : Nat
  call : Call
  request : Request

def Timed.serve (x : Timed) (db : State) : Response × State := x.call.serve x.request db

/-! ### Creations -/

/-- An admin created an invitation for a household. -/
structure Creation where
  householdId : Uuid
  userId : Uuid
  time : Nat

/-- What a request created, by its answer. -/
def Timed.created (x : Timed) (db : State) : Option Creation :=
  match x.request, (x.serve db).1 with
  | .member caller (.invitationCreate _ _), ⟨201, .invitation _ _ _ _ _⟩ =>
      (x.call.resolved db (callerMembership x.call.env caller)).map fun m =>
        ⟨m.householdId, m.userId, x.time⟩
  | _, _ => none

/-- The creations of a history. -/
def creations : List Timed → State → List Creation
  | [], _ => []
  | x :: rest, db => (x.created db).toList ++ creations rest (x.serve db).2

/-- The admin's creations for the household in the 24 hours from an instant on. -/
def Creation.inDay (householdId userId : Uuid) (start : Nat) (c : Creation) : Bool :=
  c.householdId == householdId && c.userId == userId &&
    decide (start ≤ c.time ∧ c.time ≤ start + 24 * hour)

/-! ### The condition -/

/-- An invitation of the admin from the last 24 hours, whatever its status. -/
def ofLastDay (env : Env) (householdId invitedBy : Uuid) (i : PendingInvitation) : Bool :=
  i.householdId == householdId && i.invitedByUserId == invitedBy &&
    decide ((env.hoursAgo 24).rank ≤ i.invitedAt.rank)

/-- The ones that the limit counts. -/
def countedOfLastDay (env : Env) (householdId invitedBy : Uuid) (i : PendingInvitation) : Bool :=
  ofLastDay env householdId invitedBy i && (i.status == .pending || i.status == .accepted)

/-- The limit is reached by the invitations of the last 24 hours, but not by the
pending and accepted ones among them. -/
def Timed.Overlooks (x : Timed) (db : State) : Prop :=
  match x.request with
  | .member caller (.invitationCreate _ _) =>
      ∃ m, x.call.resolved db (callerMembership x.call.env caller) = some m ∧
        (db .pendingInvitations).countP (countedOfLastDay x.call.env m.householdId m.userId) < 10 ∧
          10 ≤ (db .pendingInvitations).countP (ofLastDay x.call.env m.householdId m.userId)
  | _ => False

/-- No creation of the run overlooks another. -/
def NoneOverlook : List Timed → State → Prop
  | [], _ => True
  | x :: rest, db => ¬ x.Overlooks db ∧ NoneOverlook rest (x.serve db).2

/-! ### What an invitation keeps -/

/-- Who invited for which household, and when. -/
structure Issue where
  householdId : Uuid
  invitedBy : Uuid
  at_ : Timestamp
  deriving DecidableEq

/-- For whom, by whom and when an invitation was made. -/
def PendingInvitation.issue (i : PendingInvitation) : Issue :=
  ⟨i.householdId, i.invitedByUserId, i.invitedAt⟩

/-- The same for all rows. -/
def issues (rows : List PendingInvitation) : List Issue := rows.map PendingInvitation.issue

/-- The statement removes no invitation and changes none of what they keep. -/
def KeepsIssues : Statement → Prop
  | .insert .pendingInvitations make => ∀ id (i : PendingInvitation), make id = .ok i → i.id = id
  | .update .pendingInvitations _ set => ∀ i i' : PendingInvitation, set i = .ok i' →
      i'.id = i.id ∧ i'.issue = i.issue
  | s => SparesInvitations s

theorem SparesInvitations.keepsIssues (s : Statement) (h : SparesInvitations s) : KeepsIssues s := by
  cases s with
  | insert t make =>
      cases t with
      | pendingInvitations => exact absurd rfl h
      | _ => exact h
  | update t p set =>
      cases t with
      | pendingInvitations => exact absurd rfl h
      | _ => exact h
  | _ => exact h

/-- These invitations are there, committed and as the transaction sees them. -/
def Issued (old : List Issue) (w : World Table) : Prop :=
  old.Sublist (issues (w.db .pendingInvitations)) ∧ old.Sublist (issues (w.view .pendingInvitations))

section Keep

variable {old : List Issue} {w : World Table}

/-- An update that keeps those three keeps the list of them. -/
theorem issues_apply_upd {pairs : List (PendingInvitation × PendingInvitation)}
    (kept : ∀ pair ∈ pairs, pair.2.issue = pair.1.issue) (rows : List PendingInvitation) :
    issues ((Change.upd pairs).apply rows) = issues rows := by
  unfold issues Change.apply
  rw [List.map_map]
  refine List.map_congr_left fun i _ => ?_
  show ((pairs.lookup i).getD i).issue = i.issue
  cases found : pairs.lookup i with
  | none => rfl
  | some j => exact kept _ (Change.mem_of_lookup found)

/-- A write to the invitations keeps those that are there. -/
theorem KeepsIssues.apply {s : Statement} {change : Change PendingInvitation} (keeps : KeepsIssues s)
    (wrote : Wrote (T := Table) w s .pendingInvitations change) (rows : List PendingInvitation) :
    (issues rows).Sublist (issues (change.apply rows)) := by
  cases wrote with
  | insert made =>
      unfold issues
      exact (List.sublist_append_left rows _).map _
  | @update _ p set valid =>
      rw [issues_apply_upd]
      intro pair listed
      obtain ⟨i, here, rfl⟩ := List.mem_map.mp listed
      cases new : set i with
      | error e =>
          have none := valid i here
          rw [new] at none
          cases none
      | ok i' => exact (keeps i i' new).2
  | delete => exact absurd rfl keeps

/-- A statement that keeps them leaves the invitations that were issued. -/
theorem Issued.exec {s : Statement} (h : Issued old w) (keeps : KeepsIssues s) :
    Issued old (World.exec s w).2 := by
  -- a commit only moves what is pending; the rest is a write to the invitations
  by_cases spares : SparesInvitations s
  · cases World.exec_unwritten spares w with
    | stays db view =>
        rw [Issued, db _ rfl, view _ rfl]
        exact h
    | committed db view =>
        rw [Issued, db _ rfl, view _ rfl]
        exact ⟨h.2, h.2⟩
    | dropped db view =>
        rw [Issued, db _ rfl, view _ rfl]
        exact ⟨h.1, h.1⟩
  · have uncommitting : s ≠ .commit := by
      rintro rfl
      exact spares trivial
    have orderly : s.Orderly := by
      cases s with
      | insert t make =>
          cases t with
          | pendingInvitations => exact keeps
          | _ => exact absurd keeps spares
      | update t p set =>
          cases t with
          | pendingInvitations => exact fun i i' new => (keeps i i' new).1
          | _ => exact absurd keeps spares
      | _ => exact absurd keeps spares
    have db := World.exec_db uncommitting w
    rw [Issued, db]
    refine ⟨h.1, ?_⟩
    cases World.exec_leaves uncommitting orderly (w := w) with
    | kept same =>
        have view : (World.exec s w).2.view .pendingInvitations = w.view .pendingInvitations := by
          simp only [World.view, db, same]
        rw [view]
        exact h.2
    | dropped empty =>
        have view : (World.exec s w).2.view .pendingInvitations = w.db .pendingInvitations := by
          simp only [World.view, db, empty]
          rfl
        rw [view]
        exact h.1
    | wrote t change _ wrote _ added =>
        have view : (World.exec s w).2.view = (w.pend t change).view := by
          funext u
          simp only [World.view, db, added]
          rfl
        rw [view]
        by_cases here : t = .pendingInvitations
        · subst here
          rw [World.pend_view_self]
          exact h.2.trans (keeps.apply wrote _)
        · rw [World.pend_view_of_ne w change (Ne.symm here)]
          exact h.2

/-- So does a program of such statements. -/
theorem Issued.run {α : Type} {P : Statement → Prop} {p : CodeM P α} (within : p.prog.All KeepsIssues)
    (h : Issued old w) : Issued old (p.run w).2 :=
  within.run_invariant World.exec (fun _ _ keeps issued => issued.exec keeps) h

end Keep

/-! ### The requests keep the invitations -/

section Programs

variable {α : Type} {P : Statement → Prop}

theorem issues_of_spares {p : CodeM P α} (spares : p.prog.All SparesInvitations) :
    p.prog.All KeepsIssues :=
  spares.mono fun s h => h.keepsIssues s

theorem issues_lookup (p : LookupM α) : p.prog.All KeepsIssues := issues_of_spares (spares_lookup p)

theorem issues_commit : (AccountM.commit).prog.All KeepsIssues := all_ask trivial

/-- Accepting an invitation does not issue one. -/
theorem issues_acceptInvite (env : Env) (caller : Option Uuid) (token : String) :
    (acceptInvite env caller token).prog.All KeepsIssues := by
  unfold acceptInvite
  refine all_bind (issues_lookup _) fun user => all_bind (issues_lookup _) fun i => ?_
  refine all_bind (issues_lookup _) fun _ => all_bind (all_orRaise _ _) fun household => ?_
  refine all_bind (issues_lookup _) fun m => ?_
  cases m.isSome with
  | true => exact trivial
  | false =>
      refine all_bind (issues_lookup _) fun members => ?_
      by_cases full : HouseholdRepo.memberLimit ≤ members
      · simp only [full]
        trivial
      · simp only [full]
        have added : (HouseholdRepo.addMember env i user.id).prog.All SparesInvitations :=
          all_bind (all_ask (show Table.householdMembers ≠ .pendingInvitations from nofun)) fun _ =>
            spares_refresh .householdMembers _ rfl
        refine all_bind (all_discard (issues_of_spares added)) fun _ => ?_
        refine all_bind (all_bind (all_ask ?_) fun rows => all_ite trivial trivial) fun _ => ?_
        · intro i i' new
          cases new
          exact ⟨rfl, rfl⟩
        · exact all_bind (issues_of_spares (spares_setActive _ _)) fun _ =>
            all_bind issues_commit fun _ => trivial

theorem issues_revokeInvitation (env : Env) (id : Uuid) (m : HouseholdMember) :
    (revokeInvitation env id m).prog.All KeepsIssues := by
  unfold revokeInvitation HouseholdRepo.revokeInvitation
  refine all_bind (all_discard (issues_lookup _)) fun _ => ?_
  refine all_bind (all_bind (issues_lookup _) fun i => ?_) fun _ => all_bind issues_commit fun _ => trivial
  by_cases used : i.map PendingInvitation.status = some .accepted
  · simp only [used]
    trivial
  · simp only [used]
    refine all_bind (all_ask ?_) fun rows => all_ite trivial trivial
    intro i i' new
    cases new
    exact ⟨rfl, rfl⟩

/-- Sending one again keeps the time at which it was made. -/
theorem issues_resendInvitation (env : Env) (id : Uuid) (m : HouseholdMember) :
    (resendInvitation env id m).prog.All KeepsIssues := by
  unfold resendInvitation HouseholdRepo.resendInvitation
  refine all_bind (all_discard (issues_lookup _)) fun _ => all_bind (all_liftExcept _) fun token => ?_
  refine all_bind ?_ fun _ => all_bind issues_commit fun _ => trivial
  refine all_bind (issues_lookup _) fun found => all_bind (all_orRaise _ _) fun i => ?_
  by_cases used : i.status = .accepted
  · simp only [used]
    trivial
  · simp only [used]
    refine all_bind (all_ask ?_) fun rows => all_bind (all_oneOrNone _) fun _ => all_orRaise _ _
    intro i i' new
    cases new
    exact ⟨rfl, rfl⟩

/-- A creation inserts a row, and keeps the others. -/
theorem issues_createInvite (env : Env) (email : Option String) (role : Role) (m : HouseholdMember) :
    (createInvite env email role m).prog.All KeepsIssues := by
  have inserted (address : Option String) (token : HouseholdRepo.InvitationToken) :
      (HouseholdRepo.createInvitation env m.householdId m.userId address role token).prog.All
        KeepsIssues := by
    unfold HouseholdRepo.createInvitation
    refine all_bind (issues_lookup _) fun members => ?_
    by_cases full : HouseholdRepo.memberLimit ≤ members
    · simp only [full]
      trivial
    simp only [full]
    refine all_bind (issues_lookup _) fun recent => ?_
    by_cases often : 10 ≤ recent.length
    · simp only [often]
      trivial
    simp only [often]
    have stored (address : Option String) : (do
        let invitation ← AccountM.insert .pendingInvitations (fun id => do
          return ({ id, householdId := m.householdId, invitedEmail := ← asText (ofOption address),
                    invitedRole := role, status := .pending, tokenHash := token.tokenHash,
                    displayTokenCiphertext := token.displayTokenCiphertext,
                    invitedByUserId := m.userId, invitedAt := env.now,
                    expiresAt := env.hoursAhead 72, acceptedAt := none, revokedAt := none } :
            PendingInvitation))
        AccountM.refresh .pendingInvitations invitation : AccountM _).prog.All KeepsIssues := by
      refine all_bind (all_ask ?_) fun i => issues_of_spares (spares_refresh .pendingInvitations i rfl)
      intro id i made
      obtain ⟨_, _, made⟩ := bind_eq_ok made
      cases made
      rfl
    cases given : address.filter (· ≠ "") with
    | none => exact stored none
    | some raw => exact all_bind (issues_lookup _) fun _ => stored _
  unfold createInvite
  refine all_bind (all_liftExcept _) fun token => all_bind (inserted _ token) fun i => ?_
  refine all_bind issues_commit fun _ => all_bind ?_ fun _ => trivial
  exact issues_of_spares (spares_refresh .pendingInvitations i rfl)

theorem WritesUsers.sparesInvitations {s : Statement} (h : WritesUsers s) : SparesInvitations s := by
  have other : Table.users ≠ .pendingInvitations := nofun
  cases s with
  | insert t make => exact h ▸ other
  | update t p set => exact h ▸ other
  | delete t p => exact h ▸ other
  | deleteCascade t p => exact h.1.elim
  | _ => trivial

theorem issues_asMember {env : Env} {caller : Option Uuid}
    {endpoint : (m : HouseholdMember) → TenantM m.householdId Response}
    (within : ∀ m, (endpoint m).prog.All KeepsIssues) :
    (asMember env caller (fun m => requireAdmin m (endpoint m))).prog.All KeepsIssues := by
  have member : (callerMembership env caller).prog.All KeepsIssues :=
    issues_of_spares ((callerMembership env caller).within.mono fun _ => WritesUsers.sparesInvitations)
  refine member.bind fun m => Prog.All.bind (all_ask trivial) fun _ => ?_
  exact all_requireAdmin (within m)

theorem Request.OfInvitations.keeps {r : Request} (kind : r.OfInvitations) (env : Env)
    (archive : List String) : (r.program env archive).prog.All KeepsIssues := by
  cases r with
  | invitationAccept caller token => exact issues_acceptInvite env caller token
  | invitationDecline token => exact all_bind (all_discard (issues_lookup _)) fun _ => trivial
  | member caller request =>
      cases request with
      | invitationCreate email role => exact issues_asMember fun m => issues_createInvite env email role m
      | invitationRevoke id => exact issues_asMember fun m => issues_revokeInvitation env id m
      | invitationResend id => exact issues_asMember fun m => issues_resendInvitation env id m
      | _ => exact kind.elim
  | _ => exact kind.elim

/-- No request about invitations loses one. -/
theorem issues_serve {c : Call} {r : Request} (kind : r.OfInvitations) (db : State) :
    (issues (db .pendingInvitations)).Sublist (issues ((c.serve r db).2 .pendingInvitations)) := by
  rw [serve_stored]
  exact (Issued.run (kind.keeps c.env c.archive) (w := c.start db)
    ⟨List.Sublist.refl _, List.Sublist.refl _⟩).1

end Programs

/-! ### A creation -/

section Creates

variable {env : Env} {email : Option String} {role : Role} {m : HouseholdMember} {w w' : World Table}
  {response : Response}

theorem lookup_reads {α : Type} (p : LookupM α) : p.prog.All IsRead := p.within.mono fun _ h => h.1

/-- An invitation that was inserted: the limit was not reached, and it is the last one. -/
theorem createInvitation_eq_ok {householdId userId : Uuid} {address : Option String}
    {token : HouseholdRepo.InvitationToken} {i : PendingInvitation} (live : w.Live)
    (done : (HouseholdRepo.createInvitation env householdId userId address role token).run w =
      (.ok i, w')) :
    w'.Live ∧ (w.view .pendingInvitations).countP (countedOfLastDay env householdId userId) < 10 ∧
      issues (w'.view .pendingInvitations) =
        issues (w.view .pendingInvitations) ++ [⟨householdId, userId, env.now⟩] := by
  unfold HouseholdRepo.createInvitation at done
  obtain ⟨members, w₁, counted, rest⟩ := CodeM.run_bind_eq_ok done
  obtain rfl := read_eq_ok (lookup_reads _) live counted
  by_cases full : HouseholdRepo.memberLimit ≤ members
  · simp only [full] at rest
    cases rest
  simp only [full, if_false] at rest
  obtain ⟨recent, w₂, found, rest⟩ := CodeM.run_bind_eq_ok rest
  have listed : (lookup .pendingInvitations (countedOfLastDay env householdId userId)).run w₁ =
    (.ok recent, w₂) := found
  cases (run_lookup live _ _ _).symm.trans listed
  by_cases often : 10 ≤ ((w₁.view .pendingInvitations).filter
    (countedOfLastDay env householdId userId)).length
  · simp only [often] at rest
    cases rest
  simp only [often, if_false] at rest
  -- the row that is inserted, whatever its address
  have stored (email : Option String) {v : World Table} (live : v.Live)
      (written : (do
        let invitation ← AccountM.insert .pendingInvitations (fun id => do
          return ({ id, householdId, invitedEmail := ← asText (ofOption email),
                    invitedRole := role, status := .pending, tokenHash := token.tokenHash,
                    displayTokenCiphertext := token.displayTokenCiphertext,
                    invitedByUserId := userId, invitedAt := env.now,
                    expiresAt := env.hoursAhead 72, acceptedAt := none, revokedAt := none } :
            PendingInvitation))
        AccountM.refresh .pendingInvitations invitation : AccountM _).run v = (.ok i, w')) :
      w'.Live ∧ issues (w'.view .pendingInvitations) =
        issues (v.view .pendingInvitations) ++ [⟨householdId, userId, env.now⟩] := by
    obtain ⟨j, w₃, inserted, refreshed⟩ := CodeM.run_bind_eq_ok written
    obtain ⟨made, _, rfl⟩ := run_insert_eq_ok live (t := .pendingInvitations) inserted
    obtain ⟨_, _, made⟩ := bind_eq_ok made
    have live₃ := live.drew.pend (T := Table) .pendingInvitations (.ins j)
    obtain rfl := read_eq_ok (refresh_reads _ _ _) live₃ refreshed
    refine ⟨live₃, ?_⟩
    rw [World.pend_view_self, World.drew_view]
    cases made
    exact List.map_append
  have few : (w₁.view .pendingInvitations).countP (countedOfLastDay env householdId userId) < 10 := by
    rw [List.countP_eq_length_filter]
    exact Nat.lt_of_not_le often
  cases given : address.filter (· ≠ "") with
  | none =>
      simp only [given, Option.map_none] at rest
      obtain ⟨live', last⟩ := stored none live rest
      exact ⟨live', few, last⟩
  | some raw =>
      simp only [given, Option.map_some] at rest
      obtain ⟨_, w₂, checked, written⟩ := CodeM.run_bind_eq_ok rest
      obtain rfl := read_eq_ok (lookup_reads _) live checked
      obtain ⟨live', last⟩ := stored (some (env.lower (strip raw))) live written
      exact ⟨live', few, last⟩

/-- A creation that is answered has counted fewer than ten of the last day, and has
issued one. -/
theorem createInvite_eq_ok (live : w.Live)
    (done : (createInvite env email role m).run w = (.ok response, w')) :
    (w.view .pendingInvitations).countP (countedOfLastDay env m.householdId m.userId) < 10 ∧
      issues (w'.db .pendingInvitations) =
        issues (w.view .pendingInvitations) ++ [⟨m.householdId, m.userId, env.now⟩] := by
  obtain ⟨token, w₀, linked, rest⟩ := CodeM.run_bind_eq_ok done
  obtain ⟨_, rfl⟩ := CodeM.run_liftExcept_eq_ok linked
  obtain ⟨i, w₁, created, rest⟩ := CodeM.run_bind_eq_ok rest
  obtain ⟨live₁, few, last⟩ := createInvitation_eq_ok live created
  obtain ⟨_, w₂, committed, rest⟩ := CodeM.run_bind_eq_ok rest
  obtain rfl := commit_eq_ok live₁ committed
  obtain ⟨_, w₃, refreshed, rest⟩ := CodeM.run_bind_eq_ok rest
  obtain rfl := read_eq_ok (refresh_reads _ _ _) live₁.committed refreshed
  cases rest
  exact ⟨few, last⟩

theorem checkAddress_firm (householdId : Uuid) (address : String) :
    (HouseholdRepo.checkAddress env householdId address).Firm := by
  unfold HouseholdRepo.checkAddress
  refine .bind (.ask _ _) fun rows => .bind (.oneOrNone _) fun duplicate => ?_
  cases duplicate with
  | some i => exact .throw _
  | none =>
      refine .bind (.ask _ _) fun members => .bind (.oneOrNone _) fun existing => ?_
      cases existing with
      | some x => exact .throw _
      | none => exact .pure _

theorem createInvite_firm : (createInvite env email role m).Firm := by
  have looked {α : Type} {p : LookupM α} (firm : p.Firm) : CodeM.Firm (p : AccountM α) := .lift _ firm
  have created (address : Option String) (token : HouseholdRepo.InvitationToken) :
      (HouseholdRepo.createInvitation env m.householdId m.userId address role token).Firm := by
    have stored (email : Option String) : (do
        let invitation ← AccountM.insert .pendingInvitations (fun id => do
          return ({ id, householdId := m.householdId, invitedEmail := ← asText (ofOption email),
                    invitedRole := role, status := .pending, tokenHash := token.tokenHash,
                    displayTokenCiphertext := token.displayTokenCiphertext,
                    invitedByUserId := m.userId, invitedAt := env.now,
                    expiresAt := env.hoursAhead 72, acceptedAt := none, revokedAt := none } :
            PendingInvitation))
        AccountM.refresh .pendingInvitations invitation : AccountM _).Firm :=
      .bind (.ask _ _) fun _ => refresh_firm _ _ _
    unfold HouseholdRepo.createInvitation
    refine .bind (looked (.bind (.ask _ _) fun _ => .pure _)) fun members => ?_
    by_cases full : HouseholdRepo.memberLimit ≤ members
    · simp only [full]
      exact .throw _
    simp only [full, if_false]
    refine .bind (looked (.ask _ _)) fun recent => ?_
    by_cases often : 10 ≤ recent.length
    · simp only [often]
      exact .throw _
    simp only [often, if_false]
    cases given : address.filter (· ≠ "") with
    | none => exact stored none
    | some raw => exact .bind (looked (checkAddress_firm _ _)) fun _ => stored _
  exact .bind (.liftExcept _) fun token => .bind (created _ token) fun _ =>
    .bind (.ask .commit trivial) fun _ => .bind (refresh_firm _ _ _) fun _ => .pure _

end Creates

/-! ### Serving -/

section Serving

variable {x : Timed} {db : State} {c : Creation}

/-- Only an answer tells of an invitation. -/
theorem respond_invitation {result : Except Exc Response} {id : Uuid} {raw : String}
    {expiresAt : Timestamp} {email : Option String} {role : Role}
    (told : respond result = ⟨201, .invitation id raw expiresAt email role⟩) :
    ∃ response, result = .ok response := by
  cases result with
  | ok response => exact ⟨response, rfl⟩
  | error e =>
      unfold respond at told
      split at told
      · rename_i same
        cases same
      · cases told
      · cases told
      · cases told

/-- The admin had created fewer than ten, and the invitation is stored. -/
theorem issues_created (created : x.created db = some c) (seen : ¬ x.Overlooks db) :
    c.time = x.time ∧
      (db .pendingInvitations).countP (ofLastDay x.call.env c.householdId c.userId) < 10 ∧
      issues ((x.serve db).2 .pendingInvitations) =
        issues (db .pendingInvitations) ++ [⟨c.householdId, c.userId, x.call.env.now⟩] := by
  obtain ⟨time, call, request⟩ := x
  unfold Timed.created at created
  split at created
  · rename_i caller email role _ raw expiresAt address invited given told
    have given : request = .member caller (.invitationCreate email role) := given
    subst given
    cases served : CodeM.run (asMember call.env caller fun m =>
        (MemberRequest.invitationCreate email role).endpoint call.env call.archive m)
          (call.start db) with
    | mk result w' =>
        have answer : Timed.serve ⟨time, call, .member caller (.invitationCreate email role)⟩ db =
          (respond result, w'.db) := Call.serve_eq served
        rw [answer] at told ⊢
        obtain ⟨response, rfl⟩ := respond_invitation told
        obtain ⟨m, w, resolved, live, entered, answered⟩ := asMember_answered
          (fun m => requireAdmin_firm createInvite_firm) served
        obtain ⟨few, last⟩ := createInvite_eq_ok live (requireAdmin_eq_ok answered)
        rw [(entered.rows .pendingInvitations nofun).2] at few last
        obtain ⟨m', resolved', rfl⟩ := Option.map_eq_some_iff.mp created
        cases resolved.symm.trans resolved'
        refine ⟨rfl, Nat.lt_of_not_le fun many => seen ?_, last⟩
        exact ⟨m, resolved, few, many⟩
  · cases created

end Serving

/-! ### Histories -/

/-- How often an admin created for a household since an instant. -/
def since (past : List Creation) (householdId userId : Uuid) (start : Nat) : Nat :=
  past.countP fun c => c.householdId == householdId && c.userId == userId && decide (start ≤ c.time)

/-- What was created so far is stored, and no more than ten a day. -/
structure Bounded (clock : Clock) (past : List Creation) (now : Nat) (db : State) : Prop where
  before : ∀ c ∈ past, c.time ≤ now
  stored : ∀ h u start, since past h u start ≤ (issues (db .pendingInvitations)).countP fun i =>
    i.householdId == h && i.invitedBy == u && decide ((clock.stamp start).rank ≤ i.at_.rank)
  few : ∀ h u start, past.countP (Creation.inDay h u start) ≤ 10

section History

variable {clock : Clock} {past : List Creation} {now : Nat} {db : State}

/-- What the query counts are the issues of the last day. -/
theorem countP_ofLastDay {x : Timed} (shows : clock.Shows x.time x.call.env) (h u : Uuid) :
    (db .pendingInvitations).countP (ofLastDay x.call.env h u) =
      (issues (db .pendingInvitations)).countP fun i => i.householdId == h && i.invitedBy == u &&
        decide ((clock.stamp (x.time - 24 * hour)).rank ≤ i.at_.rank) := by
  rw [← shows.2 24]
  unfold issues
  rw [List.countP_map]
  rfl

/-- One request keeps the bound. -/
theorem Bounded.serve (bounded : Bounded clock past now db) {x : Timed}
    (kind : x.request.OfInvitations) (later : now ≤ x.time)
    (shows : clock.Shows x.time x.call.env) (seen : ¬ x.Overlooks db) :
    Bounded clock (past ++ (x.created db).toList) x.time (x.serve db).2 := by
  cases created : x.created db with
  | none =>
      rw [Option.toList_none, List.append_nil]
      refine ⟨fun c hc => Nat.le_trans (bounded.before c hc) later, fun h u start => ?_, bounded.few⟩
      exact Nat.le_trans (bounded.stored h u start) (issues_serve kind db).countP_le
  | some c =>
      obtain ⟨time, few, last⟩ := issues_created created seen
      rw [countP_ofLastDay shows] at few
      rw [Option.toList_some]
      refine ⟨?_, fun h u start => ?_, fun h u start => ?_⟩
      · intro c' hc'
        rcases List.mem_append.mp hc' with old | new
        · exact Nat.le_trans (bounded.before c' old) later
        · cases List.mem_singleton.mp new
          exact Nat.le_of_eq time
      · have old := bounded.stored h u start
        unfold since at old ⊢
        rw [last, List.countP_append, List.countP_append, List.countP_singleton,
          List.countP_singleton, shows.1, time]
        simp only [clock.inOrder]
        omega
      · rw [List.countP_append, List.countP_singleton]
        by_cases inside : Creation.inDay h u start c = true
        · rw [if_pos inside]
          unfold Creation.inDay at inside
          simp only [Bool.and_eq_true, beq_iff_eq, decide_eq_true_eq] at inside
          obtain ⟨⟨rfl, rfl⟩, from_, until_⟩ := inside
          -- a day that the creation falls in began at most a day before it
          have recent : past.countP (Creation.inDay c.householdId c.userId start) ≤
              since past c.householdId c.userId (x.time - 24 * hour) := by
            refine List.countP_mono_left fun c' hc' isIn => ?_
            unfold Creation.inDay at isIn
            simp only [Bool.and_eq_true, beq_iff_eq, decide_eq_true_eq] at isIn ⊢
            obtain ⟨⟨here, own⟩, after, _⟩ := isIn
            exact ⟨⟨here, own⟩, by omega⟩
          have old := bounded.stored c.householdId c.userId (x.time - 24 * hour)
          omega
        · rw [if_neg inside]
          exact bounded.few h u start

/-- The bound on what was issued bounds what is created in a run. -/
theorem Bounded.creations (bounded : Bounded clock past now db) {calls : List Timed}
    (kinds : ∀ x ∈ calls, x.request.OfInvitations)
    (inTime : (now :: calls.map Timed.time).Pairwise (· ≤ ·))
    (shows : ∀ x ∈ calls, clock.Shows x.time x.call.env) (seen : NoneOverlook calls db)
    (h u : Uuid) (start : Nat) :
    (past ++ EspressoLogs.creations calls db).countP (Creation.inDay h u start) ≤ 10 := by
  induction calls generalizing past now db with
  | nil =>
      rw [EspressoLogs.creations, List.append_nil]
      exact bounded.few h u start
  | cons x rest ih =>
      obtain ⟨later, inTime⟩ := List.pairwise_cons.mp inTime
      obtain ⟨kind, kinds⟩ := List.forall_mem_cons.mp kinds
      obtain ⟨showing, shows⟩ := List.forall_mem_cons.mp shows
      have next := bounded.serve kind (later x.time List.mem_cons_self) showing seen.1
      rw [EspressoLogs.creations, ← List.append_assoc]
      exact ih next kinds inTime shows seen.2

end History

/-- As long as no creation overlooks invitations that are not counted any more, an admin
creates ten for a household at most within 24 hours. The limit counts pending and
accepted invitations; the condition asks, of the state before each creation, that
leaving out the others does not bring the count below the limit. That there are no more
than ten then is the doing of the count. -/
theorem ten_invitations_a_day {clock : Clock} {calls : List Timed} {db : State}
    (kinds : ∀ x ∈ calls, x.request.OfInvitations)
    (inTime : (calls.map Timed.time).Pairwise (· ≤ ·))
    (shows : ∀ x ∈ calls, clock.Shows x.time x.call.env) (seen : NoneOverlook calls db)
    (householdId userId : Uuid) (start : Nat) :
    (creations calls db).countP (Creation.inDay householdId userId start) ≤ 10 := by
  have nothing : Bounded clock [] 0 db :=
    { before := by simp, stored := fun _ _ _ => Nat.zero_le _, few := fun _ _ _ => Nat.zero_le _ }
  have inTime : (0 :: calls.map Timed.time).Pairwise (· ≤ ·) :=
    List.pairwise_cons.mpr ⟨fun _ _ => Nat.zero_le _, inTime⟩
  exact nothing.creations kinds inTime shows seen householdId userId start

namespace Sample

/-! ### Ada sends links -/

/-- The clock of the sample. -/
def clock : Clock where
  stamp t := ⟨day, t⟩
  inOrder a b := by simp [Timestamp.rank]

/-- The `n`-th request, `n` microseconds into the day. -/
def timed (n : Nat) (request : Request) : Timed where
  time := n
  call := { nth n with env := { (nth n).env with
    now := clock.stamp n, hoursAgo := fun hours => clock.stamp (n - hours * hour) } }
  request

theorem timed_shows (n : Nat) (request : Request) :
    clock.Shows (timed n request).time (timed n request).call.env := ⟨rfl, fun _ => rfl⟩

/-- A link for anybody. -/
def anyLink : Request := .member (some ada.id) (.invitationCreate none .member)

def history (requests : List (Nat × Request)) : List Timed := requests.map fun x => timed x.1 x.2

/-- One link is revoked and replaced. -/
def replacingLink : List (Nat × Request) := [(1, anyLink), (2, revoke), (3, anyLink)]

/-- Ten links, and one that replaces the first of them. -/
def elevenLinks : List (Nat × Request) :=
  (List.range 10).map (fun n => (n + 1, anyLink)) ++ [(11, revoke), (12, anyLink)]

/-- How many links of one household and user are created in the first day. -/
def linksOfDay (requests : List (Nat × Request)) : Nat :=
  (creations (history requests) db).countP (Creation.inDay household.id ada.id 0)

theorem history_kinds {requests : List (Nat × Request)}
    (few : ∀ x ∈ requests, x.2 = anyLink ∨ x.2 = revoke) :
    ∀ x ∈ history requests, x.request.OfInvitations := by
  intro x hx
  obtain ⟨⟨n, request⟩, listed, rfl⟩ := List.mem_map.mp hx
  rcases few _ listed with rfl | rfl
  · trivial
  · trivial

theorem history_shows (requests : List (Nat × Request)) :
    ∀ x ∈ history requests, clock.Shows x.time x.call.env := by
  intro x hx
  obtain ⟨y, _, rfl⟩ := List.mem_map.mp hx
  exact timed_shows y.1 y.2

/-- A creation that overlooks one has at least ten invitations before it. -/
theorem overlooks_many {x : Timed} {db : State} (overlooks : x.Overlooks db) :
    10 ≤ (db .pendingInvitations).length := by
  obtain ⟨time, call, request⟩ := x
  unfold Timed.Overlooks at overlooks
  split at overlooks
  · obtain ⟨m, _, _, many⟩ := overlooks
    exact Nat.le_trans many List.countP_le_length
  · exact overlooks.elim

theorem replacingLink_seen : NoneOverlook (history replacingLink) db := by
  have one : (((timed 1 anyLink).serve db).2 .pendingInvitations).length < 10 := by decide +kernel
  have two : (((timed 2 revoke).serve ((timed 1 anyLink).serve db).2).2 .pendingInvitations).length <
      10 := by decide +kernel
  refine ⟨fun h => ?_, fun h => h, fun h => ?_, trivial⟩
  · exact absurd (overlooks_many h) (by decide)
  · exact absurd (overlooks_many h) (Nat.not_le_of_lt two)

/-- Two links were created. -/
theorem two_links_a_day : linksOfDay replacingLink = 2 ∧ linksOfDay replacingLink ≤ 10 :=
  ⟨by decide +kernel, ten_invitations_a_day (history_kinds (by simp [replacingLink])) (by decide)
    (history_shows replacingLink) replacingLink_seen household.id ada.id 0⟩

/-- The revoked link is not counted: an eleventh is created on the same day. -/
theorem eleven_links_a_day : ¬ ∀ (clock : Clock) (calls : List Timed) (db : State),
    (∀ x ∈ calls, x.request.OfInvitations) → (calls.map Timed.time).Pairwise (· ≤ ·) →
      (∀ x ∈ calls, clock.Shows x.time x.call.env) → ∀ householdId userId start,
        (creations calls db).countP (Creation.inDay householdId userId start) ≤ 10 := by
  intro few
  have eleven : linksOfDay elevenLinks = 11 := by decide +kernel
  have kinds : ∀ x ∈ elevenLinks, x.2 = anyLink ∨ x.2 = revoke := by
    intro x hx
    rcases List.mem_append.mp hx with first | last
    · obtain ⟨n, _, rfl⟩ := List.mem_map.mp first
      exact .inl rfl
    · simp only [List.mem_cons, List.not_mem_nil, or_false] at last
      rcases last with rfl | rfl
      · exact .inr rfl
      · exact .inl rfl
  have ten : linksOfDay elevenLinks ≤ 10 := few clock (history elevenLinks) db (history_kinds kinds)
    (by decide) (history_shows elevenLinks) household.id ada.id 0
  rw [eleven] at ten
  exact absurd ten (by decide)

end Sample

end EspressoLogs
