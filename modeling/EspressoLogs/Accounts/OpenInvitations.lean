import EspressoLogs.Accounts.Clients
import EspressoLogs.Tenant.Entry

/-!
One open invitation to an address.

An invitation is open while it is pending and has not expired. Creating one
checks that no other is open; sending one again does not, although it opens an
invitation that had expired or was revoked. As long as none is sent again while
another is open, a household has one open invitation to an address at most, at
every point of every history, and the duplicate lookup of `create_invitation`
finds one row at most.
-/

namespace EspressoLogs

open Lib Py

/-! ### Open invitations -/

/-- A later moment, with the same comparison of addresses. -/
def Env.Before (e e' : Env) : Prop := e'.lower = e.lower ∧ e.now.rank ≤ e'.now.rank

/-- At most one of the invitations is open, for every household and address. -/
def OneOpen (env : Env) (rows : List PendingInvitation) : Prop :=
  ∀ h email, rows.countP (HouseholdRepo.isOpenInvitation env h email) ≤ 1

/-- The requests about invitations. -/
def Request.OfInvitations : Request → Prop
  | member _ (.invitationCreate _ _) | member _ (.invitationResend _)
  | member _ (.invitationRevoke _) | invitationAccept _ _ | invitationDecline _ => True
  | _ => False

/-- An admin of the household sends an invitation again that is not accepted,
while another one to the address is open. -/
def Clashes (c : Call) (db : State) : Request → Prop
  | .member caller (.invitationResend id) =>
      ∃ m, c.resolved db (callerMembership c.env caller) = some m ∧ m.role = .admin ∧
        ∃ i ∈ db .pendingInvitations, i.id = id ∧ i.householdId = m.householdId ∧
          i.status ≠ .accepted ∧ ∃ j ∈ db .pendingInvitations, j.id ≠ id ∧
            ∃ email, i.invitedEmail.map c.env.lower = some email ∧
              HouseholdRepo.isOpenInvitation c.env m.householdId email j = true
  | _ => False

/-- No request of a history clashes. -/
def NoneClashes : List (Call × Request) → State → Prop
  | [], _ => True
  | (c, r) :: rest, db => ¬ Clashes c db r ∧ NoneClashes rest (c.serve r db).2

theorem OneOpen.later {e e' : Env} (before : e.Before e') {rows : List PendingInvitation}
    (h : OneOpen e rows) : OneOpen e' rows := by
  intro household email
  refine Nat.le_trans (List.countP_mono_left fun i _ still => ?_) (h household email)
  simp only [HouseholdRepo.isOpenInvitation, Bool.and_eq_true, decide_eq_true_eq] at still ⊢
  obtain ⟨⟨⟨here, address⟩, pending⟩, unexpired⟩ := still
  rw [before.1] at address
  exact ⟨⟨⟨here, address⟩, pending⟩, Nat.lt_of_le_of_lt before.2 unexpired⟩

section Changes

variable {env : Env} {rows : List PendingInvitation}

/-- A new invitation to an address without an open one. -/
theorem OneOpen.append (h : OneOpen env rows) {r : PendingInvitation}
    (free : ∀ email, r.invitedEmail.map env.lower = some email → ∀ i ∈ rows,
      HouseholdRepo.isOpenInvitation env r.householdId email i = false) :
    OneOpen env (rows ++ [r]) := by
  intro household email
  rw [List.countP_append]
  by_cases opens : HouseholdRepo.isOpenInvitation env household email r = true
  · have address := opens
    simp only [HouseholdRepo.isOpenInvitation, Bool.and_eq_true, beq_iff_eq] at address
    obtain ⟨⟨⟨here, address⟩, _⟩, _⟩ := address
    have none : rows.countP (HouseholdRepo.isOpenInvitation env household email) = 0 :=
      List.countP_eq_zero.mpr fun i hi =>
        Bool.eq_false_iff.mp (here ▸ free email address i hi)
    rw [none, List.countP_singleton, opens]
    exact Nat.le_refl 1
  · rw [List.countP_singleton, if_neg opens]
    exact h household email

/-- Invitations that are rewritten are not open afterwards. -/
theorem OneOpen.close (h : OneOpen env rows) {q : PendingInvitation → Bool}
    {set : PendingInvitation → PendingInvitation} (closes : ∀ i, (set i).status ≠ .pending) :
    OneOpen env (rows.map fun i => if q i = true then set i else i) := by
  intro household email
  rw [List.countP_map]
  refine Nat.le_trans (List.countP_mono_left fun i _ still => ?_) (h household email)
  by_cases rewrites : q i = true
  · simp only [Function.comp, rewrites, if_true, HouseholdRepo.isOpenInvitation, Bool.and_eq_true,
      beq_iff_eq] at still
    exact absurd still.1.2 (closes i)
  · rw [Function.comp_apply, if_neg rewrites] at still
    exact still

/-- One invitation is rewritten, and no other one is open for its address. -/
theorem OneOpen.reopen (h : OneOpen env rows) {id : Uuid} {i : PendingInvitation}
    (only : rows.filter (fun r => r.id == id) = [i]) {q : PendingInvitation → Bool}
    (narrow : ∀ r, q r = true → r.id = id) {set : PendingInvitation → PendingInvitation}
    (kept : ∀ r, (set r).householdId = r.householdId ∧ (set r).invitedEmail = r.invitedEmail)
    (free : ∀ email, i.invitedEmail.map env.lower = some email → ∀ j ∈ rows, j.id ≠ id →
      HouseholdRepo.isOpenInvitation env i.householdId email j = false) :
    OneOpen env (rows.map fun r => if q r = true then set r else r) := by
  intro household email
  have mine : rows.countP (fun r => HouseholdRepo.isOpenInvitation env household email
      (if q r = true then set r else r)) =
      [i].countP (fun r => HouseholdRepo.isOpenInvitation env household email
        (if q r = true then set r else r)) +
      (rows.filter fun r => !(r.id == id)).countP
        (HouseholdRepo.isOpenInvitation env household email) := by
    rw [List.countP_eq_countP_filter_add _ _ fun r => r.id == id, only]
    congr 1
    refine List.countP_congr fun r hr => ?_
    have other : ¬ q r = true := fun rewrites => by
      have differs := (List.mem_filter.mp hr).2
      rw [narrow r rewrites] at differs
      simp at differs
    rw [if_neg other]
  rw [List.countP_map]
  show rows.countP (fun r => HouseholdRepo.isOpenInvitation env household email
    (if q r = true then set r else r)) ≤ 1
  rw [mine, List.countP_singleton]
  by_cases rewrites : q i = true
  · rw [if_pos rewrites]
    by_cases opens : HouseholdRepo.isOpenInvitation env household email (set i) = true
    · have address := opens
      simp only [HouseholdRepo.isOpenInvitation, Bool.and_eq_true, beq_iff_eq, kept] at address
      obtain ⟨⟨⟨here, address⟩, _⟩, _⟩ := address
      -- no other open invitation of the household has the address
      have none : (rows.filter fun r => !(r.id == id)).countP
          (HouseholdRepo.isOpenInvitation env household email) = 0 := by
        refine List.countP_eq_zero.mpr fun j hj => ?_
        obtain ⟨stored, differs⟩ := List.mem_filter.mp hj
        have differs : j.id ≠ id := by simpa using differs
        exact Bool.eq_false_iff.mp (here ▸ free email address j stored differs)
      rw [if_pos opens, none]
    · rw [if_neg opens, Nat.zero_add]
      exact Nat.le_trans (List.filter_sublist.countP_le) (h household email)
  · rw [if_neg rewrites, ← List.countP_singleton, ← only,
      ← List.countP_eq_countP_filter_add]
    exact h household email

end Changes

/-! ### Programs that leave invitations alone -/

/-- A commit leaves one open invitation at most. -/
def Settles (env : Env) : Statement → World Table → Prop
  | .commit, w => OneOpen env (w.view .pendingInvitations)
  | _, _ => True

/-- The invitations are such, committed and as the transaction sees them. -/
def Kept (B : List PendingInvitation → Prop) (w : World Table) : Prop :=
  B (w.db .pendingInvitations) ∧ B (w.view .pendingInvitations)

section Spare

variable {env : Env} {B : List PendingInvitation → Prop} {α β : Type} {w : World Table}

theorem Kept.execOn (h : Kept B w) {s : Statement} (spares : SparesInvitations s)
    (found : List Uuid) : Kept B (World.execOn found s w).2 := by
  rw [World.execOn_world]
  have leaves : (s.narrow found).Leaves (T := Table) (· = .pendingInvitations) := by
    cases s <;> exact spares
  cases World.exec_unwritten leaves w with
  | stays db view =>
      rw [Kept, db _ rfl, view _ rfl]
      exact h
  | committed db view =>
      rw [Kept, db _ rfl, view _ rfl]
      exact ⟨h.2, h.2⟩
  | dropped db view =>
      rw [Kept, db _ rfl, view _ rfl]
      exact ⟨h.1, h.1⟩

theorem safe_spares {P : Statement → Prop} {p : CodeM P α} (within : p.prog.All SparesInvitations)
    (one : ∀ rows, B rows → OneOpen env rows) (start : Kept B w) :
    p.prog.Safe Frozen (Settles env) (fun _ => Kept B) (fun _ _ => True) w := by
  refine Prog.Safe.mono (Prog.Safe.of_all (J := Kept B) within ?_ ?_ start) (fun _ _ h => h)
    fun _ _ _ => trivial
  · rintro s v _ kept db rfl
    cases s with
    | commit => exact one _ kept.2
    | _ => trivial
  · rintro _ v spares kept db found rfl
    exact kept.execOn spares found

/-- Such a program before the rest. -/
theorem safe_after {P : Statement → Prop} {p : CodeM P β} {f : β → CodeM P α}
    (within : p.prog.All SparesInvitations) (one : ∀ rows, B rows → OneOpen env rows)
    (start : Kept B w) (rest : ∀ b v, Kept B v →
      (f b).prog.Safe Frozen (Settles env) (fun _ _ => True) (fun _ _ => True) v) :
    (p >>= f).prog.Safe Frozen (Settles env) (fun _ _ => True) (fun _ _ => True) w :=
  safe_bind (Prog.Safe.mono (safe_spares within one start) rest fun _ _ _ => trivial)

theorem spares_lookup (p : LookupM α) : p.prog.All SparesInvitations :=
  p.within.mono fun _ h => h.1.sparesInvitations

theorem spares_refresh (t : Table) (row : t.Row) (ht : t.tenantScoped = false) :
    (AccountM.refresh t row ht).prog.All SparesInvitations :=
  all_bind (spares_lookup _) fun _ => all_bind (all_oneOrNone _) fun _ => all_orRaise _ _

theorem spares_setActive (userId : Uuid) (selection : Option Uuid) :
    (UserRepo.setActive userId selection).prog.All SparesInvitations :=
  all_discard (all_ask (show Table.users ≠ .pendingInvitations from nofun))

theorem spares_commit : (AccountM.commit).prog.All SparesInvitations := all_ask trivial

/-- The rows that a select of invitations finds. -/
theorem safe_find {rows : List PendingInvitation} {q : PendingInvitation → Bool}
    (start : Kept (· = rows) w) :
    (lookup .pendingInvitations q).prog.Safe Frozen (Settles env)
      (fun found v => found = rows.filter q ∧ Kept (· = rows) v) (fun _ _ => True) w := by
  refine safe_ask (s := .select .pendingInvitations q) (fun _ _ => trivial) ?_
    fun _ _ _ _ _ _ => trivial
  rintro db found listed v rfl answered
  have kept := start.execOn (s := .select .pendingInvitations q) trivial found
  obtain ⟨_, selected, _⟩ := World.execOn_select answered
  have whole : World.view w .pendingInvitations = rows := start.2
  rw [World.visible_of_unsecured rfl] at selected
  refine ⟨selected.trans (congrArg (List.filter q) whole), ?_⟩
  have same : World.execOn found (.select .pendingInvitations q) w = (.ok listed, v) := answered
  rw [same] at kept
  exact kept

end Spare

/-! ### What the requests write -/

section Writes

variable {env : Env} {rows : List PendingInvitation} {α : Type} {w : World Table}

/-- The update of invitations, and a commit after it. -/
theorem safe_rewrite {q : PendingInvitation → Bool}
    {set : PendingInvitation → PendingInvitation} (one : OneOpen env rows)
    (still : ∀ found : List Uuid, OneOpen env (rows.map fun r =>
      if (q r && decide (r.id ∈ found)) = true then set r else r))
    (start : Kept (· = rows) w) :
    (AccountM.update .pendingInvitations q fun r => .ok (set r)).prog.Safe Frozen (Settles env)
      (fun _ v => Kept (OneOpen env) v) (fun _ _ => True) w := by
  refine safe_ask (s := .update .pendingInvitations q _) (fun _ _ => trivial) ?_
    fun _ _ _ _ _ _ => trivial
  rintro db found updated v rfl answered
  have rewrites := World.view_of_update rfl answered
  obtain ⟨_, _, _, _, _, stored, _⟩ := World.execOn_update answered
  have committed : v.db .pendingInvitations = rows := by
    rw [stored]
    exact start.1
  have seen : World.view ⟨w.db, w.session⟩ .pendingInvitations = rows := start.2
  rw [seen] at rewrites
  refine ⟨committed ▸ one, ?_⟩
  rw [rewrites]
  exact still found

/-- Accepting, once the user is a member. -/
theorem safe_acceptRow (invitationId : Uuid) (one : OneOpen env rows) (start : Kept (· = rows) w) :
    (HouseholdRepo.acceptInvitation env invitationId).prog.Safe Frozen (Settles env)
      (fun _ => Kept (OneOpen env)) (fun _ _ => True) w := by
  refine safe_bind (Prog.Safe.mono (safe_rewrite one (fun found => ?_) start) ?_ fun _ _ _ => trivial)
  · exact one.close fun i => nofun
  · intro updated v kept
    cases List.isEmpty updated with
    | true => exact trivial
    | false => exact kept

theorem safe_accept (caller : Option Uuid) (token : String) (one : OneOpen env rows)
    (start : Kept (· = rows) w) :
    (acceptInvite env caller token).prog.Safe Frozen (Settles env) (fun _ _ => True)
      (fun _ _ => True) w := by
  have same : ∀ rows', rows' = rows → OneOpen env rows' := by
    rintro _ rfl
    exact one
  unfold acceptInvite
  refine safe_after (spares_lookup _) same start fun user v₁ kept => ?_
  refine safe_after (spares_lookup _) same kept fun i v₂ kept => ?_
  refine safe_after (spares_lookup _) same kept fun _ v₃ kept => ?_
  refine safe_bind (safe_orRaise (fun household _ => ?_) fun _ => trivial)
  refine safe_after (spares_lookup _) same kept fun m v₄ kept => ?_
  cases m.isSome with
  | true => exact trivial
  | false =>
      refine safe_after (spares_lookup _) same kept fun members v₅ kept => ?_
      by_cases full : HouseholdRepo.memberLimit ≤ members
      · simp only [full]
        trivial
      · simp only [full]
        have added : (HouseholdRepo.addMember env i user.id).prog.All SparesInvitations :=
          all_bind (all_ask (show Table.householdMembers ≠ .pendingInvitations from nofun)) fun _ =>
            spares_refresh .householdMembers _ rfl
        refine safe_after (all_discard added) same kept fun _ v₆ kept => ?_
        refine safe_bind (Prog.Safe.mono (safe_acceptRow i.id one kept) ?_ fun _ _ _ => trivial)
        intro _ v₇ settled
        refine safe_after (spares_setActive _ _) (fun _ h => h) settled fun _ v₈ settled => ?_
        exact safe_after spares_commit (fun _ h => h) settled fun _ _ _ => trivial

theorem safe_revoke (invitationId : Uuid) (m : HouseholdMember) (one : OneOpen env rows)
    (start : Kept (· = rows) w) :
    (revokeInvitation env invitationId m).prog.Safe Frozen (Settles env) (fun _ _ => True)
      (fun _ _ => True) w := by
  have same : ∀ rows', rows' = rows → OneOpen env rows' := by
    rintro _ rfl
    exact one
  unfold revokeInvitation
  refine safe_after (all_discard (spares_lookup _)) same start fun _ v₁ kept => ?_
  have revoked : (HouseholdRepo.revokeInvitation env invitationId).prog.Safe Frozen (Settles env)
      (fun _ => Kept (OneOpen env)) (fun _ _ => True) v₁ := by
    unfold HouseholdRepo.revokeInvitation
    refine safe_bind (Prog.Safe.mono (safe_spares (spares_lookup _) same kept) ?_
      fun _ _ _ => trivial)
    intro i v₂ kept
    by_cases used : i.map PendingInvitation.status = some .accepted
    · simp only [used]
      trivial
    · simp only [used]
      refine safe_bind (Prog.Safe.mono (safe_rewrite one (fun found => ?_) kept) ?_
        fun _ _ _ => trivial)
      · refine one.close fun i open' => ?_
        cases open'
      · intro updated v₃ settled
        cases List.isEmpty updated with
        | true => exact trivial
        | false => exact settled
  refine safe_bind (Prog.Safe.mono revoked ?_ fun _ _ _ => trivial)
  intro _ v₄ settled
  exact safe_after spares_commit (fun _ h => h) settled fun _ _ _ => trivial

/-- Sending again, where no other invitation is open. -/
theorem safe_resend (invitationId : Uuid) (m : HouseholdMember) (one : OneOpen env rows)
    (free : ∀ i ∈ rows, i.id = invitationId → i.householdId = m.householdId →
      i.status ≠ .accepted → ∀ email, i.invitedEmail.map env.lower = some email →
        ∀ j ∈ rows, j.id ≠ invitationId →
          HouseholdRepo.isOpenInvitation env m.householdId email j = false)
    (start : Kept (· = rows) w) :
    (resendInvitation env invitationId m).prog.Safe Frozen (Settles env) (fun _ _ => True)
      (fun _ _ => True) w := by
  have same : ∀ rows', rows' = rows → OneOpen env rows' := by
    rintro _ rfl
    exact one
  have byId {v : World Table} (kept : Kept (· = rows) v) :
      (HouseholdRepo.getInvitationById invitationId).prog.Safe Frozen (Settles env)
        (fun o u => (∀ i, o = some i → rows.filter (fun r => r.id == invitationId) = [i]) ∧
          Kept (· = rows) u) (fun _ _ => True) v := by
    refine safe_bind (Prog.Safe.mono (safe_find kept) ?_ fun _ _ _ => trivial)
    rintro found u ⟨listed, kept⟩
    refine safe_oneOrNone (fun _ => ⟨fun i none => absurd none (Option.some_ne_none i).symm, kept⟩)
      (fun i one => ⟨?_, kept⟩) trivial
    rintro _ ⟨⟩
    exact listed.symm.trans one
  unfold resendInvitation
  -- the invitation is read twice, once to check its household and once to write it
  have checked : (invitationOf m.householdId invitationId).prog.Safe Frozen (Settles env)
      (fun i u => rows.filter (fun r => r.id == invitationId) = [i] ∧
        i.householdId = m.householdId ∧ Kept (· = rows) u) (fun _ _ => True) w := by
    refine safe_bind (Prog.Safe.mono (byId start) ?_ fun _ _ _ => trivial)
    rintro o u ⟨only, kept⟩
    refine safe_orRaise (fun i filtered => ?_) fun _ => trivial
    obtain ⟨found, here⟩ := Option.filter_eq_some_iff.mp filtered
    exact ⟨only i found, of_decide_eq_true here, kept⟩
  refine safe_bind (safe_bind (Prog.Safe.mono checked ?_ fun _ _ _ => trivial))
  rintro i₀ v₁ ⟨only₀, here, kept⟩
  refine safe_bind (safe_liftExcept (fun token _ => ?_) fun _ _ => trivial)
  have resent : (HouseholdRepo.resendInvitation env invitationId token).prog.Safe Frozen
      (Settles env) (fun _ => Kept (OneOpen env)) (fun _ _ => True) v₁ := by
    unfold HouseholdRepo.resendInvitation
    refine safe_bind (Prog.Safe.mono (byId kept) ?_ fun _ _ _ => trivial)
    rintro o v₂ ⟨only, kept⟩
    refine safe_bind (safe_orRaise (fun i found => ?_) fun _ => trivial)
    have only := only i found
    have one_row : i₀ = i := (List.cons.inj (only₀.symm.trans only)).1
    subst one_row
    by_cases used : i₀.status = .accepted
    · simp only [used]
      trivial
    · simp only [used]
      have mem : i₀ ∈ rows.filter (fun r => r.id == invitationId) := only ▸ List.mem_singleton_self _
      obtain ⟨stored, named⟩ := List.mem_filter.mp mem
      refine safe_bind (Prog.Safe.mono (safe_rewrite one (fun found => ?_) kept) ?_
        fun _ _ _ => trivial)
      · -- only this row changes, and no other open one has its address
        refine one.reopen only (fun r rewrites => ?_) (fun r => ⟨rfl, rfl⟩) ?_
        · exact beq_iff_eq.mp (Bool.and_eq_true_iff.mp rewrites).1
        · intro email address j hj other
          rw [here]
          exact free i₀ stored (beq_iff_eq.mp named) here used email address j hj other
      · intro updated v₃ settled
        refine safe_bind (safe_oneOrNone (fun _ => ?_) (fun r _ => ?_) trivial)
        · exact safe_orRaise (fun r none => absurd none (Option.some_ne_none r).symm) fun _ => trivial
        · exact safe_orRaise (fun _ _ => settled) fun _ => trivial
  refine safe_bind (Prog.Safe.mono resent ?_ fun _ _ _ => trivial)
  intro _ v₄ settled
  exact safe_after spares_commit (fun _ h => h) settled fun _ _ _ => trivial

/-- The checks on an address: no invitation to it is open. -/
theorem safe_checkAddress (householdId : Uuid) (email : String) (one : OneOpen env rows)
    (start : Kept (· = rows) w) :
    (HouseholdRepo.checkAddress env householdId email).prog.Safe Frozen (Settles env)
      (fun _ v => (∀ i ∈ rows, HouseholdRepo.isOpenInvitation env householdId email i = false) ∧
        Kept (· = rows) v) (fun _ _ => True) w := by
  have same : ∀ rows', rows' = rows → OneOpen env rows' := by
    rintro _ rfl
    exact one
  unfold HouseholdRepo.checkAddress
  refine safe_bind (Prog.Safe.mono (safe_find start) ?_ fun _ _ _ => trivial)
  rintro found v₁ ⟨listed, kept⟩
  refine safe_bind (safe_oneOrNone (fun empty => ?_) (fun i _ => ?_) trivial)
  · have closed : ∀ i ∈ rows, HouseholdRepo.isOpenInvitation env householdId email i = false :=
      fun i hi => Bool.eq_false_iff.mpr
        (List.filter_eq_nil_iff.mp (listed.symm.trans empty) i hi)
    refine safe_bind (Prog.Safe.mono (safe_spares (spares_lookup _) same kept) ?_
      fun _ _ _ => trivial)
    intro members v₂ kept
    refine safe_bind (safe_oneOrNone (fun _ => ⟨closed, kept⟩) (fun _ _ => ?_) trivial)
    exact trivial
  · exact trivial

/-- The insert of an invitation to an address without an open one. -/
theorem safe_insertInvitation {make : Uuid → Except StmtError PendingInvitation}
    (one : OneOpen env rows)
    (free : ∀ id r, make id = .ok r → ∀ email, r.invitedEmail.map env.lower = some email →
      ∀ i ∈ rows, HouseholdRepo.isOpenInvitation env r.householdId email i = false)
    (start : Kept (· = rows) w) :
    (AccountM.insert .pendingInvitations make).prog.Safe Frozen (Settles env)
      (fun _ => Kept (OneOpen env)) (fun _ _ => True) w := by
  refine safe_ask (s := .insert .pendingInvitations make) (fun _ _ => trivial) ?_
    fun _ _ _ _ _ _ => trivial
  rintro db found r v rfl answered
  have grown := World.view_of_insert answered
  obtain ⟨_, made, _, _, stored, _⟩ := World.execOn_insert answered
  have committed : v.db .pendingInvitations = rows := by
    rw [stored]
    exact start.1
  have seen : World.view ⟨w.db, w.session⟩ .pendingInvitations = rows := start.2
  rw [seen] at grown
  refine ⟨committed ▸ one, ?_⟩
  rw [grown]
  exact one.append (free _ r made)

theorem safe_create (idempotent : ∀ s, env.lower (env.lower s) = env.lower s)
    (invitedEmail : Option String) (invitedRole : Role) (m : HouseholdMember)
    (one : OneOpen env rows) (start : Kept (· = rows) w) :
    (createInvite env invitedEmail invitedRole m).prog.Safe Frozen (Settles env) (fun _ _ => True)
      (fun _ _ => True) w := by
  have same : ∀ rows', rows' = rows → OneOpen env rows' := by
    rintro _ rfl
    exact one
  have created (address : Option String) (token : HouseholdRepo.InvitationToken) :
      (HouseholdRepo.createInvitation env m.householdId m.userId address invitedRole
        token).prog.Safe Frozen (Settles env) (fun _ => Kept (OneOpen env)) (fun _ _ => True) w := by
    unfold HouseholdRepo.createInvitation
    refine safe_bind (Prog.Safe.mono (safe_spares (spares_lookup _) same start) ?_
      fun _ _ _ => trivial)
    intro members v₁ kept
    by_cases full : HouseholdRepo.memberLimit ≤ members
    · simp only [full]
      trivial
    simp only [full]
    refine safe_bind (Prog.Safe.mono (safe_spares (spares_lookup _) same kept) ?_
      fun _ _ _ => trivial)
    intro recent v₂ kept
    by_cases often : 10 ≤ recent.length
    · simp only [often]
      trivial
    simp only [often]
    -- without an address nothing is open for it; with one, the check is what keeps it so
    cases given : address.filter (· ≠ "") with
    | none =>
        refine safe_bind (Prog.Safe.mono (safe_insertInvitation one ?_ kept) ?_
          fun _ _ _ => trivial)
        · intro id r made email known
          obtain ⟨stored, text, made⟩ := bind_eq_ok made
          cases text
          cases made
          cases known
        · intro invitation v₃ settled
          exact safe_spares (spares_refresh .pendingInvitations invitation rfl) (fun _ h => h) settled
    | some raw =>
        refine safe_bind (Prog.Safe.mono (safe_checkAddress m.householdId (env.lower (strip raw)) one
          kept) ?_ fun _ _ _ => trivial)
        rintro _ v₃ ⟨closed, kept⟩
        refine safe_bind (Prog.Safe.mono (safe_insertInvitation one ?_ kept) ?_
          fun _ _ _ => trivial)
        · intro id r made email known
          obtain ⟨stored, text, made⟩ := bind_eq_ok made
          cases made
          rw [asText_eq_ok rfl text] at known
          cases known
          -- the stored address is compared in lower case once more
          rw [idempotent]
          exact closed
        · intro invitation v₄ settled
          exact safe_spares (spares_refresh .pendingInvitations invitation rfl) (fun _ h => h) settled
  unfold createInvite
  refine safe_bind (safe_liftExcept (fun token _ => ?_) fun _ _ => trivial)
  refine safe_bind (Prog.Safe.mono (created _ token) ?_ fun _ _ _ => trivial)
  intro invitation v₁ settled
  refine safe_after spares_commit (fun _ h => h) settled fun _ v₂ settled => ?_
  exact safe_after (spares_refresh .pendingInvitations invitation rfl) (fun _ h => h) settled
    fun _ _ _ => trivial

end Writes

/-! ### Histories -/

section Serve

variable {c : Call} {db : State}

theorem serve_stored (c : Call) (r : Request) (db : State) :
    (c.serve r db).2 = (Prog.run World.exec (r.program c.env c.archive).prog (c.start db)).2.db := rfl

/-- A request that settles whenever it commits. -/
theorem oneOpen_of_safe {α : Type} {p : AppM α} {w : World Table}
    (safe : p.prog.Safe Frozen (Settles c.env) (fun _ _ => True) (fun _ _ => True) w)
    (start : OneOpen c.env (w.db .pendingInvitations)) :
    OneOpen c.env ((Prog.run World.exec p.prog w).2.db .pendingInvitations) :=
  Prog.Safe.stored (Q := fun db : State => OneOpen c.env (db .pendingInvitations))
    (fun _ settles => settles) safe start

/-- An endpoint that settles, with its dependencies. -/
theorem oneOpen_asMember {caller : Option Uuid}
    {endpoint : (m : HouseholdMember) → TenantM m.householdId Response}
    (one : OneOpen c.env (db .pendingInvitations))
    (safe : ∀ m w, c.resolved db (callerMembership c.env caller) = some m →
      Kept (· = db .pendingInvitations) w → (endpoint m).prog.Safe Frozen (Settles c.env)
        (fun _ _ => True) (fun _ _ => True) w) :
    OneOpen c.env ((Prog.run World.exec (asMember c.env caller endpoint).prog (c.start db)).2.db
      .pendingInvitations) := by
  have rows := (callerMembership_keeps c.env db caller (c.start db) (onlyUsers_start c db) rfl).1
  have whole : (asMember c.env caller endpoint).prog =
      (callerMembership c.env caller).prog >>= fun m => (inContext m.householdId (endpoint m)).prog :=
    rfl
  rw [whole, Prog.run_bind]
  cases resolved : Prog.run World.exec (callerMembership c.env caller).prog (c.start db) with
  | mk result w =>
      rw [resolved] at rows
      obtain ⟨committed, seen⟩ := rows .pendingInvitations nofun
      have one' : OneOpen c.env (w.db .pendingInvitations) := by
        rw [committed]
        exact one
      cases result with
      | error e => exact one'
      | ok m =>
          have member : c.resolved db (callerMembership c.env caller) = some m := by
            unfold Call.resolved
            have run : CodeM.run (callerMembership c.env caller : AccountM _) (c.start db) =
              (.ok m, w) := resolved
            rw [run]
            rfl
          refine oneOpen_of_safe (p := inContext m.householdId (endpoint m)) ?_ one'
          refine safe_bind (Prog.Safe.mono (safe_spares (B := (· = db .pendingInvitations))
            (all_ask trivial) ?_ ⟨committed, seen⟩) ?_ fun _ _ _ => trivial)
          · rintro _ rfl
            exact one
          · exact fun _ v kept => safe m v member kept

theorem safe_requireAdmin {env : Env} {m : HouseholdMember} {endpoint : TenantM m.householdId Response}
    {w : World Table} (h : m.role = .admin → endpoint.prog.Safe Frozen (Settles env)
      (fun _ _ => True) (fun _ _ => True) w) :
    (requireAdmin m endpoint).prog.Safe Frozen (Settles env) (fun _ _ => True) (fun _ _ => True)
      w := by
  by_cases admin : m.role = .admin
  · rw [requireAdmin_of_admin admin]
    exact h admin
  · rw [requireAdmin_of_member admin]
    trivial

/-- A request that does not clash leaves one open invitation to an address. -/
theorem oneOpen_serve (idempotent : ∀ s, c.env.lower (c.env.lower s) = c.env.lower s)
    {r : Request} (kind : r.OfInvitations) (calm : ¬ Clashes c db r)
    (one : OneOpen c.env (db .pendingInvitations)) :
    OneOpen c.env ((c.serve r db).2 .pendingInvitations) := by
  rw [serve_stored]
  have start : Kept (· = db .pendingInvitations) (c.start db) := ⟨rfl, rfl⟩
  cases r with
  | invitationAccept caller token => exact oneOpen_of_safe (safe_accept caller token one start) one
  | invitationDecline token =>
      refine oneOpen_of_safe (Prog.Safe.mono (safe_spares (B := (· = db .pendingInvitations)) ?_ ?_
        start) (fun _ _ _ => trivial) fun _ _ _ => trivial) one
      · exact all_bind (all_discard (spares_lookup _)) fun _ => trivial
      · rintro _ rfl
        exact one
  | member caller request =>
      cases request with
      | invitationCreate email role =>
          exact oneOpen_asMember one fun m w _ kept =>
            safe_requireAdmin fun _ => safe_create idempotent email role m one kept
      | invitationRevoke id =>
          exact oneOpen_asMember one fun m w _ kept =>
            safe_requireAdmin fun _ => safe_revoke id m one kept
      | invitationResend id =>
          refine oneOpen_asMember one fun m w resolved kept =>
            safe_requireAdmin fun admin => safe_resend id m one ?_ kept
          intro i hi named here unaccepted email address j hj other
          refine Bool.eq_false_iff.mpr fun opens => calm ?_
          exact ⟨m, resolved, admin, i, hi, named, here, unaccepted, j, hj, other, email, address,
            opens⟩
      | _ => exact kind.elim
  | _ => exact kind.elim

end Serve

theorem oneOpen_serveAll {env env' : Env} {calls : List (Call × Request)} {db : State}
    (idempotent : ∀ s, env.lower (env.lower s) = env.lower s)
    (kinds : ∀ x ∈ calls, x.2.OfInvitations)
    (inTime : (env :: calls.map (fun x => x.1.env) ++ [env']).Pairwise Env.Before)
    (calm : NoneClashes calls db) (one : OneOpen env (db .pendingInvitations)) :
    OneOpen env' (serveAll calls db .pendingInvitations) := by
  induction calls generalizing env db with
  | nil =>
      have before := (List.pairwise_cons.mp inTime).1 env' (List.mem_singleton_self env')
      exact one.later before
  | cons x rest ih =>
      obtain ⟨first, later⟩ := List.pairwise_cons.mp inTime
      have before : env.Before x.1.env := first _ List.mem_cons_self
      have idempotent' : ∀ s, x.1.env.lower (x.1.env.lower s) = x.1.env.lower s := by
        rw [before.1]
        exact idempotent
      obtain ⟨kind, kinds⟩ := List.forall_mem_cons.mp kinds
      exact ih idempotent' kinds later calm.2
        (oneOpen_serve idempotent' kind calm.1 (one.later before))

/-- As long as no invitation is sent again while another one to the address is open,
every household has one open invitation to an address at most, and the duplicate lookup
finds one row at most. What is asked of the requests restricts resends only, and the
state that they find: that a create does not add a second one is the duplicate lookup's
doing. The requests come one after the other, at times that do not go back. -/
theorem one_open_invitation {env env' : Env} {calls : List (Call × Request)} {db : State}
    (idempotent : ∀ s, env.lower (env.lower s) = env.lower s)
    (kinds : ∀ x ∈ calls, x.2.OfInvitations)
    (inTime : (env :: calls.map (fun x => x.1.env) ++ [env']).Pairwise Env.Before)
    (calm : NoneClashes calls db) (one : OneOpen env (db .pendingInvitations)) (h : Uuid)
    (email : String) :
    (serveAll calls db .pendingInvitations).countP (HouseholdRepo.isOpenInvitation env' h email) ≤ 1 ∧
      ∀ w : World Table, ∃ o, (oneOrNone ((serveAll calls db .pendingInvitations).filter
        (HouseholdRepo.isOpenInvitation env' h email)) : LookupM _).run w = (.ok o, w) := by
  have few := oneOpen_serveAll idempotent kinds inTime calm one h email
  refine ⟨few, fun w => ?_⟩
  rw [List.countP_eq_length_filter] at few
  -- scalar_one_or_none raises only on a second row
  match found : (serveAll calls db .pendingInvitations).filter
      (HouseholdRepo.isOpenInvitation env' h email), few with
  | [], _ => exact ⟨none, rfl⟩
  | [i], _ => exact ⟨some i, rfl⟩
  | _ :: _ :: _, few => exact absurd few (by simp)

namespace Sample

/-! ### Bob is invited twice -/

/-- A call with a token and a row id of its own. -/
def nth (n : Nat) : Call :=
  { call with env := { env with rawToken := toString n }, supply := fun k => id (500 + 10 * n + k) }

def bobsAddress : String := "bob@example.org"

def invite : Request := .member (some ada.id) (.invitationCreate (some bobsAddress) .member)

def revoke : Request := .member (some ada.id) (.invitationRevoke (id 510))

def resend : Request := .member (some ada.id) (.invitationResend (id 510))

/-- The invitation is revoked and replaced by another one. -/
def replacing : List (Call × Request) :=
  [(nth 1, invite), (nth 2, resend), (nth 3, revoke), (nth 4, invite)]

/-- Then the first one is sent again. -/
def reviving : List (Call × Request) := replacing ++ [(nth 5, resend)]

def openForBob (calls : List (Call × Request)) : Nat :=
  (serveAll calls db .pendingInvitations).countP
    (HouseholdRepo.isOpenInvitation env household.id bobsAddress)

theorem nothing_open : OneOpen env (db .pendingInvitations) := fun _ _ => Nat.zero_le 1

theorem replacing_calm : NoneClashes replacing db := by
  refine ⟨fun h => h, ?_, fun h => h, fun h => h, trivial⟩
  rintro ⟨m, _, _, i, _, _, _, _, j, hj, other, _⟩
  have only : ∀ j ∈ ((nth 1).serve invite db).2 .pendingInvitations, Table.id .pendingInvitations j =
      id 510 := by decide +kernel
  exact other (only j hj)

/-- While none is revived, one invitation to Bob is open. -/
theorem one_open_for_bob : openForBob replacing = 1 ∧ openForBob replacing ≤ 1 ∧
    ∀ w : World Table, ∃ o, (oneOrNone ((serveAll replacing db .pendingInvitations).filter
      (HouseholdRepo.isOpenInvitation env household.id bobsAddress)) : LookupM _).run w =
        (.ok o, w) := by
  refine ⟨by decide +kernel, one_open_invitation (fun _ => rfl) ?_ ?_ replacing_calm nothing_open
    household.id bobsAddress⟩
  · simp [replacing, invite, resend, revoke, Request.OfInvitations]
  · simp [replacing, nth, call, Env.Before]

/-- The revived invitation is open beside the one that replaced it. -/
theorem two_open_for_bob : ¬ ∀ (env env' : Env) (calls : List (Call × Request)) (db : State),
    (∀ s, env.lower (env.lower s) = env.lower s) → (∀ x ∈ calls, x.2.OfInvitations) →
      (env :: calls.map (fun x => x.1.env) ++ [env']).Pairwise Env.Before →
        OneOpen env (db .pendingInvitations) → ∀ h email,
          (serveAll calls db .pendingInvitations).countP
            (HouseholdRepo.isOpenInvitation env' h email) ≤ 1 := by
  intro one
  have two : openForBob reviving = 2 := by decide +kernel
  have few : openForBob reviving ≤ 1 := by
    refine one env env reviving db (fun _ => rfl) ?_ ?_ nothing_open household.id bobsAddress
    · simp [reviving, replacing, invite, resend, revoke, Request.OfInvitations]
    · simp [reviving, replacing, nth, call, Env.Before]
  rw [two] at few
  exact absurd few (by decide)

end Sample

end EspressoLogs
