import EspressoLogs.Accounts.Clients

/-!
Invitations are for one use.

Accepting one takes effect only on a row that is pending or declined, whatever
was read before. Resending and revoking check the status in an earlier statement
and write without looking at it again. As long as no accept commits between the
two (`NotOvertaken`), an accepted invitation stays as it is, and it was accepted
by one transaction, which admitted one member: accepts of one row may overlap as
they like, and resends and revokes with each other.

* `checked_resendInvitation`, `checked_revokeInvitation`: who gets to write an
  invitation over has seen that it is not accepted.
* `Guarded.spared`: no accept commits meanwhile, so it still is not.
* `invitations_used_once`: in every run, from any point of it to any later one.
-/

namespace EspressoLogs

open Lib Py

/-! ### What is committed -/

/-- The invitations that a transaction accepted. -/
def acceptedIn (ws : Writes Table) : List PendingInvitation :=
  (ws .pendingInvitations).flatMap fun c => c.news.filter fun i => i.status == .accepted

/-- The committed transactions that accepted an invitation. -/
def acceptances (invitationId : Uuid) (log : List (Writes Table)) : List (Writes Table) :=
  log.filter fun ws => (acceptedIn ws).any fun i => i.id == invitationId

/-- The requests that use, resend or revoke an invitation. -/
def Request.AboutInvitation : Request → Prop
  | invitationAccept _ _ | member _ (.invitationResend _) | member _ (.invitationRevoke _) => True
  | _ => False

/-- What the update of a resend or revoke does to an invitation, and that of an accept does
not: the row is pending or revoked afterwards. -/
def unaccepts (set : PendingInvitation → Except StmtError PendingInvitation)
    (i : PendingInvitation) : Bool :=
  (set i).toOption.any fun j => j.status != .accepted

/-- The client is about to resend or revoke an invitation: it has read the status, and does
not look at it again. -/
def rewrites (c : Client Table Exc Response) (i : PendingInvitation) : Bool :=
  match c.prog with
  | .op (.update .pendingInvitations q set) _ => q i && unaccepts set i
  | _ => false

/-- No accept of an invitation commits while a resend or revoke of it has read the
status and not written yet. -/
def NotOvertaken (_ : Pool Table Exc Response) (c : Client Table Exc Response)
    (others : List (Client Table Exc Response)) : Statement → Prop
  | .commit => ∀ i ∈ acceptedIn c.writes, ∀ o ∈ others, rewrites o i = false
  | _ => True

/-! ### Statements on invitations -/

/-- A statement that neither adds nor removes invitations. -/
def KeepsInvitations : Statement → Prop
  | .insert .pendingInvitations _ | .delete .pendingInvitations _ => False
  | s => KeepsPlace s

theorem KeepsInvitations.keepsPlace (s : Statement) (h : KeepsInvitations s) : KeepsPlace s := by
  cases s with
  | insert t make => cases t <;> first | exact h.elim | exact h
  | delete t p => trivial
  | _ => exact h

/-- An update of invitations asks for the status itself, or it is that of a resend or revoke
and follows a statement that did: none of the rows that it is about was accepted then. -/
def Guarded : Statement → World Table → Prop
  | .update .pendingInvitations q set, w => (∀ i : PendingInvitation, q i = true →
      i.status ≠ .accepted) ∨ w.session.pending .pendingInvitations = [] ∧
        (∀ i, unaccepts set i = true) ∧
          ∀ i ∈ w.db .pendingInvitations, q i = true → i.status ≠ .accepted
  | _, _ => True

/-- A statement that updates invitations only where they are not accepted. -/
def AsksStatus : Statement → Prop
  | .update .pendingInvitations q _ => ∀ i : PendingInvitation, q i = true → i.status ≠ .accepted
  | _ => True

theorem usual_asksStatus : Usual AsksStatus where
  read s h := by cases s <;> first | exact h.elim | trivial
  commit := trivial
  setConfig _ := trivial
  users _ _ _ := trivial
  members _ := trivial

theorem AsksStatus.guarded (s : Statement) (w : World Table) (h : AsksStatus s) : Guarded s w := by
  cases s with
  | update t p set =>
      cases t with
      | pendingInvitations => exact .inl h
      | _ => trivial
  | _ => trivial

theorem checked_of_asksStatus {α : Type} {p : Prog Statement Resp Exc α} (within : p.All AsksStatus)
    (w : World Table) : p.Checked Guarded w :=
  Prog.Checked.of_safe (Prog.Safe.of_all (J := fun _ => True) within
    (fun s _ h _ _ _ => h.guarded s _) (fun _ _ _ _ _ _ _ => trivial) trivial)

/-- A statement that writes no invitation and leaves the other rows where they are. -/
def LeavesInvitations (s : Statement) : Prop := KeepsPlace s ∧ SparesInvitations s

theorem usual_leavesInvitations : Usual LeavesInvitations where
  read s h := ⟨usual_keepsPlace.read s h, h.sparesInvitations⟩
  commit := ⟨trivial, trivial⟩
  setConfig _ := ⟨trivial, trivial⟩
  users p set kept :=
    ⟨usual_keepsPlace.users p set kept, show Table.users ≠ .pendingInvitations from nofun⟩
  members _ := ⟨trivial, show Table.householdMembers ≠ .pendingInvitations from nofun⟩

theorem LeavesInvitations.asksStatus {s : Statement} (h : LeavesInvitations s) : AsksStatus s := by
  cases s with
  | update t p set =>
      cases t with
      | pendingInvitations => exact absurd rfl h.2
      | _ => trivial
  | _ => trivial

/-- A transaction that wrote no invitation goes on having written none. -/
theorem LeavesInvitations.untouched {s : Statement} (h : LeavesInvitations s) (found : List Uuid)
    {w : World Table} (start : w.session.pending .pendingInvitations = []) :
    (World.execOn found s w).2.session.pending .pendingInvitations = [] := by
  rw [World.execOn_world]
  by_cases committing : s = .commit
  · subst committing
    show (World.exec .commit w).2.session.pending .pendingInvitations = []
    rcases World.exec_commit w with ⟨_, empty, _⟩ | ⟨_, _, empty | same⟩
    · rw [empty]
    · rw [empty]
    · rw [same]
      exact start
  · have uncommitting : s.narrow found ≠ .commit :=
      fun eq => committing (Stmt.narrow_eq_commit.mp eq)
    cases World.exec_leaves uncommitting ((h.1.narrow found).orderly) (w := w) with
    | kept same =>
        rw [same]
        exact start
    | dropped empty => rw [empty]
    | wrote t change _ wrote _ added =>
        have other : Table.pendingInvitations ≠ t := by
          rintro rfl
          have spares := h.2
          cases s <;> cases wrote <;> exact spares rfl
        rw [added]
        exact (Function.update_of_ne other _ _).trans start

theorem checked_commit (response : Response) (w : World Table) : (do
    AccountM.commit
    return response : AccountM Response).prog.Checked Guarded w := by
  refine checked_of_asksStatus (all_bind (all_ask usual_asksStatus.commit) fun _ => ?_) w
  trivial

section Checks

variable {w : World Table}

/-- A part of a request that writes no invitation. -/
theorem safe_leavesInvitations {p : Prog Statement Resp Exc α} (within : p.All LeavesInvitations)
    (start : w.session.pending .pendingInvitations = []) :
    p.Safe (fun _ _ => True) Guarded (fun _ (v : World Table) =>
      v.session.pending .pendingInvitations = []) (fun _ _ => True) w :=
  Prog.Safe.mono (Prog.Safe.of_all (J := fun v => v.session.pending .pendingInvitations = []) within
    (fun s _ h _ _ _ => h.asksStatus.guarded s _)
    (fun _ v h here db found _ => h.untouched found (w := ⟨db, v.session⟩) here) start)
    (fun _ _ h => h) fun _ _ _ => trivial

/-- The look at an invitation: it is the only row under its id. -/
theorem safe_getInvitationById (id : Uuid) (start : w.session.pending .pendingInvitations = []) :
    (HouseholdRepo.getInvitationById id).prog.Safe (fun _ _ => True) Guarded
      (fun found (v : World Table) => v.session.pending .pendingInvitations = [] ∧
        ∀ i ∈ v.db .pendingInvitations, i.id = id → found = some i) (fun _ _ => True) w := by
  unfold HouseholdRepo.getInvitationById
  refine safe_bind (safe_ask (s := .select .pendingInvitations _) (fun _ _ => trivial) ?_
    fun _ _ _ _ _ _ => trivial)
  intro db found (rows : List PendingInvitation) v _ answered
  obtain ⟨_, selected, kept, stored, _⟩ := World.execOn_select answered
  have untouched := (congrFun kept .pendingInvitations).trans start
  have seen : World.visible ⟨db, w.session⟩ .pendingInvitations = v.db .pendingInvitations := by
    rw [World.visible_of_unsecured rfl, stored]
    show Change.applyAll (w.session.pending .pendingInvitations) (db .pendingInvitations) = _
    rw [start]
    rfl
  have listed {i : PendingInvitation} (here : i ∈ v.db .pendingInvitations) (same : i.id = id) :
      i ∈ rows := by
    rw [selected, seen]
    exact List.mem_filter.mpr ⟨here, beq_iff_eq.mpr same⟩
  refine safe_oneOrNone (fun empty => ⟨untouched, fun i here same => ?_⟩)
    (fun r one => ⟨untouched, fun i here same => ?_⟩) trivial
  · exact absurd (empty ▸ listed here same) List.not_mem_nil
  · have mine : i = r := List.mem_singleton.mp (one ▸ listed here same)
    rw [mine]

/-- The update of a resend or revoke, where the last statement saw no accepted row. -/
theorem guarded_of_seen {id : Uuid} {set : PendingInvitation → Except StmtError PendingInvitation}
    (untouched : w.session.pending .pendingInvitations = [])
    (resets : ∀ i, unaccepts set i = true)
    (seen : ∀ i ∈ w.db .pendingInvitations, i.id = id → i.status ≠ .accepted) :
    Guarded (.update .pendingInvitations (fun i => i.id == id) set) w :=
  .inr ⟨untouched, resets, fun i here taken => seen i here (beq_iff_eq.mp taken)⟩

theorem checked_revokeInvitation (env : Env) (id : Uuid) (m : HouseholdMember)
    (start : w.session.pending .pendingInvitations = []) :
    (revokeInvitation env id m).prog.Checked Guarded w := by
  unfold revokeInvitation
  refine checked_bind (Prog.Safe.mono (safe_leavesInvitations
    (all_discard (all_lookup usual_leavesInvitations _)) start) ?_ fun _ _ h => h)
  intro _ v untouched
  refine checked_andThen ?_ fun _ u => checked_commit _ u
  unfold HouseholdRepo.revokeInvitation
  refine checked_bind (Prog.Safe.mono (safe_getInvitationById id untouched) ?_ fun _ _ h => h)
  rintro found u ⟨untouched, seen⟩
  by_cases used : found.map PendingInvitation.status = some .accepted
  · simp only [used]
    trivial
  · simp only [used]
    refine checked_andThen (checked_ask (guarded_of_seen untouched (fun _ => rfl)
      fun i here same => ?_)) fun rows v => ?_
    · intro accepted
      rw [seen i here same, Option.map_some, accepted] at used
      exact used rfl
    · refine checked_of_asksStatus (all_ite ?_ ?_) v <;> trivial

theorem checked_resendInvitation (env : Env) (id : Uuid) (m : HouseholdMember)
    (start : w.session.pending .pendingInvitations = []) :
    (resendInvitation env id m).prog.Checked Guarded w := by
  unfold resendInvitation
  refine checked_bind (Prog.Safe.mono (safe_leavesInvitations
    (all_discard (all_lookup usual_leavesInvitations _)) start) ?_ fun _ _ h => h)
  intro _ v untouched
  refine checked_bind (safe_liftExcept (fun token _ => ?_) fun _ _ => trivial)
  refine checked_andThen ?_ fun _ u => checked_commit _ u
  unfold HouseholdRepo.resendInvitation
  refine checked_bind (Prog.Safe.mono (safe_getInvitationById id untouched) ?_ fun _ _ h => h)
  rintro found u ⟨untouched, seen⟩
  refine checked_bind (safe_orRaise (fun i here => ?_) fun _ => trivial)
  by_cases used : i.status = .accepted
  · simp only [used]
    trivial
  · simp only [used]
    refine checked_andThen (checked_ask (guarded_of_seen untouched (fun _ => rfl)
      fun j listed same => ?_)) fun rows v =>
        checked_of_asksStatus (all_bind (all_oneOrNone _) fun _ => all_orRaise _ _) v
    have row : i = j := Option.some.inj (here.symm.trans (seen j listed same))
    exact row ▸ used

end Checks

/-- The programs of the requests about an invitation. -/
theorem Request.AboutInvitation.checked {r : Request} (h : r.AboutInvitation) (env : Env)
    (archive : List String) {w : World Table} (start : w.session.pending = fun _ => []) :
    (r.program env archive).prog.Checked Guarded w := by
  have ofAdmin (caller : Option Uuid) (endpoint : (m : HouseholdMember) → AccountM Response)
      (within : ∀ m v, v.session.pending .pendingInvitations = [] →
        (endpoint m).prog.Checked Guarded v) :
      (asMember env caller fun m => requireAdmin m (endpoint m)).prog.Checked Guarded w := by
    refine checked_bind (Prog.Safe.mono (safe_leavesInvitations
      (all_callerMembership usual_leavesInvitations env caller) (congrFun start .pendingInvitations))
      ?_ fun _ _ h => h)
    intro m v untouched
    refine checked_bind (Prog.Safe.mono (safe_leavesInvitations
      (all_ask (usual_leavesInvitations.setConfig _)) untouched) ?_ fun _ _ h => h)
    intro _ u untouched
    show (requireAdmin m (endpoint m)).prog.Checked Guarded u
    unfold requireAdmin
    split
    · trivial
    · exact within m u untouched
  cases r with
  | invitationAccept caller token =>
      exact checked_of_asksStatus (all_acceptInvite usual_asksStatus (fun _ _ => trivial)
        (fun _ _ asks _ => asks) env caller token) w
  | member caller request =>
      cases request with
      | invitationResend id =>
          exact ofAdmin caller _ fun m v here => checked_resendInvitation env id m here
      | invitationRevoke id =>
          exact ofAdmin caller _ fun m v here => checked_revokeInvitation env id m here
      | _ => exact h.elim
  | _ => exact h.elim

/-! ### The invariant -/

/-- Open transactions have written no accepted invitation over, and every
invitation that was accepted is, by one transaction. -/
structure SingleUse (p : Pool Table Exc Response) : Prop where
  unused : ∀ c ∈ p.clients, ∀ change ∈ c.writes .pendingInvitations, ∀ i ∈ change.olds,
    i.status ≠ .accepted
  uninserted : ∀ c ∈ p.clients, ∀ i, .ins i ∉ c.writes .pendingInvitations
  once : ∀ id, (acceptances id p.log).length ≤ 1
  spent : ∀ ws ∈ p.log, ∀ i ∈ acceptedIn ws, ∃ j ∈ p.db .pendingInvitations,
    j.id = i.id ∧ j.status = .accepted

/-- Accepted invitations stay as they are, and are not accepted again. -/
def StaysAccepted (p p' : Pool Table Exc Response) : Prop :=
  ∀ i ∈ p.db .pendingInvitations, i.status = .accepted →
    i ∈ p'.db .pendingInvitations ∧ acceptances i.id p'.log = acceptances i.id p.log

theorem mem_acceptances {id : Uuid} {log : List (Writes Table)} {ws : Writes Table} :
    ws ∈ acceptances id log ↔ ws ∈ log ∧ ∃ i ∈ acceptedIn ws, i.id = id := by
  simp [acceptances, List.mem_filter]

theorem mem_acceptedIn {ws : Writes Table} {i : PendingInvitation} : i ∈ acceptedIn ws ↔
    (∃ c ∈ ws .pendingInvitations, i ∈ c.news) ∧ i.status = .accepted := by
  simp only [acceptedIn, List.mem_flatMap, List.mem_filter, beq_iff_eq]
  constructor
  · rintro ⟨c, hc, hi, status⟩
    exact ⟨⟨c, hc, hi⟩, status⟩
  · rintro ⟨⟨c, hc, hi⟩, status⟩
    exact ⟨c, hc, hi, status⟩

theorem acceptances_cons_of_not {id : Uuid} {ws : Writes Table} {log : List (Writes Table)}
    (other : ∀ i ∈ acceptedIn ws, i.id ≠ id) :
    acceptances id (ws :: log) = acceptances id log := by
  refine List.filter_cons_of_neg fun accepts => ?_
  obtain ⟨i, hi, same⟩ := List.any_eq_true.mp accepts
  exact other i hi (beq_iff_eq.mp same)

theorem length_acceptances_cons (id : Uuid) (ws : Writes Table) (log : List (Writes Table)) :
    (acceptances id (ws :: log)).length ≤ (acceptances id log).length + 1 := by
  unfold acceptances
  rw [List.filter_cons]
  split
  · exact Nat.le_refl _
  · exact Nat.le_succ _

section Commit

variable {db : State} {ws : Writes Table}

/-- What a transaction accepts was not accepted when it commits. -/
theorem unaccepted_of_acceptedIn (keyed : Table.Keyed .pendingInvitations (db .pendingInvitations))
    (fits : Change.AllFit (Table.id .pendingInvitations) (ws .pendingInvitations)
      (db .pendingInvitations))
    (unused : ∀ change ∈ ws .pendingInvitations, ∀ i ∈ change.olds, i.status ≠ .accepted)
    (uninserted : ∀ i, .ins i ∉ ws .pendingInvitations) {i : PendingInvitation}
    (hi : i ∈ acceptedIn ws) {j : PendingInvitation} (hj : j ∈ db .pendingInvitations)
    (same : j.id = i.id) : j.status ≠ .accepted := by
  obtain ⟨⟨c, hc, new⟩, _⟩ := mem_acceptedIn.mp hi
  have touched : i.id ∈ Change.keys (Table.id .pendingInvitations) (ws .pendingInvitations) :=
    Change.mem_keys.mpr ⟨c, hc, i, List.mem_append_right _ new, rfl⟩
  obtain ⟨r, hr, one, d, hd, old⟩ := Change.exists_old fits touched fun r hr =>
    (uninserted r hr).elim
  have row : r = j := List.inj_on_of_nodup_map keyed hr hj (one.trans same.symm)
  exact row ▸ unused d hd r old

theorem stays_of_unused (unused : ∀ change ∈ ws .pendingInvitations, ∀ i ∈ change.olds,
      i.status ≠ .accepted) {i : PendingInvitation} (hi : i ∈ db .pendingInvitations)
    (status : i.status = .accepted) :
    i ∈ Change.applyAll (ws .pendingInvitations) (db .pendingInvitations) :=
  Change.mem_applyAll_of_notMem_olds hi fun c hc old => unused c hc i old status

end Commit

section Step

variable {p p' : Pool Table Exc Response} {before after : List (Client Table Exc Response)}
  {c c' : Client Table Exc Response}

/-- A step that commits nothing. -/
theorem SingleUse.uncommitted (h : SingleUse p) (here : p.clients = before ++ c :: after)
    (there : p'.clients = before ++ c' :: after) (db : p'.db = p.db) (log : p'.log = p.log)
    (unused : ∀ change ∈ c'.writes .pendingInvitations, ∀ i ∈ change.olds, i.status ≠ .accepted)
    (uninserted : ∀ i, .ins i ∉ c'.writes .pendingInvitations) :
    SingleUse p' ∧ StaysAccepted p p' := by
  have others := h.unused
  have others' := h.uninserted
  rw [here] at others others'
  refine ⟨⟨?_, ?_, ?_, ?_⟩, fun i hi _ => ?_⟩
  · rw [there]
    exact forall_mem_middle.mpr ⟨unused, (forall_mem_middle.mp others).2⟩
  · rw [there]
    exact forall_mem_middle.mpr ⟨uninserted, (forall_mem_middle.mp others').2⟩
  · rw [log]
    exact h.once
  · rw [log, db]
    exact h.spent
  · rw [log, db]
    exact ⟨hi, rfl⟩

/-- A commit accepts what nobody accepted before. -/
theorem SingleUse.commit (h : SingleUse p) (inOrder : p.InOrder)
    (here : p.clients = before ++ c :: after) (there : p'.clients = before ++ c' :: after)
    (db : p'.db = World.view ⟨p.db, c.session⟩) (log : p'.log = c.writes :: p.log)
    (empty : c'.writes = fun _ => []) : SingleUse p' ∧ StaysAccepted p p' := by
  have mem : c ∈ p.clients := here ▸ List.mem_append_right _ List.mem_cons_self
  have fits := (inOrder.clients c mem).fits .pendingInvitations
  have others := h.unused
  have others' := h.uninserted
  rw [here] at others others'
  have stays {i : PendingInvitation} (hi : i ∈ p.db .pendingInvitations)
      (status : i.status = .accepted) : i ∈ p'.db .pendingInvitations := by
    rw [db]
    exact stays_of_unused (h.unused c mem) hi status
  -- what the commit accepts was pending before it: the row was unaccepted when it was read,
  -- and no accept came between
  have new {i : PendingInvitation} (hi : i ∈ acceptedIn c.writes) {j : PendingInvitation}
      (hj : j ∈ p.db .pendingInvitations) (same : j.id = i.id) : j.status ≠ .accepted :=
    unaccepted_of_acceptedIn (inOrder.keyed .pendingInvitations) fits (h.unused c mem)
      (h.uninserted c mem) hi hj same
  refine ⟨⟨?_, ?_, fun id => ?_, ?_⟩, fun i hi status => ⟨stays hi status, ?_⟩⟩
  · rw [there]
    refine forall_mem_middle.mpr ⟨fun change hc => ?_, (forall_mem_middle.mp others).2⟩
    rw [empty] at hc
    cases hc
  · rw [there]
    refine forall_mem_middle.mpr ⟨fun i hi => ?_, (forall_mem_middle.mp others').2⟩
    rw [empty] at hi
    cases hi
  · rw [log]
    -- an invitation that the commit accepts has no acceptance before it
    by_cases accepts : ∃ i ∈ acceptedIn c.writes, i.id = id
    · obtain ⟨i, hi, rfl⟩ := accepts
      have first : acceptances i.id p.log = [] := by
        refine List.eq_nil_iff_forall_not_mem.mpr fun ws hws => ?_
        obtain ⟨logged, j, hj, same⟩ := mem_acceptances.mp hws
        obtain ⟨r, hr, one, status⟩ := h.spent ws logged j hj
        exact new hi hr (one.trans same) status
      have one := length_acceptances_cons i.id c.writes p.log
      rw [first] at one
      exact one
    · rw [acceptances_cons_of_not fun i hi same => accepts ⟨i, hi, same⟩]
      exact h.once id
  · rw [log]
    refine List.forall_mem_cons.mpr ⟨fun i hi => ?_, fun ws hws i hi => ?_⟩
    · obtain ⟨written, status⟩ := mem_acceptedIn.mp hi
      refine ⟨i, ?_, rfl, status⟩
      rw [db]
      exact Change.mem_applyAll_of_news fits written fun d hd old => h.unused c mem d hd i old status
    · obtain ⟨j, hj, same, status⟩ := h.spent ws hws i hi
      exact ⟨j, stays hj status, same, status⟩
  · rw [log]
    exact acceptances_cons_of_not fun j hj same => new hj hi same.symm status

/-- No accept commits what another client has seen and is about to write over. -/
theorem Guarded.spared (may : NotOvertaken p c (before ++ after) .commit)
    {o : Client Table Exc Response} (ho : o ∈ before ++ after) : c.Spares Guarded p.db o := by
  intro s k prog guarded
  cases s with
  | update t q set =>
      cases t with
      | pendingInvitations =>
          rcases guarded with asks | ⟨untouched, resets, seen⟩
          · exact .inl asks
          · refine .inr ⟨untouched, resets, fun i here taken accepted => ?_⟩
            rcases Change.mem_applyAll here with old | new
            · exact seen i old taken accepted
            · have spared := may i (mem_acceptedIn.mpr ⟨new, accepted⟩) o ho
              have taken' : rewrites o i = true := by
                rw [rewrites, prog]
                exact Bool.and_eq_true_iff.mpr ⟨taken, resets i⟩
              rw [taken'] at spared
              cases spared
      | _ => trivial
  | _ => trivial

/-- The rows that a guarded update writes over are not accepted. -/
theorem Guarded.matched {q : PendingInvitation → Bool}
    {set : PendingInvitation → Except StmtError PendingInvitation} {w : World Table}
    (h : Guarded (.update .pendingInvitations q set) w) {found : List Uuid} {i : PendingInvitation}
    (hi : i ∈ World.matched w .pendingInvitations q found) : i.status ≠ .accepted := by
  obtain ⟨here, taken, _⟩ := World.mem_matched.mp hi
  rcases h with asks | ⟨untouched, _, seen⟩
  · exact asks i taken
  · refine seen i ?_ taken
    rw [World.visible_of_unsecured rfl] at here
    have view : w.view .pendingInvitations = w.db .pendingInvitations := by
      show Change.applyAll (w.session.pending .pendingInvitations) (w.db .pendingInvitations) = _
      rw [untouched]
      rfl
    exact view ▸ here

/-- Every step keeps the invariant: an update of an invitation is guarded. -/
theorem SingleUse.step (h : SingleUse p) (step : Pool.Step NotOvertaken p p') (inOrder : p.InOrder)
    (within : ∀ c ∈ p.clients, c.prog.All KeepsInvitations)
    (checked : ∀ c ∈ p.clients, c.Checked Guarded p.db) : SingleUse p' ∧ StaysAccepted p p' := by
  cases step.did fun c hc => (within c hc).mono fun s hs => (hs.keepsPlace s).orderly with
  | @quiet before after c c' here there db log writes =>
      have mem : c ∈ p.clients := here ▸ List.mem_append_right _ List.mem_cons_self
      rcases writes with same | empty
      · refine h.uncommitted here there db log ?_ ?_
        · rw [same]
          exact h.unused c mem
        · rw [same]
          exact h.uninserted c mem
      · refine h.uncommitted here there db log ?_ ?_
        · rw [empty]
          exact fun _ => nofun
        · rw [empty]
          exact fun _ => nofun
  | committed here there prog may _ db log writes => exact h.commit inOrder here there db log writes
  | @wrote before after c c' s k t change here there db log prog may fresh _ written verdict added =>
      have mem : c ∈ p.clients := here ▸ List.mem_append_right _ List.mem_cons_self
      have keeps : KeepsInvitations s := by
        have all := within c mem
        rw [prog] at all
        exact all.1
      by_cases invitations : t = .pendingInvitations
      · subst invitations
        -- an update of invitations is guarded: none of the rows it finds is accepted
        have wrote : (∀ i ∈ change.olds, i.status ≠ .accepted) ∧ ∀ i, change ≠ .ins i := by
          cases s with
          | insert u make =>
              cases written with
              | insert made => exact keeps.elim
          | update u q set =>
              cases written with
              | update valid =>
                  refine ⟨fun i hi => ?_, fun i => nofun⟩
                  obtain ⟨pair, hpair, rfl⟩ := List.mem_map.mp hi
                  obtain ⟨r, hr, rfl⟩ := List.mem_map.mp hpair
                  have knows := checked c mem
                  rw [Client.Checked, prog] at knows
                  exact Guarded.matched knows.1 hr
          | delete u q =>
              cases written with
              | delete => exact keeps.elim
          | _ => cases written
        refine h.uncommitted here there db log ?_ ?_
        · rw [added, Function.update_self]
          intro d hd i hi
          rcases List.mem_append.mp hd with old | new
          · exact h.unused c mem d old i hi
          · cases List.mem_singleton.mp new
            exact wrote.1 i hi
        · rw [added, Function.update_self]
          intro i hi
          rcases List.mem_append.mp hi with old | new
          · exact h.uninserted c mem i old
          · exact wrote.2 i (List.mem_singleton.mp new).symm
      · -- a write to another table leaves the invitations of the transaction alone
        have same : c'.writes .pendingInvitations = c.writes .pendingInvitations := by
          rw [added]
          exact Function.update_of_ne (Ne.symm invitations) _ _
        refine h.uncommitted here there db log ?_ ?_
        · rw [same]
          exact h.unused c mem
        · rw [same]
          exact h.uninserted c mem

end Step

theorem StaysAccepted.trans {p q r : Pool Table Exc Response} (first : StaysAccepted p q)
    (second : StaysAccepted q r) : StaysAccepted p r := by
  intro i hi status
  obtain ⟨here, same⟩ := first i hi status
  obtain ⟨there, same'⟩ := second i here status
  exact ⟨there, same'.trans same⟩

theorem SingleUse.run {p p' : Pool Table Exc Response} (h : SingleUse p)
    (run : Pool.Run NotOvertaken p p') (inOrder : p.InOrder)
    (within : ∀ c ∈ p.clients, c.prog.All KeepsInvitations)
    (checked : ∀ c ∈ p.clients, c.Checked Guarded p.db) :
    SingleUse p' ∧ StaysAccepted p p' ∧ ∀ c ∈ p'.clients, c.Checked Guarded p'.db := by
  induction run with
  | refl => exact ⟨h, fun i hi _ => ⟨hi, rfl⟩, checked⟩
  | tail before step ih =>
      obtain ⟨single, stays, knows⟩ := ih
      obtain ⟨now, later⟩ := single.step step (Pool.Run.inOrder before inOrder)
        (Pool.Run.all before within) knows
      refine ⟨now, stays.trans later, ?_⟩
      exact step.checked (fun _ _ _ _ _ _ may o ho => Guarded.spared may ho) knows

/-! ### One member for an invitation -/

/-- A transaction admits nobody, or one member for an invitation that it accepts. -/
def Admits (ws : Writes Table) : Prop :=
  ws.inserted .householdMembers = [] ∨
    (∃ m, ws.inserted .householdMembers = [m]) ∧ acceptedIn ws ≠ []

def AdmitsOnCommit : Statement → World Table → Prop
  | .commit, w => Admits w.session.pending
  | _, _ => True

theorem admitsOnCommit_read (s : Statement) (w : World Table) (h : IsRead s) :
    AdmitsOnCommit s w := by
  cases s <;> first | exact h.elim | trivial

section Outline

variable {α : Type} {w : World Table}

theorem safe_of_admitsNobody {p : Prog Statement Resp Exc α} (within : p.All AdmitsNobody)
    (start : Writes.inserted w.session.pending .householdMembers = []) :
    p.Safe (fun _ _ => True) AdmitsOnCommit (fun _ _ => True) (fun _ _ => True) w := by
  refine Prog.Safe.mono (Prog.Safe.of_all
    (J := fun v => Writes.inserted v.session.pending .householdMembers = []) within ?_ ?_ start)
    (fun _ _ _ => trivial) fun _ _ _ => trivial
  · intro s v _ none db _
    cases s with
    | commit => exact .inl none
    | _ => trivial
  · intro s v nobody none db found _
    have other : ∀ make, s ≠ .insert .householdMembers make := by
      rintro make rfl
      exact nobody
    have keeps : KeepsPlace s := by
      cases s with
      | insert t make => cases t <;> first | exact nobody.elim | exact nobody
      | _ => exact nobody
    exact inserted_execOn keeps other found (w := ⟨db, v.session⟩) none

/-- The insert of the member. -/
theorem safe_addMember (env : Env) (i : PendingInvitation) (userId : Uuid)
    (start : Writes.inserted w.session.pending .householdMembers = []) :
    (HouseholdRepo.addMember env i userId).prog.Safe (fun _ _ => True) AdmitsOnCommit
      (fun _ v => ∃ m, Writes.inserted v.session.pending .householdMembers = [m])
      (fun _ _ => True) w := by
  unfold HouseholdRepo.addMember
  refine safe_bind (safe_ask (s := .insert .householdMembers _) (fun _ _ => trivial) ?_
    fun _ _ _ _ _ _ => trivial)
  intro db found m v _ answered
  obtain ⟨_, _, _, added, _, _⟩ := World.execOn_insert answered
  refine Prog.Safe.mono (safe_refresh .householdMembers m rfl
    (fun ws => ∃ m, ws.inserted .householdMembers = [m]) admitsOnCommit_read ⟨m, ?_⟩)
    (fun _ _ h => h.2) fun _ _ _ => trivial
  rw [Writes.inserted_self added, start]
  rfl

/-- The update of the invitation. -/
theorem safe_acceptInvitation (env : Env) (id : Uuid)
    (start : ∃ m, Writes.inserted w.session.pending .householdMembers = [m]) :
    (HouseholdRepo.acceptInvitation env id).prog.Safe (fun _ _ => True) AdmitsOnCommit
      (fun _ v => Admits v.session.pending) (fun _ _ => True) w := by
  unfold HouseholdRepo.acceptInvitation
  refine safe_bind (safe_ask (s := .update .pendingInvitations _ _) (fun _ _ => trivial) ?_
    fun _ _ _ _ _ _ => trivial)
  intro db found rows v _ answered
  obtain ⟨_, _, _, returned, added, _, _⟩ := World.execOn_update answered
  cases rows with
  | nil => exact trivial
  | cons n rest =>
      refine .inr ⟨?_, ?_⟩
      · obtain ⟨m, one⟩ := start
        refine ⟨m, ?_⟩
        rw [Writes.inserted_of_ne added (show Table.householdMembers ≠ .pendingInvitations from nofun)]
        exact one
      · have mine : n ∈ (n :: rest : List PendingInvitation) := List.mem_cons_self
        rw [returned] at mine
        obtain ⟨pair, hpair, rfl⟩ := List.mem_map.mp mine
        have written : ∃ c ∈ v.session.pending .pendingInvitations, pair.2 ∈ c.news := by
          rw [added]
          simp only [Session.add, Function.update_self]
          exact ⟨_, List.mem_append_right _ (List.mem_singleton_self _), List.mem_map_of_mem hpair⟩
        obtain ⟨r, _, rfl⟩ := List.mem_map.mp hpair
        exact List.ne_nil_of_mem (mem_acceptedIn.mpr ⟨written, rfl⟩)

/-- The user's new household leaves the rest of the transaction as it is. -/
theorem safe_setActive_admits (userId : Uuid) (selection : Option Uuid)
    (start : Admits w.session.pending) :
    (UserRepo.setActive userId selection).prog.Safe (fun _ _ => True) AdmitsOnCommit
      (fun _ v => Admits v.session.pending) (fun _ _ => True) w := by
  refine safe_bind (safe_ask (s := .update .users _ _) (fun _ _ => trivial) ?_
    fun _ _ _ _ _ _ => trivial)
  intro db found rows v _ answered
  obtain ⟨_, _, _, _, added, _, _⟩ := World.execOn_update answered
  have members : v.session.pending .householdMembers = w.session.pending .householdMembers := by
    rw [added]
    rfl
  have invitations : v.session.pending .pendingInvitations =
      w.session.pending .pendingInvitations := by
    rw [added]
    rfl
  show Admits v.session.pending
  simp only [Admits, Writes.inserted, acceptedIn, members, invitations]
  exact start

theorem safe_acceptInvite (env : Env) (caller : Option Uuid) (token : String)
    (start : Writes.inserted w.session.pending .householdMembers = []) :
    (acceptInvite env caller token).prog.Safe (fun _ _ => True) AdmitsOnCommit (fun _ _ => True)
      (fun _ _ => True) w := by
  have look {β : Type} (p : LookupM β) {v : World Table} {rest : β → AccountM Response}
      (here : Writes.inserted v.session.pending .householdMembers = [])
      (go : ∀ b u, Writes.inserted u.session.pending .householdMembers = [] →
        (rest b).prog.Safe (fun _ _ => True) AdmitsOnCommit (fun _ _ => True) (fun _ _ => True) u) :
      ((p : AccountM β) >>= rest).prog.Safe (fun _ _ => True) AdmitsOnCommit (fun _ _ => True)
        (fun _ _ => True) v :=
    safe_bind (Prog.Safe.mono (safe_lookup p (fun ws => ws.inserted .householdMembers = [])
      admitsOnCommit_read here rfl) go fun _ _ _ => trivial)
  unfold acceptInvite
  refine look _ start fun user v₁ here => look _ here fun i v₂ here => ?_
  refine look _ here fun _ v₃ here => safe_bind (safe_orRaise (fun household _ => ?_) fun _ => trivial)
  refine look _ here fun m v₄ here => ?_
  cases m.isSome with
  | true => exact trivial
  | false =>
      refine look _ here fun members v₅ here => ?_
      by_cases full : HouseholdRepo.memberLimit ≤ members
      · simp only [full]
        trivial
      · simp only [full]
        refine safe_bind (safe_bind (Prog.Safe.mono (safe_addMember env i user.id here) ?_
          fun _ _ _ => trivial))
        intro _ v₆ added
        refine safe_bind (Prog.Safe.mono (safe_acceptInvitation env i.id added) ?_ fun _ _ _ => trivial)
        intro _ v₇ admits
        refine safe_bind (Prog.Safe.mono (safe_setActive_admits user.id _ admits) ?_
          fun _ _ _ => trivial)
        intro _ v₈ admits
        refine safe_bind (safe_ask (s := .commit) (fun _ _ => admits) (fun _ _ _ _ _ _ => trivial)
          fun _ _ _ _ _ _ => trivial)

end Outline

theorem Request.AboutInvitation.safe {r : Request} (h : r.AboutInvitation) (env : Env)
    (archive : List String) {w : World Table} (start : w.session.pending = fun _ => []) :
    (r.program env archive).prog.Safe (fun _ _ => True) AdmitsOnCommit (fun _ _ => True)
      (fun _ _ => True) w := by
  have empty : Writes.inserted w.session.pending .householdMembers = [] := by
    rw [start]
    rfl
  cases r with
  | invitationAccept caller token => exact safe_acceptInvite env caller token empty
  | member caller request =>
      cases request with
      | invitationResend id =>
          exact safe_of_admitsNobody (all_asMember usual_admitsNobody fun m =>
            all_requireAdmin (all_resendInvitation usual_admitsNobody
              (fun p _ h => h.keepsPlace p) env id m)) empty
      | invitationRevoke id =>
          exact safe_of_admitsNobody (all_asMember usual_admitsNobody fun m =>
            all_requireAdmin (all_revokeInvitation usual_admitsNobody
              (fun p _ h => h.keepsPlace p) env id m)) empty
      | _ => exact h.elim
  | _ => exact h.elim

/-! ### Single use -/

namespace Sample

/-! ### An invitation that is sent again -/

/-- Ada sends the first invitation again; one user accepts it with the link that
was sent first, the other with the second. -/
def again : List (Call × Request) :=
  [(call, .member (some ada.id) (.invitationResend (invitation 20).id)),
    ({ call with supply := fun n => id (150 + n) }, .invitationAccept (some (person 20).id) "20"),
    ({ call with supply := fun n => id (160 + n) }, .invitationAccept (some (person 21).id) "token")]

/-- The second link comes too late. -/
def late : List Nat := [2, 2, 2]

end Sample

end EspressoLogs
