import EspressoLogs.Accounts.Active

/-!
Leaving a household: what the removal of a member and the deletion of a household
do to everybody's active household.

Both repair the users concerned by giving each the first of the households left
to them, whatever was selected before. So a selection survives where it was
already that household, and the frame that one would expect holds exactly where
nobody concerned had selected another one (`leaving_frame`).
-/

namespace EspressoLogs

open Lib Py

variable {env : Env} {db : State} {userId h : Uuid} {selection : Option Uuid} {w : World Table}

/-! ### Repairing selections -/

/-- The accounts after the users of a list were given their first household. -/
def repaired (env : Env) : List Uuid → State → State
  | [], db => db
  | userId :: rest, db =>
      repaired env rest (setActiveIn db userId (householdsOf env db userId).head?)

theorem repaired_of_ne {t : Table} (ht : t ≠ .users) (ids : List Uuid) (db : State) :
    repaired env ids db t = db t := by
  induction ids generalizing db with
  | nil => rfl
  | cons userId rest ih => rw [repaired, ih, setActiveIn_of_ne ht]

theorem householdsOf_setActiveIn' {other : Uuid} :
    householdsOf env (setActiveIn db userId selection) other = householdsOf env db other := by
  rw [householdsOf, membershipsOf_congr setActiveIn_householdMembers setActiveIn_households,
    householdsOf]

/-- The repair sets the selection of each user to the first household left. -/
theorem repaired_users (ids : List Uuid) (db : State) : repaired env ids db .users =
    (db .users).map fun u : User => if u.id ∈ ids then
      { u with activeHouseholdId := (householdsOf env db u.id).head? } else u := by
  induction ids generalizing db with
  | nil => simp [repaired]
  | cons userId rest ih =>
      rw [repaired, ih, setActiveIn_users, withActive, List.map_map]
      refine List.map_congr_left fun u _ => ?_
      simp only [Function.comp_apply, householdsOf_setActiveIn', List.mem_cons]
      by_cases here : u.id = userId
      · subst here
        by_cases again : u.id ∈ rest
        · simp [again]
        · simp [again]
      · simp [here]

variable (env) in
/-- The repair goes through, and is pending until the commit. -/
theorem run_repair (ids : List Uuid) (hw : w.Live) :
    ∃ w', (HouseholdRepo.repairActiveHouseholdsForUsers env ids).run w = (.ok (), w') ∧ w'.Live ∧
      w'.db = w.db ∧ w'.view = repaired env ids w.view := by
  induction ids generalizing w with
  | nil => exact ⟨w, rfl, hw, rfl, rfl⟩
  | cons userId rest ih =>
      have listed : CodeM.run (HouseholdRepo.getMembershipsForUser env userId : UserM _) w = _ :=
        run_getMembershipsForUser env userId hw
      obtain ⟨w₁, set, live, db, view⟩ := run_setActive userId
        (householdsOf env w.view userId).head?
        (fun h first => stored_of_belongs (belongs_of_head first)) hw
      obtain ⟨w', rest, live', db', view'⟩ := ih live
      rw [head_householdsOf] at set
      refine ⟨w', ?_, live', db'.trans db, view'.trans (congrArg _ view)⟩
      exact CodeM.run_bind_of (CodeM.run_bind_of listed set) rest

/-! ### Households that are left -/

/-- The accounts without the memberships of a household. -/
def withoutMembersOf (db : State) (h : Uuid) : State :=
  Function.update db .householdMembers
    ((db .householdMembers).filter fun m : HouseholdMember => m.householdId ≠ h)

@[simp] theorem withoutMembersOf_members : withoutMembersOf db h .householdMembers =
    (db .householdMembers).filter fun m : HouseholdMember => m.householdId ≠ h :=
  Function.update_self ..

@[simp] theorem withoutMembersOf_households : withoutMembersOf db h .households = db .households :=
  Function.update_of_ne (show Table.households ≠ .householdMembers from nofun) ..

/-- The first of the user's households other than `h`. -/
def fallbackAfter (env : Env) (db : State) (h userId : Uuid) : Option Uuid :=
  (householdsOf env (withoutMembersOf db h) userId).head?

/-- The user is a member of the household. -/
def IsMemberOf (db : State) (h userId : Uuid) : Prop :=
  ∃ m ∈ db .householdMembers, m.userId = userId ∧ m.householdId = h

/-- Households that have lost members count for a user like those before without
the lost memberships. -/
theorem householdsOf_left {db' : State}
    (members : (db' .householdMembers).filter (fun m : HouseholdMember => m.userId == userId) =
      ((db .householdMembers).filter fun m : HouseholdMember => m.householdId ≠ h).filter
        fun m => m.userId == userId)
    (households : ∀ k, k ≠ h → (db' .households).filter (fun r : Household => r.id == k) =
      (db .households).filter fun r : Household => r.id == k) :
    householdsOf env db' userId = householdsOf env (withoutMembersOf db h) userId := by
  have same : membershipsOf env db' userId = membershipsOf env (withoutMembersOf db h) userId := by
    rw [membershipsOf, membershipsOf, members, withoutMembersOf_members,
      withoutMembersOf_households]
    refine congrArg (fun rows => HouseholdRepo.alphabetic env (List.filterMap _ rows)) ?_
    unfold leftJoined
    refine List.flatMap_congr fun m hm => ?_
    have left := (List.mem_filter.mp (List.mem_filter.mp hm).1).2
    rw [households m.householdId (of_decide_eq_true left)]
  rw [householdsOf, same, householdsOf]

/-- A household that has no members is nobody's. -/
theorem householdsOf_without_ne {k : Uuid}
    (listed : k ∈ householdsOf env (withoutMembersOf db h) userId) : k ≠ h := by
  obtain ⟨m, hm, _, here, _⟩ := mem_householdsOf.mp listed
  rw [withoutMembersOf_members] at hm
  rw [← here]
  exact of_decide_eq_true (List.mem_filter.mp hm).2

/-! ### Removing a member -/

/-- The delete of a membership changes the members only. -/
theorem run_deleteMember (hw : w.Live) {p : HouseholdMember → Bool} :
    ∃ w', (AccountM.delete .householdMembers p).run w =
        (.ok ((w.view .householdMembers).filter p), w') ∧ w'.Live ∧ w'.db = w.db ∧
      w'.view .householdMembers = (w.view .householdMembers).filter (fun m => !p m) ∧
      ∀ t, t ≠ .householdMembers → w'.view t = w.view t := by
  have seen : w.visible .householdMembers = w.view .householdMembers :=
    World.visible_of_unsecured rfl
  have verdict : w.refused Table.householdMembers (.del ((w.view .householdMembers).filter p)) =
      none := w.refused_eq_none.mpr ⟨nofun, nofun, List.nodup_nil, nofun⟩
  refine ⟨w.pend .householdMembers (.del ((w.view .householdMembers).filter p)), ?_,
    hw.pend _ _, rfl, ?_, fun t ht => World.pend_view_of_ne w _ ht⟩
  · refine (run_ask hw (.delete .householdMembers p) _).trans ?_
    simp only [World.perform, seen, World.write, verdict]
    rfl
  · rw [World.pend_view_self]
    exact Change.apply_del_filter p _

/-- What stands in the way of removing a member: being the only admin. -/
def SoleAdmin (db : State) (h userId : Uuid) : Prop :=
  (∃ m ∈ db .householdMembers, HouseholdRepo.isMember h userId m = true ∧ m.role = .admin) ∧
    ((db .householdMembers).filter (HouseholdRepo.isAdmin h)).length ≤ 1

/-- For the one who leaves, losing the membership is as if the household had no members.
-/
theorem filter_left_of_remove (members : List HouseholdMember) :
    (members.filter fun m => !HouseholdRepo.isMember h userId m).filter
        (fun m => m.userId == userId) =
      (members.filter fun m => m.householdId ≠ h).filter fun m => m.userId == userId := by
  rw [List.filter_filter, List.filter_filter]
  refine List.filter_congr fun m _ => ?_
  by_cases mine : m.userId = userId
  · simp [mine, HouseholdRepo.isMember]
    rfl
  · rw [beq_eq_false_iff_ne.mpr mine]
    rfl

/-- Removing a member takes the membership, if there is one and it may go. -/
theorem run_removeMember (hw : w.Live) (sound : Accounts w.view) :
    (SoleAdmin w.view h userId →
      (HouseholdRepo.removeMember h userId).run w =
        (.error (httpError 409 "Cannot remove the sole admin"), w)) ∧
    (¬ SoleAdmin w.view h userId → ∃ w', (HouseholdRepo.removeMember h userId).run w = (.ok (), w') ∧
      w'.Live ∧ w'.db = w.db ∧
      w'.view .householdMembers =
        (w.view .householdMembers).filter (fun m => !HouseholdRepo.isMember h userId m) ∧
      ∀ t, t ≠ .householdMembers → w'.view t = w.view t) := by
  have member : CodeM.run (HouseholdRepo.getMember h userId : AccountM _) w = _ :=
    run_getMember sound.members hw
  unfold HouseholdRepo.removeMember
  rw [CodeM.run_bind_ok member]
  cases found : (w.view .householdMembers).find? (HouseholdRepo.isMember h userId) with
  | none =>
      have absent := List.find?_eq_none.mp found
      constructor
      · rintro ⟨⟨m, hm, here, _⟩, _⟩
        exact absurd here (absent m hm)
      · intro _
        refine ⟨w, rfl, hw, rfl, ?_, fun _ _ => rfl⟩
        refine (List.filter_eq_self.mpr fun m hm => ?_).symm
        simpa using absent m hm
  | some m =>
      have here := List.find?_some found
      have hm := List.mem_of_find?_eq_some found
      have count : CodeM.run (HouseholdRepo.countAdmins h : AccountM Nat) w =
          (.ok ((w.view .householdMembers).filter (HouseholdRepo.isAdmin h)).length, w) :=
        CodeM.run_bind_of (run_lookup hw ..) rfl
      obtain ⟨w', deleted, left⟩ := run_deleteMember hw (p := HouseholdRepo.isMember h userId)
      have gone : CodeM.run (discard (AccountM.delete .householdMembers
          (HouseholdRepo.isMember h userId)) : AccountM Unit) w = (.ok (), w') :=
        CodeM.run_bind_of deleted rfl
      -- the user has one membership here, so the admin in question is that one
      have sole : SoleAdmin w.view h userId ↔ m.role = .admin ∧
          ((w.view .householdMembers).filter (HouseholdRepo.isAdmin h)).length ≤ 1 := by
        constructor
        · rintro ⟨⟨other, ho, also, admin⟩, few⟩
          have same : other = m := by
            refine List.inj_on_of_nodup_map sound.members ho hm ?_
            simp only [HouseholdRepo.isMember, Bool.and_eq_true, beq_iff_eq] at here also
            rw [here.1, here.2, also.1, also.2]
          exact ⟨same ▸ admin, few⟩
        · rintro ⟨admin, few⟩
          exact ⟨⟨m, hm, here, admin⟩, few⟩
      rw [sole]
      by_cases admin : m.role = .admin
      · simp only [admin, if_true, true_and]
        rw [CodeM.run_bind_ok count]
        constructor
        · intro few
          rw [if_pos few]
          rfl
        · intro several
          rw [if_neg several]
          exact ⟨w', gone, left⟩
      · simp only [admin, if_false, false_and, not_false_eq_true, false_implies, true_and, true_implies]
        exact ⟨w', gone, left⟩

/-! ### Deleting a household -/

/-- The database lets the household go: no row that stays references one that goes. -/
def Deletable (w : World Table) (r : Household) : Prop :=
  (w.performDelete (T := Table) .households [r]).1 = .ok [r]

/-- What the users and members are after household `h` is gone. -/
structure Gone (h : Uuid) (db db' : State) : Prop where
  users : db' .users = (db .users).map fun u : User =>
    if u.activeHouseholdId = some h then { u with activeHouseholdId := none } else u
  members : db' .householdMembers =
    (db .householdMembers).filter fun m : HouseholdMember => m.householdId ≠ h
  households : ∀ k, k ≠ h → (db' .households).filter (fun r : Household => r.id == k) =
    (db .households).filter fun r : Household => r.id == k

theorem view_cascade_eq (w : World Table) (gone : List Household) (t : Table) :
    (w.cascade (T := Table) .households gone).view t =
      (Change.upd (w.unlinked (T := Table) .households gone t)).apply
        ((Change.del (w.cascaded (T := Table) .households gone t)).apply (w.view t)) := by
  simp only [World.view, World.cascade, Change.applyAll_append]
  rfl

theorem selects_iff (r : Household) (u : User) :
    (Table.households, r.id) ∈ Schema.parents Table.users u ↔ u.activeHouseholdId = some r.id := by
  have refs : Schema.parents Table.users u =
    (u.activeHouseholdId.map (Table.households, ·)).toList := rfl
  rw [refs, Option.mem_toList, Option.map_eq_some_iff]
  constructor
  · rintro ⟨h, selected, same⟩
    cases same
    exact selected
  · intro selected
    exact ⟨r.id, selected, rfl⟩

theorem cascaded_users (w : World Table) (r : Household) :
    w.cascaded (T := Table) .households [r] .users = [] := by
  refine List.filter_eq_nil_iff.mpr fun u _ goes => ?_
  obtain ⟨g, hg, child⟩ := List.any_eq_true.mp goes
  exact absurd (of_decide_eq_true child).2 Bool.false_ne_true

/-- The users whose selection goes, each with what becomes of it. -/
theorem unlinked_users (w : World Table) (r : Household) :
    w.unlinked (T := Table) .households [r] .users =
      ((w.view .users).filter fun u : User => u.activeHouseholdId == some r.id).map
        fun u => (u, { u with activeHouseholdId := none }) := by
  have each (users : List User) : (users.flatMap fun u =>
      ([r].filter fun g => (Table.households, g.id) ∈ Schema.parents Table.users u).filterMap
        fun g => (Schema.orphaned Table.users u (Table.households, g.id)).map (u, ·)) =
      (users.filter fun u => u.activeHouseholdId == some r.id).map
        fun u => (u, { u with activeHouseholdId := none }) := by
    induction users with
    | nil => rfl
    | cons u rest ih =>
        rw [List.flatMap_cons, ih]
        by_cases selected : u.activeHouseholdId = some r.id
        · have refers := (selects_iff r u).mpr selected
          simp only [List.filter_cons, refers, decide_true, if_true, List.filter_nil, selected,
            beq_self_eq_true, List.map_cons]
          rfl
        · have refers := mt (selects_iff r u).mp selected
          simp only [List.filter_cons, refers, decide_false, List.filter_nil,
            beq_eq_false_iff_ne.mpr selected]
          rfl
  exact each (w.view .users)

/-- A household takes its memberships with it. -/
theorem cascaded_members (w : World Table) (r : Household) :
    w.cascaded (T := Table) .households [r] .householdMembers =
      (w.view .householdMembers).filter fun m : HouseholdMember => m.householdId == r.id := by
  have refs (m : HouseholdMember) :
      (Table.households, r.id) ∈ Schema.parents Table.householdMembers m ↔ m.householdId = r.id := by
    have all : Schema.parents Table.householdMembers m = (Table.households, m.householdId) ::
      (Table.users, m.userId) :: (m.invitedBy.map (Table.users, ·)).toList := rfl
    simp [all, eq_comm]
  refine List.filter_congr fun m _ => ?_
  rw [Bool.eq_iff_iff, List.any_eq_true, beq_iff_eq]
  constructor
  · rintro ⟨g, hg, child⟩
    rw [List.mem_singleton.mp hg] at child
    exact (refs m).mp (of_decide_eq_true child).1
  · intro here
    exact ⟨r, List.mem_singleton_self r, decide_eq_true ⟨(refs m).mpr here, rfl⟩⟩

theorem unlinked_members (w : World Table) (r : Household) :
    w.unlinked (T := Table) .households [r] .householdMembers = [] := by
  refine List.flatMap_eq_nil_iff.mpr fun m _ => List.filterMap_eq_nil_iff.mpr fun g _ => ?_
  rfl

/-- No household references another one. -/
theorem not_household_parent (k : Uuid) (r : Household) :
    (Table.households, k) ∉ Schema.parents Table.households r := by
  have refs : Schema.parents Table.households r = [(Table.users, r.createdBy)] := rfl
  simp [refs]

theorem cascaded_households_self (w : World Table) (r : Household) :
    w.cascaded (T := Table) .households [r] .households = [] := by
  refine List.filter_eq_nil_iff.mpr fun r' _ goes => ?_
  obtain ⟨g, _, child⟩ := List.any_eq_true.mp goes
  exact not_household_parent g.id r' (of_decide_eq_true child).1

theorem unlinked_households (w : World Table) (r : Household) :
    w.unlinked (T := Table) .households [r] .households = [] := by
  refine List.flatMap_eq_nil_iff.mpr fun r' _ => ?_
  have none : [r].filter (fun g => (Table.households, Schema.key Table.households g) ∈
      Schema.parents Table.households r') = [] :=
    List.filter_eq_nil_iff.mpr fun g _ refers =>
      not_household_parent _ r' (of_decide_eq_true refers)
  rw [none]
  rfl

/-- The world when a household and what belongs to it are gone, and what that was. -/
def afterDelete (w : World Table) (r : Household) : World Table :=
  (w.pend (T := Table) .households (.del [r])).cascade .households [r]

/-- The references that go with the household. -/
def removedBy (w : World Table) (r : Household) : List (Table × Uuid) :=
  (w.pend (T := Table) .households (.del [r])).removedRefs .households [r]

/-- Who had selected the household has no selection any more. -/
theorem afterDelete_users (w : World Table) (r : Household) :
    (afterDelete w r).view .users = (w.view .users).map fun u : User =>
      if u.activeHouseholdId = some r.id then { u with activeHouseholdId := none } else u := by
  have users : (w.pend (T := Table) .households (.del [r])).view .users = w.view .users :=
    World.pend_view_of_ne w _ (by decide)
  rw [afterDelete, view_cascade_eq, unlinked_users, cascaded_users, users]
  have kept : (Change.del []).apply (w.view .users) = w.view .users :=
    List.filter_eq_self.mpr fun u _ => rfl
  rw [kept]
  refine (Change.apply_upd_filter _ _ _).trans (List.map_congr_left fun u _ => ?_)
  simp only [beq_iff_eq]

/-- What a delete of the household leaves. -/
theorem gone_of_performDelete {r : Household} {w' : World Table}
    (deleted : w.performDelete (T := Table) .households [r] = (.ok [r], w')) :
    Gone r.id w.view w'.view ∧ w'.db = w.db ∧ w'.session.failed = w.session.failed ∧
      w'.session.faults = w.session.faults := by
  unfold World.performDelete at deleted
  simp only at deleted
  split at deleted
  · cases deleted
  · cases deleted
    set removed := w.pend (T := Table) .households (.del [r])
    have members : removed.view .householdMembers = w.view .householdMembers :=
      World.pend_view_of_ne w _ (by decide)
    refine ⟨⟨?_, ?_, ?_⟩, rfl, rfl, rfl⟩
    · exact afterDelete_users w r
    · rw [view_cascade_eq, unlinked_members, cascaded_members, members]
      refine (Change.apply_upd_nil _).trans ((Change.apply_del_filter _ _).trans ?_)
      refine List.filter_congr fun m _ => ?_
      rw [Bool.eq_iff_iff]
      simp
    · intro k hk
      rw [view_cascade_eq, unlinked_households, cascaded_households_self, World.pend_view_self]
      have kept : (Change.upd []).apply ((Change.del []).apply
          ((Change.del [r]).apply (w.view .households))) =
            (w.view .households).filter fun r' : Household => r' ∉ [r] :=
        (Change.apply_upd_nil _).trans (List.filter_eq_self.mpr fun _ _ => rfl)
      refine (congrArg (List.filter fun r' : Household => r'.id == k) kept).trans ?_
      rw [List.filter_filter]
      refine List.filter_congr fun r' _ => ?_
      by_cases here : r'.id = k
      · have other : r' ≠ r := by
          rintro rfl
          exact hk here.symm
        simp [here, other]
      · simp [here]

/-- A household can be deleted if and only if no row refers to what goes with it. -/
theorem deletable_iff {r : Household} : Deletable w r ↔ ∀ t : Table, ∀ row ∈ (afterDelete w r).view t,
    ∀ ref ∈ t.parents row, ref ∈ removedBy w r → (afterDelete w r).stored ref = true := by
  have verdict : Deletable w r ↔ (afterDelete w r).dangling (removedBy w r) = false := by
    unfold Deletable World.performDelete
    simp only
    show (if (afterDelete w r).dangling (removedBy w r) = true then _ else _ : Except _ _ × _).1 =
      _ ↔ _
    cases (afterDelete w r).dangling (removedBy w r) with
    | true => exact ⟨nofun, nofun⟩
    | false => exact ⟨fun _ => rfl, fun _ => rfl⟩
  rw [verdict, World.dangling, List.any_eq_false]
  constructor
  · intro intact t row hrow ref href gone
    by_contra missing
    refine intact t (by cases t <;> decide) (List.any_eq_true.mpr ⟨row, hrow, ?_⟩)
    refine List.any_eq_true.mpr ⟨ref, href, ?_⟩
    rw [decide_eq_true gone, Bool.eq_false_iff.mpr missing]
    rfl
  · intro intact t _ dangles
    obtain ⟨row, hrow, dangles⟩ := List.any_eq_true.mp dangles
    obtain ⟨ref, href, dangles⟩ := List.any_eq_true.mp dangles
    obtain ⟨gone, missing⟩ := Bool.and_eq_true_iff.mp dangles
    rw [intact t row hrow ref href (of_decide_eq_true gone)] at missing
    cases missing

/-- No user goes with a household, and no other household. -/
theorem of_mem_removedBy {r : Household} {ref : Table × Uuid} (gone : ref ∈ removedBy w r) :
    ref.1 ≠ .users ∧ (ref.1 = .households → ref.2 = r.id) := by
  rcases List.mem_append.mp gone with self | owned
  · obtain ⟨g, hg, rfl⟩ := List.mem_map.mp self
    rw [List.mem_singleton.mp hg]
    exact ⟨nofun, fun _ => rfl⟩
  · obtain ⟨t, _, owned⟩ := List.mem_flatMap.mp owned
    obtain ⟨row, hrow, rfl⟩ := List.mem_map.mp owned
    constructor
    · rintro rfl
      rw [cascaded_users] at hrow
      cases hrow
    · rintro rfl
      rw [cascaded_households_self] at hrow
      cases hrow

/-- Which households the users selected has no bearing on whether one may go. -/
theorem Deletable.congr {w' : World Table} {r : Household}
    (same : ∀ t, t ≠ .users → w'.view t = w.view t) (goes : Deletable w r) : Deletable w' r := by
  have removed (t : Table) (ht : t ≠ .users) :
      (w'.pend (T := Table) .households (.del [r])).view t =
        (w.pend (T := Table) .households (.del [r])).view t := by
    by_cases here : t = .households
    · subst here
      rw [World.pend_view_self, World.pend_view_self, same _ ht]
    · rw [World.pend_view_of_ne w' _ here, World.pend_view_of_ne w _ here, same _ ht]
  have cascaded (t : Table) : (w'.pend (T := Table) .households (.del [r])).cascaded .households [r] t =
      (w.pend (T := Table) .households (.del [r])).cascaded .households [r] t := by
    by_cases ht : t = .users
    · subst ht
      rw [cascaded_users, cascaded_users]
    · rw [World.cascaded, removed t ht]
      rfl
  have refs : removedBy w' r = removedBy w r := by
    unfold removedBy World.removedRefs
    simp only [cascaded]
  have after (t : Table) (ht : t ≠ .users) :
      (afterDelete w' r).view t = (afterDelete w r).view t := by
    unfold afterDelete
    rw [view_cascade_eq, view_cascade_eq, cascaded, World.unlinked, World.unlinked, removed t ht]
  rw [deletable_iff] at goes ⊢
  intro t row hrow ref href gone
  rw [refs] at gone
  obtain ⟨notUsers, own⟩ := of_mem_removedBy gone
  by_cases ht : t = .users
  · subst ht
    rw [afterDelete_users] at hrow
    obtain ⟨u, _, rfl⟩ := List.mem_map.mp hrow
    -- what a user references is a household, and it is not the one that goes
    obtain ⟨k, selected, rfl⟩ := Option.map_eq_some_iff.mp (Option.mem_toList.mp href)
    have mine : k = r.id := own rfl
    rw [mine] at selected
    by_cases was : u.activeHouseholdId = some r.id
    · rw [if_pos was] at selected
      cases selected
    · rw [if_neg was] at selected
      exact absurd selected was
  · rw [after t ht] at hrow
    have there := goes t row hrow ref href gone
    rw [World.stored, after ref.1 notUsers]
    exact there

/-- What stands in the way of deleting a household: it is not there by that name,
or the database does not let it go. -/
def MayDelete (w : World Table) (h : Uuid) (confirmName : String) : Prop :=
  ∃ r ∈ w.view .households, HouseholdRepo.isLive h r = true ∧ r.name = confirmName ∧ Deletable w r

/-- There is one household under the id. -/
theorem find_live {r : Household} (keyed : Table.households.Keyed (db .households))
    (hr : r ∈ db .households) (live : HouseholdRepo.isLive h r = true) :
    (db .households).find? (HouseholdRepo.isLive h) = some r := by
  cases found : (db .households).find? (HouseholdRepo.isLive h) with
  | none => exact absurd live (List.find?_eq_none.mp found r hr)
  | some r' =>
      have live' := List.find?_some found
      have same : r'.id = r.id :=
        (HouseholdRepo.id_of_isLive live').trans (HouseholdRepo.id_of_isLive live).symm
      rw [List.inj_on_of_nodup_map keyed (List.mem_of_find?_eq_some found) hr same]

/-- The ids of the members of a household. -/
def memberIds (db : State) (h : Uuid) : List Uuid :=
  ((db .householdMembers).filter (HouseholdRepo.ofHousehold h)).map fun m => m.userId

variable (env) in
/-- The removal goes through if and only if the household can be deleted. -/
theorem run_hardDelete {r : Household} (hw : w.Live)
    (keyed : Table.households.Keyed (w.view .households))
    (hr : r ∈ w.view .households) (live : HouseholdRepo.isLive h r = true) :
    (Deletable w r → ∃ w' left, (HouseholdRepo.hardDelete env h).run w = (.ok (), w') ∧ w'.Live ∧
      w'.db = w.db ∧ Gone h w.view left ∧ w'.view = repaired env (memberIds w.view h) left) ∧
    (¬ Deletable w r → ∃ e w', (HouseholdRepo.hardDelete env h).run w = (.error e, w') ∧
      w'.db = w.db) := by
  have members : CodeM.run (HouseholdRepo.getMembers h : DissolveM h _) w =
    (.ok ((w.view .householdMembers).filter (HouseholdRepo.ofHousehold h)), w) :=
    run_lookup hw .householdMembers (HouseholdRepo.ofHousehold h) rfl
  have found : (w.visible .households).filter (HouseholdRepo.isLive h) = [r] := by
    rw [World.visible_of_unsecured rfl, filter_eq_find (k := h) (fun _ => HouseholdRepo.id_of_isLive)
      keyed, find_live keyed hr live]
    rfl
  have asked := run_ask (P := Dissolves h) hw
    (.deleteCascade .households (HouseholdRepo.isLive h))
    (.inr ⟨_, fun _ => HouseholdRepo.id_of_isLive, rfl⟩)
  rw [World.perform, found] at asked
  unfold HouseholdRepo.hardDelete
  rw [CodeM.run_bind_ok members]
  -- the database refuses the delete if something would be left that refers to the household
  have verdict : (∃ w', w.performDelete (T := Table) .households [r] = (.ok [r], w')) ∨
      ∃ e w', w.performDelete (T := Table) .households [r] = (.error e, w') ∧ w'.db = w.db := by
    unfold World.performDelete
    simp only
    split
    · exact .inr ⟨_, _, rfl, rfl⟩
    · exact .inl ⟨_, rfl⟩
  rcases verdict with ⟨w₁, deleted⟩ | ⟨e, w₁, refused, same⟩
  · rw [deleted] at asked
    have went : CodeM.run (deleteHouseholds (HouseholdRepo.isLive h) fun _ =>
      HouseholdRepo.id_of_isLive : DissolveM h _) w = (.ok [r], w₁) := asked
    obtain ⟨gone, db₁, failed, faults⟩ := gone_of_performDelete deleted
    rw [HouseholdRepo.id_of_isLive live] at gone
    constructor
    · intro _
      obtain ⟨w', repaired, live', db', view'⟩ := run_repair env (memberIds w.view h)
        (w := w₁) ⟨failed.trans hw.failed, faults.trans hw.faults⟩
      refine ⟨w', w₁.view, ?_, live', db'.trans db₁, gone, view'⟩
      rw [CodeM.run_bind_ok went]
      exact repaired
    · intro kept
      exact absurd (congrArg Prod.fst deleted) kept
  · rw [refused] at asked
    have stopped : CodeM.run (deleteHouseholds (HouseholdRepo.isLive h) fun _ =>
      HouseholdRepo.id_of_isLive : DissolveM h _) w = (.error (.db e), w₁) := asked
    constructor
    · intro goes
      cases (congrArg Prod.fst refused).symm.trans goes
    · intro _
      exact ⟨_, w₁, CodeM.run_bind_error stopped, same⟩

/-! ### The frame -/

/-- The calls that make users leave the household of the caller. -/
inductive Leaving where
  | remove (userId : Uuid)
  | delete (householdId : Uuid) (confirmName : String)

/-- The request of the API. -/
def Leaving.request : Leaving → MemberRequest
  | remove userId => .memberRemove userId
  | delete householdId confirmName => .householdDelete householdId confirmName

/-- The accounts after the call, made with a membership. -/
def Leaving.serve (leaving : Leaving) (c : Call) (m : HouseholdMember) (db : State) : State :=
  (CodeM.run (leaving.request.endpoint c.env c.archive m) (c.start db)).2.db

/-- Nothing stands in the way of the call. -/
def Leaving.GoesThrough (m : HouseholdMember) (w : World Table) : Leaving → Prop
  | remove userId => m.role = .admin ∧ m.userId ≠ userId ∧
      ¬ SoleAdmin w.view m.householdId userId
  | delete householdId confirmName => m.role = .admin ∧ m.householdId = householdId ∧
      MayDelete w m.householdId confirmName

/-- The users whose selection the call may write. -/
def Leaving.Concerns (db : State) (h : Uuid) (u : User) : Leaving → Prop
  | remove userId => u.id = userId
  | delete _ _ => IsMemberOf db h u.id ∨ u.activeHouseholdId = some h

/-- What one expects of leaving household `h`: only a member who had it selected
selects another household, one that there is, or none; and other households keep
their members. -/
structure Framed (h : Uuid) (db db' : State) : Prop where
  users : List.Forall₂ (fun u u' : User =>
      u' = { u with activeHouseholdId := u'.activeHouseholdId } ∧
        (u'.activeHouseholdId = u.activeHouseholdId ∨
          u.activeHouseholdId = some h ∧ IsMemberOf db h u.id ∧
            ∀ k, u'.activeHouseholdId = some k → BelongsTo db' u.id k))
    (db .users) (db' .users)
  members : (db' .householdMembers).filter (fun m : HouseholdMember => m.householdId ≠ h) =
    (db .householdMembers).filter fun m : HouseholdMember => m.householdId ≠ h

theorem Framed.refl (h : Uuid) (db : State) : Framed h db db where
  users := List.forall₂_same.mpr fun _ _ => ⟨rfl, .inl rfl⟩
  members := rfl

theorem mem_memberIds : userId ∈ memberIds db h ↔ IsMemberOf db h userId := by
  rw [memberIds, List.mem_map]
  constructor
  · rintro ⟨m, hm, mine⟩
    obtain ⟨hm, here⟩ := List.mem_filter.mp hm
    exact ⟨m, hm, mine, beq_iff_eq.mp here⟩
  · rintro ⟨m, hm, mine, here⟩
    exact ⟨m, List.mem_filter.mpr ⟨hm, beq_iff_eq.mpr here⟩, mine⟩

/-- What the call makes of a user's selection. -/
def Leaving.nextSelection (env : Env) (db : State) (h : Uuid) (u : User) : Leaving → Option Uuid
  | remove userId => if u.id = userId then fallbackAfter env db h u.id else u.activeHouseholdId
  | delete _ _ =>
      if u.id ∈ memberIds db h then fallbackAfter env db h u.id
      else if u.activeHouseholdId = some h then none else u.activeHouseholdId

/-- What a call that goes through leaves. -/
structure Leaving.Leaves (leaving : Leaving) (env : Env) (h : Uuid) (db db' : State) : Prop where
  users : db' .users = (db .users).map fun u : User =>
    { u with activeHouseholdId := leaving.nextSelection env db h u }
  members : (db' .householdMembers).filter (fun m : HouseholdMember => m.householdId ≠ h) =
    (db .householdMembers).filter fun m : HouseholdMember => m.householdId ≠ h
  belongs : ∀ u : User, leaving.Concerns db h u → ∀ k, fallbackAfter env db h u.id = some k →
    BelongsTo db' u.id k

/-- The fallback is another household than the one left. -/
theorem fallbackAfter_ne (env : Env) (db : State) (h userId : Uuid) :
    fallbackAfter env db h userId ≠ some h := by
  intro first
  exact householdsOf_without_ne (List.mem_of_mem_head? first) rfl

/-- Where a call leaves all this, it keeps the frame just where every user it
concerns had selected the fallback already, or left the selected household. -/
theorem Leaving.Leaves.framed_iff {leaving : Leaving} {db' : State}
    (left : leaving.Leaves env h db db') : Framed h db db' ↔
      ∀ u ∈ db .users, leaving.Concerns db h u →
        u.activeHouseholdId = fallbackAfter env db h u.id ∨
          u.activeHouseholdId = some h ∧ IsMemberOf db h u.id := by
  -- user by user: the selection is kept, or it was this household and the new one is good
  have each (u : User) : (leaving.nextSelection env db h u = u.activeHouseholdId ∨
      u.activeHouseholdId = some h ∧ IsMemberOf db h u.id ∧
        ∀ k, leaving.nextSelection env db h u = some k → BelongsTo db' u.id k) ↔
      (leaving.Concerns db h u → u.activeHouseholdId = fallbackAfter env db h u.id ∨
        u.activeHouseholdId = some h ∧ IsMemberOf db h u.id) := by
    have belongs := left.belongs u
    cases leaving with
    | remove userId =>
        by_cases concerned : u.id = userId
        · simp only [nextSelection, Concerns, concerned, if_true, true_implies] at belongs ⊢
          constructor
          · rintro (same | ⟨selected, member, _⟩)
            · exact .inl same.symm
            · exact .inr ⟨selected, member⟩
          · rintro (same | ⟨selected, member⟩)
            · exact .inl same.symm
            · exact .inr ⟨selected, member, belongs⟩
        · simp [nextSelection, Concerns, concerned]
    | delete householdId confirmName =>
        by_cases member : IsMemberOf db h u.id
        · simp only [nextSelection, Concerns, mem_memberIds, member, if_true, true_or, true_implies] at belongs ⊢
          constructor
          · rintro (same | ⟨selected, _⟩)
            · exact .inl same.symm
            · exact .inr ⟨selected, trivial⟩
          · rintro (same | ⟨selected, _⟩)
            · exact .inl same.symm
            · exact .inr ⟨selected, trivial, belongs⟩
        · by_cases selected : u.activeHouseholdId = some h
          · simp [nextSelection, Concerns, mem_memberIds, member, selected, (fallbackAfter_ne env db h u.id).symm]
          · simp [nextSelection, Concerns, mem_memberIds, member, selected]
  constructor
  · intro framed u hu
    have users := framed.users
    rw [left.users, List.forall₂_map_right_iff, List.forall₂_same] at users
    exact (each u).mp (users u hu).2
  · intro kept
    refine ⟨?_, left.members⟩
    rw [left.users, List.forall₂_map_right_iff, List.forall₂_same]
    intro u hu
    exact ⟨rfl, (each u).mpr (kept u hu)⟩

/-! ### Runs of the calls -/

theorem belongsTo_congr {db' : State} {k : Uuid}
    (members : db' .householdMembers = db .householdMembers)
    (households : db' .households = db .households) :
    BelongsTo db' userId k ↔ BelongsTo db userId k := by
  rw [BelongsTo, members, households, BelongsTo]

/-- Everybody's first household is one that they belong to after the repair. -/
theorem belongs_of_fallback {left : State} {ids : List Uuid} {k : Uuid}
    (same : householdsOf env left userId = householdsOf env (withoutMembersOf db h) userId)
    (first : fallbackAfter env db h userId = some k) :
    BelongsTo (repaired env ids left) userId k := by
  rw [belongsTo_congr (repaired_of_ne (by decide) ids left) (repaired_of_ne (by decide) ids left)]
  have listed : k ∈ householdsOf env left userId := by
    rw [same]
    exact List.mem_of_mem_head? first
  exact mem_householdsOf.mp listed

/-- A member who is removed leaves: the selection moves only where it was this
household. -/
theorem leaves_of_removed {left : State}
    (members : left .householdMembers =
      (db .householdMembers).filter fun m => !HouseholdRepo.isMember h userId m)
    (others : ∀ t, t ≠ .householdMembers → left t = db t) :
    (Leaving.remove userId).Leaves env h db (repaired env [userId] left) := by
  have same : householdsOf env left userId = householdsOf env (withoutMembersOf db h) userId := by
    refine householdsOf_left ?_ fun k _ => ?_
    · rw [members]
      exact filter_left_of_remove _
    · rw [others .households (by decide)]
  refine ⟨?_, ?_, fun u concerned k first => ?_⟩
  · rw [repaired_users, others .users (by decide)]
    refine List.map_congr_left fun u _ => ?_
    by_cases concerned : u.id = userId
    · subst concerned
      simp [Leaving.nextSelection, fallbackAfter, same]
    · simp [Leaving.nextSelection, concerned]
  · rw [repaired_of_ne (by decide), members, List.filter_filter]
    refine List.filter_congr fun m _ => ?_
    by_cases here : m.householdId = h
    · simp [here]
    · simp [here, HouseholdRepo.isMember]
  · cases concerned
    exact belongs_of_fallback same first

/-- With a household, all of its members leave it. -/
theorem leaves_of_gone {left : State} {householdId : Uuid} {confirmName : String}
    (gone : Gone h db left) :
    (Leaving.delete householdId confirmName).Leaves env h db
      (repaired env (memberIds db h) left) := by
  have same (userId : Uuid) :
      householdsOf env left userId = householdsOf env (withoutMembersOf db h) userId :=
    householdsOf_left (by rw [gone.members]) gone.households
  refine ⟨?_, ?_, fun u _ k first => belongs_of_fallback (same u.id) first⟩
  · rw [repaired_users, gone.users, List.map_map]
    refine List.map_congr_left fun u _ => ?_
    by_cases member : u.id ∈ memberIds db h
    · by_cases selected : u.activeHouseholdId = some h
      · simp [Leaving.nextSelection, fallbackAfter, same, member, selected]
      · simp [Leaving.nextSelection, fallbackAfter, same, member, selected]
    · by_cases selected : u.activeHouseholdId = some h
      · simp [Leaving.nextSelection, member, selected]
      · simp [Leaving.nextSelection, member, selected]
  · rw [repaired_of_ne (by decide), gone.members, List.filter_filter]
    exact List.filter_congr fun m _ => Bool.and_self _

variable (env) in
/-- A removal that is refused changes nothing. -/
theorem run_remove_refused {m : HouseholdMember} (live : w.Live) (sound : Accounts w.view)
    (refused : ¬ (Leaving.remove userId).GoesThrough m w) :
    ∃ e, CodeM.run (requireAdmin m (removeMember env userId m : AccountM Response)) w =
      (.error e, w) := by
  by_cases admin : m.role = .admin
  · rw [requireAdmin_of_admin admin]
    by_cases self : m.userId = userId
    · refine ⟨httpError 403 "You cannot remove yourself from the household.", ?_⟩
      unfold removeMember
      rw [if_pos self]
      rfl
    · have sole : SoleAdmin w.view m.householdId userId := by
        by_contra several
        exact refused ⟨admin, self, several⟩
      have stopped := (run_removeMember live sound).1 sole
      refine ⟨httpError 409 "Cannot remove the sole admin", ?_⟩
      unfold removeMember
      rw [if_neg self]
      exact CodeM.run_bind_error stopped
  · rw [requireAdmin_of_member admin]
    exact ⟨_, rfl⟩

/-- A removal that goes through. -/
theorem run_remove {m : HouseholdMember} (live : w.Live) (sound : Accounts w.view)
    (through : (Leaving.remove userId).GoesThrough m w) :
    (Leaving.remove userId).Leaves env m.householdId w.view
      (CodeM.run (requireAdmin m (removeMember env userId m : AccountM Response)) w).2.db := by
  obtain ⟨admin, self, several⟩ := through
  obtain ⟨w₁, removed, live₁, _, members, others⟩ := (run_removeMember live sound).2 several
  obtain ⟨w₂, mended, live₂, _, view⟩ := run_repair env [userId] live₁
  have returned : CodeM.run (removeMember env userId m) w = (.ok ⟨204, .empty⟩, w₂.committed) := by
    unfold removeMember
    rw [if_neg self]
    exact CodeM.run_bind_of removed
      (CodeM.run_bind_of mended (CodeM.run_bind_of (run_commit live₂) rfl))
  have served : CodeM.run (requireAdmin m (removeMember env userId m : AccountM Response)) w =
      (.ok ⟨204, .empty⟩, w₂.committed) := by
    rw [requireAdmin_of_admin admin]
    exact returned
  rw [served, World.committed_db, view]
  exact leaves_of_removed members others

/-- The deletion comes down to what is behind its checks. -/
theorem run_deleteHousehold {m : HouseholdMember} {householdId : Uuid} {confirmName : String}
    (live : w.Live) (keyed : Table.households.Keyed (w.view .households)) :
    CodeM.run (deleteHousehold env householdId confirmName m) w =
      if m.householdId = householdId then
        match (w.view .households).find? (HouseholdRepo.isLive householdId) with
        | none => (.error HouseholdRepo.householdNotFound, w)
        | some r =>
            if confirmName = r.name then
              CodeM.run (do
                HouseholdRepo.hardDelete env m.householdId
                (AccountM.commit : DissolveM m.householdId Unit)
                return (⟨204, .empty⟩ : Response)) w
            else (.error (httpError 409 "Household name confirmation does not match"), w)
      else (.error notAdminHere, w) := by
  have household : CodeM.run (HouseholdRepo.getById householdId : DissolveM m.householdId _) w = _ :=
    run_getById keyed live
  unfold deleteHousehold checkHere
  by_cases here : m.householdId = householdId
  · rw [if_neg (not_not.mpr here), if_pos here]
    refine CodeM.run_bind_still () rfl ?_
    refine CodeM.run_bind_of household ?_
    cases found : (w.view .households).find? (HouseholdRepo.isLive householdId) with
    | none => rfl
    | some r =>
        refine CodeM.run_bind_still r rfl ?_
        by_cases named : confirmName = r.name
        · simp only [named, ne_eq, not_true_eq_false, if_false, if_true]
        · simp only [named, ne_eq, not_false_eq_true, if_true, if_false]
          rfl
  · rw [if_pos here, if_neg here]
    rfl

section Delete

variable {m : HouseholdMember} {householdId : Uuid} {confirmName : String}

/-- A deletion that is refused changes nothing. -/
theorem run_delete_refused (live : w.Live) (sound : Accounts w.view)
    (refused : ¬ (Leaving.delete householdId confirmName).GoesThrough m w) :
    (CodeM.run (requireAdmin m
      (deleteHousehold env householdId confirmName m : DissolveM _ Response)) w).2.db = w.db := by
  by_cases admin : m.role = .admin
  · rw [requireAdmin_of_admin admin]
    show (CodeM.run (deleteHousehold env householdId confirmName m) w).2.db = w.db
    rw [run_deleteHousehold live sound.households]
    by_cases here : m.householdId = householdId
    · subst here
      rw [if_pos rfl]
      cases found : (w.view .households).find? (HouseholdRepo.isLive m.householdId) with
      | none => rfl
      | some r =>
          have hr := List.mem_of_find?_eq_some found
          have there := List.find?_some found
          by_cases named : confirmName = r.name
          · simp only [named, if_true]
            have kept : ¬ Deletable w r := by
              intro goes
              exact refused ⟨admin, rfl, r, hr, there, named.symm, goes⟩
            obtain ⟨e, w', stopped, same⟩ := (run_hardDelete env live sound.households hr there).2 kept
            rw [CodeM.run_bind_error stopped]
            exact same
          · simp only [named, if_false]
    · rw [if_neg here]
  · rw [requireAdmin_of_member admin]
    rfl

/-- A deletion that goes through. -/
theorem run_delete (live : w.Live) (sound : Accounts w.view)
    (through : (Leaving.delete householdId confirmName).GoesThrough m w) :
    (Leaving.delete householdId confirmName).Leaves env m.householdId w.view
      (CodeM.run (requireAdmin m
        (deleteHousehold env householdId confirmName m : DissolveM _ Response)) w).2.db := by
  obtain ⟨admin, here, r, hr, there, named, goes⟩ := through
  subst here
  obtain ⟨w₁, left, deleted, live₁, _, gone, view⟩ :=
    (run_hardDelete env live sound.households hr there).1 goes
  rw [requireAdmin_of_admin admin]
  show (Leaving.delete m.householdId confirmName).Leaves env m.householdId w.view
    (CodeM.run (deleteHousehold env m.householdId confirmName m) w).2.db
  have ended : CodeM.run (do
      HouseholdRepo.hardDelete env m.householdId
      (AccountM.commit : DissolveM m.householdId Unit)
      return (⟨204, .empty⟩ : Response)) w = (.ok ⟨204, .empty⟩, w₁.committed) :=
    CodeM.run_bind_of deleted (CodeM.run_bind_of (run_commit live₁) rfl)
  rw [run_deleteHousehold live sound.households, if_pos rfl, find_live sound.households hr there]
  simp only [named, if_true]
  rw [ended, World.committed_db, view]
  exact leaves_of_gone gone

end Delete

/-- Leaving a household keeps the frame just where nothing comes of the call, or every
user it concerns had selected the fallback already or was a member who had this
household selected. Everybody else whom it concerns is moved: the repair writes the
first of the other households, also over a selection that is still good. The call
concerns the target of a removal, and the members of a deleted household with those who
have it selected. -/
theorem leaving_frame (c : Call) (noFaults : c.faults = []) (m : HouseholdMember) (db : State)
    (sound : Accounts db) (leaving : Leaving) :
    Framed m.householdId db (leaving.serve c m db) ↔
      (leaving.GoesThrough m (c.start db) → ∀ u ∈ db .users, leaving.Concerns db m.householdId u →
        u.activeHouseholdId = fallbackAfter c.env db m.householdId u.id ∨
          u.activeHouseholdId = some m.householdId ∧ IsMemberOf db m.householdId u.id) := by
  have live : (c.start db).Live := ⟨rfl, noFaults⟩
  -- a call that goes through leaves what it says; any other changes nothing
  by_cases through : leaving.GoesThrough m (c.start db)
  · have left : leaving.Leaves c.env m.householdId db (leaving.serve c m db) := by
      cases leaving with
      | remove userId => exact run_remove live sound through
      | delete householdId confirmName => exact run_delete live sound through
    rw [left.framed_iff]
    simp only [through, true_implies]
  · have same : leaving.serve c m db = db := by
      cases leaving with
      | remove userId =>
          obtain ⟨e, refused⟩ := run_remove_refused c.env live sound through
          exact congrArg (fun x => x.2.db) refused
      | delete householdId confirmName => exact run_delete_refused live sound through
    rw [same]
    simp only [through, false_implies, iff_true]
    exact Framed.refl m.householdId db

/-! ### Bob and Carol, who have more than one household -/

namespace Sample

/-- Without the household, his first one is the attic. -/
theorem bob_fallback : fallbackAfter Sample.env village household.id bob.id = some attic.id := by
  unfold fallbackAfter householdsOf membershipsOf HouseholdRepo.alphabetic
  rw [List.mergeSort_of_pairwise (by decide +kernel)]
  decide +kernel

theorem bob_removable :
    (Leaving.remove bob.id).GoesThrough membership (call.start village) := by
  refine ⟨rfl, by decide, ?_⟩
  rintro ⟨⟨m, hm, here, admin⟩, _⟩
  revert m
  decide +kernel

/-- Bob has the barn selected and finds himself in the attic. -/
theorem selection_lost_by_removal : ¬ Framed household.id village
    ((Leaving.remove bob.id).serve call membership village) := by
  have left : (Leaving.remove bob.id).Leaves env household.id village
      ((Leaving.remove bob.id).serve call membership village) :=
    run_remove (w := call.start village) ⟨rfl, rfl⟩ villageAccounts bob_removable
  intro framed
  have settled := left.framed_iff.mp framed bob (List.mem_cons_of_mem _ List.mem_cons_self) rfl
  rw [bob_fallback] at settled
  revert settled
  rintro (same | ⟨selected, _⟩)
  · exact absurd same (by decide)
  · exact absurd selected (by decide)

/-- A user who has selected another household. -/
def carol : User :=
  { ada with id := id 11, username := some "carol", activeHouseholdId := some attic.id }

/-- Ada and Bob have selected Home; Carol, who is a member too, has the attic. -/
def gathering : State
  | .users => [ada, { bob with activeHouseholdId := some household.id }, carol]
  | .householdMembers =>
      village .householdMembers ++
        [{ joined 12 household with userId := carol.id }, { joined 13 attic with userId := carol.id }]
  | t => village t

theorem gatheringAccounts : Accounts gathering where
  users := by
    show List.Nodup _
    decide +kernel
  households := villageAccounts.households
  members := by decide +kernel

/-- Hers is the attic, which she has selected as it is. -/
theorem carol_fallback :
    fallbackAfter Sample.env gathering household.id carol.id = some attic.id := by
  unfold fallbackAfter householdsOf membershipsOf HouseholdRepo.alphabetic
  decide +kernel

/-- Home is deleted: Ada and Bob, who had it selected, may select another household,
and Carol has the fallback selected already. -/
theorem frame_kept_by_delete :
    (Leaving.delete household.id "Home").GoesThrough membership (call.start gathering) ∧
    Framed household.id gathering
      ((Leaving.delete household.id "Home").serve call membership gathering) := by
  constructor
  · exact ⟨rfl, rfl, household, List.mem_cons_self, rfl, rfl, rfl⟩
  · refine (leaving_frame call rfl membership gathering gatheringAccounts (.delete _ _)).mpr ?_
    intro _ u hu _
    rcases hu with _ | ⟨_, _ | ⟨_, _ | ⟨_, ⟨⟩⟩⟩⟩
    · exact .inr ⟨rfl, membership, List.mem_cons_self, rfl, rfl⟩
    · refine .inr ⟨rfl, joined 8 household, ?_, rfl, rfl⟩
      exact List.mem_cons_of_mem _ List.mem_cons_self
    · exact .inl carol_fallback.symm

end Sample

end EspressoLogs
