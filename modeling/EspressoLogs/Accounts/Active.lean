import EspressoLogs.Api

/-!
The active household of a user.

`activeHousehold` says which one it is: the stored selection while the user is a
member of it and it is not deleted, else the first of the user's households. The
dependency of the member endpoints, `/auth/me` and the list of households each
work it out by themselves; `resolvers_agree` says that they come to the same,
in what they answer and in what they leave stored.
-/

namespace EspressoLogs

open Lib Py

/-! ### What the constraints promise -/

/-- The primary keys and the unique index on memberships hold. -/
structure Accounts (db : State) : Prop where
  users : Table.users.Keyed (db .users)
  households : Table.households.Keyed (db .households)
  members : ((db .householdMembers).map fun m => (m.householdId, m.userId)).Nodup

/-! ### Memberships -/

/-- The memberships of a user in households that are not deleted, in order. -/
def membershipsOf (env : Env) (db : State) (userId : Uuid) : List HouseholdRepo.Membership :=
  HouseholdRepo.alphabetic env <|
    (leftJoined (fun (m : HouseholdMember) (r : Household) => r.id == m.householdId)
      ((db .householdMembers).filter fun m => m.userId == userId) (db .households)).filterMap
        fun x => (x.2.filter fun r => r.deletedAt.isNone).map fun r => ⟨x.1, r⟩

/-- The household is there and not deleted, and the user is a member. -/
def BelongsTo (db : State) (userId h : Uuid) : Prop :=
  ∃ m ∈ db .householdMembers, m.userId = userId ∧ m.householdId = h ∧
    ∃ r ∈ db .households, r.id = h ∧ r.deletedAt = none

/-- A row that is joined to another matches it. -/
theorem mem_leftJoined {R M : Type} {on : R → M → Bool} {rows : List R} {others : List M} {r : R}
    {m : M} : (r, some m) ∈ leftJoined on rows others ↔ r ∈ rows ∧ m ∈ others ∧ on r m = true := by
  constructor
  · intro h
    obtain ⟨r', hr, hx⟩ := List.mem_flatMap.mp h
    split at hx
    · cases List.mem_singleton.mp hx
    · obtain ⟨m', hm, same⟩ := List.mem_map.mp hx
      cases same
      exact ⟨hr, List.mem_filter.mp hm⟩
  · rintro ⟨hr, hm, here⟩
    refine List.mem_flatMap.mpr ⟨r, hr, ?_⟩
    have found : m ∈ others.filter (on r) := List.mem_filter.mpr ⟨hm, here⟩
    split
    · rename_i none
      rw [none] at found
      cases found
    · exact List.mem_map_of_mem found

/-- A membership counts as long as its household is not deleted. -/
theorem mem_membershipsOf {env : Env} {db : State} {userId : Uuid}
    {x : HouseholdRepo.Membership} : x ∈ membershipsOf env db userId ↔
      x.member ∈ db .householdMembers ∧ x.member.userId = userId ∧ x.household ∈ db .households ∧
        x.household.id = x.member.householdId ∧ x.household.deletedAt = none := by
  rw [membershipsOf, HouseholdRepo.alphabetic, List.mem_mergeSort, List.mem_filterMap]
  constructor
  · rintro ⟨⟨m, o⟩, joined, found⟩
    obtain ⟨r, kept, rfl⟩ := Option.map_eq_some_iff.mp found
    obtain ⟨rfl, live⟩ := Option.filter_eq_some_iff.mp kept
    obtain ⟨seen, hr, same⟩ := mem_leftJoined.mp joined
    obtain ⟨hm, hu⟩ := List.mem_filter.mp seen
    exact ⟨hm, beq_iff_eq.mp hu, hr, beq_iff_eq.mp same, Option.isNone_iff_eq_none.mp live⟩
  · rintro ⟨hm, hu, hr, same, live⟩
    refine ⟨(x.member, some x.household), mem_leftJoined.mpr ⟨?_, hr, beq_iff_eq.mpr same⟩, ?_⟩
    · exact List.mem_filter.mpr ⟨hm, beq_iff_eq.mpr hu⟩
    · simp [live]

/-- The households of a user, in order. -/
def householdsOf (env : Env) (db : State) (userId : Uuid) : List Uuid :=
  (membershipsOf env db userId).map fun x => x.member.householdId

/-- The households listed for a user are those the user belongs to. -/
theorem mem_householdsOf {env : Env} {db : State} {userId h : Uuid} :
    h ∈ householdsOf env db userId ↔ BelongsTo db userId h := by
  constructor
  · intro found
    obtain ⟨x, hx, rfl⟩ := List.mem_map.mp found
    obtain ⟨hm, hu, hr, same, live⟩ := mem_membershipsOf.mp hx
    exact ⟨x.member, hm, hu, rfl, x.household, hr, same, live⟩
  · rintro ⟨m, hm, hu, rfl, r, hr, same, live⟩
    exact List.mem_map.mpr ⟨⟨m, r⟩, mem_membershipsOf.mpr ⟨hm, hu, hr, same, live⟩, rfl⟩

/-- Which household a user is a member of does not depend on the users table. -/
theorem membershipsOf_congr {env : Env} {db db' : State} {userId : Uuid}
    (members : db' .householdMembers = db .householdMembers)
    (households : db' .households = db .households) :
    membershipsOf env db' userId = membershipsOf env db userId := by
  rw [membershipsOf, membershipsOf, members, households]

/-! ### The active household -/

/-- The selection of a user if it is still good, else the first of the user's
households. -/
def activeHousehold (env : Env) (db : State) (user : User) : Option Uuid :=
  match user.activeHouseholdId with
  | some active =>
      if active ∈ householdsOf env db user.id then some active
      else (householdsOf env db user.id).head?
  | none => (householdsOf env db user.id).head?

/-- The users after one of them selected a household, or none. -/
def withActive (userId : Uuid) (selection : Option Uuid) (users : List User) : List User :=
  users.map fun u => if u.id == userId then { u with activeHouseholdId := selection } else u

/-- The database with the user's selection set. -/
def setActiveIn (db : State) (userId : Uuid) (selection : Option Uuid) : State :=
  Function.update db .users (withActive userId selection (db .users))

variable {env : Env} {db : State} {user : User} {userId h : Uuid} {selection : Option Uuid}

@[simp] theorem setActiveIn_users :
    setActiveIn db userId selection .users = withActive userId selection (db .users) :=
  Function.update_self ..

theorem setActiveIn_of_ne {t : Table} (ht : t ≠ .users) :
    setActiveIn db userId selection t = db t :=
  Function.update_of_ne ht ..

@[simp] theorem setActiveIn_households :
    setActiveIn db userId selection .households = db .households :=
  setActiveIn_of_ne nofun

@[simp] theorem setActiveIn_householdMembers :
    setActiveIn db userId selection .householdMembers = db .householdMembers :=
  setActiveIn_of_ne nofun

/-- A selection that is set twice is the second one. -/
theorem withActive_withActive {users : List User} {other : Option Uuid} :
    withActive userId selection (withActive userId other users) =
      withActive userId selection users := by
  simp only [withActive, List.map_map]
  refine List.map_congr_left fun u _ => ?_
  by_cases here : u.id = userId
  · simp [here]
  · simp [here]

/-- The same for the database. -/
theorem setActiveIn_setActiveIn {other : Option Uuid} :
    setActiveIn (setActiveIn db userId other) userId selection =
      setActiveIn db userId selection := by
  rw [setActiveIn, setActiveIn_users, withActive_withActive, setActiveIn, setActiveIn,
    Function.update_idem]

/-- Selecting what is selected changes nothing. -/
theorem setActiveIn_self (keyed : Table.users.Keyed (db .users)) (hu : user ∈ db .users) :
    setActiveIn db user.id user.activeHouseholdId = db := by
  have same : withActive user.id user.activeHouseholdId (db .users) = db .users := by
    refine (List.map_congr_left fun u hmem => ?_).trans (List.map_id' _)
    by_cases here : u.id = user.id
    · have : u = user := List.inj_on_of_nodup_map keyed hmem hu here
      subst this
      simp
    · simp [here]
  rw [setActiveIn, same, Function.update_eq_self]

/-- The fallback is a household that the user belongs to. -/
theorem belongs_of_head (first : (householdsOf env db userId).head? = some h) :
    BelongsTo db userId h :=
  mem_householdsOf.mp (List.mem_of_mem_head? first)

/-- So is whatever is chosen. -/
theorem activeHousehold_eq_some (chosen : activeHousehold env db user = some h) :
    BelongsTo db user.id h := by
  unfold activeHousehold at chosen
  split at chosen
  · split at chosen
    · rename_i good
      cases chosen
      exact mem_householdsOf.mp good
    · exact belongs_of_head chosen
  · exact belongs_of_head chosen

/-- A selection that is listed is taken. -/
theorem activeHousehold_of_mem (selected : user.activeHouseholdId = some h)
    (listed : h ∈ householdsOf env db user.id) : activeHousehold env db user = some h := by
  simp only [activeHousehold, selected]
  rw [if_pos listed]

/-- A good selection stays selected, whatever the order of the others. -/
theorem activeHousehold_of_belongs (selected : user.activeHouseholdId = some h)
    (good : BelongsTo db user.id h) : activeHousehold env db user = some h :=
  activeHousehold_of_mem selected (mem_householdsOf.mpr good)

/-- A stale one gives way to the first of the list. -/
theorem activeHousehold_of_notMem
    (stale : ∀ active, user.activeHouseholdId = some active → active ∉ householdsOf env db user.id) :
    activeHousehold env db user = (householdsOf env db user.id).head? := by
  unfold activeHousehold
  split
  · rename_i active selected
    rw [if_neg (stale active selected)]
  · rfl

/-- A user without a household has nothing chosen. -/
theorem activeHousehold_eq_none :
    activeHousehold env db user = none ↔ householdsOf env db user.id = [] := by
  unfold activeHousehold
  split
  · split
    · rename_i good
      constructor
      · exact nofun
      · intro none
        rw [none] at good
        cases good
    · exact List.head?_eq_none_iff
  · exact List.head?_eq_none_iff

/-! ### Runs -/

section Runs

variable {w : World Table}

/-- A household that the user belongs to is stored, so the selection refers to a row. -/
theorem stored_of_belongs (good : BelongsTo w.view userId h) :
    w.stored (Table.households, h) = true := by
  obtain ⟨_, _, _, _, r, hr, same, _⟩ := good
  exact List.any_eq_true.mpr ⟨r, hr, decide_eq_true same⟩

/-- The repository lists the memberships in their order. -/
theorem run_getMembershipsForUser (env : Env) (userId : Uuid) (hw : w.Live) :
    (HouseholdRepo.getMembershipsForUser env userId).run w =
      (.ok (membershipsOf env w.view userId), w) :=
  CodeM.run_bind_of (run_lookupJoin hw ..) rfl

/-- The number of members of a household as it is counted with the memberships. -/
def countedMembers (db : State) (ids : List Uuid) (x : HouseholdRepo.Membership) : Nat :=
  ((db .householdMembers).filter fun m => ids.contains m.householdId).countP
    (HouseholdRepo.ofHousehold x.member.householdId)

theorem run_getMembershipsWithHouseholds (env : Env) (userId : Uuid) (hw : w.Live) :
    (HouseholdRepo.getMembershipsWithHouseholdsForUser env userId).run w =
      (.ok ((membershipsOf env w.view userId).map fun x =>
        (x, countedMembers w.view (householdsOf env w.view userId) x)), w) := by
  refine CodeM.run_bind_of (run_getMembershipsForUser env userId hw) ?_
  by_cases none : membershipsOf env w.view userId = []
  · rw [if_pos none, none]
    rfl
  · rw [if_neg none]
    exact CodeM.run_bind_of (run_lookup hw ..) rfl

/-- There is one membership of a user in a household, if any. -/
theorem run_getMember (distinct : ((w.view .householdMembers).map fun m : HouseholdMember =>
      (m.householdId, m.userId)).Nodup) (hw : w.Live) :
    (HouseholdRepo.getMember h userId).run w =
      (.ok ((w.view .householdMembers).find? (HouseholdRepo.isMember h userId)), w) := by
  refine CodeM.run_bind_of (run_lookup hw ..) ?_
  rw [filter_eq_find (k := (h, userId)) (fun m here => ?_) distinct]
  · exact run_oneOrNone _
  · simp only [HouseholdRepo.isMember, Bool.and_eq_true, beq_iff_eq] at here
    rw [here.1, here.2]

/-- A household that is not deleted is found by its id. -/
theorem run_getById (keyed : Table.households.Keyed (w.view .households)) (hw : w.Live) :
    (HouseholdRepo.getById h).run w =
      (.ok ((w.view .households).find? (HouseholdRepo.isLive h)), w) := by
  refine CodeM.run_bind_of (run_lookup hw ..) ?_
  rw [filter_eq_find (k := h) (fun _ => HouseholdRepo.id_of_isLive) keyed]
  exact run_oneOrNone _

variable (userId selection) in
/-- A user selects a household that is there, or none. -/
theorem run_setActive (there : ∀ h, selection = some h → w.stored (Table.households, h) = true)
    (hw : w.Live) : ∃ w', (UserRepo.setActive userId selection).run w = (.ok (), w') ∧ w'.Live ∧
      w'.db = w.db ∧ w'.view = setActiveIn w.view userId selection := by
  let set (u : User) : Except StmtError User := .ok { u with activeHouseholdId := selection }
  let rows := (w.visible .users).filter fun u : User => u.id == userId
  have gained : Lib.gained Table.users (.upd (rewritten set rows)) = [] := by
    refine World.gained_eq_nil fun p hp => ?_
    obtain ⟨u, _, rfl⟩ := List.mem_map.mp hp
    exact List.Subset.refl _
  have verdict : w.refused Table.users (.upd (rewritten set rows)) = none := by
    rw [World.refused_eq_none, gained]
    refine ⟨fun _ _ => rfl, nofun, List.nodup_nil, fun ref href => ?_⟩
    obtain ⟨p, hp, new⟩ := List.mem_flatMap.mp href
    obtain ⟨u, _, rfl⟩ := List.mem_map.mp hp
    have here : ref ∈ (selection.map (Table.households, ·)).toList := (List.mem_filter.mp new).1
    obtain ⟨h, selected, rfl⟩ := Option.map_eq_some_iff.mp (Option.mem_toList.mp here)
    exact there h selected
  refine ⟨w.pend .users (.upd (rewritten set rows)), ?_, hw.pend _ _, rfl, ?_⟩
  · refine CodeM.run_bind_of (run_update hw (t := .users) (fun _ _ => rfl) verdict) rfl
  · funext t
    by_cases ht : t = .users
    · subst ht
      rw [World.pend_view_self, setActiveIn_users]
      have seen : w.visible .users = w.view .users := World.visible_of_unsecured rfl
      simp only [rows, seen]
      exact Change.apply_upd_filter _ _ _
    · rw [World.pend_view_of_ne w _ ht, setActiveIn_of_ne ht]

variable (userId selection) in
/-- `set_active_household` and `clear_active_household`. -/
theorem run_setActive_commit
    (there : ∀ h, selection = some h → w.stored (Table.households, h) = true) (hw : w.Live) :
    ∃ w', (do UserRepo.setActive userId selection; UserM.commit).run w = (.ok (), w') ∧ w'.Live ∧
      w'.db = setActiveIn w.view userId selection ∧
        w'.view = setActiveIn w.view userId selection := by
  obtain ⟨w₁, set, live, _, view⟩ := run_setActive userId selection there hw
  exact ⟨w₁.committed, CodeM.run_bind_of set (run_commit live), live.committed, view, view⟩

end Runs

/-! ### The three resolvers -/

/-- The codes that work out the active household of a user. -/
inductive Resolver where
  | dependency
  | me
  | list

def noMemberships : Exc := httpError 403 "User has no household memberships"

/-- The household of a resolved membership; that there is none is a refusal. -/
def ofMembership : Except Exc HouseholdMember → Except Exc (Option Uuid)
  | .ok m => .ok (some m.householdId)
  | .error e => if e = noMemberships then .ok none else .error e

/-- The selection in an answer of `GET /api/auth/me`. -/
def ofMe (response : Response) : Option Uuid :=
  match response.body with
  | .me _ active _ _ => active
  | _ => none

/-- The household that a listing marks as the active one. -/
def ofOutputs (outs : List MembershipOut) : Option Uuid :=
  (outs.find? fun m => m.isActive).map fun m => m.householdId

/-- What a resolver comes to, `none` where it finds no household. -/
def Resolver.run (resolver : Resolver) (env : Env) (user : User) (w : World Table) :
    Except Exc (Option Uuid) × World Table :=
  match resolver with
  | .dependency => ((resolveMembershipForUser env user).run w).map ofMembership id
  | .me => ((getMe env (some user.id)).run w).map (Except.map ofMe) id
  | .list => ((membershipOutputs env user).run w).map (Except.map ofOutputs) id

section Resolvers

variable {w : World Table}

/-- Both lookups of a selection find something when the user belongs there. -/
theorem belongsTo_iff_found : BelongsTo db userId h ↔
    ((db .householdMembers).find? (HouseholdRepo.isMember h userId)).isSome ∧
      ((db .households).find? (HouseholdRepo.isLive h)).isSome := by
  rw [List.find?_isSome, List.find?_isSome]
  constructor
  · rintro ⟨m, hm, rfl, rfl, r, hr, same, live⟩
    exact ⟨⟨m, hm, by simp [HouseholdRepo.isMember]⟩, r, hr, by simp [HouseholdRepo.isLive, same, live]⟩
  · rintro ⟨⟨m, hm, member⟩, r, hr, here⟩
    simp only [HouseholdRepo.isMember, HouseholdRepo.isLive, Bool.and_eq_true, beq_iff_eq,
      Option.isNone_iff_eq_none] at member here
    exact ⟨m, hm, member.2, member.1, r, hr, here⟩

theorem head_householdsOf : (householdsOf env db userId).head? =
    (membershipsOf env db userId).head?.map fun x => x.member.householdId :=
  List.head?_map

/-- What `fallbackMembership` selects is what the household list starts with. -/
theorem run_fallbackMembership (env : Env) (user : User) (hw : w.Live) (clean : w.db = w.view)
    (unset : w.view = setActiveIn w.view user.id none) :
    ∃ w', ((fallbackMembership env user).run w).map ofMembership id =
        (.ok (householdsOf env w.view user.id).head?, w') ∧
      w'.db = setActiveIn w.view user.id (householdsOf env w.view user.id).head? := by
  have listed : CodeM.run (HouseholdRepo.getMembershipsForUser env user.id : UserM _) w = _ :=
    run_getMembershipsForUser env user.id hw
  rw [fallbackMembership, CodeM.run_bind_ok listed]
  cases first : (membershipsOf env w.view user.id).head? with
  | none =>
      refine ⟨w, ?_, ?_⟩
      · rw [head_householdsOf, first]
        rfl
      · rw [head_householdsOf, first, clean]
        exact unset
  | some x =>
      have head : (householdsOf env w.view user.id).head? = some x.member.householdId := by
        rw [head_householdsOf, first]
        rfl
      have belongs : BelongsTo w.view user.id x.member.householdId := belongs_of_head head
      obtain ⟨w', set, _, db, _⟩ := run_setActive_commit user.id (some x.member.householdId)
        (fun h selected => Option.some.inj selected ▸ stored_of_belongs belongs) hw
      have selected : CodeM.run (UserRepo.setActiveHousehold user.id x.member.householdId) w = _ :=
        set
      refine ⟨w', ?_, ?_⟩
      · rw [head_householdsOf, first]
        have returned := CodeM.run_bind_ok (f := fun _ => pure x.member) selected
        exact congrArg (Prod.map ofMembership id) returned
      · rw [db, head_householdsOf, first]
        rfl

/-- Nothing needs to be written where the selection is the chosen one. -/
theorem unchanged (sound : Accounts db) (hu : user ∈ db .users)
    (selected : user.activeHouseholdId = selection) :
    db = setActiveIn db user.id selection := by
  rw [← selected, setActiveIn_self sound.users hu]

/-- A selection changes nothing of who belongs where. -/
theorem householdsOf_setActiveIn : householdsOf env (setActiveIn db userId selection) user.id =
    householdsOf env db user.id := by
  rw [householdsOf, membershipsOf_congr setActiveIn_householdMembers setActiveIn_households,
    householdsOf]

/-- The dependency of the endpoints resolves what is chosen, and stores it. -/
theorem run_dependency (env : Env) (hw : w.Live) (clean : w.db = w.view)
    (sound : Accounts w.view) (hu : user ∈ w.view .users) :
    ∃ w', Resolver.dependency.run env user w = (.ok (activeHousehold env w.view user), w') ∧
      w'.db = setActiveIn w.view user.id (activeHousehold env w.view user) := by
  unfold Resolver.run resolveMembershipForUser
  cases selected : user.activeHouseholdId with
  | none =>
      rw [activeHousehold_of_notMem (by rw [selected]; nofun)]
      exact run_fallbackMembership env user hw clean (unchanged sound hu selected)
  | some active =>
      have member : CodeM.run (HouseholdRepo.getMember active user.id : UserM _) w = _ :=
        run_getMember sound.members hw
      have household : CodeM.run (HouseholdRepo.getById active : UserM _) w = _ :=
        run_getById sound.households hw
      simp only
      rw [CodeM.run_bind_ok member, CodeM.run_bind_ok household]
      -- the selection holds only if both the membership and the household are found
      by_cases good : BelongsTo w.view user.id active
      · obtain ⟨foundMember, foundHousehold⟩ := belongsTo_iff_found.mp good
        obtain ⟨m, hm⟩ := Option.isSome_iff_exists.mp foundMember
        obtain ⟨r, hr⟩ := Option.isSome_iff_exists.mp foundHousehold
        have here : m.householdId = active := by
          have := List.find?_some hm
          simp only [HouseholdRepo.isMember, Bool.and_eq_true, beq_iff_eq] at this
          exact this.1
        refine ⟨w, ?_, ?_⟩
        · rw [hm, hr, activeHousehold_of_belongs selected good, ← here]
          rfl
        · rw [activeHousehold_of_belongs selected good, ← unchanged sound hu selected, clean]
      · -- the selection is cleared, and the fallback runs in the world after that
        obtain ⟨w₁, set, live, db, view⟩ := run_setActive_commit user.id none nofun hw
        have cleared : CodeM.run
            (UserRepo.clearActiveHousehold user.id >>= fun _ => fallbackMembership env user) w =
              CodeM.run (fallbackMembership env user) w₁ :=
          CodeM.run_bind_ok set
        obtain ⟨w', run, db'⟩ := run_fallbackMembership env user live (db.trans view.symm)
          (by rw [view, setActiveIn_setActiveIn])
        rw [view, householdsOf_setActiveIn] at run db'
        rw [setActiveIn_setActiveIn] at db'
        rw [activeHousehold_of_notMem fun other same listed => good <| by
          cases selected.symm.trans same
          exact mem_householdsOf.mp listed]
        refine ⟨w', ?_, db'⟩
        rw [← run, ← cleared]
        have notBoth := mt belongsTo_iff_found.mpr good
        cases hm : (w.view .householdMembers).find? (HouseholdRepo.isMember active user.id) with
        | none => rfl
        | some m =>
            cases hr : (w.view .households).find? (HouseholdRepo.isLive active) with
            | none => rfl
            | some r => exact absurd ⟨by rw [hm]; rfl, by rw [hr]; rfl⟩ notBoth

theorem run_currentUser (keyed : Table.users.Keyed (w.view .users)) (hu : user ∈ w.view .users)
    (hw : w.Live) : (currentUser (some user.id)).run w = (.ok user, w) := by
  have found : (w.view .users).find? (fun u : User => u.id == user.id) = some user := by
    cases here : (w.view .users).find? (fun u : User => u.id == user.id) with
    | none => exact absurd (beq_self_eq_true user.id) (List.find?_eq_none.mp here user hu)
    | some u =>
        have same := List.find?_some here
        rw [List.inj_on_of_nodup_map keyed (List.mem_of_find?_eq_some here) hu (beq_iff_eq.mp same)]
  have byId : (UserRepo.getById user.id).run w = (.ok (some user), w) := by
    refine CodeM.run_bind_of (run_lookup hw ..) ?_
    have fixes : ∀ u : User, (u.id == user.id) = true → u.id = user.id := fun _ => beq_iff_eq.mp
    rw [filter_eq_find fixes keyed, found]
    rfl
  exact CodeM.run_bind_still user.id rfl (CodeM.run_bind_of byId rfl)

/-- The first household of the user becomes the active one. -/
theorem run_selectFirst (head : (householdsOf env w.view userId).head? = some h) (hw : w.Live) :
    ∃ w', (UserRepo.setActiveHousehold userId h).run w = (.ok (), w') ∧
      w'.db = setActiveIn w.view userId (some h) := by
  obtain ⟨w', set, _, db, _⟩ := run_setActive_commit userId (some h)
    (fun h' same => Option.some.inj same ▸ stored_of_belongs (belongs_of_head head)) hw
  exact ⟨w', set, db⟩

/-- A selection is cleared where the user has no household left. -/
theorem run_clear (userId : Uuid) (hw : w.Live) :
    ∃ w', (UserRepo.clearActiveHousehold userId).run w = (.ok (), w') ∧ w'.Live ∧
      w'.db = setActiveIn w.view userId none ∧ w'.view = setActiveIn w.view userId none :=
  run_setActive_commit _ none nofun hw

/-- `GET /api/auth/me` does so as well. -/
theorem run_me (env : Env) (hw : w.Live) (clean : w.db = w.view)
    (sound : Accounts w.view) (hu : user ∈ w.view .users) :
    ∃ w', Resolver.me.run env user w = (.ok (activeHousehold env w.view user), w') ∧
      w'.db = setActiveIn w.view user.id (activeHousehold env w.view user) := by
  have caller : CodeM.run (currentUser (some user.id) : UserM User) w = _ :=
    run_currentUser sound.users hu hw
  have listed : CodeM.run (HouseholdRepo.getMembershipsWithHouseholdsForUser env user.id : UserM _)
    w = _ := run_getMembershipsWithHouseholds env user.id hw
  unfold Resolver.run getMe
  simp only
  rw [CodeM.run_bind_ok caller, CodeM.run_bind_ok listed]
  generalize listing : (membershipsOf env w.view user.id).map (fun x =>
    (x, countedMembers w.view (householdsOf env w.view user.id) x)) = ms
  have ids : householdsOf env w.view user.id = ms.map fun m => m.1.member.householdId := by
    rw [← listing, householdsOf, List.map_map]
    rfl
  cases ms with
  | nil =>
      have chosen : activeHousehold env w.view user = none := activeHousehold_eq_none.mpr ids
      rw [chosen]
      cases selected : user.activeHouseholdId with
      | none => exact ⟨w, rfl, clean.trans (unchanged sound hu selected)⟩
      | some active =>
          obtain ⟨w₁, cleared, _, db, _⟩ := run_clear user.id hw
          exact ⟨w₁, congrArg (Prod.map (Except.map ofMe) id) (CodeM.run_bind_ok cleared), db⟩
  | cons first rest =>
      simp only [reduceCtorEq, false_and, if_false]
      cases found : (first :: rest).reverse.find?
        (fun m => user.activeHouseholdId == some m.1.member.householdId) with
      | some m =>
          have same := List.find?_some found
          have selected : user.activeHouseholdId = some m.1.member.householdId := beq_iff_eq.mp same
          have listed : m ∈ first :: rest := List.mem_reverse.mp (List.mem_of_find?_eq_some found)
          have chosen : activeHousehold env w.view user = some m.1.member.householdId :=
            activeHousehold_of_mem selected (ids ▸ List.mem_map_of_mem listed)
          rw [chosen]
          exact ⟨w, rfl, clean.trans (unchanged sound hu selected)⟩
      | none =>
          have head : (householdsOf env w.view user.id).head? = some first.1.member.householdId := by
            rw [ids]
            rfl
          have chosen : activeHousehold env w.view user = some first.1.member.householdId := by
            rw [activeHousehold_of_notMem, head]
            intro active selected listed
            obtain ⟨m, hm, same⟩ := List.mem_map.mp (ids ▸ listed)
            exact List.find?_eq_none.mp found m (List.mem_reverse.mpr hm)
              (beq_iff_eq.mpr (selected.trans (congrArg some same.symm)))
          obtain ⟨w₁, moved, db⟩ := run_selectFirst head hw
          rw [chosen]
          exact ⟨w₁, congrArg (Prod.map (Except.map ofMe) id) (CodeM.run_bind_ok moved), db⟩

/-- The outputs show the household that they were made active for. -/
theorem ofOutputs_map (ms : List (HouseholdRepo.Membership × Nat))
    (listed : h ∈ ms.map fun m => m.1.member.householdId) :
    ofOutputs (ms.map (membershipOut (some h))) = some h := by
  obtain ⟨m, hm, same⟩ := List.mem_map.mp listed
  unfold ofOutputs
  cases found : (ms.map (membershipOut (some h))).find? fun o => o.isActive with
  | none =>
      have inactive := List.find?_eq_none.mp found _ (List.mem_map_of_mem hm)
      simp [membershipOut, same] at inactive
  | some o =>
      obtain ⟨m', _, rfl⟩ := List.mem_map.mp (List.mem_of_find?_eq_some found)
      have active := List.find?_some found
      simp only [membershipOut, beq_iff_eq] at active
      exact active

/-- So does the listing, which repairs the selection by itself. -/
theorem run_list (env : Env) (hw : w.Live) (clean : w.db = w.view)
    (sound : Accounts w.view) (hu : user ∈ w.view .users) :
    ∃ w', Resolver.list.run env user w = (.ok (activeHousehold env w.view user), w') ∧
      w'.db = setActiveIn w.view user.id (activeHousehold env w.view user) := by
  have listed : CodeM.run (HouseholdRepo.getMembershipsWithHouseholdsForUser env user.id : UserM _)
    w = _ := run_getMembershipsWithHouseholds env user.id hw
  unfold Resolver.run membershipOutputs
  simp only
  rw [CodeM.run_bind_ok listed]
  generalize listing : (membershipsOf env w.view user.id).map (fun x =>
    (x, countedMembers w.view (householdsOf env w.view user.id) x)) = ms
  have ids : householdsOf env w.view user.id = ms.map fun m => m.1.member.householdId := by
    rw [← listing, householdsOf, List.map_map]
    rfl
  cases ms with
  | nil =>
      have chosen : activeHousehold env w.view user = none := activeHousehold_eq_none.mpr ids
      rw [chosen]
      cases selected : user.activeHouseholdId with
      | none => exact ⟨w, rfl, clean.trans (unchanged sound hu selected)⟩
      | some active =>
          obtain ⟨w₁, cleared, _, db, _⟩ := run_clear user.id hw
          exact ⟨w₁, congrArg (Prod.map (Except.map ofOutputs) id) (CodeM.run_bind_ok cleared), db⟩
  | cons first rest =>
      have any : (first.1.member.householdId :: rest.map fun m => m.1.member.householdId).any
          (fun h => user.activeHouseholdId == some h) = true ↔
            ∃ h ∈ householdsOf env w.view user.id, user.activeHouseholdId = some h := by
        rw [ids, List.any_eq_true]
        simp only [beq_iff_eq, List.map_cons]
      simp only [reduceCtorEq, false_and, if_false, List.map_cons]
      by_cases kept : ∃ h ∈ householdsOf env w.view user.id, user.activeHouseholdId = some h
      · obtain ⟨active, good, selected⟩ := kept
        rw [activeHousehold_of_mem selected good, if_pos (any.mpr ⟨active, good, selected⟩)]
        refine ⟨w, ?_, clean.trans (unchanged sound hu selected)⟩
        rw [selected]
        exact congrArg (fun h => (Except.ok h, w)) (ofOutputs_map (first :: rest) (ids ▸ good))
      · have head : (householdsOf env w.view user.id).head? = some first.1.member.householdId := by
          rw [ids]
          rfl
        obtain ⟨w₁, moved, db⟩ := run_selectFirst head hw
        rw [activeHousehold_of_notMem fun a same listed => kept ⟨a, listed, same⟩, head,
          if_neg (mt any.mp kept), CodeM.run_bind_ok moved]
        refine ⟨w₁, ?_, db⟩
        exact congrArg (fun h => (Except.ok h, w₁))
          (ofOutputs_map (first :: rest) List.mem_cons_self)

/-- Each of the three resolvers stores and returns the household that is chosen. -/
theorem Resolver.run_eq (resolver : Resolver) (env : Env) (hw : w.Live) (clean : w.db = w.view)
    (sound : Accounts w.view) (hu : user ∈ w.view .users) :
    ∃ w', resolver.run env user w = (.ok (activeHousehold env w.view user), w') ∧
      w'.db = setActiveIn w.view user.id (activeHousehold env w.view user) := by
  cases resolver with
  | dependency => exact run_dependency env hw clean sound hu
  | me => exact run_me env hw clean sound hu
  | list => exact run_list env hw clean sound hu

end Resolvers

/-- The user with another selection is the one stored after selecting it. -/
theorem mem_withActive (hu : user ∈ db .users) :
    { user with activeHouseholdId := selection } ∈ withActive user.id selection (db .users) :=
  List.mem_map.mpr ⟨user, hu, by simp⟩

theorem keyed_withActive {users : List User} (keyed : Table.users.Keyed users) :
    Table.users.Keyed (withActive userId selection users) := by
  have same : (withActive userId selection users).map Table.users.id = users.map Table.users.id := by
    rw [withActive, List.map_map]
    refine List.map_congr_left fun u _ => ?_
    by_cases here : u.id = userId
    · simp [here, Table.id]
    · simp [here]
  unfold Table.Keyed
  rw [same]
  exact keyed

/-- The keys of the accounts outlast a repair. -/
theorem Accounts.setActiveIn (sound : Accounts db) : Accounts (setActiveIn db userId selection) where
  users := by
    rw [setActiveIn_users]
    exact keyed_withActive sound.users
  households := by
    rw [setActiveIn_households]
    exact sound.households
  members := by
    rw [setActiveIn_householdMembers]
    exact sound.members

variable (db env user) in
/-- Having selected what is chosen, a user is chosen the same again. -/
theorem activeHousehold_settled (env' : Env) :
    activeHousehold env' (setActiveIn db user.id (activeHousehold env db user))
      { user with activeHouseholdId := activeHousehold env db user } =
    activeHousehold env db user := by
  cases chosen : activeHousehold env db user with
  | some h =>
      refine activeHousehold_of_belongs rfl ?_
      obtain ⟨m, hm, mine, here, r, hr, same, live⟩ := activeHousehold_eq_some chosen
      refine ⟨m, ?_, mine, here, r, ?_, same, live⟩
      · rw [setActiveIn_householdMembers]
        exact hm
      · rw [setActiveIn_households]
        exact hr
  | none =>
      have none := activeHousehold_eq_none.mp chosen
      refine activeHousehold_eq_none.mpr (List.eq_nil_iff_forall_not_mem.mpr fun h listed => ?_)
      rw [householdsOf_setActiveIn] at listed
      have there : h ∈ householdsOf env db user.id :=
        mem_householdsOf.mpr (mem_householdsOf.mp listed)
      rw [none] at there
      cases there

/-- The three resolvers agree: on any accounts, each of them comes to the same household
and leaves the same selection stored, the household is there, not deleted and the user's
own, and whichever runs again comes to it once more and changes nothing. The selection
that is stored may be any, and so may the memberships; `Accounts` holds the keys of the
tables and that nobody is a member of one household twice. -/
theorem resolvers_agree (c : Call) (noFaults : c.faults = []) (db : State) (sound : Accounts db)
    (user : User) (hu : user ∈ db .users) (resolver : Resolver) :
    let chosen := activeHousehold c.env db user
    let out := resolver.run c.env user (c.start db)
    (out.1 = .ok chosen ∧ out.2.db = setActiveIn db user.id chosen) ∧
    (∀ h, chosen = some h → BelongsTo db user.id h) ∧
    ∀ (again : Resolver) (c' : Call), c'.faults = [] →
      let out' := again.run c'.env { user with activeHouseholdId := chosen } (c'.start out.2.db)
      out'.1 = .ok chosen ∧ out'.2.db = out.2.db := by
  obtain ⟨w, run, stored⟩ := resolver.run_eq c.env (w := c.start db) ⟨rfl, noFaults⟩ rfl sound hu
  simp only [run]
  refine ⟨⟨rfl, stored⟩, fun h chosen => activeHousehold_eq_some chosen, ?_⟩
  intro again c' noFaults'
  -- with the household chosen as the selection, the same one is chosen again
  have settled := activeHousehold_settled c.env db user c'.env
  have hu' : { user with activeHouseholdId := activeHousehold c.env db user } ∈
      (c'.start w.db).view .users := by
    show _ ∈ w.db .users
    rw [stored, show (c.start db).view = db from rfl, setActiveIn_users]
    exact mem_withActive hu
  obtain ⟨w', run', stored'⟩ := again.run_eq c'.env (w := c'.start w.db) ⟨rfl, noFaults'⟩ rfl
    (stored ▸ sound.setActiveIn) hu'
  have view : (c'.start w.db).view = setActiveIn db user.id (activeHousehold c.env db user) := stored
  rw [view, settled] at run' stored'
  rw [setActiveIn_setActiveIn] at stored'
  simp only [run', true_and]
  exact stored'.trans stored.symm

/-! ### Bob, who is a member of three households -/

namespace Sample

/-- A second household. -/
def attic : Household := { household with id := id 5, name := "Attic" }

/-- A third one. -/
def barn : Household := { household with id := id 6, name := "Barn" }

/-- A user who has selected the barn. -/
def bob : User := { ada with id := id 7, username := some "bob", activeHouseholdId := some barn.id }

/-- A membership of his. -/
def joined (n : Nat) (h : Household) : HouseholdMember :=
  { membership with id := id n, householdId := h.id, userId := bob.id, role := .member }

/-- Three households, all of which he is a member of. -/
def village : State
  | .users => [ada, bob]
  | .households => [household, attic, barn]
  | .householdMembers => [membership, joined 8 household, joined 9 attic, joined 10 barn]
  | _ => []

theorem villageAccounts : Accounts village where
  users := by
    show List.Nodup _
    decide +kernel
  households := by
    show List.Nodup _
    decide +kernel
  members := by decide +kernel

/-- A household that was deleted while Bob had it selected. -/
def cellar : Household :=
  { household with id := id 14, name := "Cellar", deletedAt := some (.midnight day) }

/-- The same user with a selection that is deleted. -/
def astray : User := { bob with activeHouseholdId := some cellar.id }

/-- The village with that household. -/
def withCellar : State
  | .users => [ada, astray]
  | .households => cellar :: village .households
  | .householdMembers => village .householdMembers ++ [joined 15 cellar]
  | t => village t

theorem withCellarAccounts : Accounts withCellar where
  users := villageAccounts.users
  households := by
    show List.Nodup _
    decide +kernel
  members := by decide +kernel

/-- The deleted household is not listed. -/
theorem astray_households :
    householdsOf Sample.env withCellar astray.id = [attic.id, barn.id, household.id] := by
  have memberships : ((leftJoined
      (fun (m : HouseholdMember) (r : Household) => r.id == m.householdId)
      ((withCellar .householdMembers).filter fun m => m.userId == astray.id)
      (withCellar .households)).filterMap fun x =>
        (x.2.filter fun r => r.deletedAt.isNone).map fun r => HouseholdRepo.Membership.mk x.1 r) =
      [⟨joined 8 household, household⟩, ⟨joined 9 attic, attic⟩, ⟨joined 10 barn, barn⟩] := rfl
  rw [householdsOf, membershipsOf, memberships]
  simp +decide only [HouseholdRepo.alphabetic, List.mergeSort,
    List.MergeSort.Internal.splitInTwo, List.splitAt_eq, List.length, List.take, List.drop,
    List.merge, List.map, if_true, if_false]

/-- With the deleted cellar selected, Bob comes to the attic whichever resolver runs,
and whichever runs next leaves him there. -/
theorem resolvers_agree_astray :
    activeHousehold call.env withCellar astray = some attic.id ∧
    ∀ resolver again : Resolver,
      let settled := setActiveIn withCellar astray.id (some attic.id)
      let out := resolver.run call.env astray (call.start withCellar)
      let out' := again.run call.env { astray with activeHouseholdId := some attic.id }
        (call.start settled)
      (out.1 = .ok (some attic.id) ∧ out.2.db = settled) ∧
        out'.1 = .ok (some attic.id) ∧ out'.2.db = settled := by
  have chosen : activeHousehold call.env withCellar astray = some attic.id := by
    show activeHousehold Sample.env withCellar astray = _
    rw [activeHousehold, astray_households]
    rfl
  refine ⟨chosen, fun resolver again => ?_⟩
  have agree := resolvers_agree call rfl withCellar withCellarAccounts astray
    (List.mem_cons_of_mem _ List.mem_cons_self) resolver
  rw [chosen] at agree
  obtain ⟨⟨answer, stored⟩, _, next⟩ := agree
  have further := next again call rfl
  rw [stored] at further
  exact ⟨⟨answer, stored⟩, further⟩

end Sample

end EspressoLogs
