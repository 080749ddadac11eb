import EspressoLogs.Accounts.GuestLinks

/-!
Which invitations are live.

Three places decide it: the checks behind a link, the list that an admin sees
and the duplicate lookup of `create_invitation`. They agree on an invitation,
unless it is declined and has not run out, or it is pending and runs out at this
very instant: those two pass the checks only.
-/

namespace EspressoLogs

open Lib Py

/-! ### The three places -/

/-- The checks of preview, accept and decline let the invitation through. -/
def LetThrough (env : Env) (i : PendingInvitation) : Prop := checkInvitation env i = .ok ()

/-- `get_household` lists the invitation to an admin as pending. -/
def ListedPending (env : Env) (w : World Table) (i : PendingInvitation) : Prop :=
  ∃ detail, (adminDetail env i.householdId).run w = (.ok detail, w) ∧
    ∃ listed ∈ detail.pendingInvitations, listed.invitationId = i.id ∧ listed.expired = false

/-- The duplicate lookup for the address finds the invitation. -/
def Duplicate (env : Env) (w : World Table) (i : PendingInvitation) (address : String) : Prop :=
  ∃ found, (lookup .pendingInvitations
    (HouseholdRepo.isOpenInvitation env i.householdId (env.lower address))).run w = (.ok found, w) ∧
      i ∈ found

/-- The three agree. -/
def AgreeOn (env : Env) (w : World Table) (i : PendingInvitation) (address : String) : Prop :=
  (LetThrough env i ↔ ListedPending env w i) ∧ (LetThrough env i ↔ Duplicate env w i address)

/-! ### What they come to -/

section Places

variable {env : Env} {w : World Table} {i : PendingInvitation} {address : String}

theorem letThrough_iff : LetThrough env i ↔
    (i.status = .pending ∨ i.status = .declined) ∧ env.now.rank ≤ i.expiresAt.rank := by
  unfold LetThrough checkInvitation acceptAvailable
  by_cases late : i.expiresAt.rank < env.now.rank
  · simp [late]
  · have inTime : env.now.rank ≤ i.expiresAt.rank := Nat.le_of_not_lt late
    cases known : i.status <;> simp [late, inTime]

/-- The invitations that are listed, of those the transaction sees. -/
theorem run_invitations (live : w.Live) (h : Uuid) :
    (HouseholdRepo.getInvitationsForHousehold h).run w =
      (.ok (((w.view .pendingInvitations).filter fun i =>
        i.householdId == h && (i.status == .pending || i.status == .revoked)).mergeSort fun a b =>
          decide (b.invitedAt.rank ≤ a.invitedAt.rank)), w) :=
  CodeM.run_bind_of (run_lookup live _ _ _) rfl

theorem run_adminDetail (env : Env) (live : w.Live) (h : Uuid) :
    ∃ detail, (adminDetail env h).run w = (.ok detail, w) ∧
      ∀ listed, listed ∈ detail.pendingInvitations ↔ ∃ i ∈ w.view .pendingInvitations,
        i.householdId = h ∧ i.status = .pending ∧ listed = invitationOut env i := by
  have guest : (HouseholdRepo.getActiveGuestToken env h).run w = _ :=
    CodeM.run_bind_of (run_lookup live _ _ _) rfl
  refine ⟨_, CodeM.run_bind_of guest (CodeM.run_bind_of (run_invitations live h) rfl), ?_⟩
  intro listed
  simp only [List.mem_map, List.mem_filter, List.mem_mergeSort, acceptAvailable, Bool.and_eq_true,
    Bool.or_eq_true, beq_iff_eq]
  constructor
  · rintro ⟨i, ⟨⟨stored, here, _⟩, pending | declined⟩, rfl⟩
    · exact ⟨i, stored, here, pending, rfl⟩
    · simp_all
  · rintro ⟨i, stored, here, pending, rfl⟩
    exact ⟨i, ⟨⟨stored, here, .inl pending⟩, .inl pending⟩, rfl⟩

theorem listedPending_iff (keyed : Table.Keyed .pendingInvitations (w.view .pendingInvitations))
    (live : w.Live) (stored : i ∈ w.view .pendingInvitations) :
    ListedPending env w i ↔ i.status = .pending ∧ env.now.rank < i.expiresAt.rank := by
  obtain ⟨detail, ran, members⟩ := run_adminDetail env live i.householdId
  constructor
  · rintro ⟨_, ran', listed, shown, same, unexpired⟩
    cases ran.symm.trans ran'
    obtain ⟨j, found, _, pending, rfl⟩ := (members listed).mp shown
    have this : j = i := List.inj_on_of_nodup_map keyed found stored same
    subst this
    refine ⟨pending, ?_⟩
    simpa [invitationOut] using unexpired
  · rintro ⟨pending, inTime⟩
    refine ⟨detail, ran, invitationOut env i, (members _).mpr ⟨i, stored, rfl, pending, rfl⟩, rfl, ?_⟩
    simpa [invitationOut] using inTime

theorem duplicate_iff (live : w.Live) (stored : i ∈ w.view .pendingInvitations)
    (addressed : i.invitedEmail = some address) :
    Duplicate env w i address ↔ i.status = .pending ∧ env.now.rank < i.expiresAt.rank := by
  have ran := run_lookup live .pendingInvitations
    (HouseholdRepo.isOpenInvitation env i.householdId (env.lower address)) rfl
  have opens : HouseholdRepo.isOpenInvitation env i.householdId (env.lower address) i = true ↔
      i.status = .pending ∧ env.now.rank < i.expiresAt.rank := by
    simp [HouseholdRepo.isOpenInvitation, addressed]
  rw [← opens]
  constructor
  · rintro ⟨_, ran', found⟩
    cases ran.symm.trans ran'
    exact (List.mem_filter.mp found).2
  · intro isOpen
    exact ⟨_, ran, List.mem_filter.mpr ⟨stored, isOpen⟩⟩

end Places

/-! ### Where they agree -/

/-- The three places agree on an invitation with an address, exactly when it is not a
declined one that has not run out, nor a pending one that runs out now. The checks
behind a link let both of these through: they refuse what is accepted, revoked or later
than its expiry. The list and the duplicate lookup have neither. -/
theorem live_invitations_agree_iff {env : Env} {w : World Table} (live : w.Live)
    (keyed : Table.Keyed .pendingInvitations (w.view .pendingInvitations)) {i : PendingInvitation}
    (stored : i ∈ w.view .pendingInvitations) {address : String}
    (addressed : i.invitedEmail = some address) :
    AgreeOn env w i address ↔ ¬ (i.status = .declined ∧ env.now.rank ≤ i.expiresAt.rank) ∧
      ¬ (i.status = .pending ∧ env.now.rank = i.expiresAt.rank) := by
  unfold AgreeOn
  rw [letThrough_iff, listedPending_iff keyed live stored, duplicate_iff live stored addressed,
    and_self]
  -- the three tests compare the expiry in different ways, so the status and the very moment
  -- decide
  cases i.status with
  | pending =>
      simp only [true_or, true_and, reduceCtorEq, false_and, not_false_eq_true]
      omega
  | declined => simp
  | accepted => simp
  | revoked => simp

namespace Sample

/-! ### Bob's invitation -/

/-- Bob is invited for a day. -/
def bobs : PendingInvitation :=
  { id := id 600, householdId := household.id, invitedEmail := some "bob@example.org",
    invitedRole := .member, status := .pending, tokenHash := "t", displayTokenCiphertext := none,
    invitedByUserId := ada.id, invitedAt := .midnight day,
    expiresAt := env.hoursAhead 24, acceptedAt := none, revokedAt := none }

/-- The same invitation at the instant it runs out. -/
def runningOut : PendingInvitation := { bobs with expiresAt := .midnight day }

def inviting (i : PendingInvitation) : World Table :=
  { db := fun | .pendingInvitations => [i] | t => db t, session := Session.idle (T := Table) call.supply }

theorem inviting_live (i : PendingInvitation) : (inviting i).Live := ⟨rfl, rfl⟩

theorem inviting_keyed (i : PendingInvitation) :
    Table.Keyed .pendingInvitations ((inviting i).view .pendingInvitations) :=
  List.nodup_singleton (Table.id .pendingInvitations i)

theorem inviting_stored (i : PendingInvitation) : i ∈ (inviting i).view .pendingInvitations :=
  List.mem_singleton_self i

theorem bobs_invitation_agrees : AgreeOn env (inviting bobs) bobs "bob@example.org" :=
  (live_invitations_agree_iff (inviting_live bobs) (inviting_keyed bobs) (inviting_stored bobs)
    rfl).mpr (by decide)

/-- At that instant the link works, but the admin sees an expired invitation. -/
theorem running_out_disagrees : ¬ ∀ (env : Env) (w : World Table) (i : PendingInvitation)
    (address : String), w.Live → Table.Keyed .pendingInvitations (w.view .pendingInvitations) →
      i ∈ w.view .pendingInvitations → i.invitedEmail = some address → AgreeOn env w i address := by
  intro agree
  have agrees := agree env (inviting runningOut) runningOut "bob@example.org"
    (inviting_live runningOut) (inviting_keyed runningOut) (inviting_stored runningOut) rfl
  have passed : LetThrough env runningOut := letThrough_iff.mpr (by decide)
  have listed := (listedPending_iff (inviting_keyed runningOut) (inviting_live runningOut)
    (inviting_stored runningOut)).mp (agrees.1.mp passed)
  exact absurd listed.2 (by decide)

end Sample

end EspressoLogs
