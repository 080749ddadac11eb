import EspressoLogs.Repos.Tenant

/-!
`HouseholdRepo` and `UserRepo`: the tables outside row-level security.

An `UPDATE` or `DELETE` selects its rows when it is performed, not when the row
was last read; the checks that the methods make before are statements of their
own.
-/

namespace EspressoLogs

open Lib Py

/-! ### Users -/

namespace UserRepo

/-- The user, if there is one. -/
def getById (userId : Uuid) : LookupM (Option User) := do
  oneOrNone (← lookup .users fun u => u.id == userId)

/-- `get_by_username`; `lower` is the database's. -/
def getByUsername (env : Env) (username : String) : LookupM (Option User) := do
  oneOrNone (← lookup .users fun u => u.username.map env.lower == some (env.lower username))

/-- What setting and clearing the selection assign: the user's row is flushed, with no
check that the user is a member there. -/
def setActive (userId : Uuid) (householdId : Option Uuid) : UserM Unit :=
  discard (UserM.update (fun u => u.id == userId) fun u =>
    .ok { u with activeHouseholdId := householdId })

/-- `set_active_household`, which commits. -/
def setActiveHousehold (userId householdId : Uuid) : UserM Unit := do
  setActive userId (some householdId)
  UserM.commit

/-- `clear_active_household`, which commits. -/
def clearActiveHousehold (userId : Uuid) : UserM Unit := do
  setActive userId none
  UserM.commit

/-- `update_password_hash`. -/
def updatePasswordHash (userId : Uuid) (newHash : String) : UserM Unit :=
  discard (UserM.update (fun u => u.id == userId) fun u =>
    .ok { u with passwordHash := some newHash })

end UserRepo

namespace HouseholdRepo

/-! ### Households -/

/-- A name as its column takes it. -/
def householdName (name : String) : Except StmtError String := do
  notNull (← asText (.str name))

/-- `create_household`: the household and its creator as admin. -/
def createHousehold (env : Env) (name : String) (createdBy : Uuid) : AccountM Household := do
  let household ← AccountM.insert .households fun id => do
    return { id, name := ← householdName name, createdAt := env.now, createdBy,
             isGuestAccessible := false, deletedAt := none }
  let household ← AccountM.refresh .households household
  discard (AccountM.insert .householdMembers fun id =>
    .ok { id, householdId := household.id, userId := createdBy, role := .admin, invitedBy := none,
          invitedAt := none, acceptedAt := none, joinedAt := env.now })
  return household

/-- The household, unless it is deleted. -/
def isLive (householdId : Uuid) (r : Household) : Bool :=
  r.id == householdId && r.deletedAt.isNone

/-- The household, unless it is deleted. -/
def getById (householdId : Uuid) : LookupM (Option Household) := do
  oneOrNone (← lookup .households (isLive householdId))

/-- What is raised of a household that is not there or deleted. -/
def householdNotFound : Exc := httpError 404 "Household not found"

/-- `rename`, by one conditional update. -/
def rename (householdId : Uuid) (name : String) : AccountM Household := do
  let renamed ← AccountM.update .households (isLive householdId) fun r => do
    return { r with name := ← householdName name }
  orRaise householdNotFound (← oneOrNone renamed)

/-! ### Members -/

/-- The membership of a user in a household. -/
def isMember (householdId userId : Uuid) (m : HouseholdMember) : Bool :=
  m.householdId == householdId && m.userId == userId

/-- The memberships of a household. -/
def ofHousehold (householdId : Uuid) (m : HouseholdMember) : Bool := m.householdId == householdId

/-- `get_member`. -/
def getMember (householdId userId : Uuid) : LookupM (Option HouseholdMember) := do
  oneOrNone (← lookup .householdMembers (isMember householdId userId))

/-- A membership with its household. -/
structure Membership where
  member : HouseholdMember
  household : Household
  deriving DecidableEq

/-- `ORDER BY lower(name), id`. -/
def alphabetic (env : Env) (ms : List Membership) : List Membership :=
  ms.mergeSort fun a b => env.collates a.household.name b.household.name &&
    (!env.collates b.household.name a.household.name ||
      decide (a.household.id.value ≤ b.household.id.value))

/-- The memberships of a user in households that are not deleted. -/
def getMembershipsForUser (env : Env) (userId : Uuid) : LookupM (List Membership) := do
  let rows ← lookupJoin .householdMembers .households (fun m r => r.id == m.householdId)
    fun m => m.userId == userId
  return alphabetic env <| rows.filterMap fun x =>
    (x.2.filter fun r => r.deletedAt.isNone).map fun r => ⟨x.1, r⟩

/-- `get_memberships_with_households_for_user`: also the number of members of each. -/
def getMembershipsWithHouseholdsForUser (env : Env) (userId : Uuid) :
    LookupM (List (Membership × Nat)) := do
  let memberships ← getMembershipsForUser env userId
  if memberships = [] then
    return []
  let ids := memberships.map fun m => m.member.householdId
  let counted ← lookup .householdMembers fun m => ids.contains m.householdId
  return memberships.map fun m => (m, counted.countP (ofHousehold m.member.householdId))

/-- `add_member`: the row names the invitation's inviter, and both times are now.
Nothing is counted here. -/
def addMember (env : Env) (invitation : PendingInvitation) (userId : Uuid) :
    AccountM HouseholdMember := do
  let member ← AccountM.insert .householdMembers fun id =>
    .ok { id, householdId := invitation.householdId, userId, role := invitation.invitedRole,
          invitedBy := some invitation.invitedByUserId, invitedAt := some invitation.invitedAt,
          acceptedAt := some env.now, joinedAt := env.now }
  AccountM.refresh .householdMembers member

/-- The admins of a household. -/
def isAdmin (householdId : Uuid) (m : HouseholdMember) : Bool :=
  m.householdId == householdId && m.role == .admin

/-- `count_admins`. -/
def countAdmins (householdId : Uuid) : LookupM Nat := do
  return (← lookup .householdMembers (isAdmin householdId)).length

/-- `count_members`: a plain count, under no lock. -/
def countMembers (householdId : Uuid) : LookupM Nat := do
  return (← lookup .householdMembers (ofHousehold householdId)).length

/-- `get_members`. -/
def getMembers (householdId : Uuid) : LookupM (List HouseholdMember) :=
  lookup .householdMembers (ofHousehold householdId)

/-- `remove_member`. Who is no member is left alone, and the sole admin stays. -/
def removeMember (householdId userId : Uuid) : AccountM Unit := do
  match ← getMember householdId userId with
  | none => return
  | some member =>
      if member.role = .admin then
        if (← countAdmins householdId) ≤ 1 then
          throw (httpError 409 "Cannot remove the sole admin")
      discard (AccountM.delete .householdMembers (isMember householdId userId))

/-- `update_member_role`. The sole admin cannot be made a member. -/
def updateMemberRole (householdId userId : Uuid) (newRole : Role) : AccountM HouseholdMember := do
  let member ← orRaise (httpError 404 "Member not found") (← getMember householdId userId)
  if member.role = .admin ∧ newRole ≠ .admin then
    if (← countAdmins householdId) ≤ 1 then
      throw (httpError 409 "Cannot remove sole admin role")
  discard (AccountM.update .householdMembers (isMember householdId userId) fun m =>
    .ok { m with role := newRole })
  orRaise .assertionError (← getMember householdId userId)

/-- `repair_active_households_for_users`. -/
def repairActiveHouseholdsForUsers (env : Env) (userIds : List Uuid) : UserM Unit :=
  userIds.forM fun userId => do
    let fallback ← getMembershipsForUser env userId
    UserRepo.setActive userId (fallback.head?.map fun m => m.member.householdId)

theorem id_of_isLive {h : Uuid} {r : Household} (hr : isLive h r = true) : r.id = h := by
  simp only [isLive, Bool.and_eq_true, beq_iff_eq] at hr
  exact hr.1

/-- `hard_delete`: the members are read before the household goes with all that belongs
to it, and their selections are repaired afterwards. -/
def hardDelete (env : Env) (householdId : Uuid) : DissolveM householdId Unit := do
  let members ← getMembers householdId
  let deleted ← deleteHouseholds (isLive householdId) fun _ => id_of_isLive
  if deleted = [] then
    throw householdNotFound
  repairActiveHouseholdsForUsers env (members.map fun m => m.userId)

/-! ### Invitations -/

/-- `_MEMBER_LIMIT`. -/
def memberLimit : Nat := 10

/-- What is raised where the limit is reached. -/
def householdFull : Exc := httpError 409 "Household has reached the maximum of 10 members."

/-- A pending invitation of the household to the address that is still open. -/
def isOpenInvitation (env : Env) (householdId : Uuid) (email : String) (i : PendingInvitation) :
    Bool :=
  i.householdId == householdId && i.invitedEmail.map env.lower == some email &&
    i.status == .pending && decide (env.now.rank < i.expiresAt.rank)

/-- The checks of `create_invitation` on an address. -/
def checkAddress (env : Env) (householdId : Uuid) (email : String) : LookupM Unit := do
  let duplicate ← oneOrNone (← lookup .pendingInvitations (isOpenInvitation env householdId email))
  if duplicate.isSome then
    throw (httpError 409 "An invitation to this address is already pending.")
  let members ← lookupJoin .householdMembers .users (fun m u => u.id == m.userId)
    (ofHousehold householdId)
  let existing ← oneOrNone (members.filter fun x =>
    (x.2.bind User.email).map env.lower == some email)
  if existing.isSome then
    throw (httpError 409 "User is already a member of this household.")

/-- A token as it is stored: its hash, and the text to display again if it could be
encrypted. -/
structure InvitationToken where
  tokenHash : String
  displayTokenCiphertext : Option String

/-- `create_invitation`: checks of the members, of the last 24 hours and of the address,
then the row, which is valid for 72 hours. -/
def createInvitation (env : Env) (householdId invitedBy : Uuid) (invitedEmail : Option String)
    (invitedRole : Role) (token : InvitationToken) : AccountM PendingInvitation := do
  if memberLimit ≤ (← countMembers householdId) then
    throw householdFull
  let recent ← lookup .pendingInvitations fun i =>
    i.householdId == householdId && i.invitedByUserId == invitedBy &&
      decide ((env.hoursAgo 24).rank ≤ i.invitedAt.rank) &&
      (i.status == .pending || i.status == .accepted)
  if 10 ≤ recent.length then
    throw (httpError 429 "Invitation rate limit exceeded for this household.")
  let email := (invitedEmail.filter (· ≠ "")).map fun e => env.lower (strip e)
  match email with
  | some e => checkAddress env householdId e
  | none => pure ()
  let invitation ← AccountM.insert .pendingInvitations fun id => do
    return { id, householdId, invitedEmail := ← asText (ofOption email), invitedRole,
             status := .pending, tokenHash := token.tokenHash,
             displayTokenCiphertext := token.displayTokenCiphertext, invitedByUserId := invitedBy,
             invitedAt := env.now, expiresAt := env.hoursAhead 72, acceptedAt := none,
             revokedAt := none }
  AccountM.refresh .pendingInvitations invitation

/-- `get_invitation_by_token_hash`. -/
def getInvitationByTokenHash (tokenHash : String) : LookupM (Option PendingInvitation) := do
  oneOrNone (← lookup .pendingInvitations fun i => i.tokenHash == tokenHash)

/-- `get_invitation_by_id`, of any household and status. -/
def getInvitationById (invitationId : Uuid) : LookupM (Option PendingInvitation) := do
  oneOrNone (← lookup .pendingInvitations fun i => i.id == invitationId)

/-- What is raised of an invitation that was accepted or revoked in the meantime. -/
def noLongerPending : Exc := httpError 410 "Invitation is no longer pending"

/-- `accept_invitation`: the status is a condition of the update, so that of two that
accept one finds no row. -/
def acceptInvitation (env : Env) (invitationId : Uuid) : AccountM Unit := do
  let accepted ← AccountM.update .pendingInvitations
    (fun i => i.id == invitationId && (i.status == .pending || i.status == .declined)) fun i =>
      .ok { i with status := .accepted, acceptedAt := some env.now }
  if List.isEmpty accepted then
    throw noLongerPending

/-- What is raised of an invitation that is not there. -/
def invitationNotFound : Exc := httpError 404 "Invitation not found"

/-- `revoke_invitation`. The status is read first, and the update does not ask for it
again. -/
def revokeInvitation (env : Env) (invitationId : Uuid) : AccountM Unit := do
  let invitation ← getInvitationById invitationId
  if invitation.map PendingInvitation.status = some .accepted then
    throw (httpError 409 "Accepted invitations cannot be revoked")
  let revoked ← AccountM.update .pendingInvitations (fun i => i.id == invitationId) fun i =>
    .ok { i with status := .revoked, revokedAt := some env.now }
  if List.isEmpty revoked then
    throw invitationNotFound

/-- `resend_invitation`: with a new token the row is pending again, whatever it has
become since its status was read. -/
def resendInvitation (env : Env) (invitationId : Uuid) (token : InvitationToken) :
    AccountM PendingInvitation := do
  let invitation ← orRaise invitationNotFound (← getInvitationById invitationId)
  if invitation.status = .accepted then
    throw (httpError 409 "Accepted invitations cannot be resent")
  let resent ← AccountM.update .pendingInvitations (fun i => i.id == invitationId) fun i =>
    .ok { i with expiresAt := env.hoursAhead 72, status := .pending, tokenHash := token.tokenHash,
                 displayTokenCiphertext := token.displayTokenCiphertext, acceptedAt := none,
                 revokedAt := none }
  orRaise .multipleResults (← oneOrNone resent)

/-- The pending and revoked invitations of a household, latest first. -/
def getInvitationsForHousehold (householdId : Uuid) : LookupM (List PendingInvitation) := do
  let rows ← lookup .pendingInvitations fun i =>
    i.householdId == householdId && (i.status == .pending || i.status == .revoked)
  return rows.mergeSort fun a b => decide (b.invitedAt.rank ≤ a.invitedAt.rank)

/-! ### Guest tokens -/

/-- The flag of a household that it has a guest link. -/
def setGuestAccessible (householdId : Uuid) (accessible : Bool) : AccountM Unit :=
  discard (AccountM.update .households (fun r => r.id == householdId) fun r =>
    .ok { r with isGuestAccessible := accessible })

/-- `create_guest_token`: a row that does not expire, and the flag. -/
def createGuestToken (env : Env) (householdId createdBy : Uuid) (token : InvitationToken) :
    AccountM GuestToken := do
  -- the added token is flushed with the first statement that follows
  let row ← AccountM.insert .guestTokens fun id =>
    .ok { id, householdId, tokenHash := token.tokenHash,
          displayTokenCiphertext := token.displayTokenCiphertext, createdByUserId := createdBy,
          createdAt := env.now, expiresAt := none, revokedAt := none }
  setGuestAccessible householdId true
  AccountM.refresh .guestTokens row

/-- The token has not run out. -/
def notExpired (env : Env) (g : GuestToken) : Bool :=
  match g.expiresAt with
  | some e => decide (env.now.rank < e.rank)
  | none => true

/-- `get_guest_token_by_hash`: neither revoked nor run out. -/
def getGuestTokenByHash (env : Env) (tokenHash : String) : LookupM (Option GuestToken) := do
  oneOrNone (← lookup .guestTokens fun g =>
    g.tokenHash == tokenHash && g.revokedAt.isNone && notExpired env g)

/-- The one that tells a token that has run out from one that is not there. -/
def getGuestTokenByHashIncludeExpired (tokenHash : String) : LookupM (Option GuestToken) := do
  oneOrNone (← lookup .guestTokens fun g => g.tokenHash == tokenHash && g.revokedAt.isNone)

/-- `get_active_guest_token`: the latest one that works. -/
def getActiveGuestToken (env : Env) (householdId : Uuid) : LookupM (Option GuestToken) := do
  let rows ← lookup .guestTokens fun g =>
    g.householdId == householdId && g.revokedAt.isNone && notExpired env g
  return (rows.mergeSort fun a b => decide (b.createdAt.rank ≤ a.createdAt.rank)).head?

/-- All open tokens of the household are revoked. -/
def revokePreviousGuestTokens (env : Env) (householdId : Uuid) : AccountM Unit :=
  discard (AccountM.update .guestTokens
    (fun g => g.householdId == householdId && g.revokedAt.isNone) fun g =>
      .ok { g with revokedAt := some env.now })

/-- `revoke_guest_tokens`: the tokens and the flag. -/
def revokeGuestTokens (env : Env) (householdId : Uuid) : AccountM Unit := do
  revokePreviousGuestTokens env householdId
  setGuestAccessible householdId false

end HouseholdRepo

end EspressoLogs
