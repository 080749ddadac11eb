import EspressoLogs.Deps

/-!
The household endpoints: households, invitations, members and guest tokens.

Those that need a membership run inside `asMember`; the others are programs of
their own.
-/

namespace EspressoLogs

open Lib Py

/-! ### Households -/

/-- The name of a household in a request, stripped. -/
def checkName (name : String) : Except Exc String :=
  let name := strip name
  if 1 ≤ name.length ∧ name.length ≤ 64 then .ok name
  else .error (.http 422 (.invalid ["body", "name"]
    "Value error, Household name must be 1–64 characters"))

/-- `POST /api/households`. -/
def createHousehold (env : Env) (caller : Option Uuid) (name : String) : AccountM Response := do
  let user ← currentUser caller
  let name ← liftExcept (checkName name)
  let household ← HouseholdRepo.createHousehold env name user.id
  UserRepo.setActiveHousehold user.id household.id
  AccountM.commit
  let household ← AccountM.refresh .households household
  return ⟨201, .household household.id household.name household.createdAt .admin⟩

/-- A membership as `_membership_outputs` lists it, with the number of members. -/
def membershipOut (active : Option Uuid) (m : HouseholdRepo.Membership × Nat) : MembershipOut where
  householdId := m.1.member.householdId
  householdName := m.1.household.name
  role := m.1.member.role
  joinedAt := m.1.member.joinedAt
  memberCount := m.2
  isActive := some m.1.member.householdId == active
  canManage := m.1.member.role == .admin

/-- `_membership_outputs`, with the repair of the active household. -/
def membershipOutputs (env : Env) (user : User) : UserM (List MembershipOut) := do
  let memberships ← HouseholdRepo.getMembershipsWithHouseholdsForUser env user.id
  let ids := memberships.map fun m => m.1.member.householdId
  if memberships = [] ∧ user.activeHouseholdId.isSome then
    UserRepo.clearActiveHousehold user.id
  let active ← match ids with
    | [] => pure none
    | first :: _ =>
        if ids.any fun h => user.activeHouseholdId == some h then pure user.activeHouseholdId
        else do
          UserRepo.setActiveHousehold user.id first
          pure (some first)
  return memberships.map (membershipOut active)

/-- `GET /api/households/me`. -/
def listMyHouseholds (env : Env) (caller : Option Uuid) : UserM Response := do
  let user ← currentUser caller
  return ⟨200, .memberships (← membershipOutputs env user)⟩

def notAdminHere : Exc := httpError 403 "Not an admin of this household"

/-- The endpoints below a household's own path are for the active household. -/
def checkHere {P : Statement → Prop} (m : HouseholdMember) (householdId : Uuid) (e : Exc) :
    CodeM P Unit :=
  if m.householdId ≠ householdId then throw e else pure ()

/-- `PATCH /api/households/{household_id}`. -/
def renameHousehold (householdId : Uuid) (name : String) (m : HouseholdMember) :
    AccountM Response := do
  let name ← liftExcept (checkName name)
  checkHere m householdId notAdminHere
  let household ← HouseholdRepo.rename householdId name
  AccountM.commit
  return ⟨200, .household household.id household.name household.createdAt m.role⟩

/-- `DELETE /api/households/{household_id}`, confirmed by the name. -/
def deleteHousehold (env : Env) (householdId : Uuid) (confirmName : String)
    (m : HouseholdMember) : DissolveM m.householdId Response := do
  checkHere m householdId notAdminHere
  let household ← orRaise HouseholdRepo.householdNotFound (← HouseholdRepo.getById householdId)
  if confirmName ≠ household.name then
    throw (httpError 409 "Household name confirmation does not match")
  -- the household of the path is by now that of the membership
  HouseholdRepo.hardDelete env m.householdId
  AccountM.commit
  return ⟨204, .empty⟩

/-! ### Invitations -/

/-- The token of a link, its hash and its ciphertext; without a key there is none. -/
def linkToken (env : Env) : Except Exc HouseholdRepo.InvitationToken :=
  match env.encryptToken env.rawToken with
  | some ciphertext => .ok ⟨env.sha256Hex env.rawToken, some ciphertext⟩
  | none => .error .runtimeError

/-- `POST /api/households/invitations`. -/
def createInvite (env : Env) (invitedEmail : Option String) (invitedRole : Role)
    (m : HouseholdMember) : AccountM Response := do
  let invitedEmail := invitedEmail.bind fun e =>
    let e := env.lower (strip e)
    if e = "" then none else some e
  let token ← liftExcept (linkToken env)
  let invitation ← HouseholdRepo.createInvitation env m.householdId m.userId invitedEmail
    invitedRole token
  AccountM.commit
  let invitation ← AccountM.refresh .pendingInvitations invitation
  return ⟨201, .invitation invitation.id env.rawToken invitation.expiresAt invitation.invitedEmail
    invitation.invitedRole⟩

/-- `_status_is_accept_available`. -/
def acceptAvailable (i : PendingInvitation) : Bool := i.status == .pending || i.status == .declined

/-- The checks that preview, accept and decline share: not run out, and neither
accepted nor revoked. -/
def checkInvitation (env : Env) (i : PendingInvitation) : Except Exc Unit :=
  if i.expiresAt.rank < env.now.rank then .error (httpError 410 "Invitation expired")
  else if acceptAvailable i then .ok ()
  else match i.status with
    | .accepted => .error (httpError 409 "Invitation has already been accepted")
    | .revoked => .error HouseholdRepo.noLongerPending
    | .pending | .declined => .ok ()

/-- The invitation behind a link, checked. -/
def openInvitation (env : Env) (token : String) : LookupM PendingInvitation := do
  let invitation ← orRaise HouseholdRepo.invitationNotFound
    (← HouseholdRepo.getInvitationByTokenHash (env.sha256Hex token))
  liftExcept (checkInvitation env invitation)
  return invitation

def householdGone : Exc := httpError 410 "Household is no longer available"

/-- `GET /api/households/invitations/{token}`. -/
def previewInvitation (env : Env) (token : String) : AccountM Response := do
  let invitation ← openInvitation env token
  let household ← orRaise householdGone (← HouseholdRepo.getById invitation.householdId)
  let inviter ← UserRepo.getById invitation.invitedByUserId
  return ⟨200, .invitationPreview household.name
    ((inviter.map User.displayName).getD "Household admin") invitation.invitedRole
    invitation.expiresAt⟩

/-- `POST /api/households/invitations/{token}/accept`. -/
def acceptInvite (env : Env) (caller : Option Uuid) (token : String) : AccountM Response := do
  let user ← currentUser caller
  let invitation ← openInvitation env token
  let householdId := invitation.householdId
  let household ← orRaise householdGone (← HouseholdRepo.getById householdId)
  if (← HouseholdRepo.getMember householdId user.id).isSome then
    throw (httpError 409 "Already a member of this household")
  if HouseholdRepo.memberLimit ≤ (← HouseholdRepo.countMembers householdId) then
    throw HouseholdRepo.householdFull
  discard (HouseholdRepo.addMember env invitation user.id)
  HouseholdRepo.acceptInvitation env invitation.id
  UserRepo.setActive user.id (some householdId)
  AccountM.commit
  return ⟨200, .accepted householdId household.name invitation.invitedRole⟩

/-- `POST /api/households/invitations/{token}/decline`, which only checks that the
invitation is open. -/
def declineInvitation (env : Env) (token : String) : AccountM Response := do
  discard (openInvitation env token)
  return ⟨204, .empty⟩

/-- The invitation with that id, when it is one of the household. -/
def invitationOf (householdId invitationId : Uuid) : LookupM PendingInvitation := do
  let invitation ← HouseholdRepo.getInvitationById invitationId
  orRaise HouseholdRepo.invitationNotFound
    (invitation.filter fun i => decide (i.householdId = householdId))

/-- `DELETE /api/households/invitations/{invitation_id}`. -/
def revokeInvitation (env : Env) (invitationId : Uuid) (m : HouseholdMember) :
    AccountM Response := do
  discard (invitationOf m.householdId invitationId)
  HouseholdRepo.revokeInvitation env invitationId
  AccountM.commit
  return ⟨204, .empty⟩

/-- `POST /api/households/invitations/{invitation_id}/resend`: a new token and a new
time. -/
def resendInvitation (env : Env) (invitationId : Uuid) (m : HouseholdMember) :
    AccountM Response := do
  discard (invitationOf m.householdId invitationId)
  let token ← liftExcept (linkToken env)
  let invitation ← HouseholdRepo.resendInvitation env invitationId token
  AccountM.commit
  return ⟨200, .invitation invitation.id env.rawToken invitation.expiresAt invitation.invitedEmail
    invitation.invitedRole⟩

/-! ### Members -/

/-- `DELETE /api/households/members/{user_id}`. -/
def removeMember (env : Env) (userId : Uuid) (m : HouseholdMember) : AccountM Response := do
  if m.userId = userId then
    throw (httpError 403 "You cannot remove yourself from the household.")
  HouseholdRepo.removeMember m.householdId userId
  HouseholdRepo.repairActiveHouseholdsForUsers env [userId]
  AccountM.commit
  return ⟨204, .empty⟩

/-- `PATCH /api/households/members/{user_id}`: an admin does not give up the own role. -/
def updateMemberRole (userId : Uuid) (role : Role) (m : HouseholdMember) : AccountM Response := do
  if m.userId = userId ∧ role ≠ .admin then
    throw (httpError 409 "Every household needs at least one admin.")
  let updated ← HouseholdRepo.updateMemberRole m.householdId userId role
  AccountM.commit
  return ⟨200, .updatedMember updated.userId updated.role updated.joinedAt⟩

/-! ### Guest tokens -/

/-- `POST /api/households/{household_id}/guest-token`: the link before it is revoked. -/
def generateGuestToken (env : Env) (householdId : Uuid) (m : HouseholdMember) :
    AccountM Response := do
  checkHere m householdId notAdminHere
  HouseholdRepo.revokePreviousGuestTokens env householdId
  let token ← liftExcept (linkToken env)
  let guestToken ← HouseholdRepo.createGuestToken env householdId m.userId token
  AccountM.commit
  return ⟨201, .guestToken env.rawToken guestToken.createdAt⟩

/-- `DELETE /api/households/{household_id}/guest-token`, which answers the same without
a link. -/
def revokeGuestToken (env : Env) (householdId : Uuid) (m : HouseholdMember) :
    AccountM Response := do
  checkHere m householdId notAdminHere
  HouseholdRepo.revokeGuestTokens env householdId
  AccountM.commit
  return ⟨204, .empty⟩

/-! ### Detail -/

/-- A member as the household's page shows it. -/
def memberOut (self : Uuid) (m : HouseholdMember) (user : Option User) : MemberOut where
  userId := m.userId
  username := user.bind User.username
  displayName := (user.map User.displayName).getD "Household member"
  email := user.bind User.email
  pictureUrl := user.bind User.pictureUrl
  role := m.role
  joinedAt := m.joinedAt
  isSelf := m.userId == self

/-- An invitation as it is listed; its link is shown while it is open. -/
def invitationOut (env : Env) (i : PendingInvitation) : PendingInvitationOut :=
  let expired := decide (i.expiresAt.rank ≤ env.now.rank)
  { invitationId := i.id
    label := (i.invitedEmail.filter (· ≠ "")).getD "Link-only invitation"
    invitedRole := i.invitedRole
    expired
    invitedAt := i.invitedAt
    expiresAt := i.expiresAt
    token := if expired then none
      else (env.decryptToken i.displayTokenCiphertext).filter (· ≠ "") }

/-- What only an admin is shown. -/
def adminDetail (env : Env) (householdId : Uuid) : LookupM HouseholdAdminOut := do
  let guest ← HouseholdRepo.getActiveGuestToken env householdId
  let invitations ← HouseholdRepo.getInvitationsForHousehold householdId
  return {
    guestAccess := guest.map fun g =>
      ((env.decryptToken g.displayTokenCiphertext).filter (· ≠ ""), g.createdAt)
    pendingInvitations := (invitations.filter acceptAvailable).map (invitationOut env) }

def getHousehold (env : Env) (householdId : Uuid) (m : HouseholdMember) : AccountM Response := do
  let household ← orRaise HouseholdRepo.householdNotFound (← HouseholdRepo.getById householdId)
  checkHere m householdId (httpError 403 "Not a member of this household")
  let rawMembers ← HouseholdRepo.getMembers householdId
  let memberCount ← HouseholdRepo.countMembers householdId
  let members ← rawMembers.mapM fun r => do
    return memberOut m.userId r (← (UserRepo.getById r.userId : AccountM (Option User)))
  let forAdmin ← if m.role = .admin then some <$> (adminDetail env householdId : AccountM _)
    else pure none
  return ⟨200, .householdDetail {
    id := household.id
    name := household.name
    createdAt := household.createdAt
    role := m.role
    memberCount
    members
    forAdmin }⟩

end EspressoLogs
