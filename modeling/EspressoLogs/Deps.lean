import EspressoLogs.Repos.Household
import EspressoLogs.Responses

/-!
The dependencies of the endpoints: who calls, for which household, and the
context that row-level security is given before an endpoint runs.
-/

namespace EspressoLogs

open Lib Py

/-- `current_user`; `caller` is the subject of a valid access token. -/
def currentUser (caller : Option Uuid) : LookupM User := do
  let userId ← orRaise (httpError 401 "Not authenticated") caller
  orRaise (httpError 401 "User not found") (← UserRepo.getById userId)

/-- The first of a user's households, which becomes the active one. -/
def fallbackMembership (env : Env) (user : User) : UserM HouseholdMember := do
  let memberships ← HouseholdRepo.getMembershipsForUser env user.id
  let fallback ← orRaise (httpError 403 "User has no household memberships") memberships.head?
  UserRepo.setActiveHousehold user.id fallback.member.householdId
  return fallback.member

/-- `_resolve_membership_for_user`. -/
def resolveMembershipForUser (env : Env) (user : User) : UserM HouseholdMember := do
  match user.activeHouseholdId with
  | none => fallbackMembership env user
  | some active =>
      let membership ← HouseholdRepo.getMember active user.id
      let household ← HouseholdRepo.getById active
      match membership, household with
      | some m, some _ => return m
      | _, _ =>
          UserRepo.clearActiveHousehold user.id
          fallbackMembership env user

/-- `current_household_membership`: the membership that a request of the caller acts
for. -/
def callerMembership (env : Env) (caller : Option Uuid) : UserM HouseholdMember := do
  resolveMembershipForUser env (← currentUser caller)

/-- An endpoint with the household it runs for as its context. -/
def inContext (h : Uuid) (endpoint : TenantM h Response) : AppM Response :=
  TenantM.asApp (do
    setConfig h
    endpoint)

/-- `current_household_membership`, and the endpoint that depends on it. -/
def asMember (env : Env) (caller : Option Uuid)
    (endpoint : (m : HouseholdMember) → TenantM m.householdId Response) : AppM Response := do
  let m ← callerMembership env caller
  inContext m.householdId (endpoint m)

/-- What `require_admin` raises for other members. -/
def adminRequired : Exc := httpError 403 "Admin role required"

/-- `require_admin`. -/
def requireAdmin (m : HouseholdMember)
    (endpoint : TenantM m.householdId Response) : TenantM m.householdId Response := do
  if m.role ≠ .admin then
    throw adminRequired
  endpoint

theorem requireAdmin_of_admin {m : HouseholdMember} (hm : m.role = .admin)
    (endpoint : TenantM m.householdId Response) : requireAdmin m endpoint = endpoint := by
  simp only [requireAdmin, hm, ne_eq, not_true_eq_false, if_false]

theorem requireAdmin_of_member {m : HouseholdMember} (hm : m.role ≠ .admin)
    (endpoint : TenantM m.householdId Response) :
    requireAdmin m endpoint = throw adminRequired := by
  simp only [requireAdmin, ne_eq, hm, not_false_eq_true, if_true]
  rfl

/-- The token of a guest link, by the hash of what the URL carries. -/
def guestToken (env : Env) (raw : String) : LookupM GuestToken := do
  orRaise (httpError 401 "Invalid or expired guest token")
    (← HouseholdRepo.getGuestTokenByHash env (env.sha256Hex raw))

/-- `resolve_guest_or_member`; `guestKey` is the `guest` or `key` parameter. -/
def asGuestOrMember (env : Env) (guestKey : Option String) (caller : Option Uuid)
    (endpoint : (h : Uuid) → TenantM h Response) : AppM Response :=
  match guestKey with
  | some raw => do
      let token ← guestToken env raw
      inContext token.householdId (endpoint token.householdId)
  | none => asMember env caller fun m => endpoint m.householdId

end EspressoLogs
