import EspressoLogs.Routers.Overview
import EspressoLogs.Runs

/-!
The API: every endpoint as a request, and what serving a request does.

A request is served in a session of its own. Its exceptions become responses,
and what it has not committed by its end is gone.
-/

namespace EspressoLogs

open Lib Py

/-- The requests of endpoints that depend on the caller's membership. -/
inductive MemberRequest where
  | brewLogFeedback (shotId : String)
  | brewLogDetail (shotId : String)
  | brewLogPatch (shotId : String) (body : BrewLogPatchBody)
  | brewLogFeedbackGenerate (shotId : String)
  | brewLogCreate (body : BrewLogCreateBody)
  | brewLogDelete (shotId : String)
  | catalogList
  | catalogDetail (catalogId : String)
  | catalogCreate (body : CatalogCreateBody)
  | catalogUpdate (catalogId : String) (body : CatalogUpdateBody)
  | catalogInfer (found : CatalogItemOut)
  | catalogUploadImage (catalogId : String) (file : ImageUpload) (stored : Option String)
  | catalogAddBag (catalogId : String) (body : BagCreateBody)
  | inventoryList (status : Option String)
  | inventoryDetail (bagId : String)
  | inventoryPatch (bagId status : String)
  | hardwareActionTypes
  | hardwareList
  | hardwareDetail (hardwareId : String)
  | hardwareCreate (body : HardwareCreateBody)
  | hardwareUpdate (hardwareId : String) (body : HardwareUpdateBody)
  | maintenanceList (hardwareId : Option String)
  | maintenanceCreate (body : MaintenanceCreateBody)
  | dashboard
  | defaults (bagId : String) (basketId : Option String)
  | defaultsQuery (bagId : String)
  | householdDetail (householdId : Uuid)
  | householdRename (householdId : Uuid) (name : String)
  | householdDelete (householdId : Uuid) (confirmName : String)
  | invitationCreate (invitedEmail : Option String) (invitedRole : Role)
  | invitationRevoke (invitationId : Uuid)
  | invitationResend (invitationId : Uuid)
  | memberRemove (userId : Uuid)
  | memberUpdateRole (userId : Uuid) (role : Role)
  | guestTokenGenerate (householdId : Uuid)
  | guestTokenRevoke (householdId : Uuid)
  | resetPassword (username newPassword newHash : String)
  | importStart

/-- The endpoint of a request, run for a membership. `archive` holds the
`Hardware_ID`s of the Sheets archive. -/
def MemberRequest.endpoint (env : Env) (archive : List String) (m : HouseholdMember) :
    MemberRequest → TenantM m.householdId Response
  | brewLogFeedback shotId => apiBrewLogFeedback shotId
  | brewLogDetail shotId => apiBrewLogDetail shotId
  | brewLogPatch shotId body => apiBrewLogPatch shotId body
  | brewLogFeedbackGenerate shotId => apiBrewLogFeedbackGenerate env shotId
  | brewLogCreate body => apiBrewLogCreate env body
  | brewLogDelete shotId => requireAdmin m (apiBrewLogDelete shotId)
  | catalogList => apiCatalogList
  | catalogDetail catalogId => apiCatalogDetail catalogId
  | catalogCreate body => apiCatalogCreate env body
  | catalogUpdate catalogId body => apiCatalogUpdate env catalogId body
  | catalogInfer found => apiCatalogInfer found
  | catalogUploadImage catalogId file stored => apiCatalogUploadImage catalogId file stored
  | catalogAddBag catalogId body => apiCatalogAddBag env catalogId body
  | inventoryList status => apiInventoryList status
  | inventoryDetail bagId => apiInventoryDetail bagId
  | inventoryPatch bagId status => apiInventoryPatch bagId status
  | hardwareActionTypes => apiHardwareActionTypes
  | hardwareList => apiHardwareList
  | hardwareDetail hardwareId => apiHardwareDetail hardwareId
  | hardwareCreate body => apiHardwareCreate env archive body
  | hardwareUpdate hardwareId body => apiHardwareUpdate hardwareId body
  | maintenanceList hardwareId => apiMaintenanceList hardwareId
  | maintenanceCreate body => apiMaintenanceCreate env body
  | dashboard => apiDashboard env
  | defaults bagId basketId => apiGetDefaults bagId basketId
  | defaultsQuery bagId => getDefaultsApi bagId
  | householdDetail householdId => (getHousehold env householdId m : AccountM Response)
  | householdRename householdId name =>
      requireAdmin m (renameHousehold householdId name m : AccountM Response)
  | householdDelete householdId confirmName =>
      requireAdmin m (deleteHousehold env householdId confirmName m : DissolveM _ Response)
  | invitationCreate email role => requireAdmin m (createInvite env email role m : AccountM Response)
  | invitationRevoke id => requireAdmin m (revokeInvitation env id m : AccountM Response)
  | invitationResend id => requireAdmin m (resendInvitation env id m : AccountM Response)
  | memberRemove userId => requireAdmin m (removeMember env userId m : AccountM Response)
  | memberUpdateRole userId role =>
      requireAdmin m (updateMemberRole userId role m : AccountM Response)
  | guestTokenGenerate householdId =>
      requireAdmin m (generateGuestToken env householdId m : AccountM Response)
  | guestTokenRevoke householdId =>
      requireAdmin m (revokeGuestToken env householdId m : AccountM Response)
  | resetPassword username newPassword newHash =>
      requireAdmin m (adminResetPassword env username newPassword newHash m : AccountM Response)
  | importStart => requireAdmin m (startImportWizard env m : AccountM Response)

/-- The requests. Those of sign-in and sign-out touch accounts only. -/
inductive Request where
  | member (caller : Option Uuid) (request : MemberRequest)
  | brewLogList (guestKey : Option String) (caller : Option Uuid) (page perPage : Int)
  | guestView (householdId : Uuid) (key : String)
  | householdCreate (caller : Option Uuid) (name : String)
  | householdList (caller : Option Uuid)
  | invitationPreview (token : String)
  | invitationAccept (caller : Option Uuid) (token : String)
  | invitationDecline (token : String)
  | me (caller : Option Uuid)
  | switchHousehold (caller : Option Uuid) (householdId : Uuid)
  | signIn (program : AccountM Response)

/-- The whole of a request, with the dependencies of its endpoint. -/
def Request.program (env : Env) (archive : List String) : Request → AppM Response
  | member caller request => asMember env caller fun m => request.endpoint env archive m
  | brewLogList guestKey caller page perPage =>
      asGuestOrMember env guestKey caller fun _ => apiBrewLogList page perPage
  | guestView householdId key => guestHouseholdView env householdId key
  | householdCreate caller name => createHousehold env caller name
  | householdList caller => listMyHouseholds env caller
  | invitationPreview token => previewInvitation env token
  | invitationAccept caller token => acceptInvite env caller token
  | invitationDecline token => declineInvitation env token
  | me caller => getMe env caller
  | switchHousehold caller householdId => EspressoLogs.switchHousehold caller householdId
  | signIn program => program

/-! ### Serving -/

/-- The committed rows of all tables. -/
abbrev State := Tables Table

/-- What is around a request: the outside world, the archive, the row ids its
inserts are given and the faults its statements meet. -/
structure Call where
  env : Env
  archive : List String
  supply : Nat → Uuid
  faults : List Bool

/-- The world in which a request begins. -/
def Call.start (c : Call) (db : State) : World Table :=
  { db, session := { Session.idle (T := Table) c.supply with faults := c.faults } }

/-- Serves a request: its response and the rows that are there afterwards. -/
def Call.serve (c : Call) (r : Request) (db : State) : Response × State :=
  let (result, w) := CodeM.run (r.program c.env c.archive) (c.start db)
  (respond result, w.db)

theorem Call.serve_eq {c : Call} {r : Request} {db : State} {result : Except Exc Response}
    {w : World Table} (h : CodeM.run (r.program c.env c.archive) (c.start db) = (result, w)) :
    c.serve r db = (respond result, w.db) := by
  simp only [serve, h]

/-- A call of the same request that meets no fault. -/
def Call.calm (c : Call) : Call := { c with faults := [] }

/-- Serves requests one after the other. -/
def serveAll : List (Call × Request) → State → State
  | [], db => db
  | (c, r) :: rest, db => serveAll rest (c.serve r db).2

/-! ### A small household

Ada, the admin of a household with one shot. -/

namespace Sample

def id (n : Nat) : Uuid := ⟨Fin.ofNat (2 ^ 128) n⟩

/-- The day of the samples. -/
def day : Date := ⟨2026, 1, 2, by decide⟩

/-- What a request of the samples finds outside the database: the time stands still,
texts are hashed to themselves and the model does not answer. -/
def env : Env where
  today := day
  now := .midnight day
  hoursAgo _ := .midnight ⟨2026, 1, 1, by decide⟩
  hoursAhead _ := .midnight ⟨2026, 1, 3, by decide⟩
  sha256Hex s := s
  floatRepr _ := "1.0"
  parseDatetime _ := none
  title s := s
  lower s := s
  collates a b := decide (a ≤ b)
  urlScheme _ := ""
  sourceBeanImage _ _ _ := ""
  storeImage _ _ := none
  llm _ := .llmError
  rawToken := "token"
  encryptToken s := some s
  decryptToken s := s
  expiredReadable := false

/-- Ada's household. -/
def household : Household :=
  { id := id 1, name := "Home", createdAt := .midnight day, createdBy := id 2,
    isGuestAccessible := false, deletedAt := none }

/-- A user with a selection. -/
def ada : User :=
  { id := id 2, username := some "ada", googleSub := none, email := some "ada@example.org",
    displayName := "Ada", pictureUrl := none, passwordHash := none,
    activeHouseholdId := some household.id }

/-- Ada is its admin. -/
def membership : HouseholdMember :=
  { id := id 3, householdId := household.id, userId := ada.id, role := .admin, invitedBy := none,
    invitedAt := none, acceptedAt := none, joinedAt := .midnight day }

/-- A shot of which little is known. -/
def shot : BrewLog :=
  { id := id 4, householdId := some household.id, brewMethod := none, doseG := none,
    yieldG := none, timeSec := none, rating := none, notes := none, sheetsId := some "S1",
    bagId := none, machineId := none, grinderId := none, basketId := none, grindSetting := none,
    shotEligibility := none, tasteSummary := none, aiFeedback := none, storageMethod := none,
    idempotencyKey := none, idempotencyRequestHash := none, brewedAt := .midnight day }

/-- One user, one household, one shot. -/
def db : State
  | .users => [ada]
  | .households => [household]
  | .householdMembers => [membership]
  | .brewLog => [shot]
  | _ => []

/-- A call in which no statement fails. -/
def call : Call := { env, archive := [], supply := fun n => id (100 + n), faults := [] }

/-- Ada's household in the middle of a request. -/
def serving : World Table :=
  { db, session := { Session.idle (T := Table) call.supply with context := some household.id } }

theorem keyed (t : Table) : t.Keyed (db t) := by
  cases t <;> simp [Table.Keyed, db]

end Sample

end EspressoLogs
