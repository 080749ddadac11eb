import EspressoLogs.Lib.Store
import EspressoLogs.Py.Value

/-!
The Postgres schema: the rows of each table and the constraints on them.

The columns are those that some modelled function reads or writes. The five
tenant tables are the ones under row-level security; the others are reached by
the household and account endpoints.
-/

namespace EspressoLogs

open Lib Py

/-- `household_members.role`. -/
inductive Role where
  | admin
  | member
  deriving DecidableEq, Repr

/-- `pending_invitations.status`. -/
inductive InvitationStatus where
  | pending
  | accepted
  | declined
  | revoked
  deriving DecidableEq, Repr

/-- `users`. The active household is a reference that is nulled when the household goes.
-/
structure User where
  id : Uuid
  username : Option String
  googleSub : Option String
  email : Option String
  displayName : String
  pictureUrl : Option String
  passwordHash : Option String
  activeHouseholdId : Option Uuid
  deriving DecidableEq, Repr

/-- `households`; a household with a deletion date is kept and not found any more. -/
structure Household where
  id : Uuid
  name : String
  createdAt : Timestamp
  createdBy : Uuid
  isGuestAccessible : Bool
  deletedAt : Option Timestamp
  deriving DecidableEq, Repr

/-- `household_members`. The invitation columns are null for who founded the household. -/
structure HouseholdMember where
  id : Uuid
  householdId : Uuid
  userId : Uuid
  role : Role
  invitedBy : Option Uuid
  invitedAt : Option Timestamp
  acceptedAt : Option Timestamp
  joinedAt : Timestamp
  deriving DecidableEq, Repr

/-- `pending_invitations`. Accepted and revoked ones stay in the table; the token is
stored as a hash, and encrypted to be shown again. -/
structure PendingInvitation where
  id : Uuid
  householdId : Uuid
  invitedEmail : Option String
  invitedRole : Role
  status : InvitationStatus
  tokenHash : String
  displayTokenCiphertext : Option String
  invitedByUserId : Uuid
  invitedAt : Timestamp
  expiresAt : Timestamp
  acceptedAt : Option Timestamp
  revokedAt : Option Timestamp
  deriving DecidableEq, Repr

/-- `guest_tokens`; revoked ones stay in the table. -/
structure GuestToken where
  id : Uuid
  householdId : Uuid
  tokenHash : String
  displayTokenCiphertext : Option String
  createdByUserId : Uuid
  createdAt : Timestamp
  expiresAt : Option Timestamp
  revokedAt : Option Timestamp
  deriving DecidableEq, Repr

/-- `import_sessions`, without the state of the wizard. -/
structure ImportSession where
  id : Uuid
  householdId : Uuid
  createdBy : Uuid
  expiresAt : Timestamp
  deriving DecidableEq, Repr

/-- `coffee_catalog`. The household is null in rows of before there were households. -/
structure CatalogBean where
  id : Uuid
  householdId : Option Uuid
  roaster : String
  beanName : String
  origin : Option String
  process : Option String
  roastLevel : Option String
  notes : Option String
  sheetsId : Option String
  productUrl : Option String
  localImagePath : Option String
  deriving DecidableEq, Repr

/-- `inventory_bags`. The catalog is referred to by row and, for rows that came from the
sheets, by sheet id. -/
structure InventoryBag where
  id : Uuid
  householdId : Option Uuid
  catalogId : Option Uuid
  roastDate : Option Date
  notes : Option String
  sheetsId : Option String
  sheetsCatalogId : Option String
  beans : Option String
  displayName : Option String
  roastLevel : Option String
  status : Option String
  storageMethod : Option String
  deriving DecidableEq, Repr

/-- `hardware`. -/
structure Hardware where
  id : Uuid
  householdId : Option Uuid
  name : String
  category : String
  notes : Option String
  sheetsId : Option String
  productUrl : Option String
  localImagePath : Option String
  deriving DecidableEq, Repr

/-- `maintenance_log`. The hardware is referred to by row and, for rows that came from
the sheets, by sheet id. -/
structure MaintenanceLog where
  id : Uuid
  householdId : Option Uuid
  hardwareId : Option Uuid
  action : String
  performedAt : Timestamp
  notes : Option String
  sheetsId : Option String
  sheetsHardwareId : Option String
  deriving DecidableEq, Repr

/-- `brew_log`. The numbers are those of `NUMERIC(5,1)` columns. -/
structure BrewLog where
  id : Uuid
  householdId : Option Uuid
  brewMethod : Option String
  doseG : Option Tenths
  yieldG : Option Tenths
  timeSec : Option Int
  rating : Option Int
  notes : Option String
  sheetsId : Option String
  bagId : Option String
  machineId : Option String
  grinderId : Option String
  basketId : Option String
  grindSetting : Option Tenths
  shotEligibility : Option String
  tasteSummary : Option String
  aiFeedback : Option String
  storageMethod : Option String
  idempotencyKey : Option String
  idempotencyRequestHash : Option String
  brewedAt : Timestamp
  deriving DecidableEq, Repr

/-- The tables of the schema. -/
inductive Table where
  | users
  | households
  | householdMembers
  | pendingInvitations
  | guestTokens
  | importSessions
  | catalog
  | inventoryBags
  | hardware
  | maintenanceLog
  | brewLog
  deriving DecidableEq, Repr

/-- The entries of the unique indexes. -/
inductive UniqueEntry where
  | username (name : String)
  | googleSub (sub : String)
  | member (household user : Uuid)
  | invitationToken (hash : String)
  | guestToken (hash : String)
  | activeGuestToken (household : Uuid)
  | sheetsId (t : Table) (id : String)
  | idempotencyKey (household : Uuid) (key : String)
  deriving DecidableEq, Repr

namespace Table

/-- What a row of each table is. -/
abbrev Row : Table → Type
  | users => User
  | households => Household
  | householdMembers => HouseholdMember
  | pendingInvitations => PendingInvitation
  | guestTokens => GuestToken
  | importSessions => ImportSession
  | catalog => CatalogBean
  | inventoryBags => InventoryBag
  | hardware => Hardware
  | maintenanceLog => MaintenanceLog
  | brewLog => BrewLog

/-- Rows are compared as a whole. -/
def decRow : (t : Table) → DecidableEq t.Row
  | users => inferInstanceAs (DecidableEq User)
  | households => inferInstanceAs (DecidableEq Household)
  | householdMembers => inferInstanceAs (DecidableEq HouseholdMember)
  | pendingInvitations => inferInstanceAs (DecidableEq PendingInvitation)
  | guestTokens => inferInstanceAs (DecidableEq GuestToken)
  | importSessions => inferInstanceAs (DecidableEq ImportSession)
  | catalog => inferInstanceAs (DecidableEq CatalogBean)
  | inventoryBags => inferInstanceAs (DecidableEq InventoryBag)
  | hardware => inferInstanceAs (DecidableEq Hardware)
  | maintenanceLog => inferInstanceAs (DecidableEq MaintenanceLog)
  | brewLog => inferInstanceAs (DecidableEq BrewLog)

instance (t : Table) : DecidableEq t.Row := t.decRow

/-- Every table, for what goes over all of them. -/
def all : List Table :=
  [users, households, householdMembers, pendingInvitations, guestTokens, importSessions, catalog,
    inventoryBags, hardware, maintenanceLog, brewLog]

/-- The primary key. -/
def id : (t : Table) → t.Row → Uuid
  | users, r => r.id
  | households, r => r.id
  | householdMembers, r => r.id
  | pendingInvitations, r => r.id
  | guestTokens, r => r.id
  | importSessions, r => r.id
  | catalog, r => r.id
  | inventoryBags, r => r.id
  | hardware, r => r.id
  | maintenanceLog, r => r.id
  | brewLog, r => r.id

/-- The rows differ in their primary keys. -/
def Keyed (t : Table) (rows : List t.Row) : Prop := (rows.map t.id).Nodup

/-- The `household_id` column. -/
def householdId : (t : Table) → t.Row → Option Uuid
  | users, _ => none
  | households, r => some r.id
  | householdMembers, r => some r.householdId
  | pendingInvitations, r => some r.householdId
  | guestTokens, r => some r.householdId
  | importSessions, r => some r.householdId
  | catalog, r => r.householdId
  | inventoryBags, r => r.householdId
  | hardware, r => r.householdId
  | maintenanceLog, r => r.householdId
  | brewLog, r => r.householdId

/-- The tables under the `household_isolation` policy. -/
def tenantScoped : Table → Bool
  | catalog | inventoryBags | hardware | maintenanceLog | brewLog => true
  | _ => false

/-- What a row puts into the unique indexes. A guest token that is not revoked is the
only one of its household. -/
def entries : (t : Table) → t.Row → List UniqueEntry
  | users, r => (r.username.map .username).toList ++ (r.googleSub.map .googleSub).toList
  | households, _ => []
  | householdMembers, r => [.member r.householdId r.userId]
  | pendingInvitations, r => [.invitationToken r.tokenHash]
  | guestTokens, r => .guestToken r.tokenHash ::
      if r.revokedAt.isNone then [.activeGuestToken r.householdId] else []
  | importSessions, _ => []
  | catalog, r => (r.sheetsId.map (.sheetsId catalog)).toList
  | inventoryBags, r => (r.sheetsId.map (.sheetsId inventoryBags)).toList
  | hardware, r => (r.sheetsId.map (.sheetsId hardware)).toList
  | maintenanceLog, r => (r.sheetsId.map (.sheetsId maintenanceLog)).toList
  | brewLog, r => (r.sheetsId.map (.sheetsId brewLog)).toList ++
      match r.householdId, r.idempotencyKey with
      | some h, some key => [.idempotencyKey h key]
      | _, _ => []

/-- A reference through a nullable column. -/
def reference (t : Table) (id : Option Uuid) : List (Table × Uuid) := (id.map (t, ·)).toList

/-- The foreign keys. -/
def parents : (t : Table) → t.Row → List (Table × Uuid)
  | users, r => reference households r.activeHouseholdId
  | households, r => [(users, r.createdBy)]
  | householdMembers, r =>
      (households, r.householdId) :: (users, r.userId) :: reference users r.invitedBy
  | pendingInvitations, r => [(households, r.householdId), (users, r.invitedByUserId)]
  | guestTokens, r => [(households, r.householdId), (users, r.createdByUserId)]
  | importSessions, r => [(households, r.householdId), (users, r.createdBy)]
  | catalog, r => reference households r.householdId
  | inventoryBags, r => reference households r.householdId ++ reference catalog r.catalogId
  | hardware, r => reference households r.householdId
  | maintenanceLog, r => reference households r.householdId ++ reference hardware r.hardwareId
  | brewLog, r => reference households r.householdId

/-- `ON DELETE`: a household takes everything that belongs to it along and is
cleared from the users it was active for; `invited_by` is cleared too. -/
def orphaned : (t : Table) → t.Row → Table × Uuid → Option t.Row
  | users, r, (households, _) => some { r with activeHouseholdId := none }
  | householdMembers, r, (users, u) =>
      some (if r.userId = u then r else { r with invitedBy := none })
  | _, _, (households, _) => none
  | _, r, _ => some r

/-- A tenant row references the household it belongs to. -/
theorem household_mem_parents {t : Table} (ht : t.tenantScoped = true) {r : t.Row} {h : Uuid} :
    (households, h) ∈ t.parents r ↔ t.householdId r = some h := by
  cases t with
  | users | households | householdMembers | pendingInvitations | guestTokens | importSessions =>
      cases ht
  | catalog | inventoryBags | hardware | maintenanceLog | brewLog =>
      simp [parents, reference, householdId]

/-- A tenant row goes with its household. -/
theorem orphaned_household {t : Table} (ht : t.tenantScoped = true) (r : t.Row) (h : Uuid) :
    t.orphaned r (households, h) = none := by
  cases t with
  | users | households | householdMembers | pendingInvitations | guestTokens | importSessions =>
      cases ht
  | catalog | inventoryBags | hardware | maintenanceLog | brewLog => rfl

end Table

instance : Schema Table where
  Row := Table.Row
  RowId := Uuid
  Entry := UniqueEntry
  decTable := inferInstance
  decRow := Table.decRow
  decId := inferInstance
  decEntry := inferInstance
  tables := Table.all
  key := Table.id
  owner := Table.householdId
  secured := Table.tenantScoped
  entries := Table.entries
  parents := Table.parents
  orphaned := Table.orphaned

end EspressoLogs
