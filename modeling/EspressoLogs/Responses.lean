import EspressoLogs.Db

/-!
What the endpoints answer: the response models of the API and the status.
-/

namespace EspressoLogs

open Py

/-- `CatalogItemOut`; an empty cell of the row is None in the optional fields. -/
structure CatalogItemOut where
  catalogId : String
  roaster : String
  beanName : String
  roastLevel : String
  productUrl : Option String
  imagePath : Option String
  deriving DecidableEq, Repr

/-- `InventoryBagOut`, with the catalog id that the row of the catalog has. -/
structure InventoryBagOut where
  bagId : String
  displayName : String
  beans : String
  roastDate : Option String
  roastLevel : Option String
  catalogId : String
  status : String
  storageMethod : Option String
  deriving DecidableEq, Repr

/-- `HardwareItemOut`. -/
structure HardwareItemOut where
  hardwareId : String
  category : String
  name : String
  imagePath : Option String
  deriving DecidableEq, Repr

/-- `MaintenanceEventOut`; the name is that of the hardware the event is about. -/
structure MaintenanceEventOut where
  maintenanceId : String
  hardwareId : String
  hardwareName : String
  date : String
  actionType : String
  notes : Option String
  deriving DecidableEq, Repr

/-- `BrewLogEntryOut`: a shot with the names that its ids resolve to. The last two
fields are the private ones. -/
structure BrewLogEntryOut where
  shotId : String
  date : String
  bagDisplay : String
  roastLevel : Option String
  machineName : Option String
  grinderName : Option String
  basketName : Option String
  storageMethod : Option String
  doseInG : Option PyFloat
  yieldOutG : Option PyFloat
  timeSec : Option PyFloat
  grindSetting : Option String
  shotEligibility : Option String
  tasteSummary : Option String
  userNotes : Option String
  aiFeedback : Option String
  deriving DecidableEq, Repr

/-- `BrewLogPageOut`; the count is that of all pages. -/
structure BrewLogPageOut where
  items : List BrewLogEntryOut
  page : Nat
  perPage : Nat
  totalCount : Nat
  hasNext : Bool
  deriving DecidableEq, Repr

/-- The last shot of a bag, as the dashboard shows it. -/
structure LastShotOut where
  doseInG : Option PyFloat
  yieldOutG : Option PyFloat
  timeSec : Option PyFloat
  shotEligibility : String
  deriving DecidableEq, Repr

/-- `DashboardBagOut`; a bag without shots has neither days nor a last shot. -/
structure DashboardBagOut where
  bagId : String
  displayName : String
  roastLevel : String
  daysSinceLastShot : Option Int
  lastShot : Option LastShotOut
  deriving DecidableEq, Repr

/-- A membership as its user sees it, with the one mark that says which household is
active. -/
structure MembershipOut where
  householdId : Uuid
  householdName : String
  role : Role
  joinedAt : Timestamp
  memberCount : Nat
  isActive : Bool
  canManage : Bool
  deriving DecidableEq, Repr

/-- A member of a household as the other members see it. -/
structure MemberOut where
  userId : Uuid
  username : Option String
  displayName : String
  email : Option String
  pictureUrl : Option String
  role : Role
  joinedAt : Timestamp
  isSelf : Bool
  deriving DecidableEq, Repr

/-- An invitation as `get_household` lists it. The token is there if it can still be
decrypted. -/
structure PendingInvitationOut where
  invitationId : Uuid
  label : String
  invitedRole : Role
  expired : Bool
  invitedAt : Timestamp
  expiresAt : Timestamp
  token : Option String
  deriving DecidableEq, Repr

/-- What `get_household` adds for an admin. -/
structure HouseholdAdminOut where
  guestAccess : Option (Option String × Timestamp)
  pendingInvitations : List PendingInvitationOut
  deriving DecidableEq, Repr

/-- `HouseholdDetailOut`, with what only an admin gets. -/
structure HouseholdDetailOut where
  id : Uuid
  name : String
  createdAt : Timestamp
  role : Role
  memberCount : Nat
  members : List MemberOut
  forAdmin : Option HouseholdAdminOut
  deriving DecidableEq, Repr

/-- A shot as a guest sees it: without its id, the grind setting, the notes and the
feedback. -/
structure GuestShotOut where
  date : String
  bagDisplay : String
  roastLevel : Option String
  machineName : Option String
  grinderName : Option String
  basketName : Option String
  storageMethod : Option String
  doseInG : Option PyFloat
  yieldOutG : Option PyFloat
  timeSec : Option PyFloat
  shotEligibility : Option String
  tasteSummary : Option String
  deriving DecidableEq, Repr

/-- A bag as a guest sees it. -/
structure GuestBagOut where
  displayName : String
  beans : Option String
  roastLevel : Option String
  status : Option String
  storageMethod : Option String
  deriving DecidableEq, Repr

/-- A bean of the catalog as a guest sees it. -/
structure GuestBeanOut where
  roaster : String
  beanName : String
  roastLevel : String
  imagePath : Option String
  deriving DecidableEq, Repr

/-- The guest view of a household: active bags, the last shots, all shots, and the
beans. -/
structure GuestViewOut where
  householdName : String
  activeBags : List GuestBagOut
  recentShots : List GuestShotOut
  totalShots : Nat
  entries : List GuestShotOut
  beans : List GuestBeanOut
  deriving DecidableEq, Repr

/-- The body of an answer, one constructor for each response model of the endpoints.
`detail` is the text or the list that an `HTTPException` carries. -/
inductive Body where
  | empty
  | detail (d : Detail)
  | accessDenied
  | internalError
  | shot (s : BrewLogEntryOut)
  | shotPage (p : BrewLogPageOut)
  | feedback (text : Option String)
  | catalogItems (items : List CatalogItemOut)
  | catalogItem (item : CatalogItemOut)
  | catalogDetail (item : CatalogItemOut) (bags : List InventoryBagOut)
      (recentShots : List BrewLogEntryOut)
  | bags (bags : List InventoryBagOut)
  | bag (bag : InventoryBagOut)
  | imagePath (path : String)
  | hardwareItems (items : List HardwareItemOut)
  | hardwareItem (item : HardwareItemOut)
  | hardwareDetail (item : HardwareItemOut) (maintenance : List MaintenanceEventOut)
  | actionTypes (types : List (String × List String))
  | maintenanceEvents (events : List MaintenanceEventOut)
  | maintenanceEvent (event : MaintenanceEventOut)
  | dashboard (bags : List DashboardBagOut)
  | defaults (values : List (String × String))
  | household (id : Uuid) (name : String) (createdAt : Timestamp) (role : Role)
  | memberships (ms : List MembershipOut)
  | invitation (id : Uuid) (rawToken : String) (expiresAt : Timestamp)
      (invitedEmail : Option String) (invitedRole : Role)
  | invitationPreview (householdName inviter : String) (invitedRole : Role) (expiresAt : Timestamp)
  | accepted (household : Uuid) (householdName : String) (role : Role)
  | updatedMember (user : Uuid) (role : Role) (joinedAt : Timestamp)
  | guestToken (rawToken : String) (createdAt : Timestamp)
  | householdDetail (d : HouseholdDetailOut)
  | switched (household : Uuid) (role : Role) (householdName : String)
  | me (user : Uuid) (active : Option Uuid) (role : Option Role) (ms : List MembershipOut)
  | guestView (v : GuestViewOut)
  | importSession (id : Uuid)
  | ok
  deriving DecidableEq, Repr

/-- Status and body. -/
structure Response where
  status : Nat
  body : Body
  deriving DecidableEq, Repr

/-! ### On the wire -/

/-- A number as a response model writes it: JSON has no text for NaN and the infinities,
which become null. -/
def jsonFloat (x : Option PyFloat) : Option PyFloat := x.filter PyFloat.isFinite

/-- A shot on the wire. -/
def BrewLogEntryOut.written (s : BrewLogEntryOut) : BrewLogEntryOut :=
  { s with
    doseInG := jsonFloat s.doseInG
    yieldOutG := jsonFloat s.yieldOutG
    timeSec := jsonFloat s.timeSec }

/-- A last shot on the wire. -/
def LastShotOut.written (s : LastShotOut) : LastShotOut :=
  { s with
    doseInG := jsonFloat s.doseInG
    yieldOutG := jsonFloat s.yieldOutG
    timeSec := jsonFloat s.timeSec }

/-- A bag of the dashboard on the wire. -/
def DashboardBagOut.written (b : DashboardBagOut) : DashboardBagOut :=
  { b with lastShot := b.lastShot.map LastShotOut.written }

/-- A guest's shot on the wire. -/
def GuestShotOut.written (s : GuestShotOut) : GuestShotOut :=
  { s with
    doseInG := jsonFloat s.doseInG
    yieldOutG := jsonFloat s.yieldOutG
    timeSec := jsonFloat s.timeSec }

/-- The guest view on the wire. -/
def GuestViewOut.written (v : GuestViewOut) : GuestViewOut :=
  { v with
    recentShots := v.recentShots.map GuestShotOut.written
    entries := v.entries.map GuestShotOut.written }

/-- The body as its response model writes it. -/
def Body.written : Body → Body
  | .shot s => .shot s.written
  | .shotPage p => .shotPage { p with items := p.items.map BrewLogEntryOut.written }
  | .catalogDetail item stored shots =>
      .catalogDetail item stored (shots.map BrewLogEntryOut.written)
  | .dashboard items => .dashboard (items.map DashboardBagOut.written)
  | .guestView v => .guestView v.written
  | body => body

/-- What the client receives: a 403 is a page without its detail, and an
exception that no handler turned into a response is a 500. -/
def respond : Except Exc Response → Response
  | .ok r => ⟨r.status, r.body.written⟩
  | .error (.http 403 _) => ⟨403, .accessDenied⟩
  | .error (.http status detail) => ⟨status, .detail detail⟩
  | .error _ => ⟨500, .internalError⟩

end EspressoLogs
