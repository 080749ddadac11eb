import EspressoLogs.Deps
import EspressoLogs.Routers.Households
import EspressoLogs.Routers.Equipment

/-!
The endpoints that look across tables: the dashboard, the defaults for a new
shot, the guest view; and those of the account and the import wizard that meet
a household.
-/

namespace EspressoLogs

open Lib Py

/-! ### Dashboard -/

/-- The value under a key where a later row replaces an earlier one. -/
def lastUnder (key : String) (rows : List (String × Dict)) : Option Dict := rows.reverse.lookup key

def lastShotOut (s : Dict) : LastShotOut where
  doseInG := floatOrNone (s.get "Dose_In_g")
  yieldOutG := floatOrNone (s.get "Yield_Out_g")
  timeSec := floatOrNone (s.get "Time_Sec")
  shotEligibility := s.text "Shot_Eligibility"

def dashboardBag (env : Env) (catalog : List (String × Dict)) (shots : List Dict) (bag : Dict) :
    DashboardBagOut :=
  let bagId := bag.text "Bag_ID"
  let catalogId := bag.text "Catalog_ID"
  let displayName := match if catalogId = "" then none else lastUnder catalogId catalog with
    | some row => beanTitle row
    | none => bag.text "Beans"
  let shots := byDateDesc (shots.filter fun s =>
    s.text "Bag_ID" == bagId && s.text "Bag_ID" != "")
  { bagId
    displayName
    roastLevel := bag.text "RoastLevel"
    daysSinceLastShot := shots.head?.bind fun s =>
      (Date.fromIsoformat (s.text "Date")).map fun d =>
        (env.today.toordinal : Int) - d.toordinal
    lastShot := shots.head?.map lastShotOut }

def apiDashboard (env : Env) : ReadM Response := do
  let activeBags ← SqlInventoryRepo.list (some "Active")
  let catalog ← SqlCatalogRepo.list
  let shots ← SqlBrewLogRepo.list
  let catalog := catalog.map fun r => (r.text "Catalog_ID", r)
  return ⟨200, .dashboard (activeBags.map (dashboardBag env catalog shots))⟩

/-! ### Defaults -/

/-- `_FIELD_MAP`. -/
def fieldMap : List (String × String) :=
  [("Machine_ID", "machine_id"), ("Grinder_ID", "grinder_id"), ("Basket_ID", "basket_id"),
   ("Storage_Method", "storage_method"), ("Dose_In_g", "dose_in_g"),
   ("Yield_Out_g", "yield_out_g"), ("Grind_Setting", "grind_setting")]

/-- `_extract_defaults`. -/
def extractDefaults (shot : Dict) : List (String × String) :=
  fieldMap.filterMap fun (col, snake) =>
    (nonEmpty (shot.text col)).map fun v => (snake, v)

/-- The first of the shots with the latest date, `max(shots, key=date)`. -/
def mostRecent (shots : List Dict) : Option Dict :=
  shots.maxOn? fun s => s.text "Date"

/-- The shots of the active bags that a test picks. -/
def shotsOfActiveBags (p : Dict → ReadM Bool) : ReadM (List Dict) := do
  let activeBags ← SqlInventoryRepo.list (some "Active")
  let shots ← activeBags.mapM fun bag => do
    if ← p bag then SqlBrewLogRepo.listForBag (bag.text "Bag_ID") else return []
  return shots.flatten

/-- The active bag is of the same roaster. -/
def sameRoaster (roaster : String) (bag : Dict) : ReadM Bool := do
  let catalogId := bag.text "Catalog_ID"
  if catalogId = "" then
    return false
  match ← SqlCatalogRepo.get catalogId with
  | some entry => return entry.text "Roaster" == roaster
  | none => return false

/-- The shots that `get_defaults` falls back to when the bag has none. -/
def fallbackShots (bag : Dict) : ReadM (List Dict) := do
  let catalogId := bag.text "Catalog_ID"
  let entry ← if catalogId = "" then pure none else SqlCatalogRepo.get catalogId
  let roaster := (entry.map fun r => r.text "Roaster").getD ""
  let ofRoaster ← if roaster = "" then pure [] else shotsOfActiveBags (sameRoaster roaster)
  if ofRoaster ≠ [] then
    return ofRoaster
  let roastLevel := bag.text "RoastLevel"
  if roastLevel = "" then
    return []
  shotsOfActiveBags fun b => return b.text "RoastLevel" == roastLevel

/-- `get_defaults`. -/
def getDefaults (bagId : String) (basketId : Option String) : ReadM (List (String × String)) := do
  let shots ← SqlBrewLogRepo.listForBag bagId
  let basketShots := match basketId.bind nonEmpty with
    | some b => shots.filter fun s => s.text "Basket_ID" == b
    | none => []
  match mostRecent basketShots <|> mostRecent shots with
  | some s => return extractDefaults s
  | none =>
      match ← SqlInventoryRepo.get bagId with
      | none => return []
      | some bag => return ((mostRecent (← fallbackShots bag)).map extractDefaults).getD []

def apiGetDefaults (bagId : String) (basketId : Option String) : ReadM Response := do
  return ⟨200, .defaults (← getDefaults bagId basketId)⟩

/-- `/api/defaults?bag_id=`. -/
def getDefaultsApi (bagId : String) : ReadM Response := do
  if bagId = "" then
    return ⟨200, .defaults []⟩
  return ⟨200, .defaults (← getDefaults bagId none)⟩

/-! ### Guest view -/

/-- The rows under their ids, without those that have none. -/
def lookupBy (key : String) (rows : List Dict) : List (String × Dict) :=
  (rows.map fun r => (r.text key, r)).filter fun p => p.1 ≠ ""

/-- The name of a bag for a guest. -/
def guestBagName (bag catalogRow : Dict) : String :=
  let roaster := catalogRow.text "Roaster"
  let beanName := catalogRow.text "Bean_Name"
  if roaster ≠ "" ∨ beanName ≠ "" then beanDisplay roaster beanName
  else ((nonEmpty (bag.text "Display_Name")).or (nonEmpty (bag.text "Beans"))).getD "Coffee"

/-- `_shot_display`. -/
def shotDisplay (bags catalog hardware : List (String × Dict)) (shot : Dict) : GuestShotOut :=
  let bag := (lastUnder (shot.text "Bag_ID") bags).getD []
  let catalogRow := (lastUnder (bag.text "Catalog_ID") catalog).getD []
  let hardwareName (id : String) := nonEmpty (((lastUnder id hardware).getD []).text "Name")
  { date := shot.text "Date"
    bagDisplay := guestBagName bag catalogRow
    roastLevel := (nonEmpty (bag.text "RoastLevel")).or (nonEmpty (catalogRow.text "Roast_Level"))
    machineName := hardwareName (shot.text "Machine_ID")
    grinderName := hardwareName (shot.text "Grinder_ID")
    basketName := hardwareName (shot.text "Basket_ID")
    storageMethod := nonEmpty (shot.text "Storage_Method")
    doseInG := floatOrNone (shot.get "Dose_In_g")
    yieldOutG := floatOrNone (shot.get "Yield_Out_g")
    timeSec := floatOrNone (shot.get "Time_Sec")
    shotEligibility := nonEmpty (shot.text "Shot_Eligibility")
    tasteSummary := nonEmpty (shot.text "Taste_Summary") }

/-- `_bag_display_summary`. -/
def bagDisplaySummary (catalog : List (String × Dict)) (bag : Dict) : GuestBagOut :=
  let catalogRow := (lastUnder (bag.text "Catalog_ID") catalog).getD []
  { displayName := guestBagName bag catalogRow
    beans := nonEmpty (bag.text "Beans")
    roastLevel := (nonEmpty (bag.text "RoastLevel")).or (nonEmpty (catalogRow.text "Roast_Level"))
    status := nonEmpty (bag.text "Status")
    storageMethod := nonEmpty (bag.text "Storage_Method") }

/-- `_catalog_display`. -/
def catalogDisplay (row : Dict) : GuestBeanOut where
  roaster := row.text "Roaster"
  beanName := row.text "Bean_Name"
  roastLevel := row.text "Roast_Level"
  imagePath := nonEmpty (row.text "Local_Image_Path")

/-- The view itself, once the guest's household is the context. -/
def guestView (householdName : String) : ReadM Response := do
  let activeBags ← SqlInventoryRepo.list (some "Active")
  let allBags ← SqlInventoryRepo.list none
  let catalogRows ← SqlCatalogRepo.list
  let hardwareRows ← SqlHardwareRepo.list none
  let (shots, totalCount) ← SqlBrewLogRepo.listPaginated 1 25
  let catalog := lookupBy "Catalog_ID" catalogRows
  let bags := lookupBy "Bag_ID" allBags
  let hardware := lookupBy "Hardware_ID" hardwareRows
  let entries := shots.map (shotDisplay bags catalog hardware)
  return ⟨200, .guestView {
    householdName
    activeBags := activeBags.map (bagDisplaySummary catalog)
    recentShots := entries.take 5
    totalShots := totalCount
    entries
    beans := catalogRows.map catalogDisplay }⟩

/-- The household that a guest link opens. -/
def guestHousehold (env : Env) (householdId : Uuid) (key : String) : LookupM Household := do
  let token ← orRaise (httpError 401 "Invalid or expired guest token")
    (← HouseholdRepo.getGuestTokenByHashIncludeExpired (env.sha256Hex key))
  if token.householdId ≠ householdId then
    throw (httpError 404 "Guest view not found")
  if !HouseholdRepo.notExpired env token then
    throw (httpError 410 "Guest link expired")
  orRaise HouseholdRepo.householdNotFound (← HouseholdRepo.getById householdId)

def guestHouseholdView (env : Env) (householdId : Uuid) (key : String) : AppM Response := do
  let household ← guestHousehold env householdId key
  inContext householdId (guestView household.name)

/-! ### Account -/

/-- `get_me`, with its own repair of the active household. -/
def getMe (env : Env) (caller : Option Uuid) : UserM Response := do
  let user ← currentUser caller
  let memberships ← HouseholdRepo.getMembershipsWithHouseholdsForUser env user.id
  if memberships = [] ∧ user.activeHouseholdId.isSome then
    UserRepo.clearActiveHousehold user.id
  -- the last of the memberships that are active, as the loop leaves it
  let chosen := memberships.reverse.find? fun m =>
    user.activeHouseholdId == some m.1.member.householdId
  let active ← match chosen, memberships with
    | some m, _ => pure (some m.1.member)
    | none, [] => pure none
    | none, m :: _ => do
        UserRepo.setActiveHousehold user.id m.1.member.householdId
        pure (some m.1.member)
  let activeId := active.map HouseholdMember.householdId
  return ⟨200, .me user.id activeId (active.map HouseholdMember.role)
    (memberships.map fun m => membershipOut activeId m)⟩

def switchHousehold (caller : Option Uuid) (householdId : Uuid) : UserM Response := do
  let user ← currentUser caller
  let membership ← HouseholdRepo.getMember householdId user.id
  let household ← HouseholdRepo.getById householdId
  match membership, household with
  | some m, some r =>
      UserRepo.setActiveHousehold user.id householdId
      UserM.commit
      return ⟨200, .switched householdId m.role r.name⟩
  | _, _ => throw (httpError 403 "Not a member of this household")

/-- `newHash` is `hash_password` of the new password. -/
def adminResetPassword (env : Env) (username newPassword newHash : String) (m : HouseholdMember) :
    AccountM Response := do
  if newPassword.length < 12 then
    throw (httpError 422 "Password must be at least 12 characters")
  if 1024 < newPassword.utf8ByteSize then
    throw (httpError 422 "Password must not exceed 1024 bytes")
  let userNotFound := httpError 404 "User not found"
  let target ← orRaise userNotFound (← UserRepo.getByUsername env username)
  discard (orRaise userNotFound (← HouseholdRepo.getMember m.householdId target.id))
  UserRepo.updatePasswordHash target.id newHash
  AccountM.commit
  return ⟨200, .ok⟩

/-! ### Import -/

/-- `start_import_wizard`. -/
def startImportWizard (env : Env) (m : HouseholdMember) : AccountM Response := do
  let row ← AccountM.insert .importSessions fun id =>
    .ok { id, householdId := m.householdId, createdBy := m.userId, expiresAt := env.hoursAhead 2 }
  discard (AccountM.refresh .importSessions row)
  AccountM.commit
  return ⟨200, .importSession row.id⟩

end EspressoLogs
