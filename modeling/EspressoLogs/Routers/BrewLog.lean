import EspressoLogs.Responses
import EspressoLogs.Services.Ids
import EspressoLogs.Services.Inference

/-!
The brew-log endpoints.

`apiBrewLogCreate` is cut at the points where the source returns early or
catches: the idempotent replay, the insert with its conflict handling, and the
AI feedback, whose failures do not matter to the response.
-/

namespace EspressoLogs

open Lib Py

/-! ### Lookups and names -/

/-- `s or None`. -/
def nonEmpty (s : String) : Option String := if s = "" then none else some s

structure Lookups where
  bags : List (String × Dict)
  catalog : List (String × Dict)
  hardware : List (String × Dict)

namespace Lookups

def find (key : String) (rows : List (String × Dict)) : Dict := (rows.lookup key).getD []

end Lookups

/-- `_build_lookups`; where a key occurs twice the first row is found. -/
def buildLookups : ReadM Lookups := do
  let bags ← SqlInventoryRepo.listAll
  let catalog ← SqlCatalogRepo.list
  let hardware ← SqlHardwareRepo.list none
  return {
    bags := bags.map fun r => (r.text "Bag_ID", r)
    catalog := catalog.map fun r => (r.text "Catalog_ID", r)
    hardware := hardware.map fun r => (r.text "Hardware_ID", r) }

structure Names where
  bagDisplay : String
  roastLevel : Option String
  machineName : Option String
  grinderName : Option String
  basketName : Option String
  deriving DecidableEq, Repr

/-- `f"{roaster} — {bean_name}".strip(" —")`. -/
def beanDisplay (roaster beanName : String) : String :=
  stripWhere (fun c => c == ' ' || c == '—') (roaster ++ " — " ++ beanName)

/-- `_resolve_names_from_dicts`. -/
def resolveNamesFromDicts (shot : Dict) (l : Lookups) : Names :=
  let bagId := shot.text "Bag_ID"
  let bagRow := Lookups.find bagId l.bags
  let catalogRow := Lookups.find (bagRow.text "Catalog_ID") l.catalog
  let roaster := catalogRow.text "Roaster"
  let beanName := catalogRow.text "Bean_Name"
  let bagDisplay := if roaster ≠ "" ∨ beanName ≠ "" then beanDisplay roaster beanName else bagId
  let hardwareName (id : String) := nonEmpty ((Lookups.find id l.hardware).text "Name")
  { bagDisplay := if bagDisplay ≠ "" then bagDisplay else bagId
    roastLevel := (nonEmpty (bagRow.text "RoastLevel")).or (nonEmpty (catalogRow.text "Roast_Level"))
    machineName := hardwareName (shot.text "Machine_ID")
    grinderName := hardwareName (shot.text "Grinder_ID")
    basketName := hardwareName (shot.text "Basket_ID") }

/-- `_float`. -/
def floatOrNone : Val → Option PyFloat
  | .str s => floatOf s
  | .int i => some (.ofRat i)
  | .float x => some x
  | _ => none

/-- `_shot_to_out`. -/
def shotToOut (shot : Dict) (names : Names) : BrewLogEntryOut where
  shotId := shot.text "Shot_ID"
  date := shot.text "Date"
  bagDisplay := names.bagDisplay
  roastLevel := names.roastLevel
  machineName := names.machineName
  grinderName := names.grinderName
  basketName := names.basketName
  storageMethod := nonEmpty (shot.text "Storage_Method")
  doseInG := floatOrNone (shot.get "Dose_In_g")
  yieldOutG := floatOrNone (shot.get "Yield_Out_g")
  timeSec := floatOrNone (shot.get "Time_Sec")
  grindSetting := nonEmpty (shot.text "Grind_Setting")
  shotEligibility := nonEmpty (shot.text "Shot_Eligibility")
  tasteSummary := nonEmpty (shot.text "Taste_Summary")
  userNotes := nonEmpty (shot.text "User_Notes")
  aiFeedback := nonEmpty (shot.text "AI_Feedback")

/-- `_render_shot_response`. -/
def renderShotResponse (shot : Dict) : ReadM BrewLogEntryOut := do
  let lookups ← buildLookups
  return shotToOut shot (resolveNamesFromDicts shot lookups)

/-! ### Reads -/

variable {h : Uuid}

def apiBrewLogList (page perPage : Int) : ReadM Response := do
  let page := (max 1 page).toNat
  let perPage := (max 1 (min perPage 100)).toNat
  let (shots, totalCount) ← SqlBrewLogRepo.listPaginated page perPage
  let lookups ← buildLookups
  return ⟨200, .shotPage {
    items := shots.map fun s => shotToOut s (resolveNamesFromDicts s lookups)
    page, perPage, totalCount
    hasNext := decide (page * perPage < totalCount) }⟩

def shotNotFound : Exc := httpError 404 "Shot not found"

def apiBrewLogFeedback (shotId : String) : ReadM Response := do
  let shot ← orRaise shotNotFound (← SqlBrewLogRepo.get shotId)
  return ⟨200, .feedback (nonEmpty (shot.text "AI_Feedback"))⟩

def apiBrewLogDetail (shotId : String) : ReadM Response := do
  let shot ← orRaise shotNotFound (← SqlBrewLogRepo.get shotId)
  return ⟨200, .shot (← renderShotResponse shot)⟩

/-! ### Bodies -/

structure BrewLogCreateBody where
  bagId : String
  machineId : String
  grinderId : String
  basketId : String
  doseInG : PyFloat
  yieldOutG : PyFloat
  timeSec : PyFloat
  grindSetting : String
  shotEligibility : String
  tasteSummary : String
  userNotes : String
  storageMethod : String
  shotDate : Option String
  idempotencyKey : Option String
  deriving DecidableEq, Repr

/-- The fields that were sent, each with its value or null. -/
structure BrewLogPatchBody where
  tasteSummary : Option (Option String)
  userNotes : Option (Option String)
  grindSetting : Option (Option String)
  shotEligibility : Option (Option String)
  deriving DecidableEq, Repr

/-- `_normalise_idempotency_key`. -/
def normaliseIdempotencyKey (key : Option String) : Option String := key.bind fun k => nonEmpty (strip k)

/-- `json.dumps` of a float. -/
def jsonNumber (env : Env) : PyFloat → String
  | .fin q => env.floatRepr q
  | .inf negative => if negative then "-Infinity" else "Infinity"
  | .nan => "NaN"

/-- The canonical text of a create request. -/
def canonicalPayload (env : Env) (body : BrewLogCreateBody) (shotDate : Date) : String :=
  let field (name value : String) := jsonString name ++ ":" ++ value
  "\x7b" ++ String.intercalate "," [
    field "bag_id" (jsonString body.bagId),
    field "basket_id" (jsonString body.basketId),
    field "dose_in_g" (jsonNumber env body.doseInG),
    field "grind_setting" (jsonString body.grindSetting),
    field "grinder_id" (jsonString body.grinderId),
    field "machine_id" (jsonString body.machineId),
    field "shot_date" (jsonString shotDate.isoformat),
    field "shot_eligibility" (jsonString body.shotEligibility),
    field "storage_method" (jsonString body.storageMethod),
    field "taste_summary" (jsonString body.tasteSummary),
    field "time_sec" (jsonNumber env body.timeSec),
    field "user_notes" (jsonString body.userNotes),
    field "yield_out_g" (jsonNumber env body.yieldOutG)] ++ "\x7d"

/-- `_idempotency_request_hash`. -/
def idempotencyRequestHash (env : Env) (body : BrewLogCreateBody) (shotDate : Date) : String :=
  env.sha256Hex (canonicalPayload env body shotDate)

/-! ### Correction -/

def shotEligibilities : List String := ["God Shot", "Good Espresso", "Passable", "Reject"]

/-- The `grind_setting` of a patch: cleared, or the text of a finite number. -/
def normaliseGrindSetting : Option (Option String) → Except Exc (Option (String × Val))
  | none => .ok none
  | some v =>
      let text := v.getD ""
      if strip text = "" then .ok (some ("grind_setting", .str ""))
      else match floatOf text with
        | none => .error (httpError 422 "grind_setting must be numeric.")
        | some x =>
            if x.isFinite then .ok (some ("grind_setting", .str (strip text)))
            else .error (httpError 422 "grind_setting must be a finite number.")

/-- The `shot_eligibility` of a patch: cleared, or one of the known ones. -/
def normaliseShotEligibility : Option (Option String) → Except Exc (Option (String × Val))
  | none => .ok none
  | some none => .ok (some ("shot_eligibility", .none))
  | some (some text) =>
      if strip text = "" then .ok (some ("shot_eligibility", .none))
      else if strip text ∈ shotEligibilities then
        .ok (some ("shot_eligibility", .str (strip text)))
      else .error (httpError 422
        ("shot_eligibility must be one of: " ++
          "['God Shot', 'Good Espresso', 'Passable', 'Reject']"))

/-- No editable field was sent. -/
def BrewLogPatchBody.isEmpty (body : BrewLogPatchBody) : Bool :=
  body.tasteSummary.isNone && body.userNotes.isNone && body.grindSetting.isNone &&
    body.shotEligibility.isNone

/-- `_normalise_brew_log_patch`. -/
def normaliseBrewLogPatch (body : BrewLogPatchBody) : Except Exc Dict :=
  if body.isEmpty then .error (httpError 422 "At least one editable field is required.")
  else do
    let grindSetting ← normaliseGrindSetting body.grindSetting
    let shotEligibility ← normaliseShotEligibility body.shotEligibility
    return (body.tasteSummary.map fun v => ("taste_summary", ofOption v)).toList ++
      (body.userNotes.map fun v => ("user_notes", ofOption v)).toList ++
      grindSetting.toList ++ shotEligibility.toList

def apiBrewLogPatch (shotId : String) (body : BrewLogPatchBody) : DbM Response := do
  let updates ← liftExcept (normaliseBrewLogPatch body)
  let updated ← orRaise shotNotFound (← DualWriteBrewLogRepo.updateCorrection shotId updates)
  return ⟨200, .shot (← renderShotResponse updated)⟩

/-! ### Feedback -/

def feedbackTimeout : Exc := .http 504 (.coded "AI_FEEDBACK_TIMEOUT"
  "AI feedback generation timed out. Please try again.")

def feedbackFailed : Exc := .http 502 (.coded "AI_FEEDBACK_GENERATION_FAILED"
  "AI feedback generation failed. Please try again.")

def extraContextOf (shot : Dict) (names : Names) : ExtraContext where
  machineName := names.machineName.getD ""
  grinderName := names.grinderName.getD ""
  basketName := names.basketName.getD ""
  roastLevel := names.roastLevel.getD ""
  tasteSummary := shot.text "Taste_Summary"
  storageMethod := shot.text "Storage_Method"

def apiBrewLogFeedbackGenerate (env : Env) (shotId : String) : TenantM h Response := do
  let shot ← orRaise shotNotFound (← SqlBrewLogRepo.get shotId)
  let lookups ← buildLookups
  let names := resolveNamesFromDicts shot lookups
  let feedback ← tryCatch (do
      setConfig h
      getAiFeedback env shotId (some (extraContextOf shot names)) true true)
    fun e => match e with
      | .timeout => throw feedbackTimeout
      | .llmError | .valueError => throw feedbackFailed
      | e => throw e
  return ⟨200, .feedback (some feedback)⟩

/-! ### Creation -/

/-- The date of the shot: today's unless the body names one. -/
def shotDateOf (env : Env) (body : BrewLogCreateBody) : Except Exc Date :=
  match body.shotDate.bind nonEmpty with
  | none => .ok env.today
  | some s => match Date.fromIsoformat s with
    | some d => .ok d
    | none => .error (httpError 422 "shot_date must be ISO format (YYYY-MM-DD)")

def keyReused : Exc := httpError 409 "Idempotency key reused with different payload"

/-- The numbers of the shot are such as JSON has a text for. -/
def BrewLogEntryOut.isFinite (s : BrewLogEntryOut) : Bool :=
  [s.doseInG, s.yieldOutG, s.timeSec].all fun x => x.all PyFloat.isFinite

/-- `JSONResponse(status_code=200, content=shot_out.model_dump())`. Unlike the response
models it dumps with `allow_nan=False`, which raises for a number that is not finite. -/
def shotJsonResponse (s : BrewLogEntryOut) : Except Exc Response :=
  if s.isFinite then .ok ⟨200, .shot s⟩ else .error .valueError

theorem shotJsonResponse_eq_ok {s : BrewLogEntryOut} {r : Response}
    (answers : shotJsonResponse s = .ok r) : s.isFinite = true ∧ r = ⟨200, .shot s⟩ := by
  unfold shotJsonResponse at answers
  split at answers
  · rename_i finite
    cases answers
    exact ⟨finite, rfl⟩
  · cases answers

/-- `_existing_idempotent_response`. -/
def existingIdempotentResponse (idempotencyKey requestHash : String) :
    ReadM (Option Response) := do
  match ← SqlBrewLogRepo.getByIdempotencyKey idempotencyKey with
  | none => return none
  | some existing =>
      if existing.text "Idempotency_Request_Hash" ≠ requestHash then
        throw keyReused
      let shotOut ← renderShotResponse existing
      return some (← liftExcept (shotJsonResponse shotOut))

/-- The row dictionary of a new shot. -/
def shotRow (body : BrewLogCreateBody) (shotId : String) (shotDate : Date)
    (idempotency : Option (String × String)) : Dict :=
  [("Shot_ID", .str shotId),
   ("Date", .str shotDate.isoformat),
   ("Bag_ID", .str body.bagId),
   ("Machine_ID", .str body.machineId),
   ("Grinder_ID", .str body.grinderId),
   ("Basket_ID", .str body.basketId),
   ("Dose_In_g", .float body.doseInG),
   ("Yield_Out_g", .float body.yieldOutG),
   ("Time_Sec", .float body.timeSec),
   ("Grind_Setting", .str body.grindSetting),
   ("Shot_Eligibility", .str body.shotEligibility),
   ("Taste_Summary", .str body.tasteSummary),
   ("User_Notes", .str body.userNotes),
   ("Storage_Method", .str body.storageMethod)] ++
  match idempotency with
  | some (key, hash) => [("Idempotency_Key", .str key), ("Idempotency_Request_Hash", .str hash)]
  | none => []

/-- The insert and what is read before its commit. -/
def insertShot (env : Env) (row : Dict) : DbM (BrewLogEntryOut × Names) := do
  DualWriteBrewLogRepo.add env row false
  let lookups ← buildLookups
  let names := resolveNamesFromDicts row lookups
  let shotOut := shotToOut row names
  DbM.commit
  return (shotOut, names)

/-- What an `IntegrityError` of the insert leads to: the winner's shot if the
key is taken by now, the error otherwise. Reading the household off the
membership needs an attribute that the rollback has expired. -/
def afterConflict (env : Env) (idempotency : Option (String × String)) (e : Exc) :
    TenantM h Response := do
  DbM.rollback
  match idempotency with
  | none => throw e
  | some (key, hash) =>
      if env.expiredReadable then
        setConfig h
        orRaise e (← existingIdempotentResponse key hash)
      else throw .missingGreenlet

/-- The insert with its handlers: a new shot, or the response that replaces it. -/
def storeShot (env : Env) (row : Dict) (idempotency : Option (String × String)) :
    TenantM h (Except Response (BrewLogEntryOut × Names)) :=
  tryCatch (do return .ok (← insertShot env row)) fun e => do
    if e = .db .integrity then
      return .error (← afterConflict env idempotency e)
    else
      DbM.rollback
      throw e

/-- The AI feedback of a new shot, with its failures swallowed. -/
def feedbackAfterCreate (env : Env) (shotId : String) (extra : ExtraContext) : TenantM h Unit :=
  tryCatch (do
      setConfig h
      discard (getAiFeedback env shotId (some extra) false false))
    fun e => match e with
      | .timeout => pure ()
      | _ => DbM.rollback

/-- The part of a create after the check for a replay. -/
def createShot (env : Env) (body : BrewLogCreateBody) (shotDate : Date)
    (idempotency : Option (String × String)) : TenantM h Response := do
  let existingIds ← SqlBrewLogRepo.listExistingIds
  let shotId ← liftExcept (makeShotId shotDate body.bagId existingIds)
  let row := shotRow body shotId shotDate idempotency
  match ← storeShot env row idempotency with
  | .error replayed => return replayed
  | .ok (shotOut, names) =>
      feedbackAfterCreate env shotId (extraContextOf row names)
      return ⟨201, .shot shotOut⟩

def apiBrewLogCreate (env : Env) (body : BrewLogCreateBody) : TenantM h Response := do
  let shotDate ← liftExcept (shotDateOf env body)
  match normaliseIdempotencyKey body.idempotencyKey with
  | none => createShot env body shotDate none
  | some key =>
      let hash := idempotencyRequestHash env body shotDate
      match ← existingIdempotentResponse key hash with
      | some replayed => return replayed
      | none => createShot env body shotDate (some (key, hash))

/-! ### Deletion -/

/-- The admin role was checked by `require_admin`. -/
def apiBrewLogDelete (shotId : String) : DbM Response := do
  if !(← SqlBrewLogRepo.deleteByShotId shotId) then
    throw (httpError 404 "Brew log entry not found")
  return ⟨204, .empty⟩

end EspressoLogs
