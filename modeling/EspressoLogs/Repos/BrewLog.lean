import EspressoLogs.Repos.Tenant

/-! `SqlBrewLogRepo`. -/

namespace EspressoLogs.SqlBrewLogRepo

open Lib Py

/-! ### Values and columns -/

/-- `_to_float`. -/
def toFloat (v : Val) : Option PyFloat :=
  if v.isMissing then none
  else match v with
    | .str s => floatOf s
    | .int i => some (.ofRat i)
    | .float x => some x
    | _ => none

/-- `_to_int`; the infinities are not among the errors it handles. -/
def toInt (v : Val) : Except Exc (Option Int) :=
  if v.isMissing then .ok none
  else match v with
    | .str s => .ok (intOf s)
    | .int i => .ok (some i)
    | .float (.inf _) => .error .overflowError
    | .float x => .ok (truncate x)
    | _ => .ok none

/-- A value for a `NUMERIC(5, 1)` column. -/
def asTenths : Option PyFloat → Except StmtError (Option Tenths)
  | none => .ok none
  | some x => match Tenths.round x with
    | some t => .ok (some t)
    | none => .error .data

/-- A value for a signed integer column of `bits` bits. -/
def asInteger (bits : Nat) : Option Int → Except StmtError (Option Int)
  | none => .ok none
  | some i => if -2 ^ (bits - 1) ≤ i ∧ i < 2 ^ (bits - 1) then .ok (some i) else .error .data

/-- The row that `add` inserts. -/
def make (env : Env) (row : Dict) (householdId : Option Uuid) (timeSec rating : Option Int)
    (id : Uuid) : Except StmtError BrewLog := do
  return {
    id, householdId
    sheetsId := ← asText (row.get "Shot_ID")
    -- a missing `brewed_at` is left to the server default
    brewedAt := (parseDatetime env (row.get "Date")).getD env.now
    bagId := ← asText (row.get "Bag_ID")
    machineId := ← asText (row.get "Machine_ID")
    grinderId := ← asText (row.get "Grinder_ID")
    basketId := ← asText (row.get "Basket_ID")
    doseG := ← asTenths (toFloat (row.get "Dose_In_g"))
    yieldG := ← asTenths (toFloat (row.get "Yield_Out_g"))
    timeSec := ← asInteger 32 timeSec
    grindSetting := ← asTenths (toFloat (row.get "Grind_Setting"))
    shotEligibility := ← asText (row.get "Shot_Eligibility")
    notes := ← asText (row.get "User_Notes")
    tasteSummary := ← asText (row.get "Taste_Summary")
    aiFeedback := ← asText (row.get "AI_Feedback")
    storageMethod := ← asText (row.get "Storage_Method")
    brewMethod := ← asText (row.get "Brew_Method")
    rating := ← asInteger 16 rating
    idempotencyKey := ← asText
      (((row.get "idempotency_key").or (row.get "Idempotency_Key")).or .none)
    idempotencyRequestHash := ← asText
      (((row.get "idempotency_request_hash").or (row.get "Idempotency_Request_Hash")).or .none) }

/-- `_to_dict`. -/
def toDict (row : BrewLog) : Dict :=
  [("Shot_ID", textOr row.sheetsId),
   ("Date", .str row.brewedAt.date.isoformat),
   ("Bag_ID", textOr row.bagId),
   ("Machine_ID", textOr row.machineId),
   ("Grinder_ID", textOr row.grinderId),
   ("Basket_ID", textOr row.basketId),
   ("Dose_In_g", textOr (row.doseG.map Tenths.repr)),
   ("Yield_Out_g", textOr (row.yieldG.map Tenths.repr)),
   ("Time_Sec", textOr (row.timeSec.map toString)),
   ("Grind_Setting", textOr (row.grindSetting.map Tenths.repr)),
   ("Shot_Eligibility", textOr row.shotEligibility),
   ("Taste_Summary", textOr row.tasteSummary),
   ("User_Notes", textOr row.notes),
   ("AI_Feedback", textOr row.aiFeedback),
   ("Storage_Method", textOr row.storageMethod),
   ("Idempotency_Key", textOr row.idempotencyKey),
   ("Idempotency_Request_Hash", textOr row.idempotencyRequestHash)]

/-! ### Writes -/

/-- `add`; with `commit` false the row is left pending. -/
def add (env : Env) (row : Dict) (commit : Bool) : DbM Unit := do
  let owner ← liftExcept (parseUuid ((row.get "household_id").or (row.get "Household_ID")))
  let timeSec ← liftExcept (toInt (row.get "Time_Sec"))
  let rating ← liftExcept (toInt (row.get "Rating"))
  let householdId ← match owner with
    | some h => pure (some h)
    | none => currentHouseholdId
  let entry ← DbM.insert .brewLog (make env row householdId timeSec rating)
  discard (refresh .brewLog entry)
  if commit then DbM.commit

/-- The rows that `household_filter` and the id select. -/
def isShot (householdId : Uuid) (shotId : String) (r : BrewLog) : Bool :=
  r.householdId == some householdId && r.sheetsId == some shotId

/-- `update_feedback`, which commits. -/
def updateFeedback (shotId aiFeedback : String) : DbM Unit := do
  match ← currentHouseholdId with
  | none => return
  | some h =>
      discard (DbM.update .brewLog (isShot h shotId) fun r => do
        return { r with aiFeedback := ← asText (.str aiFeedback) })
      DbM.commit

/-- Sets a column if its field was given. -/
def whenGiven (fields : Dict) (key : String) (set : Val → BrewLog → Except StmtError BrewLog)
    (r : BrewLog) : Except StmtError BrewLog :=
  if fields.has key then set (fields.get key) r else .ok r

/-- The columns that `update_correction` sets: the fields that were given. -/
def correct (fields : Dict) (r : BrewLog) : Except StmtError BrewLog := do
  let r ← whenGiven fields "taste_summary"
    (fun v r => do return { r with tasteSummary := ← asText (v.or .none) }) r
  let r ← whenGiven fields "user_notes"
    (fun v r => do return { r with notes := ← asText (v.or .none) }) r
  let r ← whenGiven fields "grind_setting"
    (fun v r => do return { r with grindSetting := ← asTenths (toFloat v) }) r
  whenGiven fields "shot_eligibility"
    (fun v r => do return { r with shotEligibility := ← asText (v.or .none) }) r

/-- The fields that `update_correction` takes. -/
def correctable : List String := ["taste_summary", "user_notes", "grind_setting", "shot_eligibility"]

/-- `get`, of the household in the context. -/
def get (shotId : String) : ReadM (Option Dict) := do
  match ← currentHouseholdId with
  | none => return none
  | some h =>
      let row ← oneOrNone (← select .brewLog (isShot h shotId))
      return row.map toDict

/-- `update_correction`: what is returned was committed, unless no field was given. -/
def updateCorrection (shotId : String) (fields : Dict) : DbM (Option Dict) := do
  match ← currentHouseholdId with
  | none => return none
  | some h =>
      if !correctable.any fields.has then
        get shotId
      else
        match ← oneOrNone (← DbM.update .brewLog (isShot h shotId) (correct fields)) with
        | none => return none
        | some updated =>
            DbM.commit
            return some (toDict updated)

/-- `delete_by_shot_id`; it tells whether there was such a shot. -/
def deleteByShotId (shotId : String) : DbM Bool := do
  match ← currentHouseholdId with
  | none => return false
  | some h =>
      match ← oneOrNone (← select .brewLog (isShot h shotId)) with
      | none => return false
      | some _ =>
          discard (DbM.delete .brewLog (isShot h shotId))
          DbM.commit
          return true

/-! ### Reads -/

/-- Newest first, in the order the rows come in where they tie. -/
def newestFirst (rows : List BrewLog) : List BrewLog :=
  rows.mergeSort fun a b => b.brewedAt.rank ≤ a.brewedAt.rank

/-- The rows of the current household, none when there is no context. -/
def ofHousehold (p : BrewLog → Bool) : ReadM (List BrewLog) := do
  match ← currentHouseholdId with
  | none => return []
  | some h => select .brewLog fun r => r.householdId == some h && p r

/-- `list`, newest first. -/
def list : ReadM (List Dict) := do
  return (newestFirst (← ofHousehold fun _ => true)).map toDict

/-- `list_paginated`: the page and the total count, two statements. -/
def listPaginated (page perPage : Nat) : ReadM (List Dict × Nat) := do
  match ← currentHouseholdId with
  | none => return ([], 0)
  | some h =>
      let counted ← select .brewLog fun r => r.householdId == some h
      let rows ← select .brewLog fun r => r.householdId == some h
      let rows := (rows.mergeSort fun a b => b.id.value ≤ a.id.value)
      let rows := ((newestFirst rows).drop ((page - 1) * perPage)).take perPage
      return (rows.map toDict, counted.length)

/-- `list_for_bag`, in no order. -/
def listForBag (bagId : String) : ReadM (List Dict) := do
  return (← ofHousehold fun r => r.bagId == some bagId).map toDict

/-- `list_existing_ids`, of all rows that the session sees. -/
def listExistingIds : ReadM (List String) := column .brewLog BrewLog.sheetsId

/-- `get_by_idempotency_key`, of the household in the context. -/
def getByIdempotencyKey (idempotencyKey : String) : ReadM (Option Dict) := do
  let row ← oneOrNone (← ofHousehold fun r => r.idempotencyKey == some idempotencyKey)
  return row.map toDict

end EspressoLogs.SqlBrewLogRepo
