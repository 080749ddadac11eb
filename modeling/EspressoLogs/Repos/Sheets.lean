import EspressoLogs.Lib.Cache
import EspressoLogs.Repos.Hardware
import Mathlib.Data.List.Sort

/-!
The Sheets repositories, which share one cache.

A spreadsheet is reached through a client, of which only its interface is known:
what it reads are the records of a tab, and a write changes one tab. The rows that it
returns are new objects. Reading the clock and calling the client take the next of
the readings, and of the circumstances, that there will be.
-/

namespace EspressoLogs.Sheets

open Lib Py

/-! ### The spreadsheet -/

/-- The tabs of the spreadsheet. -/
inductive Tab where
  | brewLog
  | inventory
  | catalog
  | hardware
  deriving DecidableEq, Repr

/-- What the client is asked to write to a tab. -/
inductive TabWrite where
  | appendRow (row : Dict) (pkCol : Option String)
  | updateRow (pkCol : String) (pkVal : Val) (row : Dict)
  | appendRows (values : List (List Val))
  | deleteRows (startRow endRow : Int)
  deriving DecidableEq, Repr

/-- `SheetsClientProtocol`, for contents `G` of a tab under circumstances `V`: a call
can fail, also after it has changed the tab. -/
structure Client (G V : Type) where
  records : G → List Dict
  fails : V → G → Option Exc
  write : V → TabWrite → G → Option Exc × G

/-- The spreadsheet and the process. -/
structure World (G V : Type) where
  sheet : Tab → G
  memory : Memory String Dict
  clock : Nat → ℚ
  readings : Nat
  weather : Nat → V
  calls : Nat

/-- A computation of the process. -/
def SheetM (G V α : Type) : Type := World G V → Except Exc α × World G V

variable {G V α β : Type}

/-- What raises leaves the world as it is then. -/
instance sheetMonad : Monad (SheetM G V) where
  pure a := fun w => (.ok a, w)
  bind p f := fun w => match p w with
    | (.ok a, w') => f a w'
    | (.error e, w') => (.error e, w')

/-- An exception. -/
def raise (e : Exc) : SheetM G V α := fun w => (.error e, w)

/-- The clock shows what its next reading will be. -/
def World.now (w : World G V) : ℚ := w.clock w.readings

/-- The clock is looked at once more. -/
def World.read (w : World G V) : World G V := { w with readings := w.readings + 1 }

/-- The world after a write, whether it failed or not. -/
def World.wrote (w : World G V) (tab : Tab) (g : G) : World G V :=
  { w with sheet := Function.update w.sheet tab g, calls := w.calls + 1 }

/-- `get_all_records`. -/
def getAllRecords (c : Client G V) (tab : Tab) : SheetM G V (List Nat) := fun w =>
  match c.fails (w.weather w.calls) (w.sheet tab) with
  | some e => (.error e, { w with calls := w.calls + 1 })
  | none =>
      let (rows, memory) := w.memory.alloc (c.records (w.sheet tab))
      (.ok rows, { w with memory, calls := w.calls + 1 })

/-- `append_row` and the other methods that write. -/
def write (c : Client G V) (tab : Tab) (op : TabWrite) : SheetM G V Unit := fun w =>
  match c.write (w.weather w.calls) op (w.sheet tab) with
  | (some e, g) => (.error e, w.wrote tab g)
  | (none, g) => (.ok (), w.wrote tab g)

/-- The values of objects. -/
def look (rows : List Nat) : SheetM G V (List Dict) := fun w => (.ok (w.memory.values rows), w)

/-! ### `TTLCache` -/

namespace TTLCache

/-- `get`; the clock is read when there is an entry. -/
def get (ttl : ℚ) (key : String) : SheetM G V (Option (List Nat)) := fun w =>
  match w.memory.store key with
  | none => (.ok none, w)
  | some _ => match w.memory.get ttl w.now key with
    | none => (.ok none, w.read)
    | some (rows, memory) => (.ok (some rows), { w.read with memory })

/-- `TTLCache.set`, with the time of now. -/
def set (key : String) (data : List Nat) : SheetM G V Unit := fun w =>
  (.ok (), { w.read with memory := w.memory.set w.now key data })

/-- `TTLCache.invalidate`. -/
def invalidate (key : String) : SheetM G V Unit := fun w =>
  (.ok (), { w with memory := w.memory.invalidate key })

end TTLCache

/-! ### `BaseRepo` -/

/-- `v == w`; numbers of different types can be equal. -/
def same : Val → Val → Bool
  | .int i, .float (.fin q) => (i : ℚ) = q
  | .float (.fin q), .int i => (i : ℚ) = q
  | .float .nan, .float .nan => false
  | v, w => v = w

/-- `v < w` for numbers. -/
def below : PyFloat → PyFloat → Bool
  | .nan, _ => false
  | _, .nan => false
  | .inf negative, y => negative && y != .inf true
  | .fin _, .inf negative => !negative
  | .fin a, .fin b => a < b

/-- `v < w`, `none` for its `TypeError`. -/
def lessThan : Val → Val → Option Bool
  | .str a, .str b => some (a < b)
  | .int i, .int j => some (i < j)
  | .int i, .float y => some (below (.fin i) y)
  | .float x, .int j => some (below x (.fin j))
  | .float x, .float y => some (below x y)
  | .uuid u, .uuid u' => some (u.value < u'.value)
  | _, _ => none

/-- The client, and how old an entry may be. -/
structure Shared (G V : Type) where
  client : Client G V
  ttl : ℚ

section

variable (s : Shared G V)

/-- The rows of a tab, past the cache. -/
def fetchAll (tab : Tab) : SheetM G V (List Nat) := getAllRecords s.client tab

/-- `_fetch_cached`. -/
def fetchCached (key : String) (tab : Tab) : SheetM G V (List Nat) := do
  match ← TTLCache.get s.ttl key with
  | some cached => return cached
  | none =>
      let data ← fetchAll s tab
      TTLCache.set key data
      return data

/-- What a method makes of the rows, by their values. -/
def pick (f : (Nat → Dict) → List Nat → Except Exc α) (rows : List Nat) : SheetM G V α := fun w =>
  (f w.memory.value rows, w)

/-- The rows that satisfy a predicate. -/
def keepRows (p : Dict → Bool) (rows : List Nat) : SheetM G V (List Nat) :=
  pick (fun value rows => .ok (rows.filter fun i => p (value i))) rows

/-- The first of the rows that satisfies a predicate. -/
def findRow (p : Dict → Bool) (rows : List Nat) : SheetM G V (Option Nat) :=
  pick (fun value rows => .ok (rows.find? fun i => p (value i))) rows

/-- The cells of a row under the columns. -/
def cells (columns : List String) (row : Dict) : List Val := columns.map fun col => row.getD col (.str "")

/-- `upsert`, with the keys that it invalidates. -/
def upsertRow (tab : Tab) (pk : String) (keys : List String) (row : Dict) : SheetM G V Unit := do
  if !row.has pk then
    raise .keyError
  else
    let existing ← look (← fetchAll s tab)
    if existing.any fun r => same (r.get pk) (row.get pk) then
      write s.client tab (.updateRow pk (row.get pk) row)
    else
      write s.client tab (.appendRow row none)
    keys.forM TTLCache.invalidate

/-- `add_many`, with the keys that it invalidates. -/
def addRows (tab : Tab) (columns : List String) (keys : List String) (rows : List Dict) :
    SheetM G V Unit := do
  if rows.isEmpty then
    return
  else
    write s.client tab (.appendRows (rows.map (cells columns)))
    keys.forM TTLCache.invalidate

/-- `delete_rows`, with the keys that it invalidates. -/
def dropRows (tab : Tab) (keys : List String) (startRow endRow : Int) : SheetM G V Unit := do
  write s.client tab (.deleteRows startRow endRow)
  keys.forM TTLCache.invalidate

/-- `delete_by_pk`, with the `delete_rows` of the repository. -/
def deleteByPk (tab : Tab) (deleteRows : Int → Int → SheetM G V Unit) (pkCol pkVal : String) :
    SheetM G V Unit := do
  let rows ← look (← fetchAll s tab)
  match rows.findIdx? fun row => same (row.get pkCol) (.str pkVal) with
  | some i => deleteRows (i + 2) (i + 2)
  | none => return

end

/-! ### The repositories -/

namespace BrewLogRepo

def key : String := "brew_log:recent"

/-- The columns of the tab `Brew_Log`. -/
def columns : List String :=
  ["Shot_ID", "Date", "Bag_ID", "Machine_ID", "Grinder_ID", "Basket_ID", "Dose_In_g", "Yield_Out_g",
   "Time_Sec", "Grind_Setting", "Shot_Eligibility", "Taste_Summary", "User_Notes", "AI_Feedback",
   "Storage_Method"]

/-- Whether the key of a row, its date and then its id, is less than that of another. -/
def isBefore (a b : Dict) : Option Bool :=
  let (date, date') := (a.getD "Date" (.str ""), b.getD "Date" (.str ""))
  let (id, id') := (a.getD "Shot_ID" (.str ""), b.getD "Shot_ID" (.str ""))
  if same date date' then if same id id' then some false else lessThan id id' else lessThan date date'

/-- `rows[:n]`. -/
def upTo {α : Type} (n : Int) (rows : List α) : List α :=
  if 0 ≤ n then rows.take n.toNat else rows.take (rows.length - (-n).toNat)

/-- The sorted rows, newest first, and of them the first `n`. A sort compares what ends up side
by side, so it fails where any two keys have no order. -/
def mostRecent {α : Type} (value : α → Dict) (n : Int) (rows : List α) : Except Exc (List α) :=
  if (rows.map value).Pairwise fun a b => (isBefore a b).isSome then
    .ok (upTo n (rows.mergeSort fun i j => !(isBefore (value i) (value j)).getD false))
  else
    .error .typeError

section

variable (s : Shared G V)

/-- `add` of a shot, by an append, after which the key is dropped. -/
def add (row : Dict) : SheetM G V Unit := do
  let normalised : Dict := columns.map fun col => (col, row.getD col (.str ""))
  write s.client .brewLog (.appendRow normalised (some "Shot_ID"))
  TTLCache.invalidate key

/-- `add_many`, which drops no key. -/
def addMany (rows : List Dict) : SheetM G V Unit := addRows s .brewLog columns [] rows

/-- `delete_rows`, which drops no key. -/
def deleteRows (startRow endRow : Int) : SheetM G V Unit := dropRows s .brewLog [] startRow endRow

def get (shotId : String) : SheetM G V (Option Nat) := do
  findRow (fun r => same (r.get "Shot_ID") (.str shotId)) (← fetchCached s key .brewLog)

/-- `update_feedback`: the row as it is cached, with the new text, is written back. -/
def updateFeedback (shotId aiFeedback : String) : SheetM G V Unit := do
  match ← get s shotId with
  | none => raise .keyError
  | some row =>
      let updated ← pick (fun value _ => .ok ((value row).set "AI_Feedback" (.str aiFeedback))) []
      write s.client .brewLog (.updateRow "Shot_ID" (.str shotId) updated)
      TTLCache.invalidate key

def list : SheetM G V (List Nat) := fetchCached s key .brewLog

def listForBag (bagId : String) : SheetM G V (List Nat) := do
  keepRows (fun r => same (r.get "Bag_ID") (.str bagId)) (← fetchCached s key .brewLog)

/-- `list_recent`. -/
def listRecent (n : Int) : SheetM G V (List Nat) := do
  pick (mostRecent · n) (← fetchCached s key .brewLog)

/-- `list_existing_ids`, past the cache. -/
def listExistingIds : SheetM G V (List Val) := do
  pick (fun value rows => .ok ((rows.map fun i => (value i).get "Shot_ID").filter Val.truthy))
    (← getAllRecords s.client .brewLog)

end

end BrewLogRepo

namespace InventoryRepo

def keyActive : String := "inventory:active"

def keyAll : String := "inventory:all"

/-- The columns of the tab `Inventory`. -/
def columns : List String :=
  ["Bag_ID", "Beans", "RoastDate", "RoastLevel", "Display_Name", "Catalog_ID", "Status",
   "Storage_Method"]

section

variable (s : Shared G V)

def list (status : Option String) : SheetM G V (List Nat) := do
  if status = some "Active" then
    keepRows (fun r => same (r.get "Status") (.str "Active")) (← fetchCached s keyActive .inventory)
  else
    fetchAll s .inventory

def listAll : SheetM G V (List Nat) := fetchCached s keyAll .inventory

def get (bagId : String) : SheetM G V (Option Nat) := do
  findRow (fun r => same (r.get "Bag_ID") (.str bagId)) (← fetchAll s .inventory)

def upsert (row : Dict) : SheetM G V Unit := upsertRow s .inventory "Bag_ID" [keyActive, keyAll] row

/-- `add_many`, which drops no key. -/
def addMany (rows : List Dict) : SheetM G V Unit := addRows s .inventory columns [] rows

/-- `delete_rows`, which drops no key. -/
def deleteRows (startRow endRow : Int) : SheetM G V Unit := dropRows s .inventory [] startRow endRow

end

end InventoryRepo

namespace CatalogRepo

def key : String := "catalog:all"

/-- The columns of the tab `Catalog`. -/
def columns : List String :=
  ["Catalog_ID", "Roaster", "Bean_Name", "Roast_Level", "Product_URL", "Local_Image_Path"]

section

variable (s : Shared G V)

def list : SheetM G V (List Nat) := fetchCached s key .catalog

def get (catalogId : String) : SheetM G V (Option Nat) := do
  findRow (fun r => same (r.get "Catalog_ID") (.str catalogId)) (← list s)

def upsert (row : Dict) : SheetM G V Unit := upsertRow s .catalog "Catalog_ID" [key] row

/-- `add_many`, which drops no key. -/
def addMany (rows : List Dict) : SheetM G V Unit := addRows s .catalog columns [] rows

/-- `delete_rows`, which drops no key. -/
def deleteRows (startRow endRow : Int) : SheetM G V Unit := dropRows s .catalog [] startRow endRow

end

end CatalogRepo

namespace HardwareRepo

def key : String := "all_hardware"

/-- The columns of the tab `Hardware`. -/
def columns : List String := ["Hardware_ID", "Category", "Name", "Product_URL", "Local_Image_Path"]

/-- The ids of the rows; an id that is no text has no `startswith`. -/
def archive (rows : List Dict) : Except Exc (List String) :=
  rows.mapM fun r => match r.getD "Hardware_ID" (.str "") with
    | .str id => .ok id
    | _ => .error .typeError

section

variable (s : Shared G V)

def list (category : Option String) : SheetM G V (List Nat) := do
  let rows ← fetchCached s key .hardware
  match category with
  | none => return rows
  | some c => keepRows (fun r => same (r.get "Category") (.str c)) rows

def get (hardwareId : String) : SheetM G V (Option Nat) := do
  findRow (fun r => same (r.get "Hardware_ID") (.str hardwareId)) (← list s none)

def upsert (row : Dict) : SheetM G V Unit := upsertRow s .hardware "Hardware_ID" [key] row

def addMany (rows : List Dict) : SheetM G V Unit := addRows s .hardware columns [key] rows

def deleteRows (startRow endRow : Int) : SheetM G V Unit := dropRows s .hardware [key] startRow endRow

/-- `next_id`; the prefix is looked up first. -/
def nextId (category : String) : SheetM G V String := do
  if (EspressoLogs.HardwareRepo.idPrefix category).isNone then
    raise .keyError
  else
    pick (fun value rows => do EspressoLogs.HardwareRepo.nextId (← archive (rows.map value)) category)
      (← list s none)

end

end HardwareRepo

end EspressoLogs.Sheets
