import EspressoLogs.Repos.Tenant
import EspressoLogs.Services.Ids

/-! `SqlHardwareRepo`, and the id generation of the archived Sheets repository. -/

namespace EspressoLogs

open Lib Py

namespace SqlHardwareRepo

/-- The columns that `upsert` assigns from a row dictionary. -/
def assign (row : Dict) (householdId : Option Uuid) (item : Hardware) :
    Except StmtError Hardware := do
  return { item with
    householdId
    name := ← notNull (← asText (row.getD "Name" (.str "")))
    category := ← notNull (← asText (row.getD "Category" (.str "")))
    productUrl := ← asText (row.get "Product_URL")
    localImagePath := ← asText (row.get "Local_Image_Path") }

/-- A new item of a row of the sheet. -/
def make (row : Dict) (householdId : Option Uuid) (id : Uuid) : Except StmtError Hardware := do
  assign row householdId
    { id, householdId, sheetsId := ← asText (row.get "Hardware_ID"), name := "", category := "",
      notes := none, productUrl := none, localImagePath := none }

theorem assign_eq_ok {row : Dict} {h : Option Uuid} {r r' : Hardware}
    (eq : assign row h r = .ok r') :
    r'.id = r.id ∧ r'.sheetsId = r.sheetsId ∧ r'.householdId = h ∧
      (r.householdId = h → Table.parents .hardware r' = Table.parents .hardware r) := by
  unfold assign at eq
  repeat obtain ⟨_, _, eq⟩ := bind_eq_ok eq
  cases eq
  exact ⟨rfl, rfl, rfl, fun same => by rw [← same]; rfl⟩

theorem assign_total {row : Dict} {h : Option Uuid} {r r' : Hardware}
    (eq : assign row h r = .ok r') (r₂ : Hardware) : ∃ r₂', assign row h r₂ = .ok r₂' := by
  unfold assign at eq ⊢
  repeat obtain ⟨_, _, eq⟩ := bind_eq_ok eq
  simp only [*, ok_bind]
  exact ⟨_, rfl⟩

theorem make_eq_ok {row : Dict} {h : Option Uuid} {id : Uuid} {r : Hardware}
    (eq : make row h id = .ok r) :
    r.id = id ∧ asText (row.get "Hardware_ID") = .ok r.sheetsId ∧ r.householdId = h ∧
      Table.parents .hardware r = Table.reference .households h := by
  unfold make at eq
  obtain ⟨sheetsId, written, eq⟩ := bind_eq_ok eq
  obtain ⟨sameId, sameSheetsId, owner, parents⟩ := assign_eq_ok eq
  refine ⟨sameId, ?_, owner, (parents rfl).trans ?_⟩
  · rw [sameSheetsId]
    exact written
  · rfl

theorem make_total {row : Dict} {h : Option Uuid} {id : Uuid} {r : Hardware}
    (eq : make row h id = .ok r) (id₂ : Uuid) : ∃ r₂, make row h id₂ = .ok r₂ := by
  unfold make at eq ⊢
  obtain ⟨sheetsId, written, eq⟩ := bind_eq_ok eq
  rw [written]
  exact assign_total eq _

/-- The hardware as a table that is upserted by sheet id. -/
def entity : SheetsEntity .hardware where
  idField := "Hardware_ID"
  sheetsId := (·.sheetsId)
  assign := assign
  make := make
  tenantScoped := rfl
  entries_eq _ := rfl
  assign_eq_ok _ _ _ _ := assign_eq_ok
  make_eq_ok _ _ _ _ := make_eq_ok
  make_total _ _ _ _ := make_total

/-- `upsert`, which commits. -/
def upsert (row : Dict) : DbM Unit := entity.upsert row

/-- `_to_dict`. -/
def toDict (row : Hardware) : Dict :=
  [("Hardware_ID", textOr row.sheetsId),
   ("Name", .str row.name),
   ("Category", .str row.category),
   ("Product_URL", textOr row.productUrl),
   ("Local_Image_Path", textOr row.localImagePath),
   ("Notes", textOr row.notes)]

/-- `list`, of a category if one is given. -/
def list (category : Option String) : ReadM (List Dict) := do
  let rows ← select .hardware fun r => match category with
    | some c => r.category == c
    | none => true
  return rows.map toDict

/-- `get` by sheet id. -/
def get (hardwareId : String) : ReadM (Option Dict) := do
  let row ← oneOrNone (← select .hardware fun r => r.sheetsId == some hardwareId)
  return row.map toDict

end SqlHardwareRepo

namespace HardwareRepo

/-- The prefix of the ids of a category. -/
def idPrefix (category : String) : Option String :=
  [("Machine", "M"), ("Grinder", "G"), ("Basket", "B"), ("Storage", "S")].lookup category

/-- The numbers behind a prefix, of the ids that have one there. -/
def numbersAfter (p : String) (ids : List String) : List Int :=
  ids.filterMap fun id => (afterPrefix p id).bind fun rest => intOf (String.ofList rest)

/-- `next_id`, over the `Hardware_ID`s of the sheet. -/
def nextId (archive : List String) (category : String) : Except Exc String :=
  match idPrefix category with
  | none => .error .keyError
  | some p => match (numbersAfter p archive).max? with
    | none => .ok (p ++ "01")
    | some n => (pyFormat 2 (n + 1)).map (p ++ ·)

end HardwareRepo

end EspressoLogs
