import EspressoLogs.Repos.Tenant

/-! `SqlInventoryRepo`. -/

namespace EspressoLogs.SqlInventoryRepo

open Lib Py

/-- The columns that `upsert` assigns from a row dictionary. -/
def assign (row : Dict) (householdId : Option Uuid) (bag : InventoryBag) :
    Except StmtError InventoryBag := do
  return { bag with
    householdId
    roastDate := toDate (row.get "RoastDate")
    beans := ← asText (row.get "Beans")
    displayName := ← asText ((row.get "Display_Name").or (row.get "Beans"))
    roastLevel := ← asText ((row.get "RoastLevel").or (row.get "Roast_Level"))
    status := ← asText (row.getD "Status" (.str "Active"))
    storageMethod := ← asText (row.get "Storage_Method")
    notes := ← asText ((row.get "Notes").or (row.get "Beans"))
    sheetsCatalogId := ← asText (row.get "Catalog_ID") }

/-- A new bag of a row of the sheet. -/
def make (row : Dict) (householdId : Option Uuid) (id : Uuid) :
    Except StmtError InventoryBag := do
  assign row householdId
    { id, householdId, sheetsId := ← asText (row.get "Bag_ID"), catalogId := none,
      roastDate := none, notes := none, sheetsCatalogId := none, beans := none,
      displayName := none, roastLevel := none, status := none, storageMethod := none }

theorem assign_eq_ok {row : Dict} {h : Option Uuid} {r r' : InventoryBag}
    (eq : assign row h r = .ok r') :
    r'.id = r.id ∧ r'.sheetsId = r.sheetsId ∧ r'.householdId = h ∧
      (r.householdId = h → Table.parents .inventoryBags r' = Table.parents .inventoryBags r) := by
  unfold assign at eq
  repeat obtain ⟨_, _, eq⟩ := bind_eq_ok eq
  cases eq
  exact ⟨rfl, rfl, rfl, fun same => by rw [← same]; rfl⟩

theorem assign_total {row : Dict} {h : Option Uuid} {r r' : InventoryBag}
    (eq : assign row h r = .ok r') (r₂ : InventoryBag) : ∃ r₂', assign row h r₂ = .ok r₂' := by
  unfold assign at eq ⊢
  repeat obtain ⟨_, _, eq⟩ := bind_eq_ok eq
  simp only [*, ok_bind]
  exact ⟨_, rfl⟩

theorem make_eq_ok {row : Dict} {h : Option Uuid} {id : Uuid} {r : InventoryBag}
    (eq : make row h id = .ok r) :
    r.id = id ∧ asText (row.get "Bag_ID") = .ok r.sheetsId ∧ r.householdId = h ∧
      Table.parents .inventoryBags r = Table.reference .households h := by
  unfold make at eq
  obtain ⟨sheetsId, written, eq⟩ := bind_eq_ok eq
  obtain ⟨sameId, sameSheetsId, owner, parents⟩ := assign_eq_ok eq
  refine ⟨sameId, ?_, owner, (parents rfl).trans ?_⟩
  · rw [sameSheetsId]
    exact written
  · exact List.append_nil _

theorem make_total {row : Dict} {h : Option Uuid} {id : Uuid} {r : InventoryBag}
    (eq : make row h id = .ok r) (id₂ : Uuid) : ∃ r₂, make row h id₂ = .ok r₂ := by
  unfold make at eq ⊢
  obtain ⟨sheetsId, written, eq⟩ := bind_eq_ok eq
  rw [written]
  exact assign_total eq _

/-- The bags as a table that is upserted by sheet id. -/
def entity : SheetsEntity .inventoryBags where
  idField := "Bag_ID"
  sheetsId := (·.sheetsId)
  assign := assign
  make := make
  tenantScoped := rfl
  entries_eq _ := rfl
  assign_eq_ok _ _ _ _ := assign_eq_ok
  make_eq_ok _ _ _ _ := make_eq_ok
  make_total _ _ _ _ := make_total

/-- `upsert`, which commits. -/
def upsert (row : Dict) : DbM Unit := entity.upsert row

/-- The non-empty one of two texts, as `a or b or ""`. -/
def firstText (a b : Option String) : Val := (ofOption a).or ((ofOption b).or (.str ""))

/-- `_to_dict`. -/
def toDict (row : InventoryBag) (catalogSheetsId : Option String) : Dict :=
  [("Bag_ID", textOr row.sheetsId),
   ("Catalog_ID", firstText catalogSheetsId row.sheetsCatalogId),
   ("Beans", textOr row.beans),
   ("Display_Name", firstText row.displayName row.beans),
   ("RoastDate", .str ((row.roastDate.map Date.isoformat).getD "")),
   ("RoastLevel", textOr row.roastLevel),
   ("Roast_Level", textOr row.roastLevel),
   ("Status", (ofOption row.status).or (.str "Active")),
   ("Storage_Method", textOr row.storageMethod),
   ("Notes", textOr row.notes)]

/-- The bags that match, each with the catalog row its foreign key names. -/
def withCatalog (p : InventoryBag → Bool) : ReadM (List Dict) := do
  let rows ← leftJoin .inventoryBags .catalog (fun bag bean => bag.catalogId == some bean.id) p
  return rows.map fun r => toDict r.1 (r.2.bind CatalogBean.sheetsId)

/-- `list`, of a status if one is given. -/
def list (status : Option String) : ReadM (List Dict) :=
  withCatalog fun bag => match status with
    | some s => bag.status == some s
    | none => true

/-- `list_all`. -/
def listAll : ReadM (List Dict) := withCatalog fun _ => true

/-- `get` by sheet id, with the id of the catalog row. -/
def get (bagId : String) : ReadM (Option Dict) := do
  oneOrNone (← withCatalog fun bag => bag.sheetsId == some bagId)

end EspressoLogs.SqlInventoryRepo
