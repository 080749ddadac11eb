import EspressoLogs.Repos.Tenant

/-! `SqlCatalogRepo`. -/

namespace EspressoLogs.SqlCatalogRepo

open Lib Py

/-- The columns that `upsert` assigns from a row dictionary. -/
def assign (row : Dict) (householdId : Option Uuid) (bean : CatalogBean) :
    Except StmtError CatalogBean := do
  return { bean with
    householdId
    roaster := ← notNull (← asText (row.getD "Roaster" (.str "")))
    beanName := ← notNull (← asText (row.getD "Bean_Name" (.str "")))
    origin := ← asText (row.get "Origin")
    process := ← asText (row.get "Process")
    roastLevel := ← asText (row.get "Roast_Level")
    notes := ← asText (((row.get "Tasting_Notes").or (row.get "Notes")).or (row.get "Catalog_ID"))
    productUrl := ← asText (row.get "Product_URL")
    localImagePath := ← asText (row.get "Local_Image_Path") }

/-- A new bean of a row of the sheet. -/
def make (row : Dict) (householdId : Option Uuid) (id : Uuid) : Except StmtError CatalogBean := do
  assign row householdId
    { id, householdId, sheetsId := ← asText (row.get "Catalog_ID"), roaster := "", beanName := "",
      origin := none, process := none, roastLevel := none, notes := none, productUrl := none,
      localImagePath := none }

theorem assign_eq_ok {row : Dict} {h : Option Uuid} {r r' : CatalogBean}
    (eq : assign row h r = .ok r') :
    r'.id = r.id ∧ r'.sheetsId = r.sheetsId ∧ r'.householdId = h ∧
      (r.householdId = h → Table.parents .catalog r' = Table.parents .catalog r) := by
  unfold assign at eq
  repeat obtain ⟨_, _, eq⟩ := bind_eq_ok eq
  cases eq
  exact ⟨rfl, rfl, rfl, fun same => by rw [← same]; rfl⟩

theorem assign_total {row : Dict} {h : Option Uuid} {r r' : CatalogBean}
    (eq : assign row h r = .ok r') (r₂ : CatalogBean) : ∃ r₂', assign row h r₂ = .ok r₂' := by
  unfold assign at eq ⊢
  repeat obtain ⟨_, _, eq⟩ := bind_eq_ok eq
  simp only [*, ok_bind]
  exact ⟨_, rfl⟩

theorem make_eq_ok {row : Dict} {h : Option Uuid} {id : Uuid} {r : CatalogBean}
    (eq : make row h id = .ok r) :
    r.id = id ∧ asText (row.get "Catalog_ID") = .ok r.sheetsId ∧ r.householdId = h ∧
      Table.parents .catalog r = Table.reference .households h := by
  unfold make at eq
  obtain ⟨sheetsId, written, eq⟩ := bind_eq_ok eq
  obtain ⟨sameId, sameSheetsId, owner, parents⟩ := assign_eq_ok eq
  refine ⟨sameId, ?_, owner, (parents rfl).trans ?_⟩
  · rw [sameSheetsId]
    exact written
  · rfl

theorem make_total {row : Dict} {h : Option Uuid} {id : Uuid} {r : CatalogBean}
    (eq : make row h id = .ok r) (id₂ : Uuid) : ∃ r₂, make row h id₂ = .ok r₂ := by
  unfold make at eq ⊢
  obtain ⟨sheetsId, written, eq⟩ := bind_eq_ok eq
  rw [written]
  exact assign_total eq _

/-- The beans as a table that is upserted by sheet id. -/
def entity : SheetsEntity .catalog where
  idField := "Catalog_ID"
  sheetsId := (·.sheetsId)
  assign := assign
  make := make
  tenantScoped := rfl
  entries_eq _ := rfl
  assign_eq_ok _ _ _ _ := assign_eq_ok
  make_eq_ok _ _ _ _ := make_eq_ok
  make_total _ _ _ _ := make_total

/-- `upsert`, which commits. -/
def upsert (row : Dict) : DbM Unit := entity.upsert row

/-- `_to_dict`. -/
def toDict (row : CatalogBean) : Dict :=
  [("Catalog_ID", textOr row.sheetsId),
   ("Roaster", .str row.roaster),
   ("Bean_Name", .str row.beanName),
   ("Roast_Level", textOr row.roastLevel),
   ("Product_URL", textOr row.productUrl),
   ("Local_Image_Path", textOr row.localImagePath),
   ("Notes", textOr row.notes)]

/-- `list`, of all rows that the session sees. -/
def list : ReadM (List Dict) := do
  return (← select .catalog fun _ => true).map toDict

/-- `get` by sheet id. -/
def get (catalogId : String) : ReadM (Option Dict) := do
  let row ← oneOrNone (← select .catalog fun r => r.sheetsId == some catalogId)
  return row.map toDict

/-- `_fetch_all`. -/
def fetchAll : ReadM (List Dict) := list

end EspressoLogs.SqlCatalogRepo
