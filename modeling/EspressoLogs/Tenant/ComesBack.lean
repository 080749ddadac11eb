import EspressoLogs.Tenant.GetPut

/-!
Which rows come back.

The law of getting and putting back for the catalog, the hardware and the bags.
Each has its columns compared with a null text equal to an empty one.
-/

namespace EspressoLogs

open Lib Py

variable {h : Uuid} {w : World Table}

/-! ### The catalog -/

namespace SqlCatalogRepo

/-- The keys of the fields that an edit may replace. -/
def fields : List String :=
  ["Roaster", "Bean_Name", "Roast_Level", "Product_URL", "Local_Image_Path", "Notes"]

/-- Every column is the same, but for the one that the field is about. -/
structure SameBut (field : Option String) (r r' : CatalogBean) : Prop where
  id : r'.id = r.id
  householdId : r'.householdId = r.householdId
  sheetsId : r'.sheetsId = r.sheetsId
  roaster : field = some "Roaster" ∨ r'.roaster = r.roaster
  beanName : field = some "Bean_Name" ∨ r'.beanName = r.beanName
  origin : r'.origin.getD "" = r.origin.getD ""
  process : r'.process.getD "" = r.process.getD ""
  roastLevel : field = some "Roast_Level" ∨ r'.roastLevel.getD "" = r.roastLevel.getD ""
  notes : field = some "Notes" ∨ r'.notes.getD "" = r.notes.getD ""
  productUrl : field = some "Product_URL" ∨ r'.productUrl.getD "" = r.productUrl.getD ""
  localImagePath :
    field = some "Local_Image_Path" ∨ r'.localImagePath.getD "" = r.localImagePath.getD ""

theorem SameBut.refl (field : Option String) (r : CatalogBean) : SameBut field r r :=
  ⟨rfl, rfl, rfl, .inr rfl, .inr rfl, rfl, rfl, .inr rfl, .inr rfl, .inr rfl, .inr rfl⟩

/-- The texts of a row fit their columns. -/
def Fits (r : CatalogBean) : Prop :=
  ∀ s ∈ [r.roaster, r.beanName] ++ [r.sheetsId, r.roastLevel, r.notes, r.productUrl,
    r.localImagePath].map (·.getD ""), Storable s

/-- An unrelated edit wipes the origin and the process of a bean, which `get`
does not return, and fills its notes with its id. -/
def PutsBackWhen (r : CatalogBean) (s : String) (edit : Edit) : Prop :=
  s = "" ∨ edit.Unstorable ∨ (r.origin.getD "" = "" ∧ r.process.getD "" = "" ∧
    (edit.field = some "Notes" ∨ r.notes.getD "" ≠ ""))

theorem run_get {r : CatalogBean} {s : String} (holds : Holds entity h w r s) :
    (get s).run w = (.ok (some (toDict r)), w) := by
  refine CodeM.run_bind_of (run_select holds.serves.live .catalog _) ?_
  have only : (own (T := Table) h .catalog (w.db .catalog)).filter
      (fun x : CatalogBean => x.sheetsId == some s) = [r] := holds.own_filter fun x => beq_iff_eq
  rw [holds.visible, only]
  rfl

/-- The row that an upsert of an edited bean writes. -/
theorem assign_apply {r : CatalogBean} {s : String} {edit : Edit} (within : edit.Within fields)
    (fits : Fits r) (named : r.sheetsId = some s) (storable : ¬ edit.Unstorable)
    (owner : r.householdId = some h) :
    assign (edit.apply (toDict r)) (some h) r = .ok { r with
      roaster := edit.textOf "Roaster" r.roaster
      beanName := edit.textOf "Bean_Name" r.beanName
      origin := none
      process := none
      roastLevel := some (edit.textOf "Roast_Level" (r.roastLevel.getD ""))
      notes := some (if edit.textOf "Notes" (r.notes.getD "") = "" then s
        else edit.textOf "Notes" (r.notes.getD ""))
      productUrl := some (edit.textOf "Product_URL" (r.productUrl.getD ""))
      localImagePath := some (edit.textOf "Local_Image_Path" (r.localImagePath.getD "")) } := by
  have column {x : String} (hx : x ∈ [r.roaster, r.beanName] ++ [r.sheetsId, r.roastLevel, r.notes,
      r.productUrl, r.localImagePath].map (·.getD "")) : Storable x := fits x hx
  have roaster := Edit.asText_getD (d := toDict r) (k := "Roaster") (u := .str "") (Edit.fits storable _)
    (column (x := r.roaster) (by simp)) rfl
  have beanName := Edit.asText_getD (d := toDict r) (k := "Bean_Name") (u := .str "") (Edit.fits storable _)
    (column (x := r.beanName) (by simp)) rfl
  have origin : (edit.apply (toDict r)).get "Origin" = .none :=
    Edit.get_apply_of_notMem within (by decide)
  have process : (edit.apply (toDict r)).get "Process" = .none :=
    Edit.get_apply_of_notMem within (by decide)
  have roastLevel := Edit.asText_get (d := toDict r) (k := "Roast_Level") (Edit.fits storable _)
    (column (x := r.roastLevel.getD "") (by simp)) rfl
  have notes : asText ((((edit.apply (toDict r)).get "Tasting_Notes").or
      ((edit.apply (toDict r)).get "Notes")).or ((edit.apply (toDict r)).get "Catalog_ID")) =
      .ok (some (if edit.textOf "Notes" (r.notes.getD "") = "" then s
        else edit.textOf "Notes" (r.notes.getD ""))) := by
    have tasting : (edit.apply (toDict r)).get "Tasting_Notes" = .none :=
      Edit.get_apply_of_notMem within (by decide)
    have given : (edit.apply (toDict r)).get "Notes" = .str (edit.textOf "Notes" (r.notes.getD "")) :=
      Edit.get_apply rfl
    have catalogId : (edit.apply (toDict r)).get "Catalog_ID" = .str s := by
      rw [Edit.get_apply_of_notMem within (by decide)]
      exact congrArg textOr named
    rw [tasting, given, catalogId, Val.none_or, Val.str_or_str]
    refine asText_str ?_
    split
    · exact column (x := s) (by simp [named])
    · exact Edit.storable (Edit.fits storable _) (column (by simp))
  have productUrl := Edit.asText_get (d := toDict r) (k := "Product_URL") (Edit.fits storable _)
    (column (x := r.productUrl.getD "") (by simp)) rfl
  have localImagePath := Edit.asText_get (d := toDict r) (k := "Local_Image_Path") (Edit.fits storable _)
    (column (x := r.localImagePath.getD "") (by simp)) rfl
  simp only [assign, roaster, beanName, origin, process, roastLevel, notes, productUrl,
    localImagePath, ok_bind, notNull, owner]
  rfl

theorem not_assign_of_unstorable {r r' : CatalogBean} {edit : Edit} (within : edit.Within fields)
    (unstorable : edit.Unstorable) : assign (edit.apply (toDict r)) (some h) r ≠ .ok r' := by
  obtain ⟨k, v, rfl, hv⟩ := unstorable
  have hk : k ∈ fields := within k rfl
  intro eq
  unfold assign at eq
  obtain ⟨_, roaster, eq⟩ := bind_eq_ok eq
  obtain ⟨_, _, eq⟩ := bind_eq_ok eq
  obtain ⟨_, beanName, eq⟩ := bind_eq_ok eq
  obtain ⟨_, _, eq⟩ := bind_eq_ok eq
  obtain ⟨_, _, eq⟩ := bind_eq_ok eq
  obtain ⟨_, _, eq⟩ := bind_eq_ok eq
  obtain ⟨_, roastLevel, eq⟩ := bind_eq_ok eq
  obtain ⟨_, notes, eq⟩ := bind_eq_ok eq
  obtain ⟨_, productUrl, eq⟩ := bind_eq_ok eq
  obtain ⟨_, localImagePath, _⟩ := bind_eq_ok eq
  simp only [fields, List.mem_cons, List.not_mem_nil, or_false] at hk
  rcases hk with rfl | rfl | rfl | rfl | rfl | rfl
  · exact Edit.asText_getD_self hv roaster
  · exact Edit.asText_getD_self hv beanName
  · exact Edit.asText_get_self hv roastLevel
  · exact Edit.asText_get_self hv productUrl
  · exact Edit.asText_get_self hv localImagePath
  · have tasting : (Edit.apply (some ("Notes", v)) (toDict r)).get "Tasting_Notes" = .none :=
      Edit.get_apply_of_notMem within (by decide)
    rw [tasting, Val.none_or, Edit.get_self_or hv] at notes
    exact Edit.asText_get_self hv notes

theorem putsBack_iff {r : CatalogBean} {s : String} (holds : Holds entity h w r s) (fits : Fits r)
    {edit : Edit} (within : edit.Within fields) :
    PutsBack entity get SameBut w r s edit ↔ PutsBackWhen r s edit := by
  have key : (edit.apply (toDict r)).get "Catalog_ID" = .str s := by
    rw [Edit.get_apply_of_notMem within (by decide)]
    exact congrArg textOr holds.named
  rw [EspressoLogs.putsBack_iff holds (run_get holds) key
    (Edit.anonymous within (by decide) ⟨rfl, rfl⟩) (SameBut.refl _ _), PutsBackWhen]
  refine or_congr_right' fun named => ?_
  by_cases unstorable : edit.Unstorable
  · constructor
    · intro _
      exact .inl unstorable
    · intro _ r' assigned
      exact absurd assigned (not_assign_of_unstorable within unstorable)
  · have assigned := assign_apply within fits holds.named unstorable holds.owner
    constructor
    · intro kept
      have same := kept _ assigned
      refine .inr ⟨same.origin.symm, same.process.symm, ?_⟩
      by_cases field : edit.field = some "Notes"
      · exact .inl field
      · have notes := same.notes.resolve_left field
        simp only [Edit.textOf_of_ne field, Option.getD_some] at notes
        refine .inr fun none => named ?_
        rw [if_pos none] at notes
        exact notes.trans none
    · rintro (broken | ⟨origin, process, notes⟩) r' assigned'
      · exact absurd broken unstorable
      · cases assigned.symm.trans assigned'
        refine ⟨rfl, rfl, rfl, edit.textOf_eq _ _, edit.textOf_eq _ _, origin.symm, process.symm,
          edit.textOf_eq _ _, ?_, edit.textOf_eq _ _, edit.textOf_eq _ _⟩
        by_cases field : edit.field = some "Notes"
        · exact .inl field
        · have full := notes.resolve_left field
          refine .inr ?_
          simp only [Edit.textOf_of_ne field, Option.getD_some]
          exact if_neg full

end SqlCatalogRepo

/-! ### Hardware -/

namespace SqlHardwareRepo

/-- The keys of the fields that an edit may replace. -/
def fields : List String := ["Name", "Category", "Product_URL", "Local_Image_Path", "Notes"]

/-- Every column is the same, but for the one that the field is about. -/
structure SameBut (field : Option String) (r r' : Hardware) : Prop where
  id : r'.id = r.id
  householdId : r'.householdId = r.householdId
  sheetsId : r'.sheetsId = r.sheetsId
  name : field = some "Name" ∨ r'.name = r.name
  category : field = some "Category" ∨ r'.category = r.category
  notes : field = some "Notes" ∨ r'.notes.getD "" = r.notes.getD ""
  productUrl : field = some "Product_URL" ∨ r'.productUrl.getD "" = r.productUrl.getD ""
  localImagePath :
    field = some "Local_Image_Path" ∨ r'.localImagePath.getD "" = r.localImagePath.getD ""

theorem SameBut.refl (field : Option String) (r : Hardware) : SameBut field r r :=
  ⟨rfl, rfl, rfl, .inr rfl, .inr rfl, .inr rfl, .inr rfl, .inr rfl⟩

theorem run_get {r : Hardware} {s : String} (holds : Holds entity h w r s) :
    (get s).run w = (.ok (some (toDict r)), w) := by
  refine CodeM.run_bind_of (run_select holds.serves.live .hardware _) ?_
  have only : (own (T := Table) h .hardware (w.db .hardware)).filter
      (fun x : Hardware => x.sheetsId == some s) = [r] := holds.own_filter fun x => beq_iff_eq
  rw [holds.visible, only]
  rfl

/-- A piece of hardware always comes back. -/
theorem putsBack {r : Hardware} {s : String} (holds : Holds entity h w r s) {edit : Edit}
    (within : edit.Within fields) : PutsBack entity get SameBut w r s edit := by
  have key : (edit.apply (toDict r)).get "Hardware_ID" = .str s := by
    rw [Edit.get_apply_of_notMem within (by decide)]
    exact congrArg textOr holds.named
  rw [putsBack_iff holds (run_get holds) key
    (Edit.anonymous within (by decide) ⟨rfl, rfl⟩) (SameBut.refl _ _)]
  refine .inr fun r' eq => ?_
  have name : (edit.apply (toDict r)).getD "Name" (.str "") = .str (edit.textOf "Name" r.name) :=
    Edit.getD_apply rfl
  have category : (edit.apply (toDict r)).getD "Category" (.str "") =
      .str (edit.textOf "Category" r.category) := Edit.getD_apply rfl
  have productUrl : (edit.apply (toDict r)).get "Product_URL" =
      .str (edit.textOf "Product_URL" (r.productUrl.getD "")) := Edit.get_apply rfl
  have localImagePath : (edit.apply (toDict r)).get "Local_Image_Path" =
      .str (edit.textOf "Local_Image_Path" (r.localImagePath.getD "")) := Edit.get_apply rfl
  unfold entity assign at eq
  obtain ⟨_, read₁, eq⟩ := bind_eq_ok eq
  obtain ⟨_, full₁, eq⟩ := bind_eq_ok eq
  obtain ⟨_, read₂, eq⟩ := bind_eq_ok eq
  obtain ⟨_, full₂, eq⟩ := bind_eq_ok eq
  obtain ⟨_, read₃, eq⟩ := bind_eq_ok eq
  obtain ⟨_, read₄, eq⟩ := bind_eq_ok eq
  cases eq
  rw [asText_eq_ok name read₁] at full₁
  rw [asText_eq_ok category read₂] at full₂
  rw [asText_eq_ok productUrl read₃, asText_eq_ok localImagePath read₄]
  cases full₁
  cases full₂
  exact ⟨rfl, holds.owner.symm, rfl, edit.textOf_eq _ _, edit.textOf_eq _ _, .inr rfl,
    edit.textOf_eq _ _, edit.textOf_eq _ _⟩

end SqlHardwareRepo

/-! ### Inventory -/

namespace SqlInventoryRepo

/-- The keys of the fields that an edit may replace. -/
def fields : List String :=
  ["Catalog_ID", "Beans", "Display_Name", "RoastDate", "RoastLevel", "Roast_Level", "Status",
    "Storage_Method", "Notes"]

/-- Every column is the same, but for the one that the field is about. -/
structure SameBut (field : Option String) (r r' : InventoryBag) : Prop where
  id : r'.id = r.id
  householdId : r'.householdId = r.householdId
  catalogId : r'.catalogId = r.catalogId
  sheetsId : r'.sheetsId = r.sheetsId
  roastDate : field = some "RoastDate" ∨ r'.roastDate = r.roastDate
  notes : field = some "Notes" ∨ r'.notes.getD "" = r.notes.getD ""
  sheetsCatalogId :
    field = some "Catalog_ID" ∨ r'.sheetsCatalogId.getD "" = r.sheetsCatalogId.getD ""
  beans : field = some "Beans" ∨ r'.beans.getD "" = r.beans.getD ""
  displayName : field = some "Display_Name" ∨ r'.displayName.getD "" = r.displayName.getD ""
  roastLevel : field = some "RoastLevel" ∨ field = some "Roast_Level" ∨
    r'.roastLevel.getD "" = r.roastLevel.getD ""
  status : field = some "Status" ∨ r'.status.getD "" = r.status.getD ""
  storageMethod : field = some "Storage_Method" ∨ r'.storageMethod.getD "" = r.storageMethod.getD ""

theorem SameBut.refl (field : Option String) (r : InventoryBag) : SameBut field r r :=
  ⟨rfl, rfl, rfl, rfl, .inr rfl, .inr rfl, .inr rfl, .inr rfl, .inr rfl, .inr (.inr rfl), .inr rfl,
    .inr rfl⟩

/-- The texts of a bag, and the id of its catalog row, fit their columns. -/
def Fits (r : InventoryBag) (catalogId : Option String) : Prop :=
  ∀ s ∈ [catalogId, r.notes, r.sheetsCatalogId, r.beans, r.displayName, r.roastLevel, r.status,
    r.storageMethod].map (·.getD ""), Storable s

/-- The new text is read as that of a column that does not hold it. A text for
the roast date is parsed, and one for `Roast_Level` is read only where the bag
has no roast level. -/
def Refused (edit : Edit) (r : InventoryBag) : Prop :=
  edit.Unstorable ∧ edit.field ≠ some "RoastDate" ∧
    (edit.field = some "Roast_Level" → r.roastLevel.getD "" = "")

/-- The catalog id that `get` returns, from the bag's catalog row when it has one. -/
def catalogIdOf (db : State) (h : Uuid) (r : InventoryBag) : Option String :=
  ((own (T := Table) h .catalog (db .catalog)).find? fun bean : CatalogBean =>
    r.catalogId == some bean.id).bind CatalogBean.sheetsId

/-- An unrelated edit fills an empty display name and empty notes with the
beans, makes a missing status Active, and writes the id of the catalog row over
another one. -/
def PutsBackWhen (r : InventoryBag) (catalogId : Option String) (s : String) (edit : Edit) : Prop :=
  s = "" ∨ Refused edit r ∨
    ((edit.field = some "Display_Name" ∨ r.displayName.getD "" ≠ "" ∨
        r.beans.getD "" = "" ∧ edit.textOf "Beans" (r.beans.getD "") = "") ∧
      (edit.field = some "Status" ∨ r.status.getD "" ≠ "") ∧
      (edit.field = some "Notes" ∨ r.notes.getD "" ≠ "" ∨
        edit.textOf "Beans" (r.beans.getD "") = "") ∧
      (edit.field = some "Catalog_ID" ∨ catalogId.getD "" = "" ∨
        catalogId.getD "" = r.sheetsCatalogId.getD ""))

theorem ofOption_or (o : Option String) (b : String) :
    (ofOption o).or (.str b) = .str (if o.getD "" = "" then b else o.getD "") := by
  cases o with
  | none => rfl
  | some a => exact Val.str_or_str a b

theorem firstText_eq (a b : Option String) :
    firstText a b = .str (if a.getD "" = "" then b.getD "" else a.getD "") := by
  have second : (ofOption b).or (.str "") = .str (b.getD "") := by
    rw [ofOption_or]
    split
    · rename_i empty
      rw [empty]
    · rfl
  rw [firstText, second, ofOption_or]

theorem run_get {r : InventoryBag} {s : String} (holds : Holds entity h w r s)
    (keyed : Table.catalog.Keyed (w.db .catalog)) :
    (get s).run w = (.ok (some (toDict r (catalogIdOf w.db h r))), w) := by
  have only : (own (T := Table) h .inventoryBags (w.db .inventoryBags)).filter
      (fun x : InventoryBag => x.sheetsId == some s) = [r] :=
    holds.own_filter fun x => beq_iff_eq
  have distinct : ((own (T := Table) h .catalog (w.db .catalog)).map
      fun bean : CatalogBean => some bean.id).Nodup := by
    have ids := SheetsEntity.keyed_own (h := h) keyed
    have wrapped := List.Nodup.map (Option.some_injective Uuid) ids
    rw [List.map_map] at wrapped
    exact wrapped
  have partner := filter_eq_find (p := fun bean : CatalogBean => r.catalogId == some bean.id)
    (k := r.catalogId) (fun bean here => (beq_iff_eq.mp here).symm) distinct
  have beans : w.visible .catalog = own (T := Table) h .catalog (w.db .catalog) := by
    rw [visible_eq_own holds.serves.context rfl, holds.clean]
  refine CodeM.run_bind_of (CodeM.run_bind_of (run_leftJoin holds.serves.live ..) rfl) ?_
  rw [World.joined, holds.visible, only, beans, leftJoined, List.flatMap_cons, partner, catalogIdOf]
  cases (own (T := Table) h .catalog (w.db .catalog)).find? fun bean : CatalogBean =>
      r.catalogId == some bean.id with
  | none => rfl
  | some bean => rfl

/-- What `get` shows as the display name, edited. -/
def shownName (edit : Edit) (r : InventoryBag) : String :=
  edit.textOf "Display_Name"
    (if r.displayName.getD "" = "" then r.beans.getD "" else r.displayName.getD "")

/-- The row that an upsert of an edited bag writes. -/
def written (edit : Edit) (c : Option String) (r : InventoryBag) : InventoryBag :=
  { r with
    roastDate := toDate (.str (edit.textOf "RoastDate" ((r.roastDate.map Date.isoformat).getD "")))
    beans := some (edit.textOf "Beans" (r.beans.getD ""))
    displayName :=
      some (if shownName edit r = "" then edit.textOf "Beans" (r.beans.getD "")
        else shownName edit r)
    roastLevel :=
      some (if edit.textOf "RoastLevel" (r.roastLevel.getD "") = ""
        then edit.textOf "Roast_Level" (r.roastLevel.getD "")
        else edit.textOf "RoastLevel" (r.roastLevel.getD ""))
    status :=
      some (edit.textOf "Status" (if r.status.getD "" = "" then "Active" else r.status.getD ""))
    storageMethod := some (edit.textOf "Storage_Method" (r.storageMethod.getD ""))
    notes :=
      some (if edit.textOf "Notes" (r.notes.getD "") = "" then edit.textOf "Beans" (r.beans.getD "")
        else edit.textOf "Notes" (r.notes.getD ""))
    sheetsCatalogId := some (edit.textOf "Catalog_ID"
      (if c.getD "" = "" then r.sheetsCatalogId.getD "" else c.getD "")) }

theorem storable_ite {p : Prop} [Decidable p] {a b : String} (ha : p → Storable a)
    (hb : ¬ p → Storable b) : Storable (if p then a else b) := by
  split
  · exact ha ‹_›
  · exact hb ‹_›

theorem assign_apply {r : InventoryBag} {c : Option String} {edit : Edit} (fits : Fits r c)
    (storable : ¬ Refused edit r) (owner : r.householdId = some h) :
    assign (edit.apply (toDict r c)) (some h) r = .ok (written edit c r) := by
  have column {x : Option String} (hx : x ∈ [c, r.notes, r.sheetsCatalogId, r.beans, r.displayName,
      r.roastLevel, r.status, r.storageMethod]) : Storable (x.getD "") :=
    fits _ (List.mem_map_of_mem hx)
  have ok {k : String} (date : k ≠ "RoastDate") (level : k ≠ "Roast_Level") : edit.Fits k := by
    intro v here
    refine Bool.eq_false_iff.mpr fun holds => storable ⟨⟨k, v, here, holds⟩, ?_⟩
    rw [here]
    exact ⟨fun same => date (Option.some.inj same), fun same => absurd (Option.some.inj same) level⟩
  have roastDate : (edit.apply (toDict r c)).get "RoastDate" = _ := Edit.get_apply rfl
  have beans : (edit.apply (toDict r c)).get "Beans" = _ := Edit.get_apply rfl
  have beansFit : Storable (edit.textOf "Beans" (r.beans.getD "")) :=
    Edit.storable (ok (by decide) (by decide)) (column (by simp))
  have displayName : (edit.apply (toDict r c)).get "Display_Name" = .str (shownName edit r) :=
    Edit.get_apply (firstText_eq r.displayName r.beans)
  have displayNameFit : Storable (shownName edit r) :=
    Edit.storable (ok (by decide) (by decide))
      (storable_ite (fun _ => column (by simp)) fun _ => column (by simp))
  have roastLevel : (edit.apply (toDict r c)).get "RoastLevel" = _ := Edit.get_apply rfl
  have roastLevel₂ : (edit.apply (toDict r c)).get "Roast_Level" = _ := Edit.get_apply rfl
  have status : (edit.apply (toDict r c)).getD "Status" (.str "Active") = _ :=
    Edit.getD_apply (ofOption_or r.status "Active")
  have storageMethod : (edit.apply (toDict r c)).get "Storage_Method" = _ := Edit.get_apply rfl
  have notes : (edit.apply (toDict r c)).get "Notes" = _ := Edit.get_apply rfl
  have catalogId : (edit.apply (toDict r c)).get "Catalog_ID" = _ :=
    Edit.get_apply (firstText_eq c r.sheetsCatalogId)
  have roastLevelFit : Storable (if edit.textOf "RoastLevel" (r.roastLevel.getD "") = ""
      then edit.textOf "Roast_Level" (r.roastLevel.getD "")
      else edit.textOf "RoastLevel" (r.roastLevel.getD "")) := by
    refine storable_ite (fun none => ?_) fun _ => ?_
    · refine Edit.storable (fun v here => ?_) (column (by simp))
      refine Bool.eq_false_iff.mpr fun holds => storable ⟨⟨_, v, here, holds⟩, ?_⟩
      subst here
      exact ⟨show some "Roast_Level" ≠ some "RoastDate" by decide, fun _ => none⟩
    · exact Edit.storable (ok (by decide) (by decide)) (column (by simp))
  have statusFit : Storable (edit.textOf "Status"
      (if r.status.getD "" = "" then "Active" else r.status.getD "")) :=
    Edit.storable (ok (by decide) (by decide)) (storable_ite (fun _ => rfl) fun _ => column (by simp))
  have storageMethodFit : Storable (edit.textOf "Storage_Method" (r.storageMethod.getD "")) :=
    Edit.storable (ok (by decide) (by decide)) (column (by simp))
  have notesFit : Storable (edit.textOf "Notes" (r.notes.getD "")) :=
    Edit.storable (ok (by decide) (by decide)) (column (by simp))
  have catalogIdFit : Storable (edit.textOf "Catalog_ID"
      (if c.getD "" = "" then r.sheetsCatalogId.getD "" else c.getD "")) :=
    Edit.storable (ok (by decide) (by decide))
      (storable_ite (fun _ => column (by simp)) fun _ => column (by simp))
  simp only [assign, roastDate, beans, displayName, roastLevel, roastLevel₂, status, storageMethod,
    notes, catalogId, Val.str_or_str, asText_str beansFit, asText_str roastLevelFit,
    asText_str (storable_ite (fun _ => beansFit) fun _ => displayNameFit), asText_str statusFit,
    asText_str storageMethodFit, asText_str (storable_ite (fun _ => beansFit) fun _ => notesFit),
    asText_str catalogIdFit, ok_bind]
  rw [written, ← owner]
  rfl

theorem toDate_isoformat (date : Date) : toDate (.str date.isoformat) = some date := by
  have full : date.isoformat ≠ "" := by
    intro none
    have parsed := Date.fromIsoformat_isoformat date
    rw [none] at parsed
    cases parsed
  rw [toDate, if_neg (by simpa [Val.isBlank] using full)]
  exact Date.fromIsoformat_isoformat date

/-- A text with a fallback stays as it is. -/
theorem fallback_eq_iff {a b : String} : (if a = "" then b else a) = a ↔ a ≠ "" ∨ b = "" := by
  by_cases empty : a = ""
  · simp [empty]
  · simp [empty]

theorem roastDate_written (edit : Edit) (c : Option String) (r : InventoryBag) :
    edit.field = some "RoastDate" ∨ (written edit c r).roastDate = r.roastDate := by
  by_cases here : edit.field = some "RoastDate"
  · exact .inl here
  · refine .inr ?_
    show toDate (.str (edit.textOf "RoastDate" _)) = _
    rw [Edit.textOf_of_ne here]
    cases r.roastDate with
    | none => rfl
    | some date => exact toDate_isoformat date

theorem roastLevel_written (edit : Edit) (c : Option String) (r : InventoryBag) :
    edit.field = some "RoastLevel" ∨ edit.field = some "Roast_Level" ∨
      (written edit c r).roastLevel.getD "" = r.roastLevel.getD "" := by
  by_cases first : edit.field = some "RoastLevel"
  · exact .inl first
  · by_cases second : edit.field = some "Roast_Level"
    · exact .inr (.inl second)
    · refine .inr (.inr ?_)
      show (if edit.textOf "RoastLevel" _ = "" then _ else edit.textOf "RoastLevel" _) = _
      rw [Edit.textOf_of_ne first, Edit.textOf_of_ne second]
      exact ite_self _

/-- Which columns of the written row are those of the bag. -/
theorem sameBut_written_iff {edit : Edit} {c : Option String} {r : InventoryBag} :
    SameBut edit.field r (written edit c r) ↔
      (edit.field = some "Display_Name" ∨ r.displayName.getD "" ≠ "" ∨
        r.beans.getD "" = "" ∧ edit.textOf "Beans" (r.beans.getD "") = "") ∧
      (edit.field = some "Status" ∨ r.status.getD "" ≠ "") ∧
      (edit.field = some "Notes" ∨ r.notes.getD "" ≠ "" ∨
        edit.textOf "Beans" (r.beans.getD "") = "") ∧
      (edit.field = some "Catalog_ID" ∨ c.getD "" = "" ∨
        c.getD "" = r.sheetsCatalogId.getD "") := by
  -- the four columns with a fallback in the upsert; the others come back as they are
  have displayName : (edit.field = some "Display_Name" ∨
      (written edit c r).displayName.getD "" = r.displayName.getD "") ↔
        edit.field = some "Display_Name" ∨ r.displayName.getD "" ≠ "" ∨
          r.beans.getD "" = "" ∧ edit.textOf "Beans" (r.beans.getD "") = "" := by
    refine or_congr_right' fun other => ?_
    show (if shownName edit r = "" then _ else shownName edit r) = _ ↔ _
    rw [shownName, Edit.textOf_of_ne other]
    by_cases named : r.displayName.getD "" = ""
    · rw [if_pos named, named]
      by_cases none : r.beans.getD "" = ""
      · simp [none]
      · simp [none]
    · simp [named]
  have status : (edit.field = some "Status" ∨ (written edit c r).status.getD "" = r.status.getD "") ↔
      edit.field = some "Status" ∨ r.status.getD "" ≠ "" := by
    refine or_congr_right' fun other => ?_
    show edit.textOf "Status" _ = _ ↔ _
    rw [Edit.textOf_of_ne other, fallback_eq_iff]
    exact or_iff_left (by decide)
  have notes : (edit.field = some "Notes" ∨ (written edit c r).notes.getD "" = r.notes.getD "") ↔
      edit.field = some "Notes" ∨ r.notes.getD "" ≠ "" ∨
        edit.textOf "Beans" (r.beans.getD "") = "" := by
    refine or_congr_right' fun other => ?_
    show (if edit.textOf "Notes" _ = "" then _ else edit.textOf "Notes" _) = _ ↔ _
    rw [Edit.textOf_of_ne other, fallback_eq_iff]
  have catalogId : (edit.field = some "Catalog_ID" ∨
      (written edit c r).sheetsCatalogId.getD "" = r.sheetsCatalogId.getD "") ↔
        edit.field = some "Catalog_ID" ∨ c.getD "" = "" ∨
          c.getD "" = r.sheetsCatalogId.getD "" := by
    refine or_congr_right' fun other => ?_
    show edit.textOf "Catalog_ID" _ = _ ↔ _
    rw [Edit.textOf_of_ne other]
    by_cases none : c.getD "" = ""
    · simp [none]
    · simp [none]
  rw [← displayName, ← status, ← notes, ← catalogId]
  constructor
  · intro same
    exact ⟨same.displayName, same.status, same.notes, same.sheetsCatalogId⟩
  · rintro ⟨sameDisplayName, sameStatus, sameNotes, sameCatalogId⟩
    exact
      { id := rfl
        householdId := rfl
        catalogId := rfl
        sheetsId := rfl
        roastDate := roastDate_written edit c r
        notes := sameNotes
        sheetsCatalogId := sameCatalogId
        beans := edit.textOf_eq _ _
        displayName := sameDisplayName
        roastLevel := roastLevel_written edit c r
        status := sameStatus
        storageMethod := edit.textOf_eq _ _ }

theorem not_assign_of_refused {r r' : InventoryBag} {c : Option String} {edit : Edit}
    (within : edit.Within fields) (refused : Refused edit r) :
    assign (edit.apply (toDict r c)) (some h) r ≠ .ok r' := by
  obtain ⟨⟨k, v, rfl, hv⟩, date, level⟩ := refused
  have hk : k ∈ fields := within k rfl
  intro eq
  unfold assign at eq
  obtain ⟨_, beans, eq⟩ := bind_eq_ok eq
  obtain ⟨_, displayName, eq⟩ := bind_eq_ok eq
  obtain ⟨_, roastLevel, eq⟩ := bind_eq_ok eq
  obtain ⟨_, status, eq⟩ := bind_eq_ok eq
  obtain ⟨_, storageMethod, eq⟩ := bind_eq_ok eq
  obtain ⟨_, notes, eq⟩ := bind_eq_ok eq
  obtain ⟨_, catalogId, _⟩ := bind_eq_ok eq
  simp only [fields, List.mem_cons, List.not_mem_nil, or_false] at hk
  rcases hk with rfl | rfl | rfl | rfl | rfl | rfl | rfl | rfl | rfl
  · exact Edit.asText_get_self hv catalogId
  · exact Edit.asText_get_self hv beans
  · rw [Edit.get_self_or hv] at displayName
    exact Edit.asText_get_self hv displayName
  · exact date rfl
  · rw [Edit.get_self_or hv] at roastLevel
    exact Edit.asText_get_self hv roastLevel
  · have none : (Edit.apply (some ("Roast_Level", v)) (toDict r c)).get "RoastLevel" = .str "" :=
      Edit.get_apply (congrArg Val.str (level rfl))
    have blank (u : Val) : (Val.str "").or u = u := rfl
    rw [none, blank] at roastLevel
    exact Edit.asText_get_self hv roastLevel
  · exact Edit.asText_getD_self hv status
  · exact Edit.asText_get_self hv storageMethod
  · rw [Edit.get_self_or hv] at notes
    exact Edit.asText_get_self hv notes

theorem putsBack_iff {r : InventoryBag} {s : String} (holds : Holds entity h w r s)
    (keyed : Table.catalog.Keyed (w.db .catalog)) (fits : Fits r (catalogIdOf w.db h r))
    {edit : Edit} (within : edit.Within fields) :
    PutsBack entity get SameBut w r s edit ↔ PutsBackWhen r (catalogIdOf w.db h r) s edit := by
  have key : (edit.apply (toDict r (catalogIdOf w.db h r))).get "Bag_ID" = .str s := by
    rw [Edit.get_apply_of_notMem within (by decide)]
    exact congrArg textOr holds.named
  rw [EspressoLogs.putsBack_iff holds (run_get holds keyed) key
    (Edit.anonymous within (by decide) ⟨rfl, rfl⟩) (SameBut.refl _ _), PutsBackWhen]
  refine or_congr_right ?_
  by_cases refused : Refused edit r
  · constructor
    · intro _
      exact .inl refused
    · intro _ r' assigned
      exact absurd assigned (not_assign_of_refused within refused)
  · have assigned := assign_apply fits refused holds.owner
    constructor
    · intro kept
      refine .inr ?_
      exact sameBut_written_iff.mp (kept _ assigned)
    · rintro (broken | same) r' assigned'
      · exact absurd broken refused
      · cases assigned.symm.trans assigned'
        exact sameBut_written_iff.mpr same

end SqlInventoryRepo

/-! ### The law -/

/-- Which rows come back as they were, but for the field that was replaced. An entity is
read with `get`, a field is replaced in the dictionary, and the dictionary is put: for
beans and bags that changes the row where the dictionary lacks a column or the read
fills one in, and `PutsBackWhen` says for which rows and edits it does not; hardware
always comes back. The rows are those of a household in whose context both run, and
their texts fit the columns. -/
theorem get_put (h : Uuid) (w : World Table) (s : String) (edit : Edit) :
    (∀ r : CatalogBean, Holds SqlCatalogRepo.entity h w r s → SqlCatalogRepo.Fits r →
      edit.Within SqlCatalogRepo.fields →
        (PutsBack SqlCatalogRepo.entity SqlCatalogRepo.get SqlCatalogRepo.SameBut w r s edit ↔
          SqlCatalogRepo.PutsBackWhen r s edit)) ∧
    (∀ r : InventoryBag, Holds SqlInventoryRepo.entity h w r s →
      Table.catalog.Keyed (w.db .catalog) →
      SqlInventoryRepo.Fits r (SqlInventoryRepo.catalogIdOf w.db h r) →
      edit.Within SqlInventoryRepo.fields →
        (PutsBack SqlInventoryRepo.entity SqlInventoryRepo.get SqlInventoryRepo.SameBut w r s edit ↔
          SqlInventoryRepo.PutsBackWhen r (SqlInventoryRepo.catalogIdOf w.db h r) s edit)) ∧
    (∀ r : Hardware, Holds SqlHardwareRepo.entity h w r s → edit.Within SqlHardwareRepo.fields →
      PutsBack SqlHardwareRepo.entity SqlHardwareRepo.get SqlHardwareRepo.SameBut w r s edit) := by
  refine ⟨fun r holds fits within => ?_, fun r holds keyed fits within => ?_,
    fun r holds within => ?_⟩
  · exact SqlCatalogRepo.putsBack_iff holds fits within
  · exact SqlInventoryRepo.putsBack_iff holds keyed fits within
  · exact SqlHardwareRepo.putsBack holds within

namespace Sample

def bean : CatalogBean :=
  { id := id 10, householdId := some household.id, roaster := "Onyx", beanName := "Geometry",
    origin := some "Ethiopia", process := none, roastLevel := some "Light", notes := some "floral",
    sheetsId := some "B1", productUrl := none, localImagePath := none }

def bag : InventoryBag :=
  { id := id 11, householdId := some household.id, catalogId := some bean.id, roastDate := some day,
    notes := some "second bag", sheetsId := some "B1", sheetsCatalogId := some "B1",
    beans := some "Geometry", displayName := some "Geometry", roastLevel := none,
    status := some "Active", storageMethod := none }

def grinder : Hardware :=
  { id := id 12, householdId := some household.id, name := "Niche", category := "Grinder",
    notes := none, sheetsId := some "B1", productUrl := none, localImagePath := none }

/-- A household with a bean, a bag of it and a grinder. -/
def pantry : State
  | .catalog => [bean]
  | .inventoryBags => [bag]
  | .hardware => [grinder]
  | t => db t

/-- The household is at work in its pantry. -/
def atPantry : World Table :=
  { db := pantry, session := { Session.idle call.supply with context := some household.id } }

theorem atPantry_serves : Serves household.id atPantry := ⟨⟨rfl, rfl⟩, rfl, rfl⟩

theorem bean_holds : Holds SqlCatalogRepo.entity household.id atPantry bean "B1" where
  serves := atPantry_serves
  clean := rfl
  keyed := List.nodup_singleton _
  indexed := List.pairwise_singleton _ _
  mem := List.mem_singleton.mpr rfl
  owner := rfl
  named := rfl

theorem bag_holds : Holds SqlInventoryRepo.entity household.id atPantry bag "B1" where
  serves := atPantry_serves
  clean := rfl
  keyed := List.nodup_singleton _
  indexed := List.pairwise_singleton _ _
  mem := List.mem_singleton.mpr rfl
  owner := rfl
  named := rfl

theorem grinder_holds : Holds SqlHardwareRepo.entity household.id atPantry grinder "B1" where
  serves := atPantry_serves
  clean := rfl
  keyed := List.nodup_singleton _
  indexed := List.pairwise_singleton _ _
  mem := List.mem_singleton.mpr rfl
  owner := rfl
  named := rfl

/-- Each row of the pantry, put back with another text in one field. -/
theorem get_put_of_pantry :
    (PutsBack SqlCatalogRepo.entity SqlCatalogRepo.get SqlCatalogRepo.SameBut atPantry bean "B1"
        (some ("Roaster", "April")) ↔
      SqlCatalogRepo.PutsBackWhen bean "B1" (some ("Roaster", "April"))) ∧
    (PutsBack SqlInventoryRepo.entity SqlInventoryRepo.get SqlInventoryRepo.SameBut atPantry bag "B1"
        (some ("Status", "Finished")) ↔
      SqlInventoryRepo.PutsBackWhen bag (some "B1") "B1" (some ("Status", "Finished"))) ∧
    PutsBack SqlHardwareRepo.entity SqlHardwareRepo.get SqlHardwareRepo.SameBut atPantry grinder "B1"
      (some ("Name", "Niche Zero")) :=
  ⟨(get_put household.id atPantry "B1" (some ("Roaster", "April"))).1 bean bean_holds
      (by unfold SqlCatalogRepo.Fits Storable; decide) (by rintro k ⟨⟩; decide),
    (get_put household.id atPantry "B1" (some ("Status", "Finished"))).2.1 bag bag_holds
      (List.nodup_singleton _) (by unfold SqlInventoryRepo.Fits Storable; decide)
      (by rintro k ⟨⟩; decide),
    (get_put household.id atPantry "B1" (some ("Name", "Niche Zero"))).2.2 grinder grinder_holds
      (by rintro k ⟨⟩; decide)⟩

/-- Naming another roast level wipes the origin of the bean. -/
theorem origin_lost : ¬ PutsBack SqlCatalogRepo.entity SqlCatalogRepo.get SqlCatalogRepo.SameBut
    atPantry bean "B1" (some ("Roast_Level", "Dark")) := by
  rw [SqlCatalogRepo.putsBack_iff bean_holds (by unfold SqlCatalogRepo.Fits Storable; decide)
    (by rintro k ⟨⟩; decide)]
  rintro (named | ⟨k, v, same, unstorable⟩ | ⟨origin, _⟩)
  · exact absurd named (by decide)
  · cases same
    cases unstorable
  · exact absurd origin (by decide)

end Sample

end EspressoLogs
