import EspressoLogs.Importer.Schema
import EspressoLogs.Lib.Fallible

/-!
The dry run of an import: `find_enum_divergences`, the rows under their canonical
columns, and `_compute_dry_run`.

A row of the log is renamed cell by cell; the rows of the other sections are
renamed by going through the mapping. Where several legacy columns have the same
canonical one, the last of them counts (`arriving`).
-/

namespace EspressoLogs.Importer

open Lib Py

/-! ### Divergences -/

/-- The columns that are mapped to an enum, with that enum. -/
def enumCols (mapping : ColumnMapping) : List (Option String × String) :=
  mapping.entries.filterMap fun x =>
    (x.2.filter fun canonical => canonical ∈ knownEnumMaps.keys).map fun canonical => (x.1, canonical)

/-- The value in a column, when it is one that has to be confirmed. -/
def divergence (row : Row) (x : Option String × String) : Except Exc (Option (String × String)) :=
  match (row.get x.1).getD (.text "") with
  | .missing => .ok none
  | .text val =>
      .ok (if val = "" ∨ val ∈ (knownMap x.2).keys ∨ val ∈ canonicalValues x.2 then none
        else some (x.2, val))
  | .rest cells => if cells = [] then .ok none else .error .typeError

/-- `find_enum_divergences`, before the values are sorted by enum. -/
def divergences (rows : List Row) (mapping : ColumnMapping) :
    Except Exc (List (String × String)) := do
  let found ← rows.mapM fun row => (enumCols mapping).mapM (divergence row)
  return found.flatten.reduceOption

/-- The set of the values found for an enum, sorted. -/
def sortedValues (found : List (String × String)) (enum : String) : List String :=
  ((found.filter fun x => x.1 == enum).map Prod.snd).dedup.mergeSort fun a b => decide (a ≤ b)

/-- `find_enum_divergences`. -/
def findEnumDivergences (rows : List Row) (mapping : ColumnMapping) :
    Except Exc (Ordered String (List String)) := do
  let found ← divergences rows mapping
  return .ofList (found.map fun x => (x.1, sortedValues found x.1))

/-! ### Renaming -/

/-- A row under canonical columns. -/
abbrev Out := Ordered String Cell

/-- The row cell by cell. -/
def renameCells (row : Row) (mapping : ColumnMapping) : List (String × Cell) :=
  row.entries.filterMap fun x => (mapping.get x.1).join.map fun canonical => (canonical, x.2)

/-- The mapping column by column. -/
def renameColumns (row : Row) (mapping : ColumnMapping) : List (String × Cell) :=
  mapping.entries.filterMap fun x => x.2.bind fun canonical =>
    (row.get x.1).map fun value => (canonical, value)

/-! ### Values -/

def isDecimal (c : Char) : Bool := (decimal c).isSome

/-- What `$` leaves of a text: it also matches before a line break at the end. -/
def beforeEnd (cs : List Char) : List Char := if cs.getLast? = some '\n' then cs.dropLast else cs

/-- `_DATE_YYYYMMDD_RE`. -/
def isDashDate (s : String) : Bool :=
  match beforeEnd s.toList with
  | [a, b, c, d, '-', e, f, '-', g, h] => [a, b, c, d, e, f, g, h].all isDecimal
  | _ => false

/-- `_DATE_MMDDYYYY_RE`, and the date written the other way. -/
def ofSlashDate (s : String) : Option String :=
  match beforeEnd s.toList with
  | [a, b, '/', c, d, '/', e, f, g, h] =>
      if [a, b, c, d, e, f, g, h].all isDecimal then
        some (String.ofList [e, f, g, h, '-', a, b, '-', c, d])
      else none
  | _ => none

/-- The date in a row of the log; a regular expression matches texts only. -/
def normalizeDate (out : Out) : Except Exc Out :=
  match out.get "Date" with
  | none => .ok out
  | some (.text s) => .ok (if isDashDate s then out else match ofSlashDate s with
      | some date => out.set "Date" (.text date)
      | none => out)
  | some _ => .error .typeError

/-- The values that were confirmed for an enum. -/
def confirmedMap (confirmed : Ordered String EnumMap) (enum : String) : EnumMap :=
  (confirmed.get enum).getD .empty

/-- What a value is resolved to: by the known map, or else as it was confirmed. -/
def resolved (confirmed : Ordered String EnumMap) (enum val : String) : Option String :=
  ((knownMap enum).get val).or ((confirmedMap confirmed enum).get val)

/-- The canonical value in a column of an enum; a list is no key of a dictionary. -/
def normalizeEnum (confirmed : Ordered String EnumMap) (column enum : String) (out : Out) :
    Except Exc Out :=
  match out.get column with
  | none | some .missing => .ok out
  | some (.text val) => .ok (match resolved confirmed enum val with
      | some canonical => out.set column (.text canonical)
      | none => out)
  | some (.rest _) => .error .typeError

/-! ### Rows -/

/-- `SHOT-` and eight digits of a fresh UUID, where the row has no id. -/
def withShotId (uuidHex : String) (out : Out) : Out :=
  if ((out.get "Shot_ID").map Cell.truthy).getD false then out
  else out.set "Shot_ID" (.text ("SHOT-" ++ String.ofList ((uuidHex.toList.take 8).map Char.toUpper)))

abbrev Normalizer := String → Row → ColumnMapping → Ordered String EnumMap → Except Exc Out

def normalizeBrewLogRow : Normalizer := fun uuidHex row mapping confirmed => do
  let out ← normalizeDate (.ofList (renameCells row mapping))
  let out ← normalizeEnum confirmed "Shot_Eligibility" "Shot_Eligibility" out
  let out ← normalizeEnum confirmed "Taste_Summary" "Taste_Summary" out
  return withShotId uuidHex out

def normalizeCatalogRow : Normalizer := fun _ row mapping confirmed =>
  normalizeEnum confirmed "Roast_Level" "Roast_Level" (.ofList (renameColumns row mapping))

/-- `normalize_inventory_row`: the column of the roast level is `RoastLevel`. -/
def normalizeInventoryRow : Normalizer := fun _ row mapping confirmed =>
  normalizeEnum confirmed "RoastLevel" "Roast_Level" (.ofList (renameColumns row mapping))

def normalizeHardwareRow : Normalizer := fun _ row mapping _ => .ok (.ofList (renameColumns row mapping))

/-- `f"MNT{sequence:03d}"`. -/
def maintenanceId (sequence : Nat) : String := "MNT" ++ String.ofList (zfill 3 sequence)

/-- `row[key]`. -/
def cellOf (row : Row) (key : String) : Except Exc Cell :=
  match row.get (some key) with
  | some value => .ok value
  | none => .error .keyError

def migrateGrinderCalibrationRow (row : Row) (sequence : Nat) : Except Exc Out := do
  return .ofList [
    ("Maintenance_ID", .text (maintenanceId sequence)),
    ("Hardware_ID", ← cellOf row "Grinder_ID"),
    ("Date", ← cellOf row "Date"),
    ("Action_Type", .text "Re-zero"),
    ("Notes", (row.get (some "Notes")).getD (.text ""))]

/-! ### The dry run -/

/-- Of `ImportState`, what the dry run reads. -/
structure ImportState where
  sections : Sections
  columnMappings : Ordered String ColumnMapping
  confirmedEnumMaps : Ordered String EnumMap

abbrev Preview := Ordered String (List Out)

def normalizeMap : String → Option Normalizer
  | "Brew_Log" => some normalizeBrewLogRow
  | "Catalog" => some normalizeCatalogRow
  | "Hardware" => some normalizeHardwareRow
  | "Inventory" => some normalizeInventoryRow
  | _ => none

def mappingOf (state : ImportState) (name : String) : ColumnMapping :=
  (state.columnMappings.get name).getD .empty

/-- The rows of a section; the `k`-th one is given the `k`-th UUID. -/
def normalizeRows (uuidHex : Nat → String) (state : ImportState) (normFn : Normalizer)
    (name : String) (rows : List Row) : Except Exc (List Out) :=
  rows.zipIdx.mapM fun x => normFn (uuidHex x.2) x.1 (mappingOf state name) state.confirmedEnumMaps

/-- One section of the preview; those without a normaliser are left out. -/
def addSection (uuidHex : Nat → String) (state : ImportState) (preview : Preview)
    (x : String × List Row) : Except Exc Preview :=
  match normalizeMap x.1 with
  | none => .ok preview
  | some normFn => do return preview.set x.1 (← normalizeRows uuidHex state normFn x.1 x.2)

def calibrationRows (sections : Sections) : List Row := (sections.get "Grinder_Calibration").getD []

def migrateRows (calRows : List Row) : Except Exc (List Out) :=
  calRows.zipIdx.mapM fun x => migrateGrinderCalibrationRow x.1 (x.2 + 1)

/-- `_compute_dry_run`. -/
def computeDryRun (uuidHex : Nat → String) (state : ImportState) : Except Exc Preview := do
  let preview ← state.sections.entries.foldlM (addSection uuidHex state) .empty
  let calRows := calibrationRows state.sections
  if calRows = [] then return preview
  return preview.set "Maintenance" (← migrateRows calRows)

/-! ### What arrives in a column -/

/-- The cells of a row under canonical columns, as the normaliser of the section finds them. -/
def renamed (name : String) (row : Row) (mapping : ColumnMapping) : List (String × Cell) :=
  if name = "Brew_Log" then renameCells row mapping else renameColumns row mapping

/-- What a row has in a canonical column: the last cell that is renamed to it. -/
def arriving (name : String) (row : Row) (mapping : ColumnMapping) (column : String) : Option Cell :=
  (renamed name row mapping).reverse.lookup column

/-- The columns of a section in which enum values are resolved, with their enums. -/
def treatedColumns : String → List (String × String)
  | "Brew_Log" => [("Shot_Eligibility", "Shot_Eligibility"), ("Taste_Summary", "Taste_Summary")]
  | "Catalog" => [("Roast_Level", "Roast_Level")]
  | "Inventory" => [("RoastLevel", "Roast_Level")]
  | _ => []

/-- A cell with its value resolved. -/
def settled (confirmed : Ordered String EnumMap) (enum : String) : Cell → Cell
  | .text val => .text ((resolved confirmed enum val).getD val)
  | cell => cell

section Normalizers

variable {confirmed : Ordered String EnumMap} {out out' : Out} {column enum : String}

theorem get_normalizeEnum (done : normalizeEnum confirmed column enum out = .ok out') (c : String) :
    out'.get c = if c = column then (out.get column).map (settled confirmed enum) else out.get c := by
  unfold normalizeEnum at done
  split at done
  · rename_i nothing
    cases done
    split
    · rename_i same
      rw [same, nothing]
      rfl
    · rfl
  · rename_i absent
    cases done
    split
    · rename_i same
      rw [same, absent]
      rfl
    · rfl
  · rename_i val there
    cases known : resolved confirmed enum val with
    | some canonical =>
        rw [known] at done
        cases done
        simp only [Ordered.get_set, there, Option.map_some, settled, known, Option.getD_some]
    | none =>
        rw [known] at done
        obtain rfl : out = out' := Except.ok.inj done
        split
        · rename_i same
          rw [same, there]
          simp only [Option.map_some, settled, known, Option.getD_none]
        · rfl
  · cases done

theorem normalizeEnum_total (confirmed : Ordered String EnumMap) (enum : String) :
    (∃ out', normalizeEnum confirmed column enum out = .ok out') ↔
    ∀ cells, out.get column ≠ some (.rest cells) := by
  unfold normalizeEnum
  split
  · rename_i nothing
    simp [nothing]
  · rename_i absent
    simp [absent]
  · rename_i val there
    simp [there]
  · rename_i cells there
    simp [there]

theorem get_normalizeDate (done : normalizeDate out = .ok out') {c : String} (other : c ≠ "Date") :
    out'.get c = out.get c := by
  unfold normalizeDate at done
  split at done
  · cases done
    rfl
  · cases done
    split
    · rfl
    · split
      · rw [Ordered.get_set, if_neg other]
      · rfl
  · cases done

theorem normalizeDate_total : (∃ out', normalizeDate out = .ok out') ↔
    ∀ cell, out.get "Date" = some cell → ∃ s, cell = .text s := by
  unfold normalizeDate
  split
  · rename_i nothing
    simp [nothing]
  · rename_i s there
    simp [there]
  · rename_i cell noText there
    constructor
    · rintro ⟨_, ⟨⟩⟩
    · intro text
      obtain ⟨s, rfl⟩ := text cell there
      exact absurd rfl (noText s)

theorem get_withShotId (uuidHex : String) {c : String} (other : c ≠ "Shot_ID") :
    (withShotId uuidHex out).get c = out.get c := by
  unfold withShotId
  split
  · rfl
  · rw [Ordered.get_set, if_neg other]

/-- A normaliser of one column. -/
theorem get_normalizedColumn {start : Out} {arrived : String → Option Cell}
    (arrives : ∀ c, start.get c = arrived c)
    (done : normalizeEnum confirmed column enum start = .ok out) :
    (∀ x ∈ [(column, enum)], out.get x.1 = (arrived x.1).map (settled confirmed x.2)) ∧
      ∀ c ∉ [(column, enum)].map Prod.fst, c ≠ "Date" → c ≠ "Shot_ID" → out.get c = arrived c := by
  have gets := get_normalizeEnum done
  simp only [arrives] at gets
  refine ⟨?_, fun c other _ _ => ?_⟩
  · intro x hx
    cases List.mem_singleton.mp hx
    rw [gets, if_pos rfl]
  · rw [gets, if_neg fun same => other (List.mem_singleton.mpr same)]

/-- What the normalisers make of the columns. -/
theorem get_normalized {name : String} {normFn : Normalizer} (given : normalizeMap name = some normFn)
    {uuidHex : String} {row : Row} {mapping : ColumnMapping}
    (done : normFn uuidHex row mapping confirmed = .ok out) :
    (∀ x ∈ treatedColumns name, out.get x.1 =
      (arriving name row mapping x.1).map (settled confirmed x.2)) ∧
      ∀ c ∉ (treatedColumns name).map Prod.fst, c ≠ "Date" → c ≠ "Shot_ID" →
        out.get c = arriving name row mapping c := by
  have arrives (c : String) : (Ordered.ofList (renamed name row mapping)).get c =
      arriving name row mapping c := Ordered.get_ofList _ _
  unfold normalizeMap at given
  split at given
  · cases given
    have arrives : ∀ c, (Ordered.ofList (renameCells row mapping)).get c =
      arriving "Brew_Log" row mapping c := arrives
    obtain ⟨dated, atDate, rest⟩ := bind_eq_ok done
    obtain ⟨eligible, atEligibility, rest⟩ := bind_eq_ok rest
    obtain ⟨tasted, atTaste, rest⟩ := bind_eq_ok rest
    cases rest
    have eligibility := get_normalizeEnum atEligibility
    have taste := get_normalizeEnum atTaste
    have date {c : String} (other : c ≠ "Date") := get_normalizeDate atDate other
    refine ⟨?_, fun c other noDate noId => ?_⟩
    · intro x hx
      simp only [treatedColumns, List.mem_cons, List.not_mem_nil, or_false] at hx
      rcases hx with rfl | rfl
      · rw [get_withShotId _ (by decide), taste, if_neg (by decide), eligibility, if_pos rfl,
          date (by decide), arrives]
      · rw [get_withShotId _ (by decide), taste, if_pos rfl, eligibility, if_neg (by decide),
          date (by decide), arrives]
    · simp only [treatedColumns, List.map_cons, List.map_nil, List.mem_cons, List.not_mem_nil,
        or_false, not_or] at other
      rw [get_withShotId _ noId, taste, if_neg other.2, eligibility, if_neg other.1, date noDate,
        arrives]
  · cases given
    exact get_normalizedColumn arrives done
  · cases given
    cases done
    exact ⟨fun x treated => absurd treated List.not_mem_nil, fun c _ _ _ => arrives c⟩
  · cases given
    exact get_normalizedColumn arrives done
  · cases given

/-- When the normalisers return: they meet no list where an enum value is
resolved, and the date of a shot is a text. -/
theorem normalized_total {name : String} {normFn : Normalizer}
    (given : normalizeMap name = some normFn) {uuidHex : String} {row : Row}
    {mapping : ColumnMapping} :
    (∃ out, normFn uuidHex row mapping confirmed = .ok out) ↔
      (name = "Brew_Log" → ∀ cell, arriving name row mapping "Date" = some cell →
        ∃ s, cell = .text s) ∧
        ∀ x ∈ treatedColumns name, ∀ cells, arriving name row mapping x.1 ≠ some (.rest cells) := by
  have arrives (c : String) : (Ordered.ofList (renamed name row mapping)).get c =
      arriving name row mapping c := Ordered.get_ofList _ _
  -- one case for each section with a normaliser of its own; only the brew log has a date
  unfold normalizeMap at given
  split at given
  · cases given
    have arrives : ∀ c, (Ordered.ofList (renameCells row mapping)).get c =
      arriving "Brew_Log" row mapping c := arrives
    have eligibility {dated : Out} (atDate : normalizeDate (.ofList (renameCells row mapping)) =
        .ok dated) : dated.get "Shot_Eligibility" = arriving "Brew_Log" row mapping
          "Shot_Eligibility" := (get_normalizeDate atDate (by decide)).trans (arrives _)
    have taste {dated eligible : Out}
        (atDate : normalizeDate (.ofList (renameCells row mapping)) = .ok dated)
        (atEligibility : normalizeEnum confirmed "Shot_Eligibility" "Shot_Eligibility" dated =
          .ok eligible) : eligible.get "Taste_Summary" = arriving "Brew_Log" row mapping
            "Taste_Summary" := by
      rw [get_normalizeEnum atEligibility, if_neg (by decide), get_normalizeDate atDate (by decide),
        arrives]
    constructor
    · rintro ⟨out, done⟩
      -- the steps of the normaliser in their order, each on what the one before left
      obtain ⟨dated, atDate, rest⟩ := bind_eq_ok done
      obtain ⟨eligible, atEligibility, rest⟩ := bind_eq_ok rest
      obtain ⟨tasted, atTaste, _⟩ := bind_eq_ok rest
      refine ⟨fun _ cell there => ?_, fun x hx => ?_⟩
      · exact normalizeDate_total.mp ⟨dated, atDate⟩ cell ((arrives _).trans there)
      · simp only [treatedColumns, List.mem_cons, List.not_mem_nil, or_false] at hx
        rcases hx with rfl | rfl
        · rw [← eligibility atDate]
          exact (normalizeEnum_total _ _).mp ⟨eligible, atEligibility⟩
        · rw [← taste atDate atEligibility]
          exact (normalizeEnum_total _ _).mp ⟨tasted, atTaste⟩
    · rintro ⟨texts, noRest⟩
      obtain ⟨dated, atDate⟩ := normalizeDate_total.mpr fun cell there =>
        texts rfl cell ((arrives _).symm.trans there)
      obtain ⟨eligible, atEligibility⟩ := (normalizeEnum_total confirmed "Shot_Eligibility").mpr
        fun cells => by
          rw [eligibility atDate]
          exact noRest ("Shot_Eligibility", "Shot_Eligibility") List.mem_cons_self cells
      obtain ⟨tasted, atTaste⟩ := (normalizeEnum_total confirmed "Taste_Summary").mpr
        fun cells => by
          rw [taste atDate atEligibility]
          exact noRest ("Taste_Summary", "Taste_Summary")
            (List.mem_cons_of_mem _ List.mem_cons_self) cells
      refine ⟨withShotId uuidHex tasted, ?_⟩
      unfold normalizeBrewLogRow
      rw [atDate, ok_bind, atEligibility, ok_bind, atTaste]
      rfl
  · cases given
    have arrives : ∀ c, (Ordered.ofList (renameColumns row mapping)).get c =
      arriving "Catalog" row mapping c := arrives
    refine (normalizeEnum_total _ _).trans ?_
    simp only [arrives, treatedColumns, List.forall_mem_singleton]
    exact ⟨fun h => ⟨fun same => absurd same (by decide), h⟩, fun h => h.2⟩
  · cases given
    exact ⟨fun _ => ⟨fun same => absurd same (by decide), fun x treated =>
      absurd treated List.not_mem_nil⟩, fun _ => ⟨_, rfl⟩⟩
  · cases given
    have arrives : ∀ c, (Ordered.ofList (renameColumns row mapping)).get c =
      arriving "Inventory" row mapping c := arrives
    refine (normalizeEnum_total _ _).trans ?_
    simp only [arrives, treatedColumns, List.forall_mem_singleton]
    exact ⟨fun h => ⟨fun same => absurd same (by decide), h⟩, fun h => h.2⟩
  · cases given

end Normalizers

/-! ### What the dry run returns -/

section DryRun

variable {uuidHex : Nat → String} {state : ImportState} {preview : Preview}

/-- The rows of a section that has a normaliser, once they are normalised. -/
def sectionOuts (uuidHex : Nat → String) (state : ImportState) (name : String) (rows : List Row) :
    Option (Except Exc (List Out)) :=
  (normalizeMap name).map fun normFn => normalizeRows uuidHex state normFn name rows

theorem addSection_eq_ok {start : Preview} {x : String × List Row}
    (added : addSection uuidHex state start x = .ok preview) (name : String) :
    preview.get name = if name = x.1 then
      ((sectionOuts uuidHex state x.1 x.2).bind Except.toOption).or (start.get name)
    else start.get name := by
  unfold addSection sectionOuts at *
  cases given : normalizeMap x.1 with
  | none =>
      rw [given] at added
      cases added
      split
      · rfl
      · rfl
  | some normFn =>
      rw [given] at added
      obtain ⟨outs, normal, added⟩ := bind_eq_ok added
      cases added
      rw [Ordered.get_set, Option.map_some, Option.bind_some, normal]
      rfl

/-- What is under a name after some sections were added. -/
theorem get_foldlM_addSection {entries : List (String × List Row)}
    (distinct : (entries.map Prod.fst).Nodup) {start : Preview}
    (added : entries.foldlM (addSection uuidHex state) start = .ok preview) (name : String) :
    preview.get name = (((entries.lookup name).bind fun rows =>
      sectionOuts uuidHex state name rows).bind Except.toOption).or (start.get name) := by
  induction entries generalizing start with
  | nil =>
      cases added
      rfl
  | cons x rest ih =>
      obtain ⟨new, others⟩ := List.nodup_cons.mp distinct
      obtain ⟨k, rows⟩ := x
      rw [List.foldlM_cons] at added
      obtain ⟨next, first, added⟩ := bind_eq_ok added
      rw [ih others added, addSection_eq_ok first, List.lookup_cons]
      by_cases same : name = k
      · subst same
        have absent : rest.lookup name = none := by
          cases found : rest.lookup name with
          | none => rfl
          | some v =>
              have there := (Ordered.lookup_eq_some_iff others).mp found
              exact absurd (List.mem_map_of_mem (f := Prod.fst) there) new
        simp [absent]
      · simp [same, beq_eq_false_iff_ne.mpr same]

theorem foldlM_addSection_total {entries : List (String × List Row)} (start : Preview) :
    (∃ preview, entries.foldlM (addSection uuidHex state) start = .ok preview) ↔
      ∀ x ∈ entries, ∀ normFn, normalizeMap x.1 = some normFn →
        ∃ outs, normalizeRows uuidHex state normFn x.1 x.2 = .ok outs := by
  induction entries generalizing start with
  | nil => exact ⟨fun _ => nofun, fun _ => ⟨start, rfl⟩⟩
  | cons x rest ih =>
      rw [List.forall_mem_cons, List.foldlM_cons]
      have step : (∃ next, addSection uuidHex state start x = .ok next) ↔
          ∀ normFn, normalizeMap x.1 = some normFn →
            ∃ outs, normalizeRows uuidHex state normFn x.1 x.2 = .ok outs := by
        unfold addSection
        cases given : normalizeMap x.1 with
        | none => exact ⟨fun _ => nofun, fun _ => ⟨start, rfl⟩⟩
        | some normFn =>
            constructor
            · rintro ⟨next, added⟩ _ ⟨⟩
              obtain ⟨outs, normal, _⟩ := bind_eq_ok added
              exact ⟨outs, normal⟩
            · intro total
              obtain ⟨outs, normal⟩ := total normFn rfl
              exact ⟨start.set x.1 outs, by simp only [normal]; rfl⟩
      rw [← step]
      constructor
      · rintro ⟨preview, added⟩
        obtain ⟨next, first, added⟩ := bind_eq_ok added
        exact ⟨⟨next, first⟩, (ih next).mp ⟨preview, added⟩⟩
      · rintro ⟨⟨next, first⟩, others⟩
        obtain ⟨preview, added⟩ := (ih next).mpr others
        exact ⟨preview, by rw [first, ok_bind, added]⟩

/-- When the dry run returns: when every row is normalised or migrated. -/
theorem computeDryRun_total : (∃ preview, computeDryRun uuidHex state = .ok preview) ↔
    (∀ x ∈ state.sections.entries, ∀ normFn, normalizeMap x.1 = some normFn →
      ∃ outs, normalizeRows uuidHex state normFn x.1 x.2 = .ok outs) ∧
        ∃ outs, migrateRows (calibrationRows state.sections) = .ok outs := by
  rw [← foldlM_addSection_total .empty]
  unfold computeDryRun
  constructor
  · rintro ⟨preview, returned⟩
    obtain ⟨start, added, rest⟩ := bind_eq_ok returned
    refine ⟨⟨start, added⟩, ?_⟩
    by_cases none : calibrationRows state.sections = []
    · rw [none]
      exact ⟨[], rfl⟩
    · rw [if_neg none] at rest
      obtain ⟨outs, migrated, _⟩ := bind_eq_ok rest
      exact ⟨outs, migrated⟩
  · rintro ⟨⟨start, added⟩, outs, migrated⟩
    rw [added, ok_bind]
    by_cases none : calibrationRows state.sections = []
    · exact ⟨start, by rw [if_pos none]; rfl⟩
    · exact ⟨start.set "Maintenance" outs, by rw [if_neg none, migrated]; rfl⟩

/-- The sections of the preview: those that have a normaliser, and the migrated rows. -/
theorem get_computeDryRun (returned : computeDryRun uuidHex state = .ok preview) (name : String) :
    preview.get name =
      if name = "Maintenance" ∧ calibrationRows state.sections ≠ [] then
        (migrateRows (calibrationRows state.sections)).toOption
      else ((state.sections.get name).bind fun rows =>
        sectionOuts uuidHex state name rows).bind Except.toOption := by
  obtain ⟨start, added, rest⟩ := bind_eq_ok returned
  have sections := get_foldlM_addSection state.sections.distinct added
  by_cases none : calibrationRows state.sections = []
  · rw [if_pos none] at rest
    cases rest
    rw [if_neg fun both => both.2 none, sections, Ordered.get_empty, Option.or_none]
    rfl
  · rw [if_neg none] at rest
    obtain ⟨outs, migrated, rest⟩ := bind_eq_ok rest
    cases rest
    rw [Ordered.get_set, sections, Ordered.get_empty, Option.or_none, migrated]
    by_cases same : name = "Maintenance"
    · rw [if_pos same, if_pos ⟨same, none⟩]
      rfl
    · rw [if_neg same, if_neg fun both => same both.1]
      rfl

end DryRun

end EspressoLogs.Importer
