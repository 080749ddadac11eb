import EspressoLogs.Importer.DryRun

/-!
What the dry run makes of the rows of a legacy export.

It keeps every row of the sections that have a normaliser. It raises where a row
of the log is too short for its date or lists a surplus in a column of an enum,
and where a calibration names no grinder or no date; and it drops the rows of a
`Maintenance` section, for which there is no normaliser.
-/

namespace EspressoLogs.Importer

open Lib Py

/-! ### What is expected -/

/-- Every row of a section, under the columns that its normaliser gives it. -/
def RowsKept (uuidHex : Nat → String) (state : ImportState) (preview : Preview) (name : String)
    (normFn : Normalizer) (rows : List Row) : Prop :=
  ∃ outs, preview.get name = some outs ∧ List.Forall₂ (fun x out =>
    normFn (uuidHex x.2) x.1 (mappingOf state name) state.confirmedEnumMaps = .ok out) rows.zipIdx outs

/-- The rows of a `Maintenance` section, then the migrated ones, under distinct ids. -/
def MaintenanceKept (state : ImportState) (preview : Preview) : Prop :=
  ∃ kept migrated : List Out, (preview.get "Maintenance").getD [] = kept ++ migrated ∧
    kept.length = ((state.sections.get "Maintenance").getD []).length ∧
    List.Forall₂ (fun x out => migrateGrinderCalibrationRow x.1 (x.2 + 1) = .ok out)
      (calibrationRows state.sections).zipIdx migrated ∧
    ((kept ++ migrated).map fun out => out.get "Maintenance_ID").Nodup

/-- The dry run returns, with every row of every canonical section. -/
def LosesNoRow (uuidHex : Nat → String) (state : ImportState) : Prop :=
  ∃ preview, computeDryRun uuidHex state = .ok preview ∧
    (∀ name normFn rows, normalizeMap name = some normFn → state.sections.get name = some rows →
      RowsKept uuidHex state preview name normFn rows) ∧ MaintenanceKept state preview

/-- The rows that the dry run can do with. -/
structure Importable (state : ImportState) : Prop where
  /-- The date of a shot is there. -/
  dated : ∀ rows row, state.sections.get "Brew_Log" = some rows → row ∈ rows → ∀ cell,
    arriving "Brew_Log" row (mappingOf state "Brew_Log") "Date" = some cell → ∃ s, cell = .text s
  /-- The surplus of a long row is in no column of an enum. -/
  listless : ∀ name rows row, state.sections.get name = some rows → row ∈ rows →
    ∀ x ∈ treatedColumns name, ∀ cells,
      arriving name row (mappingOf state name) x.1 ≠ some (.rest cells)
  calibrated : ∀ row ∈ calibrationRows state.sections,
    (∃ v, row.get (some "Grinder_ID") = some v) ∧ ∃ v, row.get (some "Date") = some v
  unmaintained : (state.sections.get "Maintenance").getD [] = []

/-! ### Migrated rows -/

section Migrated

variable {rows : List Row} {outs : List Out}

theorem maintenanceId_injective {m n : Nat} (same : maintenanceId m = maintenanceId n) : m = n := by
  unfold maintenanceId at same
  have digits : String.ofList (zfill 3 m) = String.ofList (zfill 3 n) :=
    String.ext (@List.append_cancel_left _ "MNT".toList _ _ (by
      simpa only [String.toList_append] using congrArg String.toList same))
  have read := Date.asciiNat_zfill 3 m
  rw [String.ofList_injective digits, Date.asciiNat_zfill] at read
  exact (Option.some.inj read).symm

theorem migrated_total {row : Row} {sequence : Nat} :
    (∃ out, migrateGrinderCalibrationRow row sequence = .ok out) ↔
      (∃ v, row.get (some "Grinder_ID") = some v) ∧ ∃ v, row.get (some "Date") = some v := by
  have found (key : String) : (∃ v, cellOf row key = .ok v) ↔ ∃ v, row.get (some key) = some v := by
    unfold cellOf
    cases row.get (some key) with
    | none => simp
    | some v => simp
  rw [← found, ← found]
  constructor
  · rintro ⟨out, done⟩
    obtain ⟨grinder, hasGrinder, done⟩ := bind_eq_ok done
    obtain ⟨date, hasDate, _⟩ := bind_eq_ok done
    exact ⟨⟨grinder, hasGrinder⟩, date, hasDate⟩
  · rintro ⟨⟨grinder, hasGrinder⟩, date, hasDate⟩
    unfold migrateGrinderCalibrationRow
    rw [hasGrinder, ok_bind, hasDate]
    exact ⟨_, rfl⟩

theorem migrated_id {row : Row} {sequence : Nat} {out : Out}
    (done : migrateGrinderCalibrationRow row sequence = .ok out) :
    out.get "Maintenance_ID" = some (.text (maintenanceId sequence)) := by
  obtain ⟨grinder, _, done⟩ := bind_eq_ok done
  obtain ⟨date, _, done⟩ := bind_eq_ok done
  cases done
  rw [Ordered.get_ofList]
  rfl

theorem map_migrated_id {pairs : List (Row × Nat)} (migrated : List.Forall₂ (fun x out =>
      migrateGrinderCalibrationRow x.1 (x.2 + 1) = .ok out) pairs outs) :
    outs.map (fun out => out.get "Maintenance_ID") =
      (pairs.map Prod.snd).map fun i => some (.text (maintenanceId (i + 1))) := by
  induction migrated with
  | nil => rfl
  | cons first _ ih =>
      rw [List.map_cons, ih, migrated_id first]
      rfl

/-- The migrated rows have distinct ids. -/
theorem migrated_ids {n : Nat} (migrated : List.Forall₂ (fun x out =>
      migrateGrinderCalibrationRow x.1 (x.2 + 1) = .ok out) (rows.zipIdx n) outs) :
    (outs.map fun out => out.get "Maintenance_ID").Nodup := by
  rw [map_migrated_id migrated, List.zipIdx_map_snd]
  refine List.Nodup.map (fun i j same => ?_) List.nodup_range'
  exact Nat.succ_injective (maintenanceId_injective (Cell.text.inj (Option.some.inj same)))

theorem migrateRows_total : (∃ outs, migrateRows rows = .ok outs) ↔ ∀ row ∈ rows,
    (∃ v, row.get (some "Grinder_ID") = some v) ∧ ∃ v, row.get (some "Date") = some v := by
  unfold migrateRows
  rw [mapM_total]
  simp only [migrated_total]
  constructor
  · intro total row hrow
    obtain ⟨i, here⟩ := List.mem_iff_getElem?.mp hrow
    exact total (row, i) (List.mk_mem_zipIdx_iff_getElem?.mpr here)
  · rintro total ⟨row, i⟩ hx
    exact total row (List.mem_of_getElem? (List.mk_mem_zipIdx_iff_getElem?.mp hx))

end Migrated

/-! ### The dry run -/

section DryRun

variable {uuidHex : Nat → String} {state : ImportState} {preview : Preview}

theorem normalizeRows_total {name : String} {normFn : Normalizer}
    (given : normalizeMap name = some normFn) {rows : List Row} :
    (∃ outs, normalizeRows uuidHex state normFn name rows = .ok outs) ↔ ∀ row ∈ rows,
      (name = "Brew_Log" → ∀ cell, arriving name row (mappingOf state name) "Date" = some cell →
        ∃ s, cell = .text s) ∧
      ∀ x ∈ treatedColumns name, ∀ cells,
        arriving name row (mappingOf state name) x.1 ≠ some (.rest cells) := by
  unfold normalizeRows
  rw [mapM_total]
  simp only [normalized_total given]
  constructor
  · intro total row hrow
    obtain ⟨i, here⟩ := List.mem_iff_getElem?.mp hrow
    exact total (row, i) (List.mk_mem_zipIdx_iff_getElem?.mpr here)
  · rintro total ⟨row, i⟩ hx
    exact total row (List.mem_of_getElem? (List.mk_mem_zipIdx_iff_getElem?.mp hx))

/-- A section without a normaliser has no enum columns either. -/
theorem treatedColumns_of_none {name : String} (none : normalizeMap name = none) :
    treatedColumns name = [] := by
  unfold treatedColumns
  split
  · cases none
  · cases none
  · cases none
  · rfl

/-- The dry run returns when its rows can be normalised and migrated. -/
theorem returns_iff : (∃ preview, computeDryRun uuidHex state = .ok preview) ↔
    (∀ rows row, state.sections.get "Brew_Log" = some rows → row ∈ rows → ∀ cell,
      arriving "Brew_Log" row (mappingOf state "Brew_Log") "Date" = some cell →
        ∃ s, cell = .text s) ∧
    (∀ name rows row, state.sections.get name = some rows → row ∈ rows →
      ∀ x ∈ treatedColumns name, ∀ cells,
        arriving name row (mappingOf state name) x.1 ≠ some (.rest cells)) ∧
    ∀ row ∈ calibrationRows state.sections,
      (∃ v, row.get (some "Grinder_ID") = some v) ∧ ∃ v, row.get (some "Date") = some v := by
  rw [computeDryRun_total, migrateRows_total]
  constructor
  · rintro ⟨normal, calibrated⟩
    refine ⟨fun rows row there hrow => ?_, fun name rows row there hrow => ?_, calibrated⟩
    · have outs := normal _ (Ordered.get_eq_some_iff.mp there) _ rfl
      exact ((normalizeRows_total rfl).mp outs row hrow).1 rfl
    · cases given : normalizeMap name with
      | none =>
          rw [treatedColumns_of_none given]
          exact nofun
      | some normFn =>
          have outs := normal _ (Ordered.get_eq_some_iff.mp there) normFn given
          exact ((normalizeRows_total given).mp outs row hrow).2
  · rintro ⟨dated, listless, calibrated⟩
    refine ⟨fun x hx normFn given => (normalizeRows_total given).mpr fun row hrow => ?_, calibrated⟩
    have there := Ordered.get_eq_some_iff.mpr hx
    refine ⟨fun brewLog => ?_, listless x.1 x.2 row there hrow⟩
    rw [brewLog] at there ⊢
    exact dated x.2 row there hrow

/-- What the preview has of a section with a normaliser. -/
theorem rowsKept (returned : computeDryRun uuidHex state = .ok preview) {name : String}
    {normFn : Normalizer} {rows : List Row} (given : normalizeMap name = some normFn)
    (there : state.sections.get name = some rows) :
    RowsKept uuidHex state preview name normFn rows := by
  have other : ¬ (name = "Maintenance" ∧ calibrationRows state.sections ≠ []) := by
    rintro ⟨rfl, _⟩
    cases given
  obtain ⟨outs, normal⟩ := (computeDryRun_total.mp ⟨preview, returned⟩).1 _
    (Ordered.get_eq_some_iff.mp there) normFn given
  refine ⟨outs, ?_, mapM_eq_ok_iff.mp normal⟩
  rw [get_computeDryRun returned, if_neg other, there, Option.bind_some, sectionOuts, given,
    Option.map_some, Option.bind_some, normal]
  rfl

/-- The preview has the migrated rows, and no others of the maintenance. -/
theorem maintenance_eq (returned : computeDryRun uuidHex state = .ok preview) :
    migrateRows (calibrationRows state.sections) = .ok ((preview.get "Maintenance").getD []) := by
  obtain ⟨outs, migrated⟩ := (computeDryRun_total.mp ⟨preview, returned⟩).2
  have gets := get_computeDryRun returned "Maintenance"
  by_cases none : calibrationRows state.sections = []
  · rw [if_neg fun both => both.2 none] at gets
    have nothing : preview.get "Maintenance" = .none := by
      rw [gets]
      cases state.sections.get "Maintenance" <;> rfl
    rw [nothing, none]
    rfl
  · rw [if_pos ⟨rfl, none⟩, migrated] at gets
    rw [gets, migrated]
    rfl

/-- The dry run loses no row exactly when it can do with the rows: the log has a date in
every row, no row lists its surplus in a column of an enum, every calibration names its
grinder and its date, and there is no row in a `Maintenance` section. For the first
three it raises, and the last it drops. -/
theorem loses_no_row_iff (uuidHex : Nat → String) (state : ImportState) :
    LosesNoRow uuidHex state ↔ Importable state := by
  constructor
  · rintro ⟨preview, returned, _, kept, migrated, all, length, each, _⟩
    obtain ⟨dated, listless, calibrated⟩ := returns_iff.mp ⟨preview, returned⟩
    refine ⟨dated, listless, calibrated, ?_⟩
    -- the maintenance rows put out are exactly the migrated ones, so there were none of
    -- their own
    have stored := (mapM_eq_ok_iff.mp (maintenance_eq returned)).length_eq
    have count := each.length_eq
    rw [all, List.length_append] at stored
    exact List.eq_nil_of_length_eq_zero (by omega)
  · rintro ⟨dated, listless, calibrated, unmaintained⟩
    obtain ⟨preview, returned⟩ := returns_iff.mpr ⟨dated, listless, calibrated⟩
    have migrated := mapM_eq_ok_iff.mp (maintenance_eq returned)
    refine ⟨preview, returned, fun _ _ _ given there => rowsKept returned given there, [],
      (preview.get "Maintenance").getD [], rfl, ?_, migrated, migrated_ids migrated⟩
    rw [unmaintained]
    rfl

end DryRun

namespace Sample

/-! ### A short row -/

/-- A shot whose row ends before its date. -/
def shortRow : ImportState where
  sections := .ofList [("Brew_Log", [.ofList [(some "Shot_ID", .text "S1"), (some "Date", .missing)]])]
  columnMappings := .ofList [("Brew_Log", .ofList [(some "Shot_ID", some "Shot_ID"),
    (some "Date", some "Date")])]
  confirmedEnumMaps := .empty

/-- The date that is missing is matched against a regular expression. -/
theorem short_row_raises : ¬ ∀ (uuidHex : Nat → String) (state : ImportState),
    LosesNoRow uuidHex state := by
  intro kept
  obtain ⟨preview, returned, _⟩ := kept (fun _ => "") shortRow
  have raised : computeDryRun (fun _ => "") shortRow = .error .typeError := by decide +kernel
  rw [raised] at returned
  cases returned

end Sample

end EspressoLogs.Importer
