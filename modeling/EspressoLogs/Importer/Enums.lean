import EspressoLogs.Importer.Rows
import Mathlib.Data.List.Dedup

/-!
Enum values that an import writes.

`find_enum_divergences` looks at the columns that are mapped to an enum, whatever
section they are in; the normalisers resolve the enums of their own section, and
the roast level of the inventory under a name that the detection does not know.
What is detected and confirmed is written as a canonical value; what is left are
values in columns that the one or the other leaves out, and confirmed values
that nobody asked for (`enums_closed_iff`).
-/

namespace EspressoLogs.Importer

open Lib Py

/-! ### What is expected -/

/-- The columns of a section that hold enum values, with their enums. -/
def enumColumns (name : String) : List (String × String) :=
  [("Shot_Eligibility", "Shot_Eligibility"), ("Taste_Summary", "Taste_Summary"),
    (if name = "Inventory" then "RoastLevel" else "Roast_Level", "Roast_Level")]

/-- The cell is empty, or a canonical value. -/
def Canonical (enum : String) (cell : Cell) : Prop :=
  cell.truthy = true → ∃ s ∈ canonicalValues enum, cell = .text s

/-- Every value that is reported over the sections is confirmed to a canonical one. -/
def Confirmed (state : ImportState) : Prop :=
  ∀ name rows, state.sections.get name = some rows →
    ∃ found, findEnumDivergences rows (mappingOf state name) = .ok found ∧
      ∀ enum values, found.get enum = some values → ∀ val ∈ values,
        ∃ canonical ∈ canonicalValues enum,
          (confirmedMap state.confirmedEnumMaps enum).get val = some canonical

/-- Every enum value of the preview is empty or canonical. -/
def EnumsClosed (preview : Preview) : Prop :=
  ∀ name outs, preview.get name = some outs → ∀ out ∈ outs, ∀ x ∈ enumColumns name,
    ∀ cell, out.get x.1 = some cell → Canonical x.2 cell

/-- A cell of the import under an enum column of its section. -/
def Arrives (state : ImportState) (name : String) (x : String × String) (cell : Cell) : Prop :=
  (normalizeMap name).isSome ∧ x ∈ enumColumns name ∧
    ∃ rows row, state.sections.get name = some rows ∧ row ∈ rows ∧
      arriving name row (mappingOf state name) x.1 = some cell

/-- Nothing arrives that is neither detected nor resolved. -/
structure Detected (state : ImportState) : Prop where
  /-- In a column that is not resolved in its section, only canonical values. -/
  untreated : ∀ name x cell, Arrives state name x cell → x ∉ treatedColumns name →
    Canonical x.2 cell
  /-- The roast level of the inventory is known, canonical, or confirmed all the same. -/
  undetected : ∀ val, Arrives state "Inventory" ("RoastLevel", "Roast_Level") (.text val) →
    val ≠ "" → val ∉ (knownMap "Roast_Level").keys → val ∉ canonicalValues "Roast_Level" →
      ∃ canonical, (confirmedMap state.confirmedEnumMaps "Roast_Level").get val = some canonical ∧
        (canonical = "" ∨ canonical ∈ canonicalValues "Roast_Level")
  /-- A value that needs no confirmation is not confirmed to anything else. -/
  unasked : ∀ name x val, Arrives state name x (.text val) → x ∈ treatedColumns name →
    val ∉ (knownMap x.2).keys → val = "" ∨ val ∈ canonicalValues x.2 →
      ∀ canonical, (confirmedMap state.confirmedEnumMaps x.2).get val = some canonical →
        canonical = "" ∨ canonical ∈ canonicalValues x.2

/-! ### Detection -/

section Detection

variable {rows : List Row} {mapping : ColumnMapping} {found : Ordered String (List String)}

/-- What is found in a column is reported. -/
theorem reported {pairs : List (String × String)} (at_ : divergences rows mapping = .ok pairs)
    {row : Row} (hrow : row ∈ rows) {x : Option String × String} (hx : x ∈ enumCols mapping)
    {val : String} (cell : row.get x.1 = some (.text val)) (nonempty : val ≠ "")
    (unknown : val ∉ (knownMap x.2).keys) (other : val ∉ canonicalValues x.2) :
    (x.2, val) ∈ pairs := by
  obtain ⟨found, went, done⟩ := bind_eq_ok at_
  cases done
  obtain ⟨ofRow, hofRow, across⟩ := mem_of_mapM_eq_ok went hrow
  obtain ⟨d, hd, here⟩ := mem_of_mapM_eq_ok across hx
  have asked : divergence row x = .ok (some (x.2, val)) := by
    unfold divergence
    rw [cell, Option.getD_some]
    simp only [nonempty, unknown, other, or_self, if_false]
  cases asked.symm.trans here
  exact List.mem_filterMap.mpr ⟨_, List.mem_flatten.mpr ⟨ofRow, hofRow, hd⟩, rfl⟩

/-- The values of an enum are found under it. -/
theorem get_findEnumDivergences (done : findEnumDivergences rows mapping = .ok found) :
    ∃ pairs, divergences rows mapping = .ok pairs ∧ ∀ enum val, (enum, val) ∈ pairs →
      ∃ values, found.get enum = some values ∧ val ∈ values := by
  obtain ⟨pairs, at_, done⟩ := bind_eq_ok done
  cases done
  refine ⟨pairs, at_, fun enum val here => ?_⟩
  have listed : enum ∈ (pairs.map Prod.fst).reverse :=
    List.mem_reverse.mpr (List.mem_map_of_mem (f := Prod.fst) here)
  have mine : val ∈ (pairs.filter fun x => x.1 == enum).map Prod.snd := List.mem_map.mpr
    ⟨(enum, val), List.mem_filter.mpr ⟨here, beq_self_eq_true enum⟩, rfl⟩
  refine ⟨sortedValues pairs enum, ?_, List.mem_mergeSort.mpr (List.mem_dedup.mpr mine)⟩
  rw [Ordered.get_ofList, ← List.lookup_graph (sortedValues pairs) listed, ← List.map_reverse,
    ← List.map_reverse, List.map_map]
  rfl

/-- Only found values are reported. -/
theorem found_of_reported {pairs : List (String × String)} (at_ : divergences rows mapping = .ok pairs) :
    ∃ found, findEnumDivergences rows mapping = .ok found ∧ ∀ enum values,
      found.get enum = some values → ∀ val ∈ values, (enum, val) ∈ pairs := by
  refine ⟨.ofList (pairs.map fun x => (x.1, sortedValues pairs x.1)), ?_, ?_⟩
  · unfold findEnumDivergences
    rw [at_]
    rfl
  · intro enum values got val hval
    rw [Ordered.get_ofList] at got
    obtain ⟨before, after, split, _⟩ := List.lookup_eq_some_iff.mp got
    have listed : (enum, values) ∈ pairs.map fun x => (x.1, sortedValues pairs x.1) := by
      rw [← List.mem_reverse, split]
      exact List.mem_append_right _ List.mem_cons_self
    obtain ⟨x, _, eq⟩ := List.mem_map.mp listed
    cases eq
    have mine := List.mem_dedup.mp (List.mem_mergeSort.mp hval)
    obtain ⟨⟨enum', val'⟩, here, rfl⟩ := List.mem_map.mp mine
    obtain ⟨there, same⟩ := List.mem_filter.mp here
    cases beq_iff_eq.mp same
    exact there

end Detection

/-! ### Resolution -/

section Resolution

variable {uuidHex : Nat → String} {state : ImportState} {preview : Preview}

/-- The cell that arrives comes from a column of the row that is mapped there. -/
theorem arriving_from {name : String} {row : Row} {mapping : ColumnMapping} {column : String}
    {cell : Cell} (arrives : arriving name row mapping column = some cell) :
    ∃ legacy, row.get legacy = some cell ∧ mapping.get legacy = some (some column) := by
  have listed : (column, cell) ∈ renamed name row mapping := by
    obtain ⟨before, after, split, _⟩ := List.lookup_eq_some_iff.mp arrives
    rw [← List.mem_reverse, split]
    exact List.mem_append_right _ List.mem_cons_self
  unfold renamed at listed
  split at listed
  · obtain ⟨⟨legacy, value⟩, there, eq⟩ := List.mem_filterMap.mp listed
    obtain ⟨canonical, mapped, eq⟩ := Option.map_eq_some_iff.mp eq
    cases eq
    exact ⟨legacy, Ordered.get_eq_some_iff.mpr there, Option.join_eq_some_iff.mp mapped⟩
  · obtain ⟨⟨legacy, target⟩, there, eq⟩ := List.mem_filterMap.mp listed
    obtain ⟨canonical, mapped, eq⟩ := Option.bind_eq_some_iff.mp eq
    obtain ⟨value, here, eq⟩ := Option.map_eq_some_iff.mp eq
    cases eq
    cases mapped
    exact ⟨legacy, here, Ordered.get_eq_some_iff.mpr there⟩

theorem mem_enumCols {mapping : ColumnMapping} {legacy : Option String} {enum : String}
    (mapped : mapping.get legacy = some (some enum)) (known : enum ∈ knownEnumMaps.keys) :
    (legacy, enum) ∈ enumCols mapping := by
  refine List.mem_filterMap.mpr ⟨(legacy, some enum), Ordered.get_eq_some_iff.mp mapped, ?_⟩
  simp [known]

/-- A value that needs to be confirmed, and was. -/
theorem confirmed_of_arriving (confirmed : Confirmed state) {name : String} {rows : List Row}
    {row : Row} (there : state.sections.get name = some rows) (hrow : row ∈ rows) {enum val : String}
    (known : enum ∈ knownEnumMaps.keys)
    (arrives : arriving name row (mappingOf state name) enum = some (.text val)) (nonempty : val ≠ "")
    (unknown : val ∉ (knownMap enum).keys) (other : val ∉ canonicalValues enum) :
    ∃ canonical ∈ canonicalValues enum,
      (confirmedMap state.confirmedEnumMaps enum).get val = some canonical := by
  obtain ⟨found, done, all⟩ := confirmed name rows there
  obtain ⟨pairs, at_, listed⟩ := get_findEnumDivergences done
  obtain ⟨legacy, cell, mapped⟩ := arriving_from arrives
  have mine := reported at_ hrow (mem_enumCols mapped known) cell nonempty unknown other
  obtain ⟨values, here, mem⟩ := listed enum val mine
  exact all enum values here val mem

theorem canonical_text {enum val : String} :
    Canonical enum (.text val) ↔ val = "" ∨ val ∈ canonicalValues enum := by
  unfold Canonical Cell.truthy
  by_cases empty : val = ""
  · simp [empty]
  · simp [empty]

/-- When a resolved value is canonical. -/
theorem canonical_settled {confirmed : Ordered String EnumMap} {enum val : String} :
    Canonical enum (settled confirmed enum (.text val)) ↔
      (val ∉ (knownMap enum).keys → val = "" ∨ val ∈ canonicalValues enum →
        ∀ canonical, (confirmedMap confirmed enum).get val = some canonical →
          canonical = "" ∨ canonical ∈ canonicalValues enum) ∧
      (val ≠ "" → val ∉ (knownMap enum).keys → val ∉ canonicalValues enum →
        ∃ canonical, (confirmedMap confirmed enum).get val = some canonical ∧
          (canonical = "" ∨ canonical ∈ canonicalValues enum)) := by
  unfold settled resolved
  rw [canonical_text]
  -- a built-in mapping comes first, then what the user confirmed, then the value as it is
  cases known : (knownMap enum).get val with
  | some canonical =>
      have key : val ∈ (knownMap enum).keys := Ordered.mem_keys_iff.mpr ⟨canonical, known⟩
      have canonical' := known_canonical known
      simp [key, canonical']
  | none =>
      have key : val ∉ (knownMap enum).keys := fun there => by
        obtain ⟨v, got⟩ := Ordered.mem_keys_iff.mp there
        rw [known] at got
        cases got
      rw [Option.none_or]
      cases asked : (confirmedMap confirmed enum).get val with
      | some canonical =>
          rw [Option.getD_some]
          constructor
          · intro closed
            refine ⟨?_, fun _ _ _ => ⟨canonical, rfl, closed⟩⟩
            rintro _ _ _ ⟨⟩
            exact closed
          · rintro ⟨unasked, needed⟩
            by_cases plain : val = "" ∨ val ∈ canonicalValues enum
            · exact unasked key plain canonical rfl
            · obtain ⟨nonempty, other⟩ := not_or.mp plain
              obtain ⟨_, same, closed⟩ := needed nonempty key other
              cases same
              exact closed
      | none =>
          rw [Option.getD_none]
          constructor
          · intro closed
            refine ⟨fun _ _ _ none => absurd none (Option.some_ne_none _).symm, fun nonempty _ other => ?_⟩
            exact absurd closed (not_or.mpr ⟨nonempty, other⟩)
          · rintro ⟨_, needed⟩
            by_contra plain
            obtain ⟨nonempty, other⟩ := not_or.mp plain
            obtain ⟨_, same, _⟩ := needed nonempty key other
            cases same

/-! ### The preview -/

/-- What is written where a cell arrives. -/
def written (state : ImportState) (name : String) (x : String × String) (cell : Cell) : Cell :=
  if x ∈ treatedColumns name then settled state.confirmedEnumMaps x.2 cell else cell

/-- A column that is not resolved is none of those that are. -/
theorem notMem_treated {name : String} {x : String × String} (here : x ∈ enumColumns name)
    (untreated : x ∉ treatedColumns name) : x.1 ∉ (treatedColumns name).map Prod.fst := by
  unfold treatedColumns enumColumns at *
  split at untreated <;>
    simp only [List.mem_cons, List.not_mem_nil, or_false] at here untreated ⊢ <;>
      rcases here with rfl | rfl | rfl <;> simp_all

theorem get_written {name : String} {normFn : Normalizer} (given : normalizeMap name = some normFn)
    {uuidHex : String} {row : Row} {out : Out} (done : normFn uuidHex row (mappingOf state name)
      state.confirmedEnumMaps = .ok out) {x : String × String} (here : x ∈ enumColumns name) :
    out.get x.1 = (arriving name row (mappingOf state name) x.1).map (written state name x) := by
  obtain ⟨treated, others⟩ := get_normalized given done
  by_cases mine : x ∈ treatedColumns name
  · rw [treated x mine]
    refine Option.map_congr fun cell _ => ?_
    rw [written, if_pos mine]
  · have plain : x.1 ≠ "Date" ∧ x.1 ≠ "Shot_ID" := by
      unfold enumColumns at here
      simp only [List.mem_cons, List.not_mem_nil, or_false] at here
      rcases here with rfl | rfl | rfl
      · decide
      · decide
      · split <;> decide
    rw [others x.1 (notMem_treated here mine) plain.1 plain.2]
    have same : written state name x = id := by
      funext cell
      rw [written, if_neg mine]
      rfl
    rw [same, Option.map_id_apply]

/-- A migrated row has no enum columns. -/
theorem migrated_get {row : Row} {sequence : Nat} {out : Out}
    (done : migrateGrinderCalibrationRow row sequence = .ok out) {name : String}
    {x : String × String} (here : x ∈ enumColumns name) : out.get x.1 = none := by
  obtain ⟨grinder, _, done⟩ := bind_eq_ok done
  obtain ⟨date, _, done⟩ := bind_eq_ok done
  cases done
  rw [Ordered.get_ofList]
  unfold enumColumns at here
  simp only [List.mem_cons, List.not_mem_nil, or_false] at here
  rcases here with rfl | rfl | rfl
  · rfl
  · rfl
  · dsimp only
    split <;> rfl

/-- The enum values of the preview are those that arrive, as they are written. -/
theorem preview_cell_iff (returned : computeDryRun uuidHex state = .ok preview) {name : String}
    {x : String × String} (here : x ∈ enumColumns name) {cell : Cell} :
    (∃ outs out, preview.get name = some outs ∧ out ∈ outs ∧ out.get x.1 = some cell) ↔
      ∃ arrived, Arrives state name x arrived ∧ cell = written state name x arrived := by
  constructor
  · rintro ⟨outs, out, got, hout, value⟩
    rw [get_computeDryRun returned] at got
    split at got
    · obtain ⟨outs', migrated⟩ := (computeDryRun_total.mp ⟨preview, returned⟩).2
      rw [migrated] at got
      cases got
      obtain ⟨y, _, done⟩ := from_of_mapM_eq_ok migrated hout
      rw [migrated_get done here] at value
      cases value
    · obtain ⟨result, section_, normal⟩ := Option.bind_eq_some_iff.mp got
      obtain ⟨rows, there, section_⟩ := Option.bind_eq_some_iff.mp section_
      obtain ⟨normFn, given, rfl⟩ := Option.map_eq_some_iff.mp section_
      cases went : normalizeRows uuidHex state normFn name rows with
      | error e =>
          rw [went] at normal
          cases normal
      | ok outs' =>
          rw [went] at normal
          cases normal
          obtain ⟨⟨row, i⟩, hrow, done⟩ := from_of_mapM_eq_ok went hout
          rw [get_written given done here] at value
          obtain ⟨arrived, arrives, rfl⟩ := Option.map_eq_some_iff.mp value
          have hrow := List.mem_of_getElem? (List.mk_mem_zipIdx_iff_getElem?.mp hrow)
          exact ⟨arrived, ⟨by rw [given]; rfl, here, rows, row, there, hrow, arrives⟩, rfl⟩
  · rintro ⟨arrived, ⟨some, _, rows, row, there, hrow, arrives⟩, rfl⟩
    obtain ⟨normFn, given⟩ := Option.isSome_iff_exists.mp some
    obtain ⟨outs, got, each⟩ := rowsKept returned given there
    obtain ⟨i, at_⟩ := List.mem_iff_getElem?.mp hrow
    obtain ⟨out, hout, done⟩ := mem_of_mapM_eq_ok (mapM_eq_ok_iff.mpr each)
      (List.mk_mem_zipIdx_iff_getElem?.mpr at_)
    refine ⟨outs, out, got, hout, ?_⟩
    rw [get_written given done here, arrives]
    rfl

theorem enumsClosed_iff_written (returned : computeDryRun uuidHex state = .ok preview) :
    EnumsClosed preview ↔ ∀ name x cell, Arrives state name x cell →
      Canonical x.2 (written state name x cell) := by
  constructor
  · intro closed name x cell arrives
    obtain ⟨outs, out, got, hout, value⟩ :=
      (preview_cell_iff returned arrives.2.1).mpr ⟨cell, arrives, rfl⟩
    exact closed name outs got out hout x arrives.2.1 _ value
  · intro all name outs got out hout x here cell value
    obtain ⟨arrived, arrives, rfl⟩ :=
      (preview_cell_iff returned here).mp ⟨outs, out, got, hout, value⟩
    exact all name x arrived arrives

/-- The enum of a resolved column that is not the roast level of the inventory
is the column itself, and known. -/
theorem treated_self {name : String} {x : String × String} (treated : x ∈ treatedColumns name) :
    x.1 = x.2 ∧ x.2 ∈ knownEnumMaps.keys ∨ name = "Inventory" ∧ x = ("RoastLevel", "Roast_Level") := by
  unfold treatedColumns at treated
  split at treated
  · simp only [List.mem_cons, List.not_mem_nil, or_false] at treated
    rcases treated with rfl | rfl
    · exact .inl (by decide +kernel)
    · exact .inl (by decide +kernel)
  · cases List.mem_singleton.mp treated
    exact .inl (by decide +kernel)
  · cases List.mem_singleton.mp treated
    exact .inr ⟨rfl, rfl⟩
  · cases treated

/-- Once all reported values are confirmed, the enum values of the preview are canonical
exactly when nothing arrives that is not detected and resolved. Only some enum columns
of a section are resolved, detection looks for the roast level of the inventory under
another name, and a value that is not reported may be confirmed to anything: what
arrives has to be in order by itself there. -/
theorem enums_closed_iff (returned : computeDryRun uuidHex state = .ok preview)
    (confirmed : Confirmed state) : EnumsClosed preview ↔ Detected state := by
  rw [enumsClosed_iff_written returned]
  constructor
  · intro all
    refine ⟨fun name x cell arrives untreated => ?_, fun val arrives nonempty unknown other => ?_,
      fun name x val arrives treated unknown plain => ?_⟩
    · have closed := all name x cell arrives
      rw [written, if_neg untreated] at closed
      exact closed
    · have closed := all _ _ _ arrives
      have treated : ("RoastLevel", "Roast_Level") ∈ treatedColumns "Inventory" :=
        List.mem_singleton_self _
      rw [written, if_pos treated] at closed
      exact (canonical_settled.mp closed).2 nonempty unknown other
    · have closed := all name x _ arrives
      rw [written, if_pos treated] at closed
      exact (canonical_settled.mp closed).1 unknown plain
  · intro detected name x cell arrives
    unfold written
    -- a column with a normaliser, or one that is copied as it is
    split
    · rename_i treated
      cases cell with
      | missing => exact nofun
      | text val =>
          refine canonical_settled.mpr ⟨detected.unasked name x val arrives treated, ?_⟩
          intro nonempty unknown other
          rcases treated_self treated with ⟨same, known⟩ | ⟨rfl, rfl⟩
          · obtain ⟨_, _, rows, row, there, hrow, arrived⟩ := arrives
            rw [same] at arrived
            obtain ⟨canonical, closed, found⟩ :=
              confirmed_of_arriving confirmed there hrow known arrived nonempty unknown other
            exact ⟨canonical, found, .inr closed⟩
          · exact detected.undetected val arrives nonempty unknown other
      -- such a cell raises in the normaliser, and the preview was returned
      | rest cells =>
          obtain ⟨_, _, rows, row, there, hrow, arrived⟩ := arrives
          exact absurd arrived ((returns_iff.mp ⟨preview, returned⟩).2.1 name rows row there hrow x
            treated cells)
    · rename_i untreated
      exact detected.untreated name x cell arrives untreated

end Resolution

namespace Sample

/-! ### A shot and a bag -/

/-- A shot that was "Meh", which is confirmed to be passable. -/
def mehShot : ImportState where
  sections := .ofList [("Brew_Log", [.ofList [(some "Shot_ID", .text "S1"),
    (some "Shot_Eligibility", .text "Meh")]])]
  columnMappings := .ofList [("Brew_Log", .ofList [(some "Shot_ID", some "Shot_ID"),
    (some "Shot_Eligibility", some "Shot_Eligibility")])]
  confirmedEnumMaps := .ofList [("Shot_Eligibility", .ofList [("Meh", "Passable")])]

def mehPreview : Preview := .ofList [("Brew_Log", [.ofList [("Shot_ID", .text "S1"),
  ("Shot_Eligibility", .text "Passable")]])]

/-- A bag of a blond roast. -/
def blondBag : ImportState where
  sections := .ofList [("Inventory", [.ofList [(some "RoastLevel", .text "Blond")]])]
  columnMappings := .ofList [("Inventory", .ofList [(some "RoastLevel", some "RoastLevel")])]
  confirmedEnumMaps := .empty

def blondPreview : Preview := .ofList [("Inventory", [.ofList [("RoastLevel", .text "Blond")]])]

theorem mehShot_confirmed : Confirmed mehShot := by
  intro name rows there
  cases List.mem_singleton.mp (Ordered.get_eq_some_iff.mp there)
  have at_ : divergences [.ofList [(some "Shot_ID", .text "S1"),
      (some "Shot_Eligibility", .text "Meh")]] (mappingOf mehShot "Brew_Log") =
        .ok [("Shot_Eligibility", "Meh")] := by decide +kernel
  obtain ⟨found, done, only⟩ := found_of_reported at_
  refine ⟨found, done, fun enum values got val hval => ?_⟩
  cases List.mem_singleton.mp (only enum values got val hval)
  exact ⟨"Passable", by decide +kernel, by decide +kernel⟩

theorem mehShot_closed : EnumsClosed mehPreview ↔ Detected mehShot :=
  have returned : computeDryRun (fun _ => "") mehShot = .ok mehPreview := by decide +kernel
  enums_closed_iff returned mehShot_confirmed

/-- Nothing is reported of the bag, and its roast level is written as it is. -/
theorem blond_not_closed : ¬ ∀ (uuidHex : Nat → String) (state : ImportState) (preview : Preview),
    computeDryRun uuidHex state = .ok preview → Confirmed state → EnumsClosed preview := by
  intro all
  have confirmed : Confirmed blondBag := by
    intro name rows there
    cases List.mem_singleton.mp (Ordered.get_eq_some_iff.mp there)
    exact ⟨.empty, by decide +kernel, nofun⟩
  have closed := all (fun _ => "") blondBag blondPreview (by decide +kernel) confirmed "Inventory"
    [.ofList [("RoastLevel", .text "Blond")]] (by decide +kernel) _ List.mem_cons_self
    ("RoastLevel", "Roast_Level") (by decide +kernel) (.text "Blond") (by decide +kernel)
  exact absurd (canonical_text.mp closed) (by decide +kernel)

end Sample

end EspressoLogs.Importer
