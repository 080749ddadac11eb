import EspressoLogs.Lib.Joined
import EspressoLogs.Scripts.Rerun
import EspressoLogs.Scripts.Validation
import Mathlib.Data.List.Perm.Subperm

/-!
What a pass of the validation says, and when the migration passes it.

A pass says that the sheets and the tables have the same ids, and that each column is
written the same way in both (`validate_sound`), as far as the joined texts tell them
apart. After a complete run of the migration it passes exactly if the tables have no ids
that the sheets do not have (`validate_after_main`).
-/

namespace EspressoLogs.Migration

open Lib Py Schema

variable {bound : Bool} {py : Python} {book : Workbook} {e : Entity}

/-! ### Tallies -/

section Tallies

variable {mapper : Dict → Except MappingError Mapped} {sheet : List Dict}

/-- Mapped rows under their ids. -/
def named (mapped : List Mapped) : List (String × Mapped) := mapped.map fun m => (sheetsIdOf m, m)

/-- The rows are kept by their keys. -/
theorem keys_named (mapped : List Mapped) : (named mapped).map Prod.fst = mapped.map sheetsIdOf := by
  unfold named
  rw [List.map_map]
  rfl

/-- What a fold over rows with ids adds to a tally. -/
structure Tallied (mapped : List Mapped) (errors : Nat) (t t' : Tally) : Prop where
  mappingErrors : t'.mappingErrors = t.mappingErrors + errors
  duplicates : t.duplicates ≤ t'.duplicates
  rows : t'.duplicates = t.duplicates → t'.rows.entries = t.rows.entries ++ named mapped
  clean : ((t.rows.entries ++ named mapped).map Prod.fst).Nodup → t'.duplicates = t.duplicates

/-- One pass over the sheet: what maps is kept or counted as a duplicate, and the rest
is counted as an error. -/
theorem tallied_fold (present : ∀ m ∈ mappedRows mapper sheet, sheetsIdOf m ≠ "") (t : Tally) :
    Tallied (mappedRows mapper sheet) (skipped mapper sheet) t (sheet.foldl (Tally.add mapper) t) := by
  -- by the rows of the sheet, for any tally so far
  induction sheet generalizing t with
  | nil => exact ⟨rfl, le_rfl, fun _ => (List.append_nil _).symm, fun _ => rfl⟩
  | cons row rest ih =>
      cases first : mapper row with
      | error err =>
          have here : mappedRows mapper (row :: rest) = mappedRows mapper rest :=
            List.filterMap_cons_none (by rw [first]; rfl)
          have counted : skipped mapper (row :: rest) = skipped mapper rest + 1 :=
            List.countP_cons_of_pos (by rw [first]; rfl)
          have next : Tally.add mapper t row =
              { t with mappingErrors := t.mappingErrors + 1 } := by
            unfold Tally.add
            rw [first]
          rw [here] at present
          obtain ⟨errors, more, rows, clean⟩ := ih present (Tally.add mapper t row)
          rw [List.foldl_cons, here, counted]
          rw [next] at errors more rows clean ⊢
          exact ⟨by rw [errors]; simp only; omega, more, rows, clean⟩
      | ok m =>
          have here : mappedRows mapper (row :: rest) = m :: mappedRows mapper rest :=
            List.filterMap_cons_some (by rw [first]; rfl)
          have counted : skipped mapper (row :: rest) = skipped mapper rest :=
            List.countP_cons_of_neg (by rw [first]; rintro ⟨⟩)
          rw [here] at present
          obtain ⟨has, present⟩ := List.forall_mem_cons.mp present
          obtain ⟨errors, more, rows, clean⟩ := ih present (Tally.add mapper t row)
          rw [List.foldl_cons, here, counted]
          have more' : named (m :: mappedRows mapper rest) =
              (sheetsIdOf m, m) :: named (mappedRows mapper rest) := rfl
          -- a key that is known is counted, a new one is appended
          by_cases again : (t.rows.get (sheetsIdOf m)).isSome = true
          · have next : Tally.add mapper t row = { t with duplicates := t.duplicates + 1 } := by
              unfold Tally.add
              simp only [first, has, again, if_true, if_false]
            rw [next] at errors more rows clean ⊢
            have counts : t.duplicates + 1 ≤
                (rest.foldl (Tally.add mapper) { t with duplicates := t.duplicates + 1 }).duplicates :=
              more
            refine ⟨errors, by omega, fun same => by omega, fun distinct => ?_⟩
            rw [more', List.map_append, List.map_cons] at distinct
            obtain ⟨v, got⟩ := Option.isSome_iff_exists.mp again
            have there := List.mem_map_of_mem (f := Prod.fst) (Ordered.get_eq_some_iff.mp got)
            exact absurd rfl ((List.nodup_append.mp distinct).2.2 _ there _ List.mem_cons_self)
          · have next : Tally.add mapper t row =
                { t with rows := t.rows.set (sheetsIdOf m) m } := by
              unfold Tally.add
              simp only [first, has, again, if_false, Bool.false_eq_true]
            have new : sheetsIdOf m ∉ t.rows.entries.map Prod.fst := by
              intro there
              obtain ⟨v, got⟩ := Ordered.mem_keys_iff.mp there
              rw [got] at again
              exact again rfl
            have entries : (t.rows.set (sheetsIdOf m) m).entries =
                t.rows.entries ++ [(sheetsIdOf m, m)] := if_neg new
            rw [next] at errors more rows clean ⊢
            refine ⟨errors, more, fun same => ?_, fun distinct => clean ?_⟩
            · rw [rows same, entries, List.append_assoc]
              rfl
            · rw [entries, List.append_assoc]
              exact distinct

end Tallies

section Sheets

variable {h : Uuid} {ids : Entity.Lookups} {sheet : List Dict}

/-- The key of a mapped row is the text of its id cell. -/
theorem sheetsIdOf_of_map {row : Dict} {m : Mapped} (mapped : e.map py h ids row = .ok m) :
    sheetsIdOf m = cellText py row e.idKey := by
  unfold sheetsIdOf
  rw [(Entity.map_keyed mapped).sheetsId]

/-- A row with an empty id is not mapped. -/
theorem sheetsIdOf_ne {m : Mapped} (hm : m ∈ mappedRows (e.map py h ids) sheet) : sheetsIdOf m ≠ "" := by
  obtain ⟨row, _, mapped⟩ := mem_mappedRows.mp hm
  rw [sheetsIdOf_of_map mapped]
  exact (Entity.map_keyed mapped).present

/-- A sheet with nothing to report: its rows can be mapped, under ids of their own. -/
theorem tally_clean (mapped : (tally (e.map py h ids) sheet).mappingErrors = 0)
    (single : (tally (e.map py h ids) sheet).duplicates = 0) :
    (∀ row ∈ sheet, ∃ m, e.map py h ids row = .ok m) ∧
      ((mappedRows (e.map py h ids) sheet).map sheetsIdOf).Nodup ∧
      (tally (e.map py h ids) sheet).rows.entries = named (mappedRows (e.map py h ids) sheet) := by
  have all : Tallied (mappedRows (e.map py h ids) sheet) (skipped (e.map py h ids) sheet)
      ⟨.empty, 0, 0⟩ (tally (e.map py h ids) sheet) :=
    tallied_fold (fun m hm => sheetsIdOf_ne hm) _
  have none : 0 + skipped (e.map py h ids) sheet = 0 := all.mappingErrors.symm.trans mapped
  have entries : (tally (e.map py h ids) sheet).rows.entries =
      named (mappedRows (e.map py h ids) sheet) := all.rows single
  refine ⟨mapped_of_skipped (by omega), ?_, entries⟩
  rw [← keys_named]
  exact entries ▸ (tally (e.map py h ids) sheet).rows.distinct

/-- A sheet that maps throughout, with no key twice, is tallied as it is. -/
theorem tally_of_clean (mapped : ∀ row ∈ sheet, ∃ m, e.map py h ids row = .ok m)
    (distinct : ((mappedRows (e.map py h ids) sheet).map sheetsIdOf).Nodup) :
    (tally (e.map py h ids) sheet).mappingErrors = 0 ∧
      (tally (e.map py h ids) sheet).duplicates = 0 ∧
      (tally (e.map py h ids) sheet).rows.entries = named (mappedRows (e.map py h ids) sheet) := by
  have all : Tallied (mappedRows (e.map py h ids) sheet) (skipped (e.map py h ids) sheet)
      ⟨.empty, 0, 0⟩ (tally (e.map py h ids) sheet) :=
    tallied_fold (fun m hm => sheetsIdOf_ne hm) _
  have none : skipped (e.map py h ids) sheet = 0 := skipped_of_mapped mapped
  have single := all.clean (by rw [← keys_named] at distinct; exact distinct)
  exact ⟨all.mappingErrors.trans (by rw [none]), single, all.rows single⟩

end Sheets

/-! ### Stored rows -/

section Stored

variable {rows : List e.table.Row} {s : String}

/-- What is stored under a key are the columns of a row. -/
theorem mem_of_stored_get {c : Mapped} (h : (e.stored rows).get s = some c) :
    ∃ r ∈ rows, e.sheetsId r = some s ∧ c = e.columns r := by
  have there := Ordered.mem_of_mem_ofList (Ordered.get_eq_some_iff.mp h)
  obtain ⟨r, hr, same⟩ := List.mem_filterMap.mp there
  obtain ⟨s', named, pair⟩ := Option.map_eq_some_iff.mp same
  cases pair
  exact ⟨r, hr, named, rfl⟩

theorem stored_has {r : e.table.Row} (hr : r ∈ rows) (named : e.sheetsId r = some s) :
    ∃ c, (e.stored rows).get s = some c := by
  cases got : (e.stored rows).get s with
  | some c => exact ⟨c, rfl⟩
  | none =>
      unfold Entity.stored at got
      rw [Ordered.get_ofList] at got
      have pair : (s, e.columns r) ∈ rows.filterMap fun r => (e.sheetsId r).map (·, e.columns r) :=
        List.mem_filterMap.mpr ⟨r, hr, by rw [named]; rfl⟩
      have other := List.lookup_eq_none_iff.mp got _ (List.mem_reverse.mpr pair)
      simp at other

/-- With no key stored twice, those of the one row. -/
theorem stored_get {r : e.table.Row} (unshared : Unshared e.sheetsId rows) (hr : r ∈ rows)
    (named : e.sheetsId r = some s) : (e.stored rows).get s = some (e.columns r) := by
  obtain ⟨c, got⟩ := stored_has hr named
  obtain ⟨r', hr', named', rfl⟩ := mem_of_stored_get got
  rw [got, unshared r' hr' r hr s named' named]

end Stored

/-! ### Texts -/

/-- The columns of an entity that a checksum covers. -/
def Entity.checked (e : Entity) : List String :=
  e.managed.filter fun c => !checksumExclude.contains c

/-- Every column that a mapper sets is a column of the table. -/
theorem managed_subset (r : e.table.Row) : e.managed ⊆ (e.columns r).map Prod.fst := by
  cases e with
  | catalog => simp [Entity.managed, Entity.columns, catalogColumns]
  | inventory => simp [Entity.managed, Entity.columns, inventoryColumns]
  | hardware => simp [Entity.managed, Entity.columns, hardwareColumns]
  | maintenance => simp [Entity.managed, Entity.columns, maintenanceColumns]
  | brewLog => simp [Entity.managed, Entity.columns, brewLogColumns]

theorem Mapped.lookup_eq {m : Mapped} {c : String} (h : c ∈ m.map Prod.fst) :
    m.lookup c = some (m.get c) := by
  unfold Mapped.get
  cases got : m.lookup c with
  | some v => rfl
  | none =>
      obtain ⟨x, hx, rfl⟩ := List.mem_map.mp h
      have other := List.lookup_eq_none_iff.mp got x hx
      simp at other

/-- The columns of a row under some names. -/
def Mapped.only (m : Mapped) (names : List String) : Mapped := names.map fun c => (c, m.get c)

theorem Mapped.get_only {m : Mapped} {names : List String} {c : String} (h : c ∈ names) :
    (m.only names).get c = m.get c := by
  induction names with
  | nil => cases h
  | cons name rest ih =>
      have here : m.only (name :: rest) = (name, m.get name) :: m.only rest := rfl
      rw [here, Mapped.get_cons]
      split
      · rename_i same
        rw [same]
      · rename_i other
        rcases List.mem_cons.mp h with same | h
        · exact absurd same other
        · exact ih h

section Texts

variable {m : Mapped} {r : e.table.Row}

/-- The checksum covers the checked columns. -/
theorem covered_eq (columns : m.map Prod.fst = e.managed) : covered m = e.checked := by
  unfold covered
  rw [columns]
  rfl

/-- A stored row is restricted to the checked columns. -/
theorem restricted_eq (columns : m.map Prod.fst = e.managed) (r : e.table.Row) :
    restricted m (e.columns r) = (e.columns r).only e.checked := by
  unfold restricted Mapped.only
  rw [covered_eq columns, ← List.filterMap_eq_map]
  refine List.filterMap_congr fun c hc => ?_
  have managed := managed_subset r (List.mem_filter.mp hc).1
  rw [Mapped.lookup_eq managed]
  rfl

/-- The columns in the order in which they are joined. -/
def Entity.fields (e : Entity) : List String := e.checked.insertionSort (· ≤ ·)

theorem mem_fields {c : String} : c ∈ e.fields ↔ c ∈ e.checked := List.mem_insertionSort _

/-- The parts of the checksum, in the order of the field names. -/
theorem checksumParts_eq (columns : m.map Prod.fst = e.managed) :
    checksumParts m = e.fields.map fun c => (m.get c).rendered := by
  unfold checksumParts
  rw [covered_eq columns]
  rfl

theorem checksumParts_restricted (columns : m.map Prod.fst = e.managed) :
    checksumParts (restricted m (e.columns r)) =
      e.fields.map fun c => ((e.columns r).get c).rendered := by
  have names : covered ((e.columns r).only e.checked) = e.checked := by
    have fields : ((e.columns r).only e.checked).map Prod.fst = e.checked := by
      unfold Mapped.only
      rw [List.map_map]
      exact List.map_id _
    rw [covered, fields, Entity.checked, List.filter_filter]
    simp only [Bool.and_self]
  rw [restricted_eq columns, checksumParts, names]
  refine List.map_congr_left fun c hc => ?_
  rw [Mapped.get_only (mem_fields.mp hc)]

/-- How many texts the separator makes of what a value is written as. -/
def Cell.bars (c : Cell) : Nat := (c.rendered.toList.splitOn '|').length

/-- What the joined texts tell apart. -/
theorem rendered_eq_of_text (columns : m.map Prod.fst = e.managed)
    (same : checksumText m = checksumText (restricted m (e.columns r)))
    (bars : ∀ c ∈ e.checked, (m.get c).bars = ((e.columns r).get c).bars) :
    ∀ c ∈ e.checked, (m.get c).rendered = ((e.columns r).get c).rendered := by
  intro c hc
  have texts : ∀ l : List String, ("|".intercalate l).toList = ['|'].intercalate (l.map String.toList) :=
    fun l => String.toList_intercalate
  have joined := congrArg String.toList same
  rw [checksumText, checksumText, texts, texts, checksumParts_eq columns,
    checksumParts_restricted columns, List.map_map, List.map_map] at joined
  have some : e.fields ≠ [] := List.ne_nil_of_mem (mem_fields.mpr hc)
  have pieces := (intercalate_eq_iff (List.map_eq_nil_iff.not.mpr some)
    (List.map_eq_nil_iff.not.mpr some)).mp joined
  have counts : List.Forall₂ (fun a b : List Char => (a.splitOn '|').length = (b.splitOn '|').length)
      (e.fields.map (String.toList ∘ fun c => (m.get c).rendered))
      (e.fields.map (String.toList ∘ fun c => ((e.columns r).get c).rendered)) := by
    rw [List.forall₂_map_left_iff, List.forall₂_map_right_iff, List.forall₂_same]
    exact fun c hc => bars c (mem_fields.mp hc)
  have lists := (pieces_eq_iff counts).mp pieces
  exact String.toList_injective (List.map_inj_left.mp lists c (mem_fields.mpr hc))

/-- Cells that are rendered alike give the same text. -/
theorem text_eq_of_rendered (columns : m.map Prod.fst = e.managed)
    (same : ∀ c ∈ e.checked, (m.get c).rendered = ((e.columns r).get c).rendered) :
    checksumText m = checksumText (restricted m (e.columns r)) := by
  rw [checksumText, checksumText, checksumParts_eq columns, checksumParts_restricted columns,
    List.map_congr_left fun c hc => same c (mem_fields.mp hc)]

end Texts

/-! ### One entity -/

/-- The columns are written the same way, or the checksum does not tell them apart: the
separator is in a column, or the two texts that are joined differ and have the same digest. -/
def Alike (py : Python) (e : Entity) (m columns : Mapped) : Prop :=
  (∀ c ∈ e.checked, (m.get c).rendered = (columns.get c).rendered) ∨
    (∃ c ∈ e.checked, (m.get c).bars ≠ (columns.get c).bars) ∨
    (checksumText m ≠ checksumText (restricted m columns) ∧
      py.sha256Hex (checksumText m) = py.sha256Hex (checksumText (restricted m columns)))

/-- The sheet and the rows have the same ids, and what they say under them is alike. -/
structure Matches (py : Python) (ids : Entity.Lookups) (e : Entity) (sheet : List Dict)
    (rows : List e.table.Row) : Prop where
  mapped : ∀ row ∈ sheet, ∃ m, e.map py nullUuid ids row = .ok m
  distinct : ((mappedRows (e.map py nullUuid ids) sheet).map sheetsIdOf).Nodup
  held : ∀ m ∈ mappedRows (e.map py nullUuid ids) sheet,
    ∃ r ∈ rows, e.sheetsId r = some (sheetsIdOf m) ∧ Alike py e m (e.columns r)
  others : ∀ r ∈ rows, ∀ s, e.sheetsId r = some s →
    ∃ m ∈ mappedRows (e.map py nullUuid ids) sheet, sheetsIdOf m = s

section Checks

variable {ids : Entity.Lookups} {sheet : List Dict} {rows : List e.table.Row}

/-- A mapped row has every column that the script manages. -/
theorem columns_of_mappedRows {h : Uuid} {m : Mapped}
    (hm : m ∈ mappedRows (e.map py h ids) sheet) : m.map Prod.fst = e.managed := by
  obtain ⟨row, _, mapped⟩ := mem_mappedRows.mp hm
  exact (Entity.map_keyed mapped).columns

/-- A row that agrees is stored under its key, and is alike in the checked columns. -/
theorem alike_of_agrees {m : Mapped} (columns : m.map Prod.fst = e.managed)
    (h : agrees py (e.stored rows) (sheetsIdOf m, m) = true) :
    ∃ r ∈ rows, e.sheetsId r = some (sheetsIdOf m) ∧ Alike py e m (e.columns r) := by
  unfold agrees at h
  cases got : (e.stored rows).get (sheetsIdOf m) with
  | none =>
      simp only [got] at h
      cases h
  | some pgRow =>
      simp only [got] at h
      obtain ⟨r, hr, named, rfl⟩ := mem_of_stored_get got
      refine ⟨r, hr, named, ?_⟩
      have digest : py.sha256Hex (checksumText m) =
          py.sha256Hex (checksumText (restricted m (e.columns r))) := beq_iff_eq.mp h
      by_cases same : checksumText m = checksumText (restricted m (e.columns r))
      · by_cases bars : ∀ c ∈ e.checked, (m.get c).bars = ((e.columns r).get c).bars
        · exact .inl (rendered_eq_of_text columns same bars)
        · simp only [not_forall] at bars
          obtain ⟨c, hc, differ⟩ := bars
          exact .inr (.inl ⟨c, hc, differ⟩)
      · exact .inr (.inr ⟨same, digest⟩)

/-- A check that passes has compared every row of the sheet. -/
theorem check_sound (h : (check py ids e sheet rows).passed = true) :
    Matches py ids e sheet rows := by
  simp only [Check.passed, check, Bool.and_eq_true, beq_iff_eq] at h
  obtain ⟨⟨⟨counts, checksums⟩, errors⟩, duplicates⟩ := h
  obtain ⟨mapped, distinct, entries⟩ := tally_clean errors duplicates
  have agreed : ∀ m ∈ mappedRows (e.map py nullUuid ids) sheet,
      agrees py (e.stored rows) (sheetsIdOf m, m) = true := by
    intro m hm
    have pair : (sheetsIdOf m, m) ∈ (tally (e.map py nullUuid ids) sheet).rows.entries :=
      entries ▸ List.mem_map_of_mem hm
    simpa using List.countP_eq_zero.mp checksums _ pair
  refine ⟨mapped, distinct, fun m hm => ?_, fun r hr s hs => ?_⟩
  · exact alike_of_agrees (columns_of_mappedRows hm) (agreed m hm)
  · have sub : (mappedRows (e.map py nullUuid ids) sheet).map sheetsIdOf ⊆ (e.stored rows).keys := by
      intro s hs
      obtain ⟨m, hm, rfl⟩ := List.mem_map.mp hs
      obtain ⟨r, hr, named, _⟩ := alike_of_agrees (columns_of_mappedRows hm) (agreed m hm)
      exact Ordered.mem_keys_iff.mpr (stored_has hr named)
    have same := (List.subperm_of_subset distinct sub).perm_of_length_le (by
      rw [entries] at counts
      unfold Ordered.keys
      rw [List.length_map, List.length_map, ← counts]
      unfold named
      rw [List.length_map])
    have there : s ∈ (e.stored rows).keys := Ordered.mem_keys_iff.mpr (stored_has hr hs)
    obtain ⟨m, hm, named⟩ := List.mem_map.mp (same.mem_iff.mpr there)
    exact ⟨m, hm, named⟩

/-- A row that is rendered as the stored one agrees with it. -/
theorem agrees_of_rendered {m : Mapped} {r : e.table.Row} (columns : m.map Prod.fst = e.managed)
    (unshared : Unshared e.sheetsId rows) (hr : r ∈ rows) (named : e.sheetsId r = some (sheetsIdOf m))
    (same : ∀ c ∈ e.checked, (m.get c).rendered = ((e.columns r).get c).rendered) :
    agrees py (e.stored rows) (sheetsIdOf m, m) = true := by
  unfold agrees
  simp only [stored_get unshared hr named]
  refine beq_iff_eq.mpr ?_
  unfold rowChecksum
  rw [text_eq_of_rendered columns same]

/-- A sheet that is stored as it is, and nothing else. -/
theorem check_passes (mapped : ∀ row ∈ sheet, ∃ m, e.map py nullUuid ids row = .ok m)
    (distinct : ((mappedRows (e.map py nullUuid ids) sheet).map sheetsIdOf).Nodup)
    (unshared : Unshared e.sheetsId rows)
    (held : ∀ m ∈ mappedRows (e.map py nullUuid ids) sheet,
      ∃ r ∈ rows, e.sheetsId r = some (sheetsIdOf m) ∧
        ∀ c ∈ e.checked, (m.get c).rendered = ((e.columns r).get c).rendered)
    (others : ∀ r ∈ rows, ∀ s, e.sheetsId r = some s →
      ∃ m ∈ mappedRows (e.map py nullUuid ids) sheet, sheetsIdOf m = s) :
    (check py ids e sheet rows).passed = true := by
  obtain ⟨errors, duplicates, entries⟩ := tally_of_clean mapped distinct
  have keys : ((mappedRows (e.map py nullUuid ids) sheet).map sheetsIdOf).Perm
      (e.stored rows).keys := by
    refine (List.perm_ext_iff_of_nodup distinct (e.stored rows).distinct).mpr fun s => ?_
    constructor
    · intro hs
      obtain ⟨m, hm, rfl⟩ := List.mem_map.mp hs
      obtain ⟨r, hr, named, _⟩ := held m hm
      exact Ordered.mem_keys_iff.mpr (stored_has hr named)
    · intro hs
      obtain ⟨c, got⟩ := Ordered.mem_keys_iff.mp hs
      obtain ⟨r, hr, named, _⟩ := mem_of_stored_get got
      obtain ⟨m, hm, same⟩ := others r hr s named
      exact same ▸ List.mem_map_of_mem hm
  have counts := keys.length_eq
  have checksums : (named (mappedRows (e.map py nullUuid ids) sheet)).countP
      (fun row => !agrees py (e.stored rows) row) = 0 := by
    refine List.countP_eq_zero.mpr fun pair hp => ?_
    obtain ⟨m, hm, rfl⟩ := List.mem_map.mp hp
    obtain ⟨r, hr, named, same⟩ := held m hm
    rw [agrees_of_rendered (columns_of_mappedRows hm) unshared hr named same]
    decide
  simp only [Check.passed, check, Bool.and_eq_true, beq_iff_eq]
  refine ⟨⟨⟨?_, ?_⟩, errors⟩, duplicates⟩
  · rw [entries]
    unfold named Ordered.keys at *
    rw [List.length_map] at counts ⊢
    rw [counts, List.length_map]
  · rw [entries, checksums]

end Checks

/-! ### A run -/

variable {w w' : Connection bound}

/-- The rows with an id of the sheet that are listed for the role when no household is set. -/
def listed (db : Tables (Reach Table bound)) (e : Entity) : List e.table.Row :=
  ((db ⟨e.table⟩).filter (sees none (⟨e.table⟩ : Reach Table bound))).filter
    fun r => (e.sheetsId r).isSome

/-- The row ids that the script looks up. -/
def listedIds (db : Tables (Reach Table bound)) : Entity.Lookups
  | .catalog => Entity.idsBy .catalog (listed db .catalog)
  | .hardware => Entity.idsBy .hardware (listed db .hardware)
  | _ => []

/-- The rows are read outside of any household, so all of them. -/
theorem of_storedRows {rows : List e.table.Row} (context : w.session.context = none)
    (viewed : w.view = w.db) (h : (storedRows e).runOn w = (.ok rows, w')) :
    w' = w.advance ∧ rows = listed w.db e := by
  obtain ⟨rfl, rfl⟩ := of_select h
  refine ⟨rfl, ?_⟩
  unfold World.visible
  rw [context, viewed]
  rfl

theorem uncommitted_storedRows (e : Entity) :
    Script.Uncommitted (storedRows e : ScriptM bound (List e.table.Row)) :=
  Script.uncommitted_perform (by rintro ⟨⟩)

theorem uncommitted_readIds : Script.Uncommitted (readIds : ScriptM bound Entity.Lookups) :=
  Prog.All.bind (uncommitted_storedRows .catalog) fun _ =>
    Prog.All.bind (uncommitted_storedRows .hardware) fun _ => trivial

theorem of_ofExcept {α : Type} {x : Except Exc α} {a : α}
    (h : (ofExcept x : ScriptM bound α).runOn w = (.ok a, w')) : x = .ok a ∧ w' = w := by
  cases x with
  | error e => cases h
  | ok b =>
      cases h
      exact ⟨rfl, rfl⟩

/-- The checks are those of the entities, over the rows of the database. -/
theorem of_validateAll {ids : Entity.Lookups} {es : List Entity} {checks : List Check}
    (idle : Script.Idle w) (h : (validateAll py book ids es).runOn w = (.ok checks, w')) :
    w'.db = w.db ∧ ∀ e ∈ es, ∃ sheet, book e = .ok sheet ∧
      check py ids e sheet (listed w.db e) ∈ checks := by
  induction es generalizing w checks with
  | nil =>
      cases h
      exact ⟨rfl, fun _ he => absurd he List.not_mem_nil⟩
  | cons e rest ih =>
      obtain ⟨sheet, w₁, reads, listing⟩ := Script.of_bind_ok h
      obtain ⟨read, rfl⟩ := of_ofExcept reads
      obtain ⟨rows, w₂, selects, h⟩ := Script.of_bind_ok listing
      obtain ⟨idle₂, same, ran⟩ := Script.of_connection (uncommitted_storedRows e) selects
      obtain ⟨_, ran⟩ := ran rows rfl
      obtain ⟨-, rfl⟩ := of_storedRows idle.context idle.view ran
      obtain ⟨others, w₃, goesOn, ends⟩ := Script.of_bind_ok h
      cases ends
      obtain ⟨same', checked⟩ := ih idle₂ goesOn
      rw [same] at same' checked
      refine ⟨same', fun e' he' => ?_⟩
      rcases List.mem_cons.mp he' with rfl | he'
      · exact ⟨sheet, read, List.mem_cons_self⟩
      · obtain ⟨sheet', read', mem⟩ := checked e' he'
        exact ⟨sheet', read', List.mem_cons_of_mem _ mem⟩

/-- The whole validation writes nothing, and checks every entity. -/
theorem of_validate {checks : List Check} (idle : Script.Idle w)
    (h : (validate py book).runOn w = (.ok checks, w')) :
    w'.db = w.db ∧ ∀ e, ∃ sheet, book e = .ok sheet ∧
      check py (listedIds w.db) e sheet (listed w.db e) ∈ checks := by
  obtain ⟨ids, w₁, reads, h⟩ := Script.of_bind_ok h
  obtain ⟨idle₁, same, ran⟩ := Script.of_connection uncommitted_readIds reads
  obtain ⟨w₂, ran⟩ := ran ids rfl
  obtain ⟨catalog, w₃, first, ran⟩ := Script.of_bind_ok ran
  obtain ⟨rfl, rfl⟩ := of_storedRows idle.context idle.view first
  obtain ⟨hardware, w₄, second, ends⟩ := Script.of_bind_ok ran
  cases ends
  obtain ⟨-, rfl⟩ := of_storedRows (w := w.advance) idle.context idle.view second
  obtain ⟨same', checked⟩ := of_validateAll idle₁ h
  rw [same] at same' checked
  exact ⟨same', fun e => checked e e.mem_all⟩

/-- What a pass says of the sheets and the tables: every row of a sheet is mapped under
an id of its own, the rows that are listed have the same ids, and under each id the
columns are written the same way, unless the checksum cannot tell (`Alike`). The run
itself changes nothing. Nothing is asked of the hash. -/
theorem validate_sound {checks : List Check} (idle : Script.Idle w)
    (h : (validate py book).runOn w = (.ok checks, w')) (pass : passed checks = true) :
    w'.db = w.db ∧ ∀ e, ∃ sheet, book e = .ok sheet ∧
      Matches py (listedIds w.db) e sheet (listed w.db e) := by
  obtain ⟨same, checked⟩ := of_validate idle h
  refine ⟨same, fun e => ?_⟩
  obtain ⟨sheet, read, mem⟩ := checked e
  exact ⟨sheet, read, check_sound (List.all_eq_true.mp pass _ mem)⟩

namespace Sample

/-- The validation of a migration that was finished, by a role that sees every row. -/
def validating : Connection false := opened false (fun t => finished.db ⟨t.table⟩) []

/-- What the validation reports. -/
def checks : List Check :=
  [⟨.catalog, 1, 1, 0, 0, 0⟩, ⟨.inventory, 1, 1, 0, 0, 0⟩, ⟨.hardware, 0, 0, 0, 0, 0⟩,
    ⟨.maintenance, 0, 0, 0, 0, 0⟩, ⟨.brewLog, 1, 1, 0, 0, 0⟩]

/-- The run of the samples, after their migration. -/
theorem validating_sound :
    ((validate python workbook).runOn validating).2.db = validating.db ∧
      ∀ e, ∃ sheet, workbook e = .ok sheet ∧
        Matches python (listedIds validating.db) e sheet (listed validating.db e) := by
  have ran : (validate python workbook).runOn validating =
      (.ok checks, ((validate python workbook).runOn validating).2) :=
    Prod.ext (by decide +kernel) rfl
  exact validate_sound ⟨rfl, rfl, rfl⟩ ran (by decide)

end Sample

/-! ### After the migration -/

/-- What a column gives back is rendered as what was written, but for a negative zero. -/
theorem Cell.rendered_of_stored {c c' : Cell} (stored : c.Stored c')
    (positive : c ≠ .float .negZero) : c.rendered = c'.rendered := by
  cases c with
  | null | text | decimal | int | date | instant | uuid =>
      cases stored
      rfl
  | float x =>
      obtain ⟨t, fits, rfl⟩ := stored
      cases x with
      | tenths n =>
          unfold Cell.tenthsOf at fits
          simp only at fits
          split at fits
          · cases fits
            rfl
          · cases fits
      | negZero => exact absurd rfl positive
      | inf negative => cases fits
      | nan =>
          cases fits
          rfl

/-- The household is one column of a mapped row. -/
theorem Entity.map_household {h h' : Uuid} {ids : Lookups} {row : Dict} {m : Mapped}
    (mapped : e.map py h ids row = .ok m) :
    ∃ m', e.map py h' ids row = .ok m' ∧ ∀ c, c ≠ "household_id" → m'.get c = m.get c := by
  cases e with
  | catalog =>
      change fromSheetsDictCatalog py row h = .ok m at mapped
      change ∃ m', fromSheetsDictCatalog py row h' = .ok m' ∧ _
      unfold fromSheetsDictCatalog at mapped ⊢
      repeat obtain ⟨_, _, mapped⟩ := bind_eq_ok mapped
      cases mapped
      simp only [*, ok_bind]
      refine ⟨_, rfl, fun c other => ?_⟩
      simp only [Mapped.get_cons, other, if_false]
  | inventory =>
      change fromSheetsDictInventory py row h (ids .catalog) = .ok m at mapped
      change ∃ m', fromSheetsDictInventory py row h' (ids .catalog) = .ok m' ∧ _
      unfold fromSheetsDictInventory at mapped ⊢
      repeat obtain ⟨_, _, mapped⟩ := bind_eq_ok mapped
      cases mapped
      simp only [*, ok_bind]
      refine ⟨_, rfl, fun c other => ?_⟩
      simp only [Mapped.get_cons, other, if_false]
  | hardware =>
      change fromSheetsDictHardware py row h = .ok m at mapped
      change ∃ m', fromSheetsDictHardware py row h' = .ok m' ∧ _
      unfold fromSheetsDictHardware at mapped ⊢
      repeat obtain ⟨_, _, mapped⟩ := bind_eq_ok mapped
      cases mapped
      simp only [*, ok_bind]
      refine ⟨_, rfl, fun c other => ?_⟩
      simp only [Mapped.get_cons, other, if_false]
  | maintenance =>
      change fromSheetsDictMaintenance py row h (ids .hardware) = .ok m at mapped
      change ∃ m', fromSheetsDictMaintenance py row h' (ids .hardware) = .ok m' ∧ _
      unfold fromSheetsDictMaintenance at mapped ⊢
      repeat obtain ⟨_, _, mapped⟩ := bind_eq_ok mapped
      cases mapped
      simp only [*, ok_bind]
      refine ⟨_, rfl, fun c other => ?_⟩
      simp only [Mapped.get_cons, other, if_false]
  | brewLog =>
      change fromSheetsDictBrewLog py row h = .ok m at mapped
      change ∃ m', fromSheetsDictBrewLog py row h' = .ok m' ∧ _
      unfold fromSheetsDictBrewLog at mapped ⊢
      repeat obtain ⟨_, _, mapped⟩ := bind_eq_ok mapped
      cases mapped
      simp only [*, ok_bind]
      refine ⟨_, rfl, fun c other => ?_⟩
      simp only [Mapped.get_cons, other, if_false]

/-- The ids of a sheet all of whose rows can be mapped. -/
theorem ids_of_mapped {h : Uuid} {ids : Entity.Lookups} {sheet : List Dict}
    (mapped : ∀ row ∈ sheet, ∃ m, e.map py h ids row = .ok m) :
    (mappedRows (e.map py h ids) sheet).map sheetsIdOf = sheet.map (cellText py · e.idKey) := by
  induction sheet with
  | nil => rfl
  | cons row rest ih =>
      obtain ⟨⟨m, first⟩, others⟩ := List.forall_mem_cons.mp mapped
      have here : mappedRows (e.map py h ids) (row :: rest) = m :: mappedRows (e.map py h ids) rest :=
        List.filterMap_cons_some (by rw [first]; rfl)
      rw [here, List.map_cons, List.map_cons, ih others, sheetsIdOf_of_map first]

/-- The tables have no ids that the sheets do not have. -/
def OnlySheets (py : Python) (book : Workbook) (db : Tables (Reach Table bound)) : Prop :=
  ∀ e : Entity, ∃ sheet, book e = .ok sheet ∧ ∀ r ∈ db ⟨e.table⟩, ∀ s, e.sheetsId r = some s →
    s ∈ sheet.map (cellText py · e.idKey)

/-- The cells of a shot that are read as numbers of tenths. -/
def tenthsKeys : List String := ["Dose_In_g", "Yield_Out_g", "Grind_Setting"]

/-- A number below zero that is rounded to zero is written with its sign, but not stored
with it. -/
def NoNegativeZero (py : Python) (book : Workbook) : Prop :=
  ∀ sheet, book .brewLog = .ok sheet → ∀ row ∈ sheet, ∀ key ∈ tenthsKeys,
    parseFloat1dp (cellText py row key) key ≠ .ok (.float .negZero)

section Numbers

variable {c : Cell}

theorem nullable_ne (s : String) : nullable s ≠ .float .negZero := by
  unfold nullable
  split
  · rintro ⟨⟩
  · rintro ⟨⟩

theorem lookedUp_ne (lookup : List (String × Uuid)) (s : String) :
    lookedUp lookup s ≠ .float .negZero := by
  unfold lookedUp
  split
  · rintro ⟨⟩
  · rintro ⟨⟩

theorem validateEnumNullable_ne {value fieldName : String} {enumSet : List String}
    (h : validateEnumNullable py value enumSet fieldName = .ok c) : c ≠ .float .negZero := by
  unfold validateEnumNullable at h
  split at h
  · cases h
    rintro ⟨⟩
  · obtain ⟨s, _, h⟩ := bind_eq_ok h
    cases h
    rintro ⟨⟩

theorem parseInt_ne {val fieldName : String} (h : parseInt val fieldName = .ok c) :
    c ≠ .float .negZero := by
  unfold parseInt at h
  split at h
  · cases h
    rintro ⟨⟩
  · split at h
    · cases h
      rintro ⟨⟩
    · cases h

theorem parseFloat1dp_ne {val fieldName : String} (h : parseFloat1dp val fieldName = .ok c)
    (zero : parseFloat1dp val fieldName ≠ .ok (.float .negZero)) : c ≠ .float .negZero := by
  rintro rfl
  exact zero h

theorem Mapped.get_ne {m : Mapped} (values : ∀ v ∈ m.map Prod.snd, v ≠ .float .negZero)
    (column : String) : m.get column ≠ .float .negZero := by
  induction m with
  | nil => rintro ⟨⟩
  | cons x rest ih =>
      obtain ⟨name, v⟩ := x
      rw [List.map_cons, List.forall_mem_cons] at values
      rw [Mapped.get_cons]
      split
      · exact values.1
      · exact ih values.2

/-- A negative zero comes from a number cell of the brew log alone. -/
theorem positive_of_map {h : Uuid} {ids : Entity.Lookups} {row : Dict} {m : Mapped}
    (zero : e = .brewLog → ∀ key ∈ tenthsKeys,
      parseFloat1dp (cellText py row key) key ≠ .ok (.float .negZero))
    (mapped : e.map py h ids row = .ok m) (column : String) :
    m.get column ≠ .float .negZero := by
  refine Mapped.get_ne ?_ column
  cases e with
  | catalog =>
      change fromSheetsDictCatalog py row h = .ok m at mapped
      unfold fromSheetsDictCatalog at mapped
      repeat obtain ⟨_, _, mapped⟩ := bind_eq_ok mapped
      cases mapped
      simp [nullable_ne]
  | inventory =>
      change fromSheetsDictInventory py row h (ids .catalog) = .ok m at mapped
      unfold fromSheetsDictInventory at mapped
      repeat obtain ⟨_, _, mapped⟩ := bind_eq_ok mapped
      cases mapped
      have method := validateEnumNullable_ne ‹_›
      simp [lookedUp_ne, method]
  | hardware =>
      change fromSheetsDictHardware py row h = .ok m at mapped
      unfold fromSheetsDictHardware at mapped
      repeat obtain ⟨_, _, mapped⟩ := bind_eq_ok mapped
      cases mapped
      simp [nullable_ne]
  | maintenance =>
      change fromSheetsDictMaintenance py row h (ids .hardware) = .ok m at mapped
      unfold fromSheetsDictMaintenance at mapped
      repeat obtain ⟨_, _, mapped⟩ := bind_eq_ok mapped
      cases mapped
      simp [nullable_ne, lookedUp_ne]
  | brewLog =>
      have numbers := zero rfl
      simp only [tenthsKeys, List.forall_mem_cons] at numbers
      obtain ⟨dose, yielded, grind, -⟩ := numbers
      change fromSheetsDictBrewLog py row h = .ok m at mapped
      unfold fromSheetsDictBrewLog at mapped
      obtain ⟨sheetsId, _, mapped⟩ := bind_eq_ok mapped
      obtain ⟨date, _, mapped⟩ := bind_eq_ok mapped
      obtain ⟨brewedAt, _, mapped⟩ := bind_eq_ok mapped
      obtain ⟨storageMethod, method, mapped⟩ := bind_eq_ok mapped
      obtain ⟨doseG, doses, mapped⟩ := bind_eq_ok mapped
      obtain ⟨yieldG, yields, mapped⟩ := bind_eq_ok mapped
      obtain ⟨timeSec, seconds, mapped⟩ := bind_eq_ok mapped
      obtain ⟨grindSetting, grinds, mapped⟩ := bind_eq_ok mapped
      obtain ⟨eligibility, _, mapped⟩ := bind_eq_ok mapped
      obtain ⟨taste, tastes, mapped⟩ := bind_eq_ok mapped
      cases mapped
      simp [nullable_ne, validateEnumNullable_ne method, validateEnumNullable_ne tastes,
        parseInt_ne seconds, parseFloat1dp_ne doses dose, parseFloat1dp_ne yields yielded,
        parseFloat1dp_ne grinds grind]

end Numbers

section After

variable {args : Args} {householdId : Uuid} {db₀ : Tables (Reach Table bound)}
  {db : Tables (Reach Table bound)} {db' : Tables (Reach Table false)}

/-- A connection that bypasses the policies reads all rows with a key. -/
theorem listed_bypassing (db' : Tables (Reach Table false)) (e : Entity) :
    listed db' e = (db' ⟨e.table⟩).filter fun r => (e.sheetsId r).isSome := by
  have all : (db' ⟨e.table⟩).filter (sees none (⟨e.table⟩ : Reach Table false)) =
      db' ⟨e.table⟩ := List.filter_eq_self.mpr fun r _ => rfl
  rw [listed, all]

/-- The rows that are listed are those with a key. -/
theorem mem_listed {r : e.table.Row} :
    r ∈ listed db' e ↔ r ∈ db' ⟨e.table⟩ ∧ (e.sheetsId r).isSome = true := by
  rw [listed_bypassing, List.mem_filter]

variable {sheet : List Dict} {ids : Entity.Lookups}

/-- What is stored under an id of the sheet is what the migration put there. -/
theorem owned_of_full
    (full : Full py book householdId ids e sheet (db₀ ⟨e.table⟩) (db ⟨e.table⟩))
    {r : e.table.Row} (hr : r ∈ db ⟨e.table⟩) {s : String} (named : e.sheetsId r = some s)
    (listed : s ∈ sheet.map (cellText py · e.idKey)) :
    e.table.householdId r = some householdId := by
  rw [← ids_of_mapped full.mapped] at listed
  obtain ⟨m, hm, rfl⟩ := List.mem_map.mp listed
  obtain ⟨n, hn, named', owned, _⟩ := full.carried.held m hm
  rw [full.carried.unshared r hr n hn _ named named']
  exact owned

/-- With the rows of the sheet only, the ids listed are those the migration has found. -/
theorem listed_eq_found
    (full : Full py book householdId ids e sheet (db₀ ⟨e.table⟩) (db ⟨e.table⟩))
    (same : db' ⟨e.table⟩ = db ⟨e.table⟩)
    (only : ∀ r ∈ db' ⟨e.table⟩, ∀ s, e.sheetsId r = some s →
      s ∈ sheet.map (cellText py · e.idKey)) :
    e.idsBy (listed db' e) = found householdId db e := by
  rw [same] at only
  unfold found
  rw [listed_bypassing, same, List.filter_filter]
  refine congrArg e.idsBy (List.filter_congr fun r hr => ?_)
  cases named : e.sheetsId r with
  | none => rfl
  | some s => rw [sees_owned (owned_of_full full hr named (only r hr s named)), Bool.and_true]

/-- An entity that carries its sheet, and nothing else, passes. -/
theorem passes_of_full {ids' : Entity.Lookups} (zero : NoNegativeZero py book)
    (full : Full py book householdId ids e sheet (db₀ ⟨e.table⟩) (db ⟨e.table⟩))
    (same : db' ⟨e.table⟩ = db ⟨e.table⟩)
    (only : ∀ r ∈ db' ⟨e.table⟩, ∀ s, e.sheetsId r = some s →
      s ∈ sheet.map (cellText py · e.idKey))
    (looked : ∀ e' ∈ e.refers, ids' e' = ids e') :
    (check py ids' e sheet (listed db' e)).passed = true := by
  have other : ∀ row m, e.map py householdId ids row = .ok m →
      ∃ m', e.map py nullUuid ids' row = .ok m' ∧ ∀ c, c ≠ "household_id" → m'.get c = m.get c := by
    intro row m mapped
    rw [Entity.map_congr looked]
    exact Entity.map_household mapped
  have mapped : ∀ row ∈ sheet, ∃ m, e.map py nullUuid ids' row = .ok m := by
    intro row hr
    obtain ⟨m, mapped⟩ := full.mapped row hr
    obtain ⟨m', mapped', _⟩ := other row m mapped
    exact ⟨m', mapped'⟩
  have sub : ∀ r ∈ listed db' e, r ∈ db ⟨e.table⟩ := fun r hr => same ▸ (mem_listed.mp hr).1
  refine check_passes mapped ?_ ?_ ?_ ?_
  · rw [ids_of_mapped mapped, ← ids_of_mapped full.mapped]
    exact full.carried.distinct
  · exact fun r hr r' hr' => full.carried.unshared r (sub r hr) r' (sub r' hr')
  · intro m' hm'
    obtain ⟨row, hr, mapped'⟩ := mem_mappedRows.mp hm'
    obtain ⟨m, mapped⟩ := full.mapped row hr
    obtain ⟨m'', again, agree⟩ := other row m mapped
    cases again.symm.trans mapped'
    obtain ⟨n, hn, named, _, stored, _⟩ :=
      full.carried.held m (mem_mappedRows.mpr ⟨row, hr, mapped⟩)
    have id : sheetsIdOf m' = sheetsIdOf m :=
      (sheetsIdOf_of_map mapped').trans (sheetsIdOf_of_map mapped).symm
    refine ⟨n, mem_listed.mpr ⟨same ▸ hn, by rw [named]; rfl⟩, id ▸ named, fun c hc => ?_⟩
    obtain ⟨managed, included⟩ := List.mem_filter.mp hc
    have column : c ≠ "household_id" := by
      rintro rfl
      exact absurd included (by decide)
    rw [agree c column]
    exact Cell.rendered_of_stored (stored c managed)
      (positive_of_map (fun shots => by subst shots; exact zero sheet full.read row hr) mapped c)
  · intro r hr s named
    have there := only r (mem_listed.mp hr).1 s named
    rw [← ids_of_mapped mapped] at there
    obtain ⟨m, hm, id⟩ := List.mem_map.mp there
    exact ⟨m, hm, id⟩

end After

/-! A run without a fault. -/

theorem idles_storedRows (ready : Ready w) (e : Entity) :
    Idles (ScriptM.connection (storedRows e)) (listed w.db e) w := by
  refine ⟨w.undone, Script.run_connection ((run_select ready.live).trans ?_), rfl,
    ⟨Script.idle_undone w, ⟨rfl, ready.live.faults⟩⟩⟩
  unfold World.visible
  rw [ready.idle.view, ready.idle.context]
  rfl

theorem idles_readIds (ready : Ready w) :
    Idles (ScriptM.connection readIds) (listedIds w.db) w := by
  refine ⟨w.undone, Script.run_connection ?_, rfl,
    ⟨Script.idle_undone w, ⟨rfl, ready.live.faults⟩⟩⟩
  have rows : ∀ e, (storedRows e).runOn w = (.ok (listed w.db e), w) := by
    intro e
    refine (run_select ready.live).trans ?_
    unfold World.visible
    rw [ready.idle.view, ready.idle.context]
    rfl
  refine (Prog.run_bind_ok (rows .catalog)).trans ((Prog.run_bind_ok (rows .hardware)).trans ?_)
  refine congrArg (fun ids : Entity.Lookups => ((.ok ids : Except Exc Entity.Lookups), w)) ?_
  funext e
  cases e <;> rfl

/-- The rows of a sheet, none where it cannot be read. -/
def sheetOf (book : Workbook) (e : Entity) : List Dict := (book e).toOption.getD []

/-- Every entity is checked, and the session is idle again. -/
theorem idles_validateAll {ids : Entity.Lookups} {es : List Entity} (ready : Ready w)
    (read : ∀ e ∈ es, ∃ sheet, book e = .ok sheet) :
    Idles (validateAll py book ids es)
      (es.map fun e => check py ids e (sheetOf book e) (listed w.db e)) w := by
  induction es generalizing w with
  | nil => exact ⟨w, rfl, rfl, ready⟩
  | cons e rest ih =>
      obtain ⟨⟨sheet, here⟩, read⟩ := List.forall_mem_cons.mp read
      have same : sheetOf book e = sheet := by
        rw [sheetOf, here]
        rfl
      refine Idles.bind (a := sheet) ⟨w, by rw [here]; rfl, rfl, ready⟩ fun w₁ same₁ ready₁ => ?_
      refine Idles.bind (idles_storedRows ready₁ e) fun w₂ same₂ ready₂ => ?_
      refine Idles.bind (ih ready₂ read) fun w₃ same₃ ready₃ => ?_
      rw [same₂, same₁]
      exact ⟨w₃, by rw [List.map_cons, same]; rfl, rfl, ready₃⟩

/-- After a complete run of the migration that selected every entity, the validation runs
through, changes nothing, and passes exactly if nothing else is stored under an id of the
sheets. A number below zero that rounds to zero is left out: the sheet writes it with a
sign and the table without. -/
theorem validate_after_main {args : Args} {outcomes : List Outcome} (idle : Script.Idle w)
    (indexed : SheetsIndexed w.db) (completed : Completed py args book outcomes w w')
    (all : ∀ e, args.selects e = true) (zero : NoNegativeZero py book) {v : Connection false}
    (ready : Ready v) (kept : ∀ t, v.db ⟨t⟩ = w'.db ⟨t⟩) :
    ∃ checks v', (validate py book).runOn v = (.ok checks, v') ∧ v'.db = v.db ∧
      (passed checks = true ↔ OnlySheets py book v.db) := by
  obtain ⟨householdId, _, _, exact⟩ := of_completed idle indexed completed
  have full : ∀ e, ∃ sheet, Full py book householdId (found householdId w'.db) e sheet
      (w.db ⟨e.table⟩) (w'.db ⟨e.table⟩) := by
    intro e
    exact (exact e).selected (all e)
  have read : ∀ e ∈ Entity.all, ∃ sheet, book e = .ok sheet := by
    intro e _
    obtain ⟨sheet, full⟩ := full e
    exact ⟨sheet, full.read⟩
  -- the validation itself always runs, and its checks are known
  have runs : Idles (validate py book) (Entity.all.map fun e =>
      check py (listedIds v.db) e (sheetOf book e) (listed v.db e)) v := by
    refine Idles.bind (idles_readIds ready) fun v₁ same ready₁ => ?_
    rw [← same]
    exact idles_validateAll ready₁ read
  obtain ⟨v', ran, same, _⟩ := runs
  have sheets : ∀ {e sheet}, book e = .ok sheet → sheetOf book e = sheet := by
    intro e sheet here
    rw [sheetOf, here]
    rfl
  refine ⟨_, v', ran, same, fun pass e => ?_, fun only => ?_⟩
  · obtain ⟨-, checked⟩ := of_validate ready.idle ran
    obtain ⟨sheet, here, mem⟩ := checked e
    have sound := check_sound (List.all_eq_true.mp pass _ mem)
    refine ⟨sheet, here, fun r hr s named => ?_⟩
    obtain ⟨m, hm, rfl⟩ := sound.others r (mem_listed.mpr ⟨hr, by rw [named]; rfl⟩) s named
    rw [← ids_of_mapped sound.mapped]
    exact List.mem_map_of_mem hm
  · refine List.all_eq_true.mpr fun c hc => ?_
    obtain ⟨e, _, rfl⟩ := List.mem_map.mp hc
    have onlyHere : ∀ {e sheet}, book e = .ok sheet → ∀ r ∈ v.db ⟨e.table⟩, ∀ s,
        e.sheetsId r = some s → s ∈ sheet.map (cellText py · e.idKey) := by
      intro e sheet here
      obtain ⟨sheet', here', only⟩ := only e
      cases here'.symm.trans here
      exact only
    -- what a row refers to is looked up in rows of the sheet only, as the migration did
    have looked : ∀ e' ∈ e.refers, listedIds v.db e' = found householdId w'.db e' := by
      intro e' he'
      obtain ⟨sheet, full⟩ := full e'
      rw [← listed_eq_found full (kept _) (onlyHere full.read)]
      cases e with
      | catalog | hardware | brewLog => cases he'
      | inventory | maintenance =>
          cases List.mem_singleton.mp he'
          rfl
    obtain ⟨sheet, full⟩ := full e
    rw [sheets full.read]
    exact passes_of_full zero full (kept _) (onlyHere full.read) looked

namespace Sample

theorem workbook_noNegativeZero : NoNegativeZero python workbook := by
  intro sheet read
  cases read
  decide +kernel

/-- After the run of the samples the validation passes if and only if the database holds
the sheets' rows only. -/
theorem finished_validates : ∃ checks v',
    (validate python workbook).runOn validating = (.ok checks, v') ∧ v'.db = validating.db ∧
      (passed checks = true ↔ OnlySheets python workbook validating.db) :=
  validate_after_main (w := resumed) ⟨rfl, rfl, rfl⟩ (interrupted_runs.indexed interrupted_indexed)
    resumed_completed (fun _ => rfl) workbook_noNegativeZero ⟨⟨rfl, rfl, rfl⟩, ⟨rfl, rfl⟩⟩ fun _ => rfl

end Sample

end EspressoLogs.Migration
