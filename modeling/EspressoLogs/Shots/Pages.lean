import EspressoLogs.Lib.Paging
import EspressoLogs.Lib.Tenancy
import EspressoLogs.Routers.BrewLog
import EspressoLogs.Tenant.Context
import Mathlib.Data.String.Basic
import Mathlib.Order.Fin.Basic

/-!
The brew-log list, page by page.

Postgres sorts by `brewed_at` and then by id; without Postgres the rows of the
sheet are sorted by date and then by `Shot_ID`. Either way a client that reads
on while there is a next page reads every shot once, in that order.
-/

namespace EspressoLogs

open Lib Py

/-! ### Without Postgres -/

/-- A row of the sheet `Brew_Log`, whose date and id are texts; a column that it
lacks counts as "". -/
structure SheetsShot where
  row : Dict
  date : String
  shotId : String
  date_eq : row.getD "Date" (.str "") = .str date
  shotId_eq : row.getD "Shot_ID" (.str "") = .str shotId

/-- The tuples `(Date, Shot_ID)` compare as `b <= a`. -/
def SheetsShot.isAfter (a b : SheetsShot) : Bool :=
  decide (b.date < a.date) || (b.date == a.date && decide (b.shotId ≤ a.shotId))

/-- `_DualWriteBrewLogRepo.list_paginated` over the sheet. -/
def sheetsListPaginated (sheet : List SheetsShot) (page perPage : Nat) : List Dict × Nat :=
  let allRows := sheet.mergeSort SheetsShot.isAfter
  (((allRows.drop ((page - 1) * perPage)).take perPage).map SheetsShot.row, allRows.length)

/-- `api_brew_log_list` over the sheet, with the lookups that the other sheets
make. -/
def sheetsBrewLogList (sheet : List SheetsShot) (lookups : Lookups) (page perPage : Int) :
    BrewLogPageOut :=
  let page := (max 1 page).toNat
  let perPage := (max 1 (min perPage 100)).toNat
  let listed := sheetsListPaginated sheet page perPage
  { items := listed.1.map fun s => shotToOut s (resolveNamesFromDicts s lookups)
    page, perPage
    totalCount := listed.2
    hasNext := decide (page * perPage < listed.2) }

/-! ### A listing -/

/-- The size of the pages that a client gets. -/
def pageSize (perPage : Int) : Nat := (max 1 (min perPage 100)).toNat

/-- A shot as the list shows it. -/
def entryOut (lookups : Lookups) (shot : Dict) : BrewLogEntryOut :=
  shotToOut shot (resolveNamesFromDicts shot lookups)

/-- A client that reads page 1, 2, ... while there is a next page stops, and has
then read every shot once, in order, on full pages but for the last. -/
def ReadsAll {R : Type} (answers : Nat → BrewLogPageOut → Prop) (shown : R → BrewLogEntryOut)
    (shots : List R) (follows : R → R → Prop) (size : Nat) : Prop :=
  ∃ (rows : List R) (pages : List BrewLogPageOut), rows.Perm shots ∧ rows.Pairwise follows ∧
    (∀ walked, Walk answers BrewLogPageOut.hasNext 1 walked ↔ walked = pages) ∧
    pages.flatMap BrewLogPageOut.items = rows.map shown ∧
    (∀ p ∈ pages.dropLast, p.items.length = size) ∧ ∀ p ∈ pages, p.totalCount = shots.length

theorem pageSize_pos (perPage : Int) : 0 < pageSize perPage := by
  unfold pageSize
  omega

/-- The pages cut from a sorted list are read as a whole. -/
theorem readsAll_of_paged {R : Type} {answers : Nat → BrewLogPageOut → Prop}
    {shown : R → BrewLogEntryOut} {rows shots : List R} {follows : R → R → Prop} {perPage : Int}
    (perm : rows.Perm shots) (sorted : rows.Pairwise follows) (page : Nat → BrewLogPageOut)
    (answered : ∀ n p, answers n p ↔ p = page n)
    (items : ∀ n, 1 ≤ n → (page n).items = (pageOf (pageSize perPage) n rows).map shown)
    (next : ∀ n, 1 ≤ n → (page n).hasNext = decide (n * pageSize perPage < rows.length))
    (count : ∀ n, (page n).totalCount = shots.length) :
    ReadsAll answers shown shots follows (pageSize perPage) := by
  have paged : Paged answers BrewLogPageOut.hasNext BrewLogPageOut.items (pageSize perPage)
      (rows.map shown) := by
    constructor
    · exact pageSize_pos perPage
    · intro n _
      exact ⟨page n, (answered n _).mpr rfl⟩
    · intro n p q hp hq
      rw [(answered n p).mp hp, (answered n q).mp hq]
    · intro n p hn hp
      rw [(answered n p).mp hp, items n hn, pageOf, pageOf, List.map_take, List.map_drop]
    · intro n p hn hp
      rw [(answered n p).mp hp, next n hn, decide_eq_true_eq, List.length_map]
  obtain ⟨pages, walk⟩ := paged.walk
  refine ⟨rows, pages, perm, sorted, fun walked => ⟨fun other => ?_, fun same => ?_⟩, ?_, ?_, ?_⟩
  · exact paged.unique walk other
  · rw [same]
    exact walk
  · simpa using paged.flatMap_items (Nat.le_refl 1) walk
  · exact paged.full (Nat.le_refl 1) walk
  · intro p hp
    obtain ⟨n, _, answer⟩ := Paged.mem_answers walk (Nat.le_refl 1) p hp
    rw [(answered n p).mp answer]
    exact count n

/-! ### The order of the rows -/

/-- Not older, and with the greater id where they tie. -/
def NotBefore (a b : BrewLog) : Prop :=
  b.brewedAt.rank < a.brewedAt.rank ∨ b.brewedAt.rank = a.brewedAt.rank ∧ b.id.value ≤ a.id.value

/-- The rows in the order in which `list_paginated` selects them. -/
def inPageOrder (rows : List BrewLog) : List BrewLog :=
  SqlBrewLogRepo.newestFirst (rows.mergeSort fun a b => b.id.value ≤ a.id.value)

theorem inPageOrder_perm (rows : List BrewLog) : (inPageOrder rows).Perm rows :=
  (List.mergeSort_perm _ _).trans (List.mergeSort_perm _ _)

theorem inPageOrder_sorted (rows : List BrewLog) : (inPageOrder rows).Pairwise NotBefore := by
  have byId : (rows.mergeSort fun a b => decide (b.id.value ≤ a.id.value)).Pairwise
      fun a b => b.id.value ≤ a.id.value := by
    refine (List.pairwise_mergeSort ?_ ?_ rows).imp fun le => of_decide_eq_true le
    · intro a b c hab hbc
      exact decide_eq_true (le_trans (of_decide_eq_true hbc) (of_decide_eq_true hab))
    · intro a b
      rw [Bool.or_eq_true, decide_eq_true_eq, decide_eq_true_eq]
      exact le_total _ _
  have both := @pairwise_mergeSort_of_pairwise _
    (fun a b : BrewLog => decide (b.brewedAt.rank ≤ a.brewedAt.rank)) _ ?_ ?_
    (fun a => Nat.le_refl _) _ byId
  · refine both.imp fun {a b} order => ?_
    have older := of_decide_eq_true order.1
    rcases Nat.lt_or_eq_of_le older with before | tie
    · exact .inl before
    · exact .inr ⟨tie, order.2 (decide_eq_true (le_of_eq tie.symm))⟩
  · intro a b c hab hbc
    exact decide_eq_true (le_trans (of_decide_eq_true hbc) (of_decide_eq_true hab))
  · intro a b
    rw [Bool.or_eq_true, decide_eq_true_eq, decide_eq_true_eq]
    exact le_total _ _

theorem sheets_sorted (sheet : List SheetsShot) :
    (sheet.mergeSort SheetsShot.isAfter).Pairwise fun a b => a.isAfter b = true := by
  have isAfter : ∀ a b : SheetsShot, a.isAfter b = true ↔
      b.date < a.date ∨ b.date = a.date ∧ b.shotId ≤ a.shotId := by
    intro a b
    simp [SheetsShot.isAfter]
  refine List.pairwise_mergeSort ?_ ?_ sheet
  · intro a b c hab hbc
    rw [isAfter] at *
    rcases hab with hab | ⟨hab, ids⟩
    · rcases hbc with hbc | ⟨hbc, _⟩
      · exact .inl (lt_trans hbc hab)
      · exact .inl (hbc ▸ hab)
    · rcases hbc with hbc | ⟨hbc, ids'⟩
      · exact .inl (hab ▸ hbc)
      · exact .inr ⟨hbc.trans hab, le_trans ids' ids⟩
  · intro a b
    rw [Bool.or_eq_true, isAfter, isAfter]
    rcases lt_trichotomy b.date a.date with before | same | after
    · exact .inl (.inl before)
    · rcases le_total b.shotId a.shotId with ids | ids
      · exact .inl (.inr ⟨same, ids⟩)
      · exact .inr (.inr ⟨same.symm, ids⟩)
    · exact .inr (.inl after)

/-! ### Both listings -/

section Stored

variable {h : Uuid} {w : World Table}

/-- The shots of the household. -/
def shotsOf (h : Uuid) (w : World Table) : List BrewLog := own (T := Table) h .brewLog (w.view .brewLog)

theorem run_buildLookups (live : w.Live) : ∃ lookups, buildLookups.run w = (.ok lookups, w) := by
  have bags : SqlInventoryRepo.listAll.run w = (.ok _, w) :=
    CodeM.run_bind_of (run_leftJoin live _ _ _ _) rfl
  have catalog : SqlCatalogRepo.list.run w = (.ok _, w) :=
    CodeM.run_bind_of (run_select live _ _) rfl
  have hardware : (SqlHardwareRepo.list none).run w = (.ok _, w) :=
    CodeM.run_bind_of (run_select live _ _) rfl
  exact ⟨_, CodeM.run_bind_of bags (CodeM.run_bind_of catalog (CodeM.run_bind_of hardware rfl))⟩

theorem run_listPaginated (live : w.Live) (context : w.session.context = some h)
    (page perPage : Nat) :
    (SqlBrewLogRepo.listPaginated page perPage).run w =
      (.ok ((pageOf perPage page (inPageOrder (shotsOf h w))).map SqlBrewLogRepo.toDict,
        (shotsOf h w).length), w) := by
  have found : CodeM.run currentHouseholdId w = (.ok (some h), w) := by
    rw [← context]
    exact run_currentSetting live
  have all : (w.visible .brewLog).filter (fun r : BrewLog => r.householdId == some h) =
      shotsOf h w := by
    rw [visible_eq_own context rfl]
    refine List.filter_eq_self.mpr fun r hr => ?_
    exact beq_iff_eq.mpr (mem_own.mp hr).2
  have selected := run_select (w := w) live .brewLog fun r => r.householdId == some h
  rw [all] at selected
  exact CodeM.run_bind_of found (CodeM.run_bind_of selected (CodeM.run_bind_of selected rfl))

/-- The page that the endpoint answers with. -/
def storedPage (lookups : Lookups) (shots : List BrewLog) (perPage : Int) (page : Nat) :
    BrewLogPageOut where
  items := ((pageOf (pageSize perPage) (max 1 (page : Int)).toNat (inPageOrder shots)).map
    SqlBrewLogRepo.toDict).map (entryOut lookups)
  page := (max 1 (page : Int)).toNat
  perPage := pageSize perPage
  totalCount := shots.length
  hasNext := decide ((max 1 (page : Int)).toNat * pageSize perPage < shots.length)

theorem run_apiBrewLogList (live : w.Live) (context : w.session.context = some h)
    {lookups : Lookups} (looked : buildLookups.run w = (.ok lookups, w)) (page : Nat)
    (perPage : Int) :
    (apiBrewLogList page perPage).run w =
      (.ok ⟨200, .shotPage (storedPage lookups (shotsOf h w) perPage page)⟩, w) :=
  CodeM.run_bind_of (run_listPaginated live context _ _) (CodeM.run_bind_of looked rfl)

theorem clamp_page {n : Nat} (hn : 1 ≤ n) : (max 1 (n : Int)).toNat = n := by omega

theorem stored_readsAll (live : w.Live) (context : w.session.context = some h)
    {lookups : Lookups} (looked : buildLookups.run w = (.ok lookups, w)) (perPage : Int) :
    ReadsAll
      (fun page answer => (apiBrewLogList page perPage).run w = (.ok ⟨200, .shotPage answer⟩, w))
      (fun r => entryOut lookups (SqlBrewLogRepo.toDict r)) (shotsOf h w) NotBefore
      (pageSize perPage) := by
  refine readsAll_of_paged (inPageOrder_perm _) (inPageOrder_sorted _)
    (storedPage lookups (shotsOf h w) perPage) ?_ ?_ ?_ fun n => rfl
  · intro n p
    rw [run_apiBrewLogList live context looked]
    constructor
    · intro same
      cases same
      rfl
    · intro same
      rw [same]
  · intro n hn
    simp only [storedPage, clamp_page hn, List.map_map]
    rfl
  · intro n hn
    rw [storedPage, clamp_page hn, (inPageOrder_perm (shotsOf h w)).length_eq]

end Stored

theorem sheets_readsAll (sheet : List SheetsShot) (lookups : Lookups) (perPage : Int) :
    ReadsAll (fun page answer => sheetsBrewLogList sheet lookups page perPage = answer)
      (fun s => entryOut lookups s.row) sheet (fun a b => a.isAfter b = true)
      (pageSize perPage) := by
  have length := (List.mergeSort_perm sheet SheetsShot.isAfter).length_eq
  refine readsAll_of_paged (List.mergeSort_perm _ _) (sheets_sorted sheet)
    (fun n => sheetsBrewLogList sheet lookups n perPage) ?_ ?_ ?_ ?_
  · exact fun n p => eq_comm
  · intro n hn
    simp only [sheetsBrewLogList, sheetsListPaginated, clamp_page hn, List.map_map]
    rfl
  · intro n hn
    simp only [sheetsBrewLogList, sheetsListPaginated, clamp_page hn]
    rfl
  · intro n
    exact length

/-- The pages of the endpoint in world `w`. -/
def StoredPartition (h : Uuid) (w : World Table) (perPage : Int) : Prop :=
  ∃ lookups, buildLookups.run w = (.ok lookups, w) ∧
    ReadsAll
      (fun page answer => (apiBrewLogList page perPage).run w = (.ok ⟨200, .shotPage answer⟩, w))
      (fun r => entryOut lookups (SqlBrewLogRepo.toDict r)) (shotsOf h w) NotBefore
      (pageSize perPage)

/-- The pages of the endpoint over a sheet. -/
def SheetsPartition (sheet : List SheetsShot) (lookups : Lookups) (perPage : Int) : Prop :=
  ReadsAll (fun page answer => sheetsBrewLogList sheet lookups page perPage = answer)
    (fun s => entryOut lookups s.row) sheet (fun a b => a.isAfter b = true) (pageSize perPage)

/-- Page after page, the list is a partition of the log, with Postgres and without: a
client that reads on while there is a next page stops, and has read every shot once, in
the order of the listing, on full pages but for the last. The size of the pages is what
the endpoint makes of the parameter; the shots and the rows of the sheet are any, with
as many ties as there may be. -/
theorem pages_partition_log {h : Uuid} {w : World Table} (live : w.Live)
    (context : w.session.context = some h) (sheet : List SheetsShot) (lookups : Lookups)
    (perPage : Int) :
    StoredPartition h w perPage ∧ SheetsPartition sheet lookups perPage := by
  constructor
  · obtain ⟨lookups, looked⟩ := run_buildLookups live
    exact ⟨lookups, looked, stored_readsAll live context looked perPage⟩
  · exact sheets_readsAll sheet lookups perPage

namespace Sample

/-- Four shots of which three tie on the time. -/
def tasting : World Table :=
  { serving with
    db
      | .brewLog =>
          [shot, { shot with id := id 5, sheetsId := some "S2" },
            { shot with id := id 6, sheetsId := some "S3", brewedAt := ⟨day, 3600⟩ },
            { shot with id := id 7, sheetsId := some "S4" }]
      | t => db t }

def sheetsShot (date shotId : String) : SheetsShot where
  row := [("Date", .str date), ("Shot_ID", .str shotId)]
  date := date
  shotId := shotId
  date_eq := rfl
  shotId_eq := rfl

/-- Five rows of which two tie on the date. -/
def tastingSheet : List SheetsShot :=
  [sheetsShot "2026-01-02" "S1", sheetsShot "2026-01-03" "S2", sheetsShot "2026-01-02" "S3",
    sheetsShot "2026-01-01" "S4", sheetsShot "2026-01-04" "S5"]

/-- Two pages of two shots each; three pages of the sheet, the last with one row. -/
theorem serving_pages :
    ((inPageOrder (shotsOf household.id tasting)).map BrewLog.sheetsId =
        [some "S3", some "S4", some "S2", some "S1"] ∧
      StoredPartition household.id tasting 2) ∧
    ((tastingSheet.mergeSort SheetsShot.isAfter).map SheetsShot.shotId =
        ["S5", "S2", "S3", "S1", "S4"] ∧
      SheetsPartition tastingSheet ⟨[], [], []⟩ 2) := by
  have both := pages_partition_log (h := household.id) (w := tasting) ⟨rfl, rfl⟩ rfl tastingSheet
    ⟨[], [], []⟩ 2
  refine ⟨⟨?_, both.1⟩, ?_, both.2⟩
  · have stored : shotsOf household.id tasting = tasting.db .brewLog := rfl
    rw [stored]
    simp [tasting, inPageOrder, SqlBrewLogRepo.newestFirst, List.mergeSort,
      List.MergeSort.Internal.splitInTwo, shot, id, Timestamp.rank, Timestamp.midnight]
  · simp +decide only [tastingSheet, List.mergeSort, List.MergeSort.Internal.splitInTwo,
      List.splitAt_eq, List.length, List.take, List.drop, List.merge, List.map, if_true, if_false,
      sheetsShot]

end Sample

end EspressoLogs
