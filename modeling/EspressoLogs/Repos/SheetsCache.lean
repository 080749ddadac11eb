import EspressoLogs.Lib.Along
import EspressoLogs.Repos.Sheets

/-!
What the reads of the Sheets repositories return, in runs.

A run is a sequence of reads and writes, between which the callers may change the row
objects that they were given. For each tab it is known which contents a read may still
show (`Run.shown`): a write that returned leaves only the content that it left behind,
one that failed adds it. The cache never shows another content (`World.Sound`), as long
as the writes after which an entry of their tab stays in the cache happen when no such
entry can be served any more (`Careful`).
-/

namespace EspressoLogs.Sheets

open Lib Py

variable {G V α : Type}

/-! ### Reads -/

/-- What a method returns, with row objects or their values in it. -/
inductive Answer (α : Type) where
  | rows (found : List α)
  | row (found : Option α)
  | ids (texts : List Val)
  | id (text : String)
  deriving DecidableEq, Repr

namespace Answer

variable {β : Type}

/-- An answer with other rows in it. -/
def map (f : α → β) : Answer α → Answer β
  | .rows found => .rows (found.map f)
  | .row found => .row (found.map f)
  | .ids texts => .ids texts
  | .id text => .id text

/-- The rows that an answer hands out. -/
def objects : Answer α → List α
  | .rows found => found
  | .row found => found.toList
  | _ => []

end Answer

/-- The methods that read. -/
inductive Read where
  | brewLogGet (shotId : String)
  | brewLogList
  | brewLogListForBag (bagId : String)
  | brewLogListRecent (n : Int)
  | brewLogListExistingIds
  | inventoryList (status : Option String)
  | inventoryListAll
  | inventoryGet (bagId : String)
  | catalogList
  | catalogGet (catalogId : String)
  | hardwareList (category : Option String)
  | hardwareGet (hardwareId : String)
  | hardwareNextId (category : String)
  deriving DecidableEq, Repr

namespace Read

/-- What the method does. -/
def run (s : Shared G V) : Read → SheetM G V (Answer Nat)
  | .brewLogGet shotId => do return .row (← BrewLogRepo.get s shotId)
  | .brewLogList => do return .rows (← BrewLogRepo.list s)
  | .brewLogListForBag bagId => do return .rows (← BrewLogRepo.listForBag s bagId)
  | .brewLogListRecent n => do return .rows (← BrewLogRepo.listRecent s n)
  | .brewLogListExistingIds => do return .ids (← BrewLogRepo.listExistingIds s)
  | .inventoryList status => do return .rows (← InventoryRepo.list s status)
  | .inventoryListAll => do return .rows (← InventoryRepo.listAll s)
  | .inventoryGet bagId => do return .row (← InventoryRepo.get s bagId)
  | .catalogList => do return .rows (← CatalogRepo.list s)
  | .catalogGet catalogId => do return .row (← CatalogRepo.get s catalogId)
  | .hardwareList category => do return .rows (← HardwareRepo.list s category)
  | .hardwareGet hardwareId => do return .row (← HardwareRepo.get s hardwareId)
  | .hardwareNextId category => do return .id (← HardwareRepo.nextId s category)

/-- The tab that is read. -/
def tab : Read → Tab
  | .brewLogGet _ | .brewLogList | .brewLogListForBag _ | .brewLogListRecent _
  | .brewLogListExistingIds => .brewLog
  | .inventoryList _ | .inventoryListAll | .inventoryGet _ => .inventory
  | .catalogList | .catalogGet _ => .catalog
  | .hardwareList _ | .hardwareGet _ | .hardwareNextId _ => .hardware

/-- What the method makes of the rows of the tab. -/
def of (value : α → Dict) (rows : List α) : Read → Except Exc (Answer α)
  | .brewLogGet shotId =>
      .ok (.row (rows.find? fun i => same ((value i).get "Shot_ID") (.str shotId)))
  | .brewLogList | .inventoryListAll | .catalogList => .ok (.rows rows)
  | .brewLogListForBag bagId =>
      .ok (.rows (rows.filter fun i => same ((value i).get "Bag_ID") (.str bagId)))
  | .brewLogListRecent n => (BrewLogRepo.mostRecent value n rows).map .rows
  | .brewLogListExistingIds =>
      .ok (.ids ((rows.map fun i => (value i).get "Shot_ID").filter Val.truthy))
  | .inventoryList status =>
      if status = some "Active" then
        .ok (.rows (rows.filter fun i => same ((value i).get "Status") (.str "Active")))
      else
        .ok (.rows rows)
  | .inventoryGet bagId =>
      .ok (.row (rows.find? fun i => same ((value i).get "Bag_ID") (.str bagId)))
  | .catalogGet catalogId =>
      .ok (.row (rows.find? fun i => same ((value i).get "Catalog_ID") (.str catalogId)))
  | .hardwareList none => .ok (.rows rows)
  | .hardwareList (some c) =>
      .ok (.rows (rows.filter fun i => same ((value i).get "Category") (.str c)))
  | .hardwareGet hardwareId =>
      .ok (.row (rows.find? fun i => same ((value i).get "Hardware_ID") (.str hardwareId)))
  | .hardwareNextId category =>
      (HardwareRepo.archive (rows.map value)).bind fun ids =>
        (EspressoLogs.HardwareRepo.nextId ids category).map .id

/-- How the method comes by the rows. -/
def fetch (s : Shared G V) : Read → SheetM G V (List Nat)
  | .brewLogGet _ | .brewLogList | .brewLogListForBag _ | .brewLogListRecent _ =>
      fetchCached s BrewLogRepo.key .brewLog
  | .brewLogListExistingIds => getAllRecords s.client .brewLog
  | .inventoryList status =>
      if status = some "Active" then fetchCached s InventoryRepo.keyActive .inventory
      else getAllRecords s.client .inventory
  | .inventoryListAll => fetchCached s InventoryRepo.keyAll .inventory
  | .inventoryGet _ => getAllRecords s.client .inventory
  | .catalogList | .catalogGet _ => fetchCached s CatalogRepo.key .catalog
  | .hardwareList _ | .hardwareGet _ => fetchCached s HardwareRepo.key .hardware
  | .hardwareNextId category =>
      if (EspressoLogs.HardwareRepo.idPrefix category).isNone then raise .keyError
      else fetchCached s HardwareRepo.key .hardware

end Read

theorem bind_apply {β : Type} (p : SheetM G V α) (f : α → SheetM G V β) (w : World G V) :
    (p >>= f : SheetM G V β) w = match p w with
      | (.ok a, w') => f a w'
      | (.error e, w') => (.error e, w') := rfl

theorem pick_apply (f : (Nat → Dict) → List Nat → Except Exc α) (rows : List Nat) (w : World G V) :
    (pick f rows : SheetM G V α) w = (f w.memory.value rows, w) := rfl

/-- To make something of what a method makes of the rows. -/
theorem fetch_pick {β γ : Type} (p : SheetM G V (List Nat))
    (f : (Nat → Dict) → List Nat → Except Exc β) (g : β → γ) :
    ((p >>= pick f : SheetM G V β) >>= fun b => pure (g b)) =
      p >>= pick fun value rows => (f value rows).map g := by
  funext w
  rw [bind_apply, bind_apply, bind_apply]
  obtain ⟨_ | rows, w'⟩ := p w
  · rfl
  · simp only [pick_apply]
    cases f w'.memory.value rows with
    | error e => rfl
    | ok b => rfl

theorem fetch_rows (p : SheetM G V (List Nat)) : (p >>= fun rows => pure rows) = p := by
  funext w
  rw [bind_apply]
  obtain ⟨_ | rows, w'⟩ := p w
  · rfl
  · rfl

/-- Each method comes by the rows of its tab and makes something of them. -/
theorem Read.run_eq (s : Shared G V) (r : Read) :
    r.run s = r.fetch s >>= pick fun value rows => r.of value rows := by
  have hardware : HardwareRepo.list s none = fetchCached s HardwareRepo.key .hardware :=
    fetch_rows _
  cases r with
  | brewLogGet shotId => exact fetch_pick ..
  | brewLogList => rfl
  | brewLogListForBag bagId => exact fetch_pick ..
  | brewLogListRecent n => exact fetch_pick ..
  | brewLogListExistingIds => exact fetch_pick ..
  | inventoryList status =>
      unfold Read.run Read.fetch InventoryRepo.list
      by_cases active : status = some "Active"
      · simp only [active, if_true]
        exact fetch_pick ..
      · simp only [active, if_false, Read.of]
        rfl
  | inventoryListAll => rfl
  | inventoryGet bagId => exact fetch_pick ..
  | catalogList => rfl
  | catalogGet catalogId => exact fetch_pick ..
  | hardwareList category =>
      cases category with
      | none => exact congrArg (· >>= fun rows => pure (Answer.rows rows)) hardware
      | some c => exact fetch_pick ..
  | hardwareGet hardwareId =>
      simp only [Read.run, HardwareRepo.get, hardware]
      exact fetch_pick ..
  | hardwareNextId category =>
      simp only [Read.run, Read.fetch, HardwareRepo.nextId, hardware]
      cases (EspressoLogs.HardwareRepo.idPrefix category).isNone with
      | true => rfl
      | false =>
          simp only [Bool.false_eq_true, if_false]
          refine (fetch_pick ..).trans ?_
          refine congrArg (fetchCached s HardwareRepo.key .hardware >>= ·) ?_
          funext rows w
          simp only [pick_apply, Read.of]
          cases HardwareRepo.archive (rows.map w.memory.value) with
          | error e => rfl
          | ok ids => rfl

/-! ### What they make of the rows -/

theorem upTo_map {β : Type} (n : Int) (value : α → β) (rows : List α) :
    (BrewLogRepo.upTo n rows).map value = BrewLogRepo.upTo n (rows.map value) := by
  unfold BrewLogRepo.upTo
  split
  · exact List.map_take
  · rw [List.length_map]
    exact List.map_take

theorem mem_of_upTo {n : Int} {rows : List α} {i : α} (mem : i ∈ BrewLogRepo.upTo n rows) :
    i ∈ rows := by
  unfold BrewLogRepo.upTo at mem
  split at mem
  · exact List.mem_of_mem_take mem
  · exact List.mem_of_mem_take mem

/-- A sort only looks at the values. -/
theorem mostRecent_map (n : Int) (value : α → Dict) (rows : List α) :
    BrewLogRepo.mostRecent id n (rows.map value) =
      (BrewLogRepo.mostRecent value n rows).map (List.map value) := by
  unfold BrewLogRepo.mostRecent
  rw [List.map_id]
  split
  · have sorted := @List.map_mergeSort _ _
      (fun i j => !(BrewLogRepo.isBefore (value i) (value j)).getD false)
      (fun a b => !(BrewLogRepo.isBefore a b).getD false) value rows fun _ _ _ _ => rfl
    exact congrArg Except.ok ((congrArg _ sorted).symm.trans (upTo_map n value _).symm)
  · rfl

theorem mem_of_mostRecent {n : Int} {value : α → Dict} {rows found : List α}
    (eq : BrewLogRepo.mostRecent value n rows = .ok found) {i : α} (mem : i ∈ found) : i ∈ rows := by
  unfold BrewLogRepo.mostRecent at eq
  split at eq
  · cases eq
    exact List.mem_mergeSort.mp (mem_of_upTo mem)
  · cases eq

/-- The answer is the same of row objects and of their values. -/
theorem Read.of_map (r : Read) (value : α → Dict) (rows : List α) :
    r.of id (rows.map value) = (r.of value rows).map (Answer.map value) := by
  cases r with
  | brewLogListRecent n =>
      simp only [Read.of, mostRecent_map]
      cases BrewLogRepo.mostRecent value n rows with
      | error e => rfl
      | ok found => rfl
  | inventoryList status =>
      simp only [Read.of]
      split
      · simp only [List.filter_map, Except.map, Answer.map]
        rfl
      · rfl
  | hardwareList category =>
      cases category with
      | none => rfl
      | some c =>
          simp only [Read.of, List.filter_map, Except.map, Answer.map]
          rfl
  | hardwareNextId category =>
      simp only [Read.of, List.map_id]
      cases HardwareRepo.archive (rows.map value) with
      | error e => rfl
      | ok ids =>
          simp only [Except.bind]
          cases EspressoLogs.HardwareRepo.nextId ids category with
          | error e => rfl
          | ok text => rfl
  | brewLogListExistingIds =>
      simp only [Read.of, List.map_map, Except.map, Answer.map]
      rfl
  | brewLogList | inventoryListAll | catalogList => rfl
  | brewLogListForBag | brewLogGet | inventoryGet | catalogGet | hardwareGet =>
      simp only [Read.of, List.find?_map, List.filter_map, Except.map, Answer.map]
      rfl

/-- The row objects of an answer are among those that it was made of. -/
theorem Read.mem_of {r : Read} {value : α → Dict} {rows : List α} {a : Answer α}
    (eq : r.of value rows = .ok a) {i : α} (mem : i ∈ a.objects) : i ∈ rows := by
  cases r with
  | brewLogListRecent n =>
      simp only [Read.of] at eq
      cases sorted : BrewLogRepo.mostRecent value n rows with
      | error e =>
          rw [sorted] at eq
          cases eq
      | ok found =>
          rw [sorted] at eq
          cases eq
          exact mem_of_mostRecent sorted mem
  | inventoryList status =>
      simp only [Read.of] at eq
      split at eq
      · cases eq
        exact List.mem_of_mem_filter mem
      · cases eq
        exact mem
  | hardwareList category =>
      cases category with
      | none =>
          cases eq
          exact mem
      | some c =>
          cases eq
          exact List.mem_of_mem_filter mem
  | hardwareNextId category =>
      simp only [Read.of] at eq
      cases found : HardwareRepo.archive (rows.map value) with
      | error e =>
          rw [found] at eq
          cases eq
      | ok ids =>
          rw [found] at eq
          simp only [Except.bind] at eq
          cases next : EspressoLogs.HardwareRepo.nextId ids category with
          | error e =>
              rw [next] at eq
              cases eq
          | ok text =>
              rw [next] at eq
              cases eq
              cases mem
  | brewLogListExistingIds =>
      cases eq
      cases mem
  | brewLogList | inventoryListAll | catalogList =>
      cases eq
      exact mem
  | brewLogListForBag bagId =>
      cases eq
      exact List.mem_of_mem_filter mem
  | brewLogGet | inventoryGet | catalogGet | hardwareGet =>
      cases eq
      exact List.mem_of_find?_eq_some (Option.mem_toList.mp mem)

/-! ### What the cache may show -/

/-- The keys under which the rows of a tab are cached. -/
def Tab.keys : Tab → List String
  | .brewLog => [BrewLogRepo.key]
  | .inventory => [InventoryRepo.keyActive, InventoryRepo.keyAll]
  | .catalog => [CatalogRepo.key]
  | .hardware => [HardwareRepo.key]

theorem tab_of_key {tab tab' : Tab} {key : String} (mem : key ∈ tab.keys) (mem' : key ∈ tab'.keys) :
    tab = tab' := by
  have all : ∀ k ∈ tab.keys, k ∈ tab'.keys → tab = tab' := by
    cases tab <;> cases tab' <;> decide
  exact all key mem mem'

/-- The rows of a content of the tab that may be shown. -/
def Shows (s : Shared G V) (shown : Tab → List G) (key : String) (rows : List Dict) : Prop :=
  ∃ tab, key ∈ tab.keys ∧ ∃ g ∈ shown tab, rows = s.client.records g

/-- The clock never goes back, what is in the tabs may be shown, and the cache shows nothing
that may not be. -/
structure World.Sound (s : Shared G V) (held : Nat → Prop) (shown : Tab → List G)
    (w : World G V) : Prop where
  clock : Monotone w.clock
  current : ∀ tab, w.sheet tab ∈ shown tab
  coherent : w.memory.Coherent held (Shows s shown) s.ttl w.now

/-- What is cached under the key, if anything, can no longer be served. -/
def Stale (s : Shared G V) (w : World G V) (key : String) : Prop :=
  ∀ cached, w.memory.store key = some cached → s.ttl < w.now - cached.fetchedAt

/-- No entry of the tab can still be served. -/
def Quiet (s : Shared G V) (tab : Tab) (w : World G V) : Prop := ∀ key ∈ tab.keys, Stale s w key

/-- Loose row objects, with the rows of a content that may be shown. -/
def Fetched (s : Shared G V) (shown : Tab → List G) (tab : Tab) (rows : List Nat)
    (w : World G V) : Prop :=
  (∀ i ∈ rows, w.memory.Loose i) ∧ ∃ g ∈ shown tab, w.memory.values rows = s.client.records g

/-- A method that leaves the sheet as it is and the world sound, and of what it returns. -/
def Reads (s : Shared G V) (held : Nat → Prop) (shown : Tab → List G) (p : SheetM G V α)
    (post : α → World G V → Prop) : Prop :=
  ∀ w, w.Sound s held shown → (p w).2.Sound s held shown ∧ (p w).2.sheet = w.sheet ∧
    ∀ a, (p w).1 = .ok a → post a (p w).2

section

variable {s : Shared G V} {held : Nat → Prop} {shown : Tab → List G} {tab : Tab} {w : World G V}

theorem Reads.bind {β : Type} {p : SheetM G V α} {f : α → SheetM G V β}
    {mid : α → World G V → Prop} {post : β → World G V → Prop} (first : Reads s held shown p mid)
    (next : ∀ a w, w.Sound s held shown → mid a w →
      (f a w).2.Sound s held shown ∧ (f a w).2.sheet = w.sheet ∧
        ∀ b, (f a w).1 = .ok b → post b (f a w).2) :
    Reads s held shown (p >>= f) post := by
  intro w sound
  obtain ⟨sound', sheet, after⟩ := first w sound
  rw [bind_apply]
  generalize p w = result at sound' sheet after
  obtain ⟨e | a, w'⟩ := result
  · refine ⟨sound', sheet, ?_⟩
    intro b eq
    cases eq
  · obtain ⟨sound'', sheet', post⟩ := next a w' sound' (after a rfl)
    exact ⟨sound'', sheet'.trans sheet, post⟩

theorem World.Sound.read (sound : w.Sound s held shown) : w.read.Sound s held shown where
  clock := sound.clock
  current := sound.current
  coherent := sound.coherent.later (sound.clock (Nat.le_succ _))

/-- What is read anew is in the sheet. -/
theorem getAllRecords_ok {rows : List Nat} (eq : (getAllRecords s.client tab w).1 = .ok rows) :
    (getAllRecords s.client tab w).2.memory.values rows = s.client.records (w.sheet tab) := by
  unfold getAllRecords at eq ⊢
  cases failed : s.client.fails (w.weather w.calls) (w.sheet tab) with
  | some e =>
      rw [failed] at eq
      cases eq
  | none =>
      rw [failed] at eq
      cases eq
      exact Memory.values_new ..

theorem reads_getAllRecords :
    Reads s held shown (getAllRecords s.client tab) (Fetched s shown tab) := by
  intro w sound
  have values := fun rows => @getAllRecords_ok _ _ s tab w rows
  unfold getAllRecords at values ⊢
  cases failed : s.client.fails (w.weather w.calls) (w.sheet tab) with
  | some e =>
      refine ⟨⟨sound.clock, sound.current, sound.coherent⟩, rfl, ?_⟩
      intro rows eq
      cases eq
  | none =>
      simp only [failed] at values ⊢
      refine ⟨⟨sound.clock, sound.current, sound.coherent.alloc _⟩, trivial, ?_⟩
      intro rows eq
      refine ⟨fun i mem => ?_, w.sheet tab, sound.current tab, values rows eq⟩
      cases eq
      exact sound.coherent.loose_new mem

theorem reads_get {key : String} (mem : key ∈ tab.keys) :
    Reads s held shown (TTLCache.get s.ttl key) fun found w =>
      ∀ rows, found = some rows → Fetched s shown tab rows w := by
  intro w sound
  unfold TTLCache.get
  split
  · refine ⟨sound, rfl, ?_⟩
    intro found eq rows some
    cases eq
    cases some
  · split
    · refine ⟨sound.read, rfl, ?_⟩
      intro found eq rows some
      cases eq
      cases some
    · rename_i rows memory hit
      obtain ⟨coherent, loose, tab', mem', shows⟩ := sound.coherent.get hit
      refine ⟨⟨sound.clock, sound.current, (coherent.later (sound.clock (Nat.le_succ _)))⟩, rfl, ?_⟩
      intro found eq rows' some
      cases eq
      cases some
      cases tab_of_key mem mem'
      exact ⟨loose, shows⟩

/-- Rows that are cached stay as they are. -/
theorem reads_set {key : String} {rows : List Nat} (mem : key ∈ tab.keys)
    (sound : w.Sound s held shown) (fetched : Fetched s shown tab rows w) :
    (TTLCache.set key rows w).2.Sound s held shown ∧
      Fetched s shown tab rows (TTLCache.set key rows w).2 := by
  obtain ⟨loose, g, among, values⟩ := fetched
  refine ⟨⟨sound.clock, sound.current, ?_⟩, fun i held => Memory.Coherent.loose_set (loose i held),
    g, among, ?_⟩
  · exact (sound.coherent.set ⟨tab, mem, g, among, values⟩).later (sound.clock (Nat.le_succ _))
  · exact (Memory.values_set fun i held => (loose i held).1).trans values

theorem reads_fetchCached {key : String} (mem : key ∈ tab.keys) :
    Reads s held shown (fetchCached s key tab) (Fetched s shown tab) := by
  refine Reads.bind (reads_get mem) fun found w sound hit => ?_
  cases found with
  | some rows =>
      refine ⟨sound, rfl, ?_⟩
      intro rows' eq
      cases eq
      exact hit rows rfl
  | none =>
      refine Reads.bind reads_getAllRecords (fun rows w sound fetched => ?_) w sound
      obtain ⟨sound', fetched'⟩ := reads_set mem sound fetched
      refine ⟨sound', rfl, ?_⟩
      intro rows' eq
      cases eq
      exact fetched'

theorem Read.reads_fetch (r : Read) : Reads s held shown (r.fetch s) (Fetched s shown r.tab) := by
  cases r with
  | brewLogListExistingIds | inventoryGet => exact reads_getAllRecords
  | inventoryList status =>
      unfold Read.fetch
      simp only
      split
      · exact reads_fetchCached (by decide)
      · exact reads_getAllRecords
  | hardwareNextId category =>
      unfold Read.fetch
      simp only
      split
      · intro w sound
        refine ⟨sound, rfl, ?_⟩
        intro rows eq
        cases eq
      · exact reads_fetchCached (by decide)
  | _ => exact reads_fetchCached (by decide)

/-- What a method that reads returns is made of the rows of a content that may be shown, and its
row objects are in no entry of the cache. -/
theorem Read.reads_run (r : Read) : Reads s held shown (r.run s) fun a w =>
    (∃ g ∈ shown r.tab, r.of id (s.client.records g) = .ok (a.map w.memory.value)) ∧
      ∀ i ∈ a.objects, w.memory.Loose i := by
  rw [Read.run_eq]
  refine Reads.bind r.reads_fetch fun rows w sound fetched => ?_
  obtain ⟨loose, g, among, values⟩ := fetched
  refine ⟨sound, rfl, ?_⟩
  intro a eq
  have made : r.of w.memory.value rows = .ok a := eq
  refine ⟨⟨g, among, ?_⟩, fun i mem => loose i (Read.mem_of made mem)⟩
  have same := r.of_map w.memory.value rows
  rw [made] at same
  rw [← values]
  exact same

end

/-! ### Writes -/

def addMany (s : Shared G V) : Tab → List Dict → SheetM G V Unit
  | .brewLog => BrewLogRepo.addMany s
  | .inventory => InventoryRepo.addMany s
  | .catalog => CatalogRepo.addMany s
  | .hardware => HardwareRepo.addMany s

def deleteRows (s : Shared G V) : Tab → Int → Int → SheetM G V Unit
  | .brewLog => BrewLogRepo.deleteRows s
  | .inventory => InventoryRepo.deleteRows s
  | .catalog => CatalogRepo.deleteRows s
  | .hardware => HardwareRepo.deleteRows s

/-- The methods that write. -/
inductive Write where
  | add (row : Dict)
  | updateFeedback (shotId aiFeedback : String)
  | upsertInventory (row : Dict)
  | upsertCatalog (row : Dict)
  | upsertHardware (row : Dict)
  | addMany (tab : Tab) (rows : List Dict)
  | deleteRows (tab : Tab) (startRow endRow : Int)
  | deleteByPk (tab : Tab) (pkCol pkVal : String)
  deriving DecidableEq, Repr

namespace Write

/-- What the method does. -/
def run (s : Shared G V) : Write → SheetM G V Unit
  | .add row => BrewLogRepo.add s row
  | .updateFeedback shotId aiFeedback => BrewLogRepo.updateFeedback s shotId aiFeedback
  | .upsertInventory row => InventoryRepo.upsert s row
  | .upsertCatalog row => CatalogRepo.upsert s row
  | .upsertHardware row => HardwareRepo.upsert s row
  | .addMany tab rows => Sheets.addMany s tab rows
  | .deleteRows tab startRow endRow => Sheets.deleteRows s tab startRow endRow
  | .deleteByPk tab pkCol pkVal => Sheets.deleteByPk s tab (Sheets.deleteRows s tab) pkCol pkVal

/-- The tab that is written. -/
def tab : Write → Tab
  | .add _ | .updateFeedback _ _ => .brewLog
  | .upsertInventory _ => .inventory
  | .upsertCatalog _ => .catalog
  | .upsertHardware _ => .hardware
  | .addMany tab _ | .deleteRows tab _ _ | .deleteByPk tab _ _ => tab

/-- The method has something to write. -/
def changes (s : Shared G V) (w : World G V) : Write → Bool
  | .addMany _ rows => !rows.isEmpty
  | .deleteByPk tab pkCol pkVal =>
      (s.client.records (w.sheet tab)).any fun row => same (row.get pkCol) (.str pkVal)
  | _ => true

/-- The method leaves the entries of its tab in the cache. -/
def forgets : Write → Bool
  | .addMany tab _ | .deleteRows tab _ _ | .deleteByPk tab _ _ => tab ≠ .hardware
  | _ => false

end Write

/-- What a method that writes to a tab leaves behind. -/
structure Written (s : Shared G V) (held : Nat → Prop) (shown : Tab → List G) (tab : Tab)
    (changes : Bool) (w : World G V) (result : Except Exc Unit × World G V) : Prop where
  sound : result.2.Sound s held fun t => result.2.sheet t :: shown t
  others : ∀ t, t ≠ tab → result.2.sheet t = w.sheet t
  quiet : result.1 = .ok () → changes = true → Quiet s tab result.2
  unchanged : changes = false → result.2.sheet = w.sheet

section

variable {s : Shared G V} {held : Nat → Prop} {shown shown' : Tab → List G} {tab : Tab}
  {w : World G V} {changes : Bool}

/-- More contents may be shown. -/
theorem World.Sound.more (sound : w.Sound s held shown) (more : ∀ t g, g ∈ shown t → g ∈ shown' t) :
    w.Sound s held shown' where
  clock := sound.clock
  current t := more t _ (sound.current t)
  coherent := sound.coherent.shows fun _ _ _ _ ⟨tab, mem, g, among, eq⟩ =>
    ⟨tab, mem, g, more tab g among, eq⟩

theorem World.Sound.grow (sound : w.Sound s held shown) :
    w.Sound s held fun t => w.sheet t :: shown t :=
  sound.more fun _ _ => List.mem_cons_of_mem _

/-- Once no entry of the tab can be served, only its content may be shown. -/
theorem World.Sound.settle [DecidableEq Tab] (sound : w.Sound s held shown)
    (quiet : Quiet s tab w) : w.Sound s held (Function.update shown tab [w.sheet tab]) where
  clock := sound.clock
  current t := by
    by_cases here : t = tab
    · subst here
      rw [Function.update_self]
      exact List.mem_singleton_self _
    · rw [Function.update_of_ne here]
      exact sound.current t
  coherent := sound.coherent.shows fun key cached found fresh ⟨t, mem, g, among, eq⟩ => by
    refine ⟨t, mem, g, ?_, eq⟩
    by_cases here : t = tab
    · subst here
      exact absurd (quiet key mem cached found) (not_lt.mpr fresh)
    · rw [Function.update_of_ne here]
      exact among

theorem Written.of_error {e : Exc} (sound : w.Sound s held shown) :
    Written s held shown tab changes w (.error e, w) where
  sound := sound.grow
  others _ _ := rfl
  quiet eq := by cases eq
  unchanged _ := rfl

theorem Written.of_unchanged (sound : w.Sound s held shown) :
    Written s held shown tab false w (.ok (), w) where
  sound := sound.grow
  others _ _ := rfl
  quiet _ eq := by cases eq
  unchanged _ := rfl

/-- A method that reads before it writes. -/
theorem Reads.written {p : SheetM G V α} {f : α → SheetM G V Unit} {mid : α → World G V → Prop}
    (first : Reads s held shown p mid) (sound : w.Sound s held shown)
    (next : ∀ a w', p w = (.ok a, w') → w'.Sound s held shown → mid a w' → w'.sheet = w.sheet →
      Written s held shown tab changes w' (f a w')) :
    Written s held shown tab changes w ((p >>= f) w) := by
  obtain ⟨sound', sheet, after⟩ := first w sound
  have next' := fun a => next a (p w).2
  rw [bind_apply]
  generalize p w = result at sound' sheet after next'
  obtain ⟨e | a, w'⟩ := result
  · have written : Written s held shown tab changes w' (.error e, w') := .of_error sound'
    exact ⟨written.sound, fun t _ => congrFun sheet t, written.quiet, fun _ => sheet⟩
  · have written := next' a rfl sound' (after a rfl) sheet
    exact ⟨written.sound, fun t other => (written.others t other).trans (congrFun sheet t),
      written.quiet, fun same => (written.unchanged same).trans sheet⟩

/-- To invalidate keys. -/
theorem forM_invalidate (keys : List String) (sound : w.Sound s held shown) :
    ∃ w', keys.forM TTLCache.invalidate w = (.ok (), w') ∧ w'.Sound s held shown ∧
      w'.sheet = w.sheet ∧ ∀ key, key ∈ keys ∨ Stale s w key → Stale s w' key := by
  induction keys generalizing w with
  | nil =>
      refine ⟨w, rfl, sound, rfl, fun key stale => ?_⟩
      exact stale.resolve_left List.not_mem_nil
  | cons k keys ih =>
      have once : World.Sound s held shown { w with memory := w.memory.invalidate k } :=
        ⟨sound.clock, sound.current, sound.coherent.invalidate k⟩
      obtain ⟨w', eq, sound', sheet, stale⟩ := ih once
      refine ⟨w', eq, sound', sheet, fun key before => stale key ?_⟩
      rcases before with mem | before
      · rcases List.mem_cons.mp mem with rfl | mem
        · right
          intro cached found
          have none := @Memory.store_invalidate_self String Dict _ w.memory key
          cases none.symm.trans found
        · exact .inl mem
      · exact .inr fun cached found => before cached (Memory.store_of_invalidate found)

/-- To call the client to write, and then to invalidate keys. -/
theorem written_tail {op : TabWrite} {keys : List String} (sound : w.Sound s held shown)
    (quiet : tab.keys ⊆ keys ∨ Quiet s tab w) :
    Written s held shown tab true w
      ((do write s.client tab op; keys.forM TTLCache.invalidate : SheetM G V Unit) w) := by
  have sound' : ∀ g, (w.wrote tab g).Sound s held fun t => (w.wrote tab g).sheet t :: shown t := by
    intro g
    refine ⟨sound.clock, fun t => List.mem_cons_self, ?_⟩
    exact (sound.more fun _ _ => List.mem_cons_of_mem _).coherent
  have others : ∀ g t, t ≠ tab → (w.wrote tab g).sheet t = w.sheet t :=
    fun g t other => Function.update_of_ne other ..
  rw [bind_apply]
  unfold write
  obtain ⟨failed, g⟩ := s.client.write (w.weather w.calls) op (w.sheet tab)
  cases failed with
  | some e =>
      refine ⟨sound' g, others g, ?_, ?_⟩
      · intro eq
        cases eq
      · intro same
        cases same
  | none =>
      obtain ⟨w', eq, sound'', sheet, stale⟩ := forM_invalidate keys (sound' g)
      simp only [eq]
      refine ⟨?_, fun t other => ?_, fun _ _ key mem => stale key ?_, ?_⟩
      · rw [sheet]
        exact sound''
      · rw [sheet]
        exact others g t other
      · rcases quiet with all | before
        · exact .inl (all mem)
        · exact .inr fun cached found => before key mem cached found
      · intro same
        cases same

theorem written_upsertRow {pk : String} {row : Dict} (sound : w.Sound s held shown) :
    Written s held shown tab true w (upsertRow s tab pk tab.keys row w) := by
  unfold upsertRow
  split
  · exact .of_error sound
  · refine Reads.written reads_getAllRecords sound fun rows w' _ sound' _ _ => ?_
    have looked : ∀ f : List Dict → SheetM G V Unit,
        (look rows >>= f : SheetM G V Unit) w' = f (w'.memory.values rows) w' := fun _ => rfl
    rw [looked]
    split
    · exact written_tail sound' (.inl (List.Subset.refl _))
    · exact written_tail sound' (.inl (List.Subset.refl _))

theorem written_addRows {columns keys : List String} {rows : List Dict}
    (sound : w.Sound s held shown)
    (quiet : rows.isEmpty = false → tab.keys ⊆ keys ∨ Quiet s tab w) :
    Written s held shown tab (!rows.isEmpty) w (addRows s tab columns keys rows w) := by
  unfold addRows
  cases empty : rows.isEmpty with
  | true => exact .of_unchanged sound
  | false => exact written_tail sound (quiet empty)

theorem written_dropRows {keys : List String} {startRow endRow : Int}
    (sound : w.Sound s held shown) (quiet : tab.keys ⊆ keys ∨ Quiet s tab w) :
    Written s held shown tab true w (dropRows s tab keys startRow endRow w) :=
  written_tail sound quiet

theorem written_addMany {rows : List Dict} (sound : w.Sound s held shown)
    (quiet : rows.isEmpty = false → tab ≠ .hardware → Quiet s tab w) :
    Written s held shown tab (!rows.isEmpty) w (addMany s tab rows w) := by
  cases tab with
  | hardware => exact written_addRows sound fun _ => .inl (List.Subset.refl _)
  | _ => exact written_addRows sound fun some => .inr (quiet some (by decide))

theorem written_deleteRows {startRow endRow : Int} (sound : w.Sound s held shown)
    (quiet : tab ≠ .hardware → Quiet s tab w) :
    Written s held shown tab true w (deleteRows s tab startRow endRow w) := by
  cases tab with
  | hardware => exact written_dropRows sound (.inl (List.Subset.refl _))
  | _ => exact written_dropRows sound (.inr (quiet (by decide)))

/-- What is read past the cache leaves the cache as it is. -/
theorem stale_getAllRecords {key : String} (stale : Stale s w key) :
    Stale s (getAllRecords s.client tab w).2 key := by
  unfold getAllRecords
  split
  · exact stale
  · exact stale

theorem written_deleteByPk {pkCol pkVal : String} (sound : w.Sound s held shown)
    (quiet : Write.changes s w (.deleteByPk tab pkCol pkVal) = true → tab ≠ .hardware →
      Quiet s tab w) :
    Written s held shown tab (Write.changes s w (.deleteByPk tab pkCol pkVal)) w
      (deleteByPk s tab (deleteRows s tab) pkCol pkVal w) := by
  unfold deleteByPk
  refine Reads.written reads_getAllRecords sound fun rows w' eq sound' _ sheet => ?_
  have values : w'.memory.values rows = s.client.records (w.sheet tab) := by
    have read := @getAllRecords_ok _ _ s tab w rows
    rw [show getAllRecords s.client tab w = (.ok rows, w') from eq] at read
    exact read rfl
  have later : ∀ key, Stale s w key → Stale s w' key := by
    intro key stale
    have read := @stale_getAllRecords _ _ s tab w key stale
    rw [show getAllRecords s.client tab w = (.ok rows, w') from eq] at read
    exact read
  have looked : ∀ f : List Dict → SheetM G V Unit,
      (look rows >>= f : SheetM G V Unit) w' = f (w'.memory.values rows) w' := fun _ => rfl
  rw [looked, values]
  have some_iff := @List.findIdx?_isSome _ (s.client.records (w.sheet tab))
    fun row => same (row.get pkCol) (.str pkVal)
  cases found : (s.client.records (w.sheet tab)).findIdx?
      fun row => same (row.get pkCol) (.str pkVal) with
  | none =>
      have none : Write.changes s w (.deleteByPk tab pkCol pkVal) = false := by
        rw [found] at some_iff
        exact some_iff.symm
      rw [none]
      exact .of_unchanged sound'
  | some i =>
      have some : Write.changes s w (.deleteByPk tab pkCol pkVal) = true := by
        rw [found] at some_iff
        exact some_iff.symm
      rw [some]
      exact written_deleteRows sound' fun other key mem => later key (quiet some other key mem)

/-- What each method that writes leaves behind. -/
theorem Write.written (op : Write) (sound : w.Sound s held shown)
    (quiet : op.changes s w = true → op.forgets = true → Quiet s op.tab w) :
    Written s held shown op.tab (op.changes s w) w (op.run s w) := by
  cases op with
  | add row => exact written_tail sound (.inl (List.Subset.refl _))
  | updateFeedback shotId aiFeedback =>
      have reads : Reads s held shown (BrewLogRepo.get s shotId) fun _ _ => True :=
        Reads.bind (reads_fetchCached (by decide)) fun rows w sound _ =>
          ⟨sound, rfl, fun _ _ => trivial⟩
      refine Reads.written reads sound fun found w' _ sound' _ _ => ?_
      cases found with
      | none => exact .of_error sound'
      | some row => exact written_tail sound' (.inl (List.Subset.refl _))
  | upsertInventory row => exact written_upsertRow sound
  | upsertCatalog row => exact written_upsertRow sound
  | upsertHardware row => exact written_upsertRow sound
  | addMany tab rows =>
      refine written_addMany sound fun some other => quiet ?_ (decide_eq_true other)
      simp only [Write.changes, some, Bool.not_false]
  | deleteRows tab startRow endRow =>
      exact written_deleteRows sound fun other => quiet rfl (decide_eq_true other)
  | deleteByPk tab pkCol pkVal =>
      exact written_deleteByPk sound fun some other => quiet some (decide_eq_true other)

end

/-! ### Runs -/

/-- A world, what a read of each tab may still show, and the row objects that callers have. -/
structure Run (G V : Type) where
  world : World G V
  shown : Tab → List G
  given : List Nat

/-- What callers do: they read, write, or change a row that they were given. -/
inductive Op where
  | read (r : Read)
  | write (op : Write)
  | change (i : Nat) (row : Dict)

namespace Run

/-- One operation: reads hand out rows, a write that returned settles what reads of its
tab may show, and a caller may change a row it was given. -/
def step (s : Shared G V) (σ : Run G V) : Op → Run G V
  | .read r => match r.run s σ.world with
    | (.ok a, w') => { σ with world := w', given := σ.given ++ a.objects }
    | (.error _, w') => { σ with world := w' }
  | .write op => match op.run s σ.world with
    | (.ok _, w') =>
        if op.changes s σ.world then
          { σ with world := w', shown := Function.update σ.shown op.tab [w'.sheet op.tab] }
        else
          { σ with world := w' }
    | (.error _, w') =>
        { σ with
          world := w'
          shown := Function.update σ.shown op.tab (w'.sheet op.tab :: σ.shown op.tab) }
  | .change i row =>
      if i ∈ σ.given then { σ with world.memory := σ.world.memory.change i row } else σ

/-- Nothing has been read or written. -/
def start (w : World G V) : Run G V := ⟨w, fun tab => [w.sheet tab], []⟩

/-- A read returns what is in the sheet since the last write of its tab that returned, and to
change a row leaves what is cached as it is. -/
def Faithful (s : Shared G V) (σ : Run G V) : Op → Prop
  | .read r => ∀ a w', r.run s σ.world = (.ok a, w') →
      ∃ g ∈ σ.shown r.tab, r.of id (s.client.records g) = .ok (a.map w'.memory.value)
  | .write _ => True
  | .change i row => ∀ key cached, σ.world.memory.store key = some cached →
      (σ.step s (.change i row)).world.memory.values cached.objects =
        σ.world.memory.values cached.objects

/-- A write after which the entries of its tab stay in the cache happens when none of them can be
served any more. -/
def Careful (s : Shared G V) (σ : Run G V) : Op → Prop
  | .write op => op.changes s σ.world = true → op.forgets = true → Quiet s op.tab σ.world
  | _ => True

section

variable {s : Shared G V} {σ : Run G V}

/-- A read keeps the world sound, and shows what may be shown. -/
theorem read_sound (r : Read) (sound : σ.world.Sound s (· ∈ σ.given) σ.shown) :
    (σ.step s (.read r)).world.Sound s (· ∈ (σ.step s (.read r)).given)
        (σ.step s (.read r)).shown ∧ σ.Faithful s (.read r) := by
  obtain ⟨sound', -, after⟩ := r.reads_run σ.world sound
  unfold Faithful step
  simp only
  generalize r.run s σ.world = result at sound' after
  obtain ⟨e | a, w'⟩ := result
  · refine ⟨sound', ?_⟩
    intro a w'' eq
    cases eq
  · obtain ⟨answer, loose⟩ := after a rfl
    refine ⟨⟨sound'.clock, sound'.current, sound'.coherent.hand fun i mem => ?_⟩, ?_⟩
    · exact (List.mem_append.mp mem).imp_right (loose i)
    · intro a' w'' eq
      cases eq
      exact answer

/-- A write keeps the world sound, if it is careful. -/
theorem write_sound (op : Write) (sound : σ.world.Sound s (· ∈ σ.given) σ.shown)
    (careful : σ.Careful s (.write op)) :
    (σ.step s (.write op)).world.Sound s (· ∈ (σ.step s (.write op)).given)
      (σ.step s (.write op)).shown := by
  have written := op.written sound careful
  unfold step
  simp only
  generalize op.run s σ.world = result at written
  obtain ⟨res, w'⟩ := result
  have grown : w'.Sound s (· ∈ σ.given)
      (Function.update σ.shown op.tab (w'.sheet op.tab :: σ.shown op.tab)) := by
    refine written.sound.more fun t g mem => ?_
    by_cases here : t = op.tab
    · subst here
      rw [Function.update_self]
      exact mem
    · rw [Function.update_of_ne here]
      rcases List.mem_cons.mp mem with rfl | mem
      · exact (written.others t here).symm ▸ sound.current t
      · exact mem
  cases res with
  | error e => exact grown
  | ok u =>
      cases changes : op.changes s σ.world with
      | true =>
          have settled := grown.settle (written.quiet rfl changes)
          rw [Function.update_idem] at settled
          exact settled
      | false =>
          refine grown.more fun t g mem => ?_
          by_cases here : t = op.tab
          · subst here
            rw [Function.update_self] at mem
            rcases List.mem_cons.mp mem with rfl | mem
            · exact (congrFun (written.unchanged changes) op.tab).symm ▸ sound.current op.tab
            · exact mem
          · rw [Function.update_of_ne here] at mem
            exact mem

/-- To change a row keeps the world sound, and what is cached as it is. -/
theorem change_sound (i : Nat) (row : Dict) (sound : σ.world.Sound s (· ∈ σ.given) σ.shown) :
    (σ.step s (.change i row)).world.Sound s (· ∈ (σ.step s (.change i row)).given)
        (σ.step s (.change i row)).shown ∧ σ.Faithful s (.change i row) := by
  unfold Faithful step
  simp only
  split
  · rename_i mem
    refine ⟨⟨sound.clock, sound.current, sound.coherent.change row mem⟩, ?_⟩
    intro key cached found
    exact Memory.values_change fun among => (sound.coherent.stored key cached found i among).2 mem
  · exact ⟨sound, fun _ _ _ => rfl⟩

end

end Run

/-- In every run whose writes are careful, each read returns what is in the sheet since
the last write that returned, and no change of a row that was returned changes what is
cached. A write is careful unless it forgets to invalidate the entries of its tab while
one of them can still be served. Of the other writes nothing is asked: their
invalidation is what makes reads see them. -/
theorem reads_see_writes (s : Shared G V) {w : World G V} (clock : Monotone w.clock)
    (empty : ∀ key, w.memory.store key = none) {ops : List Op}
    (careful : Along (Run.step s) (Run.Careful s) (Run.start w) ops) :
    Along (Run.step s) (Run.Faithful s) (Run.start w) ops := by
  -- an empty cache shows nothing that is old
  have init : (Run.start w).world.Sound s (· ∈ (Run.start w).given) (Run.start w).shown := by
    refine ⟨clock, fun tab => List.mem_singleton_self _, ?_, ?_, ?_⟩
    · intro key cached found
      cases (empty key).symm.trans found
    · intro i mem
      cases mem
    · intro key cached found
      cases (empty key).symm.trans found
  refine careful.gives (I := fun σ => σ.world.Sound s (· ∈ σ.given) σ.shown) init ?_ ?_
  · intro σ op sound careful
    cases op with
    | read r => exact (Run.read_sound r sound).1
    | write op => exact Run.write_sound op sound careful
    | change i row => exact (Run.change_sound i row sound).1
  · intro σ op sound _
    cases op with
    | read r => exact (Run.read_sound r sound).2
    | write op => trivial
    | change i row => exact (Run.change_sound i row sound).2

namespace Sample

/-- The header of a tab and its rows. -/
abbrev Content := List String × List (List Val)

/-- The rows under the header. -/
def records (g : Content) : List Dict := g.2.map fun row => g.1.zip row

/-- A client of a spreadsheet that is always there. -/
def client : Client Content Unit where
  records := records
  fails _ _ := none
  write _ op g := match op with
    | .appendRow row pkCol =>
        let known := pkCol.any fun col => (records g).any fun r => same (r.get col) (row.get col)
        (none, if known then g else (g.1, g.2 ++ [row.map Prod.snd]))
    | .updateRow pkCol pkVal row => match (records g).findIdx? fun r => same (r.get pkCol) pkVal with
      | some i => (none, (g.1, g.2.set i (cells g.1 row)))
      | none => (some .keyError, g)
    | .appendRows values => (none, (g.1, g.2 ++ values))
    | .deleteRows startRow endRow =>
        (none, (g.1, g.2.take (startRow - 2).toNat ++ g.2.drop (endRow - 1).toNat))

def shared : Shared Content Unit := ⟨client, 60⟩

/-- One machine, and nothing else. -/
def world : World Content Unit where
  sheet
    | .brewLog => (BrewLogRepo.columns, [])
    | .inventory => (InventoryRepo.columns, [])
    | .catalog => (CatalogRepo.columns, [])
    | .hardware => (HardwareRepo.columns, [[.str "M01", .str "Machine", .str "Silvia", .str "", .str ""]])
  memory := ⟨[], fun _ => none⟩
  clock n := n
  readings := 0
  weather _ := ()
  calls := 0

def grinder : Dict := [("Hardware_ID", .str "G01"), ("Category", .str "Grinder"), ("Name", .str "Niche")]

def bean : Dict := [("Catalog_ID", .str "C001"), ("Bean_Name", .str "Yirgacheffe")]

/-- The hardware repository forgets nothing. -/
theorem hardware_seen :
    Along (Run.step shared) (Run.Faithful shared) (Run.start world)
      [.read (.hardwareList none), .write (.addMany .hardware [grinder]), .change 0 [],
        .read (.hardwareList none)] :=
  reads_see_writes shared Nat.mono_cast (fun _ => rfl)
    ⟨trivial, fun _ forgets => absurd forgets (by decide), trivial, trivial, trivial⟩

/-- What the catalog repository added is not there. -/
theorem catalog_unseen :
    ¬ Along (Run.step shared) (Run.Faithful shared) (Run.start world)
      [.read .catalogList, .write (.addMany .catalog [bean]), .read .catalogList] := by
  rintro ⟨-, -, faithful, -⟩
  have cached : (Read.run shared .catalogList (((Run.start world).step shared
      (.read .catalogList)).step shared (.write (.addMany .catalog [bean]))).world).1 =
        .ok (.rows []) := by
    decide +kernel
  have shown : (((Run.start world).step shared (.read .catalogList)).step shared
      (.write (.addMany .catalog [bean]))).shown .catalog =
        [(CatalogRepo.columns, [cells CatalogRepo.columns bean])] := by
    decide +kernel
  obtain ⟨g, among, answer⟩ := faithful _ _ (Prod.ext cached rfl)
  have only : g = (CatalogRepo.columns, [cells CatalogRepo.columns bean]) :=
    List.mem_singleton.mp (shown ▸ among)
  subst only
  exact absurd answer (by decide)

end Sample

end EspressoLogs.Sheets
