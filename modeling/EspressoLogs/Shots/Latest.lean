import EspressoLogs.Lib.Choice
import EspressoLogs.Lib.Paging
import EspressoLogs.Routers.Overview
import EspressoLogs.Tenant.Context
import Mathlib.Data.List.Perm.Basic
import Mathlib.Data.String.Basic

/-!
The latest shot.

Several shots of a day have one date. `get_defaults` takes the first of the
latest ones in the order in which the rows come in, and that order is not
specified; the dashboard does so too where `brewed_at` ties. Both are settled
just when the latest shots agree.
-/

namespace EspressoLogs

open Lib Py

/-! ### What is computed from the rows -/

/-- The rows of a household, in the order in which statements return them. -/
structure Listing where
  shots : List BrewLog
  bags : List InventoryBag
  beans : List CatalogBean

/-- `scalar_one_or_none`. -/
def single {α : Type} : List α → Except Exc (Option α)
  | [] => .ok none
  | [a] => .ok (some a)
  | _ => .error .multipleResults

namespace Listing

/-- The rows of household `h`. -/
def ofRows (h : Uuid) (rows : State) : Listing where
  shots := own (T := Table) h .brewLog (rows .brewLog)
  bags := own (T := Table) h .inventoryBags (rows .inventoryBags)
  beans := own (T := Table) h .catalog (rows .catalog)

/-- The same rows, each table in an order of its own. -/
structure Reordered (l l' : Listing) : Prop where
  shots : l.shots.Perm l'.shots
  bags : l.bags.Perm l'.bags
  beans : l.beans.Perm l'.beans

variable (l : Listing)

/-- The bags that satisfy `p`, each with the catalog entry it is joined to. -/
def bagDicts (p : InventoryBag → Bool) : List Dict :=
  (leftJoined (fun bag bean => bag.catalogId == some bean.id) (l.bags.filter p) l.beans).map
    fun r => SqlInventoryRepo.toDict r.1 (r.2.bind CatalogBean.sheetsId)

/-- The bags that are active. -/
def active : List Dict := l.bagDicts fun bag => bag.status == some "Active"

/-- The bag under an id, where there is at most one. -/
def bagNamed (bagId : String) : Except Exc (Option Dict) :=
  single (l.bagDicts fun bag => bag.sheetsId == some bagId)

/-- The shots pulled from a bag. -/
def shotsOf (bagId : String) : List Dict :=
  (l.shots.filter fun r => r.bagId == some bagId).map SqlBrewLogRepo.toDict

/-- The catalog entry under an id. -/
def entry (catalogId : String) : Except Exc (Option Dict) := do
  return (← single (l.beans.filter fun r => r.sheetsId == some catalogId)).map SqlCatalogRepo.toDict

/-- Whether the bag is of the roaster; a bag without an entry is of none. -/
def ofRoaster (roaster : String) (bag : Dict) : Except Exc Bool :=
  if bag.text "Catalog_ID" = "" then .ok false
  else do
    match ← l.entry (bag.text "Catalog_ID") with
    | some entry => return entry.text "Roaster" == roaster
    | none => return false

/-- The shots of the active bags that a test picks. -/
def activeShots (picks : Dict → Except Exc Bool) : Except Exc (List Dict) := do
  let shots ← l.active.mapM fun bag => do
    if ← picks bag then return l.shotsOf (bag.text "Bag_ID") else return []
  return shots.flatten

/-- The roaster of the bag, or an empty text. -/
def roasterOf (bag : Dict) : Except Exc String :=
  if bag.text "Catalog_ID" = "" then .ok ""
  else do return ((← l.entry (bag.text "Catalog_ID")).map fun r => r.text "Roaster").getD ""

/-- The shots of the active bags of a roaster. -/
def roasterShots (roaster : String) : Except Exc (List Dict) :=
  if roaster = "" then .ok [] else l.activeShots (l.ofRoaster roaster)

/-- Those of the active bags of a roast level. -/
def levelShots (roastLevel : String) : Except Exc (List Dict) :=
  if roastLevel = "" then .ok []
  else l.activeShots fun b => .ok (b.text "RoastLevel" == roastLevel)

/-- The shots that a bag without shots falls back to. -/
def fallback (bag : Dict) : Except Exc (List Dict) := do
  let shots ← l.roasterShots (← l.roasterOf bag)
  if shots ≠ [] then return shots else l.levelShots (bag.text "RoastLevel")

/-- Those of the shots that were made with the basket, none if there is none. -/
def withBasket (basketId : Option String) (shots : List Dict) : List Dict :=
  match basketId.bind nonEmpty with
  | some b => shots.filter fun s => s.text "Basket_ID" == b
  | none => []

/-- The shots of the first level that has any: the bag's with the basket, the
bag's, those of the roaster, those of the roast level. -/
def candidates (bagId : String) (basketId : Option String) : Except Exc (List Dict) :=
  if withBasket basketId (l.shotsOf bagId) ≠ [] then .ok (withBasket basketId (l.shotsOf bagId))
  else if l.shotsOf bagId ≠ [] then .ok (l.shotsOf bagId)
  else do
    match ← l.bagNamed bagId with
    | none => return []
    | some bag => l.fallback bag

/-- What `get_defaults` comes to. -/
def defaults (bagId : String) (basketId : Option String) : Except Exc (List (String × String)) := do
  return ((mostRecent (← l.candidates bagId basketId)).map extractDefaults).getD []

end Listing

/-! ### Running -/

theorem mostRecent_of_ne_nil {shots : List Dict} (nonempty : shots ≠ []) :
    ∃ s, mostRecent shots = some s :=
  Option.isSome_iff_exists.mp (List.isSome_maxOn?_iff.mpr nonempty)

section Runs

variable {h : Uuid} {w : World Table}

/-- The read comes to `x` in `w`. -/
def Computes {α : Type} (w : World Table) (p : ReadM α) (x : Except Exc α) : Prop := p.run w = (x, w)

namespace Computes

variable {α β : Type}

theorem pure (a : α) : Computes w (Pure.pure a) (.ok a) := rfl

/-- Part by part. -/
theorem bind {p : ReadM α} {x : Except Exc α} {f : α → ReadM β} {g : α → Except Exc β}
    (hp : Computes w p x) (hf : ∀ a, Computes w (f a) (g a)) : Computes w (p >>= f) (x >>= g) := by
  cases x with
  | error e => exact CodeM.run_bind_error hp
  | ok a => exact (CodeM.run_bind_ok hp).trans (hf a)

theorem oneOrNone (rows : List α) : Computes w (oneOrNone rows) (single rows) := by
  rcases rows with _ | ⟨a, _ | ⟨b, rest⟩⟩ <;> rfl

theorem mapM {f : α → ReadM β} {g : α → Except Exc β} (hf : ∀ a, Computes w (f a) (g a))
    (xs : List α) : Computes w (xs.mapM f) (xs.mapM g) := by
  have loop : ∀ (xs : List α) (acc : List β),
      Computes w (List.mapM.loop f xs acc) (List.mapM.loop g xs acc) := by
    intro xs
    induction xs with
    | nil => exact fun acc => pure acc.reverse
    | cons a xs ih => exact fun acc => (hf a).bind fun b => ih (b :: acc)
  exact loop xs []

end Computes

variable (live : w.Live) (context : w.session.context = some h)

include live context

theorem computes_bagDicts (p : InventoryBag → Bool) :
    Computes w (SqlInventoryRepo.withCatalog p) (.ok ((Listing.ofRows h w.view).bagDicts p)) := by
  refine CodeM.run_bind_of (run_leftJoin live _ _ _ _) ?_
  rw [World.joined, visible_eq_own context rfl, visible_eq_own context rfl]
  rfl

/-- The active bags as the endpoint reads them. -/
theorem computes_active :
    Computes w (SqlInventoryRepo.list (some "Active")) (.ok (Listing.ofRows h w.view).active) :=
  computes_bagDicts live context _

theorem computes_shotsOf (bagId : String) :
    Computes w (SqlBrewLogRepo.listForBag bagId) (.ok ((Listing.ofRows h w.view).shotsOf bagId)) := by
  have found : CodeM.run currentHouseholdId w = (.ok (some h), w) := by
    rw [← context]
    exact run_currentSetting live
  refine CodeM.run_bind_of (CodeM.run_bind_of found (run_select live _ _)) ?_
  rw [visible_eq_own context rfl]
  refine congrArg (fun rows : List BrewLog => (Except.ok (rows.map SqlBrewLogRepo.toDict), w)) ?_
  refine List.filter_congr fun r hr => ?_
  have owned : r.householdId = some h := (mem_own.mp hr).2
  simp [owned]

/-- The catalog entry as the endpoint reads it. -/
theorem computes_entry (catalogId : String) :
    Computes w (SqlCatalogRepo.get catalogId) ((Listing.ofRows h w.view).entry catalogId) := by
  refine (CodeM.run_bind_ok (run_select live _ _)).trans ?_
  rw [visible_eq_own context rfl]
  exact (Computes.oneOrNone _).bind fun row => Computes.pure _

/-- The comparison of roasters, over the listing. -/
theorem computes_sameRoaster (roaster : String) (bag : Dict) :
    Computes w (sameRoaster roaster bag) ((Listing.ofRows h w.view).ofRoaster roaster bag) := by
  unfold sameRoaster Listing.ofRoaster
  by_cases none : bag.text "Catalog_ID" = ""
  · simp only [none, if_pos]
    rfl
  · simp only [none, if_false]
    refine (computes_entry live context _).bind fun entry => ?_
    cases entry <;> rfl

/-- The loop over the active bags, over the listing. -/
theorem computes_activeShots {p : Dict → ReadM Bool} {picks : Dict → Except Exc Bool}
    (hp : ∀ bag, Computes w (p bag) (picks bag)) :
    Computes w (shotsOfActiveBags p) ((Listing.ofRows h w.view).activeShots picks) := by
  refine (CodeM.run_bind_ok (computes_active live context)).trans ?_
  refine Computes.bind (Computes.mapM (fun bag => ?_) _) fun shots => Computes.pure _
  refine (hp bag).bind fun picked => ?_
  cases picked with
  | false => rfl
  | true => exact computes_shotsOf live context _

theorem computes_levelShots (roastLevel : String) :
    Computes w (if roastLevel = "" then pure []
      else shotsOfActiveBags fun b => return b.text "RoastLevel" == roastLevel)
      ((Listing.ofRows h w.view).levelShots roastLevel) := by
  unfold Listing.levelShots
  split
  · rfl
  · exact computes_activeShots live context fun b => rfl

/-- The three tries of the fallback, over the listing. -/
theorem computes_fallback (bag : Dict) :
    Computes w (fallbackShots bag) ((Listing.ofRows h w.view).fallback bag) := by
  -- What follows once the roaster is known.
  have rest : ∀ roaster, Computes w (do
      let ofRoaster ← if roaster = "" then pure [] else shotsOfActiveBags (sameRoaster roaster)
      if ofRoaster ≠ [] then return ofRoaster
      let roastLevel := bag.text "RoastLevel"
      if roastLevel = "" then return []
      shotsOfActiveBags fun b => return b.text "RoastLevel" == roastLevel)
      ((Listing.ofRows h w.view).roasterShots roaster >>= fun shots =>
        if shots ≠ [] then .ok shots
        else (Listing.ofRows h w.view).levelShots (bag.text "RoastLevel")) := by
    intro roaster
    have last : ∀ ofRoaster : List Dict, Computes w (do
        if ofRoaster ≠ [] then return ofRoaster
        let roastLevel := bag.text "RoastLevel"
        if roastLevel = "" then return []
        shotsOfActiveBags fun b => return b.text "RoastLevel" == roastLevel)
        (if ofRoaster ≠ [] then .ok ofRoaster
          else (Listing.ofRows h w.view).levelShots (bag.text "RoastLevel")) := by
      intro ofRoaster
      by_cases some : ofRoaster ≠ []
      · simp only [if_pos some]
        rfl
      · simp only [if_neg some]
        exact computes_levelShots live context _
    unfold Listing.roasterShots
    by_cases none : roaster = ""
    · simp only [if_pos none]
      exact last []
    · simp only [if_neg none]
      exact (computes_activeShots live context fun bag =>
        computes_sameRoaster live context _ bag).bind last
  unfold fallbackShots Listing.fallback Listing.roasterOf
  by_cases none : bag.text "Catalog_ID" = ""
  · simp only [if_pos none]
    exact rest ""
  · simp only [if_neg none]
    rw [bind_assoc]
    exact (computes_entry live context _).bind fun entry => rest _

theorem computes_bagNamed (bagId : String) :
    Computes w (SqlInventoryRepo.get bagId) ((Listing.ofRows h w.view).bagNamed bagId) :=
  (CodeM.run_bind_ok (computes_bagDicts live context _)).trans (Computes.oneOrNone _)

/-- `get_defaults` is a function of the listing. -/
theorem computes_defaults (bagId : String) (basketId : Option String) :
    Computes w (getDefaults bagId basketId) ((Listing.ofRows h w.view).defaults bagId basketId) := by
  refine (CodeM.run_bind_ok (computes_shotsOf live context bagId)).trans ?_
  unfold Listing.defaults Listing.candidates
  generalize (Listing.ofRows h w.view).shotsOf bagId = shots
  show Computes w (match mostRecent (Listing.withBasket basketId shots) <|> mostRecent shots with
    | some s => return extractDefaults s
    | none => do
        match ← SqlInventoryRepo.get bagId with
        | none => return []
        | some bag => return ((mostRecent (← fallbackShots bag)).map extractDefaults).getD []) _
  generalize Listing.withBasket basketId shots = basketShots
  by_cases noBasket : basketShots = []
  · subst noBasket
    by_cases none : shots = []
    · subst none
      simp only [ne_eq, not_true_eq_false, if_false]
      rw [bind_assoc]
      refine (computes_bagNamed live context bagId).bind fun bag => ?_
      cases bag with
      | none => rfl
      | some bag => exact (computes_fallback live context bag).bind fun shots => rfl
    · obtain ⟨latest, chosen⟩ := mostRecent_of_ne_nil none
      simp only [chosen, ne_eq, none, not_true_eq_false, not_false_eq_true, if_false, if_true]
      show Computes w _ (.ok (((mostRecent shots).map extractDefaults).getD []))
      rw [chosen]
      rfl
  · obtain ⟨latest, chosen⟩ := mostRecent_of_ne_nil noBasket
    simp only [chosen, ne_eq, noBasket, not_false_eq_true, if_true]
    show Computes w _ (.ok (((mostRecent basketShots).map extractDefaults).getD []))
    rw [chosen]
    rfl

end Runs

/-! ### Another order -/

/-- The same exception, or the same rows in some order. -/
def Alike {α : Type} : Except Exc (List α) → Except Exc (List α) → Prop
  | .ok rows, .ok rows' => rows.Perm rows'
  | .error e, .error e' => e = e'
  | _, _ => False

theorem Alike.cases {α : Type} {x y : Except Exc (List α)} (alike : Alike x y) :
    (∃ e, x = .error e ∧ y = .error e) ∨
      ∃ rows rows', x = .ok rows ∧ y = .ok rows' ∧ rows.Perm rows' := by
  cases x with
  | error e =>
      cases y with
      | error e' =>
          obtain rfl : e = e' := alike
          exact .inl ⟨e, rfl, rfl⟩
      | ok rows' => exact alike.elim
  | ok rows =>
      cases y with
      | error e' => exact alike.elim
      | ok rows' => exact .inr ⟨rows, rows', rfl, rfl, alike⟩

/-- `scalar_one_or_none` does not see the order of the rows. -/
theorem single_perm {α : Type} {rows rows' : List α} (perm : rows.Perm rows') :
    single rows = single rows' := by
  have length := perm.length_eq
  match rows, rows', length with
  | [], [], _ => rfl
  | [a], [b], _ => rw [List.singleton_perm_singleton.mp perm]
  | _ :: _ :: _, _ :: _ :: _, _ => rfl

theorem single_error {α : Type} {rows : List α} {e : Exc} (failed : single rows = .error e) :
    e = .multipleResults := by
  rcases rows with _ | ⟨a, _ | ⟨b, rest⟩⟩ <;> cases failed
  rfl

/-- Nor does a join, but for the order of its own rows. -/
theorem leftJoined_perm {R M : Type} (on : R → M → Bool) {rows rows' : List R} {others others' : List M}
    (left : rows.Perm rows') (right : others.Perm others') :
    (leftJoined on rows others).Perm (leftJoined on rows' others') := by
  refine List.Perm.flatMap left fun r _ => ?_
  have partners := right.filter (on r)
  cases here : others.filter (on r) with
  | nil =>
      rw [here] at partners
      rw [List.nil_perm.mp partners]
  | cons m ms =>
      rw [here] at partners
      cases there : others'.filter (on r) with
      | nil =>
          rw [there] at partners
          exact absurd (List.perm_nil.mp partners) (List.cons_ne_nil m ms)
      | cons m' ms' =>
          rw [there] at partners
          exact partners.map _

theorem leftJoined_cons {R M : Type} (on : R → M → Bool) (r : R) (rows : List R) (others : List M) :
    leftJoined on (r :: rows) others = leftJoined on [r] others ++ leftJoined on rows others := by
  simp [leftJoined]

/-- What a row is joined to, it stands first. -/
theorem mem_leftJoined_singleton {R M : Type} {on : R → M → Bool} {r : R} {others : List M}
    {x : R × Option M} (hx : x ∈ leftJoined on [r] others) : x.1 = r := by
  rw [leftJoined, List.flatMap_singleton] at hx
  split at hx
  · rw [List.mem_singleton.mp hx]
  · obtain ⟨m, _, rfl⟩ := List.mem_map.mp hx
    rfl

/-- A joined row is among those of its own left row. -/
theorem mem_leftJoined_own {R M : Type} {on : R → M → Bool} {rows : List R} {others : List M}
    {x : R × Option M} (hx : x ∈ leftJoined on rows others) :
    x.1 ∈ rows ∧ x ∈ leftJoined on [x.1] others := by
  obtain ⟨r, hr, here⟩ := List.mem_flatMap.mp hx
  have alone : x ∈ leftJoined on [r] others := by
    rw [leftJoined, List.flatMap_singleton]
    exact here
  obtain rfl := mem_leftJoined_singleton alone
  exact ⟨hr, alone⟩

/-! ### Gathering -/

/-- The rows that come from each of a list, in turn. -/
def gather {α β : Type} (f : α → Except Exc (List β)) (xs : List α) : Except Exc (List β) := do
  return (← xs.mapM f).flatten

def rowsOf {β : Type} (x : Except Exc (List β)) : List β := x.toOption.getD []

section Gather

variable {α β : Type} {f g : α → Except Exc (List β)}

/-- One error is like another, so what is gathered is an error or everything. -/
theorem gather_eq (only : ∀ x e, f x = .error e → e = .multipleResults) (xs : List α) :
    gather f xs = if ∀ x ∈ xs, (f x).isOk = true then .ok (xs.flatMap fun x => rowsOf (f x))
      else .error .multipleResults := by
  induction xs with
  | nil => rfl
  | cons x xs ih =>
      have step : gather f (x :: xs) = (f x >>= fun y => gather f xs >>= fun ys => .ok (y ++ ys)) := by
        unfold gather
        rw [List.mapM_cons, bind_assoc]
        cases f x with
        | error e => rfl
        | ok y =>
            cases xs.mapM f <;> rfl
      rw [step, ih]
      cases first : f x with
      | error e =>
          have failing : ¬ ∀ z ∈ x :: xs, (f z).isOk = true := by
            intro all
            have := all x List.mem_cons_self
            rw [first] at this
            cases this
          rw [if_neg failing, only x e first]
          rfl
      | ok y =>
          by_cases rest : ∀ x ∈ xs, (f x).isOk = true
          · rw [if_pos rest, if_pos]
            · simp only [List.flatMap_cons, first]
              rfl
            · intro z hz
              rcases List.mem_cons.mp hz with rfl | hz
              · rw [first]
                rfl
              · exact rest z hz
          · rw [if_neg rest, if_neg]
            · rfl
            · exact fun all => rest fun z hz => all z (List.mem_cons_of_mem x hz)

/-- Collecting over the bags in another order finds the same rows, or raises alike. -/
theorem gather_alike (only : ∀ x e, f x = .error e → e = .multipleResults)
    (same : ∀ x, Alike (f x) (g x)) {xs ys : List α} (perm : xs.Perm ys) :
    Alike (gather f xs) (gather g ys) := by
  have ok : ∀ x, (f x).isOk = (g x).isOk := by
    intro x
    rcases (same x).cases with ⟨e, hf, hg⟩ | ⟨rows, rows', hf, hg, _⟩
    · rw [hf, hg]
    · rw [hf, hg]
      rfl
  have only' : ∀ x e, g x = .error e → e = .multipleResults := by
    intro x e failed
    rcases (same x).cases with ⟨e', hf, hg⟩ | ⟨rows, rows', _, hg, _⟩
    · rw [failed] at hg
      cases hg
      exact only x e hf
    · rw [failed] at hg
      cases hg
  have rows : ∀ x, (rowsOf (f x)).Perm (rowsOf (g x)) := by
    intro x
    rcases (same x).cases with ⟨e, hf, hg⟩ | ⟨rows, rows', hf, hg, perm⟩
    · rw [hf, hg]
    · rw [hf, hg]
      exact perm
  rw [gather_eq only, gather_eq only']
  by_cases all : ∀ x ∈ xs, (f x).isOk = true
  · rw [if_pos all, if_pos fun y hy => ok y ▸ all y (perm.mem_iff.mpr hy)]
    exact List.Perm.flatMap perm fun x _ => rows x
  · rw [if_neg all, if_neg fun all' => all fun x hx => (ok x).trans (all' x (perm.mem_iff.mp hx))]
    rfl

/-- A collection that returns has met no failure. -/
theorem gather_eq_ok (only : ∀ x e, f x = .error e → e = .multipleResults) {xs : List α}
    {rows : List β} (gathered : gather f xs = .ok rows) :
    (∀ x ∈ xs, (f x).isOk = true) ∧ rows = xs.flatMap fun x => rowsOf (f x) := by
  rw [gather_eq only] at gathered
  split at gathered
  · rename_i all
    exact ⟨all, (Except.ok.inj gathered).symm⟩
  · cases gathered

end Gather

/-- The first rows that there are start with `a`. -/
theorem flatMap_starts {α β : Type} {f : α → List β} {a : β} {xs : List α}
    (starts : ∀ x ∈ xs, f x = [] ∨ ∃ rest, f x = a :: rest) (some : ∃ x ∈ xs, f x ≠ []) :
    ∃ rest, xs.flatMap f = a :: rest := by
  induction xs with
  | nil =>
      obtain ⟨x, hx, _⟩ := some
      cases hx
  | cons x xs ih =>
      rw [List.flatMap_cons]
      rcases starts x List.mem_cons_self with empty | ⟨rest, here⟩
      · rw [empty, List.nil_append]
        refine ih (fun y hy => starts y (List.mem_cons_of_mem x hy)) ?_
        obtain ⟨y, hy, nonempty⟩ := some
        rcases List.mem_cons.mp hy with rfl | hy
        · exact absurd empty nonempty
        · exact ⟨y, hy, nonempty⟩
      · exact ⟨rest ++ xs.flatMap f, by rw [here, List.cons_append]⟩

/-! ### A reordered listing -/

namespace Listing

variable {l l' : Listing}

/-- The shots of a bag if it is picked. -/
def shotsIf (l : Listing) (picks : Dict → Except Exc Bool) (bag : Dict) : Except Exc (List Dict) := do
  if ← picks bag then return l.shotsOf (bag.text "Bag_ID") else return []

theorem activeShots_eq (picks : Dict → Except Exc Bool) :
    l.activeShots picks = gather (l.shotsIf picks) l.active := rfl

theorem bagDicts_perm (same : l.Reordered l') (p : InventoryBag → Bool) :
    (l.bagDicts p).Perm (l'.bagDicts p) :=
  (leftJoined_perm _ (same.bags.filter p) same.beans).map _

theorem shotsOf_perm (same : l.Reordered l') (bagId : String) :
    (l.shotsOf bagId).Perm (l'.shotsOf bagId) :=
  (same.shots.filter _).map _

theorem withBasket_perm {shots shots' : List Dict} (perm : shots.Perm shots')
    (basketId : Option String) :
    (withBasket basketId shots).Perm (withBasket basketId shots') := by
  unfold withBasket
  cases basketId.bind nonEmpty with
  | none => exact .refl _
  | some b => exact perm.filter _

/-- The entries are looked up one by one, so their order does not matter. -/
theorem entry_eq (beans : l.beans.Perm l'.beans) : l.entry = l'.entry := by
  funext catalogId
  unfold entry
  rw [single_perm (beans.filter _)]

theorem ofRoaster_eq (beans : l.beans.Perm l'.beans) : l.ofRoaster = l'.ofRoaster := by
  funext roaster bag
  unfold ofRoaster
  rw [entry_eq beans]

theorem roasterOf_eq (beans : l.beans.Perm l'.beans) : l.roasterOf = l'.roasterOf := by
  funext bag
  unfold roasterOf
  rw [entry_eq beans]

theorem bagNamed_eq (same : l.Reordered l') : l.bagNamed = l'.bagNamed := by
  funext bagId
  exact single_perm (bagDicts_perm same _)

theorem ofRoaster_error {roaster : String} {bag : Dict} {e : Exc}
    (failed : l.ofRoaster roaster bag = .error e) : e = .multipleResults := by
  unfold ofRoaster entry at failed
  split at failed
  · cases failed
  · cases found : single (l.beans.filter fun r => r.sheetsId == some (bag.text "Catalog_ID")) with
    | error e' =>
        rw [found] at failed
        cases failed
        exact single_error found
    | ok row =>
        rw [found] at failed
        cases row <;> cases failed

theorem shotsIf_error {picks : Dict → Except Exc Bool}
    (only : ∀ bag e, picks bag = .error e → e = .multipleResults) (bag : Dict) (e : Exc)
    (failed : l.shotsIf picks bag = .error e) : e = .multipleResults := by
  unfold shotsIf at failed
  cases picked : picks bag with
  | error e' =>
      rw [picked] at failed
      cases failed
      exact only bag e picked
  | ok b =>
      rw [picked] at failed
      cases b <;> cases failed

/-- The shots of the active bags, in some other order. -/
theorem activeShots_alike (same : l.Reordered l') {picks : Dict → Except Exc Bool}
    (only : ∀ bag e, picks bag = .error e → e = .multipleResults) :
    Alike (l.activeShots picks) (l'.activeShots picks) := by
  rw [activeShots_eq, activeShots_eq]
  refine gather_alike (shotsIf_error only) (fun bag => ?_) (bagDicts_perm same _)
  unfold shotsIf
  cases picks bag with
  | error e => exact rfl
  | ok b =>
      cases b with
      | false => exact .refl _
      | true => exact shotsOf_perm same _

theorem roasterShots_alike (same : l.Reordered l') (roaster : String) :
    Alike (l.roasterShots roaster) (l'.roasterShots roaster) := by
  unfold roasterShots
  split
  · exact .refl _
  · rw [← ofRoaster_eq same.beans]
    exact activeShots_alike same fun bag e => ofRoaster_error

theorem levelShots_alike (same : l.Reordered l') (roastLevel : String) :
    Alike (l.levelShots roastLevel) (l'.levelShots roastLevel) := by
  unfold levelShots
  split
  · exact .refl _
  · exact activeShots_alike same nofun

/-- Each of the three tries finds something in both orders, or in neither. -/
theorem fallback_alike (same : l.Reordered l') (bag : Dict) :
    Alike (l.fallback bag) (l'.fallback bag) := by
  unfold fallback
  rw [← roasterOf_eq same.beans]
  cases l.roasterOf bag with
  | error e => exact rfl
  | ok roaster =>
      simp only [ok_bind]
      rcases (roasterShots_alike same roaster).cases with
        ⟨e, here, there⟩ | ⟨shots, shots', here, there, perm⟩
      · rw [here, there]
        rfl
      · simp only [here, there, ok_bind]
        by_cases none : shots = []
        · subst none
          rw [List.nil_perm.mp perm, if_neg (by simp), if_neg (by simp)]
          exact levelShots_alike same _
        · have none' : shots' ≠ [] := fun empty => none (List.perm_nil.mp (empty ▸ perm))
          rw [if_pos none, if_pos none']
          exact perm

/-- The level that is reached does not depend on the order, and so the shots that
are considered do not. -/
theorem candidates_alike (same : l.Reordered l') (bagId : String) (basketId : Option String) :
    Alike (l.candidates bagId basketId) (l'.candidates bagId basketId) := by
  have shots := shotsOf_perm same bagId
  have basket := withBasket_perm shots basketId
  have nonempty : ∀ {rows rows' : List Dict}, rows.Perm rows' → (rows ≠ [] ↔ rows' ≠ []) := by
    intro rows rows' perm
    refine not_congr ⟨fun empty => ?_, fun empty => ?_⟩
    · exact List.nil_perm.mp (empty ▸ perm)
    · exact List.perm_nil.mp (empty ▸ perm)
  unfold candidates
  by_cases some : withBasket basketId (l.shotsOf bagId) ≠ []
  · rw [if_pos some, if_pos ((nonempty basket).mp some)]
    exact basket
  · rw [if_neg some, if_neg (mt (nonempty basket).mpr some)]
    by_cases some : l.shotsOf bagId ≠ []
    · rw [if_pos some, if_pos ((nonempty shots).mp some)]
      exact shots
    · rw [if_neg some, if_neg (mt (nonempty shots).mpr some), ← bagNamed_eq same]
      cases l.bagNamed bagId with
      | error e => exact rfl
      | ok bag =>
          cases bag with
          | none => exact .refl _
          | some bag => exact fallback_alike same bag

/-! ### Any candidate may come first -/

theorem mem_shotsOf {bagId : String} {a : Dict} :
    a ∈ l.shotsOf bagId ↔ ∃ s ∈ l.shots, s.bagId = some bagId ∧ SqlBrewLogRepo.toDict s = a := by
  simp [shotsOf, and_assoc]

/-- The listing with a shot and a bag first. -/
def front (l : Listing) (s : BrewLog) (bags : List InventoryBag) : Listing :=
  { l with shots := s :: l.shots.erase s, bags }

/-- The order that puts a shot first is one that the database may return. -/
theorem front_reordered {s : BrewLog} {bags : List InventoryBag} (hs : s ∈ l.shots)
    (perm : l.bags.Perm bags) : l.Reordered (l.front s bags) :=
  ⟨List.perm_cons_erase hs, perm, .refl _⟩

/-- There it is the first shot of its bag. -/
theorem front_shotsOf {s : BrewLog} {bagId : String} (hs : s.bagId = some bagId)
    (bags : List InventoryBag) :
    ∃ rest, (l.front s bags).shotsOf bagId = SqlBrewLogRepo.toDict s :: rest := by
  simp [shotsOf, front, hs]

/-- A shot that is kept for its basket stays first. -/
theorem withBasket_cons {basketId : Option String} {a : Dict} {rows : List Dict}
    (ha : a ∈ withBasket basketId rows) (rest : List Dict) :
    withBasket basketId (a :: rest) = a :: withBasket basketId rest := by
  unfold withBasket at *
  cases basket : basketId.bind nonEmpty with
  | none =>
      rw [basket] at ha
      cases ha
  | some b =>
      rw [basket] at ha
      exact List.filter_cons_of_pos (List.mem_filter.mp ha).2

theorem mem_of_mem_withBasket {basketId : Option String} {a : Dict} {rows : List Dict}
    (ha : a ∈ withBasket basketId rows) : a ∈ rows := by
  unfold withBasket at ha
  cases basket : basketId.bind nonEmpty with
  | none =>
      rw [basket] at ha
      cases ha
  | some b =>
      rw [basket] at ha
      exact (List.mem_filter.mp ha).1

/-- With one of its bags first, the active bags start with the dictionaries of
that bag. -/
theorem active_front {d : Dict} (hd : d ∈ l.active) :
    ∃ bags, l.bags.Perm bags ∧ ∀ s, ∃ here rest, (l.front s bags).active = here ++ rest ∧ d ∈ here ∧
      ∀ x ∈ here, x.text "Bag_ID" = d.text "Bag_ID" := by
  obtain ⟨x, joined, rfl⟩ := List.mem_map.mp hd
  obtain ⟨picked, alone⟩ := mem_leftJoined_own joined
  obtain ⟨mem, isActive⟩ := List.mem_filter.mp picked
  refine ⟨x.1 :: l.bags.erase x.1, List.perm_cons_erase mem, fun s => ?_⟩
  let dicts (rows : List (InventoryBag × Option CatalogBean)) : List Dict :=
    rows.map fun r => SqlInventoryRepo.toDict r.1 (r.2.bind CatalogBean.sheetsId)
  refine ⟨dicts (leftJoined (fun bag bean => bag.catalogId == some bean.id) [x.1] l.beans),
    dicts (leftJoined (fun bag bean => bag.catalogId == some bean.id)
      ((l.bags.erase x.1).filter fun bag => bag.status == some "Active") l.beans), ?_, ?_, ?_⟩
  · have split : (x.1 :: l.bags.erase x.1).filter (fun bag => bag.status == some "Active") =
        x.1 :: (l.bags.erase x.1).filter fun bag => bag.status == some "Active" :=
      List.filter_cons_of_pos isActive
    rw [active, bagDicts, front, split, leftJoined_cons, List.map_append]
  · exact List.mem_map_of_mem alone
  · intro d hd
    obtain ⟨y, there, rfl⟩ := List.mem_map.mp hd
    have same := mem_leftJoined_singleton there
    show (SqlInventoryRepo.toDict y.1 _).text "Bag_ID" = (SqlInventoryRepo.toDict x.1 _).text "Bag_ID"
    rw [same]
    rfl

/-- Any of the shots that are picked can be the first one. -/
theorem activeShots_first {picks : Dict → Except Exc Bool}
    (only : ∀ bag e, picks bag = .error e → e = .multipleResults) {shots : List Dict}
    (found : l.activeShots picks = .ok shots) {a : Dict} (ha : a ∈ shots) :
    ∃ l' rest, l.Reordered l' ∧ l'.beans = l.beans ∧ l'.activeShots picks = .ok (a :: rest) := by
  rw [activeShots_eq] at found
  obtain ⟨_, rfl⟩ := gather_eq_ok (shotsIf_error only) found
  obtain ⟨d, hd, here⟩ := List.mem_flatMap.mp ha
  -- The bag that contributes `a` is picked.
  have picked : picks d = .ok true ∧ a ∈ l.shotsOf (d.text "Bag_ID") := by
    unfold shotsIf at here
    cases hp : picks d with
    | error e =>
        rw [hp] at here
        cases here
    | ok b =>
        rw [hp] at here
        cases b with
        | false => cases here
        | true => exact ⟨rfl, here⟩
  obtain ⟨picked, mem⟩ := picked
  obtain ⟨s, hs, named, rfl⟩ := mem_shotsOf.mp mem
  obtain ⟨bags, perm, starts⟩ := active_front hd
  obtain ⟨first, others, split, hfirst, sameBag⟩ := starts s
  have reordered := front_reordered hs perm
  refine ⟨l.front s bags, ?_⟩
  have alike := activeShots_alike reordered only
  rw [activeShots_eq, found] at alike
  rcases alike.cases with ⟨e, fails, _⟩ | ⟨_, shots', _, found', _⟩
  · cases fails
  · have gathered := (gather_eq_ok (shotsIf_error only) found').2
    rw [split, List.flatMap_append] at gathered
    obtain ⟨front, fronts⟩ := front_shotsOf named bags
    have firsts : ∃ rest, first.flatMap (fun x => rowsOf ((l.front s bags).shotsIf picks x)) =
        SqlBrewLogRepo.toDict s :: rest := by
      refine flatMap_starts (fun x hx => ?_) ⟨d, hfirst, ?_⟩
      · unfold shotsIf
        cases picks x with
        | error e => exact .inl rfl
        | ok b =>
            cases b with
            | false => exact .inl rfl
            | true => exact .inr ⟨front, by rw [sameBag x hx]; exact fronts⟩
      · rw [shotsIf, picked]
        simp only [ok_bind, if_true, fronts]
        exact List.cons_ne_nil _ _
    obtain ⟨rest, firsts⟩ := firsts
    rw [firsts] at gathered
    exact ⟨_, reordered, rfl, found'.trans (congrArg Except.ok gathered)⟩

/-- Any shot that the fallback finds is the first one in some order of the rows. -/
theorem fallback_first {bag : Dict} {shots : List Dict} (found : l.fallback bag = .ok shots)
    {a : Dict} (ha : a ∈ shots) :
    ∃ l' rest, l.Reordered l' ∧ l'.fallback bag = .ok (a :: rest) := by
  unfold fallback at found
  obtain ⟨roaster, named, found⟩ := bind_eq_ok found
  obtain ⟨shotsOfRoaster, matched, found⟩ := bind_eq_ok found
  -- the shots of the roaster, or those of the roast level if there are none
  by_cases some : shotsOfRoaster ≠ []
  · rw [if_pos some] at found
    have same : shotsOfRoaster = shots := Except.ok.inj found
    subst same
    have gathered : l.activeShots (l.ofRoaster roaster) = .ok shotsOfRoaster := by
      unfold roasterShots at matched
      split at matched
      · cases matched
        exact absurd rfl some
      · exact matched
    obtain ⟨l', rest, reordered, beans, first⟩ :=
      activeShots_first (fun bag e => ofRoaster_error) gathered ha
    refine ⟨l', rest, reordered, ?_⟩
    have known : roaster ≠ "" := by
      rintro rfl
      cases matched
      exact some rfl
    have samePicks : l.ofRoaster = l'.ofRoaster := ofRoaster_eq (beans ▸ .refl _)
    rw [fallback, ← roasterOf_eq reordered.beans, named, ok_bind, roasterShots, if_neg known,
      ← samePicks, first, ok_bind, if_pos (List.cons_ne_nil a rest)]
    rfl
  · rw [if_neg some] at found
    have gathered : l.activeShots (fun b => .ok (b.text "RoastLevel" == bag.text "RoastLevel")) =
        .ok shots ∧ bag.text "RoastLevel" ≠ "" := by
      unfold levelShots at found
      split at found
      · cases found
        cases ha
      · rename_i level
        exact ⟨found, level⟩
    have only : ∀ (b : Dict) (e : Exc), (Except.ok (b.text "RoastLevel" == bag.text "RoastLevel") :
        Except Exc Bool) = .error e → e = .multipleResults := by
      intro b e failed
      cases failed
    obtain ⟨l', rest, reordered, beans, first⟩ := activeShots_first only gathered.1 ha
    refine ⟨l', rest, reordered, ?_⟩
    -- in the new order the roaster still has no shots
    have alike := roasterShots_alike reordered roaster
    rw [matched, not_not.mp some] at alike
    rcases alike.cases with ⟨e, fails, _⟩ | ⟨_, rows', same, matched', perm⟩
    · cases fails
    · cases same
      rw [List.nil_perm.mp perm] at matched'
      rw [fallback, ← roasterOf_eq reordered.beans, named, ok_bind, matched', ok_bind,
        if_neg (by simp), levelShots, if_neg gathered.2, first]

/-- Every candidate is the first one in some order. -/
theorem candidates_first {bagId : String} {basketId : Option String} {shots : List Dict}
    (found : l.candidates bagId basketId = .ok shots) {a : Dict} (ha : a ∈ shots) :
    ∃ l' rest, l.Reordered l' ∧ l'.candidates bagId basketId = .ok (a :: rest) := by
  unfold candidates at found
  -- the shots with the basket, then those of the bag, then the fallback
  by_cases some : withBasket basketId (l.shotsOf bagId) ≠ []
  · rw [if_pos some] at found
    cases found
    obtain ⟨s, hs, named, rfl⟩ := mem_shotsOf.mp (mem_of_mem_withBasket ha)
    obtain ⟨rest, first⟩ := front_shotsOf (l := l) named l.bags
    refine ⟨l.front s l.bags, withBasket basketId rest, front_reordered hs (.refl _), ?_⟩
    rw [candidates, first, withBasket_cons ha, if_pos (List.cons_ne_nil _ _)]
  · rw [if_neg some] at found
    have noBasket : ∀ l', l.Reordered l' → ¬ withBasket basketId (l'.shotsOf bagId) ≠ [] := by
      intro l' reordered
      have perm := withBasket_perm (shotsOf_perm reordered bagId) basketId
      rw [not_not.mp some] at perm
      exact not_not.mpr (List.nil_perm.mp perm)
    by_cases some : l.shotsOf bagId ≠ []
    · rw [if_pos some] at found
      cases found
      obtain ⟨s, hs, named, rfl⟩ := mem_shotsOf.mp ha
      obtain ⟨rest, first⟩ := front_shotsOf (l := l) named l.bags
      have reordered : l.Reordered (l.front s l.bags) := front_reordered hs (.refl _)
      refine ⟨l.front s l.bags, rest, reordered, ?_⟩
      rw [candidates, if_neg (noBasket _ reordered), first, if_pos (List.cons_ne_nil _ _)]
    · rw [if_neg some] at found
      obtain ⟨bag, named, found⟩ := bind_eq_ok found
      cases bag with
      | none =>
          cases found
          cases ha
      | some bag =>
          obtain ⟨l', rest, reordered, first⟩ := fallback_first found ha
          refine ⟨l', rest, reordered, ?_⟩
          have perm := shotsOf_perm reordered bagId
          rw [not_not.mp some] at perm
          rw [candidates, if_neg (noBasket l' reordered), List.nil_perm.mp perm, if_neg (by simp),
            ← bagNamed_eq reordered, named, ok_bind]
          exact first

end Listing

/-! ### The dashboard -/

/-- The shots of a bag on the dashboard. -/
def ofBag (bagId : String) (r : BrewLog) : Bool :=
  (SqlBrewLogRepo.toDict r).text "Bag_ID" == bagId && (SqlBrewLogRepo.toDict r).text "Bag_ID" != ""

/-- The date of a shot as the listing shows it. -/
def dateText (r : BrewLog) : String := (SqlBrewLogRepo.toDict r).text "Date"

/-- Of an earlier date, or of the same date and brewed no later. -/
def NoLater (a b : BrewLog) : Prop :=
  dateText a < dateText b ∨ dateText a = dateText b ∧ a.brewedAt.rank ≤ b.brewedAt.rank

/-- What the dashboard shows as the last shot of each bag. -/
def lastShots (items : List DashboardBagOut) : List (String × Option LastShotOut) :=
  items.map fun b => (b.bagId, b.lastShot)

namespace Listing

variable {l l' : Listing} {bagId : String}

/-- The shot of a bag that the dashboard shows. -/
def latestOf (l : Listing) (bagId : String) : Option BrewLog :=
  (((SqlBrewLogRepo.newestFirst l.shots).filter (ofBag bagId)).mergeSort
    fun a b => decide (dateText b ≤ dateText a)).head?

/-- The dashboard over the listing. -/
def dashboard (env : Env) (l : Listing) : List DashboardBagOut :=
  l.active.map (dashboardBag env
    ((l.beans.map SqlCatalogRepo.toDict).map fun r => (r.text "Catalog_ID", r))
    ((SqlBrewLogRepo.newestFirst l.shots).map SqlBrewLogRepo.toDict))

/-- Sorting what is shown is sorting the rows by the date that they show. -/
theorem byDateDesc_map (rows : List BrewLog) :
    byDateDesc (rows.map SqlBrewLogRepo.toDict) =
      (rows.mergeSort fun a b => decide (dateText b ≤ dateText a)).map SqlBrewLogRepo.toDict :=
  (List.map_mergeSort (f := SqlBrewLogRepo.toDict)
    (r := fun a b => decide (dateText b ≤ dateText a))
    (s := fun a b : Dict => decide (b.text "Date" ≤ a.text "Date")) fun _ _ _ _ => rfl).symm

/-- The dashboard shows the first of the bag's latest shots. -/
theorem lastShot_dashboardBag (env : Env) (catalog : List (String × Dict)) (bag : Dict) :
    (dashboardBag env catalog ((SqlBrewLogRepo.newestFirst l.shots).map SqlBrewLogRepo.toDict)
      bag).lastShot = (l.latestOf (bag.text "Bag_ID")).map
        fun r => lastShotOut (SqlBrewLogRepo.toDict r) := by
  have filtered : ((SqlBrewLogRepo.newestFirst l.shots).map SqlBrewLogRepo.toDict).filter
      (fun s => s.text "Bag_ID" == bag.text "Bag_ID" && s.text "Bag_ID" != "") =
        ((SqlBrewLogRepo.newestFirst l.shots).filter (ofBag (bag.text "Bag_ID"))).map
          SqlBrewLogRepo.toDict := by
    rw [List.filter_map]
    rfl
  simp only [dashboardBag, filtered, byDateDesc_map, List.head?_map, Option.map_map, latestOf]
  rfl

theorem lastShots_dashboard (env : Env) (l : Listing) :
    lastShots (l.dashboard env) = l.active.map fun bag => (bag.text "Bag_ID",
      (l.latestOf (bag.text "Bag_ID")).map fun r => lastShotOut (SqlBrewLogRepo.toDict r)) := by
  rw [lastShots, dashboard, List.map_map]
  refine List.map_congr_left fun bag _ => ?_
  refine Prod.ext rfl ?_
  exact lastShot_dashboardBag env
    ((l.beans.map SqlCatalogRepo.toDict).map fun r => (r.text "Catalog_ID", r)) bag

/-- Dates are compared as texts, which is transitive. -/
theorem date_trans (a b c : BrewLog) (hab : decide (dateText b ≤ dateText a) = true)
    (hbc : decide (dateText c ≤ dateText b) = true) : decide (dateText c ≤ dateText a) = true :=
  decide_eq_true (le_trans (of_decide_eq_true hbc) (of_decide_eq_true hab))

/-- Any two of them compare. -/
theorem date_total (a b : BrewLog) :
    (decide (dateText b ≤ dateText a) || decide (dateText a ≤ dateText b)) = true := by
  rw [Bool.or_eq_true, decide_eq_true_eq, decide_eq_true_eq]
  exact le_total _ _

/-- A bag has no last shot if and only if nothing was pulled from it. -/
theorem latestOf_eq_none : l.latestOf bagId = none ↔ l.shots.filter (ofBag bagId) = [] := by
  have perm := (List.mergeSort_perm ((SqlBrewLogRepo.newestFirst l.shots).filter (ofBag bagId))
    fun a b => decide (dateText b ≤ dateText a)).trans
      ((List.mergeSort_perm l.shots _).filter (ofBag bagId))
  rw [latestOf, List.head?_eq_none_iff]
  constructor
  · exact fun empty => List.nil_perm.mp (empty ▸ perm)
  · exact fun empty => List.perm_nil.mp (empty ▸ perm)

/-- The shot that is shown is of the latest date, and of those the newest. -/
theorem best_latestOf {r : BrewLog} (shown : l.latestOf bagId = some r) :
    Best NoLater (l.shots.filter (ofBag bagId)) r := by
  have newest : ((SqlBrewLogRepo.newestFirst l.shots).filter (ofBag bagId)).Pairwise
      fun a b => b.brewedAt.rank ≤ a.brewedAt.rank := by
    refine List.Pairwise.filter _ ((List.pairwise_mergeSort ?_ ?_ l.shots).imp
      fun le => of_decide_eq_true le)
    · intro a b c hab hbc
      exact decide_eq_true (le_trans (of_decide_eq_true hbc) (of_decide_eq_true hab))
    · intro a b
      rw [Bool.or_eq_true, decide_eq_true_eq, decide_eq_true_eq]
      exact le_total _ _
  have sorted := pairwise_mergeSort_of_pairwise date_trans date_total
    (fun a => Nat.le_refl a.brewedAt.rank) newest
  have perm := (List.mergeSort_perm ((SqlBrewLogRepo.newestFirst l.shots).filter (ofBag bagId))
    fun a b => decide (dateText b ≤ dateText a)).trans
      ((List.mergeSort_perm l.shots _).filter (ofBag bagId))
  refine Best.perm perm ?_
  unfold latestOf at shown
  obtain ⟨rest, here⟩ := List.head?_eq_some_iff.mp shown
  rw [here] at sorted ⊢
  refine ⟨List.mem_cons_self, fun x hx => ?_⟩
  rcases List.mem_cons.mp hx with rfl | hx
  · exact .inr ⟨rfl, Nat.le_refl _⟩
  · obtain ⟨later, tie⟩ := (List.pairwise_cons.mp sorted).1 x hx
    rcases lt_or_eq_of_le (of_decide_eq_true later) with before | same
    · exact .inl before
    · exact .inr ⟨same, tie (decide_eq_true (le_of_eq same.symm))⟩

/-- Any of those shots is shown when it comes first. -/
theorem latestOf_front {r : BrewLog} (best : Best NoLater (l.shots.filter (ofBag bagId)) r)
    (bags : List InventoryBag) : (l.front r bags).latestOf bagId = some r := by
  obtain ⟨mem, most⟩ := best
  obtain ⟨here, named⟩ := List.mem_filter.mp mem
  -- sorting is stable, so the first of the input stands before all that are not newer
  obtain ⟨newer, older, sorted, _, above⟩ := @List.mergeSort_cons _
    (fun a b : BrewLog => decide (b.brewedAt.rank ≤ a.brewedAt.rank))
    (fun a b c hab hbc => decide_eq_true (le_trans (of_decide_eq_true hbc) (of_decide_eq_true hab)))
    (fun a b => by
      rw [Bool.or_eq_true, decide_eq_true_eq, decide_eq_true_eq]
      exact le_total _ _) r (l.shots.erase r)
  have mine : ∀ x ∈ newer ++ older, ofBag bagId x = true → NoLater x r := by
    intro x hx bag
    refine most x (List.mem_filter.mpr ⟨?_, bag⟩)
    have inSorted : x ∈ (r :: l.shots.erase r).mergeSort
        fun a b => decide (b.brewedAt.rank ≤ a.brewedAt.rank) := by
      rw [sorted]
      rcases List.mem_append.mp hx with hx | hx
      · exact List.mem_append_left _ hx
      · exact List.mem_append_right _ (List.mem_cons_of_mem _ hx)
    exact (List.perm_cons_erase here).mem_iff.mpr (List.mem_mergeSort.mp inSorted)
  have split : (SqlBrewLogRepo.newestFirst (l.front r bags).shots).filter (ofBag bagId) =
      newer.filter (ofBag bagId) ++ r :: older.filter (ofBag bagId) := by
    rw [SqlBrewLogRepo.newestFirst, front, sorted, List.filter_append,
      List.filter_cons_of_pos named]
  rw [latestOf, split]
  refine head_mergeSort date_trans date_total (fun x hx => ?_) fun x hx => ?_
  · obtain ⟨hx, bag⟩ := List.mem_filter.mp hx
    refine decide_eq_false fun notEarlier => ?_
    rcases mine x (List.mem_append_left _ hx) bag with earlier | ⟨_, notNewer⟩
    · exact absurd earlier (not_lt.mpr notEarlier)
    · have newer := above x hx
      rw [decide_eq_true notNewer] at newer
      cases newer
  · obtain ⟨hx, bag⟩ := List.mem_filter.mp hx
    refine decide_eq_true ?_
    rcases mine x (List.mem_append_right _ hx) bag with earlier | ⟨same, _⟩
    · exact le_of_lt earlier
    · exact le_of_eq same

end Listing

/-! ### Every order that a database may return -/

/-- A live world of the household that holds the rows in some order. -/
structure Returns (h : Uuid) (db : State) (w : World Table) : Prop where
  live : w.Live
  context : w.session.context = some h
  rows : ∀ t, (db t).Perm (w.view t)

/-- `get_defaults` comes to the same in every order. -/
def SameDefaults (h : Uuid) (db : State) (bagId : String) (basketId : Option String) : Prop :=
  ∀ w₁ w₂, Returns h db w₁ → Returns h db w₂ →
    ((getDefaults bagId basketId).run w₁).1 = ((getDefaults bagId basketId).run w₂).1

/-- The dashboard has the same last shot for each bag in every order. -/
def SameLastShots (env : Env) (h : Uuid) (db : State) : Prop :=
  ∀ w₁ w₂, Returns h db w₁ → Returns h db w₂ → ∃ items₁ items₂,
    (apiDashboard env).run w₁ = (.ok ⟨200, .dashboard items₁⟩, w₁) ∧
    (apiDashboard env).run w₂ = (.ok ⟨200, .dashboard items₂⟩, w₂) ∧
    (lastShots items₁).Perm (lastShots items₂)

section Orders

variable {h : Uuid} {db : State} {w : World Table}

/-- The listing of a world that returns the rows in some order. -/
theorem Returns.reordered (returns : Returns h db w) :
    (Listing.ofRows h db).Reordered (Listing.ofRows h w.view) :=
  ⟨(returns.rows .brewLog).filter _, (returns.rows .inventoryBags).filter _,
    (returns.rows .catalog).filter _⟩

/-- The rows with those of the household in the order of a listing. -/
def arranged (h : Uuid) (db : State) (l : Listing) : State
  | .brewLog => l.shots ++ others (T := Table) h .brewLog (db .brewLog)
  | .inventoryBags => l.bags ++ others (T := Table) h .inventoryBags (db .inventoryBags)
  | .catalog => l.beans ++ others (T := Table) h .catalog (db .catalog)
  | t => db t

/-- Any order of a household's own rows is an order of the table. -/
theorem own_arranged {t : Table} {rows : List t.Row}
    (perm : (own (T := Table) h t (db t)).Perm rows) :
    (db t).Perm (rows ++ others (T := Table) h t (db t)) ∧
      own (T := Table) h t (rows ++ others (T := Table) h t (db t)) = rows := by
  constructor
  · refine .trans ?_ (perm.append_right _)
    have split := List.filter_append_perm (fun r => decide (Schema.owner (T := Table) t r = some h))
      (db t)
    simp only [own, others, ← decide_not] at split ⊢
    exact split.symm
  · have mine : own (T := Table) h t rows = rows := by
      refine List.filter_eq_self.mpr fun r hr => decide_eq_true ?_
      exact (mem_own.mp (perm.mem_iff.mpr hr)).2
    have theirs : own (T := Table) h t (others (T := Table) h t (db t)) = [] := by
      refine List.filter_eq_nil_iff.mpr fun r hr => ?_
      have other := (List.mem_filter.mp hr).2
      simpa using other
    rw [own, List.filter_append]
    exact (congrArg₂ (· ++ ·) mine theirs).trans (List.append_nil rows)

/-- Every order of the household's rows is one that may be returned. -/
theorem exists_returns {l : Listing} (same : (Listing.ofRows h db).Reordered l) :
    ∃ w, Returns h db w ∧ Listing.ofRows h w.view = l := by
  refine ⟨{ db := arranged h db l,
            session := { Session.idle (T := Table) (fun _ => h) with context := some h } },
    ⟨⟨rfl, rfl⟩, rfl, fun t => ?_⟩, ?_⟩
  · cases t with
    | brewLog => exact (own_arranged (t := .brewLog) same.shots).1
    | inventoryBags => exact (own_arranged (t := .inventoryBags) same.bags).1
    | catalog => exact (own_arranged (t := .catalog) same.beans).1
    | _ => exact .refl _
  · obtain ⟨shots, bags, beans⟩ := l
    show Listing.mk _ _ _ = _
    rw [Listing.mk.injEq]
    exact ⟨(own_arranged (t := .brewLog) same.shots).2,
      (own_arranged (t := .inventoryBags) same.bags).2, (own_arranged (t := .catalog) same.beans).2⟩

/-- The defaults are those of the latest candidate. -/
theorem defaults_eq_ok {l : Listing} {bagId : String} {basketId : Option String} {shots : List Dict}
    (found : l.candidates bagId basketId = .ok shots) :
    l.defaults bagId basketId = .ok (((mostRecent shots).map extractDefaults).getD []) := by
  rw [Listing.defaults, found]
  rfl

/-- The defaults are the same in every order if and only if the candidates settle them. -/
theorem sameDefaults_iff (bagId : String) (basketId : Option String) :
    SameDefaults h db bagId basketId ↔
      ∀ shots, (Listing.ofRows h db).candidates bagId basketId = .ok shots →
        Lib.Settled (fun a b => a.text "Date" ≤ b.text "Date") extractDefaults shots := by
  constructor
  · intro same shots found a b hab hbb
    -- any latest candidate is the one that some order returns
    have first : ∀ a, Best (fun a b => a.text "Date" ≤ b.text "Date") shots a → ∃ w,
        Returns h db w ∧ ((getDefaults bagId basketId).run w).1 = .ok (extractDefaults a) := by
      intro a best
      obtain ⟨l, rest, reordered, front⟩ := Listing.candidates_first found best.1
      obtain ⟨w, returns, rfl⟩ := exists_returns reordered
      refine ⟨w, returns, ?_⟩
      have alike := Listing.candidates_alike reordered bagId basketId
      rw [found, front] at alike
      have perm : shots.Perm (a :: rest) := alike
      have latest : mostRecent (a :: rest) = some a :=
        maxOn?_cons_of_best fun x hx => (best.perm perm).2 x (List.mem_cons_of_mem a hx)
      have computed := computes_defaults returns.live returns.context bagId basketId
      rw [Computes, defaults_eq_ok front, latest] at computed
      exact congrArg Prod.fst computed
    obtain ⟨w₁, returns₁, run₁⟩ := first a hab
    obtain ⟨w₂, returns₂, run₂⟩ := first b hbb
    exact Except.ok.inj (run₁.symm.trans ((same w₁ w₂ returns₁ returns₂).trans run₂))
  · intro settled w₁ w₂ returns₁ returns₂
    have computed : ∀ w, Returns h db w → ((getDefaults bagId basketId).run w).1 =
        (Listing.ofRows h w.view).defaults bagId basketId := fun w returns =>
      congrArg Prod.fst (computes_defaults returns.live returns.context bagId basketId)
    rw [computed w₁ returns₁, computed w₂ returns₂]
    -- whether the candidates raise does not depend on the order
    rcases (Listing.candidates_alike returns₁.reordered bagId basketId).cases with
      ⟨e, found, found₁⟩ | ⟨shots, shots₁, found, found₁, perm₁⟩
    · rcases (Listing.candidates_alike returns₂.reordered bagId basketId).cases with
        ⟨e', found', found₂⟩ | ⟨shots, shots₂, found', _, _⟩
      · rw [found] at found'
        cases found'
        rw [Listing.defaults, Listing.defaults, found₁, found₂]
      · rw [found] at found'
        cases found'
    · rcases (Listing.candidates_alike returns₂.reordered bagId basketId).cases with
        ⟨e', found', found₂⟩ | ⟨shots', shots₂, found', found₂, perm₂⟩
      · rw [found] at found'
        cases found'
      · rw [found] at found'
        cases found'
        rw [defaults_eq_ok found₁, defaults_eq_ok found₂]
        by_cases none : shots = []
        · subst none
          rw [List.nil_perm.mp perm₁, List.nil_perm.mp perm₂]
        · have nonempty : ∀ {rows : List Dict}, shots.Perm rows → rows ≠ [] := fun perm empty =>
            none (List.perm_nil.mp (empty ▸ perm))
          obtain ⟨a, ha⟩ := mostRecent_of_ne_nil (nonempty perm₁)
          obtain ⟨b, hb⟩ := mostRecent_of_ne_nil (nonempty perm₂)
          have agree := settled shots found a b ((best_of_maxOn? ha).perm perm₁.symm)
            ((best_of_maxOn? hb).perm perm₂.symm)
          rw [ha, hb]
          exact congrArg Except.ok agree

theorem run_apiDashboard (env : Env) (live : w.Live) (context : w.session.context = some h) :
    (apiDashboard env).run w =
      (.ok ⟨200, .dashboard ((Listing.ofRows h w.view).dashboard env)⟩, w) := by
  have found : CodeM.run currentHouseholdId w = (.ok (some h), w) := by
    rw [← context]
    exact run_currentSetting live
  have catalog : SqlCatalogRepo.list.run w =
      (.ok ((Listing.ofRows h w.view).beans.map SqlCatalogRepo.toDict), w) := by
    refine (CodeM.run_bind_ok (run_select live .catalog fun _ => true)).trans ?_
    rw [visible_eq_own context rfl, List.filter_true]
    rfl
  have shots : SqlBrewLogRepo.list.run w =
      (.ok ((SqlBrewLogRepo.newestFirst (Listing.ofRows h w.view).shots).map
        SqlBrewLogRepo.toDict), w) := by
    refine CodeM.run_bind_of (CodeM.run_bind_of found (run_select live .brewLog _)) ?_
    rw [visible_eq_own context rfl]
    have all : (own (T := Table) h .brewLog (w.view .brewLog)).filter
        (fun r : BrewLog => r.householdId == some h && true) = (Listing.ofRows h w.view).shots := by
      refine List.filter_eq_self.mpr fun r hr => ?_
      have owned : r.householdId = some h := (mem_own.mp hr).2
      simp [owned]
    rw [all]
    rfl
  refine CodeM.run_bind_of (computes_active live context) ?_
  exact CodeM.run_bind_of catalog (CodeM.run_bind_of shots rfl)

/-- For the dashboard, every active bag has to be settled. -/
theorem sameLastShots_iff (env : Env) :
    SameLastShots env h db ↔ ∀ bag ∈ (Listing.ofRows h db).active,
      Lib.Settled NoLater (fun r => lastShotOut (SqlBrewLogRepo.toDict r))
        ((Listing.ofRows h db).shots.filter (ofBag (bag.text "Bag_ID"))) := by
  constructor
  · intro same bag hbag a b hab hbb
    -- any latest shot of the bag can be made the one that is shown
    have first : ∀ a, Best NoLater
        ((Listing.ofRows h db).shots.filter (ofBag (bag.text "Bag_ID"))) a →
          ∃ w, Returns h db w ∧ (Listing.ofRows h w.view).active = (Listing.ofRows h db).active ∧
            (Listing.ofRows h w.view).latestOf (bag.text "Bag_ID") = some a := by
      intro a best
      have reordered : (Listing.ofRows h db).Reordered
          ((Listing.ofRows h db).front a (Listing.ofRows h db).bags) :=
        Listing.front_reordered (List.mem_filter.mp best.1).1 (.refl _)
      obtain ⟨w, returns, front⟩ := exists_returns reordered
      refine ⟨w, returns, ?_, ?_⟩
      · rw [front]
        rfl
      · rw [front]
        exact Listing.latestOf_front best _
    obtain ⟨w₁, returns₁, active₁, latest₁⟩ := first a hab
    obtain ⟨w₂, returns₂, active₂, latest₂⟩ := first b hbb
    obtain ⟨items₁, items₂, run₁, run₂, perm⟩ := same w₁ w₂ returns₁ returns₂
    rw [run_apiDashboard env returns₁.live returns₁.context] at run₁
    rw [run_apiDashboard env returns₂.live returns₂.context] at run₂
    cases run₁
    cases run₂
    rw [Listing.lastShots_dashboard, Listing.lastShots_dashboard, active₁, active₂] at perm
    have shown := perm.mem_iff.mp (List.mem_map_of_mem hbag)
    obtain ⟨bag', _, pair⟩ := List.mem_map.mp shown
    obtain ⟨named, last⟩ := Prod.mk.inj pair
    -- the bag of that id shows one last shot, so both of them look alike
    rw [named, latest₁, latest₂] at last
    exact (Option.some.inj last).symm
  · intro settled w₁ w₂ returns₁ returns₂
    refine ⟨_, _, run_apiDashboard env returns₁.live returns₁.context,
      run_apiDashboard env returns₂.live returns₂.context, ?_⟩
    rw [Listing.lastShots_dashboard, Listing.lastShots_dashboard]
    have active₁ := Listing.bagDicts_perm returns₁.reordered fun bag => bag.status == some "Active"
    have active₂ := Listing.bagDicts_perm returns₂.reordered fun bag => bag.status == some "Active"
    refine .trans (active₁.symm.map _) (.trans (.of_eq ?_) (active₂.map _))
    refine List.map_congr_left fun bag hbag => Prod.ext rfl ?_
    have perm₁ := returns₁.reordered.shots.filter (ofBag (bag.text "Bag_ID"))
    have perm₂ := returns₂.reordered.shots.filter (ofBag (bag.text "Bag_ID"))
    -- a bag has a shot in both orders or in neither
    cases shown₁ : (Listing.ofRows h w₁.view).latestOf (bag.text "Bag_ID") with
    | none =>
        have empty := Listing.latestOf_eq_none.mp shown₁
        rw [empty, List.perm_nil] at perm₁
        rw [perm₁] at perm₂
        rw [Listing.latestOf_eq_none.mpr (List.nil_perm.mp perm₂)]
    | some a =>
        have best₁ := (Listing.best_latestOf shown₁).perm perm₁.symm
        cases shown₂ : (Listing.ofRows h w₂.view).latestOf (bag.text "Bag_ID") with
        | none =>
            rw [Listing.latestOf_eq_none.mp shown₂, List.perm_nil] at perm₂
            rw [perm₂] at best₁
            cases best₁.1
        | some b =>
            have best₂ := (Listing.best_latestOf shown₂).perm perm₂.symm
            exact congrArg some (settled bag hbag a b best₁ best₂)

end Orders

/-- The pre-fill is settled just when the latest shots of the level that is reached
agree on it, and the dashboard's last shot just when the newest of a bag's latest shots
do. To be settled is to come out the same whatever order the database returns the rows
of a table in: shots that tie on the date, and on the dashboard on the time, are told
apart by nothing else. -/
theorem latest_shot_settled (h : Uuid) (db : State) :
    (∀ bagId basketId, SameDefaults h db bagId basketId ↔
      ∀ shots, (Listing.ofRows h db).candidates bagId basketId = .ok shots →
        Lib.Settled (fun a b => a.text "Date" ≤ b.text "Date") extractDefaults shots) ∧
    ∀ env, SameLastShots env h db ↔ ∀ bag ∈ (Listing.ofRows h db).active,
      Lib.Settled NoLater (fun r => lastShotOut (SqlBrewLogRepo.toDict r))
        ((Listing.ofRows h db).shots.filter (ofBag (bag.text "Bag_ID"))) := by
  constructor
  · exact sameDefaults_iff
  · exact sameLastShots_iff

namespace Sample

def morning : BrewLog := { shot with bagId := some "BAG01", machineId := some "M01" }

/-- A second shot of the day, on another machine. -/
def evening : BrewLog :=
  { shot with id := id 5, sheetsId := some "S2", bagId := some "BAG01", machineId := some "M02" }

/-- The sample's rows with other shots. -/
def bothShots (shots : List BrewLog) : State
  | .brewLog => shots
  | t => db t

/-- The world in which the database returns those shots in that order. -/
def returning (shots : List BrewLog) : World Table := { serving with db := bothShots shots }

/-- The machine that is pre-filled depends on the order of two shots of one day. -/
theorem two_shots_unsettled :
    ¬ SameDefaults household.id (bothShots [morning, evening]) "BAG01" none := by
  intro same
  have orders := same (returning [morning, evening]) (returning [evening, morning])
    ⟨⟨rfl, rfl⟩, rfl, fun t => .refl _⟩
    ⟨⟨rfl, rfl⟩, rfl, fun t => by
      cases t with
      | brewLog => exact .swap _ _ _
      | _ => exact .refl _⟩
  have differ : ((getDefaults "BAG01" none).run (returning [morning, evening])).1.toOption ≠
      ((getDefaults "BAG01" none).run (returning [evening, morning])).1.toOption := by
    decide +kernel
  exact differ (congrArg Except.toOption orders)

end Sample

end EspressoLogs
