import EspressoLogs.Api
import EspressoLogs.Tenant.Upserts
import Mathlib.Data.List.Pairwise

/-!
Getting a row and putting it back.

`get` and `upsert` name the same columns differently, and each has its own
defaults for what is missing. A column comes back as it was where what `get`
makes of it is what `upsert` reads for it; the laws below say for each table
which rows do.
-/

namespace EspressoLogs

open Lib Py

/-! ### Edits -/

/-- At most one field of a row dictionary, with its new text. -/
abbrev Edit := Option (String × String)

namespace Edit

/-- The dictionary with the edit in it. -/
def apply (edit : Edit) (d : Dict) : Dict :=
  match edit with
  | some (k, v) => d.set k (.str v)
  | none => d

/-- The field that the edit is about. -/
def field (edit : Edit) : Option String := edit.map Prod.fst

/-- The text of a field once the edit is made. -/
def textOf (edit : Edit) (k old : String) : String :=
  match edit with
  | some (k', v) => if k = k' then v else old
  | none => old

/-- The edit replaces one of these fields, if any. -/
def Within (edit : Edit) (fields : List String) : Prop := ∀ k, edit.field = some k → k ∈ fields

/-- No text column holds the new text. -/
def Unstorable (edit : Edit) : Prop := ∃ k v, edit = some (k, v) ∧ v.toList.contains '\x00' = true

variable {edit : Edit} {d : Dict} {k old : String}

/-- What is read behind an edit. -/
theorem get_apply (here : d.get k = .str old) : (edit.apply d).get k = .str (edit.textOf k old) := by
  cases edit with
  | none => exact here
  | some e =>
      obtain ⟨k', v⟩ := e
      rw [apply, Dict.get_set, textOf]
      by_cases same : k = k'
      · simp [same]
      · simp [same, here]

theorem getD_apply {u : Val} (here : d.getD k u = .str old) :
    (edit.apply d).getD k u = .str (edit.textOf k old) := by
  cases edit with
  | none => exact here
  | some e =>
      obtain ⟨k', v⟩ := e
      rw [apply, Dict.getD_set, textOf]
      by_cases same : k = k'
      · simp [same]
      · simp [same, here]

/-- An edit leaves the fields that it is not within. -/
theorem get_apply_of_notMem {fields : List String} (within : edit.Within fields) (hk : k ∉ fields) :
    (edit.apply d).get k = d.get k := by
  cases edit with
  | none => rfl
  | some e =>
      obtain ⟨k', v⟩ := e
      have other : k ≠ k' := by
        rintro rfl
        exact hk (within k rfl)
      rw [apply, Dict.get_set, if_neg other]

/-- Other fields are not touched. -/
theorem textOf_of_ne (other : edit.field ≠ some k) : edit.textOf k old = old := by
  cases edit with
  | none => rfl
  | some e =>
      obtain ⟨k', v⟩ := e
      rw [textOf, if_neg]
      rintro rfl
      exact other rfl

theorem textOf_eq (edit : Edit) (k old : String) :
    edit.field = some k ∨ edit.textOf k old = old := by
  by_cases here : edit.field = some k
  · exact .inl here
  · exact .inr (textOf_of_ne here)

end Edit

/-- A text without the one character that no column can hold. -/
def Storable (s : String) : Prop := s.toList.contains '\x00' = false

/-- A text that the column takes is stored as it is. -/
theorem asText_str {s : String} (hs : Storable s) : asText (.str s) = .ok (some s) := by
  rw [asText, hs]
  rfl

/-- What the edit puts in the field, if anything, is storable. -/
def Edit.Fits (edit : Edit) (k : String) : Prop := ∀ v, edit = some (k, v) → Storable v

/-- Every field of an edited row can be stored, if the new text can be. -/
theorem Edit.storable {edit : Edit} {k old : String} (fits : edit.Fits k) (hold : Storable old) :
    Storable (edit.textOf k old) := by
  cases edit with
  | none => exact hold
  | some e =>
      obtain ⟨k', v⟩ := e
      rw [Edit.textOf]
      split
      · rename_i same
        exact fits v (same ▸ rfl)
      · exact hold

theorem Edit.fits {edit : Edit} (storable : ¬ edit.Unstorable) (k : String) : edit.Fits k :=
  fun v here => Bool.eq_false_iff.mpr fun holds => storable ⟨k, v, here, holds⟩

section Texts

variable {edit : Edit} {d : Dict} {k old : String} (fits : edit.Fits k) (hold : Storable old)

include fits hold

theorem Edit.asText_get (here : d.get k = .str old) :
    asText ((edit.apply d).get k) = .ok (some (edit.textOf k old)) := by
  rw [Edit.get_apply here]
  exact asText_str (Edit.storable fits hold)

theorem Edit.asText_getD {u : Val} (here : d.getD k u = .str old) :
    asText ((edit.apply d).getD k u) = .ok (some (edit.textOf k old)) := by
  rw [Edit.getD_apply here]
  exact asText_str (Edit.storable fits hold)

end Texts

section Unstorable

variable {d : Dict} {k v : String} (hv : v.toList.contains '\x00' = true)

include hv

/-- A text that cannot be stored holds a character, so it is not read as missing. -/
theorem ne_empty_of_unstorable : v ≠ "" := by
  rintro rfl
  cases hv

/-- Such a text is refused. -/
theorem Edit.asText_get_self {a : Option String} :
    asText ((Edit.apply (some (k, v)) d).get k) ≠ .ok a := by
  rw [Edit.apply, Dict.get_set, if_pos rfl, asText, if_pos hv]
  intro done
  cases done

theorem Edit.asText_getD_self {u : Val} {a : Option String} :
    asText ((Edit.apply (some (k, v)) d).getD k u) ≠ .ok a := by
  rw [Edit.apply, Dict.getD_set, if_pos rfl, asText, if_pos hv]
  intro done
  cases done

theorem Edit.get_self_or {u : Val} :
    ((Edit.apply (some (k, v)) d).get k).or u = (Edit.apply (some (k, v)) d).get k := by
  rw [Edit.apply, Dict.get_set, if_pos rfl]
  exact if_pos (decide_eq_true (ne_empty_of_unstorable hv))

end Unstorable

/-- An edit of another field names no household. -/
theorem Edit.anonymous {edit : Edit} {d : Dict} {fields : List String} (within : edit.Within fields)
    (free : "household_id" ∉ fields ∧ "Household_ID" ∉ fields)
    (anonymous : d.get "household_id" = .none ∧ d.get "Household_ID" = .none) :
    Dict.Anonymous (edit.apply d) := by
  rw [Dict.Anonymous, Edit.get_apply_of_notMem within free.1, anonymous.1,
    Edit.get_apply_of_notMem within free.2, anonymous.2]
  rfl

/-! ### Getting and putting back -/

variable {t : Table} {h : Uuid} {w : World Table}

/-- The row that `get` finds, edited and upserted. -/
def getPut (get : String → ReadM (Option Dict)) (upsert : Dict → DbM Unit) (id : String)
    (edit : Edit) : DbM Unit := do
  match ← get id with
  | none => return
  | some d => upsert (edit.apply d)

/-- A row of the household that is served, found by its id, under the indexes
that the schema has. -/
structure Holds (e : SheetsEntity t) (h : Uuid) (w : World Table) (r : t.Row) (s : String) : Prop where
  serves : Serves h w
  clean : w.db = w.view
  keyed : t.Keyed (w.db t)
  indexed : (w.db t).Pairwise fun x y => ∀ s, e.sheetsId x = some s → e.sheetsId y ≠ some s
  mem : r ∈ w.db t
  owner : t.householdId r = some h
  named : e.sheetsId r = some s

/-- The table with a row replaced. -/
def replaced (r r' : t.Row) (db : State) : State :=
  Function.update db t ((db t).map fun x => if x = r then r' else x)

/-- The row comes back as `same` allows, and nothing else changes. -/
def PutsBack (e : SheetsEntity t) (get : String → ReadM (Option Dict))
    (same : Option String → t.Row → t.Row → Prop) (w : World Table) (r : t.Row) (s : String)
    (edit : Edit) : Prop :=
  ∃ r', same edit.field r r' ∧ (CodeM.run (getPut get e.upsert s edit) w).2.db = replaced r r' w.db

/-- A row in the place of itself. -/
theorem replaced_self (r : t.Row) (db : State) : replaced r r db = db := by
  have same : (db t).map (fun x => if x = r then r else x) = db t := by
    refine List.map_id'' (fun x => ?_) _
    split
    · rename_i here
      exact here.symm
    · rfl
  rw [replaced, same, Function.update_eq_self]

/-- Two rows in one place leave two databases. -/
theorem replaced_inj {r r₁ r₂ : t.Row} {db : State} (hr : r ∈ db t)
    (same : replaced r r₁ db = replaced r r₂ db) : r₁ = r₂ := by
  have rows := congrFun same t
  rw [replaced, replaced, Function.update_self, Function.update_self] at rows
  have here := List.map_inj_left.mp rows r hr
  simpa using here

namespace Holds

variable {e : SheetsEntity t} {r : t.Row} {s : String}

/-- No other row has the id. -/
theorem only (holds : Holds e h w r s) {x : t.Row} (hx : x ∈ w.db t) (named : e.sheetsId x = some s) :
    x = r := by
  by_contra other
  have symmetric : Std.Symm fun x y : t.Row => ∀ s, e.sheetsId x = some s → e.sheetsId y ≠ some s :=
    ⟨fun _ _ differ s hy hx => differ s hx hy⟩
  exact holds.indexed.forall hx holds.mem other s named holds.named

/-- The household sees its own rows. -/
theorem visible (holds : Holds e h w r s) : w.visible t = own (T := Table) h t (w.db t) := by
  rw [visible_eq_own holds.serves.context e.tenantScoped, holds.clean]

theorem mem_own (holds : Holds e h w r s) : r ∈ own (T := Table) h t (w.db t) :=
  Lib.mem_own.mpr ⟨holds.mem, holds.owner⟩

/-- The rows of the household with that id. -/
theorem own_filter (holds : Holds e h w r s) {p : t.Row → Bool}
    (hp : ∀ x, p x = true ↔ e.sheetsId x = some s) :
    (own (T := Table) h t (w.db t)).filter p = [r] := by
  have distinct : (w.db t).Nodup := List.Nodup.of_map _ holds.keyed
  refine filter_eq_singleton (distinct.sublist List.filter_sublist) holds.mem_own
    ((hp r).mpr holds.named) fun x hx also => ?_
  exact holds.only (List.mem_filter.mp hx).1 ((hp x).mp also)

/-- The upsert finds the row. -/
theorem found_eq (holds : Holds e h w r s) {d : Dict} (key : d.get e.idField = .str s)
    (nonempty : s ≠ "") : e.found h (w.view t) d = [r] := by
  have truthy : (d.get e.idField).truthy = true := by
    rw [key]
    exact decide_eq_true nonempty
  rw [SheetsEntity.found, if_pos truthy, key, ← holds.clean]
  refine holds.own_filter fun x => ?_
  cases hx : e.sheetsId x with
  | none => simp [equals]
  | some a => simp [equals]

/-- Without an id it finds none. -/
theorem found_empty {d : Dict} (key : d.get e.idField = .str "") :
    e.found h (w.view t) d = [] := by
  rw [SheetsEntity.found, key]
  rfl

end Holds

/-- An upsert that is not accepted stores nothing. -/
theorem db_of_not_accepts {e : SheetsEntity t} {d : Dict} (serves : Serves h w)
    (anonymous : Dict.Anonymous d) (refused : ¬ e.Accepts h (w.view t) d) :
    ((e.upsert d).run w).2.db = w.db := by
  have owner := run_rowHouseholdIdOrContext anonymous serves.live
  rw [serves.context] at owner
  have lifted : CodeM.run (rowHouseholdIdOrContext d : DbM (Option Uuid)) w = _ := owner
  have found : CodeM.run (e.existing d : DbM (Option t.Row)) w = _ := e.run_existing d serves
  unfold SheetsEntity.Accepts at refused
  unfold SheetsEntity.upsert
  rw [CodeM.run_bind_ok lifted]
  cases rows : e.found h (w.view t) d with
  | nil =>
      rw [rows] at found refused
      rw [CodeM.run_bind_ok found]
      cases made : e.make d (some h) w.nextId with
      | error x =>
          have failed := run_insert_invalid serves.live made
          exact congrArg (fun x : Except Exc Unit × World Table => x.2.db)
            (CodeM.run_bind_error (CodeM.run_bind_error failed))
      | ok r =>
          cases verdict : w.refused t (.ins r) with
          | some x =>
              have failed := run_insert_refused serves.live made verdict
              exact congrArg (fun x : Except Exc Unit × World Table => x.2.db)
                (CodeM.run_bind_error (CodeM.run_bind_error failed))
          | none =>
              exact (refused ⟨⟨_, r, made⟩, (e.refused_ins_iff serves made).mp verdict⟩).elim
  | cons r rest =>
      rw [rows] at found refused
      cases rest with
      | cons r₂ rest =>
          rw [CodeM.run_bind_error found]
      | nil =>
          have mem : r ∈ own (T := Table) h t (w.view t) :=
            e.mem_own_of_mem_found (by rw [rows]; exact List.mem_cons_self)
          rw [CodeM.run_bind_ok found]
          cases flushed : CodeM.run (DbM.flush t r (e.assign d (some h))) w with
          | mk result w₁ =>
              cases result with
              | ok _ => exact (refused (e.assigned_of_flush serves mem flushed)).elim
              | error x =>
                  have kept := run_uncommitting (flush_uncommitting t r (e.assign d (some h))) w
                  rw [flushed] at kept
                  rw [CodeM.run_bind_error flushed]
                  exact kept

/-- What is stored after an edit of a row was put back. -/
theorem getPut_db {e : SheetsEntity t} {get : String → ReadM (Option Dict)} {r : t.Row} {s : String}
    (holds : Holds e h w r s) {edit : Edit} {d : Dict} (got : (get s).run w = (.ok (some d), w))
    (key : (edit.apply d).get e.idField = .str s) (anonymous : Dict.Anonymous (edit.apply d)) :
    (CodeM.run (getPut get e.upsert s edit) w).2.db =
      if s = "" then w.db
      else match e.assign (edit.apply d) (some h) r with
        | .ok r' => replaced r r' w.db
        | .error _ => w.db := by
  have lifted : CodeM.run (get s : DbM (Option Dict)) w = _ := got
  rw [getPut, CodeM.run_bind_ok lifted]
  -- without an id the upsert finds no row, and the new one collides with the old
  by_cases empty : s = ""
  · rw [if_pos empty]
    subst empty
    refine db_of_not_accepts holds.serves anonymous ?_
    rw [SheetsEntity.Accepts, Holds.found_empty key]
    rintro ⟨_, free⟩
    refine free ⟨r, holds.clean ▸ holds.mem, "", ?_, holds.named⟩
    rw [key]
    rfl
  · rw [if_neg empty]
    have found := holds.found_eq key empty
    cases assigned : e.assign (edit.apply d) (some h) r with
    | error x =>
        refine db_of_not_accepts holds.serves anonymous ?_
        rw [SheetsEntity.Accepts, found]
        rintro ⟨_, ok⟩
        rw [assigned] at ok
        cases ok
    | ok r' =>
        have accepts : e.Accepts h (w.view t) (edit.apply d) := by
          rw [SheetsEntity.Accepts, found]
          exact ⟨r', assigned⟩
        obtain ⟨w₁, returned, _, here, elsewhere⟩ := e.upsert_of_accepts holds.serves
          (holds.clean ▸ holds.keyed) anonymous accepts
        have stored : (CodeM.run (e.upsert (edit.apply d)) w).2.db = w₁.view :=
          congrArg (fun x => x.2.db) returned
        refine stored.trans (funext fun u => ?_)
        by_cases ht : u = t
        · subst ht
          have row : e.upserted h (w.view u) (edit.apply d) w.nextId =
              (w.view u).map fun x => if x = r then r' else x := by
            rw [SheetsEntity.upserted, found]
            simp only [assigned]
          show w₁.view u = replaced r r' w.db u
          rw [here, row, replaced, Function.update_self, holds.clean]
        · show w₁.view u = replaced r r' w.db u
          rw [elsewhere u ht, replaced, Function.update_of_ne ht, holds.clean]

/-- A row comes back when its id is empty, when its text fits no column, or when
it is the row that the upsert writes that is the same. -/
theorem putsBack_iff {e : SheetsEntity t} {get : String → ReadM (Option Dict)} {r : t.Row}
    {s : String} (holds : Holds e h w r s) {edit : Edit} {d : Dict}
    (got : (get s).run w = (.ok (some d), w)) (key : (edit.apply d).get e.idField = .str s)
    (anonymous : Dict.Anonymous (edit.apply d)) {same : Option String → t.Row → t.Row → Prop}
    (refl : same edit.field r r) :
    PutsBack e get same w r s edit ↔
      s = "" ∨ ∀ r', e.assign (edit.apply d) (some h) r = .ok r' → same edit.field r r' := by
  have stored := getPut_db holds got key anonymous
  rw [PutsBack, stored]
  by_cases empty : s = ""
  · rw [if_pos empty]
    constructor
    · intro _
      exact .inl empty
    · intro _
      exact ⟨r, refl, (replaced_self r w.db).symm⟩
  · rw [if_neg empty]
    cases assigned : e.assign (edit.apply d) (some h) r with
    | error x =>
        constructor
        · intro _
          exact .inr nofun
        · intro _
          exact ⟨r, refl, (replaced_self r w.db).symm⟩
    | ok r₁ =>
        constructor
        · rintro ⟨r', kept, here⟩
          refine .inr fun r₂ h₂ => ?_
          cases h₂
          rw [replaced_inj holds.mem here]
          exact kept
        · rintro (none | kept)
          · exact absurd none empty
          · exact ⟨r₁, kept r₁ rfl, rfl⟩

end EspressoLogs
