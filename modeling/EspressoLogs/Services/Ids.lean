import EspressoLogs.Repos.Tenant
import Mathlib.Data.List.Nodup
import Mathlib.Data.List.Perm.Subperm

/-!
The generators of the ids that users see.

Each looks at the ids already there and counts on from the largest, or takes the
first suffix that is free. What a generator returns is not among the ids it was
shown (`makeShotId_fresh` and its siblings); it knows of no others.
-/

namespace EspressoLogs

open Lib Py

/-- `int(s)`. -/
def pyInt (s : String) : Except Exc Int :=
  match intOf s with
  | some i => .ok i
  | none => .error .valueError

/-- `f"{i:0wd}"`. -/
def pyFormat (w : Nat) (i : Int) : Except Exc String :=
  match formatInt w i with
  | some s => .ok s
  | none => .error .valueError

theorem pyInt_of_pyFormat {w : Nat} {i : Int} {s : String} (hw : w ≤ intMaxStrDigits)
    (h : pyFormat w i = .ok s) : pyInt s = .ok i := by
  unfold pyFormat at h
  split at h
  · rename_i t written
    cases h
    simp only [pyInt, intOf_formatInt hw written]
  · cases h

/-! ### Counting on -/

/-- The digits after a prefix, as the pattern `prefix(\d+)` captures them. -/
def digitsAfter (p s : String) : Option (List Char) :=
  match afterPrefix p s with
  | some (c :: cs) => if (c :: cs).all fun c => (decimal c).isSome then some (c :: cs) else none
  | _ => none

/-- The captured digits when the pattern ends in `$`, which also matches before
a final line break. -/
def digitsBefore (p s : String) : Option (List Char) :=
  match s.toList.reverse with
  | '\n' :: rest => digitsAfter p (String.ofList rest.reverse)
  | _ => digitsAfter p s

theorem digitsAfter_append {p : String} {cs : List Char} (ne : cs ≠ [])
    (h : ∀ c ∈ cs, c.isDigit = true) : digitsAfter p (p ++ String.ofList cs) = some cs := by
  have found : afterPrefix p (p ++ String.ofList cs) = some cs := by
    rw [afterPrefix, String.toList_append, String.toList_ofList, List.dropPrefix?_eq_some_iff]
    exact ⟨p.toList, rfl, beq_self_eq_true _⟩
  unfold digitsAfter
  rw [found]
  cases cs with
  | nil => exact absurd rfl ne
  | cons c cs =>
      have digits : (c :: cs).all (fun c => (decimal c).isSome) = true :=
        List.all_eq_true.mpr fun d hd => by simp [decimal_of_isDigit (h d hd)]
      simp only [digits, if_true]

theorem digitsBefore_append {p : String} {cs : List Char} (ne : cs ≠ [])
    (h : ∀ c ∈ cs, c.isDigit = true) : digitsBefore p (p ++ String.ofList cs) = some cs := by
  unfold digitsBefore
  split
  · rename_i rest heq
    rw [String.toList_append, String.toList_ofList, List.reverse_append] at heq
    obtain ⟨c, ds, hcs⟩ := List.exists_cons_of_ne_nil (List.reverse_ne_nil_iff.mpr ne)
    rw [hcs, List.cons_append] at heq
    have last : c ∈ cs := List.mem_reverse.mp (by rw [hcs]; exact List.mem_cons_self)
    have digit := h c last
    rw [(List.cons.inj heq).1] at digit
    exact absurd digit (by decide)
  · exact digitsAfter_append ne h

/-- `[int(m) for m in matches]`. -/
def intsOf (matched : List (List Char)) : Except Exc (List Int) :=
  matched.mapM fun cs => pyInt (String.ofList cs)

/-- `max(is, default=d)` for integers that are at least `d`. -/
def highest (d : Int) (is : List Int) : Int := is.foldl max d

theorem le_highest {d : Int} {is : List Int} {i : Int} (h : i ∈ is) : i ≤ highest d is := by
  unfold highest
  induction is generalizing d with
  | nil => cases h
  | cons a as ih =>
      rcases List.mem_cons.mp h with rfl | h
      · have mono : ∀ (l : List Int) (m : Int), m ≤ l.foldl max m := by
          intro l
          induction l with
          | nil => exact fun _ => le_rfl
          | cons b bs ih => exact fun m => (le_max_left m b).trans (ih _)
        exact (le_max_right d i).trans (mono as _)
      · exact ih h

theorem default_le_highest (d : Int) (is : List Int) : d ≤ highest d is := by
  unfold highest
  induction is generalizing d with
  | nil => exact le_rfl
  | cons a as ih => exact (le_max_left d a).trans (ih _)

/-! ### Shot ids -/

/-- The part of a `Shot_ID` that names the day. -/
def shotPrefix (shotDate : Date) : String :=
  String.ofList ("SH-".toList ++ shotDate.compact ++ ['-'])

/-- `make_shot_id`. The bag does not enter into the id. -/
def makeShotId (shotDate : Date) (_bagId : String) (existingIds : List String) :
    Except Exc String := do
  let existingSeqs ← intsOf (existingIds.filterMap (digitsBefore (shotPrefix shotDate)))
  let seq := highest 0 existingSeqs + 1
  return shotPrefix shotDate ++ (← pyFormat 2 seq)

theorem zfill_of_pyFormat {w : Nat} {i : Int} (hi : 0 ≤ i) {s : String}
    (h : pyFormat w i = .ok s) : s = String.ofList (zfill w i.natAbs) := by
  unfold pyFormat formatInt at h
  split at h
  · rename_i t written
    cases h
    split at written
    · cases written
    · split at written
      · omega
      · exact (Option.some.inj written).symm
  · cases h

/-- An id made of a prefix and the number after the highest one seen behind that
prefix is not among the ids that were seen. -/
theorem counted_fresh {w : Nat} (hw : w ≤ intMaxStrDigits) {p s t : String}
    {read : String → String → Option (List Char)} {ids : List String} {is : List Int}
    (reads : ∀ cs, cs ≠ [] → (∀ c ∈ cs, c.isDigit = true) →
      read p (p ++ String.ofList cs) = some cs)
    (seen : intsOf (ids.filterMap (read p)) = .ok is)
    (written : pyFormat w (highest 0 is + 1) = .ok s) (ht : t = p ++ s) : t ∉ ids := by
  intro mem
  have positive := default_le_highest 0 is
  have digits := zfill_of_pyFormat (by omega) written
  have matched : zfill w (highest 0 is + 1).natAbs ∈ ids.filterMap (read p) := by
    refine List.mem_filterMap.mpr ⟨t, mem, ?_⟩
    rw [ht, digits]
    exact reads _ (zfill_ne_nil _ _) fun c => isDigit_of_mem_zfill
  obtain ⟨i, hi, value⟩ := mem_of_mapM_eq_ok seen matched
  rw [← digits, pyInt_of_pyFormat hw written] at value
  have bound := le_highest (d := 0) hi
  rw [← Except.ok.inj value] at bound
  omega

theorem makeShotId_eq_ok {d : Date} {bag id : String} {ids : List String}
    (h : makeShotId d bag ids = .ok id) :
    ∃ is s, intsOf (ids.filterMap (digitsBefore (shotPrefix d))) = .ok is ∧
      pyFormat 2 (highest 0 is + 1) = .ok s ∧ shotPrefix d ++ s = id := by
  obtain ⟨is, seen, h⟩ := bind_eq_ok h
  obtain ⟨s, written, h⟩ := bind_eq_ok h
  exact ⟨is, s, seen, written, Except.ok.inj h⟩

/-- A new `Shot_ID` is none of those it was made from. -/
theorem makeShotId_fresh {d : Date} {bag id : String} {ids : List String}
    (h : makeShotId d bag ids = .ok id) : id ∉ ids := by
  obtain ⟨is, s, seen, written, eq⟩ := makeShotId_eq_ok h
  exact counted_fresh (by decide) (fun _ => digitsBefore_append) seen written eq.symm

/-! ### Maintenance ids -/

/-- `make_maintenance_id`. -/
def makeMaintenanceId (existingIds : List String) : Except Exc String := do
  let numbers ← intsOf (existingIds.filterMap (digitsAfter "MNT"))
  return "MNT" ++ (← pyFormat 3 (highest 0 numbers + 1))

theorem makeMaintenanceId_fresh {id : String} {ids : List String}
    (h : makeMaintenanceId ids = .ok id) : id ∉ ids := by
  obtain ⟨is, seen, h⟩ := bind_eq_ok h
  obtain ⟨s, written, h⟩ := bind_eq_ok h
  exact counted_fresh (by decide) (fun _ => digitsAfter_append) seen written
    (Except.ok.inj h).symm

/-! ### Inventory ids -/

/-- `roaster_code`. -/
def roasterCode (env : Env) (roaster : String) : Except Exc String :=
  match firstWord roaster with
  | [] => .error .valueError
  | word => .ok (env.title (String.ofList (word.take 2)))

/-- `roast_level_code`. -/
def roastLevelCode (level : String) : Except Exc String :=
  match [("Light", "L"), ("Light / Medium", "LM"), ("Medium", "M"), ("Medium / Dark", "MD"),
    ("Dark", "D")].lookup level with
  | some code => .ok code
  | none => .error .valueError

/-- The ids that the search for a free suffix goes through, as far as it can get. -/
def suffixed (base : String) (n : Nat) : List String :=
  (List.range n).map fun i => base ++ "-" ++ toString (i + 2)

/-- The first of the ids with a suffix that is free. -/
def firstFree (base : String) (existingIds : List String) : Option String :=
  (suffixed base (existingIds.length + 1)).find? fun id => decide (id ∉ existingIds)

/-- The id itself, or with the first suffix that makes it free. -/
def withoutCollision (base : String) (existingIds : List String) : Except Exc String :=
  if base ∉ existingIds then .ok base
  else match firstFree base existingIds with
    | some id => .ok id
    | none => .error .valueError

/-- `make_inventory_id`. -/
def makeInventoryId (env : Env) (roaster : String) (roastDate : Date) (roastLevel : String)
    (existingIds : List String) : Except Exc String := do
  let base := (← roasterCode env roaster) ++ String.ofList roastDate.compact ++
    (← roastLevelCode roastLevel)
  withoutCollision base existingIds

theorem suffixed_nodup (base : String) (n : Nat) : (suffixed base n).Nodup := by
  refine List.Nodup.map ?_ List.nodup_range
  intro i j h
  have lists := congrArg String.toList h
  simp only [String.toList_append] at lists
  have numbers := congrArg (fun ds => Nat.ofDigitChars 10 ds 0) (List.append_cancel_left lists)
  simpa [Nat.toString_eq_ofList_toDigits] using numbers

/-- The search for a free suffix ends. -/
theorem firstFree_isSome (base : String) (ids : List String) : (firstFree base ids).isSome := by
  rw [firstFree, List.find?_isSome]
  by_contra none
  push Not at none
  have sub : suffixed base (ids.length + 1) ⊆ ids := fun id h => by
    have := none id h
    simpa using this
  have long := ((suffixed_nodup base _).subperm sub).length_le
  simp [suffixed] at long

theorem firstFree_fresh {base id : String} {ids : List String}
    (h : firstFree base ids = some id) : id ∉ ids := by
  have := List.find?_some h
  simpa using this

/-- A free id is always found. -/
theorem withoutCollision_eq_ok (base : String) (ids : List String) :
    ∃ id, withoutCollision base ids = .ok id ∧ id ∉ ids := by
  by_cases taken : base ∈ ids
  · obtain ⟨id, found⟩ := Option.isSome_iff_exists.mp (firstFree_isSome base ids)
    exact ⟨id, by simp [withoutCollision, taken, found], firstFree_fresh found⟩
  · exact ⟨base, by simp [withoutCollision, taken], taken⟩

theorem makeInventoryId_fresh {env : Env} {roaster level id : String} {d : Date}
    {ids : List String} (h : makeInventoryId env roaster d level ids = .ok id) : id ∉ ids := by
  obtain ⟨code, _, h⟩ := bind_eq_ok h
  obtain ⟨roast, _, h⟩ := bind_eq_ok h
  obtain ⟨free, found, fresh⟩ := withoutCollision_eq_ok (code ++ String.ofList d.compact ++ roast) ids
  rw [found] at h
  exact Except.ok.inj h ▸ fresh

end EspressoLogs
