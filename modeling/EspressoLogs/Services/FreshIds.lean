import EspressoLogs.Lib.Fresh
import EspressoLogs.Api

/-!
The ids that the generators return one after the other.

All but that of the bags count on from the largest number that they can read
behind their prefix. What they write they read back, whatever the width, so the
next id has a larger number than every id there is. That of the bags looks for a
suffix that is free; it alone depends on arguments that can be wrong.
-/

namespace EspressoLogs

open Lib Py

/-! ### The limit -/

/-- The least number that has too many digits. -/
def digitLimit : Int := 10 ^ intMaxStrDigits

theorem natAbs_lt_iff {i : Int} :
    i.natAbs < 10 ^ intMaxStrDigits ↔ -digitLimit < i ∧ i < digitLimit := by
  have cast : ((10 ^ intMaxStrDigits : Nat) : Int) = digitLimit := by
    rw [Nat.cast_pow]
    rfl
  rw [← cast]
  generalize 10 ^ intMaxStrDigits = limit
  omega

theorem digitLimit_pos : 0 < digitLimit := pow_pos (by decide) _

theorem pyFormat_total (w : Nat) {i : Int} (above : -digitLimit < i) (below : i < digitLimit) :
    ∃ s, pyFormat w i = .ok s := by
  obtain ⟨s, written⟩ := formatInt_total (w := w) (natAbs_lt_iff.mpr ⟨above, below⟩)
  exact ⟨s, by rw [pyFormat, written]⟩

/-- A number is short when so many ids after it still have a number within the limit. -/
def Leaves (n : Nat) (i : Int) : Prop := i + n < digitLimit

/-! ### Matching a pattern -/

/-- What a pattern captures: digits, and those behind the prefix in what is made of it. -/
structure Captures (p : String) (capture : String → Option (List Char)) : Prop where
  own : ∀ cs, cs ≠ [] → (∀ c ∈ cs, c.isDigit = true) → capture (p ++ String.ofList cs) = some cs
  digits : ∀ s cs, capture s = some cs → cs ≠ [] ∧ ∀ c ∈ cs, (decimal c).isSome = true

theorem captures_digitsAfter (p : String) : Captures p (digitsAfter p) where
  own _ := digitsAfter_append
  digits s cs h := by
    unfold digitsAfter at h
    split at h
    · split at h
      · rename_i all
        cases h
        exact ⟨List.cons_ne_nil _ _, List.all_eq_true.mp all⟩
      · cases h
    · cases h

theorem captures_digitsBefore (p : String) : Captures p (digitsBefore p) where
  own _ := digitsBefore_append
  digits s cs h := by
    unfold digitsBefore at h
    split at h
    · exact (captures_digitsAfter p).digits _ cs h
    · exact (captures_digitsAfter p).digits _ cs h

/-- The next id by the numbers that a pattern captures. -/
def counted (w : Nat) (p : String) (capture : String → Option (List Char)) (ids : List String) :
    Except Exc String := do
  let numbers ← intsOf (ids.filterMap capture)
  return p ++ (← pyFormat w (highest 0 numbers + 1))

/-- The captured numbers are within the limit, and so are a number of ids after them. -/
def CapturedBelow (capture : String → Option (List Char)) (n : Nat) (ids : List String) : Prop :=
  Leaves n 0 ∧ ∀ cs ∈ ids.filterMap capture, cs.length ≤ intMaxStrDigits ∧
    ∀ i, intOf (String.ofList cs) = some i → Leaves n i

section Counted

variable {w : Nat} {p : String} {capture : String → Option (List Char)}

theorem highest_eq_or (d : Int) (is : List Int) : highest d is = d ∨ highest d is ∈ is := by
  unfold highest
  induction is generalizing d with
  | nil => exact .inl rfl
  | cons i is ih =>
      rw [List.foldl_cons]
      rcases ih (max d i) with same | later
      · rcases max_choice d i with first | next
        · exact .inl (same.trans first)
        · exact .inr (List.mem_cons.mpr (.inl (same.trans next)))
      · exact .inr (List.mem_cons_of_mem i later)

theorem length_zfill_le {n : Nat} (hw : w ≤ intMaxStrDigits) (h : n < 10 ^ intMaxStrDigits) :
    (zfill w n).length ≤ intMaxStrDigits := by
  have digits := (Nat.length_toDigits_le_iff (by decide) (by decide)).mpr h
  simp only [zfill, List.length_append, List.length_replicate]
  omega

/-- One call uses up one number. -/
theorem counted_step (hw : w ≤ intMaxStrDigits) (captures : Captures p capture) (n : Nat)
    (ids : List String) (below : CapturedBelow capture (n + 1) ids) :
    ∃ id, counted w p capture ids = .ok id ∧ CapturedBelow capture n (ids ++ [id]) := by
  obtain ⟨start, each⟩ := below
  -- what an id captures are digits, so every number is read
  have readable : ∀ cs ∈ ids.filterMap capture, ∃ i, pyInt (String.ofList cs) = .ok i := by
    intro cs mem
    obtain ⟨id, -, captured⟩ := List.mem_filterMap.mp mem
    obtain ⟨ne, digits⟩ := captures.digits id cs captured
    obtain ⟨i, read⟩ := intOf_of_decimal ne digits (each cs mem).1
    exact ⟨i, by rw [pyInt, read]⟩
  obtain ⟨is, seen⟩ := mapM_total.mpr readable
  have top : Leaves (n + 1) (highest 0 is) := by
    rcases highest_eq_or 0 is with zero | mem
    · rw [zero]
      exact start
    · obtain ⟨cs, captured, read⟩ := from_of_mapM_eq_ok seen mem
      refine (each cs captured).2 _ ?_
      unfold pyInt at read
      split at read
      · rename_i found
        rw [found, Except.ok.inj read]
      · cases read
  have nonneg := default_le_highest 0 is
  have limit := digitLimit_pos
  unfold Leaves at start top
  obtain ⟨s, written⟩ := pyFormat_total w (i := highest 0 is + 1) (by omega) (by omega)
  have digits := zfill_of_pyFormat (by omega) written
  refine ⟨p ++ s, ?_, ?_, ?_⟩
  · rw [counted, intsOf, seen, ok_bind, written]
    rfl
  · unfold Leaves
    omega
  · intro cs mem
    rw [List.filterMap_append, List.mem_append] at mem
    -- the id that was just drawn has to leave room as well
    rcases mem with old | new
    · refine ⟨(each cs old).1, fun i read => ?_⟩
      have before := (each cs old).2 i read
      unfold Leaves at before ⊢
      omega
    · have own := captures.own (zfill w (highest 0 is + 1).natAbs) (zfill_ne_nil _ _)
        fun c => isDigit_of_mem_zfill
      rw [← digits] at own
      rw [List.filterMap_cons, own, List.filterMap_nil, List.mem_singleton] at new
      rw [new]
      refine ⟨length_zfill_le hw (natAbs_lt_iff.mpr (by omega)), fun i read => ?_⟩
      have value := pyInt_of_pyFormat hw written
      rw [pyInt, digits, read] at value
      rw [Except.ok.inj value]
      unfold Leaves
      omega

end Counted

/-! ### Cutting off the prefix -/

/-- The next id by the numbers that can be read after a prefix. -/
def following (w : Nat) (p : String) (start : Int) (ids : List String) : Except Exc String :=
  (pyFormat w ((HardwareRepo.numbersAfter p ids).max?.getD start + 1)).map (p ++ ·)

/-- The numbers after the prefix, or else the first one, leave room for a number of ids. -/
def NumbersBelow (p : String) (start : Int) (n : Nat) (ids : List String) : Prop :=
  Leaves n start ∧ ∀ i ∈ HardwareRepo.numbersAfter p ids, Leaves n i

section Following

variable {w : Nat} {p : String} {start : Int}

theorem mem_numbersAfter {ids : List String} {i : Int} :
    i ∈ HardwareRepo.numbersAfter p ids ↔
      ∃ id ∈ ids, ∃ rest, afterPrefix p id = some rest ∧ intOf (String.ofList rest) = some i := by
  simp only [HardwareRepo.numbersAfter, List.mem_filterMap, Option.bind_eq_some_iff]

theorem afterPrefix_append (p s : String) : afterPrefix p (p ++ s) = some s.toList := by
  rw [afterPrefix, String.toList_append, List.dropPrefix?_eq_some_iff]
  exact ⟨p.toList, rfl, beq_self_eq_true _⟩

theorem following_eq_ok {ids : List String} {id : String}
    (h : following w p start ids = .ok id) :
    ∃ s, pyFormat w ((HardwareRepo.numbersAfter p ids).max?.getD start + 1) = .ok s ∧
      id = p ++ s := by
  unfold following at h
  cases written : pyFormat w ((HardwareRepo.numbersAfter p ids).max?.getD start + 1) with
  | error e =>
      rw [written] at h
      cases h
  | ok s =>
      rw [written] at h
      exact ⟨s, rfl, (Except.ok.inj h).symm⟩

/-- The number in an id that was written. -/
theorem number_of_written (hw : w ≤ intMaxStrDigits) {i : Int} {s : String}
    (written : pyFormat w i = .ok s) : intOf s = some i := by
  have value := pyInt_of_pyFormat hw written
  unfold pyInt at value
  split at value
  · rename_i found
    rw [found, Except.ok.inj value]
  · cases value

theorem max?_getD_cons (i : Int) (is : List Int) (start : Int) :
    (i :: is).max?.getD start = highest i is := rfl

theorem le_max?_getD {is : List Int} {i : Int} (mem : i ∈ is) (start : Int) :
    i ≤ is.max?.getD start := by
  cases is with
  | nil => exact absurd mem List.not_mem_nil
  | cons j is =>
      rw [max?_getD_cons]
      rcases List.mem_cons.mp mem with rfl | later
      · exact default_le_highest i is
      · exact le_highest later

theorem max?_getD_or (is : List Int) (start : Int) :
    is.max?.getD start = start ∨ is.max?.getD start ∈ is := by
  cases is with
  | nil => exact .inl rfl
  | cons i is =>
      rw [max?_getD_cons]
      exact .inr (List.mem_cons.mpr (highest_eq_or i is))

theorem fresh_following (hw : w ≤ intMaxStrDigits) : Fresh (following w p start) := by
  intro ids id h mem
  obtain ⟨s, written, rfl⟩ := following_eq_ok h
  have number := number_of_written hw written
  have read := mem_numbersAfter.mpr ⟨_, mem, _, afterPrefix_append p s,
    (congrArg intOf String.ofList_toList).trans number⟩
  have bound := le_max?_getD read start
  omega

/-- One call uses up one number. -/
theorem following_step (hw : w ≤ intMaxStrDigits) (first : 0 ≤ start) (n : Nat)
    (ids : List String) (below : NumbersBelow p start (n + 1) ids) :
    ∃ id, following w p start ids = .ok id ∧ NumbersBelow p start n (ids ++ [id]) := by
  obtain ⟨starts, each⟩ := below
  have limit := digitLimit_pos
  have top : Leaves (n + 1) ((HardwareRepo.numbersAfter p ids).max?.getD start) ∧
      -digitLimit < (HardwareRepo.numbersAfter p ids).max?.getD start := by
    rcases max?_getD_or (HardwareRepo.numbersAfter p ids) start with none | mem
    · rw [none]
      exact ⟨starts, by omega⟩
    · obtain ⟨id, -, rest, -, read⟩ := mem_numbersAfter.mp mem
      exact ⟨each _ mem, (natAbs_lt_iff.mp (natAbs_intOf_lt read)).1⟩
  obtain ⟨room, above⟩ := top
  unfold Leaves at starts room
  obtain ⟨s, written⟩ := pyFormat_total w
    (i := (HardwareRepo.numbersAfter p ids).max?.getD start + 1) (by omega) (by omega)
  refine ⟨p ++ s, by rw [following, written]; rfl, ?_, ?_⟩
  · unfold Leaves
    omega
  · intro i mem
    obtain ⟨id, there, rest, cut, read⟩ := mem_numbersAfter.mp mem
    unfold Leaves
    rcases List.mem_append.mp there with old | new
    · have before := each i (mem_numbersAfter.mpr ⟨id, old, rest, cut, read⟩)
      unfold Leaves at before
      omega
    · rw [List.mem_singleton.mp new, afterPrefix_append] at cut
      cases cut
      have number := number_of_written hw written
      rw [String.ofList_toList, number] at read
      have same := Option.some.inj read
      omega

end Following

/-! ### The generators -/

/-- A generator, with the arguments that its callers give it besides the ids. -/
inductive Generator where
  /-- `make_shot_id`. -/
  | shot (shotDate : Date) (bagId : String)
  /-- `make_inventory_id`. -/
  | inventory (roaster : String) (roastDate : Date) (roastLevel : String)
  /-- `make_maintenance_id`. -/
  | maintenance
  /-- `_next_catalog_id`. -/
  | catalog
  /-- `HardwareRepo.next_id`. -/
  | hardware (category : String)

namespace Generator

/-- One call with the ids that there are. -/
def next (env : Env) : Generator → List String → Except Exc String
  | shot shotDate bagId, ids => makeShotId shotDate bagId ids
  | inventory roaster roastDate roastLevel, ids =>
      makeInventoryId env roaster roastDate roastLevel ids
  | maintenance, ids => makeMaintenanceId ids
  | catalog, ids => nextCatalogId (ids.map fun id => [("Catalog_ID", .str id)])
  | hardware category, ids => HardwareRepo.nextId ids category

/-- The arguments that are not refused. -/
def Accepts : Generator → Prop
  | inventory roaster _ roastLevel => strip roaster ≠ "" ∧ roastLevel ∈ roastLevels
  | hardware category => category ∈ ["Machine", "Grinder", "Basket", "Storage"]
  | _ => True

/-- The numeric parts that a generator reads are within the limit, and so are those of a
number of ids after them. -/
def Below (n : Nat) (ids : List String) : Generator → Prop
  | shot shotDate _ => CapturedBelow (digitsBefore (shotPrefix shotDate)) n ids
  | inventory .. => True
  | maintenance => CapturedBelow (digitsAfter "MNT") n ids
  | catalog => NumbersBelow "CAT" 99 n ids
  | hardware category => ∀ p ∈ HardwareRepo.idPrefix category, NumbersBelow p 0 n ids

theorem catalog_next (ids : List String) :
    nextCatalogId (ids.map fun id => [("Catalog_ID", .str id)]) = following 3 "CAT" 99 ids := by
  have texts : (ids.map fun id => ([("Catalog_ID", Val.str id)] : Dict)).map
      (Dict.text · "Catalog_ID") = ids := by
    rw [List.map_map]
    exact List.map_id ids
  unfold nextCatalogId following
  rw [texts]

theorem hardware_next {category p : String} (known : HardwareRepo.idPrefix category = some p)
    (ids : List String) : HardwareRepo.nextId ids category = following 2 p 0 ids := by
  have first : pyFormat 2 (0 + 1) = .ok "01" := by decide +kernel
  unfold HardwareRepo.nextId following
  simp only [known]
  cases (HardwareRepo.numbersAfter p ids).max? with
  | none =>
      rw [Option.getD_none, first]
      rfl
  | some n => rfl

theorem hardware_known {category id : String} {ids : List String}
    (h : HardwareRepo.nextId ids category = .ok id) :
    ∃ p, HardwareRepo.idPrefix category = some p := by
  unfold HardwareRepo.nextId at h
  split at h
  · cases h
  · exact ⟨_, ‹_›⟩

theorem fresh (env : Env) (g : Generator) : Fresh (g.next env) := by
  intro ids id h
  cases g with
  | shot d bag => exact @makeShotId_fresh d bag id ids h
  | inventory roaster d level => exact makeInventoryId_fresh h
  | maintenance => exact makeMaintenanceId_fresh h
  | catalog => exact fresh_following (by decide) ids id ((catalog_next ids).symm.trans h)
  | hardware category =>
      obtain ⟨p, known⟩ := hardware_known h
      exact fresh_following (by decide) ids id ((hardware_next known ids).symm.trans h)

theorem strip_of_firstWord {s : String} (h : firstWord s = []) : strip s = "" := by
  have blank : s.toList.dropWhile isSpace = [] := by
    unfold firstWord at h
    cases rest : s.toList.dropWhile isSpace with
    | nil => rfl
    | cons c cs =>
        have starts := List.head?_dropWhile_not isSpace s.toList
        rw [rest] at starts h
        have inWord : isSpace c = false := starts
        rw [List.takeWhile_cons_of_pos (by rw [inWord]; rfl)] at h
        cases h
  rw [strip, stripWhere, blank]
  rfl

theorem roasterCode_total (env : Env) {roaster : String} (named : strip roaster ≠ "") :
    ∃ code, roasterCode env roaster = .ok code := by
  unfold roasterCode
  split
  · rename_i blank
    exact absurd (strip_of_firstWord blank) named
  · exact ⟨_, rfl⟩

theorem roastLevelCode_total {level : String} (known : level ∈ roastLevels) :
    ∃ code, roastLevelCode level = .ok code := by
  simp only [roastLevels, List.mem_cons, List.not_mem_nil, or_false] at known
  rcases known with rfl | rfl | rfl | rfl | rfl
  all_goals exact ⟨_, rfl⟩

theorem inventory_total (env : Env) {roaster roastLevel : String} (roastDate : Date)
    (named : strip roaster ≠ "") (known : roastLevel ∈ roastLevels) (ids : List String) :
    ∃ id, makeInventoryId env roaster roastDate roastLevel ids = .ok id := by
  obtain ⟨code, coded⟩ := roasterCode_total env named
  obtain ⟨level, levelled⟩ := roastLevelCode_total known
  obtain ⟨id, made, -⟩ :=
    withoutCollision_eq_ok (code ++ String.ofList roastDate.compact ++ level) ids
  refine ⟨id, ?_⟩
  rw [makeInventoryId, coded, ok_bind, levelled, ok_bind]
  exact made

theorem idPrefix_total {category : String}
    (known : category ∈ ["Machine", "Grinder", "Basket", "Storage"]) :
    ∃ p, HardwareRepo.idPrefix category = some p := by
  simp only [List.mem_cons, List.not_mem_nil, or_false] at known
  rcases known with rfl | rfl | rfl | rfl
  all_goals exact ⟨_, rfl⟩

/-- Each call takes no more than one number. -/
theorem step (env : Env) {g : Generator} (accepts : g.Accepts) (n : Nat) (ids : List String)
    (below : g.Below (n + 1) ids) :
    ∃ id, g.next env ids = .ok id ∧ g.Below n (ids ++ [id]) := by
  cases g with
  | shot d bag => exact counted_step (by decide) (captures_digitsBefore _) n ids below
  | inventory roaster d level =>
      obtain ⟨id, made⟩ := inventory_total env d accepts.1 accepts.2 ids
      exact ⟨id, made, trivial⟩
  | maintenance => exact counted_step (by decide) (captures_digitsAfter _) n ids below
  | catalog =>
      obtain ⟨id, made, room⟩ := following_step (w := 3) (by decide) (by decide) n ids below
      exact ⟨id, (catalog_next ids).trans made, room⟩
  | hardware category =>
      obtain ⟨p, known⟩ := idPrefix_total accepts
      obtain ⟨id, made, room⟩ :=
        following_step (w := 2) (by decide) (by decide) n ids (below p known)
      refine ⟨id, (hardware_next known ids).trans made, fun q same => ?_⟩
      cases known.symm.trans same
      exact room

/-- Generated ids are fresh, however many are made: different from each other and from
all ids given, whatever these look like. The generator gets that far if it accepts its
names and no number in the ids is so long that `int` or the width of an id gives up. -/
theorem ids_fresh (env : Env) (g : Generator) (ids : List String) (n : Nat) :
    (∀ new, calls (g.next env) n ids = .ok new →
        new.length = n ∧ new.Nodup ∧ ∀ id ∈ new, id ∉ ids) ∧
      (g.Accepts → g.Below n ids → ∃ new, calls (g.next env) n ids = .ok new) :=
  ⟨fun _ made => ⟨length_calls made, (fresh env g).of_calls made⟩,
    fun accepts below => calls_total (fun n ids => g.Below n ids) (step env accepts) below⟩

end Generator

namespace Sample

/-- An entry that was imported without a roaster. -/
def nameless : CatalogBean :=
  { id := id 5, householdId := some household.id, roaster := "", beanName := "House", origin := none,
    process := none, roastLevel := some "Light", notes := none, sheetsId := some "CAT100",
    productUrl := none, localImagePath := none }

def withNameless : World Table :=
  { serving with db := fun t => match t with | .catalog => [nameless] | t => db t }

def newBag : BagCreateBody :=
  { beans := "", roastDate := "2026-01-02", roastLevel := "Light", storageMethod := none }

/-- The bag of such an entry gets no id. -/
theorem nameless_refused :
    (∀ ids, (Generator.inventory nameless.roaster day "Light").next env ids =
        .error .valueError) ∧
      ((apiCatalogAddBag env "CAT100" newBag).run withNameless).1 = .error .valueError :=
  ⟨fun _ => rfl, by decide +kernel⟩

/-- Ids of entries, among them malformed and signed ones. -/
def catalogIds : List String := ["CAT 998", "CAT-5", "CATx", "CAT", "CAT998", "cat7"]

theorem catalogIds_below : Generator.catalog.Below 3 catalogIds := by
  have leaves : ∀ i : Int, i + (3 : Nat) < 10 ^ 4 → Leaves 3 i := fun i small =>
    small.trans_le (pow_le_pow_right₀ (by decide) (by decide))
  have numbers : HardwareRepo.numbersAfter "CAT" catalogIds = [998, -5, 998] := by decide +kernel
  refine ⟨leaves 99 (by decide), fun i mem => leaves i ?_⟩
  rw [numbers] at mem
  simp only [List.mem_cons, List.not_mem_nil, or_false] at mem
  rcases mem with rfl | rfl | rfl
  all_goals decide

/-- Three more of them, across the width of the padding. -/
theorem catalogIds_next :
    calls (Generator.catalog.next env) 3 catalogIds = .ok ["CAT999", "CAT1000", "CAT1001"] ∧
      ((∀ new, calls (Generator.catalog.next env) 3 catalogIds = .ok new →
          new.length = 3 ∧ new.Nodup ∧ ∀ id ∈ new, id ∉ catalogIds) ∧
        ∃ new, calls (Generator.catalog.next env) 3 catalogIds = .ok new) :=
  ⟨by decide +kernel, (Generator.ids_fresh env .catalog catalogIds 3).1,
    (Generator.ids_fresh env .catalog catalogIds 3).2 trivial catalogIds_below⟩

end Sample

end EspressoLogs
