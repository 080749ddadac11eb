import EspressoLogs.Lib.Ordered
import EspressoLogs.Py.Value

/-!
What the import wizard works on: the sections of a legacy export, the columns
and the enum values that it knows.
-/

namespace EspressoLogs.Importer

open Lib Py

/-! ### Sections -/

/-- A cell of a row, as `csv.DictReader` gives it. -/
inductive Cell where
  /-- `None`, where the row is short. -/
  | missing
  | text (s : String)
  /-- The cells of a long row that are under no column. -/
  | rest (cells : List String)
  deriving DecidableEq, Repr

/-- `bool(v)`. -/
def Cell.truthy : Cell → Bool
  | missing => false
  | text s => s ≠ ""
  | rest cells => cells ≠ []

/-- A row by its columns; the rest of a long row is under `None`. -/
abbrev Row := Ordered (Option String) Cell

abbrev Sections := Ordered String (List Row)

/-- What a legacy column is called in the canonical schema, if it is there. -/
abbrev ColumnMapping := Ordered (Option String) (Option String)

/-- The canonical values of legacy ones. -/
abbrev EnumMap := Ordered String String

/-- What the functions of the importer raise. -/
inductive Exc where
  | importParseError (message : String)
  | attributeError
  | keyError
  | typeError
  | valueError
  /-- Of the `ValueError`s, that of a text which is not JSON. -/
  | jsonDecodeError
  | recursionError
  /-- Of the `csv` module. -/
  | csvError
  deriving DecidableEq, Repr

/-! ### Enums -/

/-- `KNOWN_ENUM_MAPS`. -/
def knownEnumMaps : Ordered String EnumMap := .ofList [
  ("Shot_Eligibility", .ofList [
    ("OK with Milk", "Passable"),
    ("Passable Espresso", "Passable"),
    ("Good", "Good Espresso"),
    ("Reject", "Reject"),
    ("Good Espresso", "Good Espresso"),
    ("God Shot", "God Shot")]),
  ("Taste_Summary", .ofList [
    ("Weak and Sour", "Weak & Sour"),
    ("Balanced and Neutral", "Sweet & Balanced"),
    ("Too acidic", "Acidic & Bright"),
    ("Too bitter", "Harsh & Bitter")]),
  ("Roast_Level", .ofList [
    ("Medium-Dark", "Medium / Dark"),
    ("Light/Medium", "Light / Medium")])]

/-- `CANONICAL_ENUM_VALUES`. -/
def canonicalEnumValues : Ordered String (List String) := .ofList [
  ("Shot_Eligibility", ["Reject", "Passable", "Good Espresso", "God Shot"]),
  ("Taste_Summary", ["Weak & Sour", "Acidic & Bright", "Sweet & Balanced", "Complex & Syrupy",
    "Harsh & Bitter", "Strong & Muddy", "Salty / Channeled"]),
  ("Roast_Level", ["Light", "Light / Medium", "Medium", "Medium / Dark", "Dark"])]

/-- The known map of an enum, `{}` of anything else. -/
def knownMap (enum : String) : EnumMap := (knownEnumMaps.get enum).getD .empty

/-- The canonical values of an enum, none of anything else. -/
def canonicalValues (enum : String) : List String := (canonicalEnumValues.get enum).getD []

/-- What the known maps make of a value is canonical. -/
theorem known_canonical {enum value canonical : String}
    (known : (knownMap enum).get value = some canonical) : canonical ∈ canonicalValues enum := by
  have all : ∀ x ∈ knownEnumMaps.entries, ∀ y ∈ x.2.entries, y.2 ∈ canonicalValues x.1 := by
    decide +kernel
  unfold knownMap at known
  cases found : knownEnumMaps.get enum with
  | none =>
      rw [found] at known
      cases known
  | some map =>
      rw [found] at known
      exact all _ (Ordered.get_eq_some_iff.mp found) _ (Ordered.get_eq_some_iff.mp known)

end EspressoLogs.Importer
