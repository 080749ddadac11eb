import EspressoLogs.Importer.Schema
import EspressoLogs.Lib.Csv
import EspressoLogs.Lib.Fallible
import Mathlib.Data.List.TakeWhile

/-!
The sections of a legacy export: `parse_legacy_csv`.

A text is cut where a line begins with `##` and a word, wherever that line is.
-/

namespace EspressoLogs.Importer

open Lib Py

/-- What `\w` matches: letters, digits and `_` of all scripts. -/
structure Words where
  isWord : Char → Bool
  lineFeed : isWord '\n' = false
  carriageReturn : isWord '\r' = false
  quote : isWord '"' = false
  hash : isWord '#' = false

/-- `content.replace("\r\n", "\n").replace("\r", "\n")`. -/
def normalizeNewlines : List Char → List Char
  | [] => []
  | '\r' :: '\n' :: cs => '\n' :: normalizeNewlines cs
  | c :: cs => (if c = '\r' then '\n' else c) :: normalizeNewlines cs

/-- `str.strip`, on characters. -/
def stripped (cs : List Char) : List Char := dropEnd isSpace (cs.dropWhile isSpace)

/-! ### Markers -/

/-- A match of `_SECTION_RE`, with the text from its start to the next one. -/
structure Piece where
  name : List Char
  text : List Char
  deriving DecidableEq, Repr

/-- `content[start:end].strip()`, one character after the name left out. -/
def Piece.block (piece : Piece) : List Char :=
  stripped (piece.text.drop (2 + piece.name.length + 1))

namespace Words

variable (words : Words)

/-- The word of `##(\w+)`, if that matches here. -/
def marker : List Char → Option (List Char)
  | '#' :: '#' :: cs =>
      if cs.takeWhile words.isWord = [] then none else some (cs.takeWhile words.isWord)
  | _ => none

/-- The word of a match that begins here. -/
def begins (lineStart : Bool) (cs : List Char) : Option (List Char) :=
  if lineStart then words.marker cs else none

/-- The text before the first match, and all matches. None begins inside another,
since the line feed that would go before it is not part of a word. -/
def pieces : Bool → List Char → List Char × List Piece
  | _, [] => ([], [])
  | lineStart, c :: cs =>
      match words.begins lineStart (c :: cs) with
      | some name => ([], ⟨name, c :: (pieces (c == '\n') cs).1⟩ :: (pieces (c == '\n') cs).2)
      | none => (c :: (pieces (c == '\n') cs).1, (pieces (c == '\n') cs).2)

end Words

/-! ### Rows -/

/-- `csv.field_size_limit()`. -/
def fieldSizeLimit : Nat := 131072

/-- The assignments that make the dictionary of a row, in their order. -/
def rowItems (fieldnames row : List String) : List (Option String × Cell) :=
  (fieldnames.map some).zip (row.map .text) ++
    if fieldnames.length < row.length then [(none, .rest (row.drop fieldnames.length))]
    else (fieldnames.drop row.length).map fun key => (some key, .missing)

/-- `csv.DictReader`; its field names are the first record, empty records it
leaves out. -/
def dictReader (block : List Char) : Except Exc (List Row) :=
  match Csv.read fieldSizeLimit block with
  | none => throw .csvError
  | some [] => return []
  | some (fieldnames :: rows) =>
      return (rows.filter (· ≠ [])).map fun row => Ordered.ofList (rowItems fieldnames row)

def Piece.rows (piece : Piece) : Except Exc (List Row) :=
  if piece.block = [] then return [] else dictReader piece.block

/-- `parse_legacy_csv`; of two matches of one name the second counts. -/
def parseLegacyCsv (words : Words) (content : String) : Except Exc Sections := do
  let markers := (words.pieces true (normalizeNewlines content.toList)).2
  if markers = [] then throw (.importParseError "No sections found in CSV")
  let parsed ← markers.mapM fun piece => do
    return (String.ofList piece.name, ← piece.rows)
  let sections := Ordered.ofList parsed
  if "Brew_Log" ∉ sections.keys then
    throw (.importParseError "Required section Brew_Log is missing")
  return sections

/-! ### Where a text is cut -/

section Cuts

variable {words : Words} {xs ys : List Char} {d : Char} {lineStart : Bool}

namespace Words

theorem marker_isSome_iff : (words.marker xs).isSome = true ↔
    ∃ w after, xs = '#' :: '#' :: w :: after ∧ words.isWord w = true := by
  constructor
  · intro found
    unfold marker at found
    split at found
    · rename_i cs
      cases cs with
      | nil => simp at found
      | cons w after =>
          refine ⟨w, after, rfl, ?_⟩
          by_contra other
          simp [other] at found
    · cases found
  · rintro ⟨w, after, rfl, word⟩
    simp [marker, word]

/-- What neither begins a marker nor goes on with one ends it. -/
theorem marker_append (other : d ≠ '#') (stop : words.isWord d = false) :
    words.marker (xs ++ d :: ys) = words.marker xs := by
  have word : ∀ cs : List Char, (cs ++ d :: ys).takeWhile words.isWord =
      cs.takeWhile words.isWord := by
    intro cs
    induction cs with
    | nil => simp [stop]
    | cons c cs ih => simp only [List.cons_append, List.takeWhile_cons, ih]
  match xs with
  | [] => simp [marker, other]
  | [c] =>
      by_cases hash : c = '#'
      · subst hash
        simp [marker, other]
      · simp [marker, hash]
  | c :: c' :: cs =>
      by_cases both : c = '#' ∧ c' = '#'
      · obtain ⟨rfl, rfl⟩ := both
        simp only [marker, List.cons_append, word]
      · have none_ : ∀ zs, words.marker (c :: c' :: zs) = none := by
          intro zs
          unfold marker
          split
          · rename_i eq
            cases eq
            exact absurd ⟨rfl, rfl⟩ both
          · rfl
        rw [List.cons_append, List.cons_append, none_, none_]

theorem begins_append (other : d ≠ '#') (stop : words.isWord d = false) :
    words.begins lineStart (xs ++ d :: ys) = words.begins lineStart xs := by
  unfold begins
  rw [marker_append other stop]

theorem pieces_some {c : Char} {name : List Char}
    (found : words.begins lineStart (c :: xs) = some name) :
    words.pieces lineStart (c :: xs) =
      ([], ⟨name, c :: (words.pieces (c == '\n') xs).1⟩ :: (words.pieces (c == '\n') xs).2) := by
  simp only [pieces, found]

theorem pieces_none {c : Char} (absent : words.begins lineStart (c :: xs) = none) :
    words.pieces lineStart (c :: xs) =
      (c :: (words.pieces (c == '\n') xs).1, (words.pieces (c == '\n') xs).2) := by
  simp only [pieces, absent]

/-- No marker in a text: then all of it stands before the first one. -/
theorem pieces_fst (uncut : (words.pieces lineStart xs).2 = []) :
    (words.pieces lineStart xs).1 = xs := by
  induction xs generalizing lineStart with
  | nil => rfl
  | cons c cs ih =>
      cases found : words.begins lineStart (c :: cs) with
      | some name =>
          rw [pieces_some found] at uncut
          cases uncut
      | none =>
          rw [pieces_none found] at uncut ⊢
          rw [ih uncut]

theorem begins_of_no_marker (absent : words.marker xs = none) :
    words.begins lineStart xs = none := by
  unfold begins
  split
  · exact absent
  · rfl

theorem uncut_append_iff (other : d ≠ '#') (stop : words.isWord d = false) :
    (words.pieces lineStart (xs ++ d :: ys)).2 = [] ↔
      (words.pieces lineStart xs).2 = [] ∧ (words.pieces (d == '\n') ys).2 = [] := by
  induction xs generalizing lineStart with
  | nil =>
      have absent : words.marker ([] ++ d :: ys) = none := marker_append other stop
      rw [List.nil_append, pieces_none (begins_of_no_marker absent)]
      simp [pieces]
  | cons c cs ih =>
      have same := @begins_append words (c :: cs) ys d lineStart other stop
      rw [List.cons_append] at same ⊢
      cases found : words.begins lineStart (c :: cs) with
      | some name =>
          rw [pieces_some (same.trans found), pieces_some found]
          simp
      | none =>
          rw [pieces_none (same.trans found), pieces_none found]
          exact ih

/-- Two texts, the second of which begins with a marker. -/
theorem pieces_append (first : (words.pieces true ys).1 = []) :
    words.pieces lineStart (xs ++ '\n' :: ys) =
      ((words.pieces lineStart (xs ++ ['\n'])).1,
        (words.pieces lineStart (xs ++ ['\n'])).2 ++ (words.pieces true ys).2) := by
  induction xs generalizing lineStart with
  | nil =>
      have absent : ∀ zs, words.begins lineStart ('\n' :: zs) = none :=
        fun zs => begins_of_no_marker rfl
      rw [List.nil_append, List.nil_append, pieces_none (absent _), pieces_none (absent _)]
      simp [first, pieces]
  | cons c cs ih =>
      have same : ∀ zs, words.begins lineStart (c :: (cs ++ '\n' :: zs)) =
          words.begins lineStart (c :: cs) :=
        fun zs => @begins_append words (c :: cs) zs '\n' lineStart (by decide) words.lineFeed
      rw [List.cons_append, List.cons_append]
      cases found : words.begins lineStart (c :: cs) with
      | some name =>
          rw [pieces_some ((same _).trans found), pieces_some ((same _).trans found), ih]
          rfl
      | none =>
          rw [pieces_none ((same _).trans found), pieces_none ((same _).trans found), ih]

theorem escaped_eq_cons (other : d ≠ '"') (eq : Csv.escaped xs = d :: ys) :
    ∃ rest, xs = d :: rest ∧ Csv.escaped rest = ys := by
  cases xs with
  | nil => cases eq
  | cons c cs =>
      rw [Csv.escaped_cons] at eq
      by_cases isQuote : c = '"'
      · rw [if_pos isQuote] at eq
        cases eq
        exact absurd rfl other
      · rw [if_neg isQuote] at eq
        cases eq
        exact ⟨cs, rfl, rfl⟩

theorem marker_escaped {c : Char} (other : c ≠ '"') :
    (words.marker (c :: Csv.escaped xs)).isSome = (words.marker (c :: xs)).isSome := by
  rw [Bool.eq_iff_iff, marker_isSome_iff, marker_isSome_iff]
  constructor
  · rintro ⟨w, after, eq, word⟩
    obtain ⟨rfl, tail⟩ := List.cons.inj eq
    obtain ⟨rest, rfl, tail'⟩ := escaped_eq_cons (by decide) tail
    have notQuote : w ≠ '"' := by
      rintro rfl
      rw [words.quote] at word
      cases word
    obtain ⟨rest, rfl, -⟩ := escaped_eq_cons notQuote tail'
    exact ⟨w, rest, rfl, word⟩
  · rintro ⟨w, after, eq, word⟩
    obtain ⟨rfl, rfl⟩ := List.cons.inj eq
    have notQuote : w ≠ '"' := by
      rintro rfl
      rw [words.quote] at word
      cases word
    exact ⟨w, Csv.escaped after, by simp [notQuote], word⟩

/-- Doubled quotes make no markers and hide none. -/
theorem uncut_escaped_iff :
    (words.pieces lineStart (Csv.escaped xs)).2 = [] ↔ (words.pieces lineStart xs).2 = [] := by
  induction xs generalizing lineStart with
  | nil => exact Iff.rfl
  | cons c cs ih =>
      have plain : ∀ {b zs}, words.begins b ('"' :: zs) = none := begins_of_no_marker rfl
      rw [Csv.escaped_cons]
      by_cases isQuote : c = '"'
      · subst isQuote
        simp only [if_true, List.cons_append, List.nil_append]
        rw [pieces_none plain, pieces_none plain, pieces_none plain]
        exact ih
      · rw [if_neg isQuote, List.singleton_append]
        have same : (words.begins lineStart (c :: Csv.escaped cs)).isSome =
            (words.begins lineStart (c :: cs)).isSome := by
          cases lineStart with
          | false => rfl
          | true => exact marker_escaped isQuote
        cases found : words.begins lineStart (c :: cs) with
        | some name =>
            rw [found, Option.isSome_some] at same
            obtain ⟨name', found'⟩ := Option.isSome_iff_exists.mp same
            rw [pieces_some found, pieces_some found']
            simp
        | none =>
            rw [found, Option.isSome_none] at same
            rw [pieces_none found, pieces_none (by simpa using same)]
            exact ih

/-- Where a text is cut, a line begins with a marker. -/
theorem exists_of_cut (cut : (words.pieces lineStart xs).2 ≠ []) :
    (lineStart = true ∧ (words.marker xs).isSome = true) ∨
      ∃ before after, xs = before ++ '\n' :: after ∧ (words.marker after).isSome = true := by
  induction xs generalizing lineStart with
  | nil => exact absurd rfl cut
  | cons c cs ih =>
      cases found : words.begins lineStart (c :: cs) with
      | some name =>
          left
          unfold begins at found
          split at found
          · rename_i atStart
            exact ⟨atStart, by rw [found]; rfl⟩
          · cases found
      | none =>
          right
          rw [pieces_none found] at cut
          rcases ih cut with ⟨isFeed, marked⟩ | ⟨before, after, rfl, marked⟩
          · exact ⟨[], cs, by rw [beq_iff_eq.mp isFeed]; rfl, marked⟩
          · exact ⟨c :: before, after, rfl, marked⟩

/-- A line of the text after its first one begins with a marker. -/
def Marked (words : Words) (text : String) : Prop :=
  ∃ before w after, text.toList = before ++ '\n' :: '#' :: '#' :: w :: after ∧
    words.isWord w = true

theorem uncut_iff {text : String} :
    (words.pieces false text.toList).2 = [] ↔ ¬ words.Marked text := by
  constructor
  · rintro uncut ⟨before, w, after, eq, word⟩
    rw [eq, uncut_append_iff (by decide) words.lineFeed] at uncut
    have marked : (words.begins true ('#' :: '#' :: w :: after)).isSome = true :=
      marker_isSome_iff.mpr ⟨w, after, rfl, word⟩
    obtain ⟨name, found⟩ := Option.isSome_iff_exists.mp marked
    have tail := uncut.2
    rw [show ('\n' == '\n') = true from rfl, pieces_some found] at tail
    cases tail
  · intro unmarked
    by_contra cut
    rcases exists_of_cut cut with ⟨isTrue, -⟩ | ⟨before, after, eq, marked⟩
    · cases isTrue
    · obtain ⟨w, rest, rfl, word⟩ := marker_isSome_iff.mp marked
      exact unmarked ⟨before, w, rest, eq, word⟩

/-! ### How much of a text is cut out -/

/-- A match begins with two hashes. -/
theorem hashes_of_mem {piece : Piece} (there : piece ∈ (words.pieces lineStart xs).2) :
    ∃ rest, piece.text = '#' :: '#' :: rest := by
  induction xs generalizing lineStart with
  | nil => cases there
  | cons c cs ih =>
      cases found : words.begins lineStart (c :: cs) with
      | none =>
          rw [pieces_none found] at there
          exact ih there
      | some name =>
          rw [pieces_some found] at there
          rcases List.mem_cons.mp there with rfl | later
          · have marked : (words.marker (c :: cs)).isSome = true := by
              unfold begins at found
              split at found
              · rw [found]
                rfl
              · cases found
            obtain ⟨w, after, eq, -⟩ := marker_isSome_iff.mp marked
            obtain ⟨rfl, rfl⟩ := List.cons.inj eq
            have second : words.begins false ('#' :: w :: after) = none := rfl
            refine ⟨(words.pieces ('#' == '\n') (w :: after)).1, ?_⟩
            show '#' :: (words.pieces false ('#' :: w :: after)).1 = _
            rw [pieces_none second]
          · exact ih later

/-- Every character stands before the first match or in the text of one. -/
theorem count_pieces (ch : Char) :
    xs.count ch = (words.pieces lineStart xs).1.count ch +
      ((words.pieces lineStart xs).2.map fun piece => piece.text.count ch).sum := by
  induction xs generalizing lineStart with
  | nil => rfl
  | cons c cs ih =>
      cases found : words.begins lineStart (c :: cs) with
      | none =>
          simp only [pieces_none found, List.count_cons]
          rw [@ih (c == '\n')]
          omega
      | some name =>
          simp only [pieces_some found, List.map_cons, List.sum_cons, List.count_nil,
            List.count_cons]
          rw [@ih (c == '\n')]
          omega

end Words

end Cuts

end EspressoLogs.Importer
