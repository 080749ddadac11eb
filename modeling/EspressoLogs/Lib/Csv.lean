import Mathlib.Algebra.GroupWithZero.Nat
import Mathlib.Data.List.Basic

/-!
Comma separated values.

`read` is a lenient reader: commas separate cells, a quote at the start of a cell
quotes it, a quote in it is doubled, and a line feed ends a record where it is
not quoted. Text whose cells are all quoted it reads back (`read_records`), and
from no text does it make more of a character than there is (`count_read`).
-/

namespace EspressoLogs.Lib.Csv

/-! ### Writing -/

/-- Every quote doubled. -/
def escaped (cell : List Char) : List Char :=
  cell.flatMap fun c => if c = '"' then ['"', '"'] else [c]

def quoted (cell : String) : List Char := '"' :: (escaped cell.toList ++ ['"'])

/-- A record without its line end. -/
def record : List String → List Char
  | [] => []
  | [cell] => quoted cell
  | cell :: cells => quoted cell ++ ',' :: record cells

/-- Records with line feeds between them. -/
def joined : List (List String) → List Char
  | [] => []
  | [cells] => record cells
  | cells :: rest => record cells ++ '\n' :: joined rest

theorem joined_cons (cells : List String) {rest : List (List String)} (more : rest ≠ []) :
    joined (cells :: rest) = record cells ++ '\n' :: joined rest := by
  cases rest with
  | nil => exact absurd rfl more
  | cons _ _ => rfl

theorem record_cons (cell : String) {cells : List String} (more : cells ≠ []) :
    record (cell :: cells) = quoted cell ++ ',' :: record cells := by
  cases cells with
  | nil => exact absurd rfl more
  | cons _ _ => rfl

theorem flatMap_record {records : List (List String)} (some : records ≠ []) :
    (records.flatMap fun cells => record cells ++ ['\n']) = joined records ++ ['\n'] := by
  induction records with
  | nil => exact absurd rfl some
  | cons cells others ih =>
      by_cases more : others = []
      · subst more
        rw [List.flatMap_cons, List.flatMap_nil, List.append_nil]
        rfl
      · rw [List.flatMap_cons, ih more, joined_cons cells more]
        simp

/-- A record begins and ends with a quote. -/
theorem record_quotes {cells : List String} (nonempty : cells ≠ []) :
    ∃ middle, record cells = '"' :: (middle ++ ['"']) := by
  induction cells with
  | nil => exact absurd rfl nonempty
  | cons cell others ih =>
      by_cases more : others = []
      · subst more
        exact ⟨_, rfl⟩
      · obtain ⟨middle, quotes⟩ := ih more
        refine ⟨escaped cell.toList ++ '"' :: ',' :: '"' :: middle, ?_⟩
        rw [record_cons cell more, quotes]
        simp [quoted]

theorem joined_quotes {records : List (List String)} (some : records ≠ [])
    (nonempty : ∀ cells ∈ records, cells ≠ []) :
    ∃ middle, joined records = '"' :: (middle ++ ['"']) := by
  induction records with
  | nil => exact absurd rfl some
  | cons cells others ih =>
      obtain ⟨first, quotes⟩ := record_quotes (nonempty cells List.mem_cons_self)
      by_cases more : others = []
      · subst more
        exact ⟨first, quotes⟩
      · obtain ⟨middle, rest⟩ := ih more fun r hr => nonempty r (List.mem_cons_of_mem _ hr)
        refine ⟨first ++ '"' :: '\n' :: '"' :: middle, ?_⟩
        rw [joined_cons cells more, quotes, rest]
        simp

@[simp] theorem escaped_cons (c : Char) (cs : List Char) :
    escaped (c :: cs) = (if c = '"' then ['"', '"'] else [c]) ++ escaped cs := rfl

/-! ### Reading -/

/-- Where in a record the reader is. -/
inductive Mode where
  | startRecord
  | startField
  | inField
  | inQuotedField
  | quoteInQuotedField
  deriving DecidableEq, Repr

/-- What the reader does with a character. -/
inductive Action where
  /-- To the field, and on in this mode. -/
  | add (next : Mode)
  | skip (next : Mode)
  /-- The field is complete. -/
  | save
  /-- The field and the record are complete. -/
  | finish
  /-- A line with nothing on it. -/
  | blank

/-- At the start of a field that is not empty. -/
def opening (c : Char) : Action :=
  if c = '"' then .skip .inQuotedField else if c = ',' then .save else .add .inField

def act : Mode → Char → Action
  | .startRecord, c => if c = '\n' then .blank else opening c
  | .startField, c => if c = '\n' then .finish else opening c
  | .inField, c => if c = '\n' then .finish else if c = ',' then .save else .add .inField
  | .inQuotedField, c => if c = '"' then .skip .quoteInQuotedField else .add .inQuotedField
  | .quoteInQuotedField, c =>
      if c = '"' then .add .inQuotedField
      else if c = ',' then .save
      else if c = '\n' then .finish
      else .add .inField

/-- The records of a text, from within one; `none` where a field exceeds the
limit. At the end of the text the last field is complete, quoted or not. -/
def readFrom (limit : Nat) : Mode → List String → List Char → List Char → Option (List (List String))
  | mode, fields, field, [] =>
      if mode = .startRecord then some [] else some [fields ++ [String.ofList field]]
  | mode, fields, field, c :: cs =>
      match act mode c with
      | .add next =>
          if limit ≤ field.length then none else readFrom limit next fields (field ++ [c]) cs
      | .skip next => readFrom limit next fields field cs
      | .save => readFrom limit .startField (fields ++ [String.ofList field]) [] cs
      | .finish =>
          (readFrom limit .startRecord [] [] cs).map ((fields ++ [String.ofList field]) :: ·)
      | .blank => (readFrom limit .startRecord [] [] cs).map (fields :: ·)

def read (limit : Nat) (text : List Char) : Option (List (List String)) :=
  readFrom limit .startRecord [] [] text

/-! ### What was written is read back -/

section Back

variable {limit : Nat} {fields : List String} {field rest : List Char}

theorem readFrom_escaped {cell : List Char} (within : field.length + cell.length ≤ limit) :
    readFrom limit .inQuotedField fields field (escaped cell ++ '"' :: rest) =
      readFrom limit .quoteInQuotedField fields (field ++ cell) rest := by
  induction cell generalizing field with
  | nil =>
      rw [List.append_nil]
      rfl
  | cons c cs ih =>
      rw [List.length_cons] at within
      have room : ¬ limit ≤ field.length := by omega
      have next : (field ++ [c]).length + cs.length ≤ limit := by
        rw [List.length_append, List.length_singleton]
        omega
      have step : readFrom limit .inQuotedField fields field (escaped (c :: cs) ++ '"' :: rest) =
          readFrom limit .inQuotedField fields (field ++ [c]) (escaped cs ++ '"' :: rest) := by
        by_cases quote : c = '"'
        · subst quote
          simp [readFrom, act, room]
        · simp [readFrom, act, room, quote]
      rw [step, ih next, List.append_assoc]
      rfl

/-- A quoted field is read up to the quote that closes it. -/
theorem readFrom_quoted {start : Mode} (begins : start = .startRecord ∨ start = .startField)
    {cell : String} (within : cell.toList.length ≤ limit) :
    readFrom limit start fields [] (quoted cell ++ rest) =
      readFrom limit .quoteInQuotedField fields cell.toList rest := by
  have opens : readFrom limit start fields [] (quoted cell ++ rest) =
      readFrom limit .inQuotedField fields [] (escaped cell.toList ++ '"' :: rest) := by
    rcases begins with rfl | rfl <;> simp [quoted, readFrom, act, opening]
  have cells := @readFrom_escaped limit fields [] rest cell.toList (by simpa using within)
  rw [opens, cells, List.nil_append]

/-- All but the last field of a record are saved. -/
theorem readFrom_record {start : Mode} (begins : start = .startRecord ∨ start = .startField)
    {cells : List String} {last : String}
    (within : ∀ cell ∈ cells ++ [last], cell.toList.length ≤ limit) :
    readFrom limit start fields [] (record (cells ++ [last]) ++ rest) =
      readFrom limit .quoteInQuotedField (fields ++ cells) last.toList rest := by
  induction cells generalizing start fields with
  | nil =>
      rw [List.append_nil]
      exact readFrom_quoted begins (within last List.mem_cons_self)
  | cons cell cells ih =>
      have more : cells ++ [last] ≠ [] := by simp
      rw [List.cons_append, record_cons cell more, List.append_assoc,
        readFrom_quoted begins (within cell List.mem_cons_self)]
      have saved : readFrom limit .quoteInQuotedField fields cell.toList
          (',' :: record (cells ++ [last]) ++ rest) =
          readFrom limit .startField (fields ++ [cell]) [] (record (cells ++ [last]) ++ rest) := by
        simp [readFrom, act]
      rw [saved, ih (.inr rfl) fun c hc => within c (List.mem_cons_of_mem _ hc), List.append_assoc]
      rfl

theorem read_record {cells : List String} (nonempty : cells ≠ [])
    (within : ∀ cell ∈ cells, cell.toList.length ≤ limit) :
    read limit (record cells) = some [cells] ∧
      read limit (record cells ++ '\n' :: rest) = (read limit rest).map (cells :: ·) := by
  obtain ⟨front, last, rfl⟩ : ∃ front last, cells = front ++ [last] :=
    ⟨cells.dropLast, cells.getLast nonempty, (List.dropLast_append_getLast nonempty).symm⟩
  constructor
  · have ended := @readFrom_record limit [] [] .startRecord (.inl rfl) front last within
    rw [List.append_nil] at ended
    rw [read, ended]
    simp [readFrom]
  · rw [read, readFrom_record (.inl rfl) within]
    simp [readFrom, act, read]

/-- Records with at least one cell are read as they were written. -/
theorem read_joined {records : List (List String)}
    (within : ∀ cells ∈ records, cells ≠ [] ∧ ∀ cell ∈ cells, cell.toList.length ≤ limit) :
    read limit (joined records) = some records := by
  induction records with
  | nil => rfl
  | cons cells others ih =>
      obtain ⟨nonempty, fits⟩ := within cells List.mem_cons_self
      have both := @read_record limit (joined others) cells nonempty fits
      have tail := ih fun r hr => within r (List.mem_cons_of_mem _ hr)
      by_cases more : others = []
      · rw [more]
        exact both.1
      · rw [joined_cons cells more, both.2, tail]
        rfl

end Back

/-! ### No more than there is -/

/-- How often a character stands in some cells. -/
def occurrences (ch : Char) (cells : List String) : Nat :=
  (cells.map fun cell => cell.toList.count ch).sum

theorem occurrences_append (ch : Char) (cells others : List String) :
    occurrences ch (cells ++ others) = occurrences ch cells + occurrences ch others := by
  simp [occurrences]

theorem occurrences_singleton (ch : Char) (field : List Char) :
    occurrences ch [String.ofList field] = field.count ch := by
  simp [occurrences]

/-- Quoting changes only how many quotes and commas there are. -/
theorem count_record {ch : Char} (notQuote : ch ≠ '"') (notComma : ch ≠ ',') (cells : List String) :
    (record cells).count ch = occurrences ch cells := by
  have escape : ∀ cs : List Char, (escaped cs).count ch = cs.count ch := by
    intro cs
    induction cs with
    | nil => rfl
    | cons c cs ih =>
        rw [escaped_cons, List.count_append, List.count_cons, ih]
        by_cases isQuote : c = '"'
        · subst isQuote
          simp [notQuote.symm]
        · simp [isQuote, List.count_singleton, Nat.add_comm]
  have quote : ∀ cell : String, (quoted cell).count ch = cell.toList.count ch := by
    intro cell
    simp [quoted, escape, notQuote.symm]
  induction cells with
  | nil => rfl
  | cons cell others ih =>
      by_cases more : others = []
      · subst more
        simp [record, quote, occurrences]
      · rw [record_cons cell more, List.count_append, List.count_cons_of_ne notComma.symm, quote, ih]
        simp [occurrences]

theorem count_readFrom {limit : Nat} (ch : Char) {text field : List Char} {mode : Mode}
    {fields : List String} {records : List (List String)}
    (done : readFrom limit mode fields field text = some records) :
    occurrences ch records.flatten ≤ occurrences ch fields + field.count ch + text.count ch := by
  -- character by character: each goes to the field, or is dropped
  induction text generalizing mode fields field records with
  | nil =>
      simp only [readFrom] at done
      split at done
      · cases done
        exact Nat.zero_le _
      · cases done
        rw [List.flatten_singleton, occurrences_append, occurrences_singleton]
        exact Nat.le_add_right _ _
  | cons c cs ih =>
      have longer := List.count_cons (a := ch) (b := c) (l := cs)
      simp only [readFrom] at done
      split at done
      · split at done
        · cases done
        · have bound := ih done
          rw [List.count_append, List.count_singleton] at bound
          omega
      · have bound := ih done
        omega
      · have bound := ih done
        rw [occurrences_append, occurrences_singleton, List.count_nil] at bound
        omega
      · obtain ⟨later, read, rfl⟩ := Option.map_eq_some_iff.mp done
        have bound := ih read
        rw [List.flatten_cons, occurrences_append, occurrences_append, occurrences_singleton]
        simp only [occurrences, List.map_nil, List.sum_nil, List.count_nil] at bound ⊢
        omega
      · obtain ⟨later, read, rfl⟩ := Option.map_eq_some_iff.mp done
        have bound := ih read
        rw [List.flatten_cons, occurrences_append]
        simp only [occurrences, List.map_nil, List.sum_nil, List.count_nil] at bound ⊢
        omega

theorem count_read {limit : Nat} (ch : Char) {text : List Char} {records : List (List String)}
    (done : read limit text = some records) :
    occurrences ch records.flatten ≤ text.count ch := by
  have bound := count_readFrom ch done
  simpa [occurrences] using bound

end EspressoLogs.Lib.Csv
