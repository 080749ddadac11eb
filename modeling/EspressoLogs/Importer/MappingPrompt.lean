import EspressoLogs.Importer.Schema

/-!
The prompt that asks the language model to map the columns of a section.

`build_mapping_prompt` shows up to three sample rows and takes one of them away
as long as the prompt is too long for the budget. It never takes the last one:
a prompt over a single row goes out whatever its size.
-/

namespace EspressoLogs.Importer

open Lib Py

/-! ### Cells as text -/

/-- Which characters beyond ASCII `repr` shows as they are. -/
abbrev Printable := Char → Bool

/-- The last digits of a number in base 16. -/
def hexDigits (digits n : Nat) : List Char :=
  (List.range digits).reverse.map fun i => hexChar (n / 16 ^ i % 16)

/-- One character inside `repr(s)`. -/
def reprChar (printable : Printable) (quote c : Char) : List Char :=
  if c = quote ∨ c = '\\' then ['\\', c]
  else if c = '\t' then ['\\', 't']
  else if c = '\n' then ['\\', 'n']
  else if c = '\r' then ['\\', 'r']
  else if c.toNat < 32 ∨ c.toNat = 127 then ['\\', 'x'] ++ hexDigits 2 c.toNat
  else if c.toNat < 127 ∨ printable c then [c]
  else if c.toNat < 0x100 then ['\\', 'x'] ++ hexDigits 2 c.toNat
  else if c.toNat < 0x10000 then ['\\', 'u'] ++ hexDigits 4 c.toNat
  else ['\\', 'U'] ++ hexDigits 8 c.toNat

/-- `repr(s)`: in single quotes, unless the text has some and no double ones. -/
def reprString (printable : Printable) (s : String) : String :=
  let quote := if '\'' ∈ s.toList ∧ '"' ∉ s.toList then '"' else '\''
  String.ofList (quote :: s.toList.flatMap (reprChar printable quote) ++ [quote])

/-- `str(v)`. -/
def Cell.str (printable : Printable) : Cell → String
  | missing => "None"
  | text s => s
  | rest cells => "[" ++ ", ".intercalate (cells.map (reprString printable)) ++ "]"

/-- `str(v)[:80]`. -/
def Cell.cut (printable : Printable) (v : Cell) : String :=
  String.ofList ((v.str printable).toList.take 80)

/-! ### JSON -/

/-- `json.dumps` of a list of strings. -/
def jsonStrings (items : List String) : String :=
  "[" ++ ", ".intercalate (items.map jsonString) ++ "]"

/-- A column as the key of an object. -/
def jsonKey (column : Option String) : String := jsonString (column.getD "null")

def jsonCell (printable : Printable) (x : Option String × Cell) : String :=
  jsonKey x.1 ++ ": " ++ jsonString (x.2.cut printable)

/-- A row in the list, with `indent=2`. -/
def jsonRow (printable : Printable) (row : Row) : String :=
  if row.entries = [] then "\x7b\x7d"
  else "\x7b\n    " ++ ",\n    ".intercalate (row.entries.map (jsonCell printable)) ++ "\n  \x7d"

/-- `json.dumps(truncated, indent=2)`. -/
def jsonRows (printable : Printable) (rows : List Row) : String :=
  if rows = [] then "[]" else "[\n  " ++ ",\n  ".intercalate (rows.map (jsonRow printable)) ++ "\n]"

/-! ### The prompt -/

/-- What the prompt is about. -/
structure Sheet where
  sheetName : String
  legacyColumns : List String
  canonicalColumns : List String

/-- The prompt up to the sample rows. -/
def Sheet.describe (sheet : Sheet) : String :=
  "You are mapping legacy database columns to a canonical schema.\n\n" ++
  "Sheet: " ++ sheet.sheetName ++ "\n" ++
  "Legacy columns: " ++ jsonStrings sheet.legacyColumns ++ "\n" ++
  "Canonical columns: " ++ jsonStrings sheet.canonicalColumns ++ "\n" ++
  "Sample rows (first 3, values truncated to 80 chars):\n"

/-- The prompt after the sample rows. -/
def instructions : String :=
  "\n\n" ++
  "Return ONLY a JSON object in this exact format — no prose, no markdown fences:\n" ++
  "\x7b\"mapping\": \x7b\"<legacy_col>\": \"<canonical_col_or_null>\", ...\x7d\x7d\n\n" ++
  "Rules:\n" ++
  "- Map every legacy column to the most likely canonical column name.\n" ++
  "- Use JSON null (not the string \"null\") when no canonical column matches.\n" ++
  "- Do not invent canonical column names; use only those in the Canonical columns list."

/-- The prompt over the given rows. -/
def Sheet.prompt (sheet : Sheet) (printable : Printable) (rows : List Row) : String :=
  sheet.describe ++ jsonRows printable rows ++ instructions

/-- `len(prompt.encode()) <= 1024`. -/
abbrev Short (prompt : String) : Prop := prompt.utf8ByteSize ≤ 1024

/-- How many of `count` rows an attempt shows. -/
def shown (count attempt : Nat) : Nat := max 1 (count - attempt)

/-- The prompt of the first attempt that is short, from the given one on, or that of the last. -/
def attempts (prompt : Nat → String) (attempt : Nat) : (left : Nat) → String
  | 0 => prompt attempt
  | left + 1 =>
      if Short (prompt attempt) then prompt attempt else attempts prompt (attempt + 1) left

/-- `build_mapping_prompt`. -/
def buildMappingPrompt (printable : Printable) (sheet : Sheet) (sampleRows : List Row) : String :=
  let rows := sampleRows.take 3
  attempts (fun attempt => sheet.prompt printable (rows.take (shown rows.length attempt))) 0
    rows.length

/-! ### Attempts -/

/-- An attempt is returned when those before it were too long. -/
theorem attempts_eq (prompt : Nat → String) (attempt left : Nat) :
    ∃ i ≤ left, attempts prompt attempt left = prompt (attempt + i) ∧
      (∀ j < i, ¬ Short (prompt (attempt + j))) ∧ (Short (prompt (attempt + i)) ∨ i = left) := by
  induction left generalizing attempt with
  | zero => exact ⟨0, le_refl 0, rfl, fun j before => absurd before (Nat.not_lt_zero j), .inr rfl⟩
  | succ left ih =>
      by_cases short : Short (prompt attempt)
      · refine ⟨0, Nat.zero_le _, ?_, fun j before => absurd before (Nat.not_lt_zero j), .inl short⟩
        rw [attempts, if_pos short]
        rfl
      · obtain ⟨i, bound, same, before, last⟩ := ih (attempt + 1)
        have shift : ∀ j, attempt + (j + 1) = attempt + 1 + j := fun j => by omega
        refine ⟨i + 1, Nat.succ_le_succ bound, ?_, ?_, ?_⟩
        · rw [attempts, if_neg short, shift i]
          exact same
        · intro j earlier
          cases j with
          | zero => exact short
          | succ j =>
              rw [shift]
              exact before j (Nat.lt_of_succ_lt_succ earlier)
        · rw [shift]
          exact last.imp_right (congrArg (· + 1))

/-! ### Sizes -/

section

variable (printable : Printable) (sheet : Sheet)

/-- The bytes of the rows after the first one, with what separates them. -/
def sizeAfter (rest : List Row) : Nat :=
  (rest.map fun row => 4 + (jsonRow printable row).utf8ByteSize).sum

theorem size_jsonRows_cons (first : Row) (rest : List Row) :
    (jsonRows printable (first :: rest)).utf8ByteSize =
      6 + (jsonRow printable first).utf8ByteSize + sizeAfter printable rest := by
  have opening : "[\n  ".utf8ByteSize = 4 := by decide
  have separator : ",\n  ".utf8ByteSize = 4 := by decide
  have closing : "\n]".utf8ByteSize = 2 := by decide
  unfold jsonRows sizeAfter
  rw [if_neg (List.cons_ne_nil first rest), List.map_cons, String.utf8ByteSize_append,
    String.utf8ByteSize_append, utf8ByteSize_intercalate, List.map_map, opening, separator, closing]
  simp only [Function.comp_def]
  omega

/-- The prompt over some rows is longer than that over none by their JSON, which replaces `[]`. -/
theorem size_prompt_cons (first : Row) (rest : List Row) :
    (sheet.prompt printable (first :: rest)).utf8ByteSize =
      (sheet.prompt printable []).utf8ByteSize + 4 + (jsonRow printable first).utf8ByteSize +
        sizeAfter printable rest := by
  have empty : (jsonRows printable []).utf8ByteSize = 2 := by
    rw [jsonRows, if_pos rfl]
    decide
  have size : ∀ rows, (sheet.prompt printable rows).utf8ByteSize = sheet.describe.utf8ByteSize +
      (jsonRows printable rows).utf8ByteSize + instructions.utf8ByteSize := by
    intro rows
    rw [Sheet.prompt, String.utf8ByteSize_append, String.utf8ByteSize_append]
  rw [size, size, empty, size_jsonRows_cons]
  generalize instructions.utf8ByteSize = after
  omega

/-- The prompt over one row. -/
theorem size_prompt_one (first : Row) :
    (sheet.prompt printable [first]).utf8ByteSize =
      (sheet.prompt printable []).utf8ByteSize + 4 + (jsonRow printable first).utf8ByteSize := by
  have none : sizeAfter printable [] = 0 := rfl
  rw [size_prompt_cons, none, Nat.add_zero]

/-- More rows make no shorter prompt. -/
theorem size_prompt_one_le (first : Row) (rest : List Row) :
    (sheet.prompt printable [first]).utf8ByteSize ≤
      (sheet.prompt printable (first :: rest)).utf8ByteSize := by
  rw [size_prompt_one, size_prompt_cons]
  exact Nat.le_add_right _ (sizeAfter printable rest)

end

/-! ### The budget -/

/-- The prompt is short and shows as many of the first three rows as a short one can. -/
structure Budgeted (printable : Printable) (sheet : Sheet) (sampleRows : List Row)
    (prompt : String) : Prop where
  short : Short prompt
  longest : ∃ k ≤ (sampleRows.take 3).length,
    prompt = sheet.prompt printable ((sampleRows.take 3).take k) ∧
      ∀ j ≤ (sampleRows.take 3).length, k < j →
        ¬ Short (sheet.prompt printable ((sampleRows.take 3).take j))

theorem shown_pos {count attempt : Nat} : 0 < shown count attempt := le_max_left 1 _

theorem shown_le {count attempt : Nat} (pos : 0 < count) : shown count attempt ≤ count :=
  max_le pos (Nat.sub_le _ _)

/-- Of some rows, more than those that an attempt shows were shown by an earlier one. -/
theorem shown_of_lt {count attempt j : Nat} (more : shown count attempt < j) (bound : j ≤ count) :
    count - j < attempt ∧ shown count (count - j) = j := by
  unfold shown at more ⊢
  omega

/-- The prompt that is returned, and why no longer one is. -/
theorem buildMappingPrompt_eq (printable : Printable) (sheet : Sheet) (first : Row)
    (rest : List Row) :
    let rows := (first :: rest).take 3
    ∃ k ≤ rows.length, 0 < k ∧ buildMappingPrompt printable sheet (first :: rest) =
        sheet.prompt printable (rows.take k) ∧
      (∀ j ≤ rows.length, k < j → ¬ Short (sheet.prompt printable (rows.take j))) ∧
      (Short (sheet.prompt printable (rows.take k)) ∨ k = 1) := by
  intro rows
  have pos : 0 < rows.length := Nat.succ_pos _
  obtain ⟨i, bound, same, before, last⟩ := attempts_eq
    (fun attempt => sheet.prompt printable (rows.take (shown rows.length attempt))) 0 rows.length
  rw [Nat.zero_add] at same last
  refine ⟨shown rows.length i, shown_le pos, shown_pos, same, ?_, last.imp_right ?_⟩
  · intro j most more
    obtain ⟨earlier, exact'⟩ := shown_of_lt more most
    have long := before _ earlier
    rw [Nat.zero_add, exact'] at long
    exact long
  · rintro rfl
    unfold shown
    omega

/-- A prompt keeps the budget unless already the first row does not fit into it. The
loop drops sample rows from the end and never the first one, and when it has run out it
returns what it tried last. The prompt without sample rows is short; how the other rows
fit does not matter. -/
theorem budgeted_iff (printable : Printable) (sheet : Sheet) (sampleRows : List Row)
    (room : Short (sheet.prompt printable [])) :
    Budgeted printable sheet sampleRows (buildMappingPrompt printable sheet sampleRows) ↔
      ∀ first ∈ sampleRows.head?, (sheet.prompt printable []).utf8ByteSize + 4 +
        (jsonRow printable first).utf8ByteSize ≤ 1024 := by
  -- the prompt keeps the first row whatever its size, and drops the others from the end
  cases sampleRows with
  | nil =>
      have empty : buildMappingPrompt printable sheet [] = sheet.prompt printable [] := rfl
      rw [empty]
      refine ⟨fun _ first mem => absurd mem (Option.not_mem_none first), fun _ => ⟨room, 0, ?_⟩⟩
      exact ⟨le_refl 0, rfl, fun j bound more => absurd more (Nat.not_lt.mpr bound)⟩
  | cons first rest =>
      obtain ⟨k, bound, pos, same, longest, last⟩ := buildMappingPrompt_eq printable sheet first rest
      have alone := size_prompt_one printable sheet first
      rw [same]
      constructor
      · rintro ⟨short, -⟩ row mem
        cases mem
        rw [← alone]
        cases k with
        | zero => exact absurd pos (Nat.lt_irrefl 0)
        | succ k => exact le_trans (size_prompt_one_le printable sheet first _) short
      · intro fits
        refine ⟨?_, k, bound, rfl, longest⟩
        rcases last with short | rfl
        · exact short
        · exact alone.trans_le (fits first rfl)

namespace Sample

/-- The columns of a log of repairs. -/
def repairs : Sheet where
  sheetName := "Maintenance"
  legacyColumns := ["Date", "Fault", "Cause", "Action", "Notes"]
  canonicalColumns := ["Date", "Action_Type", "Notes"]

/-- An entry of the log with a text of the given length in four columns. -/
def repair (length : Nat) : Row :=
  let note := Cell.text (String.ofList (List.replicate length 'x'))
  .ofList [(some "Date", .text "2026-01-03"), (some "Fault", note), (some "Cause", note),
    (some "Action", note), (some "Notes", note)]

/-- The texts of the sample are ASCII. -/
abbrev ascii : Printable := fun _ => false

theorem size_repairs : (repairs.prompt ascii []).utf8ByteSize = 632 := by
  unfold Sheet.prompt Sheet.describe instructions
  simp only [String.utf8ByteSize_append]
  decide +kernel

theorem repairs_room : Short (repairs.prompt ascii []) := by
  rw [Short, size_repairs]
  decide

theorem size_repair : (jsonRow ascii (repair 5)).utf8ByteSize = 119 ∧
    (jsonRow ascii (repair 80)).utf8ByteSize = 419 := by
  decide +kernel

/-- Short notes fit. -/
theorem repair_budgeted :
    Budgeted ascii repairs [repair 5] (buildMappingPrompt ascii repairs [repair 5]) ↔
      ∀ first ∈ [repair 5].head?, (repairs.prompt ascii []).utf8ByteSize + 4 +
        (jsonRow ascii first).utf8ByteSize ≤ 1024 :=
  budgeted_iff ascii repairs [repair 5] repairs_room

/-- Long ones do not, although there is room for the empty sample. -/
theorem repair_overflows :
    Short (repairs.prompt ascii []) ∧
      ¬ Short (buildMappingPrompt ascii repairs [repair 80]) := by
  refine ⟨repairs_room, ?_⟩
  obtain ⟨k, bound, pos, same, -, -⟩ := buildMappingPrompt_eq ascii repairs (repair 80) []
  have one : k = 1 := Nat.le_antisymm bound pos
  rw [same, one]
  have size := size_prompt_one ascii repairs (repair 80)
  rw [size_repairs, size_repair.2] at size
  have long : ¬ (repairs.prompt ascii [repair 80]).utf8ByteSize ≤ 1024 := by
    rw [size]
    decide
  exact long

end Sample

end EspressoLogs.Importer
