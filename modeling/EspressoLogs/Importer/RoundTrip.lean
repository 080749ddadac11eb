import EspressoLogs.Importer.Sections
import Mathlib.Algebra.Order.BigOperators.Group.List
import Mathlib.Data.List.Perm.Subperm

/-!
What a legacy export with every cell quoted becomes when it is read.
-/

namespace EspressoLogs.Importer

open Lib Py

variable {words : Words}

/-! ### Exports -/

/-- A section as it is to be written: a word over records of one length. -/
structure Section (words : Words) where
  name : String
  columns : List String
  rows : List (List String)
  word : name.toList ≠ [] ∧ ∀ c ∈ name.toList, words.isWord c = true
  distinct : columns.Nodup
  named : "" ∉ columns
  filled : ∀ row ∈ rows, row.length = columns.length
  plain : ∀ text ∈ columns ++ rows.flatten,
    '\r' ∉ text.toList ∧ text.toList.length ≤ fieldSizeLimit

/-- Sections of different names, one of them `Brew_Log`. -/
structure Export (words : Words) where
  sections : List (Section words)
  distinct : (sections.map Section.name).Nodup
  brewLog : "Brew_Log" ∈ sections.map Section.name

/-- How the lines of a file end. -/
inductive LineEnd where
  | lf
  | crlf

def LineEnd.chars : LineEnd → List Char
  | lf => ['\n']
  | crlf => ['\r', '\n']

namespace Section

variable (s : Section words)

/-- All cells of a section, its header among them. -/
def texts : List String := s.columns ++ s.rows.flatten

/-- The header and the rows, each on lines of their own. -/
def body (e : LineEnd) : List Char :=
  (s.columns :: s.rows).flatMap fun cells => Csv.record cells ++ e.chars

/-- A section as it stands in the file. -/
def render (e : LineEnd) : List Char := '#' :: '#' :: (s.name.toList ++ e.chars ++ s.body e)

/-- A row by the columns. -/
def row (cells : List String) : Row := .ofList ((s.columns.map some).zip (cells.map .text))

/-- No line of a column or a cell begins with a marker. -/
def Unmarked : Prop := ∀ text ∈ s.texts, ¬ words.Marked text

end Section

namespace Export

variable (x : Export words)

/-- The file. -/
def render (e : LineEnd) : String := String.ofList (x.sections.flatMap fun s => s.render e)

/-- The sections by their names, and their rows. -/
def contents : Sections where
  entries := x.sections.map fun s => (s.name, s.rows.map s.row)
  distinct := by
    rw [List.map_map]
    exact x.distinct

/-- Reading the file gives the sections and the rows that were written. -/
def ReadsBack (e : LineEnd) : Prop := parseLegacyCsv words (x.render e) = .ok x.contents

end Export

/-! ### Line ends -/

theorem normalizeNewlines_cons {c : Char} (other : c ≠ '\r') (cs : List Char) :
    normalizeNewlines (c :: cs) = c :: normalizeNewlines cs := by
  rw [normalizeNewlines, if_neg other]
  rintro _ rfl
  exact absurd rfl other

/-- Either line end becomes a line feed. -/
theorem normalizeNewlines_append {cs : List Char} (plain : '\r' ∉ cs) (e : LineEnd)
    (rest : List Char) :
    normalizeNewlines (cs ++ e.chars ++ rest) = cs ++ '\n' :: normalizeNewlines rest := by
  induction cs with
  | nil => cases e <;> rfl
  | cons c cs ih =>
      have other : c ≠ '\r' := fun same => plain (same ▸ List.mem_cons_self)
      rw [List.cons_append, List.cons_append, normalizeNewlines_cons other,
        ih fun h => plain (List.mem_cons_of_mem _ h)]
      rfl

theorem notMem_record {cells : List String} (plain : ∀ cell ∈ cells, '\r' ∉ cell.toList) :
    '\r' ∉ Csv.record cells := by
  have escaped : ∀ cs : List Char, '\r' ∉ cs → '\r' ∉ Csv.escaped cs := by
    intro cs absent there
    obtain ⟨c, hc, here⟩ := List.mem_flatMap.mp there
    split at here
    · simp at here
    · exact absent (List.mem_singleton.mp here ▸ hc)
  have quoted : ∀ cell : String, '\r' ∉ cell.toList → '\r' ∉ Csv.quoted cell := by
    intro cell absent
    simp [Csv.quoted, escaped _ absent]
  induction cells with
  | nil => simp [Csv.record]
  | cons cell cells ih =>
      have first := quoted cell (plain cell List.mem_cons_self)
      have others := ih fun c hc => plain c (List.mem_cons_of_mem _ hc)
      by_cases more : cells = []
      · subst more
        exact first
      · rw [Csv.record_cons cell more]
        simp [first, others]

theorem Section.notMem_record (s : Section words) :
    ∀ cells ∈ s.columns :: s.rows, '\r' ∉ Csv.record cells := by
  intro cells there
  refine Importer.notMem_record fun cell hc => (s.plain cell ?_).1
  rcases List.mem_cons.mp there with rfl | there
  · exact List.mem_append_left _ hc
  · exact List.mem_append_right _ (List.mem_flatten.mpr ⟨cells, there, hc⟩)

/-- With the line ends normalised, a section is the one with plain line feeds. -/
theorem Section.normalize_render (s : Section words) (e : LineEnd) (rest : List Char) :
    normalizeNewlines (s.render e ++ rest) = s.render .lf ++ normalizeNewlines rest := by
  have body : ∀ records : List (List String), (∀ cells ∈ records, '\r' ∉ Csv.record cells) →
      normalizeNewlines ((records.flatMap fun cells => Csv.record cells ++ e.chars) ++ rest) =
        (records.flatMap fun cells => Csv.record cells ++ ['\n']) ++ normalizeNewlines rest := by
    intro records plain
    induction records with
    | nil => rfl
    | cons cells others ih =>
        rw [List.flatMap_cons, List.append_assoc, normalizeNewlines_append
          (plain cells List.mem_cons_self), ih fun r hr => plain r (List.mem_cons_of_mem _ hr)]
        simp
  have name : '\r' ∉ '#' :: '#' :: s.name.toList := by
    intro there
    have notHash : '\r' ≠ '#' := by decide
    have inName : '\r' ∈ s.name.toList := by simpa [notHash] using there
    have word := s.word.2 _ inName
    rw [words.carriageReturn] at word
    cases word
  have cut : s.render e ++ rest = '#' :: '#' :: s.name.toList ++ e.chars ++ (s.body e ++ rest) := by
    simp [Section.render]
  rw [cut, normalizeNewlines_append name, Section.body, body _ s.notMem_record]
  simp [Section.render, Section.body, LineEnd.chars]

theorem Export.normalize_render (x : Export words) (e : LineEnd) :
    normalizeNewlines (x.render e).toList = x.sections.flatMap fun s => s.render .lf := by
  have all : ∀ sections : List (Section words),
      normalizeNewlines (sections.flatMap fun s => s.render e) =
        sections.flatMap fun s => s.render .lf := by
    intro sections
    induction sections with
    | nil => rfl
    | cons s rest ih => rw [List.flatMap_cons, List.flatMap_cons, s.normalize_render, ih]
  rw [Export.render, String.toList_ofList, all]

/-! ### One section -/

section Pieces

variable {lineStart : Bool} {rest : List Char}

/-- A cell does not end the section if and only if no line of it looks like a marker. -/
theorem uncut_quoted_iff (cell : String) :
    (words.pieces lineStart (Csv.quoted cell ++ rest)).2 = [] ↔
      ¬ words.Marked cell ∧ (words.pieces false rest).2 = [] := by
  have shape : Csv.quoted cell ++ rest = [] ++ '"' :: (Csv.escaped cell.toList ++ '"' :: rest) := by
    simp [Csv.quoted]
  rw [shape, Words.uncut_append_iff (by decide) words.quote,
    Words.uncut_append_iff (by decide) words.quote]
  have start : ('"' == '\n') = false := rfl
  rw [start, Words.uncut_escaped_iff, Words.uncut_iff]
  simp [Words.pieces]

/-- A record with what ends it. -/
theorem uncut_record_iff {cells : List String} {d : Char} (other : d ≠ '#')
    (stop : words.isWord d = false) :
    (words.pieces lineStart (Csv.record cells ++ d :: rest)).2 = [] ↔
      (∀ cell ∈ cells, ¬ words.Marked cell) ∧ (words.pieces (d == '\n') rest).2 = [] := by
  have ended : ∀ b, (words.pieces b (d :: rest)).2 = [] ↔
      (words.pieces (d == '\n') rest).2 = [] := by
    intro b
    have step := @Words.uncut_append_iff words [] rest d b other stop
    simpa [Words.pieces] using step
  induction cells generalizing lineStart with
  | nil => simpa [Csv.record] using ended lineStart
  | cons cell cells ih =>
      by_cases more : cells = []
      · subst more
        rw [Csv.record, uncut_quoted_iff, ended]
        simp
      · have comma : words.begins false (',' :: (Csv.record cells ++ d :: rest)) = none :=
          Words.begins_of_no_marker rfl
        rw [Csv.record_cons cell more, List.append_assoc, uncut_quoted_iff, List.cons_append,
          Words.pieces_none comma, List.forall_mem_cons, and_assoc]
        exact and_congr_right fun _ => ih

/-- The same for all records of a section. -/
theorem uncut_records_iff (records : List (List String)) :
    (words.pieces true (records.flatMap fun cells => Csv.record cells ++ ['\n'])).2 = [] ↔
      ∀ cells ∈ records, ∀ cell ∈ cells, ¬ words.Marked cell := by
  induction records with
  | nil => simp [Words.pieces]
  | cons cells others ih =>
      rw [List.flatMap_cons, List.append_assoc, List.singleton_append,
        uncut_record_iff (by decide) words.lineFeed, List.forall_mem_cons]
      exact and_congr_right fun _ => ih

end Pieces

namespace Section

variable (s : Section words)

/-- The match at the start of a section. -/
def head : Piece where
  name := s.name.toList
  text := '#' :: (words.pieces false ('#' :: (s.name.toList ++ '\n' :: s.body .lf))).1

/-- What is cut off within it. -/
def tail : List Piece := (words.pieces false ('#' :: (s.name.toList ++ '\n' :: s.body .lf))).2

theorem pieces_render : words.pieces true (s.render .lf) = ([], s.head :: s.tail) := by
  have stop : (s.name.toList ++ '\n' :: s.body .lf).takeWhile words.isWord = s.name.toList := by
    rw [List.takeWhile_append_of_pos s.word.2, List.takeWhile_cons_of_neg (by simp [words.lineFeed]),
      List.append_nil]
  have found : words.begins true ('#' :: '#' :: (s.name.toList ++ '\n' :: s.body .lf)) =
      some s.name.toList := by
    simp [Words.begins, Words.marker, stop, s.word.1]
  have shape : s.render .lf = '#' :: '#' :: (s.name.toList ++ '\n' :: s.body .lf) := by
    simp [render, LineEnd.chars]
  rw [shape, Words.pieces_some found]
  rfl

/-- A section is read as one piece if and only if no cell looks like a marker. -/
theorem tail_eq_nil_iff : s.tail = [] ↔ s.Unmarked := by
  have name : (words.pieces false ('#' :: s.name.toList)).2 = [] := by
    by_contra cut
    rcases Words.exists_of_cut cut with ⟨isTrue, -⟩ | ⟨before, after, eq, -⟩
    · cases isTrue
    · have feed : '\n' ∈ '#' :: s.name.toList := eq ▸ by simp
      rcases List.mem_cons.mp feed with same | inName
      · exact absurd same (by decide)
      · have word := s.word.2 _ inName
        rw [words.lineFeed] at word
        cases word
  unfold tail
  rw [← List.cons_append, Words.uncut_append_iff (by decide) words.lineFeed]
  simp only [name, true_and]
  refine (uncut_records_iff _).trans ?_
  unfold Unmarked texts
  constructor
  · intro all text there
    rcases List.mem_append.mp there with column | cell
    · exact all s.columns List.mem_cons_self text column
    · obtain ⟨cells, hc, ht⟩ := List.mem_flatten.mp cell
      exact all cells (List.mem_cons_of_mem _ hc) text ht
  · intro all cells there text ht
    rcases List.mem_cons.mp there with rfl | there
    · exact all text (List.mem_append_left _ ht)
    · exact all text (List.mem_append_right _ (List.mem_flatten.mpr ⟨cells, there, ht⟩))

/-- There are columns where there are rows. -/
def Headed : Prop := s.rows ≠ [] → s.columns ≠ []

theorem head_text (unmarked : s.Unmarked) : s.head.text = s.render .lf := by
  have whole := Words.pieces_fst (s.tail_eq_nil_iff.mpr unmarked)
  rw [head, whole]
  simp [render, LineEnd.chars]

/-- What is read as the rows of the section, stripped at both ends. -/
theorem head_block (unmarked : s.Unmarked) : s.head.block = stripped (s.body .lf) := by
  have shape : s.render .lf = ('#' :: '#' :: (s.name.toList ++ ['\n'])) ++ s.body .lf := by
    simp [render, LineEnd.chars]
  have length : 2 + s.head.name.length + 1 =
      ('#' :: '#' :: (s.name.toList ++ ['\n'])).length := by
    simp only [head, List.length_cons, List.length_append, List.length_nil]
    omega
  rw [Piece.block, s.head_text unmarked, shape, length, List.drop_left]

theorem stripped_quotes (middle : List Char) :
    stripped ('"' :: (middle ++ ['"']) ++ ['\n']) = '"' :: (middle ++ ['"']) := by
  have quote : isSpace '"' = false := by decide
  have feed : isSpace '\n' = true := by decide
  simp [stripped, dropEnd, quote, feed]

theorem stripped_feeds (n : Nat) : stripped (List.replicate n '\n') = [] := by
  have feed : isSpace '\n' = true := by decide
  have dropped : (List.replicate n '\n').dropWhile isSpace = [] := by
    rw [List.dropWhile_eq_nil_iff]
    intro c hc
    rw [List.eq_of_mem_replicate hc]
    exact feed
  rw [stripped, dropped]
  rfl

/-- A row under all columns. -/
theorem ofList_rowItems {cells : List String} (fill : cells.length = s.columns.length) :
    Ordered.ofList (rowItems s.columns cells) = s.row cells := by
  have noMore : s.columns.drop cells.length = [] := by rw [fill, List.drop_length]
  rw [rowItems, if_neg (by omega), noMore, List.map_nil, List.append_nil, row]

/-- Without columns, the rows are empty lines. -/
theorem body_of_noColumns (noColumns : s.columns = []) :
    s.body .lf = List.replicate (s.rows.length + 1) '\n' := by
  have empty : ∀ rows : List (List String), (∀ row ∈ rows, row.length = s.columns.length) →
      (rows.flatMap fun cells => Csv.record cells ++ ['\n']) =
        List.replicate rows.length '\n' := by
    intro rows filled
    induction rows with
    | nil => rfl
    | cons cells others ih =>
        have nothing : cells = [] := by
          have fill := filled cells List.mem_cons_self
          rw [noColumns] at fill
          exact List.eq_nil_of_length_eq_zero fill
        rw [List.flatMap_cons, ih fun r hr => filled r (List.mem_cons_of_mem _ hr), nothing,
          List.length_cons, List.replicate_succ]
        rfl
  have all := empty ([] :: s.rows) fun row there => by
    rcases List.mem_cons.mp there with rfl | there
    · rw [noColumns]
    · exact s.filled row there
  rw [body, noColumns]
  exact all

/-- A section without markers of its own is read as it was written. -/
theorem head_rows (unmarked : s.Unmarked) :
    s.head.rows = .ok (if s.columns = [] then [] else s.rows.map s.row) := by
  rw [Piece.rows, s.head_block unmarked]
  by_cases noColumns : s.columns = []
  · rw [s.body_of_noColumns noColumns, stripped_feeds, if_pos rfl, if_pos noColumns]
    rfl
  · have nonempty : ∀ cells ∈ s.columns :: s.rows, cells ≠ [] := by
      intro cells there
      rcases List.mem_cons.mp there with rfl | there
      · exact noColumns
      · rintro rfl
        exact noColumns (List.eq_nil_of_length_eq_zero (s.filled _ there).symm)
    obtain ⟨middle, quotes⟩ := Csv.joined_quotes (List.cons_ne_nil _ _) nonempty
    have block : stripped (s.body .lf) = Csv.joined (s.columns :: s.rows) := by
      have feeds := Csv.flatMap_record (List.cons_ne_nil s.columns s.rows)
      rw [body, LineEnd.chars, feeds, quotes, stripped_quotes]
    have read : Csv.read fieldSizeLimit (Csv.joined (s.columns :: s.rows)) =
        some (s.columns :: s.rows) := by
      refine Csv.read_joined fun cells there => ⟨nonempty cells there, fun cell hc => ?_⟩
      refine (s.plain cell ?_).2
      rcases List.mem_cons.mp there with rfl | there
      · exact List.mem_append_left _ hc
      · exact List.mem_append_right _ (List.mem_flatten.mpr ⟨cells, there, hc⟩)
    have kept : s.rows.filter (· ≠ []) = s.rows :=
      List.filter_eq_self.mpr fun cells there =>
        decide_eq_true (nonempty cells (List.mem_cons_of_mem _ there))
    rw [block, if_neg (by simp [quotes]), if_neg noColumns, dictReader, read]
    simp only [kept]
    exact congrArg Except.ok (List.map_congr_left fun cells there =>
      s.ofList_rowItems (s.filled cells there))

/-- The rows come back if and only if there is a header to read them by. -/
theorem head_rows_eq_iff (unmarked : s.Unmarked) :
    s.head.rows = .ok (s.rows.map s.row) ↔ s.Headed := by
  rw [s.head_rows unmarked, Except.ok.injEq, Headed]
  by_cases noColumns : s.columns = []
  · rw [if_pos noColumns, eq_comm, List.map_eq_nil_iff]
    simp [noColumns]
  · simp [noColumns]

end Section

/-! ### What a cut loses -/

section Loss

variable {fieldnames raw : List String} {ch : Char}

theorem sum_le_of_subperm {α : Type} {P Q : List α} (w : α → Nat) (sub : P.Subperm Q) :
    (P.map w).sum ≤ (Q.map w).sum := by
  obtain ⟨l, perm, sublist⟩ := sub
  rw [← (perm.map w).sum_eq]
  exact (sublist.map w).sum_le_sum fun _ _ => Nat.zero_le _

/-- Of two lists that are put together, no more occurrences can be counted than each
has. -/
theorem sum_zip_le (as bs : List String) :
    ((as.zip bs).map fun p => p.1.toList.count ch).sum ≤ Csv.occurrences ch as ∧
      ((as.zip bs).map fun p => p.2.toList.count ch).sum ≤ Csv.occurrences ch bs := by
  induction as generalizing bs with
  | nil => exact ⟨Nat.zero_le _, Nat.zero_le _⟩
  | cons a as ih =>
      cases bs with
      | nil => exact ⟨Nat.zero_le _, Nat.zero_le _⟩
      | cons b bs =>
          have rest := ih bs
          simp only [Csv.occurrences, List.zip_cons_cons, List.map_cons, List.sum_cons] at rest ⊢
          omega

namespace Section

variable (s : Section words)

theorem entries_row (cells : List String) (fill : cells.length = s.columns.length) :
    (s.row cells).entries = (s.columns.map some).zip (cells.map .text) := by
  refine Ordered.entries_ofList ?_
  rw [List.map_fst_zip (by simp [fill])]
  exact s.distinct.map (Option.some_injective _)

/-- A dictionary with these columns and cells comes of a header and a record that
have them. -/
theorem row_bounds (ch : Char) {cells : List String} (fill : cells.length = s.columns.length)
    (same : Ordered.ofList (rowItems fieldnames raw) = s.row cells) :
    Csv.occurrences ch s.columns ≤ Csv.occurrences ch fieldnames ∧
      Csv.occurrences ch cells ≤ Csv.occurrences ch raw := by
  have nodup : (s.columns.zip cells).Nodup := by
    refine List.Nodup.of_map Prod.fst ?_
    rw [List.map_fst_zip fill.ge]
    exact s.distinct
  have inside : s.columns.zip cells ⊆ fieldnames.zip raw := by
    rintro ⟨column, cell⟩ there
    have entry : (some column, Cell.text cell) ∈ (s.row cells).entries := by
      rw [s.entries_row cells fill, List.zip_map]
      exact List.mem_map_of_mem (f := Prod.map some Cell.text) there
    rw [← same] at entry
    rcases List.mem_append.mp (Ordered.mem_of_mem_ofList entry) with paired | rest
    · rw [List.zip_map] at paired
      obtain ⟨⟨f, r⟩, hf, eq⟩ := List.mem_map.mp paired
      cases eq
      exact hf
    · split at rest
      · cases List.mem_singleton.mp rest
      · obtain ⟨key, _, eq⟩ := List.mem_map.mp rest
        cases eq
  have sub := nodup.subperm inside
  have columns := sum_le_of_subperm (fun p => p.1.toList.count ch) sub
  have values := sum_le_of_subperm (fun p => p.2.toList.count ch) sub
  have bounds := @sum_zip_le ch fieldnames raw
  have fst : (s.columns.zip cells).map (fun p => p.1.toList.count ch) =
      s.columns.map fun c => c.toList.count ch := by
    conv_rhs => rw [← List.map_fst_zip fill.ge, List.map_map]
    rfl
  have snd : (s.columns.zip cells).map (fun p => p.2.toList.count ch) =
      cells.map fun c => c.toList.count ch := by
    conv_rhs => rw [← List.map_snd_zip fill.le, List.map_map]
    rfl
  rw [fst] at columns
  rw [snd] at values
  exact ⟨columns.trans bounds.1, values.trans bounds.2⟩

/-- Rows that are read as written, all characters of the section were read for. -/
theorem texts_bound (ch : Char) {block : List Char} (nonempty : s.rows ≠ [])
    (read : dictReader block = .ok (s.rows.map s.row)) :
    Csv.occurrences ch s.texts ≤ block.count ch := by
  unfold dictReader at read
  split at read
  · cases read
  · exact absurd (List.map_eq_nil_iff.mp (Except.ok.inj read).symm) nonempty
  · rename_i fieldnames rows records
    have same : ((rows.filter (· ≠ [])).map fun row => Ordered.ofList (rowItems fieldnames row)) =
        s.rows.map s.row := Except.ok.inj read
    have bound := Csv.count_read ch records
    have kept : (rows.filter (· ≠ [])).flatten = rows.flatten := List.flatten_filter_ne_nil
    rw [List.flatten_cons, Csv.occurrences_append, ← kept] at bound
    -- row by row, since a reader that gives the row back has read all of its cells
    have each : ∀ (raws : List (List String)) (cells : List (List String)),
        (∀ row ∈ cells, row.length = s.columns.length) →
        (raws.map fun row => Ordered.ofList (rowItems fieldnames row)) = cells.map s.row →
        (cells ≠ [] → Csv.occurrences ch s.columns ≤ Csv.occurrences ch fieldnames) ∧
          Csv.occurrences ch cells.flatten ≤ Csv.occurrences ch raws.flatten := by
      intro raws cells
      induction cells generalizing raws with
      | nil => exact fun _ _ => ⟨fun more => absurd rfl more, Nat.zero_le _⟩
      | cons first others ih =>
          intro filled same
          cases raws with
          | nil => cases same
          | cons raw raws =>
              obtain ⟨one, rest⟩ := List.cons.inj same
              have here := s.row_bounds ch (filled first List.mem_cons_self) one
              have there := ih raws (fun r hr => filled r (List.mem_cons_of_mem _ hr)) rest
              refine ⟨fun _ => here.1, ?_⟩
              rw [List.flatten_cons, List.flatten_cons, Csv.occurrences_append,
                Csv.occurrences_append]
              exact Nat.add_le_add here.2 there.2
    obtain ⟨header, cells⟩ := each _ _ s.filled same
    have columns := header nonempty
    rw [texts, Csv.occurrences_append]
    omega

/-- The marker brings two of the characters, the cells bring the others. -/
theorem count_render : (s.render .lf).count '#' = 2 + Csv.occurrences '#' s.texts := by
  have name : s.name.toList.count '#' = 0 := by
    rw [List.count_eq_zero]
    intro there
    have word := s.word.2 _ there
    rw [words.hash] at word
    cases word
  have body : ∀ records : List (List String),
      (records.flatMap fun cells => Csv.record cells ++ ['\n']).count '#' =
        Csv.occurrences '#' records.flatten := by
    intro records
    induction records with
    | nil => rfl
    | cons cells others ih =>
        rw [List.flatMap_cons, List.count_append, List.count_append, ih, List.flatten_cons,
          Csv.occurrences_append, Csv.count_record (by decide) (by decide)]
        rfl
  have feed : LineEnd.lf.chars.count '#' = 0 := rfl
  simp only [render, List.count_cons, List.count_append, name, feed, Section.body, texts]
  rw [show LineEnd.lf.chars = ['\n'] from rfl, body, List.flatten_cons]
  simp only [beq_self_eq_true, if_true]
  omega

theorem stripped_sublist (cs : List Char) : (stripped cs).Sublist cs := by
  have trailing : (dropEnd isSpace (cs.dropWhile isSpace)).Sublist (cs.dropWhile isSpace) := by
    unfold dropEnd
    have reversed := (List.dropWhile_sublist (l := (cs.dropWhile isSpace).reverse) isSpace).reverse
    rwa [List.reverse_reverse] at reversed
  exact trailing.trans (List.dropWhile_sublist _)

/-- Where a section is cut, no part of it has all of its hashes. -/
theorem block_bound (cut : s.tail ≠ []) {piece : Piece} (there : piece ∈ s.head :: s.tail) :
    piece.block.count '#' < Csv.occurrences '#' s.texts := by
  have pieces := s.pieces_render
  have two : ∀ p ∈ s.head :: s.tail, 2 ≤ p.text.count '#' ∧
      p.block.count '#' + 2 ≤ p.text.count '#' := by
    intro p hp
    have mem : p ∈ (words.pieces true (s.render .lf)).2 := by
      rw [pieces]
      exact hp
    obtain ⟨rest, text⟩ := Words.hashes_of_mem mem
    have block : p.block.count '#' ≤ rest.count '#' := by
      have sub : (p.text.drop (2 + p.name.length + 1)).Sublist rest := by
        have further : p.text.drop (2 + p.name.length + 1) = rest.drop (p.name.length + 1) := by
          rw [text, Nat.add_assoc, Nat.add_comm 2]
          rfl
        rw [further]
        exact List.drop_sublist _ _
      exact ((stripped_sublist _).trans sub).count_le _
    rw [text, List.count_cons_self, List.count_cons_self]
    omega
  have total := @Words.count_pieces words (s.render .lf) true '#'
  rw [s.count_render, pieces, List.count_nil, Nat.zero_add,
    ((List.perm_cons_erase there).map _).sum_eq, List.map_cons, List.sum_cons] at total
  have others : (s.head :: s.tail).erase piece ≠ [] := by
    intro none
    have length := List.length_erase_of_mem there
    rw [none, List.length_cons] at length
    exact cut (List.eq_nil_of_length_eq_zero length.symm)
  obtain ⟨other, rest, eq⟩ := List.exists_cons_of_ne_nil others
  have inside : other ∈ s.head :: s.tail := List.mem_of_mem_erase (eq ▸ List.mem_cons_self)
  rw [eq, List.map_cons, List.sum_cons] at total
  have here := two piece there
  have more := two other inside
  omega

end Section

end Loss

/-! ### The whole file -/

namespace Export

variable (x : Export words) {e : LineEnd}

/-- The sections of a file are read one after the other. -/
theorem pieces_sections (sections : List (Section words)) :
    words.pieces true (sections.flatMap fun s => s.render .lf) =
      ([], sections.flatMap fun s => s.head :: s.tail) := by
  induction sections with
  | nil => rfl
  | cons s rest ih =>
      have ended : ∃ front, s.render .lf = front ++ ['\n'] := by
        refine ⟨'#' :: '#' :: (s.name.toList ++ '\n' :: Csv.joined (s.columns :: s.rows)), ?_⟩
        have body : s.body .lf = _ := Csv.flatMap_record (List.cons_ne_nil s.columns s.rows)
        simp [Section.render, body, LineEnd.chars]
      obtain ⟨front, eq⟩ := ended
      have first : (words.pieces true (rest.flatMap fun s => s.render .lf)).1 = [] := by rw [ih]
      have here := s.pieces_render
      rw [List.flatMap_cons, eq, List.append_assoc, List.singleton_append,
        Words.pieces_append first, ← eq, here, ih]
      rfl

/-- Of a piece, what the file is read to. -/
def parsed (piece : Piece) : Except Exc (String × List Row) := do
  return (String.ofList piece.name, ← piece.rows)

theorem parsed_eq_ok_iff {piece : Piece} {name : String} {rows : List Row} :
    parsed piece = .ok (name, rows) ↔ String.ofList piece.name = name ∧ piece.rows = .ok rows := by
  unfold parsed
  cases piece.rows with
  | error e => simp [bind, Except.bind]
  | ok rows' => simp [bind, Except.bind, pure, Except.pure]

/-- A file is parsed if every piece is, and the brew log is among them. -/
theorem parse_eq_ok_iff {sections : Sections} :
    parseLegacyCsv words (x.render e) = .ok sections ↔
      ∃ pairs, (x.sections.flatMap fun s => s.head :: s.tail).mapM parsed = .ok pairs ∧
        "Brew_Log" ∈ (Ordered.ofList pairs).keys ∧ sections = Ordered.ofList pairs := by
  have some : (x.sections.flatMap fun s => s.head :: s.tail) ≠ [] := by
    obtain ⟨s, hs, -⟩ := List.mem_map.mp x.brewLog
    intro none
    exact absurd (List.flatMap_eq_nil_iff.mp none s hs) (List.cons_ne_nil _ _)
  unfold parseLegacyCsv
  simp only [x.normalize_render, pieces_sections, some, if_false]
  change (((x.sections.flatMap fun s => s.head :: s.tail).mapM parsed) >>= _) = _ ↔ _
  cases (x.sections.flatMap fun s => s.head :: s.tail).mapM parsed with
  | error e =>
      constructor
      · nofun
      · rintro ⟨_, done, _⟩
        cases done
  | ok pairs =>
      rw [ok_bind]
      by_cases brewed : "Brew_Log" ∈ (Ordered.ofList pairs).keys
      · simp only [brewed, not_true_eq_false, if_false]
        constructor
        · intro done
          exact ⟨pairs, rfl, brewed, (Except.ok.inj done).symm⟩
        · rintro ⟨_, done, _, rfl⟩
          cases done
          rfl
      · simp only [brewed, not_false_eq_true, if_true]
        constructor
        · nofun
        · rintro ⟨_, done, brewed', _⟩
          cases done
          exact absurd brewed' brewed

/-- Sections without markers and with headers come back. -/
theorem mapM_parsed_back {sections : List (Section words)} (unmarked : ∀ s ∈ sections, s.Unmarked)
    (headed : ∀ s ∈ sections, s.Headed) :
    (sections.flatMap fun s => s.head :: s.tail).mapM parsed =
      .ok (sections.map fun s => (s.name, s.rows.map s.row)) := by
  have heads : (sections.flatMap fun s => s.head :: s.tail) = sections.map Section.head := by
    rw [List.map_eq_flatMap]
    exact List.flatMap_congr fun s hs => by rw [s.tail_eq_nil_iff.mpr (unmarked s hs)]
  rw [heads, mapM_eq_ok_iff, List.forall₂_map_left_iff, List.forall₂_map_right_iff,
    List.forall₂_same]
  exact fun s hs => parsed_eq_ok_iff.mpr
    ⟨String.ofList_toList, (s.head_rows_eq_iff (unmarked s hs)).mpr (headed s hs)⟩

/-- Where no text has a marker in it and all rows are under columns, the file is
read as it was written. -/
theorem readsBack_of_unmarked (unmarked : ∀ s ∈ x.sections, s.Unmarked)
    (headed : ∀ s ∈ x.sections, s.Headed) : x.ReadsBack e := by
  have pairs : ((x.sections.map fun s => (s.name, s.rows.map s.row)).map Prod.fst).Nodup := by
    rw [List.map_map]
    exact x.distinct
  have contents : x.contents = Ordered.ofList (x.sections.map fun s => (s.name, s.rows.map s.row)) :=
    Ordered.ext (Ordered.entries_ofList pairs).symm
  refine x.parse_eq_ok_iff.mpr ⟨_, mapM_parsed_back unmarked headed, ?_, contents⟩
  rw [← contents, Ordered.keys, Export.contents, List.map_map]
  exact x.brewLog

/-- Of a name that no later section has, the rows are those of a part of its
section. -/
theorem exists_piece {front back : List (Section words)} {s : Section words}
    {pairs : List (String × List Row)} {rows : List Row}
    (whole : ∀ later ∈ back, later.Unmarked) (new : s.name ∉ back.map Section.name)
    (read : ((front ++ s :: back).flatMap fun s => s.head :: s.tail).mapM parsed = .ok pairs)
    (got : (Ordered.ofList pairs).get s.name = some rows) :
    ∃ piece ∈ s.head :: s.tail, piece.rows = .ok rows := by
  rw [List.flatMap_append, List.flatMap_cons, List.mapM_append] at read
  obtain ⟨before, _, read⟩ := bind_eq_ok read
  obtain ⟨rest, both, done⟩ := bind_eq_ok read
  rw [List.mapM_append] at both
  obtain ⟨own, ours, both⟩ := bind_eq_ok both
  obtain ⟨after, later, both⟩ := bind_eq_ok both
  obtain rfl : own ++ after = rest := Except.ok.inj both
  obtain rfl : before ++ (own ++ after) = pairs := Except.ok.inj done
  rw [Ordered.get_ofList, List.reverse_append, List.reverse_append, List.append_assoc,
    List.lookup_append, List.lookup_append] at got
  -- the later sections are whole and bear other names, so none of their pieces is taken for
  -- this one
  have notLater : after.reverse.lookup s.name = none := by
    rw [List.lookup_eq_none_iff]
    intro pair hp
    obtain ⟨piece, there, made⟩ := from_of_mapM_eq_ok later (List.mem_reverse.mp hp)
    obtain ⟨t, ht, inside⟩ := List.mem_flatMap.mp there
    rw [t.tail_eq_nil_iff.mpr (whole t ht), List.mem_singleton] at inside
    obtain ⟨name, -⟩ := parsed_eq_ok_iff.mp (show parsed piece = .ok (pair.1, pair.2) from made)
    have same : pair.1 = t.name := by
      rw [← name, inside]
      exact String.ofList_toList
    rw [same, bne_iff_ne]
    exact fun eq => new (eq ▸ List.mem_map_of_mem ht)
  -- its own first piece bears the name
  have here : ∃ v, own.reverse.lookup s.name = some v := by
    obtain ⟨pair, hp, made⟩ := mem_of_mapM_eq_ok ours (List.mem_cons_self : s.head ∈ _)
    obtain ⟨name, -⟩ := parsed_eq_ok_iff.mp (show parsed s.head = .ok (pair.1, pair.2) from made)
    have same : pair.1 = s.name := by
      rw [← name]
      exact String.ofList_toList
    by_contra absent
    have missing : own.reverse.lookup s.name = none :=
      Option.eq_none_iff_forall_ne_some.mpr fun v found => absent ⟨v, found⟩
    have other := List.lookup_eq_none_iff.mp missing pair (List.mem_reverse.mpr hp)
    rw [same, bne_self_eq_false] at other
    cases other
  obtain ⟨v, found⟩ := here
  rw [notLater, found] at got
  obtain rfl : v = rows := Option.some.inj got
  obtain ⟨before', after', split, -⟩ := List.lookup_eq_some_iff.mp found
  have there : (s.name, v) ∈ own :=
    List.mem_reverse.mp (split ▸ List.mem_append_right _ List.mem_cons_self)
  obtain ⟨piece, hp, made⟩ := from_of_mapM_eq_ok ours there
  exact ⟨piece, hp, (parsed_eq_ok_iff.mp made).2⟩

/-- No text of the file has a line like a marker, and all rows are under columns. -/
def Whole : Prop := ∀ s ∈ x.sections, s.Unmarked ∧ s.Headed

/-- A header without rows has no line like a marker. -/
def HeadersWhole : Prop := ∀ s ∈ x.sections, s.rows = [] → s.Unmarked

/-- The last of the sections that are not whole. -/
theorem exists_last_broken (headers : x.HeadersWhole) (broken : ¬ x.Whole) :
    ∃ front s back, x.sections = front ++ s :: back ∧ ¬ (s.Unmarked ∧ s.Headed) ∧
      s.rows ≠ [] ∧ ∀ later ∈ back, later.Unmarked := by
  have last : ∀ sections : List (Section words), (¬ ∀ s ∈ sections, s.Unmarked ∧ s.Headed) →
      ∃ front s back, sections = front ++ s :: back ∧ ¬ (s.Unmarked ∧ s.Headed) ∧
        ∀ later ∈ back, later.Unmarked ∧ later.Headed := by
    intro sections
    induction sections with
    | nil => exact fun broken => absurd (List.forall_mem_nil _) broken
    | cons s rest ih =>
        intro broken
        by_cases others : ∀ later ∈ rest, later.Unmarked ∧ later.Headed
        · exact ⟨[], s, rest, rfl, fun here => broken (List.forall_mem_cons.mpr ⟨here, others⟩),
            others⟩
        · obtain ⟨front, t, back, rfl, bad, good⟩ := ih others
          exact ⟨s :: front, t, back, rfl, bad, good⟩
  obtain ⟨front, s, back, split, bad, good⟩ := last x.sections broken
  have there : s ∈ x.sections := split ▸ List.mem_append_right _ List.mem_cons_self
  refine ⟨front, s, back, split, bad, fun noRows => ?_, fun later hl => (good later hl).1⟩
  exact bad ⟨headers s there noRows, fun rows => absurd noRows rows⟩

/-- What reads back is whole. The last section that is not would have to come from a
piece that a marker ended, which has fewer hashes than the section, or from rows under
no columns. -/
theorem whole_of_readsBack (headers : x.HeadersWhole) (back : x.ReadsBack e) : x.Whole := by
  by_contra broken
  obtain ⟨front, s, later, split, bad, rows, good⟩ := x.exists_last_broken headers broken
  obtain ⟨pairs, read, -, contents⟩ := x.parse_eq_ok_iff.mp back
  have there : s ∈ x.sections := split ▸ List.mem_append_right _ List.mem_cons_self
  have got : (Ordered.ofList pairs).get s.name = some (s.rows.map s.row) := by
    rw [← contents, Ordered.get_eq_some_iff]
    exact List.mem_map_of_mem (f := fun s => (s.name, s.rows.map s.row)) there
  have new : s.name ∉ later.map Section.name := by
    have distinct := x.distinct
    rw [split, List.map_append, List.map_cons] at distinct
    exact (List.nodup_cons.mp (List.nodup_append.mp distinct).2.1).1
  rw [split] at read
  obtain ⟨piece, hp, made⟩ := exists_piece good new read got
  by_cases whole : s.tail = []
  · -- the section is read in one piece, and its rows are under no columns
    have unmarked := s.tail_eq_nil_iff.mp whole
    rw [whole, List.mem_singleton] at hp
    subst hp
    exact bad ⟨unmarked, (s.head_rows_eq_iff unmarked).mp made⟩
  · -- the hashes of the marker inside are missing from every piece
    have short := s.block_bound whole hp
    unfold Piece.rows at made
    split at made
    · exact absurd (List.map_eq_nil_iff.mp (Except.ok.inj made).symm) rows
    · have long := s.texts_bound '#' rows made
      omega

/-- A file that is whole is read as it was written; and no other file is, except that a
marker in a header without rows may do no harm. It is whole if no text in it has a line
like a section marker and all rows are under columns: the sections are split before the
file is read as CSV, so that quotes do not protect such a line. -/
theorem reads_back_iff (e : LineEnd) :
    (x.Whole → x.ReadsBack e) ∧ (x.HeadersWhole → (x.ReadsBack e ↔ x.Whole)) := by
  have back : x.Whole → x.ReadsBack e := fun whole =>
    x.readsBack_of_unmarked (fun s hs => (whole s hs).1) fun s hs => (whole s hs).2
  exact ⟨back, fun headers => ⟨x.whole_of_readsBack headers, back⟩⟩

end Export

/-! ### A cell that cuts the file -/

namespace Sample

/-- The words of ASCII: letters, digits and the underscore. -/
def asciiWords : Words where
  isWord c := c.isAlphanum || c == '_'
  lineFeed := by decide
  carriageReturn := by decide
  quote := by decide
  hash := by decide

/-- One shot with notes of two lines. -/
def notedShots : Export asciiWords where
  sections := [{
    name := "Brew_Log"
    columns := ["Shot_ID", "Notes"]
    rows := [["SHOT-1", "sweet\n##Good"]]
    word := ⟨by decide, List.all_eq_true.mp (by decide)⟩
    distinct := by decide
    named := by decide
    filled := by decide
    plain := by decide }]
  distinct := by decide
  brewLog := by decide

/-- The second line becomes a section, and the notes end before it. -/
theorem noted_shots_cut : ¬ notedShots.ReadsBack .crlf := by
  unfold Export.ReadsBack
  decide +kernel

/-- No shots, and a column with a line like the marker of its own section. -/
def noShots : Export asciiWords where
  sections := [{
    name := "Brew_Log"
    columns := ["Notes\n##Brew_Log"]
    rows := []
    word := ⟨by decide, List.all_eq_true.mp (by decide)⟩
    distinct := by decide
    named := by decide
    filled := by decide
    plain := by decide }]
  distinct := by decide
  brewLog := by decide

example : noShots.ReadsBack .lf := by
  unfold Export.ReadsBack
  decide +kernel

end Sample

end EspressoLogs.Importer
