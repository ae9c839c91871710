import Traceability.Proofs.Line
import Traceability.Proofs.Outline.Content
import Traceability.Proofs.Path
import Traceability.Rule.Conformance

/-!
# Tables as they are written

A table is written as rows of cells between bars, with a row of lines below its header. It is read back
cell by cell and row by row, but for rows that look like such a row of lines themselves, wherever they
stand.
-/
namespace Traceability

namespace Outline

variable {cell : Text} {row header : List Text} {rows : List (List Text)}

/-! ## Rows -/

/-- Whether a text can stand in a cell: within a line, without bars, and without blanks at its ends. -/
structure IsCell (cell : Text) : Prop where
  unbroken : Text.Unbroken cell
  unbarred : '|' ∉ cell
  start : ∀ c ∈ cell.head?, Text.isBlank c = false
  stop : ∀ c ∈ cell.getLast?, Text.isBlank c = false

instance : DecidablePred IsCell := fun cell =>
  -- The instance found for all characters of an option would go through all characters there are.
  have (c? : Option Char) : Decidable (∀ c ∈ c?, Text.isBlank c = false) :=
    Option.decidableForallMem _
  decidable_of_iff (Text.Unbroken cell ∧ '|' ∉ cell ∧
      (∀ c ∈ cell.head?, Text.isBlank c = false) ∧ ∀ c ∈ cell.getLast?, Text.isBlank c = false)
    ⟨fun ⟨unbroken, unbarred, start, stop⟩ => ⟨unbroken, unbarred, start, stop⟩,
      fun fits => ⟨fits.unbroken, fits.unbarred, fits.start, fits.stop⟩⟩

/-- Whether cells can stand in a row. -/
def IsWritable (row : List Text) : Prop := row ≠ [] ∧ ∀ cell ∈ row, IsCell cell

instance : DecidablePred IsWritable := fun row =>
  inferInstanceAs (Decidable (row ≠ [] ∧ ∀ cell ∈ row, IsCell cell))

/-- A row as it is written: its cells between bars, with a blank at either end of each. -/
def writtenRow (row : List Text) : Text := "| " ++ Text.join " | " row ++ " |"

def padded (cell : Text) : Text := ' ' :: (cell ++ [' '])

theorem IsCell.trim_padded (fits : IsCell cell) : Text.trim (padded cell) = cell := by
  have front : Text.trimStart (padded cell) = Text.trimStart (cell ++ [' ']) := rfl
  rw [Text.trim, front]
  by_cases empty : cell = []
  · rw [empty]
    rfl
  · have start : ∀ c ∈ (cell ++ [' ']).head?, Text.isBlank c = false := by
      rw [List.head?_append_of_ne_nil _ empty]
      exact fits.start
    have kept := Text.trimStart_eq (List.forall_mem_nil _) start
    rw [List.nil_append] at kept
    rw [kept]
    exact Text.dropEndWhile_append (List.forall_mem_singleton.mpr rfl) fits.stop

theorem join_padded (filled : row ≠ []) :
    Text.join ['|'] (row.map padded) = ' ' :: (Text.join " | " row ++ [' ']) := by
  induction row with
  | nil => exact absurd rfl filled
  | cons cell rest ih =>
    cases rest with
    | nil => rfl
    | cons next rest =>
      rw [List.map_cons, List.map_cons, Text.join_cons_cons, ← List.map_cons,
        ih (List.cons_ne_nil _ _), Text.join_cons_cons, padded]
      simp

theorem writtenRow_eq (row : List Text) :
    writtenRow row = '|' :: ((' ' :: (Text.join " | " row ++ [' '])) ++ ['|']) := by
  simp [writtenRow]

theorem trim_writtenRow (row : List Text) : Text.trim (writtenRow row) = writtenRow row := by
  have bar : Text.isBlank '|' = false := by decide
  rw [writtenRow_eq, Text.trim, Text.trimStart, List.dropWhile_cons_of_neg (by simp [bar]),
    ← List.cons_append]
  have kept := @Text.dropEndWhile_append
    ('|' :: (' ' :: (Text.join " | " row ++ [' ']) ++ ['|'])) Text.isBlank []
    (List.forall_mem_nil _) (by
      rw [← List.cons_append, List.getLast?_concat]
      rintro c ⟨⟩
      exact bar)
  rwa [List.append_nil] at kept

theorem isRow_writtenRow (row : List Text) : isRow (writtenRow row) = true := by
  rw [isRow, trim_writtenRow, writtenRow_eq, ← List.cons_append, List.getLast?_concat]
  simp

theorem isFence_writtenRow (row : List Text) : isFence (writtenRow row) = false := by
  rw [writtenRow_eq]
  rfl

/-- A row gives its cells back. -/
theorem cells_writtenRow (writable : IsWritable row) : cells (writtenRow row) = row := by
  obtain ⟨filled, fits⟩ := writable
  have inner : Text.dropEndWhile (· = '|') ((writtenRow row).dropWhile (· = '|')) =
      Text.join ['|'] (row.map padded) := by
    rw [join_padded filled, writtenRow_eq, List.dropWhile_cons_of_pos (by simp),
      List.cons_append, List.dropWhile_cons_of_neg (by simp), ← List.cons_append]
    refine Text.dropEndWhile_append (List.forall_mem_singleton.mpr (by simp)) ?_
    rw [← List.cons_append, List.getLast?_concat]
    rintro c ⟨⟩
    simp
  have free : ∀ piece ∈ row.map padded, '|' ∉ piece := by
    refine List.forall_mem_map.mpr fun cell member => ?_
    simp [padded, (fits cell member).unbarred]
  rw [cells, trim_writtenRow, inner, Text.splitOn_join (by simpa using filled) free, List.map_map]
  exact (List.map_congr_left fun cell member => (fits cell member).trim_padded).trans row.map_id

/-! ## Rows of lines -/

/-- Whether a cell is a line: hyphens, with or without a colon at either end. -/
def IsLine (cell : Text) : Prop :=
  ∃ left right n, cell = left ++ (List.replicate (n + 1) '-' ++ right) ∧
    (left = [] ∨ left = [':']) ∧ (right = [] ∨ right = [':'])

/-- Whether a row looks as if it divided others: its filled cells are lines, and there are some. -/
def Divides (row : List Text) : Prop :=
  (∃ cell ∈ row, cell ≠ []) ∧ ∀ cell ∈ row, cell ≠ [] → IsLine cell

theorem hyphens_iff {body : Text} :
    (body.head? = some '-' && (body.dropWhile (· = '-') = [] ||
      body.dropWhile (· = '-') = [':'])) = true ↔
    ∃ right n, body = List.replicate (n + 1) '-' ++ right ∧ (right = [] ∨ right = [':']) := by
  simp only [Bool.and_eq_true, Bool.or_eq_true, decide_eq_true_eq]
  constructor
  · rintro ⟨first, tail⟩
    obtain ⟨more, rfl⟩ := List.head?_eq_some_iff.mp first
    refine ⟨_, (more.takeWhile (· = '-')).length, ?_, tail⟩
    have hyphens : more.takeWhile (· = '-') =
        List.replicate (more.takeWhile (· = '-')).length '-' := by
      refine List.eq_replicate_iff.mpr ⟨rfl, fun c member => ?_⟩
      simpa using List.mem_takeWhile_imp member
    rw [List.replicate_succ, ← hyphens, List.dropWhile_cons_of_pos (by simp), List.cons_append,
      List.takeWhile_append_dropWhile]
  · rintro ⟨right, n, rfl, tail⟩
    refine ⟨by simp [List.replicate_succ], ?_⟩
    rw [List.dropWhile_append_of_pos (by simp)]
    rcases tail with rfl | rfl <;> simp

theorem isDivider_iff : isDivider cell = true ↔ IsLine cell := by
  rw [isDivider.eq_def]
  refine Iff.trans hyphens_iff ?_
  split
  · next rest =>
    constructor
    · rintro ⟨right, n, rfl, tail⟩
      exact ⟨[':'], right, n, rfl, .inr rfl, tail⟩
    · rintro ⟨left, right, n, shape, rfl | rfl, tail⟩
      · cases shape
      · exact ⟨right, n, List.tail_eq_of_cons_eq shape, tail⟩
  · next other =>
    constructor
    · rintro ⟨right, n, shape, tail⟩
      exact ⟨[], right, n, shape, .inl rfl, tail⟩
    · rintro ⟨left, right, n, shape, rfl | rfl, tail⟩
      · exact ⟨right, n, shape, tail⟩
      · exact absurd shape (other _)

theorem isDelimiter_iff : isDelimiter row = true ↔ Divides row := by
  have some : row.filter (· ≠ []) ≠ [] ↔ ∃ cell ∈ row, cell ≠ [] := by
    simp [List.filter_eq_nil_iff]
  have lines : (row.filter (· ≠ [])).all isDivider = true ↔
      ∀ cell ∈ row, cell ≠ [] → IsLine cell := by
    simp only [List.all_eq_true, List.mem_filter, decide_eq_true_eq, and_imp, isDivider_iff]
  rw [isDelimiter, Bool.and_eq_true, decide_eq_true_eq, some, lines, Divides]

instance : DecidablePred Divides := fun _ => decidable_of_iff _ isDelimiter_iff

/-! ## Tables -/

/-- The lines of a table as it is written: the header, a row of lines, and the rows. -/
def writtenTable (header : List Text) (rows : List (List Text)) : List Text :=
  writtenRow header :: writtenRow (header.map fun _ => "---") :: rows.map writtenRow

theorem isWritable_lines (filled : header ≠ []) :
    IsWritable (header.map fun _ => ("---" : Text)) := by
  refine ⟨by simpa using filled, List.forall_mem_map.mpr fun _ _ => ?_⟩
  decide

theorem divides_lines (filled : header ≠ []) : Divides (header.map fun _ => ("---" : Text)) := by
  obtain ⟨first, rest, rfl⟩ := List.exists_cons_of_ne_nil filled
  refine ⟨⟨"---", List.mem_cons_self, by decide⟩, List.forall_mem_map.mpr fun _ _ _ => ?_⟩
  exact ⟨[], [], 2, rfl, .inl rfl, .inl rfl⟩

/-- Rows behind those of a block go on with it. -/
theorem tablesFrom_rows (block : List (List Text)) (writable : ∀ row ∈ rows, IsWritable row) :
    tablesFrom false block (rows.map writtenRow) = (tableOf? (block.reverse ++ rows)).toList := by
  induction rows generalizing block with
  | nil => rw [List.append_nil]; rfl
  | cons row rest ih =>
    obtain ⟨first, writable⟩ := List.forall_mem_cons.mp writable
    have goesOn : (!false && isRow (writtenRow row)) = true := by rw [isRow_writtenRow]; rfl
    rw [List.map_cons, tablesFrom, if_neg (by simp [isFence_writtenRow]), if_pos goesOn,
      cells_writtenRow first, ih _ writable, List.reverse_cons, List.append_assoc,
      List.singleton_append]

theorem tablesIn_writtenTable (headed : IsWritable header)
    (writable : ∀ row ∈ rows, IsWritable row) :
    tablesIn (writtenTable header rows) = [⟨header, rows.filter fun row => ¬ Divides row⟩] := by
  have all : ∀ row ∈ header :: header.map (fun _ => ("---" : Text)) :: rows, IsWritable row :=
    List.forall_mem_cons.mpr ⟨headed, List.forall_mem_cons.mpr
      ⟨isWritable_lines headed.1, writable⟩⟩
  have divides (row : List Text) : (!isDelimiter row) = decide (¬ Divides row) := by
    simp [← isDelimiter_iff]
  have lines := tablesFrom_rows [] all
  rw [List.map_cons, List.map_cons, List.reverse_nil, List.nil_append, tableOf?] at lines
  simp only [divides] at lines
  rw [List.filter_cons_of_neg (by simpa using divides_lines headed.1)] at lines
  exact lines

/-! ## Sections with a table -/

variable {s : Section} {t : Table} {others : List Table} {columns : List Text}

theorem tables_eq (s : Section) :
    s.tables = tablesIn s.content ++ s.children.flatMap Section.tables := by
  rw [Section.tables, walk_eq, List.flatMap_cons, walkAll_eq_flatMap, List.flatMap_assoc]
  rfl

/-- A first table with the columns that are asked for is the one whose rows are counted. -/
theorem judgeTable_eq_nil_iff (tables : s.tables = t :: others)
    (named : ∀ column ∈ columns, column ∈ t.header) (ctx : Conformance.Context) (least : Nat)
    (name : Option Text) :
    Conformance.judgeTable ctx s columns least name = [] ↔ least ≤ t.rows.length := by
  have has : Conformance.hasColumns columns t = true := by simpa [Conformance.hasColumns] using named
  rw [Conformance.judgeTable, tables]
  dsimp only
  rw [List.find?_cons_of_pos has]
  dsimp only
  split
  · next few => simpa using few
  · next enough => simpa using enough

/-- A table is read back as it is written, but for the rows that look as if they divided others, and
the rows that are read are those that count. -/
theorem tables_written (headed : IsWritable header) (writable : ∀ row ∈ rows, IsWritable row)
    (content : s.content = writtenTable header rows) :
    s.tables = ⟨header, rows.filter fun row => ¬ Divides row⟩ :: s.children.flatMap Section.tables ∧
    ∀ ctx columns least name, (∀ column ∈ columns, column ∈ header) →
      (Conformance.judgeTable ctx s columns least name = [] ↔
        least ≤ (rows.filter fun row => ¬ Divides row).length) := by
  have read := tables_eq s
  rw [content, tablesIn_writtenTable headed writable, List.singleton_append] at read
  exact ⟨read, fun ctx columns least name named => judgeTable_eq_nil_iff read named ctx least name⟩

/-- Rows with an empty cell, with punctuation, and with hyphens alone. -/
def inputRows : List (List Text) := [["path", "str"], ["", ":"], ["-", ":--"], ["", ""]]

def inputs : Section := ⟨"Inputs", 2, 1, writtenTable ["Name", "Type"] inputRows, []⟩

theorem tables_written_inputs :
    IsWritable ["Name", "Type"] ∧ (∀ row ∈ inputRows, IsWritable row) ∧
    inputs.tables = [⟨["Name", "Type"], inputRows.filter fun row => ¬ Divides row⟩] ∧
    (inputRows.filter fun row => ¬ Divides row) =
      ([["path", "str"], ["", ":"], ["", ""]] : List (List Text)) ∧
    Conformance.judgeTable ⟨"a.md", "r.schema.yaml"⟩ inputs ["Type"] 3 none = [] := by
  have headed : IsWritable ["Name", "Type"] := by decide +kernel
  have writable : ∀ row ∈ inputRows, IsWritable row := by decide +kernel
  obtain ⟨read, count⟩ := @tables_written _ _ inputs headed writable rfl
  exact ⟨headed, writable, read, by decide +kernel,
    (count _ _ _ _ (by decide +kernel)).mpr (by decide +kernel)⟩

/-- A row of hyphens is lost wherever it stands. -/
theorem written_row_lost :
    ¬ ∀ (header : List Text) (rows : List (List Text)) (s : Section), IsWritable header →
      (∀ cell ∈ header, cell ≠ []) →
      (∀ row ∈ rows, IsWritable row ∧ row.length = header.length) →
      s.content = writtenTable header rows → s.children = [] → s.tables = [⟨header, rows⟩] := by
  intro always
  have read := always ["a"] [["-"]] ⟨"H", 1, 1, writtenTable ["a"] [["-"]], []⟩ (by decide +kernel)
    (by decide +kernel) (by decide +kernel) rfl rfl
  exact absurd read (by decide +kernel)

end Outline

end Traceability
