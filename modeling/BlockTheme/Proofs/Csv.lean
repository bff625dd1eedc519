import BlockTheme.Csv
import BlockTheme.Proofs.Text.Words
import Mathlib.Algebra.Group.Nat.Defs

/-!
# Reading tables

A table is read back as it was written: a line with the names of the columns, and the cells of each
row (`Csv.read_ofRows`). So the cell of a row in a column of its own is there, and it depends on the
value and on the type of the column alone (`Csv.cellAt?_ofRows`).
-/

namespace BlockTheme.Csv

/-! ## A reader -/

/-- The mark around fields that need it. -/
def quote : Char := Char.ofNat 34

/-- Where a reader stands: at the beginning of a field, in a field without quotes, between quotes,
or behind a quote that ends the field unless another one follows. -/
inductive Place where
  | start
  | plain
  | quoted
  | closing
  deriving DecidableEq

/-- What was read of a table: whole lines, the first fields of the next one, and a part of one more
field. -/
structure Reader where
  place : Place
  part : List Char
  fields : List String
  lines : List (List String)

namespace Reader

/-- The reader after the end of a field. -/
def endField (r : Reader) : Reader := ⟨.start, [], r.fields ++ [String.ofList r.part], r.lines⟩

/-- The reader after the end of a line. -/
def endLine (r : Reader) : Reader := ⟨.start, [], [], r.lines ++ [r.endField.fields]⟩

/-- Reads a character that does not stand between quotes. -/
def plain (r : Reader) (c : Char) : Reader :=
  if c = ',' then r.endField
  else if c = '\n' then r.endLine
  else { r with place := .plain, part := r.part ++ [c] }

/-- The reader after one more character. -/
def step (r : Reader) (c : Char) : Reader :=
  match r.place with
  | .start => if c = quote then { r with place := .quoted } else r.plain c
  | .plain => r.plain c
  | .quoted =>
    if c = quote then { r with place := .closing } else { r with part := r.part ++ [c] }
  -- of two quotes between quotes the second one is a character
  | .closing =>
    if c = quote then { r with place := .quoted, part := r.part ++ [c] } else r.plain c

end Reader

/-- The lines of a table, and the fields of each. -/
def read (table : String) : List (List String) :=
  let r := table.toList.foldl Reader.step ⟨.start, [], [], []⟩
  -- the last line may lack its end
  if r.place = .start ∧ r.fields = [] then r.lines else r.endLine.lines

/-! ## Reading what was written -/

namespace Reader

variable {place : Place} {part : List Char} {fields : List String} {lines : List (List String)}

theorem step_comma (h : place ≠ .quoted) :
    step ⟨place, part, fields, lines⟩ ','
      = ⟨.start, [], fields ++ [String.ofList part], lines⟩ := by
  cases place with
  | quoted => exact absurd rfl h
  | start | plain | closing => rfl

theorem step_lineEnd (h : place ≠ .quoted) :
    step ⟨place, part, fields, lines⟩ '\n'
      = ⟨.start, [], [], lines ++ [fields ++ [String.ofList part]]⟩ := by
  cases place with
  | quoted => exact absurd rfl h
  | start | plain | closing => rfl

/-- Characters that mean nothing to the reader are the field. The reader ends in a state in which
the next separator closes the field. -/
theorem foldl_plain (part : List Char) {s : List Char} (h : ∀ c ∈ s, c ≠ ',' ∧ c ≠ '\n' ∧ c ≠ quote)
    (hplace : place = .start ∨ place = .plain) :
    ∃ after, after ≠ .quoted
      ∧ s.foldl step ⟨place, part, fields, lines⟩ = ⟨after, part ++ s, fields, lines⟩ := by
  induction s generalizing place part with
  | nil =>
    refine ⟨place, ?_, by simp⟩
    rintro rfl
    simp at hplace
  | cons c rest ih =>
    obtain ⟨⟨hcomma, hend, hquote⟩, hrest⟩ := List.forall_mem_cons.1 h
    have hstep : step ⟨place, part, fields, lines⟩ c = ⟨.plain, part ++ [c], fields, lines⟩ := by
      rcases hplace with rfl | rfl <;> simp [step, plain, hcomma, hend, hquote]
    obtain ⟨after, hafter, hread⟩ := ih (part ++ [c]) hrest (.inr rfl)
    exact ⟨after, hafter, by rw [List.foldl_cons, hstep, hread, List.append_assoc]; rfl⟩

/-- Between quotes all characters are the field, and a quote is written twice. After the first of
two quotes the reader does not know yet whether the field has ended; the second one takes it back.
-/
theorem foldl_quoted (part s : List Char) :
    (s.flatMap fun c => if c = quote then [quote, quote] else [c]).foldl step
        ⟨.quoted, part, fields, lines⟩
      = ⟨.quoted, part ++ s, fields, lines⟩ := by
  induction s generalizing part with
  | nil => simp
  | cons c rest ih =>
    have hstep : (if c = quote then [quote, quote] else [c]).foldl step
        ⟨.quoted, part, fields, lines⟩ = ⟨.quoted, part ++ [c], fields, lines⟩ := by
      split
      · next hquote => simp [step, hquote]
      · next hquote => simp [step, hquote]
    rw [List.flatMap_cons, List.foldl_append, hstep, ih, List.append_assoc]
    rfl

/-- A field is read as the text that was written, with quotes around it or without. Afterwards the
reader is not inside quotes. -/
theorem foldl_field (fields : List String) (lines : List (List String)) (s : String) :
    ∃ after, after ≠ .quoted
      ∧ (field s).foldl step ⟨.start, [], fields, lines⟩ = ⟨after, s.toList, fields, lines⟩ := by
  unfold field
  dsimp only
  split
  -- a field in quotes ends with its quote
  · refine ⟨.closing, by decide, ?_⟩
    rw [List.cons_append, List.foldl_cons, List.foldl_append]
    exact congrArg (List.foldl step · [quote]) (foldl_quoted [] s.toList)
  -- any other one has no character that needs them
  · next hplain =>
    refine foldl_plain [] (fun c hc => ?_) (.inl rfl)
    simp only [needsQuotes, List.any_eq_true, not_exists, not_and] at hplain
    have hchar := hplain c hc
    simp only [Bool.or_eq_true, beq_iff_eq, not_or] at hchar
    obtain ⟨⟨hcomma, hend⟩, hquote⟩ := hchar
    refine ⟨hcomma, hend, ?_⟩
    rintro rfl
    exact hquote rfl

/-- The fields of a line are read one after the other, by induction on the fields with those read so
far. The line break adds the line to the table. -/
theorem foldl_fields (fields : List String) (first : String) (rest : List String) :
    ((((first :: rest).map field).intersperse [',']).flatten ++ ['\n']).foldl step
        ⟨.start, [], fields, lines⟩
      = ⟨.start, [], [], lines ++ [fields ++ first :: rest]⟩ := by
  -- a field ends with what stands behind it, so the induction is on the fields behind the first one
  induction rest generalizing first fields with
  | nil =>
    obtain ⟨after, hafter, hread⟩ := foldl_field fields lines first
    simp [hread, step_lineEnd hafter]
  | cons second rest ih =>
    obtain ⟨after, hafter, hread⟩ := foldl_field fields lines first
    have hrest := ih (fields ++ [first]) second
    simp only [List.map_cons] at hrest
    simp only [List.map_cons, List.intersperse_cons_cons, List.flatten_cons, List.append_assoc,
      List.foldl_append, hread, List.foldl_cons, List.foldl_nil, step_comma hafter,
      String.ofList_toList]
    simpa only [List.foldl_append, List.foldl_cons, List.foldl_nil, List.append_assoc,
      List.singleton_append] using hrest

theorem foldl_line {row : List String} (h : row ≠ []) :
    (line row).foldl step ⟨.start, [], [], lines⟩ = ⟨.start, [], [], lines ++ [row]⟩ := by
  obtain ⟨first, rest, rfl⟩ := List.exists_cons_of_ne_nil h
  unfold line
  split
  · next hempty =>
    rw [hempty]
    rfl
  · exact foldl_fields [] first rest

theorem foldl_lines {table : List (List String)} (h : ∀ row ∈ table, row ≠ []) :
    (table.flatMap line).foldl step ⟨.start, [], [], lines⟩
      = ⟨.start, [], [], lines ++ table⟩ := by
  induction table generalizing lines with
  | nil => simp
  | cons row rest ih =>
    obtain ⟨hrow, hrest⟩ := List.forall_mem_cons.1 h
    rw [List.flatMap_cons, List.foldl_append, foldl_line hrow, ih hrest, List.append_assoc]
    rfl

end Reader

/-- A table is read back from its lines, if each of them has a field: an empty line could not be
told from a line with one empty field. -/
theorem read_lines {table : List (List String)} (h : ∀ row ∈ table, row ≠ []) :
    read (String.ofList (table.flatMap line)) = table := by
  rw [read, String.toList_ofList, Reader.foldl_lines h]
  simp

/-! ## Cells -/

variable {rows : List Fields} {row : Fields} {column : String}

/-- What is written of a row in a column. -/
def cellIn (rows : List Fields) (row : Fields) (column : String) : String :=
  cellText (isFloating (rows.map fun row => cell? row column)) (cell? row column)

/-- The texts of a row, for the columns that the rows have. -/
def cells (rows : List Fields) (row : Fields) : List String :=
  (columns rows).map (cellIn rows row)

/-- A table is a line of columns and a line for every row, which is the form that `read_table`
reads. -/
theorem ofRows_eq (rows : List Fields) :
    ofRows rows = String.ofList ((columns rows :: rows.map (cells rows)).flatMap line) := by
  have hopen : ofRows rows = String.ofList (line (columns rows) ++ (rows.map fun row =>
      line (((columns rows).zip ((columns rows).map fun name =>
        isFloating (rows.map fun row => cell? row name))).map
          fun entry => cellText entry.2 (cell? row entry.1))).flatten) := rfl
  have hzip : ∀ f : String → Bool, (columns rows).zip ((columns rows).map f)
      = (columns rows).map fun name => (name, f name) := by
    intro f
    simpa using List.zip_map' (f := id) (g := f) (l := columns rows)
  rw [hopen, List.flatMap_cons, List.flatMap_map, List.flatMap_def]
  simp only [hzip, List.map_map]
  rfl

/-- **A table is read back**, if it has a column at all. The reader is a small automaton over the
characters, and the proof follows it through fields, lines and the table. -/
theorem read_ofRows (h : columns rows ≠ []) :
    read (ofRows rows) = columns rows :: rows.map (cells rows) := by
  rw [ofRows_eq]
  refine read_lines fun line hline => ?_
  rcases List.mem_cons.1 hline with rfl | hrow
  · exact h
  · obtain ⟨row, -, rfl⟩ := List.mem_map.1 hrow
    simpa [cells] using h

example : read "a,\"b,\"\"c\"\n1,\n" = [["a", "b,\"c"], ["1", ""]] := by rfl

/-- The cell of a row of a table, by the name of its column. -/
def cellAt? (table : String) (i : Nat) (column : String) : Option String :=
  match read table with
  | [] => none
  | names :: rows => rows[i]?.bind fun row => (names.zip row).lookup column

/-- The text in a column is the one that was written for this column. -/
theorem lookup_zip_map {names : List String} (f : String → String) (h : column ∈ names) :
    (names.zip (names.map f)).lookup column = some (f column) := by
  induction names with
  | nil => cases h
  | cons name rest ih =>
    rw [List.map_cons, List.zip_cons_cons, List.lookup_cons]
    split
    · next heq => rw [beq_iff_eq.1 heq]
    · next hne => exact ih ((List.mem_cons.1 h).resolve_left (beq_eq_false_iff_ne.1 hne))

/-- **The cell of a row in one of its columns is there.** It depends on the value, and on the other
rows only as far as the type of the column does. -/
theorem cellAt?_ofRows {i : Nat} (hrow : rows[i]? = some row) (hcolumn : column ∈ row.keys) :
    cellAt? (ofRows rows) i column = some (cellIn rows row column) := by
  have hmem : column ∈ columns rows :=
    Text.mem_distinct.2 (List.mem_flatMap.2 ⟨row, List.mem_of_getElem? hrow, hcolumn⟩)
  rw [cellAt?, read_ofRows (List.ne_nil_of_mem hmem)]
  simp only [List.getElem?_map, hrow, Option.map_some, Option.bind_some]
  exact lookup_zip_map _ hmem

/-! ## Types of columns -/

theorem cell?_eq_nat {n : Nat} :
    cell? row column = some (.nat n) ↔ row.get? column = some (.nat n) := by
  unfold cell?
  split
  · next hnone => simp [hnone]
  · next hnull => simp [hnull, Json.nat]
  · next hnan => simp [hnan, Json.nat]
  · next hvalue => rw [hvalue]

/-- Counts are numbers as long as they fit into a machine word. -/
theorem isNumber_nat {n : Nat} : isNumber (.nat n) = true ↔ n < 2 ^ 64 := by
  have hbound : Nat.pow 2 64 = 2 ^ 64 := rfl
  simp only [Json.nat, isNumber, hbound, Bool.and_eq_true, decide_eq_true_eq]
  omega

/-- Floating-point numbers take the place of the integers in a column of counts if a cell is empty,
unless a count has more than 64 bits. -/
theorem isFloating_counts {cells : List (Option Json)}
    (h : ∀ cell ∈ cells, cell = none ∨ ∃ n : Nat, cell = some (.nat n)) :
    isFloating cells = true
      ↔ none ∈ cells ∧ ∀ n : Nat, some (.nat n) ∈ cells → n < 2 ^ 64 := by
  have hcounts : ∀ {v}, some v ∈ cells → ∃ n : Nat, v = .nat n := fun hv =>
    (h _ hv).elim nofun fun ⟨n, hn⟩ => ⟨n, Option.some.inj hn⟩
  -- a count is a number of the table as long as 64 bits hold it
  have hnumbers : (cells.filterMap id).all isNumber = true
      ↔ ∀ n : Nat, some (.nat n) ∈ cells → n < 2 ^ 64 := by
    simp only [List.all_eq_true, List.mem_filterMap, id, exists_eq_right]
    constructor
    · exact fun hall n hn => isNumber_nat.1 (hall _ hn)
    · intro hall v hv
      obtain ⟨n, rfl⟩ := hcounts hv
      exact isNumber_nat.2 (hall n hv)
  -- no count is negative, so the signed range does not matter
  have hnegative : (cells.filterMap id).any isNegative = false := by
    simp only [List.any_eq_false, List.mem_filterMap, id, exists_eq_right]
    intro v hv
    obtain ⟨n, rfl⟩ := hcounts hv
    simp [Json.nat, isNegative]
  -- only a missing cell keeps a column of counts from being one of integers
  have hintegers : cells.all (fun cell => (cell.map isInteger).getD false) = false
      ↔ none ∈ cells := by
    simp only [List.all_eq_false]
    constructor
    · rintro ⟨cell, hcell, hvalue⟩
      rcases h cell hcell with rfl | ⟨n, rfl⟩
      · exact hcell
      · exact absurd rfl hvalue
    · exact fun hnone => ⟨none, hnone, by simp⟩
  rw [isFloating, hnegative, Bool.and_false, Bool.not_false, Bool.and_true, Bool.and_eq_true,
    Bool.not_eq_true', hnumbers, hintegers, and_comm]

end BlockTheme.Csv
