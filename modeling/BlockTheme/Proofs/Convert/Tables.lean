import BlockTheme.Proofs.Convert.Reports
import BlockTheme.Proofs.Csv
import BlockTheme.Proofs.Json.Texts

/-!
# Tables of batches

The rows of a batch are written as one table. A row whose document failed has no counts, and where
such a row stands, the counts of all other rows are written as floating-point numbers
(`Batch.isFloating_iff_widened`). Nothing else of a row depends on the other ones
(`Batch.cells_eq_iff`).
-/

namespace BlockTheme

open Csv (cell? cellIn cellAt? isFloating)

namespace Row

variable {path out : Path} {bundle : Bundle} {message column : String} {row : Row}

/-- The columns of numbers. -/
def counts : List String :=
  ["section_count", "motion_downgrades", "external_images", "class_name_count"]

theorem keys_converted (path out : Path) (bundle : Bundle) :
    (converted path out bundle).keys
      = ["source", "status", "section_count", "has_header", "has_footer", "motion_downgrades",
        "external_images", "has_custom_css", "class_name_count", "slug", "output"] := rfl

theorem cell?_failed (h : column ∈ counts) : cell? (failed path message) column = none := by
  simp only [counts, List.mem_cons, List.not_mem_nil, or_false] at h
  rcases h with rfl | rfl | rfl | rfl <;> rfl

theorem cell?_converted_count (h : column ∈ counts) :
    ∃ n : Nat, cell? (converted path out bundle) column = some (.nat n) := by
  simp only [counts, List.mem_cons, List.not_mem_nil, or_false] at h
  rcases h with rfl | rfl | rfl | rfl <;> exact ⟨_, rfl⟩

/-- The other columns have texts and flags. -/
theorem cell?_converted_other (hkey : column ∈ (converted path out bundle).keys)
    (h : column ∉ counts) :
    (∃ s, cell? (converted path out bundle) column = some (.string s))
      ∨ ∃ b, cell? (converted path out bundle) column = some (.bool b) := by
  simp only [keys_converted, List.mem_cons, List.not_mem_nil, or_false] at hkey
  rcases hkey with rfl | rfl | rfl | rfl | rfl | rfl | rfl | rfl | rfl | rfl | rfl
  all_goals first
    | exact absurd (by decide) h
    | exact .inl ⟨_, rfl⟩
    | exact .inr ⟨_, rfl⟩

/-- A row has a count exactly if its document was converted. -/
theorem MadeFor.cell?_count (hrow : row.MadeFor path) (h : column ∈ counts) :
    (row.isOk = false ∧ cell? row column = none)
      ∨ row.isOk = true ∧ ∃ n : Nat, cell? row column = some (.nat n) := by
  cases hrow with
  | converted out bundle => exact .inr ⟨rfl, cell?_converted_count h⟩
  | failed message => exact .inl ⟨rfl, cell?_failed h⟩

/-- A row that counts as a success is one of a conversion. -/
theorem MadeFor.exists_converted (hrow : row.MadeFor path) (hok : row.isOk = true) :
    ∃ out bundle, row = Row.converted path out bundle := by
  cases hrow with
  | converted out bundle => exact ⟨out, bundle, rfl⟩
  | failed message => cases hok

end Row

namespace Batch

variable {rows rows' : List Row} {row : Row} {column : String}

theorem madeFor_rowOf (settings : Settings) (out : Path) (files : Files) (path : Path) :
    (rowOf path (Convert.work settings out files path).2).MadeFor path := by
  cases hdone : (Convert.work settings out files path).2 with
  | ok made => exact Convert.madeFor_work hdone
  | error why => exact .failed why.message

/-- The rows of a batch are made for its files. -/
theorem madeFor_run {settings : Settings} {out : Path} {files : Files} {paths : List Path}
    (h : row ∈ (run settings out files paths).2.rows) : ∃ path ∈ paths, row.MadeFor path := by
  have hmem : row ∈ (collect settings out files paths).2 := List.mem_mergeSort.1 h
  clear h
  induction paths generalizing files with
  | nil => cases hmem
  | cons path rest ih =>
    rcases List.mem_cons.1 hmem with rfl | hrest
    · exact ⟨path, List.mem_cons_self, madeFor_rowOf settings out files path⟩
    · obtain ⟨other, hother, hmade⟩ := ih hrest
      exact ⟨other, List.mem_cons_of_mem _ hother, hmade⟩

/-- Whether a column of counts is one of floating-point numbers: a document failed, and no count is
too big for a column of numbers. -/
def Widened (rows : List Row) (column : String) : Prop :=
  (∃ row ∈ rows, row.isOk = false)
    ∧ ∀ row ∈ rows, ∀ n : Nat, row.get? column = some (.nat n) → n < 2 ^ 64

/-- **One failed document widens the counts of all others.** A row without a count leaves a gap in
the column, and a column with a gap holds numbers with a point. -/
theorem isFloating_iff_widened (hrows : ∀ row ∈ rows, ∃ path, row.MadeFor path)
    (hcolumn : column ∈ Row.counts) :
    isFloating (rows.map fun row => cell? row column) = true ↔ Widened rows column := by
  have hcell : ∀ row ∈ rows, (row.isOk = false ∧ cell? row column = none)
      ∨ row.isOk = true ∧ ∃ n : Nat, cell? row column = some (.nat n) := fun row hrow => by
    obtain ⟨path, hmade⟩ := hrows row hrow
    exact hmade.cell?_count hcolumn
  rw [Csv.isFloating_counts, Widened]
  -- a cell is empty where a document failed, and the counts are those of the other rows
  · simp only [List.mem_map, Csv.cell?_eq_nat]
    refine and_congr (exists_congr fun row => and_congr_right fun hrow => ?_) ?_
    · rcases hcell row hrow with ⟨hok, hnone⟩ | ⟨hok, n, hcount⟩
      · exact iff_of_true hnone hok
      · simp [hok, hcount]
    · exact ⟨fun hall row hrow n hget => hall n ⟨row, hrow, hget⟩,
        fun hall n ⟨row, hrow, hget⟩ => hall row hrow n hget⟩
  · intro cell hmem
    obtain ⟨row, hrow, rfl⟩ := List.mem_map.1 hmem
    exact (hcell row hrow).imp And.right And.right

section Counts

variable {n : Nat} (hrows : ∀ row ∈ rows, ∃ path, row.MadeFor path)
  (hcolumn : column ∈ Row.counts) (hcell : cell? row column = some (.nat n))
include hrows hcolumn hcell

/-- In a column with gaps a count is written as a number with a point, -/
theorem cellIn_of_widened (h : Widened rows column) :
    cellIn rows row column = Json.displayText (.number (.float (Binary64.ofInt n))) := by
  rw [cellIn, (isFloating_iff_widened hrows hcolumn).2 h, hcell]
  rfl

theorem cellIn_of_not_widened (h : ¬Widened rows column) :
    cellIn rows row column = Json.displayText (.int n) := by
  have hfloating := mt (isFloating_iff_widened hrows hcolumn).1 h
  rw [cellIn, Bool.eq_false_iff.2 hfloating, hcell]
  rfl

/-- The other rows change what is written of a count exactly if they change the type of its
column. -/
theorem cellIn_count_eq_iff (hrows' : ∀ row ∈ rows', ∃ path, row.MadeFor path) :
    cellIn rows row column = cellIn rows' row column
      ↔ (Widened rows column ↔ Widened rows' column) := by
  have hne := Json.displayText_float_ne_int (Binary64.ofInt n) n
  by_cases h : Widened rows column <;> by_cases h' : Widened rows' column
  · simp only [cellIn_of_widened hrows hcolumn hcell h, cellIn_of_widened hrows' hcolumn hcell h',
      h, h']
  · simp only [cellIn_of_widened hrows hcolumn hcell h,
      cellIn_of_not_widened hrows' hcolumn hcell h', hne, h, h', iff_false, not_true]
  · simp only [cellIn_of_not_widened hrows hcolumn hcell h,
      cellIn_of_widened hrows' hcolumn hcell h', hne.symm, h, h', iff_true]
  · simp only [cellIn_of_not_widened hrows hcolumn hcell h,
      cellIn_of_not_widened hrows' hcolumn hcell h', h, h']

end Counts

/-- **Rows of one table share the types of its numbers, and nothing else.** In two tables of rows as
batches have them (`madeFor_run`) that have the row of a converted document in common, its cells are
there. Its flags and texts are the same, whatever the other rows are. A count is the same if and
only if its column is widened in both of the tables or in neither. -/
theorem cells_eq_iff (hrows : ∀ row ∈ rows, ∃ path, row.MadeFor path)
    (hrows' : ∀ row ∈ rows', ∃ path, row.MadeFor path) (hok : row.isOk = true) {i j : Nat}
    (hi : rows[i]? = some row) (hj : rows'[j]? = some row) (hcolumn : column ∈ row.keys) :
    ∃ cell cell', cellAt? (Csv.ofRows rows) i column = some cell
      ∧ cellAt? (Csv.ofRows rows') j column = some cell'
      ∧ (cell = cell' ↔ (column ∈ Row.counts → (Widened rows column ↔ Widened rows' column))) := by
  obtain ⟨path, hmade⟩ := hrows row (List.mem_of_getElem? hi)
  obtain ⟨out, bundle, rfl⟩ := hmade.exists_converted hok
  refine ⟨_, _, Csv.cellAt?_ofRows hi hcolumn, Csv.cellAt?_ofRows hj hcolumn, ?_⟩
  by_cases hcount : column ∈ Row.counts
  · obtain ⟨n, hcell⟩ : ∃ n : Nat, cell? (Row.converted path out bundle) column = some (.nat n) :=
      Row.cell?_converted_count hcount
    rw [cellIn_count_eq_iff hrows hcount hcell hrows']
    exact ⟨fun h _ => h, fun h => h hcount⟩
  · refine iff_of_true ?_ fun h => absurd h hcount
    rcases Row.cell?_converted_other hcolumn hcount with ⟨s, hcell⟩ | ⟨b, hcell⟩ <;>
      rw [cellIn, cellIn, hcell] <;> rfl

/-- The row of a page with one section. -/
def pageRow : Row :=
  Row.converted ⟨0, ["a.json"]⟩ ⟨0, ["out"]⟩
    { slug := "t"
      files := []
      summary :=
        { sections := 1
          hasHeader := false
          hasFooter := false
          tokens := { colors := ⟨"#00f", "#222", "#fff", "#111", none, none⟩ }
          motionDowngrades := 0
          externalImages := 0
          hasStylesheet := false
          classNames := 0 } }

/-- The row of a page that is not there. -/
def missingRow : Row := Row.failed ⟨0, ["b.json"]⟩ "missing"

/-- A document that is missing changes how many sections the other one has in the table, and not
which theme it has. -/
theorem cells_eq_iff_missing :
    cellAt? (Csv.ofRows [pageRow]) 0 "section_count"
        ≠ cellAt? (Csv.ofRows [pageRow, missingRow]) 0 "section_count"
      ∧ cellAt? (Csv.ofRows [pageRow]) 0 "slug"
        = cellAt? (Csv.ofRows [pageRow, missingRow]) 0 "slug" := by
  have hpage : ∃ path, pageRow.MadeFor path := ⟨_, .converted _ _⟩
  have hmissing : ∃ path, missingRow.MadeFor path := ⟨_, .failed _⟩
  have hone : ∀ row ∈ [pageRow], ∃ path, row.MadeFor path := by simpa using hpage
  have htwo : ∀ row ∈ [pageRow, missingRow], ∃ path, row.MadeFor path := by
    simpa using ⟨hpage, hmissing⟩
  have hcells := fun {column} (hcolumn : column ∈ pageRow.keys) =>
    cells_eq_iff (i := 0) (j := 0) hone htwo rfl rfl rfl hcolumn
  constructor
  · obtain ⟨cell, cell', hcell, hcell', hiff⟩ := hcells (by decide : "section_count" ∈ pageRow.keys)
    -- alone, the row that succeeded leaves no gap in its columns
    have hnarrow : ¬Widened [pageRow] "section_count" := by
      rintro ⟨⟨row, hrow, hok⟩, -⟩
      rw [List.mem_singleton.1 hrow] at hok
      cases hok
    -- with the other row there is one
    have hwide : Widened [pageRow, missingRow] "section_count" := by
      refine ⟨⟨missingRow, by simp, rfl⟩, fun row hrow n hn => ?_⟩
      rcases List.mem_cons.1 hrow with rfl | hrow
      · have hsame : Json.nat 1 = Json.nat n := Option.some.inj hn
        simp only [Json.nat, Json.number.injEq, Number.int.injEq] at hsame
        omega
      · rw [List.mem_singleton.1 hrow] at hn
        cases hn
    rw [hcell, hcell']
    intro hsame
    exact hnarrow ((hiff.1 (Option.some.inj hsame) (by decide)).2 hwide)
  · obtain ⟨cell, cell', hcell, hcell', hiff⟩ := hcells (by decide : "slug" ∈ pageRow.keys)
    rw [hcell, hcell', hiff.2 fun hcount => absurd hcount (by decide)]

end Batch

end BlockTheme
