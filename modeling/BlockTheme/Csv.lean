import BlockTheme.Json.Display
import BlockTheme.Schema.Field

/-!
# Tables

Rows of named values as comma-separated text. The columns come in the order in which their names
first appear. In a column of numbers all cells are of one type: integers become floating-point
numbers where one of the numbers is one or a cell is empty.
-/
namespace BlockTheme.Csv

def columns (rows : List Fields) : List String := Text.distinct (rows.flatMap Fields.keys)

/-- What stands in a cell: nothing for null and for what is not a number. -/
def cell? (row : Fields) (column : String) : Option Json :=
  match row.get? column with
  | none | some .null | some (.number (.float .nan)) => none
  | some v => some v

/-- Whether a value is a number that fits a column of numbers: one of at most 64 bits. -/
def isNumber : Json → Bool
  | .number (.int n) => -(Nat.pow 2 63 : Int) ≤ n && n < Nat.pow 2 64
  | .number (.float _) => true
  | _ => false

/-- Whether a value is an integer that only fits a column without signs. -/
def isUnsigned : Json → Bool
  | .number (.int n) => decide ((Nat.pow 2 63 : Int) ≤ n)
  | _ => false

def isNegative : Json → Bool
  | .number (.int n) => decide (n < 0)
  | _ => false

def isInteger : Json → Bool
  | .number (.int _) => true
  | _ => false

/-- Whether the numbers of a column are floating-point numbers. -/
def isFloating (cells : List (Option Json)) : Bool :=
  let values := cells.filterMap id
  -- no type of integers has both negative numbers and those beyond the signed ones
  values.all isNumber && !(values.any isUnsigned && values.any isNegative)
    && !cells.all fun cell => (cell.map isInteger).getD false

/-- A value in a column. -/
def cellText (floating : Bool) (cell : Option Json) : String :=
  match cell with
  | none => ""
  | some (.number (.int n)) =>
    if floating then Json.displayText (.number (.float (Binary64.ofInt n)))
    else Json.displayText (.int n)
  | some v => v.displayText

def needsQuotes (s : List Char) : Bool :=
  s.any fun c => c == ',' || c == '\n' || c.toNat == 34

/-- A field: in double quotes if it has to be, its own ones doubled. -/
def field (s : String) : List Char :=
  let quote := Char.ofNat 34
  if needsQuotes s.toList then
    quote :: (s.toList.flatMap fun c => if c = quote then [quote, quote] else [c]) ++ [quote]
  else s.toList

def line (fields : List String) : List Char :=
  match fields with
  -- one empty field alone is quoted, so that the line is not empty
  | [""] => [Char.ofNat 34, Char.ofNat 34, '\n']
  | fields => ((fields.map field).intersperse [',']).flatten ++ ['\n']

/-- The table of rows, after a line with the names of the columns. -/
def ofRows (rows : List Fields) : String :=
  let names := columns rows
  let floating := names.map fun name => isFloating (rows.map fun row => cell? row name)
  let body := rows.map fun row =>
    line ((names.zip floating).map fun (name, floating) => cellText floating (cell? row name))
  String.ofList (line names ++ body.flatten)

end BlockTheme.Csv
