set_option autoImplicit false

/-!
# Tables

Tables in plain text: columns are as wide as their widest cell, with a blank on either side, and
rules above and below the header and at the end.

## Main definitions

* `Cli.Table`: headers, alignment and rows.
* `Cli.Table.render`: the lines of a table.
-/

namespace ApiCatalog.Cli

/-- Where a cell stands in its column. -/
inductive Alignment where
  | left
  | right
deriving DecidableEq, Repr

/-- A column: its header, and where the cells below it stand. -/
structure Column where
  header : String
  alignment : Alignment := .left
deriving DecidableEq, Repr

/-- A table. -/
structure Table where
  columns : List Column
  rows : List (List String)
deriving DecidableEq, Repr

namespace Table

/-- A number of equal characters. -/
def repeated (c : Char) (count : Nat) : String :=
  String.ofList (List.replicate count c)

/-- A cell in its column, with a blank on either side. -/
def cell (alignment : Alignment) (width : Nat) (text : String) : String :=
  let padding := repeated ' ' (width - text.length)
  match alignment with
  | .left => " " ++ text ++ padding ++ " "
  | .right => " " ++ padding ++ text ++ " "

/-- The widths of columns in which each of the rows has its place. -/
def widths (headers : List String) (rows : List (List String)) : List Nat :=
  rows.foldl (fun widths row => widths.zipWith max (row.map String.length))
    (headers.map String.length)

/-- A row of cells. -/
def row (alignments : List Alignment) (widths : List Nat) (cells : List String) : String :=
  " ".intercalate ((alignments.zip (widths.zip cells)).map fun (alignment, width, text) =>
    cell alignment width text)

/-- The rule of each column, with a gap between them. -/
def brokenRule (widths : List Nat) : String :=
  " ".intercalate (widths.map fun width => repeated '─' (width + 2))

/-- A rule without gaps, as long as the one with gaps. -/
def solidRule (widths : List Nat) : String :=
  repeated '─' (brokenRule widths).length

/-- The lines of a table. -/
def render (table : Table) : List String :=
  let headers := table.columns.map Column.header
  let widths := widths headers table.rows
  [brokenRule widths, row (headers.map fun _ => .left) widths headers, solidRule widths] ++
    table.rows.map (row (table.columns.map Column.alignment) widths) ++ [brokenRule widths]

end Table

end ApiCatalog.Cli
