import HandlerGraph.Csv
import HandlerGraph.Graph
import HandlerGraph.Text.Blank
import HandlerGraph.Text.Utf8

/-! Node and edge tables. Columns go by the names in the first record; a header that is no text makes
them go by position instead. A row may be shorter or longer than the header, but a column that is
unknown or required must have a cell, and a known column may come only once. Cells of optional
columns that are empty count as absent. -/
namespace HandlerGraph.Table

/-- Cells by column; a cell is absent where a row is too short. -/
abbrev Row := List (String × Option String)

def textRecord? (record : List (List UInt8)) : Option (List String) := record.mapM Text.decode?

def named : List String → List String → Row
  | [], _ => []
  | column :: columns, [] => (column, none) :: named columns []
  | column :: columns, cell :: cells => (column, some cell) :: named columns cells

/-- No known column twice, and a cell for every unknown one. -/
def isRegular (known : List String) (row : Row) : Bool :=
  known.all (fun column => (row.filter (·.1 = column)).length ≤ 1) &&
    row.all fun cell => known.contains cell.1 || cell.2.isSome

def row? (known : List String) (header : Option (List String)) (record : List (List UInt8)) :
    Option Row := do
  let cells ← textRecord? record
  match header with
  | none => some (named known cells)
  | some columns =>
    let row := named columns cells
    if isRegular known row then some row else none

def cell? (row : Row) (column : String) : Option String :=
  (row.find? (·.1 = column)).bind Prod.snd

def optional (row : Row) (column : String) : Option String := (cell? row column).filter (· ≠ "")

/-- Decimal, or hexadecimal after its mark, with an optional sign. -/
def integer? (cell : String) : Option Int :=
  let value? :=
    match cell.toList with
    | '0' :: 'x' :: digits => Numeral.integer? 16 digits
    | cs => Numeral.integer? 10 cs
  value?.bind (Numeral.signed? 64)

def natural? (cell : String) : Option Nat :=
  let unsigned? := fun base (cs : List Char) =>
    match cs with
    | '+' :: digits => Numeral.natural? base digits
    | digits => Numeral.natural? base digits
  let value? :=
    match cell.toList with
    | '0' :: 'x' :: digits => unsigned? 16 digits
    | cs => unsigned? 10 cs
  value?.bind (Numeral.unsigned? 64)

def isTrue (cell : String) : Bool :=
  let word := Text.trim cell.toList
  word = ['1'] || word = "1.0".toList || word.map Char.toLower = "true".toList

def flag (row : Row) (column : String) : Bool := ((optional row column).map isTrue).getD false

def nodeColumns : List String :=
  ["Name", "Hash", "UI", "XML", "UId", "Package", "Class", "Java", "Android"]

/-- An element id of minus one stands for none. -/
def node? (row : Row) : Option Node :=
  (cell? row "Name").map fun name =>
    { name
      hash := optional row "Hash"
      isControl := (optional row "UI").bind integer? = some 1
      layoutFile := optional row "XML"
      elementId := ((optional row "UId").bind integer?).filter (· ≠ -1)
      package := (optional row "Package").getD ""
      className := optional row "Class"
      javaApi := flag row "Java"
      androidApi := flag row "Android" }

def edgeColumns : List String := ["From", "To", "Type"]

def edgeRow? (row : Row) : Option (Nat × Nat × Int) := do
  let source ← (cell? row "From").bind natural?
  let target ← (cell? row "To").bind natural?
  let code ← (cell? row "Type").bind integer?
  return (source, target, code)

def rows? {α : Type} (known : List String) (read : Row → Option α) (bytes : List UInt8) :
    Option (List α) :=
  match Csv.records bytes with
  | [] => some []
  | header :: records =>
    records.mapM fun record => (row? known (textRecord? header) record).bind read

def nodes? (bytes : List UInt8) : Option (List Node) := rows? nodeColumns node? bytes

def edgeRows? (bytes : List UInt8) : Option (List (Nat × Nat × Int)) := rows? edgeColumns edgeRow? bytes

end HandlerGraph.Table
