import HandlerGraph.App.Input
import HandlerGraph.Proofs.CsvText
import HandlerGraph.Proofs.Numeral

/-! Tables read back as they were written. A sheet has each known column once, in any order and among
any other columns, and says how lines end. Every cell is in quotes. An absent text is an empty cell, an
absent element id an empty cell or minus one, and a flag is one or zero. Whatever the names hold, row
numbers are kept: each row gives back its own node or edge and nothing else. -/
namespace HandlerGraph

namespace Table

def integerText (i : Int) : String := String.ofList (Numeral.decimalInt i)

theorem not_marked {cs : List Char} (digits : ∀ c ∈ cs, c.isDigit = true) (more : List Char) :
    cs ≠ '0' :: 'x' :: more := by
  rintro rfl
  exact absurd (digits 'x' (by simp)) (by decide)

theorem integer?_integerText {i : Int}
    (fits : -0x8000000000000000 ≤ i ∧ i < 0x8000000000000000) :
    integer? (integerText i) = some i := by
  have unmarked : ∀ more, Numeral.decimalInt i ≠ '0' :: 'x' :: more := by
    intro more
    rw [Numeral.decimalInt]
    split
    · simp
    · exact not_marked (fun c => Numeral.isDigit_of_mem_decimal) more
  have word : Numeral.signed? 64 i = some i := Numeral.signed?_eq_some_iff.mpr ⟨rfl, fits⟩
  rw [integer?, integerText, String.toList_ofList]
  split
  · rename_i marked
    exact absurd marked (unmarked _)
  · simp only [Numeral.integer?_decimalInt, Option.bind_some, word]

def naturalText (n : Nat) : String := String.ofList (Numeral.decimal n)

theorem natural?_naturalText {n : Nat} (fits : n < 0x10000000000000000) :
    natural? (naturalText n) = some n := by
  have digits : ∀ c ∈ Numeral.decimal n, c.isDigit = true := fun c => Numeral.isDigit_of_mem_decimal
  have word : Numeral.unsigned? 64 n = some n := if_pos fits
  rw [natural?, naturalText, String.toList_ofList]
  split
  · rename_i marked
    exact absurd marked (not_marked digits _)
  · dsimp only
    split
    · rename_i signed
      exact absurd (digits '+' (by simp [signed])) (by decide)
    · rw [Numeral.natural?_decimal, Option.bind_some, word]

def filled (columns : List String) (cells : String → String) : Row :=
  columns.map fun column => (column, some (cells column))

section Filled
variable {columns known : List String} {cells : String → String} {column : String}

theorem named_map (columns : List String) (cells : String → String) :
    named columns (columns.map cells) = filled columns cells := by
  induction columns with
  | nil => rfl
  | cons column columns ih => rw [List.map_cons, named, ih, filled, filled, List.map_cons]

theorem cell?_filled (mem : column ∈ columns) :
    cell? (filled columns cells) column = some (cells column) := by
  rw [cell?, filled, List.find?_map]
  induction columns with
  | nil => cases mem
  | cons first columns ih =>
    by_cases here : first = column
    · simp [here]
    · have later : column ∈ columns := (List.mem_cons.mp mem).resolve_left (Ne.symm here)
      simpa [here] using ih later

theorem optional_filled (mem : column ∈ columns) :
    optional (filled columns cells) column =
      if cells column = "" then none else some (cells column) := by
  rw [optional, cell?_filled mem, Option.filter]
  by_cases blank : cells column = ""
  · simp [blank]
  · simp [blank]

theorem isRegular_filled (once : ∀ column ∈ known, columns.count column = 1) :
    isRegular known (filled columns cells) = true := by
  have counted : ∀ column, ((filled columns cells).filter (·.1 = column)).length =
      columns.count column := by
    intro column
    rw [filled, List.filter_map, List.length_map, List.count_eq_length_filter]
    rfl
  simp only [isRegular, Bool.and_eq_true, List.all_eq_true, decide_eq_true_eq, Bool.or_eq_true,
    counted]
  refine ⟨fun column mem => Nat.le_of_eq (once column mem), fun cell mem => Or.inr ?_⟩
  obtain ⟨column, -, rfl⟩ := List.mem_map.mp mem
  rfl

end Filled

theorem textRecord?_map_encode (cells : List String) :
    textRecord? (cells.map Text.encode) = some cells := by
  have back : Text.decode? ∘ Text.encode = fun cell => pure cell := funext Text.decode?_encode
  rw [textRecord?, List.mapM_map, back, List.mapM_pure, List.map_id']
  rfl

/-- A form for tables: each known column once, in any order and among any others. -/
structure Sheet (known : List String) where
  columns : List String
  once : ∀ column ∈ known, columns.count column = 1
  lineEnd : Csv.LineEnd
  ended : Bool

namespace Sheet
variable {known : List String} (sheet : Sheet known)

def write (rows : List (String → String)) : List UInt8 :=
  Text.encode (Csv.write sheet.lineEnd sheet.ended
    (sheet.columns :: rows.map sheet.columns.map))

theorem mem_columns {column : String} (mem : column ∈ known) : column ∈ sheet.columns :=
  List.count_pos_iff.mp (by rw [sheet.once column mem]; exact Nat.one_pos)

theorem columns_ne_nil (some_column : known ≠ []) : sheet.columns ≠ [] := by
  obtain ⟨column, more, rfl⟩ := List.exists_cons_of_ne_nil some_column
  exact List.ne_nil_of_mem (sheet.mem_columns List.mem_cons_self)

theorem records_write (some_column : known ≠ []) (rows : List (String → String)) :
    Csv.records (sheet.write rows) = sheet.columns.map Text.encode ::
      rows.map fun cells => (sheet.columns.map cells).map Text.encode := by
  have some_cells : ∀ line ∈ sheet.columns :: rows.map sheet.columns.map, line ≠ [] := by
    refine List.forall_mem_cons.mpr ⟨sheet.columns_ne_nil some_column, fun line mem => ?_⟩
    obtain ⟨row, -, rfl⟩ := List.mem_map.mp mem
    simpa using sheet.columns_ne_nil some_column
  rw [write, Csv.records_write sheet.lineEnd sheet.ended some_cells, List.map_cons, List.map_map]
  rfl

theorem write_ne_nil (some_column : known ≠ []) (rows : List (String → String)) :
    sheet.write rows ≠ [] := by
  intro blank
  have header := sheet.records_write some_column rows
  rw [blank] at header
  cases header

theorem row?_filled (cells : String → String) :
    row? known (some sheet.columns) ((sheet.columns.map cells).map Text.encode) =
      some (filled sheet.columns cells) := by
  rw [row?, textRecord?_map_encode]
  simp only [Option.bind_eq_bind, Option.bind_some, named_map, isRegular_filled sheet.once, if_true]

theorem rows?_write {α β : Type} {read : Row → Option β} {cells : α → String → String}
    {value : α → β} {rows : List α} (some_column : known ≠ [])
    (back : ∀ row, read (filled sheet.columns (cells row)) = some (value row)) :
    rows? known read (sheet.write (rows.map cells)) = some (rows.map value) := by
  rw [rows?, sheet.records_write some_column, List.map_map]
  have each : (fun record => (row? known (textRecord? (sheet.columns.map Text.encode)) record).bind
      read) ∘ ((fun cells => (sheet.columns.map cells).map Text.encode) ∘ cells) =
      fun row => pure (value row) := by
    funext row
    simp only [Function.comp_apply, textRecord?_map_encode, row?_filled, Option.bind_some, back]
    rfl
  simp only [List.mapM_map, each, List.mapM_pure]
  rfl

end Sheet

inductive NoElement where
  | empty
  | minusOne
  deriving DecidableEq

def NoElement.text : NoElement → String
  | empty => ""
  | minusOne => "-1"

def flagText (b : Bool) : String := if b then "1" else "0"

/-- Texts are absent or not empty, and an element id is a word of 64 bits other than minus one. -/
structure Tabular (n : Node) : Prop where
  hash : n.hash ≠ some ""
  layoutFile : n.layoutFile ≠ some ""
  className : n.className ≠ some ""
  elementId : ∀ id ∈ n.elementId,
    id ≠ -1 ∧ -0x8000000000000000 ≤ id ∧ id < 0x8000000000000000

structure NodeRow where
  node : Node
  tabular : Tabular node
  noElement : NoElement
  others : String → String

def NodeRow.cells (r : NodeRow) : String → String
  | "Name" => r.node.name
  | "Hash" => r.node.hash.getD ""
  | "UI" => flagText r.node.isControl
  | "XML" => r.node.layoutFile.getD ""
  | "UId" => (r.node.elementId.map integerText).getD r.noElement.text
  | "Package" => r.node.package
  | "Class" => r.node.className.getD ""
  | "Java" => flagText r.node.javaApi
  | "Android" => flagText r.node.androidApi
  | column => r.others column

section Cells
variable {columns : List String} {cells : String → String} {column : String}

theorem optional_getD (mem : column ∈ columns) {text : Option String}
    (cell : cells column = text.getD "") (worded : text ≠ some "") :
    optional (filled columns cells) column = text := by
  rw [optional_filled mem, cell]
  cases text with
  | none => rfl
  | some s => exact if_neg fun blank => worded (congrArg some blank)

theorem flag_filled (mem : column ∈ columns) {b : Bool} (cell : cells column = flagText b) :
    flag (filled columns cells) column = b := by
  rw [flag, optional_filled mem, cell]
  cases b <;> decide

theorem isControl_filled (mem : column ∈ columns) {b : Bool} (cell : cells column = flagText b) :
    decide ((optional (filled columns cells) column).bind integer? = some 1) = b := by
  rw [optional_filled mem, cell]
  cases b <;> decide

theorem package_filled (mem : column ∈ columns) :
    (optional (filled columns cells) column).getD "" = cells column := by
  rw [optional_filled mem]
  split
  · rename_i blank
    exact blank.symm
  · rfl

end Cells

theorem elementId_filled {columns : List String} {cells : String → String} {column : String}
    {id : Option Int} {noElement : NoElement} (mem : column ∈ columns)
    (cell : cells column = (id.map integerText).getD noElement.text)
    (fits : ∀ i ∈ id, i ≠ -1 ∧ -0x8000000000000000 ≤ i ∧ i < 0x8000000000000000) :
    ((optional (filled columns cells) column).bind integer?).filter (· ≠ -1) = id := by
  rw [optional_filled mem, cell]
  cases id with
  | none => cases noElement <;> decide
  | some i =>
    obtain ⟨other, word⟩ := fits i rfl
    have digits : integerText i ≠ "" := by
      intro blank
      have read := integer?_integerText word
      rw [blank] at read
      cases read
    simp [digits, integer?_integerText word, other]

theorem node?_filled {columns : List String} (r : NodeRow)
    (there : ∀ c ∈ nodeColumns, c ∈ columns) :
    node? (filled columns r.cells) = some r.node := by
  have hash : optional (filled columns r.cells) "Hash" = r.node.hash :=
    optional_getD (there _ (by decide)) rfl r.tabular.hash
  have isControl : decide ((optional (filled columns r.cells) "UI").bind integer? = some 1) =
      r.node.isControl := isControl_filled (there _ (by decide)) rfl
  have layoutFile : optional (filled columns r.cells) "XML" = r.node.layoutFile :=
    optional_getD (there _ (by decide)) rfl r.tabular.layoutFile
  have elementId : ((optional (filled columns r.cells) "UId").bind integer?).filter (· ≠ -1) =
      r.node.elementId := elementId_filled (there _ (by decide)) rfl r.tabular.elementId
  have package : (optional (filled columns r.cells) "Package").getD "" = r.node.package :=
    package_filled (there _ (by decide))
  have className : optional (filled columns r.cells) "Class" = r.node.className :=
    optional_getD (there _ (by decide)) rfl r.tabular.className
  have javaApi : flag (filled columns r.cells) "Java" = r.node.javaApi :=
    flag_filled (there _ (by decide)) rfl
  have androidApi : flag (filled columns r.cells) "Android" = r.node.androidApi :=
    flag_filled (there _ (by decide)) rfl
  have name : cell? (filled columns r.cells) "Name" = some r.node.name :=
    cell?_filled (there _ (by decide))
  rw [node?, name, hash, isControl, layoutFile, elementId, package, className, javaApi, androidApi]
  rfl

structure EdgeRow where
  edge : Edge
  source : edge.source < 0x10000000000000000
  target : edge.target < 0x10000000000000000
  others : String → String

def EdgeRow.cells (r : EdgeRow) : String → String
  | "From" => naturalText r.edge.source
  | "To" => naturalText r.edge.target
  | "Type" => naturalText r.edge.relation.code
  | column => r.others column

theorem edgeRow?_filled {columns : List String} (r : EdgeRow)
    (there : ∀ c ∈ edgeColumns, c ∈ columns) :
    edgeRow? (filled columns r.cells) =
      some (r.edge.source, r.edge.target, (r.edge.relation.code : Int)) := by
  have first : cell? (filled columns r.cells) "From" = some (naturalText r.edge.source) :=
    cell?_filled (there _ (by decide))
  have second : cell? (filled columns r.cells) "To" = some (naturalText r.edge.target) :=
    cell?_filled (there _ (by decide))
  have third : cell? (filled columns r.cells) "Type" = some (naturalText r.edge.relation.code) :=
    cell?_filled (there _ (by decide))
  have code : integer? (naturalText r.edge.relation.code) = some (r.edge.relation.code : Int) := by
    cases r.edge.relation <;> decide
  simp [edgeRow?, first, second, third, natural?_naturalText r.source,
    natural?_naturalText r.target, code]

end Table

namespace FileTree
variable {t : FileTree} {path : String}
open Table

theorem table_of_read {known : List String} {sheet : Sheet known} {rows : List (String → String)}
    (some_column : known ≠ []) (there : t.read path = .ok (sheet.write rows)) :
    t.table path = .ok (sheet.write rows) := by
  have some_byte : sheet.write rows ≠ [] := sheet.write_ne_nil some_column rows
  simp [table, bytes, there, Except.mapError, some_byte, bind, Except.bind]

/-- Tables in quotes read back as the nodes and edges that they were written from. -/
theorem tables_read_back (t : FileTree) (path : String) :
    (∀ (sheet : Sheet nodeColumns) (rows : List NodeRow),
      t.read path = .ok (sheet.write (rows.map NodeRow.cells)) →
      t.nodes path = .ok (rows.map NodeRow.node)) ∧
    ∀ (sheet : Sheet edgeColumns) (rows : List EdgeRow),
      t.read path = .ok (sheet.write (rows.map EdgeRow.cells)) →
      t.edges path = .ok (rows.map EdgeRow.edge) := by
  constructor
  · intro sheet rows there
    have read : nodes? (sheet.write (rows.map NodeRow.cells)) = some (rows.map NodeRow.node) :=
      sheet.rows?_write (by decide) fun r => node?_filled r fun _ => sheet.mem_columns
    rw [nodes, table_of_read (by decide) there]
    simp only [bind, Except.bind, read]
  · intro sheet rows there
    have read : edgeRows? (sheet.write (rows.map EdgeRow.cells)) = some (rows.map fun r =>
        (r.edge.source, r.edge.target, (r.edge.relation.code : Int))) :=
      sheet.rows?_write (by decide) fun r => edgeRow?_filled r fun _ => sheet.mem_columns
    have known : ∀ r : EdgeRow, Edge.ofRow r.edge.source r.edge.target r.edge.relation.code =
        pure r.edge := by
      intro r
      rw [Edge.ofRow, Relation.ofCode?_code]
      rfl
    rw [edges, table_of_read (by decide) there]
    simp only [bind, Except.bind, read]
    rw [List.mapM_map]
    simp only [Function.comp_def, known, List.mapM_pure]
    rfl

def mixedNodes : Sheet nodeColumns where
  columns := ["", "Android", "Java", "Class", "Note", "Package", "UId", "XML", "UI", "Hash", "Name"]
  once := by decide
  lineEnd := .both
  ended := false

def mixedEdges : Sheet edgeColumns where
  columns := ["Type", "Note", "To", "From"]
  once := by decide
  lineEnd := .feed
  ended := true

def mixedNodeRows : List NodeRow :=
  [{ node := .widget "Löschen" "main.xml" (-0x8000000000000000)
     tabular := ⟨by decide, by decide, by decide, by decide⟩
     noElement := .empty
     others := fun column => column ++ ",\"" },
    { node := .method "<app.Main: void \"a, b\"\r\n(int)>" ""
      tabular := ⟨by decide, by decide, by decide, by decide⟩
      noElement := .minusOne
      others := fun _ => "1" }]

def mixedEdgeRows : List EdgeRow :=
  [{ edge := ⟨0, 1, .event⟩, source := by decide, target := by decide, others := fun _ => "\n" },
    { edge := ⟨0xffffffffffffffff, 0, .call⟩, source := by decide, target := by decide,
      others := fun _ => "" }]

def mixedTree : FileTree where
  entries := .ofList [(["node.csv"], .file (mixedNodes.write (mixedNodeRows.map NodeRow.cells))),
    (["edge.csv"], .file (mixedEdges.write (mixedEdgeRows.map EdgeRow.cells)))]
  home := []

theorem tables_read_back_mixed :
    mixedTree.read "/node.csv" = .ok (mixedNodes.write (mixedNodeRows.map NodeRow.cells)) ∧
      mixedTree.read "/edge.csv" = .ok (mixedEdges.write (mixedEdgeRows.map EdgeRow.cells)) ∧
      mixedTree.nodes "/node.csv" = .ok [.widget "Löschen" "main.xml" (-0x8000000000000000),
        .method "<app.Main: void \"a, b\"\r\n(int)>" ""] ∧
      mixedTree.edges "/edge.csv" = .ok [⟨0, 1, .event⟩, ⟨0xffffffffffffffff, 0, .call⟩] := by
  have first : mixedTree.read "/node.csv" =
      .ok (mixedNodes.write (mixedNodeRows.map NodeRow.cells)) := by rfl
  have second : mixedTree.read "/edge.csv" =
      .ok (mixedEdges.write (mixedEdgeRows.map EdgeRow.cells)) := by rfl
  exact ⟨first, second, (tables_read_back mixedTree "/node.csv").1 mixedNodes mixedNodeRows first,
    (tables_read_back mixedTree "/edge.csv").2 mixedEdges mixedEdgeRows second⟩

end FileTree
end HandlerGraph
