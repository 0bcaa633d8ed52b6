import HandlerGraph.App.Folder
import HandlerGraph.Behavior.File
import HandlerGraph.Coverage.File
import HandlerGraph.FileTree.Basic
import HandlerGraph.Graph.Table
import HandlerGraph.Reduction
import HandlerGraph.Resources.File
import HandlerGraph.Settings
import HandlerGraph.WidgetText.File

/-! Reading the inputs of an app from a tree. A table that is empty counts as missing. A keyword list
that is missing is empty. Auxiliary inputs that cannot be used count as absent; resource ids are
looked at only when there is coverage to use them with. -/
namespace HandlerGraph

structure KeywordLists where
  calls : Keywords
  classes : Keywords
  texts : Keywords
  methods : Keywords
  deriving DecidableEq, Inhabited

def KeywordLists.noise (l : KeywordLists) : NoiseRule := ⟨l.calls, l.classes⟩

def KeywordLists.interest (l : KeywordLists) : Interest := ⟨l.texts, l.methods⟩

def KeywordLists.callsFile : String := "mundane_calls.txt"

def KeywordLists.classesFile : String := "mundane_classes.txt"

def KeywordLists.textsFile : String := "texts.txt"

def KeywordLists.methodsFile : String := "key_methods.txt"

def KeywordLists.files (folder : String) : List String :=
  [callsFile, classesFile, textsFile, methodsFile].map (Path.join folder)

namespace FileTree

def bytes (t : FileTree) (path : String) : Except Fault (List UInt8) :=
  (t.read path).mapError (Trouble.fault path)

def text (t : FileTree) (path : String) : Except Fault String := do
  match Text.decode? (← t.bytes path) with
  | some s => .ok s
  | none => .error (.unreadable path)

def table (t : FileTree) (path : String) : Except Fault (List UInt8) := do
  let content ← t.bytes path
  if content.isEmpty then .error (.missingInput path) else .ok content

def nodes (t : FileTree) (path : String) : Except Fault (List Node) := do
  let content ← t.table path
  match Table.nodes? content with
  | some nodes => .ok nodes
  | none => .error (.badTable ⟨path, content⟩)

/-- All rows are read before a relation code is looked at. -/
def edges (t : FileTree) (path : String) : Except Fault (List Edge) := do
  let content ← t.table path
  match Table.edgeRows? content with
  | some rows => rows.mapM fun (source, target, code) => Edge.ofRow source target code
  | none => .error (.badTable ⟨path, content⟩)

def graph (t : FileTree) (app : AppFolder) (trackFind : Bool) : Except Fault Graph := do
  let nodes ← t.nodes app.nodeTable
  let edges ← t.edges app.edgeTable
  Graph.build nodes edges trackFind

def keywords (t : FileTree) (path : String) : Except Fault Keywords :=
  match t.text path with
  | .ok s => .ok (.ofText s)
  | .error (.missingInput _) => .ok .none
  | .error f => .error f

def keywordLists (t : FileTree) (folder : String) : Except Fault KeywordLists := do
  let calls ← t.keywords (Path.join folder KeywordLists.callsFile)
  let classes ← t.keywords (Path.join folder KeywordLists.classesFile)
  let texts ← t.keywords (Path.join folder KeywordLists.textsFile)
  let methods ← t.keywords (Path.join folder KeywordLists.methodsFile)
  return ⟨calls, classes, texts, methods⟩

def capped {α : Type} (t : FileTree) (read : List UInt8 → Option α) (limit : Nat) (path : String) :
    Except Fault α := do
  let content ← t.bytes path
  if limit < content.length then .error (.badAuxiliary path (.tooLarge content.length limit))
  else
    match read content with
    | some a => .ok a
    | none => .error (.badAuxiliary path (.malformed content))

def coverage (t : FileTree) (limit : Nat) (path : String) : Except Fault Coverage :=
  t.capped Coverage.read? limit path

def widgetTexts (t : FileTree) (limit : Nat) (path : String) : Except Fault WidgetTexts :=
  t.capped WidgetTexts.read? limit path

def resources (t : FileTree) (path : String) : Except Fault Resources := do
  let content ← t.text path
  match Resources.parse content with
  | .ok r => .ok r
  | .error cause => .error (.badResources ⟨path, Text.encode content⟩ cause)

def auxiliary (t : FileTree) (app : AppFolder) (limit : Nat) (withTexts : Bool) : Auxiliary :=
  let coverage := (t.coverage limit app.coverage).toOption.getD .empty
  { coverage
    resources := if coverage.isEmpty then .empty else (t.resources app.resources).toOption.getD .empty
    widgetTexts :=
      if withTexts then (t.widgetTexts limit app.widgetTexts).toOption.getD .empty else .empty }

def settings (t : FileTree) (path : String) : Except Fault Settings := do
  let content ← t.text path
  match Settings.parse? content with
  | some s => .ok s
  | none => .error (.badSettings ⟨path, Text.encode content⟩)

end FileTree
end HandlerGraph
