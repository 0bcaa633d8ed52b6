import HandlerGraph.Batch
import HandlerGraph.Seconds.Fixed

/-! Reduced behaviors as text: a listing with a line for each, or one of them in full. Nodes are
shown by name and id, with a question mark for a name that is not known. -/
namespace HandlerGraph.Inspection

def number (n : Nat) : String := String.ofList (Numeral.decimal n)

def label (nodes : List Node) (id : Nat) : String :=
  ((nodes[id]?.map Node.name).getD "?") ++ "[" ++ number id ++ "]"

def padRight (width : Nat) (s : String) : String :=
  s ++ String.ofList (List.replicate (width - s.length) ' ')

def orDash (s : Option String) : String := s.getD "-"

def lines (ls : List String) : String := String.join (ls.map (· ++ "\n"))

def element : Option Int → String
  | none => "-"
  | some id =>
    String.ofList (Numeral.decimalInt id) ++ " (0x" ++ String.ofList (Numeral.hexWord id) ++ ")"

def listingLine (nodes : List Node) (i : Nat) (b : ReducedBehavior) : String :=
  "#" ++ padRight 4 (number i) ++ " " ++ label nodes b.control ++ " -> " ++ label nodes b.callback ++
    "  nodes " ++ number b.size.node ++ " (" ++ number b.oldSize.node ++ ") edges " ++
    number b.size.edge ++ " (" ++ number b.oldSize.edge ++ ")"

def listing (nodes : List Node) (r : ReducedBehaviors) : String :=
  lines ((number r.behaviors.length ++ " behaviors, reduced in " ++ Seconds.fixed 3 r.time ++ "s") ::
    r.behaviors.zipIdx.map fun (b, i) => listingLine nodes i b)

def widgetLines (nodes : List Node) (id : Nat) : List String :=
  match nodes[id]? with
  | none => []
  | some n =>
    ["widget  " ++ n.name ++ " [" ++ number id ++ "]", "  hash    " ++ orDash n.hash,
      "  layout  " ++ orDash n.layoutFile, "  element " ++ element n.elementId]

def eventLines (nodes : List Node) (id : Nat) : List String :=
  match nodes[id]? with
  | none => []
  | some n =>
    ["event   " ++ n.name ++ " [" ++ number id ++ "]", "  hash    " ++ orDash n.hash,
      "  class   " ++ orDash n.className]

def sizeLine (b : ReducedBehavior) : String :=
  "size    " ++ number b.size.node ++ " nodes / " ++ number b.size.edge ++ " edges (was " ++
    number b.oldSize.node ++ " / " ++ number b.oldSize.edge ++ "), switch noise " ++
    number b.report.switchNoise ++ ", dead leaves " ++ orDash (b.report.deadLeaves.map number)

def edgeLine (nodes : List Node) (e : Edge) : String :=
  "  " ++ padRight 5 e.relation.label ++ " " ++ label nodes e.source ++ " -> " ++
    label nodes e.target

def description (nodes : List Node) (b : ReducedBehavior) : String :=
  let subsumed := b.subsumed.toList.map (label nodes)
  let inherited := (b.inheritedMethods.map SortedSet.toList).getD []
  lines (widgetLines nodes b.control ++ eventLines nodes b.callback ++ [sizeLine b] ++
    (if subsumed.isEmpty then [] else ["cuid    " ++ ", ".intercalate subsumed]) ++
    inherited.map ("inherit " ++ ·) ++ "edges" :: b.edges.toList.map (edgeLine nodes))

def inspect (t : FileTree) (a : AppFolder) (index : Option Nat) : Except Failure String := do
  let nodes ← (t.nodes a.nodeTable).mapError (Failure.nodes a.name)
  let r ← (a.reduced t).mapError (Failure.reduced a.name)
  match index with
  | none => .ok (listing nodes r)
  | some i =>
    match r.behaviors[i]? with
    | some b => .ok (description nodes b)
    | none => .error (.noBehavior i r.behaviors.length)

end HandlerGraph.Inspection
