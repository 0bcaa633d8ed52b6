import HandlerGraph.FileTree.Path

/-! Where the inputs and outputs of an app lie. -/
namespace HandlerGraph

structure AppFolder where
  root : String
  deriving DecidableEq, Inhabited

namespace AppFolder

def name (a : AppFolder) : String := (Path.fileName? a.root).getD a.root

def encoding (a : AppFolder) : String := Path.join a.root "encoding"

def nodeTable (a : AppFolder) : String := Path.join a.encoding "node.csv"

def edgeTable (a : AppFolder) : String := Path.join a.encoding "edge.csv"

def rawBehaviors (a : AppFolder) : String := Path.join a.encoding "uhg_full.json"

def reducedBehaviors (a : AppFolder) : String := Path.join a.encoding "uhg.json"

def coverage (a : AppFolder) : String := Path.join a.root "add_info.json"

def resources (a : AppFolder) : String := Path.join (Path.join a.root "values") "public.xml"

def widgetTexts (a : AppFolder) : String := Path.join a.root "ui_context.json"

/-- Everything a run may look at. -/
def files (a : AppFolder) : List String :=
  [a.nodeTable, a.edgeTable, a.rawBehaviors, a.rawBehaviors ++ ".tmp", a.reducedBehaviors,
    a.reducedBehaviors ++ ".tmp", a.coverage, a.resources, a.widgetTexts]

end AppFolder
end HandlerGraph
