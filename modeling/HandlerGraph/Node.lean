import HandlerGraph.Text.Search

/-! Nodes of a knowledge graph: methods, named by their signature, and controls of the user
interface, named by their label. -/
namespace HandlerGraph

structure Node where
  name : String
  hash : Option String
  isControl : Bool
  layoutFile : Option String
  elementId : Option Int
  package : String
  className : Option String
  javaApi : Bool
  androidApi : Bool
  deriving DecidableEq, Inhabited

namespace Node

/-- The package of code that belongs to the app itself. -/
def appPackage : String := "-"

def method (name : String) (package : String) : Node where
  name
  hash := none
  isControl := false
  layoutFile := none
  elementId := none
  package
  className :=
    match name.toList with
    | '<' :: rest => some (String.ofList (rest.takeWhile (· ≠ ':')))
    | _ => none
  javaApi := false
  androidApi := false

def widget (name layoutFile : String) (elementId : Int) : Node where
  name
  hash := none
  isControl := true
  layoutFile := some layoutFile
  elementId := some elementId
  package := appPackage
  className := none
  javaApi := false
  androidApi := false

def isAppDefined (n : Node) : Bool := n.package = appPackage

def isApi (n : Node) : Bool := n.javaApi || n.androidApi

def layoutName (n : Node) : Option String :=
  n.layoutFile.map fun file => String.ofList (Text.before ".xml".toList file.toList)

end Node
end HandlerGraph
