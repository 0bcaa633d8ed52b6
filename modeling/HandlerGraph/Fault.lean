import HandlerGraph.Text.Numeral
import HandlerGraph.Text.Quoted

/-! What can go wrong for one app, by cause. Paths are given as they were asked for and contents as
they were read. `Fault.message` words every fault; what the reader of a format says about a file is
a parameter of it, and what the operating system says about a path is left out. -/
namespace HandlerGraph

/-- A file that could not be made out, without its content if the disk failed while it was read or
written. -/
structure Source where
  path : String
  content : Option (List UInt8)
  deriving DecidableEq

/-- What the readers of formats say about a file. -/
structure Wording where
  table : Source → String
  json : Source → String
  resources : Source → String
  settings : Source → String

def Wording.silent : Wording := ⟨fun _ => "", fun _ => "", fun _ => "", fun _ => ""⟩

inductive ResourceFault where
  | badLayoutId (name id : String)
  | malformed
  deriving DecidableEq

inductive AuxiliaryFault where
  | tooLarge (size limit : Nat)
  | malformed (content : List UInt8)
  deriving DecidableEq

inductive Fault where
  | missingInput (path : String)
  | unreadable (path : String)
  | badTable (source : Source)
  | badJson (source : Source)
  | badResources (source : Source) (cause : ResourceFault)
  | badAuxiliary (path : String) (cause : AuxiliaryFault)
  | relationCode (code : Int)
  | nodeOutOfRange (id count : Nat)
  | malformedEdge (text : String)
  | badSettings (source : Source)
  deriving DecidableEq

def ResourceFault.message (f : ResourceFault) (detail : String := "") : String :=
  match f with
  | .badLayoutId name id => "layout " ++ name ++ " has a bad id " ++ Text.quoted id
  | .malformed => detail

def AuxiliaryFault.message (f : AuxiliaryFault) (detail : List UInt8 → String) : String :=
  match f with
  | .tooLarge size limit =>
    String.ofList (Numeral.decimal size) ++ " bytes exceeds the " ++
      String.ofList (Numeral.decimal limit) ++ " byte limit"
  | .malformed content => detail content

namespace Fault

def message (f : Fault) (w : Wording := .silent) : String :=
  match f with
  | missingInput path => "missing input: " ++ path
  | unreadable path => "i/o error on " ++ path ++ ": "
  | badTable source => "malformed table " ++ source.path ++ ": " ++ w.table source
  | badJson source => "malformed json " ++ source.path ++ ": " ++ w.json source
  | badResources source cause =>
    "malformed resource xml " ++ source.path ++ ": " ++ cause.message (w.resources source)
  | badAuxiliary path cause =>
    "unusable auxiliary data " ++ path ++ ": " ++ cause.message fun content => w.json ⟨path, content⟩
  | relationCode code =>
    "relation code " ++ String.ofList (Numeral.decimalInt code) ++ " is outside 0..=4"
  | nodeOutOfRange id count =>
    "node id " ++ String.ofList (Numeral.decimal id) ++ " out of range (table has " ++
      String.ofList (Numeral.decimal count) ++ " nodes)"
  | malformedEdge text => "malformed edge triple " ++ Text.quoted text
  | badSettings source => "invalid config " ++ source.path ++ ": " ++ w.settings source

/-- Faults that make an auxiliary input count as absent rather than fail the app. -/
def isRecoverable : Fault → Bool
  | badResources _ _ => true
  | badAuxiliary _ _ => true
  | _ => false

end Fault
end HandlerGraph
