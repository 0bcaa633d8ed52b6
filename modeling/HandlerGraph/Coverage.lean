import HandlerGraph.SortedMap
import HandlerGraph.Text.Numeral

/-! Branch coverage: which cases of a switch were exercised, by element and layout of the control
that selects them. A key is the element id, a dollar sign and the layout id. -/
namespace HandlerGraph

/-- `caller` took the branch that calls `callee`. -/
structure SwitchCase where
  caller : String
  callee : String
  deriving DecidableEq, Inhabited

structure Coverage where
  cases : SortedMap String (List SwitchCase)
  deriving DecidableEq, Inhabited

namespace Coverage

def empty : Coverage := ⟨.empty⟩

def isEmpty (c : Coverage) : Bool := c.cases.isEmpty

def get? (c : Coverage) (key : String) : Option (List SwitchCase) := c.cases.get? key

def compositeKey (element layout : Int) : String :=
  String.ofList (Numeral.decimalInt element ++ '$' :: Numeral.decimalInt layout)

def elementOf (key : String) : String := String.ofList (key.toList.takeWhile (· ≠ '$'))

def ofElement (c : Coverage) (element : String) : List (String × List SwitchCase) :=
  c.cases.entries.filter fun e => elementOf e.1 = element

end Coverage
end HandlerGraph
