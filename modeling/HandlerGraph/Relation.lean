/-! The five relations of a knowledge graph and their codes in tables and files. -/
namespace HandlerGraph

inductive Relation where
  | call
  | find
  | hold
  | use
  | event
  deriving DecidableEq, Inhabited

namespace Relation

def code : Relation → Nat
  | call => 0
  | find => 1
  | hold => 2
  | use => 3
  | event => 4

def ofCode? : Int → Option Relation
  | 0 => some call
  | 1 => some find
  | 2 => some hold
  | 3 => some use
  | 4 => some event
  | _ => none

@[simp] theorem ofCode?_code (r : Relation) : ofCode? r.code = some r := by
  cases r <;> rfl

theorem code_injective {r s : Relation} (h : r.code = s.code) : r = s := by
  cases r <;> cases s <;> simp_all [code]

def label : Relation → String
  | call => "call"
  | find => "find"
  | hold => "hold"
  | use => "use"
  | event => "event"

/-- Relations that tie a control to code whether or not `find` rows are tracked. -/
def tiesCode : Relation → Bool
  | use | event => true
  | _ => false

end Relation
end HandlerGraph
