import HandlerGraph.Fault
import HandlerGraph.Relation
import HandlerGraph.SortedSet
import HandlerGraph.Text.Search

/-! Edges between numbered nodes. Edges are ordered by source, then target, then relation code. In
files an edge is three decimal numbers separated by single spaces, each below two to the 63. -/
namespace HandlerGraph

@[ext] structure Edge where
  source : Nat
  target : Nat
  relation : Relation
  deriving DecidableEq, Inhabited

namespace Edge

def Before (a b : Edge) : Prop :=
  a.source < b.source ∨ a.source = b.source ∧
    (a.target < b.target ∨ a.target = b.target ∧ a.relation.code < b.relation.code)

instance (a b : Edge) : Decidable (Before a b) := by
  unfold Before
  infer_instance

instance : Ordered Edge where
  lt := Before
  decide_lt := inferInstance
  irrefl a h := by
    simp only [Before] at h
    omega
  trans {a b c} h k := by
    simp only [Before] at *
    omega
  connected {a b} h k := by
    simp only [Before] at h k
    have codes : a.relation.code = b.relation.code := by omega
    exact Edge.ext (by omega) (by omega) (Relation.code_injective codes)

def render (e : Edge) : String :=
  String.ofList (Numeral.decimal e.source ++ ' ' :: (Numeral.decimal e.target ++
    ' ' :: Numeral.decimal e.relation.code))

def number? (part : List Char) : Option Nat :=
  (Numeral.natural? 10 part).bind (Numeral.unsigned? 63)

/-- The three numbers are read before the relation is looked at, and the relation before anything
that follows it. -/
def parse (text : String) : Except Fault Edge :=
  match Text.split ' ' text.toList with
  | first :: second :: third :: rest =>
    match number? first, number? second, number? third with
    | some source, some target, some code =>
      match Relation.ofCode? code with
      | none => .error (.relationCode code)
      | some relation =>
        if rest.isEmpty then .ok ⟨source, target, relation⟩ else .error (.malformedEdge text)
    | _, _, _ => .error (.malformedEdge text)
  | _ => .error (.malformedEdge text)

def ofRow (source target : Nat) (code : Int) : Except Fault Edge :=
  match Relation.ofCode? code with
  | none => .error (.relationCode code)
  | some relation => .ok ⟨source, target, relation⟩

end Edge
end HandlerGraph
