import HandlerGraph.Edge
import HandlerGraph.Node
import HandlerGraph.SortedMap

/-! The knowledge graph of one app with the indices that walks need. Node ids are row numbers. Rows
of the edge table are entered one by one; a `hold` row is stored from child to parent and walked
from parent to child, and `find` rows count only when they are tracked. Adjacency keeps row
order. -/
namespace HandlerGraph

structure Neighbor where
  target : Nat
  relation : Relation
  deriving DecidableEq, Inhabited

structure Graph where
  nodes : Array Node
  edges : List Edge
  adjacency : Array (List Neighbor)
  calls : Array (List Nat)
  controlEdges : SortedSet Edge
  controls : SortedSet Nat
  actingControls : SortedSet Nat
  idsByName : SortedMap String (List Nat)

namespace Graph

def indexNames : Nat → List Node → SortedMap String (List Nat) → SortedMap String (List Nat)
  | _, [], index => index
  | id, n :: rest, index =>
    indexNames (id + 1) rest (index.insert n.name ((index.get? n.name).getD [] ++ [id]))

def start (nodes : List Node) (edges : List Edge) : Graph where
  nodes := nodes.toArray
  edges
  adjacency := Array.replicate nodes.length []
  calls := Array.replicate nodes.length []
  controlEdges := .empty
  controls := .empty
  actingControls := .empty
  idsByName := indexNames 0 nodes .empty

def link (g : Graph) (id : Nat) (n : Neighbor) : Graph :=
  { g with adjacency := g.adjacency.modify id (· ++ [n]) }

def addControlEdge (g : Graph) (e : Edge) : Graph :=
  { g.link e.source ⟨e.target, e.relation⟩ with
    controls := g.controls.insert e.source
    controlEdges := g.controlEdges.insert e }

def enter (trackFind : Bool) (g : Graph) (e : Edge) : Graph :=
  match e.relation with
  | .hold => { g.link e.target ⟨e.source, .hold⟩ with controls := g.controls.insert e.target }
  | .find => if trackFind then g.addControlEdge e else g
  | .use => g.addControlEdge e
  | .event =>
    { g.addControlEdge e with actingControls := g.actingControls.insert e.source }
  | .call =>
    { g.link e.source ⟨e.target, .call⟩ with
      calls := g.calls.modify e.source (· ++ [e.target]) }

/-- Both ends are checked before a row is entered, the source first. -/
def addRow (trackFind : Bool) (g : Graph) (e : Edge) : Except Fault Graph :=
  if g.nodes.size ≤ e.source then .error (.nodeOutOfRange e.source g.nodes.size)
  else if g.nodes.size ≤ e.target then .error (.nodeOutOfRange e.target g.nodes.size)
  else .ok (enter trackFind g e)

def build (nodes : List Node) (edges : List Edge) (trackFind : Bool) : Except Fault Graph :=
  edges.foldlM (addRow trackFind) (start nodes edges)

def size (g : Graph) : Nat := g.nodes.size

def node? (g : Graph) (id : Nat) : Option Node := g.nodes[id]?

def nameOf (g : Graph) (id : Nat) : String := ((g.node? id).map Node.name).getD ""

def packageOf (g : Graph) (id : Nat) : String := ((g.node? id).map Node.package).getD ""

def isAppDefined (g : Graph) (id : Nat) : Bool := ((g.node? id).map Node.isAppDefined).getD false

def neighbors (g : Graph) (id : Nat) : List Neighbor := g.adjacency[id]?.getD []

def outgoing (g : Graph) (id : Nat) : List Edge :=
  (g.neighbors id).map fun n => ⟨id, n.target, n.relation⟩

def callTargets (g : Graph) (id : Nat) : List Nat := g.calls[id]?.getD []

def idsNamed (g : Graph) (name : String) : List Nat := (g.idsByName.get? name).getD []

def targets (g : Graph) : List Nat := g.adjacency.toList.flatten.map Neighbor.target

theorem target_mem_targets {g : Graph} {id : Nat} {n : Neighbor} (h : n ∈ g.neighbors id) :
    n.target ∈ g.targets := by
  rw [neighbors] at h
  cases found : g.adjacency[id]? with
  | none => simp [found] at h
  | some l =>
    rw [found, Option.getD_some] at h
    have inside : l ∈ g.adjacency.toList := by
      rw [Array.mem_toList_iff]
      exact Array.mem_of_getElem? found
    exact List.mem_map.mpr ⟨n, List.mem_flatten.mpr ⟨l, inside, h⟩, rfl⟩

end Graph
end HandlerGraph
