import HandlerGraph.Extraction

/-! Dead leaves: calls between methods of the app that never lead to library code. A callee with no
call left is dead; once it is dropped its caller may have none left either, so passes over the
candidates repeat until one drops nothing. -/
namespace HandlerGraph

inductive CalleeKind where
  | noCallee
  | selfOnly
  | hasApi
  deriving DecidableEq

/-- The candidates still alive, the calls dropped so far and their callees. -/
structure LeafSearch where
  alive : List Edge
  dropped : SortedSet Edge
  dead : SortedSet Nat

namespace Graph

def callsBeyond (g : Graph) (id : Nat) (excluded : Nat → Bool) : List Nat :=
  (g.callTargets id).filter fun t => !excluded t

def calleeKind (g : Graph) (id : Nat) (excluded : Nat → Bool) : CalleeKind :=
  let targets := g.callsBeyond id excluded
  if targets.isEmpty then .noCallee
  else if targets.all g.isAppDefined then .selfOnly
  else .hasApi

def isOwnCall (g : Graph) (e : Edge) : Bool :=
  e.relation = .call && g.isAppDefined e.source && g.isAppDefined e.target

end Graph

namespace LeafSearch

def isLeaf (g : Graph) (s : LeafSearch) (id : Nat) : Bool :=
  g.calleeKind id (fun t => decide (⟨id, t, .call⟩ ∈ s.dropped)) = .noCallee

/-- Candidates are taken in order, and a drop counts at once for those that follow. -/
def visit (g : Graph) (s : LeafSearch) (e : Edge) : LeafSearch :=
  if s.isLeaf g e.target then
    { s with dropped := s.dropped.insert ⟨e.source, e.target, .call⟩, dead := s.dead.insert e.target }
  else { s with alive := s.alive ++ [e] }

def pass (g : Graph) (s : LeafSearch) : LeafSearch :=
  s.alive.foldl (visit g) { s with alive := [] }

def settle (g : Graph) (s : LeafSearch) : LeafSearch :=
  let next := s.pass g
  if next.alive.length < s.alive.length then settle g next else next
termination_by s.alive.length

end LeafSearch

def Graph.deadLeaves (g : Graph) (edges : SortedSet Edge) : SortedSet Edge :=
  let found := LeafSearch.settle g ⟨edges.toList.filter g.isOwnCall, .empty, .empty⟩
  edges.filter fun e => decide (e.target ∈ found.dead)

end HandlerGraph
