import HandlerGraph.Edge

/-! Behaviors: for a control and one of its callbacks, the part of the knowledge graph that the
event can reach. A raw behavior is what extraction finds; a reduced one is what remains of it,
with a report on what was taken away. -/
namespace HandlerGraph

abbrev Seconds := Float

structure Size where
  node : Nat
  edge : Nat
  deriving DecidableEq, Inhabited

def endpoints (edges : SortedSet Edge) : SortedSet Nat :=
  .ofList (edges.toList.flatMap fun e => [e.source, e.target])

def Size.of (edges : SortedSet Edge) : Size := ⟨(endpoints edges).size, edges.size⟩

/-- `subsumed` are the controls all of whose adjacency lies inside `edges`. -/
structure RawBehavior where
  control : Nat
  callback : Nat
  size : Size
  edges : SortedSet Edge
  subsumed : SortedSet Nat
  deriving DecidableEq, Inhabited

def RawBehavior.ofEdges (control callback : Nat) (edges : SortedSet Edge)
    (subsumed : SortedSet Nat) : RawBehavior :=
  ⟨control, callback, Size.of edges, edges, subsumed⟩

/-- `deadLeaves` is absent when dead leaves were not looked for. -/
structure ReductionReport where
  time : Seconds
  switchNoise : Nat
  deadLeaves : Option Nat
  deriving DecidableEq, Inhabited

/-- `inheritedMethods` are callees whose caller is known on a superclass only. -/
structure ReducedBehavior where
  control : Nat
  callback : Nat
  size : Size
  oldSize : Size
  report : ReductionReport
  edges : SortedSet Edge
  subsumed : SortedSet Nat
  inheritedMethods : Option (SortedSet String)
  deriving DecidableEq, Inhabited

structure ReducedBehaviors where
  time : Seconds
  behaviors : List ReducedBehavior
  deriving DecidableEq, Inhabited

end HandlerGraph
