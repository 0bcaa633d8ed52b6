import HandlerGraph.DeadLeaf
import HandlerGraph.Interest
import HandlerGraph.SwitchNoise

/-! Reduction of raw behaviors. Behaviors of no interest are dropped. From the others go the events
of other controls, the dead leaves if they are looked for, and the switch noise. How long each step
took is not computed here but read from a stopwatch that the caller supplies. -/
namespace HandlerGraph

structure Auxiliary where
  coverage : Coverage
  resources : Resources
  widgetTexts : WidgetTexts
  deriving DecidableEq, Inhabited

def Auxiliary.empty : Auxiliary := ⟨.empty, .empty, .empty⟩

structure ReductionRule where
  removeLeaves : Bool
  interest : Option Interest
  deriving DecidableEq, Inhabited

/-- Seconds for each raw behavior by its position, and for all of them. -/
structure Stopwatch where
  each : Nat → Seconds
  total : Seconds

def Stopwatch.stopped : Stopwatch := ⟨fun _ => 0, 0⟩

namespace Graph

def interests (g : Graph) (aux : Auxiliary) (rule : ReductionRule) (raw : RawBehavior) : Bool :=
  match rule.interest with
  | none => true
  | some i => i.keeps g aux.widgetTexts raw.control (endpoints raw.edges).toList

def strip (g : Graph) (aux : Auxiliary) (rule : ReductionRule) (time : Seconds)
    (raw : RawBehavior) : ReducedBehavior :=
  let base := raw.edges.filter (·.relation ≠ .event)
  let trigger := raw.edges.toList.filter (·.source = raw.control)
  let noise := g.switchNoise aux.coverage aux.resources raw base
  let dead := if rule.removeLeaves then g.deadLeaves base else .empty
  let surviving := (base.filter fun e => decide (¬ e ∈ dead)).addAll trigger
  let edges := surviving.filter fun e => decide (¬ e ∈ noise.removed)
  { control := raw.control
    callback := raw.callback
    size := Size.of edges
    oldSize := raw.size
    report :=
      { time
        switchNoise := surviving.size - edges.size
        deadLeaves := if rule.removeLeaves then some dead.size else none }
    edges
    subsumed := raw.subsumed
    inheritedMethods := if noise.inherited.isEmpty then none else some noise.inherited }

def reduce (g : Graph) (aux : Auxiliary) (rule : ReductionRule) (time : Seconds)
    (raw : RawBehavior) : Option ReducedBehavior :=
  if g.interests aux rule raw then some (g.strip aux rule time raw) else none

def reduceAll (g : Graph) (aux : Auxiliary) (rule : ReductionRule) (watch : Stopwatch)
    (raws : List RawBehavior) : ReducedBehaviors where
  time := watch.total
  behaviors := raws.zipIdx.filterMap fun (raw, i) => g.reduce aux rule (watch.each i) raw

end Graph
end HandlerGraph
