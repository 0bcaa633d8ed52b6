import HandlerGraph.App.Archive
import HandlerGraph.App.Input

/-! A run over one app: load the graph, take the raw behaviors from their file or extract and save
them, reduce them, save the result, and drop the raw file unless it is to be kept. An app that looks
finished, or that has no tables, is skipped. -/
namespace HandlerGraph

inductive Outcome where
  | processed (raw reduced : Nat) (reusedRaw : Bool)
  | skipped
  deriving DecidableEq

def Settings.extractionRule (s : Settings) (lists : KeywordLists) : ExtractionRule where
  noise := if s.noiseFilter then lists.noise else .permissive
  hop := s.hopLimit
  filter := s.noiseFilter

def Settings.reductionRule (s : Settings) (lists : KeywordLists) : ReductionRule where
  removeLeaves := s.removeLeaves
  interest := if s.useFilter then some lists.interest else none

namespace AppFolder

/-- A reduced file is there and no raw file that would have to be worked off. -/
def isFinished (a : AppFolder) (s : Settings) (t : FileTree) : Bool :=
  !s.rebuildReduced && !s.keepRaw && a.hasReduced t && !a.hasRaw t

def rawBehaviorsOf (a : AppFolder) (s : Settings) (lists : KeywordLists) (g : Graph) :
    DiskM (List RawBehavior × Bool) := do
  let t ← DiskM.tree
  match if s.rebuildRaw then none else a.cachedRaw? t with
  | some raw => return (raw, true)
  | none =>
    let raw := g.extractAll (s.extractionRule lists)
    a.saveRaw raw
    return (raw, false)

def process (a : AppFolder) (s : Settings) (lists : KeywordLists) (watch : Stopwatch) (g : Graph) :
    DiskM Outcome := do
  let (raw, reused) ← a.rawBehaviorsOf s lists g
  let aux := (← DiskM.tree).auxiliary a s.maxAuxiliaryBytes s.useFilter
  let reduced := g.reduceAll aux (s.reductionRule lists) watch raw
  a.saveReduced reduced
  if !s.keepRaw then a.removeRaw
  return .processed raw.length reduced.behaviors.length reused

def run (a : AppFolder) (s : Settings) (lists : KeywordLists) (watch : Stopwatch) :
    DiskM Outcome := do
  if a.isFinished s (← DiskM.tree) then return .skipped
  match (← DiskM.tree).graph a s.trackFind with
  | .error (.missingInput _) => return .skipped
  | .error f => throw f
  | .ok g => a.process s lists watch g

end AppFolder
end HandlerGraph
