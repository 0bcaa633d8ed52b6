import HandlerGraph.App.Run

/-! Batches: every folder directly under a root is an app, in ascending order of names. A fault stops
its own app only. -/
namespace HandlerGraph

/-- Why a command as a whole fails. -/
inductive Failure where
  | batchRoot (root : String)
  | keywordLists (folder : String) (cause : Fault)
  | settings (path : String) (cause : Fault)
  | nodes (app : String) (cause : Fault)
  | reduced (app : String) (cause : Fault)
  | noBehavior (index count : Nat)
  deriving DecidableEq

namespace Failure

def message : Failure → String
  | batchRoot root => "cannot read batch root " ++ root
  | keywordLists folder _ => "failed to load keyword lists from " ++ folder
  | settings path _ => "cannot load config " ++ path
  | nodes app _ => "cannot load nodes of " ++ app
  | reduced app _ => "cannot load reduced behaviors of " ++ app
  | noBehavior index count =>
    "behavior " ++ String.ofList (Numeral.decimal index) ++ " out of range (" ++
      String.ofList (Numeral.decimal count) ++ " behaviors)"

def cause? : Failure → Option Fault
  | keywordLists _ cause => some cause
  | settings _ cause => some cause
  | nodes _ cause => some cause
  | reduced _ cause => some cause
  | _ => none

end Failure

structure AppReport where
  app : String
  result : Except Fault Outcome

/-- The reports of a batch, apps in ascending order. -/
structure BatchSummary where
  reports : List AppReport

namespace AppReport

def isSkipped (r : AppReport) : Bool :=
  match r.result with
  | .ok .skipped => true
  | _ => false

def isProcessed (r : AppReport) : Bool :=
  match r.result with
  | .ok (.processed ..) => true
  | _ => false

def fault? (r : AppReport) : Option Fault :=
  match r.result with
  | .error f => some f
  | .ok _ => none

end AppReport

namespace BatchSummary

def processed (s : BatchSummary) : List AppReport := s.reports.filter AppReport.isProcessed

def skipped (s : BatchSummary) : List String := (s.reports.filter AppReport.isSkipped).map AppReport.app

def failed (s : BatchSummary) : List (String × Fault) :=
  s.reports.filterMap fun r => r.fault?.map (r.app, ·)

def total (s : BatchSummary) : Nat := s.processed.length + s.skipped.length + s.failed.length

def allFailed (s : BatchSummary) : Bool :=
  !s.failed.isEmpty && s.processed.isEmpty && s.skipped.isEmpty

def line (s : BatchSummary) : String :=
  let number := fun n => String.ofList (Numeral.decimal n)
  number s.total ++ " apps: " ++ number s.processed.length ++ " processed, " ++
    number s.skipped.length ++ " skipped, " ++ number s.failed.length ++ " failed"

end BatchSummary

def FileTree.apps (t : FileTree) (root : String) : Except Failure (List AppFolder) :=
  match t.locate root with
  | .error _ => .error (.batchRoot root)
  | .ok place =>
    if t.isFolder place then .ok ((t.foldersIn place).map fun name => ⟨Path.join root name⟩)
    else .error (.batchRoot root)

def FileTree.listsOf (t : FileTree) (folder : String) : Except Failure KeywordLists :=
  (t.keywordLists folder).mapError (.keywordLists folder)

namespace Batch

def runApp (s : Settings) (lists : KeywordLists) (watch : Stopwatch) (d : Disk) (a : AppFolder) :
    AppReport × Disk :=
  let (result, d) := (a.run s lists watch).exec d
  (⟨a.name, result⟩, d)

def runApps (s : Settings) (lists : KeywordLists) (watch : AppFolder → Stopwatch) (d : Disk) :
    List AppFolder → List AppReport × Disk
  | [] => ([], d)
  | a :: rest =>
    let (report, d) := runApp s lists (watch a) d a
    let (reports, d) := runApps s lists watch d rest
    (report :: reports, d)

def run (s : Settings) (lists : KeywordLists) (watch : AppFolder → Stopwatch) (root : String)
    (d : Disk) : Except Failure BatchSummary × Disk :=
  match d.tree.apps root with
  | .error f => (.error f, d)
  | .ok apps =>
    let (reports, d) := runApps s lists watch d apps
    (.ok ⟨reports⟩, d)

end Batch
end HandlerGraph
