import HandlerGraph.Command.Request
import HandlerGraph.Inspection

/-! Carrying out requests. A run answers with a summary line and fails as a whole only when every app
failed or nothing could be started; what goes wrong before an app is reached gives no output. -/
namespace HandlerGraph

inductive Answer where
  | summary (s : BatchSummary)
  | text (s : String)
  | failure (f : Failure)

namespace Answer

def exitCode : Answer → UInt8
  | summary s => if s.allFailed then 1 else 0
  | text _ => 0
  | failure _ => 1

def output (elapsed : Option Seconds) : Answer → String
  | summary s =>
    s.line ++ (match elapsed with
      | some time => " in " ++ Seconds.fixed 1 time ++ "s"
      | none => "") ++ "\n"
  | text s => s
  | failure _ => ""

end Answer

namespace RunOptions

def settings (o : RunOptions) (t : FileTree) : Except Failure Settings :=
  match o.settingsFile with
  | none => .ok (o.over .default)
  | some path => ((t.settings path).mapError (Failure.settings path)).map o.over

def perform (o : RunOptions) (root : String) (watch : AppFolder → Stopwatch) (d : Disk) :
    Answer × Disk :=
  match o.settings d.tree with
  | .error f => (.failure f, d)
  | .ok s =>
    match d.tree.listsOf s.listsFolder with
    | .error f => (.failure f, d)
    | .ok lists =>
      match Batch.run s lists watch root d with
      | (.error f, d) => (.failure f, d)
      | (.ok summary, d) => (.summary summary, d)

/-- The paths a run reads, as far as a tree tells them. -/
def inputs (o : RunOptions) (root : String) (t : FileTree) : List String :=
  let lists := ((o.settings t).toOption.map fun s => KeywordLists.files s.listsFolder).getD []
  let apps := ((t.apps root).toOption.map fun apps => apps.flatMap AppFolder.files).getD []
  o.settingsFile.toList ++ lists ++ root :: apps

end RunOptions

namespace Request

def usage : String := Inspection.lines
  ["Usage:",
    "  run ROOT       extract and reduce behaviors of every app folder under ROOT",
    "    --config FILE            settings file; options take precedence",
    "    -b, --rewrite-behavior   extract again even if raw behaviors are there",
    "    -s, --save-behavior      keep raw behaviors after the reduction",
    "    -r, --rewrite-reduce     reduce again even if reduced behaviors are there",
    "    --hop N                  calls followed past the first library call, -1 for all",
    "    --threads N              worker threads",
    "    --find-edge              follow find edges",
    "    --remove-leaf            remove call chains that end nowhere",
    "    --filter                 keep only behaviors of interest",
    "    --no-noise-filter        follow noise too",
    "    --lists DIR              folder of the keyword lists",
    "  inspect APP    print reduced behaviors of one app",
    "    -i, --index N            print this behavior in full"]

def versionLine : String := Inspection.lines ["handler graph 0.1.0"]

def perform (watch : AppFolder → Stopwatch) (d : Disk) : Request → Answer × Disk
  | .run root options => options.perform root watch d
  | .inspect app index =>
    match Inspection.inspect d.tree app index with
    | .ok s => (.text s, d)
    | .error f => (.failure f, d)
  | .help => (.text usage, d)
  | .version => (.text versionLine, d)

def inputs (t : FileTree) : Request → List String
  | .run root options => options.inputs root t
  | .inspect app _ => [app.nodeTable, app.reducedBehaviors]
  | _ => []

end Request
end HandlerGraph
