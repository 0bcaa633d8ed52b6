import HandlerGraph.App.Folder
import HandlerGraph.Command.Argument
import HandlerGraph.Settings

/-! What a command line asks for. An option may be given once, an empty path counts as none, and
every operand and option must be understood; otherwise there is no request. -/
namespace HandlerGraph

/-- Options of a run; they take precedence over a settings file. -/
structure RunOptions where
  root : Option String := none
  settingsFile : Option String := none
  rebuildRaw : Bool := false
  keepRaw : Bool := false
  rebuildReduced : Bool := false
  hop : Option Int := none
  threads : Option Nat := none
  findEdge : Bool := false
  removeLeaf : Bool := false
  useFilter : Bool := false
  noNoiseFilter : Bool := false
  lists : Option String := none
  debug : Bool := false
  deriving DecidableEq

structure InspectOptions where
  app : Option String := none
  index : Option Nat := none
  debug : Bool := false
  deriving DecidableEq

inductive Request where
  | run (root : String) (options : RunOptions)
  | inspect (app : AppFolder) (index : Option Nat)
  | help
  | version
  deriving DecidableEq

namespace Request

def path? (text : String) : Option String := if text = "" then none else some text

def count? (text : String) : Option Nat :=
  let digits :=
    match text.toList with
    | '+' :: rest => rest
    | cs => cs
  (Numeral.natural? 10 digits).bind (Numeral.unsigned? 64)

def hop? (text : String) : Option Int :=
  (Numeral.integer? 10 text.toList).bind (Numeral.signed? 32)

def fresh {α : Type} (old : Option α) (new : Option α) : Option (Option α) :=
  if old.isSome || new.isNone then none else some new

def raised (old : Bool) : Option Bool := if old then none else some true

def helpRule : OptionRule where
  long := "help"
  short := some 'h'

def debugRule : OptionRule where
  long := "debug"

def runRules : List OptionRule :=
  [{ long := "config", takesValue := true },
    { long := "rewrite-behavior", short := some 'b' },
    { long := "save-behavior", short := some 's' },
    { long := "rewrite-reduce", short := some 'r' },
    { long := "hop", takesValue := true, allowsNegative := true },
    { long := "threads", takesValue := true },
    { long := "find-edge" }, { long := "remove-leaf" }, { long := "filter" },
    { long := "no-noise-filter" }, { long := "lists", takesValue := true },
    debugRule, helpRule]

def inspectRules : List OptionRule :=
  [{ long := "index", short := some 'i', takesValue := true }, debugRule, helpRule]

def topRules : List OptionRule :=
  [debugRule, helpRule, { long := "version", short := some 'V' }]

def takeRun (o : RunOptions) : Argument → Option RunOptions
  | .switch "rewrite-behavior" => do
    return { o with rebuildRaw := ← raised o.rebuildRaw }
  | .switch "save-behavior" => do return { o with keepRaw := ← raised o.keepRaw }
  | .switch "rewrite-reduce" => do return { o with rebuildReduced := ← raised o.rebuildReduced }
  | .switch "find-edge" => do return { o with findEdge := ← raised o.findEdge }
  | .switch "remove-leaf" => do return { o with removeLeaf := ← raised o.removeLeaf }
  | .switch "filter" => do return { o with useFilter := ← raised o.useFilter }
  | .switch "no-noise-filter" => do return { o with noNoiseFilter := ← raised o.noNoiseFilter }
  | .switch "debug" => do return { o with debug := ← raised o.debug }
  | .option "config" path => do return { o with settingsFile := ← fresh o.settingsFile (path? path) }
  | .option "hop" number => do return { o with hop := ← fresh o.hop (hop? number) }
  | .option "threads" number => do return { o with threads := ← fresh o.threads (count? number) }
  | .option "lists" path => do return { o with lists := ← fresh o.lists (path? path) }
  | .operand path => do return { o with root := ← fresh o.root (path? path) }
  | _ => none

def takeInspect (o : InspectOptions) : Argument → Option InspectOptions
  | .switch "debug" => do return { o with debug := ← raised o.debug }
  | .option "index" number => do return { o with index := ← fresh o.index (count? number) }
  | .operand path => do return { o with app := ← fresh o.app (path? path) }
  | _ => none

/-- Takes arguments one by one; a call for help ends them. -/
def gather {α : Type} (take : α → Argument → Option α) (finish : α → Option Request) (o : α) :
    List Argument → Option Request
  | [] => finish o
  | .switch "help" :: _ => some .help
  | a :: rest => (take o a).bind fun o => gather take finish o rest

def ofRun (args : List String) : Option Request :=
  gather takeRun (fun o => o.root.map fun root => .run root o) {} (Argument.scan runRules args)

def ofInspect (args : List String) : Option Request :=
  gather takeInspect (fun o => o.app.map fun app => .inspect ⟨app⟩ o.index) {}
    (Argument.scan inspectRules args)

def ofHelp : List String → Option Request
  | [] => some .help
  | [topic] => if ["run", "inspect", "help"].contains topic then some .help else none
  | _ => none

/-- A top switch before the subcommand: an answer at once, or debugging turned on. -/
def ofTop (debug : Bool) : List Argument → Option (Bool ⊕ Request)
  | [] => some (.inl debug)
  | .switch "help" :: _ => some (.inr .help)
  | .switch "version" :: _ => some (.inr .version)
  | .switch "debug" :: rest => (raised debug).bind fun debug => ofTop debug rest
  | _ => none

def ofArguments (debug : Bool) : List String → Option Request
  | [] => none
  | "run" :: rest => ofRun rest
  | "inspect" :: rest => ofInspect rest
  | "help" :: rest => ofHelp rest
  | text :: rest =>
    match Argument.shape topRules text with
    | .whole arguments =>
      match ofTop debug arguments with
      | some (.inl debug) => ofArguments debug rest
      | some (.inr request) => some request
      | none => none
    | _ => none

def parse? (args : List String) : Option Request := ofArguments false args

end Request

def RunOptions.over (o : RunOptions) (s : Settings) : Settings where
  nativeHop := o.hop.getD s.nativeHop
  trackFind := s.trackFind || o.findEdge
  noiseFilter := s.noiseFilter && !o.noNoiseFilter
  removeLeaves := s.removeLeaves || o.removeLeaf
  useFilter := s.useFilter || o.useFilter
  rebuildRaw := s.rebuildRaw || o.rebuildRaw
  keepRaw := s.keepRaw || o.keepRaw
  rebuildReduced := s.rebuildReduced || o.rebuildReduced
  threads := o.threads.or s.threads
  listsFolder := o.lists.getD s.listsFolder
  maxAuxiliaryBytes := s.maxAuxiliaryBytes

end HandlerGraph
