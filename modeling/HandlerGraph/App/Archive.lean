import HandlerGraph.App.Folder
import HandlerGraph.Behavior.File
import HandlerGraph.FileTree.Disk

/-! The behavior files of an app. Raw behaviors are a cache: a file that cannot be understood counts
as absent. Files are written beside their place and moved there, so a stopped run leaves no half
file under a final name. -/
namespace HandlerGraph.AppFolder

def hasRaw (a : AppFolder) (t : FileTree) : Bool := t.contains a.rawBehaviors

def hasReduced (a : AppFolder) (t : FileTree) : Bool := t.hasContent a.reducedBehaviors

def cachedRaw? (a : AppFolder) (t : FileTree) : Option (List RawBehavior) :=
  if t.hasContent a.rawBehaviors then
    (t.read a.rawBehaviors).toOption.bind RawBehavior.readAll?
  else none

def saveRaw (a : AppFolder) (behaviors : List RawBehavior) : DiskM Unit :=
  DiskM.save a.encoding a.rawBehaviors (RawBehavior.writeAll behaviors)

def removeRaw (a : AppFolder) : DiskM Unit := DiskM.removeFile a.rawBehaviors

/-- A folder in place of the file opens but does not read. -/
def reduced (a : AppFolder) (t : FileTree) : Except Fault ReducedBehaviors :=
  match t.find a.reducedBehaviors with
  | .error trouble => .error (trouble.fault a.reducedBehaviors)
  | .ok .folder => .error (.badJson ⟨a.reducedBehaviors, none⟩)
  | .ok (.file bytes) =>
    match ReducedBehaviors.read? bytes with
    | some r => .ok r
    | none => .error (.badJson ⟨a.reducedBehaviors, bytes⟩)

def saveReduced (a : AppFolder) (r : ReducedBehaviors) : DiskM Unit :=
  DiskM.save a.encoding a.reducedBehaviors r.write

end HandlerGraph.AppFolder
