import HandlerGraph.FileTree.Basic

/-! Programs on a disk: they read the tree as it stands, change it by mutations that are all
recorded, and stop at the first fault with the changes made until then. The device behind the disk
may fail any mutation; a sound device fails none. -/
namespace HandlerGraph

/-- A tree and the mutations that led to it, latest first. -/
structure Disk where
  tree : FileTree
  history : List Mutation
  deriving DecidableEq, Inhabited

/-- How a mutation fails. A write may have stored some bytes all the same, and it may have failed
before the whole text was made. -/
structure Mishap where
  why : Trouble
  stored : Nat
  midway : Bool
  deriving DecidableEq

/-- Which mutations fail, by the disk as it is when they are tried. -/
structure Device where
  fails : Disk → Mutation → Option Mishap

abbrev DiskM := ReaderT Device (ExceptT Fault (StateM Disk))

namespace Mishap

def fault (mishap : Mishap) (path : String) : Mutation → Fault
  | .write _ _ => if mishap.midway then .badJson ⟨path, none⟩ else mishap.why.fault path
  | _ => mishap.why.fault path

def left (mishap : Mishap) : Mutation → List Mutation
  | .write place bytes => [.write place (bytes.take mishap.stored)]
  | _ => []

end Mishap

namespace Device

def sound : Device := ⟨fun _ _ => none⟩

/-- A file that is there can be removed. -/
def Removes (device : Device) : Prop := ∀ d place, device.fails d (.remove place) = none

end Device

namespace Disk

def ofTree (tree : FileTree) : Disk := ⟨tree, []⟩

def perform (d : Disk) (m : Mutation) : Disk := ⟨d.tree.apply m, m :: d.history⟩

def performAll (d : Disk) (steps : List Mutation) : Disk := steps.foldl perform d

end Disk

namespace DiskM
variable {α : Type}

def execOn (device : Device) (program : DiskM α) (d : Disk) : Except Fault α × Disk :=
  (program.run device).run.run d

def exec (program : DiskM α) (d : Disk) : Except Fault α × Disk := execOn .sound program d

def tree : DiskM FileTree := do return (← get).tree

def attempt (m : Mutation) : DiskM (Option Mishap) := do
  let d ← get
  match (← read).fails d m with
  | none =>
    set (d.perform m)
    return none
  | some mishap =>
    set (d.performAll (mishap.left m))
    return some mishap

def mutate (path : String) (m : Mutation) : DiskM Unit := do
  match ← attempt m with
  | none => return
  | some mishap => throw (mishap.fault path m)

def reading (read : FileTree → Except Fault α) : DiskM α := do
  match read (← tree) with
  | .ok a => return a
  | .error f => throw f

def blaming (path : String) (find : FileTree → Except Trouble α) : DiskM α :=
  reading fun t => (find t).mapError (Trouble.fault path)

/-- Makes the folders on the way to a path; those made before trouble stay. -/
def makeFolders (path : String) : DiskM Unit := do
  if !Path.isUsable path then throw (.unreadable path)
  let t ← tree
  let (steps, trouble) := t.makeFolders (t.origin path) (Path.parts path)
  steps.forM (mutate path)
  match trouble with
  | none => return
  | some why => throw (why.fault path)

def filePlace (t : FileTree) (path : String) : Except Trouble Place := do
  let place ← t.locate path
  if t.isFolder place then .error .blocked else .ok place

/-- Writes a file next to its final place and then moves it there. -/
def save (folder path : String) (bytes : List UInt8) : DiskM Unit := do
  makeFolders folder
  let draft := path ++ ".tmp"
  let source ← blaming draft (filePlace · draft)
  mutate draft (.create source)
  mutate draft (.write source bytes)
  let target ← blaming path (filePlace · path)
  mutate path (.rename source target)

def removeFile (path : String) : DiskM Unit := do
  match (← tree).locate path with
  | .error .missing => return
  | .error .blocked => throw (.unreadable path)
  | .ok place =>
    match (← tree).get? place with
    | none => return
    | some .folder => throw (.unreadable path)
    | some (.file _) =>
      match ← attempt (.remove place) with
      | none => return
      | some mishap => if mishap.why = .missing then return else throw (.unreadable path)

end DiskM

namespace Disk
variable {α : Type}

def runOn (device : Device) (program : DiskM α) (tree : FileTree) : Except Fault α × Disk :=
  program.execOn device (ofTree tree)

def run (program : DiskM α) (tree : FileTree) : Except Fault α × Disk := runOn .sound program tree

end Disk
end HandlerGraph
