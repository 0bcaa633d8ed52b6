import HandlerGraph.Command.Answer

/-! The command line on a real disk. The inputs of a request are copied into a tree, the request is
carried out there, and the mutations it recorded are then made on the disk in the same order. Times
inside the written files are zero. -/
namespace HandlerGraph

def realPath (place : Place) : String := "/" ++ "/".intercalate place

def copyEntry (t : FileTree) (place : Place) : IO FileTree := do
  if (t.get? place).isSome then return t
  let file := (← IO.currentDir) / realPath place
  if ← file.isDir then return t.put (realPath place) .folder
  else if ← file.pathExists then
    return t.put (realPath place) (.file (← IO.FS.readBinFile file).toList)
  else return t

def copyPath (t : FileTree) (path : String) : IO FileTree := do
  let place := (Path.parts path).foldl FileTree.next (t.origin path)
  let mut t := t
  for n in List.range (place.length + 1) do
    t ← copyEntry t (place.take n)
  if t.isFolder place then
    for e in ← ((← IO.currentDir) / realPath place).readDir do
      if ← e.path.isDir then t := t.put (realPath (place ++ [e.fileName])) .folder
  return t

/-- The settings have to be known before the other inputs are, so there are two rounds. -/
def copyInputs (request : Request) : IO FileTree := do
  let home := (Path.parts (← IO.currentDir).toString).foldl FileTree.next []
  let mut t : FileTree := { FileTree.empty with home }
  for _ in List.range 2 do
    t ← (request.inputs t).foldlM copyPath t
  return t

def makeReal : Mutation → IO Unit
  | .makeFolder place => IO.FS.createDir (realPath place)
  | .create place => IO.FS.writeBinFile (realPath place) ByteArray.empty
  | .write place bytes => IO.FS.writeBinFile (realPath place) ⟨bytes.toArray⟩
  | .rename source target => IO.FS.rename (realPath source) (realPath target)
  | .remove place => IO.FS.removeFile (realPath place)

def Answer.complaints (w : Wording) : Answer → List String
  | .summary s => s.failed.map fun (app, f) => app ++ ": " ++ f.message w
  | .text _ => []
  | .failure f => f.message :: f.cause?.toList.map (·.message w)

end HandlerGraph

open HandlerGraph

def main (args : List String) : IO UInt32 := do
  match Request.parse? args with
  | none =>
    IO.eprint Request.usage
    return 2
  | some request =>
    let start ← IO.monoMsNow
    let (answer, disk) := request.perform (fun _ => .stopped) (.ofTree (← copyInputs request))
    disk.history.reverse.forM makeReal
    let stop ← IO.monoMsNow
    (answer.complaints .silent).forM IO.eprintln
    IO.print (answer.output (some ((stop - start).toFloat / 1000)))
    return answer.exitCode.toUInt32
