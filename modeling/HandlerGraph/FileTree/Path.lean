import HandlerGraph.Text.Search

/-! Paths as they are written. Joining adds a slash unless there is nothing before it or a slash
already. The name of a path is its last part that is not empty or a dot, unless that is the parent
sign. Paths and their parts have a greatest length, and no path holds the null character. -/
namespace HandlerGraph.Path

def join (folder name : String) : String :=
  if folder = "" then name
  else if folder.toList.getLast? = some '/' then folder ++ name
  else folder ++ "/" ++ name

def parts (path : String) : List String := (Text.split '/' path.toList).map String.ofList

def fileName? (path : String) : Option String :=
  match ((parts path).filter fun p => p ≠ "" && p ≠ ".").getLast? with
  | some name => if name = ".." then none else some name
  | none => none

/-- Whether a path can be looked up at all. -/
def isUsable (path : String) : Bool :=
  path.utf8ByteSize ≤ 4095 && !path.toList.contains (Char.ofNat 0)

def nameFits (part : String) : Bool := part.utf8ByteSize ≤ 255

end HandlerGraph.Path
