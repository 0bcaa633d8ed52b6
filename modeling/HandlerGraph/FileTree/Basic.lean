import HandlerGraph.Fault
import HandlerGraph.FileTree.Path
import HandlerGraph.SortedMap

/-! Files and folders by place, where a place lists the names from the top of the tree down to an
entry. The top itself is a folder. A path is followed name by name from the top or, when it does not
begin with a slash, from the working folder; each name but the last must lead to a folder. Changes
to a tree are single mutations, so that a run can be seen as the list of its mutations. -/
namespace HandlerGraph

abbrev Place := List String

inductive Entry where
  | file (bytes : List UInt8)
  | folder
  deriving DecidableEq

structure FileTree where
  entries : SortedMap Place Entry
  /-- The working folder. -/
  home : Place
  deriving DecidableEq, Inhabited

/-- Why a path cannot be used: nothing is there, or something else stands in the way, which may be
the path itself when it is too long. -/
inductive Trouble where
  | missing
  | blocked
  deriving DecidableEq

def Trouble.fault (path : String) : Trouble → Fault
  | missing => .missingInput path
  | blocked => .unreadable path

inductive Mutation where
  | makeFolder (place : Place)
  | create (place : Place)
  | write (place : Place) (bytes : List UInt8)
  | rename (source target : Place)
  | remove (place : Place)
  deriving DecidableEq

namespace FileTree

def empty : FileTree := ⟨.empty, []⟩

def get? (t : FileTree) (place : Place) : Option Entry :=
  if place = [] then some .folder else t.entries.get? place

def isFolder (t : FileTree) (place : Place) : Bool := t.get? place = some .folder

def apply (t : FileTree) : Mutation → FileTree
  | .makeFolder place => { t with entries := t.entries.insert place .folder }
  | .create place => { t with entries := t.entries.insert place (.file []) }
  | .write place bytes => { t with entries := t.entries.insert place (.file bytes) }
  | .rename source target =>
    match t.entries.get? source with
    | none => t
    | some e => { t with entries := (t.entries.erase source).insert target e }
  | .remove place => { t with entries := t.entries.erase place }

@[simp] theorem home_apply (t : FileTree) (m : Mutation) : (t.apply m).home = t.home := by
  cases m with
  | rename source target =>
    simp only [apply]
    split <;> rfl
  | _ => rfl

theorem get?_makeFolder (t : FileTree) (place other : Place) :
    (t.apply (.makeFolder place)).get? other =
      if other = [] then some .folder else if other = place then some .folder else t.get? other := by
  by_cases top : other = [] <;> simp [get?, apply, top, SortedMap.get?_insert]

theorem get?_create (t : FileTree) (place other : Place) :
    (t.apply (.create place)).get? other =
      if other = [] then some .folder else if other = place then some (.file []) else t.get? other := by
  by_cases top : other = [] <;> simp [get?, apply, top, SortedMap.get?_insert]

theorem get?_write (t : FileTree) (place other : Place) (bytes : List UInt8) :
    (t.apply (.write place bytes)).get? other =
      if other = [] then some .folder else if other = place then some (.file bytes)
      else t.get? other := by
  by_cases top : other = [] <;> simp [get?, apply, top, SortedMap.get?_insert]

theorem get?_remove (t : FileTree) (place other : Place) :
    (t.apply (.remove place)).get? other =
      if other = [] then some .folder else if other = place then none else t.get? other := by
  by_cases top : other = [] <;> simp [get?, apply, top, SortedMap.get?_erase]

def next (place : Place) (part : String) : Place :=
  if part = "" || part = "." then place
  else if part = ".." then place.dropLast
  else place ++ [part]

def follow (t : FileTree) (place : Place) : List String → Except Trouble Place
  | [] => .ok place
  | part :: rest =>
    match t.get? place with
    | none => .error .missing
    | some (.file _) => .error .blocked
    | some .folder =>
      if Path.nameFits part then t.follow (next place part) rest else .error .blocked

def origin (t : FileTree) (path : String) : Place :=
  if path.toList.head? = some '/' then [] else t.home

/-- The place a path leads to, whether or not there is an entry. -/
def locate (t : FileTree) (path : String) : Except Trouble Place :=
  if path = "" then .error .missing
  else if Path.isUsable path then t.follow (t.origin path) (Path.parts path)
  else .error .blocked

def find (t : FileTree) (path : String) : Except Trouble Entry := do
  let place ← t.locate path
  match t.get? place with
  | none => .error .missing
  | some e => .ok e

def read (t : FileTree) (path : String) : Except Trouble (List UInt8) := do
  match ← t.find path with
  | .file bytes => .ok bytes
  | .folder => .error .blocked

def contains (t : FileTree) (path : String) : Bool := (t.find path).toOption.isSome

def hasContent (t : FileTree) (path : String) : Bool :=
  match t.find path with
  | .ok (.file (_ :: _)) => true
  | _ => false

def foldersIn (t : FileTree) (place : Place) : List String :=
  t.entries.entries.filterMap fun (p, e) =>
    match e with
    | .folder => if p.dropLast = place then p.getLast? else none
    | .file _ => none

/-- The mutations that make the missing folders on the way to a path, and what stops them if they
cannot all be made. -/
def makeFolders (t : FileTree) (place : Place) : List String → List Mutation × Option Trouble
  | [] => ([], if t.isFolder place then none else some .blocked)
  | part :: rest =>
    if t.isFolder place && Path.nameFits part then
      let further := next place part
      match t.get? further with
      | some _ => t.makeFolders further rest
      | none =>
        let m := Mutation.makeFolder further
        let (later, trouble) := (t.apply m).makeFolders further rest
        (m :: later, trouble)
    else ([], some .blocked)

def paths (t : FileTree) : List String :=
  (SortedSet.ofList (t.entries.entries.map fun (p, e) =>
    "/".intercalate p ++ if e = .folder then "/" else "")).toList

def put (t : FileTree) (path : String) (e : Entry) : FileTree :=
  let place := (Path.parts path).foldl next (t.origin path)
  let above := (List.range place.length).map fun n => place.take n
  let base := above.foldl (fun (t : FileTree) p =>
    if (t.get? p).isSome then t else t.apply (.makeFolder p)) t
  if place = [] then base else { base with entries := base.entries.insert place e }

def removeAll (t : FileTree) (path : String) : FileTree :=
  let place := (Path.parts path).foldl next (t.origin path)
  { t with entries :=
    ⟨t.entries.entries.filter fun e => !place.isPrefixOf e.1, t.entries.ascending.filter _⟩ }

end FileTree
end HandlerGraph
