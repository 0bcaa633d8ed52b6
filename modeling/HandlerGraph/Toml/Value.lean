/-! Tables of a configuration text. A table is given by a header, implied by a longer header, or made
by a dotted key; a table can be given only once, a key set only once, and a table given by a header
cannot be extended by dotted keys. Values keep only as much as can be asked of them: numbers with a
fraction, points in time, arrays and inline tables keep just their kind. -/
namespace HandlerGraph

inductive Toml where
  | text (value : String)
  | integer (value : Int)
  | boolean (value : Bool)
  | fraction
  | moment
  | array
  | inlineTable
  | table (fields : List (String × Toml)) (given dotted : Bool)
  | tables (elements : List (List (String × Toml)))
  deriving Inhabited

namespace Toml

abbrev Fields := List (String × Toml)

def get? (fields : Fields) (key : String) : Option Toml :=
  (fields.find? (·.1 = key)).map Prod.snd

def set (key : String) (v : Toml) : Fields → Fields
  | [] => [(key, v)]
  | f :: rest => if f.1 = key then (key, v) :: rest else f :: set key v rest

/-- Changes the table at a path, where tables that are missing on the way are made. Of a list of
tables the latest is meant. `change` learns whether the table was made by a dotted key. -/
def within (byKey : Bool) (change : Bool → Fields → Option Fields) (dotted : Bool)
    (fields : Fields) : List String → Option Fields
  | [] => change dotted fields
  | key :: path =>
    match get? fields key with
    | none => (within byKey change byKey [] path).map fun t => set key (.table t false byKey) fields
    | some (.table inner given made) =>
      if byKey && given then none
      else (within byKey change made inner path).map fun t => set key (.table t given made) fields
    | some (.tables (latest :: earlier)) =>
      (within byKey change false latest path).map fun t => set key (.tables (t :: earlier)) fields
    | some _ => none

/-- Sets a key; a dotted key may only end in a table that dotted keys made. -/
def assign (path : List String) (key : String) (v : Toml) (fields : Fields) : Option Fields :=
  within true
    (fun dotted inner =>
      if dotted == path.isEmpty then none
      else if (get? inner key).isSome then none
      else some (inner ++ [(key, v)]))
    false fields path

def giveTable (path : List String) (key : String) (root : Fields) : Option Fields :=
  within false
    (fun _ inner =>
      match get? inner key with
      | none => some (set key (.table [] true false) inner)
      | some (.table t false false) => some (set key (.table t true false) inner)
      | some _ => none)
    false root path

def addTable (path : List String) (key : String) (root : Fields) : Option Fields :=
  within false
    (fun _ inner =>
      match get? inner key with
      | none => some (set key (.tables [[]]) inner)
      | some (.tables elements) => some (set key (.tables ([] :: elements)) inner)
      | some _ => none)
    false root path

def assignIn (header path : List String) (key : String) (v : Toml) (root : Fields) : Option Fields :=
  within false (fun _ inner => assign path key v inner) false root header

end Toml
end HandlerGraph
