import HandlerGraph.Text.Numeral
import HandlerGraph.Toml.Document

/-! Settings of a batch. Keys that are left out keep their defaults, unknown ones are passed over,
and a known key with a value of the wrong kind or out of range makes the text invalid. -/
namespace HandlerGraph

structure Settings where
  /-- Calls followed past the first library callee; negative for no limit. -/
  nativeHop : Int
  trackFind : Bool
  noiseFilter : Bool
  removeLeaves : Bool
  useFilter : Bool
  rebuildRaw : Bool
  keepRaw : Bool
  rebuildReduced : Bool
  threads : Option Nat
  listsFolder : String
  /-- Auxiliary files larger than this count as unusable. -/
  maxAuxiliaryBytes : Nat
  deriving DecidableEq

namespace Settings

def default : Settings where
  nativeHop := 0
  trackFind := false
  noiseFilter := true
  removeLeaves := false
  useFilter := false
  rebuildRaw := false
  keepRaw := false
  rebuildReduced := false
  threads := none
  listsFolder := "lists"
  maxAuxiliaryBytes := 256 * 1024 * 1024

instance : Inhabited Settings := ⟨default⟩

def hopLimit (s : Settings) : Option Nat := if s.nativeHop < 0 then none else some s.nativeHop.toNat

def readBool (fields : Toml.Fields) (key : String) (default : Bool) : Option Bool :=
  match Toml.get? fields key with
  | none => some default
  | some (.boolean b) => some b
  | some _ => none

def readInt (fields : Toml.Fields) (key : String) (width : Nat) (default : Int) : Option Int :=
  match Toml.get? fields key with
  | none => some default
  | some (.integer i) => Numeral.signed? width i
  | some _ => none

def readNat (fields : Toml.Fields) (key : String) : Option (Option Nat) :=
  match Toml.get? fields key with
  | none => some none
  | some (.integer i) => if i < 0 then none else some (some i.toNat)
  | some _ => none

def readText (fields : Toml.Fields) (key : String) (default : String) : Option String :=
  match Toml.get? fields key with
  | none => some default
  | some (.text s) => some s
  | some _ => none

def ofFields? (fields : Toml.Fields) : Option Settings := do
  return {
    nativeHop := ← readInt fields "native_hop" 32 default.nativeHop
    trackFind := ← readBool fields "track_find_edges" default.trackFind
    noiseFilter := ← readBool fields "noise_filter" default.noiseFilter
    removeLeaves := ← readBool fields "remove_leaf" default.removeLeaves
    useFilter := ← readBool fields "use_filter" default.useFilter
    rebuildRaw := ← readBool fields "rewrite_behavior" default.rebuildRaw
    keepRaw := ← readBool fields "save_behavior" default.keepRaw
    rebuildReduced := ← readBool fields "rewrite_reduce" default.rebuildReduced
    threads := ← readNat fields "threads"
    listsFolder := ← readText fields "lists_dir" default.listsFolder
    maxAuxiliaryBytes := (← readNat fields "max_aux_bytes").getD default.maxAuxiliaryBytes }

def parse? (text : String) : Option Settings := (Toml.parse? text).bind ofFields?

end Settings
end HandlerGraph
