import HandlerGraph.Keywords

/-! Mundane nodes. A node is noise when its name is not a method signature, or when a keyword occurs
in the function part or in the class part of the signature. The class part ends at the first colon
and the function part runs from there to the first parenthesis. -/
namespace HandlerGraph

structure NoiseRule where
  calls : Keywords
  classes : Keywords
  deriving DecidableEq, Inhabited

namespace NoiseRule

/-- Rejects only names that are no signatures. -/
def permissive : NoiseRule := ⟨Keywords.none, Keywords.none⟩

def classPart (name : String) : String :=
  if name.toList.contains ':' then String.ofList (name.toList.takeWhile (· ≠ ':')) else ""

def functionPart (name : String) : String :=
  let member :=
    if name.toList.contains ':' then (name.toList.dropWhile (· ≠ ':')).drop 1 else name.toList
  String.ofList (member.takeWhile (· ≠ '('))

def isNoise (rule : NoiseRule) (name : String) : Bool :=
  !name.toList.contains '(' || rule.calls.occurIn (functionPart name) ||
    rule.classes.occurIn (classPart name)

end NoiseRule
end HandlerGraph
