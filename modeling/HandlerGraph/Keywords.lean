import HandlerGraph.Text.Blank
import HandlerGraph.Text.Search

/-! Keyword lists. Empty keywords are dropped, since they would occur in every text. A list file
has one keyword a line; blanks around it are trimmed, and a line that starts with two slashes is a
comment. -/
namespace HandlerGraph

structure Keywords where
  words : List String
  nonempty : ∀ w ∈ words, w ≠ ""
  deriving DecidableEq

namespace Keywords

def ofList (words : List String) : Keywords where
  words := words.filter (· ≠ "")
  nonempty := by simp

def none : Keywords := ofList []

instance : Inhabited Keywords := ⟨none⟩

def isEmpty (k : Keywords) : Bool := k.words.isEmpty

def occurIn (k : Keywords) (text : String) : Bool :=
  k.words.any fun w => Text.occursIn w.toList text.toList

def isComment (line : List Char) : Bool := "//".toList.isPrefixOf line

def ofText (text : String) : Keywords :=
  ofList ((((Text.split '\n' text.toList).map Text.trim).filter (!isComment ·)).map String.ofList)

end Keywords
end HandlerGraph
