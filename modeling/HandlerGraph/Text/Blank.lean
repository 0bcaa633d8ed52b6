import HandlerGraph.Text.Ranges

/-! White space in the sense of the Unicode property, and trimming by it. -/
namespace HandlerGraph.Text

def blankBoundaries : List Nat :=
  [9, 14, 32, 33, 133, 134, 160, 161, 5760, 5761, 8192, 8203, 8232, 8234, 8239, 8240, 8287, 8288,
    12288, 12289]

def isBlank (c : Char) : Bool := inRanges blankBoundaries c

def trimLeft (cs : List Char) : List Char := cs.dropWhile isBlank

def trim (cs : List Char) : List Char := (trimLeft (trimLeft cs).reverse).reverse

end HandlerGraph.Text
