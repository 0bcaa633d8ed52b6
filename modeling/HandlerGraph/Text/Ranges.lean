/-! Character properties given by ascending boundaries: code points from the first boundary up to
but not including the second have the property, those up to the third do not, and so on. -/
namespace HandlerGraph.Text

def inRanges (boundaries : List Nat) (c : Char) : Bool :=
  (boundaries.takeWhile (· ≤ c.toNat)).length % 2 == 1

end HandlerGraph.Text
