/-! Method signatures inside invoke expressions: the span from the first opening bracket to the
bracket that closes it, nested brackets such as those of constructors included. -/
namespace HandlerGraph

/-- The span that closes `depth` open brackets, up to and including the last of them. -/
def closingSpan : Nat → List Char → Option (List Char)
  | _, [] => none
  | depth, c :: rest =>
    if c = '<' then (closingSpan (depth + 1) rest).map (c :: ·)
    else if c = '>' then
      match depth with
      | 0 => none
      | 1 => some [c]
      | depth + 2 => (closingSpan (depth + 1) rest).map (c :: ·)
    else (closingSpan depth rest).map (c :: ·)

def enclosingSignature (expression : String) : Option String :=
  match expression.toList.dropWhile (· ≠ '<') with
  | [] => none
  | c :: rest => (closingSpan 1 rest).map fun span => String.ofList (c :: span)

end HandlerGraph
