/-! Finding and cutting text. Everything works on lists of characters; occurrences are looked for
from the left. -/
namespace HandlerGraph.Text

def occursIn (needle : List Char) : List Char → Bool
  | [] => needle.isEmpty
  | c :: rest => needle.isPrefixOf (c :: rest) || occursIn needle rest

theorem occursIn_iff {needle hay : List Char} :
    occursIn needle hay = true ↔ needle <:+: hay := by
  induction hay with
  | nil => rw [occursIn, List.isEmpty_iff, List.infix_nil]
  | cons c rest ih =>
    rw [occursIn, Bool.or_eq_true, ih, List.isPrefixOf_iff_prefix, List.infix_cons_iff]

/-- The text before the first occurrence of `mark`, or the whole text when there is none. -/
def before (mark : List Char) : List Char → List Char
  | [] => []
  | c :: rest => if mark.isPrefixOf (c :: rest) then [] else c :: before mark rest

def fromFirst (c : Char) (cs : List Char) : List Char :=
  let tail := cs.dropWhile (· ≠ c)
  if tail.isEmpty then cs else tail

def split (mark : Char) : List Char → List (List Char)
  | [] => [[]]
  | c :: rest =>
    if c = mark then [] :: split mark rest
    else
      match split mark rest with
      | [] => [[c]]
      | piece :: pieces => (c :: piece) :: pieces

theorem split_ne_nil (mark : Char) (cs : List Char) : split mark cs ≠ [] := by
  cases cs with
  | nil => simp [split]
  | cons c rest =>
    rw [split]
    split
    · simp
    · split <;> simp

end HandlerGraph.Text
