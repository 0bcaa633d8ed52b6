/-! Tags of markup text, in the order in which they begin. Elements may stand side by side and may be
left open at the end, but a closing tag has to name the innermost open element, blanks after its
name aside. Comments, character data, instructions and document type declarations are passed over
once they are closed. A closing angle inside quotes does not end a tag. -/
namespace HandlerGraph.Markup

structure Tag where
  name : List Char
  inside : List Char
  deriving DecidableEq

def isBlank (c : Char) : Bool := c = ' ' || c = '\n' || c = '\r' || c = '\t'

/-- Characters before the angle that ends a tag, after `n` of them; `quote` is the open quote. -/
def tagLength (quote : Option Char) (n : Nat) : List Char → Option Nat
  | [] => none
  | c :: rest =>
    match quote with
    | none =>
      if c = '>' then some n
      else tagLength (if c = '"' || c = '\'' then some c else none) (n + 1) rest
    | some q => tagLength (if c = q then none else some q) (n + 1) rest

/-- Characters before the first closing angle that follows `mark` with more than `least` characters
before it; `passed` holds those already passed, latest first. -/
def lengthUpTo (mark : List Char) (least : Nat) (passed : List Char) : List Char → Option Nat
  | [] => none
  | c :: rest =>
    if c = '>' && mark.isPrefixOf passed && least < passed.length then some passed.length
    else lengthUpTo mark least (c :: passed) rest

def declarationLength (depth n : Nat) : List Char → Option Nat
  | [] => none
  | c :: rest =>
    if c = '<' then declarationLength (depth + 1) (n + 1) rest
    else if c = '>' then
      match depth with
      | 0 => some n
      | depth + 1 => declarationLength depth (n + 1) rest
    else declarationLength depth (n + 1) rest

inductive Piece where
  | opening (tag : Tag)
  | empty (tag : Tag)
  | closing (name : List Char)
  | passedOver

def Tag.ofContent (content : List Char) : Tag :=
  ⟨content.takeWhile (!isBlank ·), content.dropWhile (!isBlank ·)⟩

/-- A name without the blanks after it; blanks alone are a name of their own. -/
def closingName (content : List Char) : List Char :=
  let trimmed := (content.reverse.dropWhile isBlank).reverse
  if trimmed.isEmpty then content else trimmed

def ofElement (content : List Char) : Piece :=
  match content.getLast? with
  | some '/' => .empty (Tag.ofContent content.dropLast)
  | _ => .opening (Tag.ofContent content)

def passIf (ok : List Char → Bool) (input : List Char) (n : Nat) : Option (Piece × Nat) :=
  if ok (input.take n) then some (.passedOver, n + 1) else none

def isDocType (content : List Char) : Bool :=
  (content.take 8).map Char.toUpper = "!DOCTYPE".toList && (content.drop 8).any (!isBlank ·)

/-- What begins after an opening angle, and how many characters belong to it. -/
def piece? (input : List Char) : Option (Piece × Nat) :=
  match input with
  | [] => none
  | '!' :: '[' :: _ =>
    (lengthUpTo [']', ']'] 0 [] input).bind (passIf ("![CDATA[".toList.isPrefixOf ·) input)
  | '!' :: '-' :: _ =>
    (lengthUpTo ['-', '-'] 4 [] input).bind (passIf ("!--".toList.isPrefixOf ·) input)
  | '!' :: 'D' :: _ => (declarationLength 0 0 input).bind (passIf isDocType input)
  | '!' :: 'd' :: _ => (declarationLength 0 0 input).bind (passIf isDocType input)
  | '!' :: _ => none
  | '/' :: _ =>
    (tagLength none 0 input).map fun n => (.closing (closingName ((input.take n).drop 1)), n + 1)
  | '?' :: _ => (lengthUpTo ['?'] 0 [] input).bind (passIf (1 < ·.length) input)
  | _ => (tagLength none 0 input).map fun n => (ofElement (input.take n), n + 1)

/-- The tags up to the first error, and whether the text ended without one. -/
structure Tags where
  tags : List Tag
  wellFormed : Bool

def scan (opened : List (List Char)) (found : List Tag) (input : List Char) : Tags :=
  match input with
  | [] => ⟨found.reverse, true⟩
  | c :: rest =>
    if c ≠ '<' then scan opened found rest
    else
      match piece? rest with
      | none => ⟨found.reverse, false⟩
      | some (.opening tag, n) => scan (tag.name :: opened) (tag :: found) (rest.drop n)
      | some (.empty tag, n) => scan opened (tag :: found) (rest.drop n)
      | some (.passedOver, n) => scan opened found (rest.drop n)
      | some (.closing name, n) =>
        match opened with
        | [] => ⟨found.reverse, false⟩
        | inner :: outer =>
          if inner = name then scan outer found (rest.drop n) else ⟨found.reverse, false⟩
termination_by input.length
decreasing_by
  all_goals simp only [List.length_cons, List.length_drop]
  all_goals omega

def tags (text : List Char) : Tags :=
  match text with
  | c :: rest => if c.toNat = 0xFEFF then scan [] [] rest else scan [] [] text
  | [] => scan [] [] []

end HandlerGraph.Markup
