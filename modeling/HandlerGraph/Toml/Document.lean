import HandlerGraph.Toml.Number
import HandlerGraph.Toml.Text
import HandlerGraph.Toml.Value

/-! Configuration texts: lines that set keys, table headers, comments and empty lines. Values are
read with the containers that are still open, innermost first; blanks, line breaks and comments may
stand anywhere in an array, but an inline table stays on its line. Every step of a reader goes on
with a shorter text. -/
namespace HandlerGraph.Toml

/-- Fewer containers than this may lie inside one another, and fewer parts make up a key. -/
def nestingLimit : Nat := 80

def skipWs (input : List Char) : List Char := input.dropWhile isWs

def isBare (c : Char) : Bool := c.isAlphanum || c = '_' || c = '-'

def simpleKey? (input : List Char) : Option (String × List Char) :=
  match input with
  | '"' :: rest => (basicText [] rest).map fun (s, rest) => (String.ofList s, rest)
  | '\'' :: rest => (literalText [] rest).map fun (s, rest) => (String.ofList s, rest)
  | _ =>
    let key := input.takeWhile isBare
    if key.isEmpty then none else some (String.ofList key, input.dropWhile isBare)

def keyParts? (done : List String) (input : List Char) : Option (List String × List Char) :=
  match simpleKey? (skipWs input) with
  | none => none
  | some (part, rest) =>
    match skipWs rest with
    | '.' :: after =>
      if after.length < input.length then keyParts? (part :: done) after else none
    | after => some ((part :: done).reverse, after)
termination_by input.length

structure Key where
  path : List String
  last : String

def key? (input : List Char) : Option (Key × List Char) :=
  match keyParts? [] input with
  | none => none
  | some (parts, rest) =>
    match parts.getLast? with
    | none => none
    | some last => if parts.length < nestingLimit then some (⟨parts.dropLast, last⟩, rest) else none

def skipComment? (input : List Char) : Option (List Char) :=
  let rest := input.dropWhile isPlain
  if rest.isEmpty || startsLine rest then some rest else none

inductive Frame where
  | array
  | inline (fields : Fields) (key : Key)

inductive Expected where
  | value
  | valueOrEnd
  | arraySeparator
  | firstKey
  | nextKey
  | inlineSeparator

/-- What comes after a finished value: the value itself when nothing is open. -/
inductive Progress where
  | finished (v : Toml)
  | open (frames : List Frame) (expected : Expected)

def finishValue (v : Toml) : List Frame → Option Progress
  | [] => some (.finished v)
  | .array :: outer => some (.open (.array :: outer) .arraySeparator)
  | .inline fields key :: outer =>
    (assign key.path key.last v fields).map fun fields =>
      .open (.inline fields key :: outer) .inlineSeparator

def enterFrame (frame : Frame) (expected : Expected) (frames : List Frame) : Option Progress :=
  if frames.length + 1 < nestingLimit then some (.open (frame :: frames) expected) else none

def inlineKey (fields : Fields) (outer : List Frame) (input : List Char) :
    Option (Progress × List Char) :=
  match key? input with
  | some (key, '=' :: rest) => some (.open (.inline fields key :: outer) .value, rest)
  | _ => none

def startValue (frames : List Frame) (input : List Char) : Option (Progress × List Char) :=
  match input with
  | '[' :: rest => (enterFrame .array .valueOrEnd frames).map (·, rest)
  | '{' :: rest => (enterFrame (.inline [] ⟨[], ""⟩) .firstKey frames).map (·, rest)
  | '"' :: _ | '\'' :: _ =>
    (text? input).bind fun (s, rest) =>
      (finishValue (.text (String.ofList s)) frames).map (·, rest)
  | _ => (run? input).bind fun (v, rest) => (finishValue v frames).map (·, rest)

def closeArray (frames : List Frame) : Option Progress := finishValue .array (frames.drop 1)

def closeInline (frames : List Frame) : Option Progress := finishValue .inlineTable (frames.drop 1)

def step (frames : List Frame) (expected : Expected) (input : List Char) :
    Option (Progress × List Char) :=
  match expected, frames, input with
  | .value, _, _ => startValue frames input
  | .valueOrEnd, _, ']' :: rest => (closeArray frames).map (·, rest)
  | .valueOrEnd, _, _ => startValue frames input
  | .arraySeparator, _, ',' :: rest => some (.open frames .valueOrEnd, rest)
  | .arraySeparator, _, ']' :: rest => (closeArray frames).map (·, rest)
  | .firstKey, _, '}' :: rest => (closeInline frames).map (·, rest)
  | .firstKey, .inline fields _ :: outer, _ => inlineKey fields outer input
  | .nextKey, .inline fields _ :: outer, _ => inlineKey fields outer input
  | .inlineSeparator, _, ',' :: rest => some (.open frames .nextKey, rest)
  | .inlineSeparator, _, '}' :: rest => (closeInline frames).map (·, rest)
  | _, _, _ => none

def inArray : Expected → Bool
  | .valueOrEnd => true
  | .arraySeparator => true
  | _ => false

def readValue (frames : List Frame) (expected : Expected) (input : List Char) :
    Option (Toml × List Char) :=
  match input with
  | [] => none
  | c :: rest =>
    if isWs c || (inArray expected && c = '\n') then readValue frames expected rest
    else if inArray expected && startsLine (c :: rest) then readValue frames expected rest
    else if inArray expected && c = '#' then
      match skipComment? rest with
      | none => none
      | some after =>
        if after.length < (c :: rest).length then readValue frames expected after else none
    else
      match step frames expected (c :: rest) with
      | none => none
      | some (.finished v, after) => some (v, after)
      | some (.open frames expected, after) =>
        if after.length < (c :: rest).length then readValue frames expected after else none
termination_by input.length
decreasing_by
  all_goals simp only [List.length_cons] at *
  all_goals omega

/-- Blanks, an optional comment and the end of a line; what follows starts the next line. -/
def endOfLine? (input : List Char) : Option (List Char) :=
  let rest := skipWs input
  let after? :=
    match rest with
    | '#' :: comment => skipComment? comment
    | _ => some rest
  after?.bind fun after => if after.isEmpty || startsLine after then some (dropBreak after) else none

inductive Line where
  | blank
  | header (key : Key)
  | arrayHeader (key : Key)
  | setting (key : Key) (v : Toml)

def line? (input : List Char) : Option (Line × List Char) :=
  match skipWs input with
  | '[' :: '[' :: rest =>
    match key? rest with
    | some (key, ']' :: ']' :: after) => (endOfLine? after).map (.arrayHeader key, ·)
    | _ => none
  | '[' :: rest =>
    match key? rest with
    | some (key, ']' :: after) => (endOfLine? after).map (.header key, ·)
    | _ => none
  | start =>
    match endOfLine? start with
    | some after => some (.blank, after)
    | none =>
      match key? start with
      | some (key, '=' :: rest) =>
        (readValue [] .value rest).bind fun (v, after) => (endOfLine? after).map (.setting key v, ·)
      | _ => none

def enterLine (header : List String) (root : Fields) : Line → Option (List String × Fields)
  | .blank => some (header, root)
  | .header key => (giveTable key.path key.last root).map (key.path ++ [key.last], ·)
  | .arrayHeader key => (addTable key.path key.last root).map (key.path ++ [key.last], ·)
  | .setting key v => (assignIn header key.path key.last v root).map (header, ·)

def readLines (header : List String) (root : Fields) (input : List Char) : Option Fields :=
  if input.isEmpty then some root
  else
    match line? input with
    | none => none
    | some (line, rest) =>
      match enterLine header root line with
      | none => none
      | some (header, root) => if rest.length < input.length then readLines header root rest else none
termination_by input.length

def parse? (text : String) : Option Fields :=
  match text.toList with
  | c :: rest => if c.toNat = 0xFEFF then readLines [] [] rest else readLines [] [] (c :: rest)
  | [] => some []

end HandlerGraph.Toml
