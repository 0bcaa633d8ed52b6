import HandlerGraph.Text.Numeral

/-! Strings of a configuration text. Basic strings have escapes, literal ones have none; both come in
a one-line and a long form. In long strings a line break right after the opening is dropped, breaks
are single line feeds, up to two quotes may stand before the closing ones, and in the basic form a
backslash at the end of a line joins it to the next word. -/
namespace HandlerGraph.Toml

def isWs (c : Char) : Bool := c = ' ' || c = '\t'

/-- Characters that need no escape, quotes and backslashes aside. -/
def isPlain (c : Char) : Bool := c = '\t' || (0x20 ≤ c.toNat && c.toNat ≠ 0x7F)

def codePoint? (digits : List Char) : Option Char :=
  (Numeral.natural? 16 digits).bind fun n => if n.isValidChar then some (Char.ofNat n) else none

def shortEscape? (c : Char) : Option Char :=
  if c = 'b' then some (Char.ofNat 8)
  else if c = 't' then some '\t'
  else if c = 'n' then some '\n'
  else if c = 'f' then some (Char.ofNat 12)
  else if c = 'r' then some '\r'
  else if c = '"' then some '"'
  else if c = '\\' then some '\\'
  else none

def basicText (done : List Char) : List Char → Option (List Char × List Char)
  | [] => none
  | '\\' :: 'u' :: a :: b :: c :: d :: rest =>
    (codePoint? [a, b, c, d]).bind fun x => basicText (x :: done) rest
  | '\\' :: 'U' :: a :: b :: c :: d :: e :: f :: g :: h :: rest =>
    (codePoint? [a, b, c, d, e, f, g, h]).bind fun x => basicText (x :: done) rest
  | '\\' :: e :: rest => (shortEscape? e).bind fun x => basicText (x :: done) rest
  | c :: rest =>
    if c = '"' then some (done.reverse, rest)
    else if isPlain c && c ≠ '\\' then basicText (c :: done) rest
    else none

def literalText (done : List Char) : List Char → Option (List Char × List Char)
  | [] => none
  | c :: rest =>
    if c = '\'' then some (done.reverse, rest)
    else if isPlain c then literalText (c :: done) rest
    else none

/-- Three quotes end a long string; of further ones at most two belong to it. -/
def closing? (q : Char) (done input : List Char) : Option (List Char × List Char) :=
  let quotes := (input.takeWhile (· = q)).length
  if quotes < 3 then none
  else
    let extra := min 2 (quotes - 3)
    some ((List.replicate extra q ++ done).reverse, input.drop (extra + 3))

def startsLine (input : List Char) : Bool :=
  match input with
  | '\n' :: _ => true
  | '\r' :: '\n' :: _ => true
  | _ => false

/-- A long basic string after its opening; `joining` is set after a backslash at the end of a
line. -/
def longBasicText (joining : Bool) (done : List Char) : List Char → Option (List Char × List Char)
  | [] => none
  | '\r' :: '\n' :: rest => longBasicText joining (if joining then done else '\n' :: done) rest
  | '\\' :: 'u' :: a :: b :: c :: d :: rest =>
    (codePoint? [a, b, c, d]).bind fun x => longBasicText false (x :: done) rest
  | '\\' :: 'U' :: a :: b :: c :: d :: e :: f :: g :: h :: rest =>
    (codePoint? [a, b, c, d, e, f, g, h]).bind fun x => longBasicText false (x :: done) rest
  | '\\' :: e :: rest =>
    if startsLine ((e :: rest).dropWhile isWs) then longBasicText true done rest
    else (shortEscape? e).bind fun x => longBasicText false (x :: done) rest
  | c :: rest =>
    if joining && (isWs c || c = '\n') then longBasicText true done rest
    else if c = '\n' then longBasicText false (c :: done) rest
    else if c = '"' then
      match closing? '"' done (c :: rest) with
      | some found => some found
      | none => longBasicText false (c :: done) rest
    else if isPlain c && c ≠ '\\' then longBasicText false (c :: done) rest
    else none

def longLiteralText (done : List Char) : List Char → Option (List Char × List Char)
  | [] => none
  | '\r' :: '\n' :: rest => longLiteralText ('\n' :: done) rest
  | c :: rest =>
    if c = '\'' then
      match closing? '\'' done (c :: rest) with
      | some found => some found
      | none => longLiteralText (c :: done) rest
    else if isPlain c || c = '\n' then longLiteralText (c :: done) rest
    else none

def dropBreak : List Char → List Char
  | '\n' :: rest => rest
  | '\r' :: '\n' :: rest => rest
  | cs => cs

def text? : List Char → Option (List Char × List Char)
  | '"' :: '"' :: '"' :: rest => longBasicText false [] (dropBreak rest)
  | '\'' :: '\'' :: '\'' :: rest => longLiteralText [] (dropBreak rest)
  | '"' :: rest => basicText [] rest
  | '\'' :: rest => literalText [] rest
  | _ => none

end HandlerGraph.Toml
