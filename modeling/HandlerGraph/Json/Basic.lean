import HandlerGraph.Text.Utf8

/-! JSON documents as written. Numbers and strings keep their lexemes: a number is its characters, a
string is the bytes between its quotes, escapes included. What a lexeme means, and whether it means
anything, is decided where the value is asked for, so that parts of a document nobody asks for need
only be well formed. -/
namespace HandlerGraph

inductive Json where
  | null
  | bool (value : Bool)
  | number (lexeme : List UInt8)
  | text (body : List UInt8)
  | array (items : List Json)
  | object (fields : List (List UInt8 × Json))
  deriving Inhabited

namespace Json

def hexDigit (n : Nat) : UInt8 := if n < 10 then UInt8.ofNat (48 + n) else UInt8.ofNat (87 + n)

def escapeByte (b : UInt8) : List UInt8 :=
  if b = 34 then [92, 34]
  else if b = 92 then [92, 92]
  else if b = 8 then [92, 98]
  else if b = 9 then [92, 116]
  else if b = 10 then [92, 110]
  else if b = 12 then [92, 102]
  else if b = 13 then [92, 114]
  else if b < 32 then [92, 117, 48, 48, hexDigit (b.toNat / 16), hexDigit (b.toNat % 16)]
  else [b]

def escape (s : String) : List UInt8 := (Text.encode s).flatMap escapeByte

def ofString (s : String) : Json := text (escape s)

def ofNat (n : Nat) : Json := number ((Nat.toDigits 10 n).map fun c => UInt8.ofNat c.toNat)

def ofInt (i : Int) : Json :=
  if i < 0 then number (45 :: (Nat.toDigits 10 i.natAbs).map fun c => UInt8.ofNat c.toNat)
  else ofNat i.natAbs

def record (fields : List (String × Json)) : Json :=
  object (fields.map fun (name, value) => (escape name, value))

mutual

/-- Compact text: no blanks between lexemes. -/
def render : Json → List UInt8
  | null => [110, 117, 108, 108]
  | bool true => [116, 114, 117, 101]
  | bool false => [102, 97, 108, 115, 101]
  | number lexeme => lexeme
  | text body => 34 :: body ++ [34]
  | array items => 91 :: renderItems items ++ [93]
  | object fields => 123 :: renderFields fields ++ [125]

def renderItems : List Json → List UInt8
  | [] => []
  | [v] => render v
  | v :: w :: rest => render v ++ 44 :: renderItems (w :: rest)

def renderFields : List (List UInt8 × Json) → List UInt8
  | [] => []
  | [(key, v)] => 34 :: key ++ 34 :: 58 :: render v
  | (key, v) :: f :: rest => 34 :: key ++ 34 :: 58 :: render v ++ 44 :: renderFields (f :: rest)

end

end Json
end HandlerGraph
