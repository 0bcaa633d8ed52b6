import HandlerGraph.Json.Parse
import HandlerGraph.Seconds.Reading

/-! Values asked of a JSON document. Strings must be well formed text after their escapes are
resolved, and a surrogate must be half of a pair. Whole numbers are unsigned words of 64 bits
written without point, exponent or sign. A record is an object whose named fields occur at most
once, other fields being free, or an array of the fields in order with trailing ones left out. -/
namespace HandlerGraph.Json

def hexValue (b : UInt8) : Nat :=
  if b ≤ 57 then b.toNat - 48 else if b ≤ 70 then b.toNat - 55 else b.toNat - 87

def hexWord (a b c d : UInt8) : Nat :=
  ((hexValue a * 16 + hexValue b) * 16 + hexValue c) * 16 + hexValue d

def utf8Bytes (code : Nat) : List UInt8 := String.utf8EncodeChar (Char.ofNat code)

def shortValue? (e : UInt8) : Option UInt8 :=
  if e = 34 || e = 92 || e = 47 then some e
  else if e = 98 then some 8
  else if e = 102 then some 12
  else if e = 110 then some 10
  else if e = 114 then some 13
  else if e = 116 then some 9
  else none

/-- The bytes a string body stands for, after those in `done`, latest first. -/
def unescape (done : List UInt8) : List UInt8 → Option (List UInt8)
  | [] => some done.reverse
  | 92 :: 117 :: a :: b :: c :: d :: rest =>
    let code := hexWord a b c d
    if code < 0xD800 || 0xE000 ≤ code then unescape ((utf8Bytes code).reverse ++ done) rest
    else if 0xDC00 ≤ code then none
    else
      match rest with
      | 92 :: 117 :: e :: f :: g :: h :: rest =>
        let low := hexWord e f g h
        if 0xDC00 ≤ low && low < 0xE000 then
          let full := 0x10000 + (code - 0xD800) * 0x400 + (low - 0xDC00)
          unescape ((utf8Bytes full).reverse ++ done) rest
        else none
      | _ => none
  | 92 :: e :: rest => (shortValue? e).bind fun b => unescape (b :: done) rest
  | b :: rest => unescape (b :: done) rest

def decodeBody? (body : List UInt8) : Option String := (unescape [] body).bind Text.decode?

def text? : Json → Option String
  | text body => decodeBody? body
  | _ => none

def natural? : Json → Option Nat
  | number lexeme =>
    if lexeme.all Token.isDigit then
      let n := lexeme.foldl (fun n b => n * 10 + Seconds.digitOf b) 0
      if n < 0x10000000000000000 then some n else none
    else none
  | _ => none

def seconds? : Json → Option Float
  | number lexeme => Seconds.ofLexeme? lexeme
  | _ => none

def items? : Json → Option (List Json)
  | array items => some items
  | _ => none

def arrayOf? {α : Type} (read : Json → Option α) (v : Json) : Option (List α) :=
  v.items?.bind fun items => items.mapM read

def optional? {α : Type} (read : Json → Option α) : Json → Option (Option α)
  | null => some none
  | v => (read v).map some

def fields? : Json → Option (List (String × Json))
  | object fields => fields.mapM fun (key, v) => (decodeBody? key).map (·, v)
  | _ => none

/-- At most one field may go by one of the given names. -/
def pick? (fields : List (String × Json)) (names : List String) : Option (Option Json) :=
  match fields.filter fun f => names.contains f.1 with
  | [] => some none
  | [f] => some (some f.2)
  | _ => none

/-- The fields of a record in the order of `names`, where each has a list of names it may go by. -/
def record? (names : List (List String)) : Json → Option (List (Option Json))
  | array items =>
    if items.length ≤ names.length then
      some (items.map some ++ List.replicate (names.length - items.length) none)
    else none
  | v => v.fields?.bind fun fields => names.mapM (pick? fields)

def required? {α : Type} (read : Json → Option α) (field : Option Json) : Option α := field.bind read

def defaulted? {α : Type} (read : Json → Option α) (default : α) : Option Json → Option α
  | none => some default
  | some v => read v

mutual

/-- Whether every lexeme means something and at most `depth` containers lie inside one another. -/
def isSound (depth : Nat) : Json → Bool
  | null => true
  | bool _ => true
  | number lexeme => (Seconds.ofLexeme? lexeme).isSome
  | text body => (decodeBody? body).isSome
  | array items =>
    match depth with
    | 0 => false
    | depth + 1 => areSound depth items
  | object fields =>
    match depth with
    | 0 => false
    | depth + 1 => fieldsAreSound depth fields

def areSound (depth : Nat) : List Json → Bool
  | [] => true
  | v :: rest => isSound depth v && areSound depth rest

def fieldsAreSound (depth : Nat) : List (List UInt8 × Json) → Bool
  | [] => true
  | (key, v) :: rest => (decodeBody? key).isSome && isSound depth v && fieldsAreSound depth rest

end

end HandlerGraph.Json
