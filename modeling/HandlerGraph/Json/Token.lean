import HandlerGraph.Json.Basic

/-! Tokens of JSON text. Blanks are space, tab, line feed and carriage return. A number has no
superfluous leading zero, and a point or an exponent mark is followed by digits. In a string a
backslash starts one of the short escapes or four hexadecimal digits, and controls may not occur. -/
namespace HandlerGraph.Json

inductive Token where
  | beginArray
  | endArray
  | beginObject
  | endObject
  | comma
  | colon
  | scalar (value : Json)

namespace Token

def isBlank (b : UInt8) : Bool := b == 32 || b == 9 || b == 10 || b == 13

def isDigit (b : UInt8) : Bool := 48 ≤ b && b ≤ 57

def isHex (b : UInt8) : Bool := isDigit b || (65 ≤ b && b ≤ 70) || (97 ≤ b && b ≤ 102)

def mark? (b : UInt8) : Option Token :=
  if b = 91 then some beginArray
  else if b = 93 then some endArray
  else if b = 123 then some beginObject
  else if b = 125 then some endObject
  else if b = 44 then some comma
  else if b = 58 then some colon
  else none

/-- The letters that may follow a backslash, four digits aside. -/
def shortEscapes : List UInt8 := [34, 92, 47, 98, 102, 110, 114, 116]

def bodyLength (n : Nat) : List UInt8 → Option Nat
  | [] => none
  | 92 :: 117 :: a :: b :: c :: d :: rest =>
    if isHex a && isHex b && isHex c && isHex d then bodyLength (n + 6) rest else none
  | 92 :: e :: rest => if shortEscapes.contains e then bodyLength (n + 2) rest else none
  | b :: rest => if b = 34 then some n else if b < 32 || b = 92 then none else bodyLength (n + 1) rest

def digitsLength (input : List UInt8) : Nat := (input.takeWhile isDigit).length

def someDigits (input : List UInt8) : Option Nat :=
  match digitsLength input with
  | 0 => none
  | n => some n

def wholeLength (input : List UInt8) : Option Nat :=
  match someDigits input with
  | none => none
  | some n => if input.head? = some 48 && n ≠ 1 then none else some n

/-- An optional part that starts with a byte in `marks`, an optional sign if `signed`, and digits. -/
def tailLength (marks : List UInt8) (signed : Bool) : List UInt8 → Option Nat
  | [] => some 0
  | b :: rest =>
    if marks.contains b then
      match rest with
      | s :: after =>
        if signed && (s == 43 || s == 45) then (someDigits after).map (· + 2)
        else (someDigits rest).map (· + 1)
      | [] => none
    else some 0

def unsignedLength (input : List UInt8) : Option Nat := do
  let whole ← wholeLength input
  let fraction ← tailLength [46] false (input.drop whole)
  let exponent ← tailLength [101, 69] true (input.drop (whole + fraction))
  return whole + fraction + exponent

def numberLength (input : List UInt8) : Option Nat :=
  match input with
  | 45 :: rest => (unsignedLength rest).map (· + 1)
  | _ => unsignedLength input

/-- A scalar at the start of `b :: rest`, and how much of `rest` belongs to it. -/
def scalar? (b : UInt8) (rest : List UInt8) : Option (Json × Nat) :=
  if b = 34 then (bodyLength 0 rest).map fun n => (.text (rest.take n), n + 1)
  else if [110, 117, 108, 108].isPrefixOf (b :: rest) then some (.null, 3)
  else if [116, 114, 117, 101].isPrefixOf (b :: rest) then some (.bool true, 3)
  else if [102, 97, 108, 115, 101].isPrefixOf (b :: rest) then some (.bool false, 4)
  else (numberLength (b :: rest)).map fun n => (.number ((b :: rest).take n), n - 1)

def scan (found : List Token) (input : List UInt8) : Option (List Token) :=
  match input with
  | [] => some found.reverse
  | b :: rest =>
    if isBlank b then scan found rest
    else
      match mark? b with
      | some token => scan (token :: found) rest
      | none =>
        match scalar? b rest with
        | none => none
        | some (value, n) => scan (.scalar value :: found) (rest.drop n)
termination_by input.length
decreasing_by
  all_goals simp only [List.length_cons, List.length_drop]
  all_goals omega

end Token
end HandlerGraph.Json
