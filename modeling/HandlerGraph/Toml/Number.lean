import HandlerGraph.Text.Numeral
import HandlerGraph.Text.Search
import HandlerGraph.Toml.Value

/-! Numbers, truth values and points in time, each a run of letters, digits and a few signs.
Underscores may stand between digits. Integers are signed words of 64 bits. A number with a fraction
that would be positive infinity is refused. Dates and times must exist on the calendar and clock,
a leap second included. -/
namespace HandlerGraph.Toml

/-- Digits of a base with single underscores between them; the result has none. -/
def joined? (base : Nat) (cs : List Char) : Option (List Char) :=
  let pieces := Text.split '_' cs
  if pieces.all fun p => (Numeral.natural? base p).isSome then some pieces.flatten else none

def plainDecimal? (cs : List Char) : Option (List Char) :=
  (joined? 10 cs).filter fun ds => ds = ['0'] || ds.head? ≠ some '0'

def splitSign : List Char → Bool × List Char
  | '-' :: cs => (true, cs)
  | '+' :: cs => (false, cs)
  | cs => (false, cs)

def integer? (cs : List Char) : Option Int :=
  let value? : Option Int :=
    match cs with
    | '0' :: 'x' :: ds => ((joined? 16 ds).bind (Numeral.natural? 16)).map Int.ofNat
    | '0' :: 'o' :: ds => ((joined? 8 ds).bind (Numeral.natural? 8)).map Int.ofNat
    | '0' :: 'b' :: ds => ((joined? 2 ds).bind (Numeral.natural? 2)).map Int.ofNat
    | _ =>
      let (negative, ds) := splitSign cs
      ((plainDecimal? ds).bind (Numeral.natural? 10)).map fun n => if negative then -(n : Int) else n
  value?.bind (Numeral.signed? 64)

/-- Half a step above the largest finite binary number; from here on values round to infinity. -/
def infinityBound : Nat := Nat.pow 2 1024 - Nat.pow 2 970

def overflows (digits : List Char) (exponent : Int) : Bool :=
  let n := (Numeral.natural? 10 digits).getD 0
  let magnitude := ((Nat.toDigits 10 n).length : Int) + exponent
  if n = 0 || magnitude < 300 then false
  else if 400 < magnitude then true
  else infinityBound * Nat.pow 10 (-exponent).toNat ≤ n * Nat.pow 10 exponent.toNat

def isFraction (cs : List Char) : Bool :=
  let (negative, body) := splitSign cs
  let isMark := fun c => c = 'e' || c = 'E'
  let mantissa := body.takeWhile (!isMark ·)
  let whole := mantissa.takeWhile (· ≠ '.')
  let fraction? : Option (List Char) :=
    if mantissa.contains '.' then joined? 10 (mantissa.drop (whole.length + 1)) else some []
  let exponent? : Option Int :=
    if body.any isMark then
      let (below, digits) := splitSign (body.drop (mantissa.length + 1))
      ((joined? 10 digits).bind (Numeral.natural? 10)).map fun n => if below then -(n : Int) else n
    else some 0
  match plainDecimal? whole, fraction?, exponent? with
  | some w, some f, some e =>
    (mantissa.contains '.' || body.any isMark) && (negative || !overflows (w ++ f) (e - f.length))
  | _, _, _ => false

def isSpecial (cs : List Char) : Bool :=
  let body := (splitSign cs).2
  body = "inf".toList || body = "nan".toList

def fixedDigits? (n : Nat) (cs : List Char) : Option (Nat × List Char) :=
  if (cs.take n).length = n then (Numeral.natural? 10 (cs.take n)).map (·, cs.drop n) else none

def expect? (c : Char) : List Char → Option (List Char)
  | d :: rest => if c = d then some rest else none
  | [] => none

def isLeap (year : Nat) : Bool := year % 4 = 0 && (year % 100 ≠ 0 || year % 400 = 0)

def daysIn (year month : Nat) : Nat :=
  if month = 2 then if isLeap year then 29 else 28
  else if month = 4 || month = 6 || month = 9 || month = 11 then 30
  else 31

def date? (cs : List Char) : Option (List Char) := do
  let (year, cs) ← fixedDigits? 4 cs
  let cs ← expect? '-' cs
  let (month, cs) ← fixedDigits? 2 cs
  let cs ← expect? '-' cs
  let (day, cs) ← fixedDigits? 2 cs
  if 1 ≤ month && month ≤ 12 && 1 ≤ day && day ≤ daysIn year month then some cs else none

def time? (cs : List Char) : Option (List Char) := do
  let (hour, cs) ← fixedDigits? 2 cs
  let cs ← expect? ':' cs
  let (minute, cs) ← fixedDigits? 2 cs
  let cs ← expect? ':' cs
  let (second, cs) ← fixedDigits? 2 cs
  if hour ≤ 23 && minute ≤ 59 && second ≤ 60 then
    match cs with
    | '.' :: rest =>
      let digits := rest.takeWhile fun c => (Numeral.digit? 10 c).isSome
      if digits.isEmpty then none else some (rest.drop digits.length)
    | _ => some cs
  else none

def isOffset : List Char → Bool
  | [] => true
  | ['Z'] => true
  | ['z'] => true
  | c :: cs =>
    (c = '+' || c = '-') &&
      match fixedDigits? 2 cs with
      | some (hour, ':' :: rest) =>
        match fixedDigits? 2 rest with
        | some (minute, []) => hour ≤ 23 && minute ≤ 59
        | _ => false
      | _ => false

def isTimeWithOffset (cs : List Char) : Bool :=
  match time? cs with
  | some rest => isOffset rest
  | none => false

def isDate (cs : List Char) : Bool := date? cs = some []

def isMoment (cs : List Char) : Bool :=
  time? cs = some [] ||
    match date? cs with
    | some [] => true
    | some (c :: rest) => (c = 'T' || c = 't') && isTimeWithOffset rest
    | none => false

def isRun (c : Char) : Bool :=
  c.isAlphanum || c = '_' || c = '+' || c = '-' || c = '.' || c = ':'

def ofRun? (run : List Char) : Option Toml :=
  if run = "true".toList then some (.boolean true)
  else if run = "false".toList then some (.boolean false)
  else
    match integer? run with
    | some i => some (.integer i)
    | none =>
      if isFraction run || isSpecial run then some .fraction
      else if isMoment run then some .moment
      else none

/-- A run at the start of a text; a date may be joined to a time by one space. -/
def run? (input : List Char) : Option (Toml × List Char) :=
  let run := input.takeWhile isRun
  let rest := input.dropWhile isRun
  match rest with
  | ' ' :: after =>
    let second := after.takeWhile isRun
    if isDate run && !second.isEmpty then
      if isTimeWithOffset second then some (.moment, after.dropWhile isRun) else none
    else (ofRun? run).map (·, rest)
  | _ => (ofRun? run).map (·, rest)

end HandlerGraph.Toml
