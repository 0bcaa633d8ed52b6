import HandlerGraph.Json.Token

/-! Reading a JSON number as a binary floating-point number. Digits are gathered into a word of 64
bits for as long as they fit; further digits before the point only raise the exponent, and further
digits after it are dropped. The word is then multiplied or divided by a power of ten. A result
beyond the largest finite number is refused, one below the smallest becomes zero. -/
namespace HandlerGraph.Seconds

/-- A word of digits and the power of ten it is to be multiplied by. -/
structure Significand where
  word : Nat
  exponent : Int

def Significand.fits (s : Significand) (digit : Nat) : Bool := s.word * 10 + digit < 0x10000000000000000

def digitOf (b : UInt8) : Nat := b.toNat - 48

def gatherWhole (s : Significand) : List UInt8 → Significand
  | [] => s
  | b :: rest =>
    if s.fits (digitOf b) then gatherWhole { s with word := s.word * 10 + digitOf b } rest
    else { s with exponent := s.exponent + (rest.length + 1 : Nat) }

def gatherFraction (s : Significand) : List UInt8 → Significand
  | [] => s
  | b :: rest =>
    if s.fits (digitOf b) then gatherFraction ⟨s.word * 10 + digitOf b, s.exponent - 1⟩ rest
    else s

def powerOfTen (n : Nat) : Float := Float.ofScientific 1 false n

/-- `f` times ten to the `exponent`, in steps that a single power can make. -/
def scaleByTen (f : Float) (exponent : Int) : Option Float :=
  if exponent = 0 then some f
  else if exponent.natAbs ≤ 308 then
    if 0 ≤ exponent then
      let product := f * powerOfTen exponent.natAbs
      if product.isInf then none else some product
    else some (f / powerOfTen exponent.natAbs)
  else if f == 0 then some f
  else if 0 ≤ exponent then none
  else scaleByTen (f / powerOfTen 308) (exponent + 308)
termination_by exponent.natAbs
decreasing_by omega

def exponentOf : List UInt8 → Bool × Nat
  | 43 :: digits => (false, digits.foldl (fun n b => n * 10 + digitOf b) 0)
  | 45 :: digits => (true, digits.foldl (fun n b => n * 10 + digitOf b) 0)
  | digits => (false, digits.foldl (fun n b => n * 10 + digitOf b) 0)

def ofUnsigned? (lexeme : List UInt8) : Option Float :=
  let whole := lexeme.takeWhile Json.Token.isDigit
  let afterWhole := lexeme.dropWhile Json.Token.isDigit
  let fraction := if afterWhole.head? = some 46 then (afterWhole.drop 1).takeWhile Json.Token.isDigit else []
  let afterFraction :=
    if afterWhole.head? = some 46 then (afterWhole.drop 1).dropWhile Json.Token.isDigit else afterWhole
  let s := gatherFraction (gatherWhole ⟨0, 0⟩ whole) fraction
  let f := (UInt64.ofNat s.word).toFloat
  match afterFraction with
  | [] => scaleByTen f s.exponent
  | _ :: part =>
    let (negative, n) := exponentOf part
    if 0x80000000 ≤ n then
      if s.word ≠ 0 && !negative then none else some 0
    else
      let shifted := if negative then s.exponent - n else s.exponent + n
      scaleByTen f (max (-0x80000000) (min 0x7fffffff shifted))

def ofLexeme? : List UInt8 → Option Float
  | 45 :: lexeme => (ofUnsigned? lexeme).map fun f => -f
  | lexeme => ofUnsigned? lexeme

end HandlerGraph.Seconds
