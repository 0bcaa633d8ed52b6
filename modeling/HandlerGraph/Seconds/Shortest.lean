import HandlerGraph.Seconds.Binary

/-! The shortest decimal that reads back as a given number. The decimals that round to a number form
an interval around it, ends included when the mantissa is even. Grids of one, two and more digits
are tried in turn, and on each the two neighbours of the number; the first grid with a neighbour in
the interval wins, the nearer of two, and the even one when both are equally near. Written out,
magnitudes from a hundred-thousandth up to ten to the sixteenth are positional with a digit on each
side of the point, others have an exponent with its sign. -/
namespace HandlerGraph.Seconds

def tenScale (e : Int) : Nat × Nat := (Nat.pow 10 e.toNat, Nat.pow 10 (-e).toNat)

structure Decimal where
  digits : Nat
  exponent : Int
  deriving DecidableEq

/-- A number in quarters of its mantissa's unit, with the ends of its interval. -/
structure Interval where
  low : Nat
  value : Nat
  high : Nat
  closed : Bool
  exponent : Int

def Interval.of (b : Binary) : Interval where
  low := if b.narrowBelow then 4 * b.mantissa - 1 else 4 * b.mantissa - 2
  value := 4 * b.mantissa
  high := 4 * b.mantissa + 2
  closed := b.mantissa % 2 = 0
  exponent := b.exponent - 2

namespace Interval

def together (i : Interval) (d : Decimal) (quarters : Nat) : Nat × Nat :=
  let (tenUp, tenDown) := tenScale d.exponent
  let (twoUp, twoDown) := Binary.scale i.exponent
  (d.digits * tenUp * twoDown, quarters * twoUp * tenDown)

def holds (i : Interval) (d : Decimal) : Bool :=
  let (x, low) := i.together d i.low
  let (_, high) := i.together d i.high
  if i.closed then low ≤ x && x ≤ high else low < x && x < high

def distance (i : Interval) (d : Decimal) : Nat :=
  let (x, value) := i.together d i.value
  if x ≤ value then value - x else x - value

def below (i : Interval) (exponent : Int) : Decimal :=
  let (one, value) := i.together ⟨1, exponent⟩ i.value
  ⟨value / one, exponent⟩

def atLeastPower (i : Interval) (exponent : Int) : Bool :=
  let (one, value) := i.together ⟨1, exponent⟩ i.value
  one ≤ value

/-- The exponent of the leading decimal digit, from an estimate that is off by at most one. -/
def leading (i : Interval) : Int :=
  let estimate := Int.fdiv (((Nat.log2 i.value : Int) + i.exponent) * 30103) 100000
  if i.atLeastPower (estimate + 1) then estimate + 1
  else if i.atLeastPower estimate then estimate
  else estimate - 1

def nearest (i : Interval) (down : Decimal) : Option Decimal :=
  let up : Decimal := ⟨down.digits + 1, down.exponent⟩
  match i.holds down, i.holds up with
  | false, false => none
  | true, false => some down
  | false, true => some up
  | true, true =>
    let (d, u) := (i.distance down, i.distance up)
    if d < u || d = u && down.digits % 2 = 0 then some down else some up

/-- Tries `tries` grids, each ten times finer than the one before. -/
def search (i : Interval) : Nat → Int → Decimal
  | 0, exponent => i.below exponent
  | tries + 1, exponent =>
    match i.nearest (i.below exponent) with
    | some d => d
    | none => search i tries (exponent - 1)

end Interval

/-- Seventeen digits always suffice. -/
def shortest (b : Binary) : Decimal :=
  let i := Interval.of b
  i.search 17 i.leading

def stripZeros (cs : List Char) : List Char := (cs.reverse.dropWhile (· = '0')).reverse

def positional (digits : List Char) (point : Int) : List Char :=
  if point ≤ 0 then '0' :: '.' :: List.replicate (-point).toNat '0' ++ digits
  else
    let whole := digits.take point.toNat
    let fraction := digits.drop point.toNat
    whole ++ List.replicate (point.toNat - whole.length) '0' ++
      '.' :: (if fraction.isEmpty then ['0'] else fraction)

def scientific (digits : List Char) (exponent : Int) : List Char :=
  let mantissa :=
    match digits with
    | [] => []
    | [d] => [d]
    | d :: rest => d :: '.' :: rest
  mantissa ++ 'e' :: (if exponent < 0 then '-' else '+') :: Nat.toDigits 10 exponent.natAbs

/-- The text of a number; numbers without parts have none and are written as absent. -/
def render (x : Float) : String :=
  match Binary.ofFloat? x with
  | none => "null"
  | some b =>
    let sign := if b.negative then ['-'] else []
    if b.mantissa = 0 then String.ofList (sign ++ "0.0".toList)
    else
      let d := shortest b
      let all := Nat.toDigits 10 d.digits
      let digits := stripZeros all
      let exponent := d.exponent + (all.length - 1 : Nat)
      let body :=
        if -5 ≤ exponent && exponent < 16 then positional digits (exponent + 1)
        else scientific digits exponent
      String.ofList (sign ++ body)

end HandlerGraph.Seconds
