/-! The parts of a binary floating-point number: `mantissa` times two to the `exponent`, with its
sign. Numbers whose exponent field is zero have no hidden bit; infinities and undefined values have
no parts. -/
namespace HandlerGraph.Seconds

structure Binary where
  negative : Bool
  mantissa : Nat
  exponent : Int
  /-- The next smaller number is only half as far away as the next larger one. -/
  narrowBelow : Bool
  deriving DecidableEq

def Binary.signBit : Nat := 0x8000000000000000

/-- The bit above the fraction, which is not stored. -/
def Binary.hiddenBit : Nat := 0x10000000000000

def Binary.ofFloat? (x : Float) : Option Binary :=
  let bits : Nat := x.toBits.toNat
  let negative := bits / signBit == 1
  let field : Nat := bits / hiddenBit % 2048
  let fraction : Nat := bits % hiddenBit
  if field = 2047 then none
  else if field = 0 then some ⟨negative, fraction, -1074, false⟩
  else some ⟨negative, hiddenBit + fraction, (field : Int) - 1075, fraction = 0 && field ≠ 1⟩

def Binary.scale (e : Int) : Nat × Nat := (Nat.pow 2 e.toNat, Nat.pow 2 (-e).toNat)

end HandlerGraph.Seconds
