/-! Whole numbers in positional notation. Digits above nine are letters of either case. A natural
number is one or more digits and nothing else; an integer may have one sign before them. -/
namespace HandlerGraph.Numeral

def digit? (base : Nat) (c : Char) : Option Nat :=
  let value? :=
    if '0' ≤ c && c ≤ '9' then some (c.toNat - 48)
    else if 'a' ≤ c && c ≤ 'z' then some (c.toNat - 87)
    else if 'A' ≤ c && c ≤ 'Z' then some (c.toNat - 55)
    else none
  value?.filter (· < base)

def ofDigits (base : Nat) (digits : List Nat) : Nat := digits.foldl (fun n d => n * base + d) 0

theorem ofDigits_append_singleton (base : Nat) (digits : List Nat) (d : Nat) :
    ofDigits base (digits ++ [d]) = ofDigits base digits * base + d := by
  simp [ofDigits, List.foldl_append]

def natural? (base : Nat) (cs : List Char) : Option Nat :=
  if cs.isEmpty then none else (cs.mapM (digit? base)).map (ofDigits base)

def integer? (base : Nat) : List Char → Option Int
  | '-' :: cs => (natural? base cs).map fun n => -(n : Int)
  | '+' :: cs => (natural? base cs).map fun n => (n : Int)
  | cs => (natural? base cs).map fun n => (n : Int)

def wordCount (width : Nat) : Nat := Nat.pow 2 width

def signed? (width : Nat) (i : Int) : Option Int :=
  let half : Int := wordCount (width - 1)
  if -half ≤ i && i < half then some i else none

def unsigned? (width : Nat) (n : Nat) : Option Nat :=
  if n < wordCount width then some n else none

def decimal (n : Nat) : List Char := Nat.toDigits 10 n

def decimalInt (i : Int) : List Char :=
  if i < 0 then '-' :: decimal i.natAbs else decimal i.natAbs

/-- Hexadecimal digits of the two's complement word of 64 bits. -/
def hexWord (i : Int) : List Char := Nat.toDigits 16 (i % wordCount 64).toNat

end HandlerGraph.Numeral
