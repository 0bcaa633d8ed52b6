import HandlerGraph.Seconds.Binary

/-! Fixed places. The exact value is rounded to the nearest multiple of the last place, and a half
goes to the even neighbour. -/
namespace HandlerGraph.Seconds

def roundDiv (num den : Nat) : Nat :=
  let quotient := num / den
  let rest := 2 * (num % den)
  if rest < den || rest = den && quotient % 2 = 0 then quotient else quotient + 1

theorem roundDiv_close (num den : Nat) (pos : 0 < den) :
    2 * (roundDiv num den * den) ≤ 2 * num + den ∧ 2 * num ≤ 2 * (roundDiv num den * den) + den := by
  have whole := Nat.div_add_mod num den
  have small := Nat.mod_lt num pos
  rw [Nat.mul_comm] at whole
  simp only [roundDiv]
  split
  · rename_i h
    simp only [Bool.or_eq_true, decide_eq_true_eq, Bool.and_eq_true] at h
    omega
  · rename_i h
    simp only [Bool.or_eq_true, decide_eq_true_eq, Bool.and_eq_true] at h
    rw [Nat.add_mul]
    omega

def padLeft (width : Nat) (cs : List Char) : List Char := List.replicate (width - cs.length) '0' ++ cs

def fixed (places : Nat) (x : Float) : String :=
  match Binary.ofFloat? x with
  | none => "inf"
  | some b =>
    let (up, down) := Binary.scale b.exponent
    let units := roundDiv (b.mantissa * up * Nat.pow 10 places) down
    let digits := padLeft (places + 1) (Nat.toDigits 10 units)
    let whole := digits.take (digits.length - places)
    let sign := if b.negative then ['-'] else []
    String.ofList (sign ++ whole ++ '.' :: digits.drop (digits.length - places))

end HandlerGraph.Seconds
