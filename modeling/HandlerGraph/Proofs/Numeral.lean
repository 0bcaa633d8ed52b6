import HandlerGraph.Text.Numeral
import Mathlib.Data.List.Basic
import Mathlib.Data.Nat.Digits.Defs

/-! Numerals and their values. In each base some characters are digits, each worth a number below the
base. A text is a natural number if and only if it is one or more of them, and its value is then that
of the digits; the digits that a number is written with have its value. Bases ten and sixteen are
instances, and a decimal integer has a sign only if it is negative. -/
namespace HandlerGraph.Numeral

theorem ofDigits_eq (base : Nat) (digits : List Nat) :
    ofDigits base digits = Nat.ofDigits base digits.reverse := by
  rw [Nat.ofDigits_eq_foldr, List.foldr_reverse, ofDigits]
  congr 1
  funext n d
  rw [Nat.cast_id, Nat.mul_comm, Nat.add_comm]

/-- The digits of a base and what they are worth, as they are read and as they are written. -/
structure Digits (base : Nat) (isDigit : Char → Prop) (value : Char → Nat) : Prop where
  large : 1 < base
  read : ∀ c d, digit? base c = some d ↔ isDigit c ∧ value c = d
  written : ∀ d < base, isDigit d.digitChar ∧ value d.digitChar = d

namespace Digits
variable {base : Nat} {isDigit : Char → Prop} {value : Char → Nat}

theorem mapM_eq_some_iff (h : Digits base isDigit value) {cs : List Char} {ds : List Nat} :
    cs.mapM (digit? base) = some ds ↔ (∀ c ∈ cs, isDigit c) ∧ cs.map value = ds := by
  induction cs generalizing ds with
  | nil => simp [eq_comm]
  | cons c cs ih =>
    simp only [List.mapM_cons, Option.bind_eq_bind, Option.bind_eq_some_iff, h.read, ih,
      Option.pure_def, Option.some.injEq, List.forall_mem_cons, List.map_cons]
    grind

theorem natural?_eq_some_iff (h : Digits base isDigit value) {cs : List Char} {n : Nat} :
    natural? base cs = some n ↔
      cs ≠ [] ∧ (∀ c ∈ cs, isDigit c) ∧ Nat.ofDigits base (cs.reverse.map value) = n := by
  unfold natural?
  rw [List.map_reverse, ← ofDigits_eq]
  cases cs with
  | nil => simp
  | cons c cs =>
    simp only [List.isEmpty_cons, Bool.false_eq_true, if_false, Option.map_eq_some_iff,
      h.mapM_eq_some_iff]
    grind

theorem toDigits_spec (h : Digits base isDigit value) (n : Nat) :
    (∀ c ∈ Nat.toDigits base n, isDigit c) ∧
      ofDigits base ((Nat.toDigits base n).map value) = n := by
  induction n using Nat.strongRecOn with
  | ind n ih =>
    rw [Nat.toDigits_eq_if h.large]
    split
    · rename_i small
      simp [h.written n small, ofDigits]
    · rename_i large
      have base_pos := h.large
      obtain ⟨digits, whole⟩ := ih (n / base) (Nat.div_lt_self (by omega) h.large)
      obtain ⟨digit, last⟩ := h.written (n % base) (Nat.mod_lt n (by omega))
      refine ⟨fun c mem => ?_, ?_⟩
      · rcases List.mem_append.mp mem with early | late
        · exact digits c early
        · rw [List.mem_singleton.mp late]
          exact digit
      · rw [List.map_append, List.map_singleton, ofDigits_append_singleton, whole, last,
          Nat.div_add_mod']

theorem natural?_toDigits (h : Digits base isDigit value) (n : Nat) :
    natural? base (Nat.toDigits base n) = some n := by
  obtain ⟨digits, whole⟩ := h.toDigits_spec n
  refine h.natural?_eq_some_iff.mpr ⟨Nat.toDigits_ne_nil, digits, ?_⟩
  rw [List.map_reverse, ← ofDigits_eq, whole]

end Digits

/-- Only the first characters can be digits or letters that stand for digits. -/
theorem digit?_of_large {base : Nat} {c : Char} (large : 128 ≤ c.toNat) : digit? base c = none := by
  have above : ∀ e : Char, e.toNat < 128 → ¬ c ≤ e := by
    intro e small below
    have : c.toNat ≤ e.toNat := below
    omega
  simp [digit?, above '9' (by decide), above 'z' (by decide), above 'Z' (by decide)]

theorem char_induction {p : Char → Prop} (small : ∀ n < 128, p (Char.ofNat n))
    (large : ∀ c : Char, 128 ≤ c.toNat → p c) (c : Char) : p c := by
  by_cases h : c.toNat < 128
  · rw [← Char.ofNat_toNat c]
    exact small _ h
  · exact large c (Nat.le_of_not_lt h)

theorem digit?_ten (c : Char) :
    digit? 10 c = if c.isDigit = true then some (c.toNat - 48) else none := by
  induction c using char_induction with
  | small n below =>
    revert n
    decide +kernel
  | large c large =>
    have other : ¬ c.isDigit = true := by
      intro digit
      have range : 48 ≤ c.val ∧ c.val ≤ 57 := by simpa [Char.isDigit] using digit
      have : c.toNat ≤ 57 := range.2
      omega
    rw [digit?_of_large large, if_neg other]

theorem decimalDigits : Digits 10 (·.isDigit = true) (·.toNat - 48) where
  large := by decide
  read c d := by
    rw [digit?_ten]
    split <;> simp_all
  written := by decide

def hexDigits : List Char := "0123456789abcdef".toList

def IsHexDigit (c : Char) : Prop := c.toLower ∈ hexDigits

instance decidableIsHexDigit (c : Char) : Decidable (IsHexDigit c) :=
  inferInstanceAs (Decidable (c.toLower ∈ hexDigits))

def hexDigit (c : Char) : Nat := hexDigits.idxOf c.toLower

theorem digit?_sixteen (c : Char) :
    digit? 16 c = if IsHexDigit c then some (hexDigit c) else none := by
  induction c using char_induction with
  | small n below =>
    revert n
    decide +kernel
  | large c large =>
    have same : c.toLower = c := by
      refine dif_neg fun range => ?_
      have : c.toNat ≤ 90 := range.2
      omega
    have other : ¬ IsHexDigit c := by
      intro digit
      have small : hexDigits.all (·.toNat < 128) = true := by decide
      rw [IsHexDigit, same] at digit
      have : c.toNat < 128 := of_decide_eq_true (List.all_eq_true.mp small c digit)
      omega
    rw [digit?_of_large large, if_neg other]

theorem hexadecimalDigits : Digits 16 IsHexDigit hexDigit where
  large := by decide
  read c d := by
    rw [digit?_sixteen]
    split <;> simp_all
  written := by decide

def hexValue (digits : List Char) : Nat := Nat.ofDigits 16 (digits.reverse.map hexDigit)

theorem isDigit_of_mem_decimal {n : Nat} {c : Char} (h : c ∈ decimal n) : c.isDigit = true :=
  (decimalDigits.toDigits_spec n).1 c h

theorem space_not_mem_decimal (n : Nat) : ' ' ∉ decimal n := fun h =>
  absurd (isDigit_of_mem_decimal h) (by decide)

theorem natural?_decimal (n : Nat) : natural? 10 (decimal n) = some n :=
  decimalDigits.natural?_toDigits n

theorem integer?_of_unsigned {base : Nat} {cs : List Char}
    (unsigned : ∀ c ∈ cs.head?, c ≠ '-' ∧ c ≠ '+') :
    integer? base cs = (natural? base cs).map fun n : Nat => (n : Int) := by
  cases cs with
  | nil => rfl
  | cons c cs =>
    obtain ⟨minus, plus⟩ := unsigned c rfl
    rw [integer?]
    · cases natural? base (c :: cs) <;> rfl
    · exact fun _ same => minus (List.cons.inj same).1
    · exact fun _ same => plus (List.cons.inj same).1

theorem integer?_decimalInt (i : Int) : integer? 10 (decimalInt i) = some i := by
  rw [decimalInt]
  split
  · have size : -(i.natAbs : Int) = i := by omega
    rw [integer?, natural?_decimal]
    exact congrArg some size
  · have size : (i.natAbs : Int) = i := by omega
    rw [integer?_of_unsigned, natural?_decimal]
    · exact congrArg some size
    · intro c first
      have digit := isDigit_of_mem_decimal (List.mem_of_head? first)
      constructor
      · rintro rfl
        cases digit
      · rintro rfl
        cases digit

theorem signed?_eq_some_iff {i j : Int} : signed? 64 i = some j ↔
    i = j ∧ -0x8000000000000000 ≤ i ∧ i < 0x8000000000000000 := by
  have range : signed? 64 i =
      if -0x8000000000000000 ≤ i && i < 0x8000000000000000 then some i else none := rfl
  rw [range, Option.ite_none_right_eq_some, Bool.and_eq_true, decide_eq_true_eq, decide_eq_true_eq,
    Option.some.injEq, and_comm]

end HandlerGraph.Numeral
