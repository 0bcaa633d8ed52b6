import HandlerGraph.Proofs.Numeral
import HandlerGraph.Resources.File

/-! The texts that are read as layout ids. A text is taken apart in one way only: marks of
hexadecimal notation, first those with a small letter and then those with a capital, a sign or none,
and one or more digits. It is read whenever its value fits a word of 64 bits. Ids are meant to have
one mark at most and no sign, so texts with more are read although they are malformed. -/
namespace HandlerGraph

inductive Numeral.Sign where
  | none
  | plus
  | minus
  deriving DecidableEq

namespace Numeral.Sign

def chars : Sign → List Char
  | none => []
  | plus => ['+']
  | minus => ['-']

def apply : Sign → Nat → Int
  | none, n => n
  | plus, n => n
  | minus, n => -n

end Numeral.Sign

namespace Numeral

theorem sign_not_hex : ∀ c ∈ ['+', '-', 'x', 'X'], ¬ IsHexDigit c := by
  have all : ['+', '-', 'x', 'X'].all (fun c => ¬ IsHexDigit c) = true := by decide
  exact fun c mem => of_decide_eq_true (List.all_eq_true.mp all c mem)

theorem natural?_sixteen_eq_some_iff {cs : List Char} {n : Nat} : natural? 16 cs = some n ↔
    cs ≠ [] ∧ (∀ c ∈ cs, IsHexDigit c) ∧ hexValue cs = n :=
  hexadecimalDigits.natural?_eq_some_iff

theorem exists_sign (base : Nat) (cs : List Char) : ∃ (sign : Sign) (digits : List Char),
    cs = sign.chars ++ digits ∧ integer? base cs = (natural? base digits).map sign.apply := by
  unfold integer?
  split
  · rename_i digits
    exact ⟨.minus, digits, rfl, by cases natural? base digits <;> rfl⟩
  · rename_i digits
    exact ⟨.plus, digits, rfl, by cases natural? base digits <;> rfl⟩
  · exact ⟨.none, cs, rfl, by cases natural? base cs <;> rfl⟩

theorem integer?_sign {digits : List Char} (hex : ∀ c ∈ digits, IsHexDigit c) (sign : Sign) :
    integer? 16 (sign.chars ++ digits) = (natural? 16 digits).map sign.apply := by
  cases sign with
  | none =>
    refine integer?_of_unsigned fun c first => ?_
    have digit := hex c (List.mem_of_head? first)
    constructor
    · rintro rfl
      exact sign_not_hex '-' (by decide) digit
    · rintro rfl
      exact sign_not_hex '+' (by decide) digit
  | plus => cases read : natural? 16 digits <;> simp [Sign.chars, Sign.apply, integer?, read]
  | minus => cases read : natural? 16 digits <;> simp [Sign.chars, Sign.apply, integer?, read]

theorem integer?_sixteen_eq_some_iff {cs : List Char} {i : Int} : integer? 16 cs = some i ↔
    ∃ (sign : Sign) (digits : List Char), cs = sign.chars ++ digits ∧ digits ≠ [] ∧
      (∀ c ∈ digits, IsHexDigit c) ∧ sign.apply (hexValue digits) = i := by
  constructor
  · intro number
    obtain ⟨sign, digits, whole, read⟩ := exists_sign 16 cs
    rw [read] at number
    obtain ⟨n, found, value⟩ := Option.map_eq_some_iff.mp number
    obtain ⟨some_digit, hex, rfl⟩ := natural?_sixteen_eq_some_iff.mp found
    exact ⟨sign, digits, whole, some_digit, hex, value⟩
  · rintro ⟨sign, digits, rfl, some_digit, hex, rfl⟩
    rw [integer?_sign hex, natural?_sixteen_eq_some_iff.mpr ⟨some_digit, hex, rfl⟩, Option.map_some]

end Numeral

namespace Resources
open Numeral

def marks (letter : Char) : Nat → List Char
  | 0 => []
  | k + 1 => '0' :: letter :: marks letter k

theorem length_marks (letter : Char) (k : Nat) : (marks letter k).length = 2 * k := by
  induction k with
  | zero => rfl
  | succ k ih => rw [marks, List.length_cons, List.length_cons, ih, Nat.mul_succ]

section Marks
variable {letter : Char} {cs : List Char}

theorem stripMarks_of_not_marked (unmarked : ∀ rest, cs ≠ '0' :: letter :: rest) :
    stripMarks letter cs = cs := by
  unfold stripMarks
  split
  · rename_i x rest
    rw [if_neg]
    rintro rfl
    exact unmarked rest rfl
  · rfl

theorem stripMarks_marks (k : Nat) (unmarked : ∀ rest, cs ≠ '0' :: letter :: rest) :
    stripMarks letter (marks letter k ++ cs) = cs := by
  induction k with
  | zero => exact stripMarks_of_not_marked unmarked
  | succ k ih => rw [marks, List.cons_append, List.cons_append, stripMarks, if_pos rfl, ih]

theorem exists_marks (letter : Char) (cs : List Char) :
    ∃ k, cs = marks letter k ++ stripMarks letter cs := by
  fun_induction stripMarks letter cs with
  | case1 rest ih =>
    obtain ⟨k, whole⟩ := ih
    refine ⟨k + 1, ?_⟩
    rw [marks, List.cons_append, List.cons_append, ← whole]
  | case2 => exact ⟨0, rfl⟩
  | case3 => exact ⟨0, rfl⟩

end Marks

/-- An id taken apart: marks with a small letter, marks with a capital, a sign and digits. -/
@[ext] structure IdParts where
  small : Nat
  large : Nat
  sign : Sign
  digits : List Char
  some_digit : digits ≠ []
  hex : ∀ c ∈ digits, IsHexDigit c

namespace IdParts
variable (p : IdParts)

def body : List Char := p.sign.chars ++ p.digits

def text : List Char := marks 'x' p.small ++ (marks 'X' p.large ++ p.body)

def value : Int := p.sign.apply (hexValue p.digits)

def Fits : Prop := -0x8000000000000000 ≤ p.value ∧ p.value < 0x8000000000000000

def IsPlain : Prop := p.small + p.large ≤ 1 ∧ p.sign = .none

variable {p} in
theorem IsPlain.value (plain : p.IsPlain) : p.value = hexValue p.digits := by
  rw [IdParts.value, plain.2, Sign.apply]

theorem body_not_marked {letter : Char} (mark : letter ∈ ['+', '-', 'x', 'X']) (rest : List Char) :
    p.body ≠ '0' :: letter :: rest := by
  intro same
  rw [body] at same
  cases sign : p.sign with
  | none =>
    rw [sign, Sign.chars, List.nil_append] at same
    exact sign_not_hex letter mark (p.hex letter (by simp [same]))
  | plus => simp [sign, Sign.chars] at same
  | minus => simp [sign, Sign.chars] at same

theorem stripMarks_small : stripMarks 'x' p.text = marks 'X' p.large ++ p.body := by
  refine stripMarks_marks p.small fun rest => ?_
  cases p.large with
  | zero => exact p.body_not_marked (by decide) rest
  | succ k => simp [marks]

theorem stripMarks_large : stripMarks 'X' (marks 'X' p.large ++ p.body) = p.body :=
  stripMarks_marks p.large (p.body_not_marked (by decide))

theorem body_injective {p q : IdParts} (same : p.body = q.body) :
    p.sign = q.sign ∧ p.digits = q.digits := by
  have unsigned : ∀ (p : IdParts) (c : Char) (rest : List Char), c ∈ ['+', '-', 'x', 'X'] →
      p.digits ≠ c :: rest := by
    intro p c rest mark shape
    exact sign_not_hex c mark (p.hex c (by simp [shape]))
  have plus := fun p rest => unsigned p '+' rest (by decide)
  have minus := fun p rest => unsigned p '-' rest (by decide)
  cases first : p.sign <;> cases second : q.sign <;>
    simp_all [body, Sign.chars, eq_comm]

theorem length_text : p.text.length = 2 * p.small + (2 * p.large + p.body.length) := by
  simp only [text, List.length_append, length_marks]

theorem text_injective {p q : IdParts} (same : p.text = q.text) : p = q := by
  have rest : marks 'X' p.large ++ p.body = marks 'X' q.large ++ q.body := by
    rw [← p.stripMarks_small, ← q.stripMarks_small, same]
  have body : p.body = q.body := by
    rw [← p.stripMarks_large, ← q.stripMarks_large, rest]
  -- Each mark is two characters, so the lengths tell how many were taken off.
  have large := congrArg List.length rest
  have small := congrArg List.length same
  simp only [List.length_append, length_marks, body, length_text] at large small
  obtain ⟨sign, digits⟩ := body_injective body
  exact IdParts.ext (by omega) (by omega) sign digits

end IdParts

theorem layoutIdOf?_eq_some_iff {id : String} {i : Int} : layoutIdOf? id = some i ↔
    ∃ p : IdParts, p.text = id.toList ∧ p.value = i ∧ p.Fits := by
  rw [layoutIdOf?, Option.bind_eq_some_iff]
  constructor
  · rintro ⟨j, number, fits⟩
    obtain ⟨rfl, range⟩ := signed?_eq_some_iff.mp fits
    obtain ⟨sign, digits, whole, some_digit, hex, rfl⟩ := integer?_sixteen_eq_some_iff.mp number
    obtain ⟨small, first⟩ := exists_marks 'x' id.toList
    obtain ⟨large, second⟩ := exists_marks 'X' (stripMarks 'x' id.toList)
    refine ⟨⟨small, large, sign, digits, some_digit, hex⟩, ?_, rfl, range⟩
    rw [first, second, whole]
    rfl
  · rintro ⟨p, whole, rfl, fits⟩
    rw [← whole, p.stripMarks_small, p.stripMarks_large]
    exact ⟨p.value, integer?_sixteen_eq_some_iff.mpr
      ⟨p.sign, p.digits, rfl, p.some_digit, p.hex, rfl⟩, signed?_eq_some_iff.mpr ⟨rfl, fits⟩⟩

/-- What an id is meant to be: one mark or none, then digits, with a value below the sign bit. -/
def IsLayoutId (id : String) (n : Nat) : Prop :=
  ∃ mark ∈ ["", "0x", "0X"], ∃ digits : List Char, id.toList = mark.toList ++ digits ∧
    digits ≠ [] ∧ (∀ c ∈ digits, IsHexDigit c) ∧ hexValue digits = n ∧ n ≤ 0x7fffffffffffffff

theorem isLayoutId_iff {id : String} {n : Nat} : IsLayoutId id n ↔
    ∃ p : IdParts, p.IsPlain ∧ p.text = id.toList ∧ p.value = n ∧ p.Fits := by
  constructor
  · rintro ⟨mark, known, digits, whole, some_digit, hex, rfl, fits⟩
    have plain : ∀ small large, small + large ≤ 1 →
        mark.toList = marks 'x' small ++ marks 'X' large →
        ∃ p : IdParts, p.IsPlain ∧ p.text = id.toList ∧ p.value = hexValue digits ∧ p.Fits := by
      intro small large one shape
      refine ⟨⟨small, large, .none, digits, some_digit, hex⟩, ⟨one, rfl⟩, ?_, rfl, ?_⟩
      · rw [whole, shape, List.append_assoc]
        rfl
      · simp only [IdParts.Fits, IdParts.value, Sign.apply]
        omega
    simp only [List.mem_cons, List.not_mem_nil, or_false] at known
    rcases known with rfl | rfl | rfl
    · exact plain 0 0 (by decide) rfl
    · exact plain 1 0 (by decide) rfl
    · exact plain 0 1 (by decide) rfl
  · rintro ⟨⟨small, large, sign, digits, some_digit, hex⟩, ⟨one, rfl⟩, whole, value, fits⟩
    simp only [IdParts.Fits, IdParts.value, Sign.apply] at value fits one
    have mark : ∃ mark ∈ ["", "0x", "0X"], mark.toList = marks 'x' small ++ marks 'X' large := by
      have few : (small = 0 ∧ large = 0) ∨ (small = 1 ∧ large = 0) ∨ (small = 0 ∧ large = 1) := by
        omega
      rcases few with ⟨rfl, rfl⟩ | ⟨rfl, rfl⟩ | ⟨rfl, rfl⟩
      · exact ⟨"", by decide, rfl⟩
      · exact ⟨"0x", by decide, rfl⟩
      · exact ⟨"0X", by decide, rfl⟩
    obtain ⟨mark, known, shape⟩ := mark
    refine ⟨mark, known, digits, ?_, some_digit, hex, by omega, by omega⟩
    rw [shape, ← whole, List.append_assoc]
    rfl

theorem IsLayoutId.isPlain {id : String} {n : Nat} (form : IsLayoutId id n) {p : IdParts}
    (whole : p.text = id.toList) : p.IsPlain := by
  obtain ⟨q, plain, same, -⟩ := isLayoutId_iff.mp form
  rwa [IdParts.text_injective (whole.trans same.symm)]

theorem layoutIdOf?_of_isLayoutId {id : String} {n : Nat} (form : IsLayoutId id n) :
    layoutIdOf? id = some (n : Int) := by
  obtain ⟨p, -, whole, value, fits⟩ := isLayoutId_iff.mp form
  exact layoutIdOf?_eq_some_iff.mpr ⟨p, whole, value, fits⟩

end Resources
end HandlerGraph
