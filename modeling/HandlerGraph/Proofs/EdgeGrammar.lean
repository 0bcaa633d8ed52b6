import HandlerGraph.Proofs.EdgeText

/-! The grammar of edge texts. A text is an edge if and only if it is three numbers separated by
single spaces, where a number is one or more digits with a value below two to the 63, and the third
is at most four. If the text starts with three numbers and the third is larger, that number is
reported, whatever follows; any other text is malformed as a whole. No text reads as an edge that
could not be written back. -/
namespace HandlerGraph

namespace Text

theorem split_eq_cons_iff {mark : Char} {cs piece : List Char} {pieces : List (List Char)} :
    split mark cs = piece :: pieces ↔ mark ∉ piece ∧
      (cs = piece ∧ pieces = [] ∨ ∃ rest, cs = piece ++ mark :: rest ∧ pieces = split mark rest) := by
  constructor
  · intro h
    induction cs generalizing piece with
    | nil =>
      simp only [split, List.cons.injEq, List.nil_eq] at h
      obtain ⟨rfl, rfl⟩ := h
      simp
    | cons c cs ih =>
      rw [split] at h
      split at h
      · rename_i same
        obtain ⟨rfl, rfl⟩ := List.cons.inj h
        exact ⟨List.not_mem_nil, Or.inr ⟨cs, by rw [same]; rfl, rfl⟩⟩
      · rename_i other
        obtain ⟨first, pieces', found⟩ := List.exists_cons_of_ne_nil (split_ne_nil mark cs)
        rw [found] at h
        obtain ⟨rfl, rfl⟩ := List.cons.inj h
        obtain ⟨absent, whole⟩ := ih found
        refine ⟨by simp [absent, Ne.symm other], ?_⟩
        rcases whole with ⟨rfl, rfl⟩ | ⟨rest, rfl, rfl⟩
        · exact Or.inl ⟨rfl, rfl⟩
        · exact Or.inr ⟨rest, rfl, rfl⟩
  · rintro ⟨absent, ⟨rfl, rfl⟩ | ⟨rest, rfl, rfl⟩⟩
    · exact split_of_not_mem absent
    · rw [split_append, split_of_not_mem absent]
      rfl

theorem exists_of_split_cons_cons {mark : Char} {cs piece next : List Char}
    {pieces : List (List Char)} (h : split mark cs = piece :: next :: pieces) :
    ∃ rest, cs = piece ++ mark :: rest ∧ split mark rest = next :: pieces := by
  obtain ⟨-, ⟨-, last⟩ | ⟨rest, whole, more⟩⟩ := split_eq_cons_iff.mp h
  · cases last
  · exact ⟨rest, whole, more.symm⟩

end Text

namespace Numeral

def decimalValue (digits : List Char) : Nat :=
  Nat.ofDigits 10 (digits.reverse.map fun c => c.toNat - '0'.toNat)

structure Spells (part : List Char) (n : Nat) : Prop where
  some_digit : part ≠ []
  digits : ∀ c ∈ part, c.isDigit = true
  value : decimalValue part = n
  fits : n ≤ 0x7fffffffffffffff

theorem natural?_eq_some_iff {part : List Char} {n : Nat} :
    natural? 10 part = some n ↔
      part ≠ [] ∧ (∀ c ∈ part, c.isDigit = true) ∧ decimalValue part = n :=
  decimalDigits.natural?_eq_some_iff

end Numeral

namespace Relation

theorem code_of_ofCode? {n : Nat} {r : Relation} (h : ofCode? n = some r) : r.code = n := by
  unfold ofCode? at h
  split at h <;> cases h <;> simp only [code] <;> omega

theorem ofCode?_eq_none_iff {n : Nat} : ofCode? n = none ↔ 4 < n := by
  constructor
  · intro unknown
    by_contra small
    have codes : n = 0 ∨ n = 1 ∨ n = 2 ∨ n = 3 ∨ n = 4 := by omega
    rcases codes with rfl | rfl | rfl | rfl | rfl <;> cases unknown
  · intro large
    cases known : ofCode? n with
    | none => rfl
    | some r =>
      have := code_of_ofCode? known
      cases r <;> simp only [code] at this <;> omega

end Relation

namespace Edge
open Numeral

theorem number?_eq_some_iff {part : List Char} {n : Nat} :
    number? part = some n ↔ Spells part n := by
  constructor
  · intro h
    have small := lt_of_number? h
    obtain ⟨m, read, fits⟩ := Option.bind_eq_some_iff.mp h
    have same : m = n := by
      unfold unsigned? at fits
      split at fits
      · exact Option.some.inj fits
      · cases fits
    obtain ⟨some_digit, digits, value⟩ := natural?_eq_some_iff.mp read
    exact ⟨some_digit, digits, value.trans same, by omega⟩
  · rintro ⟨some_digit, digits, value, fits⟩
    have small : n < wordCount 63 := Nat.lt_succ_of_le fits
    unfold number? unsigned?
    rw [natural?_eq_some_iff.mpr ⟨some_digit, digits, value⟩, Option.bind_some, if_pos small]

theorem space_not_mem_of_spells {part : List Char} {n : Nat} (h : Spells part n) : ' ' ∉ part :=
  fun mem => absurd (h.digits _ mem) (by decide)

/-- The three numbers that a text starts with, separated by single spaces, and what follows them. -/
def Numbers (text : String) (source target code : Nat) (tail : List Char) : Prop :=
  ∃ first second third, Spells first source ∧ Spells second target ∧ Spells third code ∧
    text.toList = first ++ ' ' :: (second ++ ' ' :: (third ++ tail))

def EndsNumber (tail : List Char) : Prop := tail = [] ∨ ∃ more, tail = ' ' :: more

/-- Three numbers and nothing else, of which the third is a relation code. -/
def IsText (text : String) : Prop :=
  ∃ source target code, Numbers text source target code [] ∧ code ≤ 4

/-- Three numbers, of which the third is no relation code, with anything after them. -/
def HasCode (text : String) (code : Nat) : Prop :=
  ∃ source target tail, Numbers text source target code tail ∧ EndsNumber tail ∧ 4 < code

section Pieces
variable {text : String} {source target code : Nat}

theorem split_of_numbers {tail : List Char} (h : Numbers text source target code tail)
    (ends : EndsNumber tail) :
    ∃ first second third rest, Text.split ' ' text.toList = first :: second :: third :: rest ∧
      number? first = some source ∧ number? second = some target ∧ number? third = some code ∧
      (tail = [] → rest = []) := by
  obtain ⟨first, second, third, one, two, three, whole⟩ := h
  have last : ∃ rest, Text.split ' ' (third ++ tail) = third :: rest ∧ (tail = [] → rest = []) := by
    have absent := space_not_mem_of_spells three
    rcases ends with rfl | ⟨more, rfl⟩
    · exact ⟨[], by rw [List.append_nil, Text.split_of_not_mem absent], fun _ => rfl⟩
    · refine ⟨Text.split ' ' more, ?_, fun none => by cases none⟩
      rw [Text.split_append, Text.split_of_not_mem absent]
      rfl
  obtain ⟨rest, pieces, nothing⟩ := last
  refine ⟨first, second, third, rest, ?_, number?_eq_some_iff.mpr one, number?_eq_some_iff.mpr two,
    number?_eq_some_iff.mpr three, nothing⟩
  rw [whole, Text.split_append, Text.split_append,
    Text.split_of_not_mem (space_not_mem_of_spells one),
    Text.split_of_not_mem (space_not_mem_of_spells two), pieces]
  rfl

theorem numbers_of_split {first second third : List Char} {rest : List (List Char)}
    (pieces : Text.split ' ' text.toList = first :: second :: third :: rest)
    (one : number? first = some source) (two : number? second = some target)
    (three : number? third = some code) :
    ∃ tail, Numbers text source target code tail ∧ EndsNumber tail ∧ (rest = [] → tail = []) := by
  rw [number?_eq_some_iff] at one two three
  obtain ⟨afterFirst, whole, pieces⟩ := Text.exists_of_split_cons_cons pieces
  obtain ⟨afterSecond, rfl, last⟩ := Text.exists_of_split_cons_cons pieces
  obtain ⟨-, ⟨rfl, -⟩ | ⟨more, rfl, rfl⟩⟩ := Text.split_eq_cons_iff.mp last
  · exact ⟨[], ⟨first, second, _, one, two, three, by simp [whole]⟩, Or.inl rfl, fun _ => rfl⟩
  · exact ⟨' ' :: more, ⟨first, second, third, one, two, three, whole⟩, Or.inr ⟨more, rfl⟩,
      fun none => absurd none (Text.split_ne_nil _ _)⟩

end Pieces

theorem parse_cases (text : String) :
    (∃ e, Numbers text e.source e.target e.relation.code [] ∧ parse text = .ok e) ∨
    (∃ code : Nat, HasCode text code ∧ parse text = .error (.relationCode code)) ∨
    parse text = .error (.malformedEdge text) := by
  unfold parse
  split
  · rename_i first second third rest pieces
    split
    · rename_i source target code one two three
      obtain ⟨tail, numbers, ends, nothing⟩ := numbers_of_split pieces one two three
      split
      · rename_i unknown
        have large := Relation.ofCode?_eq_none_iff.mp unknown
        exact Or.inr (Or.inl ⟨code, ⟨source, target, tail, numbers, ends, large⟩, rfl⟩)
      · rename_i relation known
        split
        · rename_i last
          rw [nothing (List.isEmpty_iff.mp last), ← Relation.code_of_ofCode? known] at numbers
          exact Or.inl ⟨⟨source, target, relation⟩, numbers, rfl⟩
        · exact Or.inr (Or.inr rfl)
    · exact Or.inr (Or.inr rfl)
  · exact Or.inr (Or.inr rfl)

theorem parse_of_numbers {text : String} {e : Edge}
    (h : Numbers text e.source e.target e.relation.code []) : parse text = .ok e := by
  obtain ⟨first, second, third, rest, pieces, one, two, three, nothing⟩ :=
    split_of_numbers h (Or.inl rfl)
  unfold parse
  simp only [pieces, one, two, three, Relation.ofCode?_code, nothing rfl, List.isEmpty_nil, if_true]

theorem parse_of_hasCode {text : String} {code : Nat} (h : HasCode text code) :
    parse text = .error (.relationCode code) := by
  obtain ⟨source, target, tail, numbers, ends, large⟩ := h
  obtain ⟨first, second, third, rest, pieces, one, two, three, -⟩ := split_of_numbers numbers ends
  unfold parse
  simp only [pieces, one, two, three, Relation.ofCode?_eq_none_iff.mpr large]

theorem parse_of_isText {text : String} (h : IsText text) : ∃ e, parse text = .ok e := by
  obtain ⟨source, target, code, numbers, small⟩ := h
  cases known : Relation.ofCode? code with
  | none => exact absurd (Relation.ofCode?_eq_none_iff.mp known) (by omega)
  | some relation =>
    rw [← Relation.code_of_ofCode? known] at numbers
    exact ⟨⟨source, target, relation⟩, parse_of_numbers numbers⟩

section Grammar
variable {text : String}

theorem parse_eq_ok_iff {e : Edge} :
    parse text = .ok e ↔ Numbers text e.source e.target e.relation.code [] := by
  refine ⟨fun h => ?_, parse_of_numbers⟩
  rcases parse_cases text with ⟨e', numbers, ok⟩ | ⟨code, -, unknown⟩ | malformed
  · obtain rfl := Except.ok.inj (ok.symm.trans h)
    exact numbers
  · cases unknown.symm.trans h
  · cases malformed.symm.trans h

theorem fits_of_parse {e : Edge} (h : parse text = .ok e) : e.Fits := by
  obtain ⟨_, _, _, source, target, -, -⟩ := parse_eq_ok_iff.mp h
  exact ⟨Nat.lt_succ_of_le source.fits, Nat.lt_succ_of_le target.fits⟩

theorem exists_parse_iff : (∃ e, parse text = .ok e) ↔ IsText text := by
  refine ⟨fun ⟨e, h⟩ => ⟨_, _, _, parse_eq_ok_iff.mp h, ?_⟩, parse_of_isText⟩
  cases e.relation <;> decide

theorem parse_eq_relationCode_iff {code : Int} :
    parse text = .error (.relationCode code) ↔ ∃ n : Nat, code = n ∧ HasCode text n := by
  constructor
  · intro h
    rcases parse_cases text with ⟨e, -, ok⟩ | ⟨n, has, unknown⟩ | malformed
    · cases ok.symm.trans h
    · have same := unknown.symm.trans h
      simp only [Except.error.injEq, Fault.relationCode.injEq] at same
      exact ⟨n, same.symm, has⟩
    · cases malformed.symm.trans h
  · rintro ⟨n, rfl, has⟩
    exact parse_of_hasCode has

theorem parse_eq_malformedEdge_iff :
    parse text = .error (.malformedEdge text) ↔ ¬ IsText text ∧ ∀ code, ¬ HasCode text code := by
  constructor
  · intro h
    constructor
    · intro complete
      obtain ⟨e, ok⟩ := parse_of_isText complete
      cases ok.symm.trans h
    · intro code has
      cases (parse_of_hasCode has).symm.trans h
  · rintro ⟨incomplete, known⟩
    rcases parse_cases text with ⟨e, -, ok⟩ | ⟨n, has, -⟩ | malformed
    · exact absurd (exists_parse_iff.mp ⟨e, ok⟩) incomplete
    · exact absurd has (known n)
    · exact malformed

end Grammar

/-- Reading accepts exactly the grammar, tells an unknown relation from every other fault, and gives
back what was written wherever both ends fit. -/
theorem parse_grammar :
    (∀ text : String,
      ((∃ e, parse text = .ok e) ↔ IsText text) ∧
      (∀ e, parse text = .ok e ↔ Numbers text e.source e.target e.relation.code []) ∧
      (∀ code : Int, parse text = .error (.relationCode code) ↔
        ∃ n : Nat, code = n ∧ HasCode text n) ∧
      (parse text = .error (.malformedEdge text) ↔
        ¬ IsText text ∧ ∀ code, ¬ HasCode text code)) ∧
    ∀ e : Edge, parse e.render = .ok e ↔
      e.source ≤ 0x7fffffffffffffff ∧ e.target ≤ 0x7fffffffffffffff := by
  refine ⟨fun text => ⟨exists_parse_iff, fun e => parse_eq_ok_iff,
    fun code => parse_eq_relationCode_iff, parse_eq_malformedEdge_iff⟩, fun e => ?_⟩
  have fits : e.Fits ↔ e.source ≤ 0x7fffffffffffffff ∧ e.target ≤ 0x7fffffffffffffff := by
    unfold Fits
    omega
  rw [parse_render, ← fits]
  split
  · rename_i small
    exact iff_of_true rfl small
  · rename_i large
    exact iff_of_false (by simp) large

example : parse "007 08 4" = .ok ⟨7, 8, .event⟩ := rfl

example : parse "5 10 9223372036854775807 x" = .error (.relationCode 9223372036854775807) := rfl

end Edge

end HandlerGraph
