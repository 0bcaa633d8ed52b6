import HandlerGraph.Proofs.EdgeText
import HandlerGraph.Proofs.Json

/-! Number lexemes. A number is an optional sign, digits without a superfluous zero in front, and an
optional fraction and exponent; whatever has this shape ends where the scanner says. The digits of a
natural number have it and stand for the number. -/
namespace HandlerGraph.Json

namespace Token
variable {digits rest whole fraction exponent sign : List UInt8}

def AreDigits (digits : List UInt8) : Prop := digits.all isDigit = true ∧ digits ≠ []

/-- A single zero, or digits that start with another one. -/
structure IsWhole (whole : List UInt8) : Prop where
  digits : AreDigits whole
  leading : whole.head? = some 48 → whole.length = 1

inductive IsFraction : List UInt8 → Prop
  | absent : IsFraction []
  | point {digits : List UInt8} (h : AreDigits digits) : IsFraction (46 :: digits)

inductive IsExponent : List UInt8 → Prop
  | absent : IsExponent []
  | signed {sign : UInt8} {digits : List UInt8} (plusMinus : sign = 43 ∨ sign = 45)
      (h : AreDigits digits) : IsExponent (101 :: sign :: digits)

theorem someDigits_append (h : AreDigits digits)
    (stops : ∀ b ∈ rest.head?, isDigit b = false) :
    someDigits (digits ++ rest) = some digits.length := by
  have none_left : rest.takeWhile isDigit = [] := by
    cases rest with
    | nil => rfl
    | cons b rest => simp [stops b rfl]
  have length : digitsLength (digits ++ rest) = digits.length := by
    rw [digitsLength, List.takeWhile_append_of_pos (by simpa using h.1), none_left, List.append_nil]
  have pos : digits.length ≠ 0 := by simpa using h.2
  rw [someDigits, length]
  split
  · contradiction
  · rfl

theorem wholeLength_append (h : IsWhole whole) (stops : ∀ b ∈ rest.head?, isDigit b = false) :
    wholeLength (whole ++ rest) = some whole.length := by
  have leading : ¬ ((whole ++ rest).head? = some 48 ∧ whole.length ≠ 1) := by
    rw [List.head?_append_of_ne_nil _ h.digits.2]
    exact fun zero => zero.2 (h.leading zero.1)
  simp only [wholeLength, someDigits_append h.digits stops]
  rw [if_neg (by simpa using leading)]

theorem tailLength_absent {marks : List UInt8} (signed : Bool)
    (apart : ∀ b ∈ rest.head?, b ∉ marks) : tailLength marks signed rest = some 0 := by
  cases rest with
  | nil => rfl
  | cons b rest => simp [tailLength, apart b rfl]

theorem tailLength_fraction (h : IsFraction fraction)
    (stops : ∀ b ∈ rest.head?, isDigit b = false ∧ b ≠ 46) :
    tailLength [46] false (fraction ++ rest) = some fraction.length := by
  cases h with
  | absent => exact tailLength_absent false fun b mem => by simpa using (stops b mem).2
  | @point digits h =>
    have read := someDigits_append h fun b mem => (stops b mem).1
    obtain ⟨b, more, rfl⟩ := List.exists_cons_of_ne_nil h.2
    rw [List.cons_append] at read
    simp [tailLength, read]

theorem tailLength_exponent (h : IsExponent exponent)
    (stops : ∀ b ∈ rest.head?, isDigit b = false ∧ b ≠ 101 ∧ b ≠ 69) :
    tailLength [101, 69] true (exponent ++ rest) = some exponent.length := by
  cases h with
  | absent => exact tailLength_absent true fun b mem => by simpa using (stops b mem).2
  | @signed sign digits plusMinus h =>
    have read := someDigits_append h fun b mem => (stops b mem).1
    have either : (sign == 43 || sign == 45) = true := by simpa using plusMinus
    simp [tailLength, read, either]

theorem unsignedLength_append (w : IsWhole whole) (f : IsFraction fraction)
    (e : IsExponent exponent) (ends : Ends rest) :
    unsignedLength (whole ++ fraction ++ exponent ++ rest) =
      some (whole ++ fraction ++ exponent).length := by
  have stops : ∀ b ∈ rest.head?, isDigit b = false ∧ b ≠ 46 ∧ b ≠ 101 ∧ b ≠ 69 := by
    intro b mem
    rcases ends b mem with rfl | rfl | rfl <;> decide
  have afterFraction : ∀ b ∈ (exponent ++ rest).head?, isDigit b = false ∧ b ≠ 46 := by
    cases e with
    | absent => exact fun b mem => ⟨(stops b mem).1, (stops b mem).2.1⟩
    | signed _ _ => simp [isDigit]
  have afterWhole : ∀ b ∈ (fraction ++ (exponent ++ rest)).head?, isDigit b = false := by
    cases f with
    | absent => exact fun b mem => (afterFraction b mem).1
    | point _ => simp [isDigit]
  have first := wholeLength_append w afterWhole
  have second := tailLength_fraction f afterFraction
  have third := tailLength_exponent e fun b mem => ⟨(stops b mem).1, (stops b mem).2.2⟩
  simp only [unsignedLength, List.append_assoc, first, Option.bind_eq_bind, Option.bind_some,
    List.drop_left, second, ← List.drop_drop, third, List.length_append, Option.pure_def]
  congr 1
  omega

theorem isNumber_of_parts (signs : sign = [] ∨ sign = [45]) (w : IsWhole whole)
    (f : IsFraction fraction) (e : IsExponent exponent) :
    IsNumber (sign ++ (whole ++ fraction ++ exponent)) := by
  intro rest ends
  have unsigned := unsignedLength_append w f e ends
  rcases signs with rfl | rfl
  · rw [List.nil_append, numberLength]
    · exact unsigned
    · -- the first digit is no sign
      intro after same
      obtain ⟨b, more, shape⟩ := List.exists_cons_of_ne_nil w.digits.2
      have digit := w.digits.1
      rw [shape] at digit same
      obtain ⟨rfl, -⟩ := List.cons.inj same
      simp [isDigit] at digit
  · rw [List.append_assoc, List.singleton_append, numberLength, unsigned]
    simp

end Token

def digitByte (c : Char) : UInt8 := UInt8.ofNat c.toNat

theorem toNat_digitByte {c : Char} (digit : c.isDigit = true) :
    (digitByte c).toNat = c.toNat ∧ 48 ≤ c.toNat ∧ c.toNat ≤ 57 := by
  have range : 48 ≤ c.val ∧ c.val ≤ 57 := by simpa [Char.isDigit] using digit
  have low : 48 ≤ c.toNat := range.1
  have high : c.toNat ≤ 57 := range.2
  refine ⟨?_, low, high⟩
  rw [digitByte, UInt8.toNat_ofNat_of_lt']
  have : UInt8.size = 256 := rfl
  omega

theorem eq_zero_of_digitByte {c : Char} (digit : c.isDigit = true) (h : digitByte c = 48) :
    c = '0' := by
  have same : c.toNat = '0'.toNat := by
    rw [← (toNat_digitByte digit).1, h]
    rfl
  exact Char.toNat_inj.mp same

theorem isDigit_digitByte {c : Char} (digit : c.isDigit = true) :
    Token.isDigit (digitByte c) = true := by
  obtain ⟨same, low, high⟩ := toNat_digitByte digit
  simp only [Token.isDigit, Bool.and_eq_true, decide_eq_true_eq, UInt8.le_iff_toNat_le, same]
  exact ⟨low, high⟩

def digitBytes (n : Nat) : List UInt8 := (Nat.toDigits 10 n).map digitByte

theorem ofNat_eq (n : Nat) : ofNat n = number (digitBytes n) := rfl

theorem all_isDigit_digitBytes (n : Nat) : (digitBytes n).all Token.isDigit = true := by
  simp only [digitBytes, List.all_map, List.all_eq_true]
  exact fun c h => isDigit_digitByte (Numeral.isDigit_of_mem_decimal h)

theorem foldl_digitByte {cs : List Char} (digits : ∀ c ∈ cs, c.isDigit = true) (start : Nat) :
    (cs.map digitByte).foldl (fun n b => n * 10 + Seconds.digitOf b) start =
      Nat.ofDigitChars 10 cs start := by
  induction cs generalizing start with
  | nil => rfl
  | cons c cs ih =>
    have first := (toNat_digitByte (digits c List.mem_cons_self)).1
    rw [List.map_cons, List.foldl_cons, Nat.ofDigitChars_cons,
      ih fun d hd => digits d (List.mem_cons_of_mem _ hd), Seconds.digitOf, first, Nat.mul_comm]
    rfl

theorem foldl_digitBytes (n : Nat) :
    (digitBytes n).foldl (fun n b => n * 10 + Seconds.digitOf b) 0 = n := by
  have value := foldl_digitByte (fun c => @Numeral.isDigit_of_mem_decimal n c) 0
  rwa [Numeral.decimal, Nat.ofDigitChars_ten_toDigits] at value

theorem natural?_ofNat (n : Nat) :
    (ofNat n).natural? = if n < 0x10000000000000000 then some n else none := by
  rw [ofNat_eq, natural?, if_pos (all_isDigit_digitBytes n), foldl_digitBytes]

theorem head?_toDigits {n : Nat} (pos : 0 < n) : (Nat.toDigits 10 n).head? ≠ some '0' := by
  induction n using Nat.strongRecOn with
  | ind n ih =>
    rw [Nat.toDigits_eq_if (by decide)]
    split
    · rename_i small
      have others : ∀ d < 10, 0 < d → d.digitChar ≠ '0' := by decide
      simpa using others n small pos
    · have shorter := ih (n / 10) (by omega) (by omega)
      rwa [List.head?_append_of_ne_nil _ Nat.toDigits_ne_nil]

theorem length_digitBytes_pos (n : Nat) : 0 < (digitBytes n).length := by
  simpa [digitBytes] using Nat.length_toDigits_pos

/-- Only zero itself begins with a zero. -/
theorem length_of_head?_digitBytes {n : Nat} (h : (digitBytes n).head? = some 48) :
    (digitBytes n).length = 1 := by
  rcases Nat.eq_zero_or_pos n with rfl | pos
  · rfl
  · rw [digitBytes, List.head?_map, Option.map_eq_some_iff] at h
    obtain ⟨c, first, zero⟩ := h
    have digit := Numeral.isDigit_of_mem_decimal (List.mem_of_head? first)
    rw [eq_zero_of_digitByte digit zero] at first
    exact absurd first (head?_toDigits pos)

theorem isWhole_digitBytes (n : Nat) : Token.IsWhole (digitBytes n) where
  digits := ⟨all_isDigit_digitBytes n, List.ne_nil_of_length_pos (length_digitBytes_pos n)⟩
  leading := length_of_head?_digitBytes

theorem isNumber_digitBytes (n : Nat) : Token.IsNumber (digitBytes n) := by
  have parts := Token.isNumber_of_parts (Or.inl rfl) (isWhole_digitBytes n) .absent .absent
  simpa using parts

theorem written_ofNat (n : Nat) : Written (ofNat n) := .number (isNumber_digitBytes n)

end HandlerGraph.Json
