import HandlerGraph.Proofs.NumberText
import HandlerGraph.Seconds.Shortest
import Mathlib.Algebra.Order.Field.Power
import Mathlib.Data.Rat.Cast.Order
import Mathlib.Tactic.FieldSimp
import Mathlib.Tactic.NormNum
import Mathlib.Tactic.Positivity

/-! Seconds as text. The search for the shortest decimal never ends in zero: no interval reaches down
to zero, and the finest grid is fine enough, since the estimate of the leading digit is off by far
less than the seventeen digits searched. So every finite number is written as a JSON number. -/
namespace HandlerGraph.Seconds

theorem zpow_eq_div (base : Nat) (e : Int) :
    (base : ℚ) ^ e = (base ^ e.toNat : Nat) / (base ^ (-e).toNat : Nat) := by
  obtain ⟨n, rfl | rfl⟩ := e.eq_nat_or_neg
  · simp
  · simp [zpow_neg]

/-- A power of ten is below a power of two if its exponent is small enough: a thousand is below two
to the tenth, and two to the thirteenth below ten thousand. -/
theorem ten_zpow_le_two_zpow {e k : Int} (up : 0 ≤ k → 10 * e ≤ 3 * k)
    (down : k ≤ 0 → 13 * e ≤ 4 * k) : (10 : ℚ) ^ e ≤ 2 ^ k := by
  have one_le_ten : (1 : ℚ) ≤ 10 := by norm_num
  have one_le_two : (1 : ℚ) ≤ 2 := by norm_num
  rcases le_total k 0 with negative | positive
  · have base : ((10 : ℚ) ^ (4 : ℤ)) ^ k ≤ ((2 : ℚ) ^ (13 : ℤ)) ^ k := by
      obtain ⟨n, rfl⟩ : ∃ n : Nat, k = -(n : ℤ) := ⟨k.natAbs, by omega⟩
      rw [zpow_neg, zpow_neg, inv_le_inv₀ (by positivity) (by positivity), zpow_natCast,
        zpow_natCast]
      exact pow_le_pow_left₀ (by positivity) (by norm_num) n
    have powers : ((10 : ℚ) ^ e) ^ (13 : ℤ) ≤ ((2 : ℚ) ^ k) ^ (13 : ℤ) := by
      calc ((10 : ℚ) ^ e) ^ (13 : ℤ) = 10 ^ (13 * e) := by rw [← zpow_mul, mul_comm]
        _ ≤ 10 ^ (4 * k) := zpow_le_zpow_right₀ one_le_ten (down negative)
        _ = (10 ^ (4 : ℤ)) ^ k := zpow_mul ..
        _ ≤ (2 ^ (13 : ℤ)) ^ k := base
        _ = (2 ^ k) ^ (13 : ℤ) := by rw [← zpow_mul, ← zpow_mul, mul_comm]
    exact (zpow_le_zpow_iff_left₀ (by positivity) (by positivity) (by norm_num)).mp powers
  · rcases le_total e 0 with below | above
    · calc (10 : ℚ) ^ e ≤ 10 ^ (0 : ℤ) := zpow_le_zpow_right₀ one_le_ten below
        _ = 2 ^ (0 : ℤ) := by norm_num
        _ ≤ 2 ^ k := zpow_le_zpow_right₀ one_le_two positive
    · have powers : ((10 : ℚ) ^ e) ^ (3 : ℤ) ≤ ((2 : ℚ) ^ k) ^ (3 : ℤ) := by
        calc ((10 : ℚ) ^ e) ^ (3 : ℤ) = (10 ^ (3 : ℤ)) ^ e := by rw [← zpow_mul, ← zpow_mul, mul_comm]
          _ ≤ (2 ^ (10 : ℤ)) ^ e := zpow_le_zpow_left₀ above (by norm_num) (by norm_num)
          _ = 2 ^ (10 * e) := (zpow_mul ..).symm
          _ ≤ 2 ^ (3 * k) := zpow_le_zpow_right₀ one_le_two (up positive)
          _ = (2 ^ k) ^ (3 : ℤ) := by rw [← zpow_mul, mul_comm]
      exact (zpow_le_zpow_iff_left₀ (by positivity) (by positivity) (by norm_num)).mp powers

namespace Interval
variable {i : Interval}

def toRat (i : Interval) : ℚ := i.value * 2 ^ i.exponent

theorem one_le_together_iff (e : Int) :
    (i.together ⟨1, e⟩ i.value).1 ≤ (i.together ⟨1, e⟩ i.value).2 ↔ (10 : ℚ) ^ e ≤ i.toRat := by
  have ten := zpow_eq_div 10 e
  have two := zpow_eq_div 2 i.exponent
  have tens : (0 : ℚ) < (10 ^ (-e).toNat : Nat) := by positivity
  have twos : (0 : ℚ) < (2 ^ (-i.exponent).toNat : Nat) := by positivity
  push_cast at ten two
  rw [toRat, ten, two, div_le_iff₀ (by positivity), ← mul_div_assoc, div_mul_eq_mul_div,
    le_div_iff₀ (by positivity)]
  simp only [together, tenScale, Binary.scale, Nat.pow_eq, one_mul]
  norm_cast

theorem atLeastPower_iff {e : Int} : i.atLeastPower e = true ↔ (10 : ℚ) ^ e ≤ i.toRat := by
  rw [← one_le_together_iff]
  simp [atLeastPower]

theorem together_pos {d : Decimal} {quarters : Nat} (pos : 0 < quarters) :
    0 < (i.together d quarters).2 := by
  simp only [together, tenScale, Binary.scale, Nat.pow_eq]
  positivity

theorem below_pos {e : Int} (h : (10 : ℚ) ^ e ≤ i.toRat) : 0 < (i.below e).digits := by
  have one : 0 < (i.together ⟨1, e⟩ i.value).1 := by
    simp only [together, tenScale, Binary.scale, Nat.pow_eq]
    positivity
  exact Nat.div_pos ((one_le_together_iff e).mpr h) one

theorem digits_pos_of_holds {d : Decimal} (low : 0 < i.low) (h : i.holds d = true) :
    0 < d.digits := by
  refine Nat.pos_of_ne_zero fun zero => ?_
  have none : (i.together d i.low).1 = 0 := by simp [together, zero]
  have some := @together_pos i d _ low
  simp only [holds] at h
  split at h <;> simp_all

theorem digits_pos_of_nearest {down d : Decimal} (low : 0 < i.low) (h : i.nearest down = some d) :
    0 < d.digits := by
  simp only [nearest] at h
  split at h
  · cases h
  · rename_i held _
    obtain rfl := Option.some.inj h
    exact digits_pos_of_holds low held
  · obtain rfl := Option.some.inj h
    exact Nat.succ_pos _
  · rename_i held _
    split at h
    · obtain rfl := Option.some.inj h
      exact digits_pos_of_holds low held
    · obtain rfl := Option.some.inj h
      exact Nat.succ_pos _

theorem digits_search_pos (low : 0 < i.low) {tries : Nat} {e : Int}
    (fine : (10 : ℚ) ^ (e - tries) ≤ i.toRat) : 0 < (i.search tries e).digits := by
  induction tries generalizing e with
  | zero => exact below_pos (by simpa using fine)
  | succ tries ih =>
    rw [search]
    split
    · rename_i found
      exact digits_pos_of_nearest low found
    · refine ih ?_
      rwa [show e - 1 - (tries : Int) = e - (tries + 1 : Nat) by omega]

/-- The estimate is off by much less than seventeen digits. -/
theorem leading_le (pos : 0 < i.value) (high : Nat.log2 i.value + i.exponent ≤ 2000)
    (low : -2000 ≤ Nat.log2 i.value + i.exponent) :
    (10 : ℚ) ^ (i.leading - 17) ≤ i.toRat := by
  have weaken : ∀ {e : Int}, i.atLeastPower e = true → (10 : ℚ) ^ (e - 17) ≤ i.toRat := by
    intro e h
    exact (zpow_le_zpow_right₀ (by norm_num) (by omega)).trans (atLeastPower_iff.mp h)
  simp only [leading]
  split
  · exact weaken ‹_›
  · split
    · exact weaken ‹_›
    · have bits : (2 : ℚ) ^ ((Nat.log2 i.value : Int) + i.exponent) ≤ i.toRat := by
        rw [zpow_add₀ (by norm_num), toRat, zpow_natCast]
        have whole : ((2 : ℚ) ^ Nat.log2 i.value) ≤ i.value := by
          exact_mod_cast Nat.log2_self_le pos.ne'
        gcongr
      refine le_trans (ten_zpow_le_two_zpow ?_ ?_) bits
      · rw [Int.fdiv_eq_ediv_of_nonneg _ (by norm_num)]
        omega
      · rw [Int.fdiv_eq_ediv_of_nonneg _ (by norm_num)]
        omega

end Interval

theorem Binary.bounds {x : Float} {b : Binary} (h : Binary.ofFloat? x = some b) :
    b.mantissa < 0x20000000000000 ∧ -1074 ≤ b.exponent ∧ b.exponent ≤ 972 := by
  simp only [Binary.ofFloat?] at h
  have hidden : Binary.hiddenBit = 0x10000000000000 := rfl
  have fraction : x.toBits.toNat % Binary.hiddenBit < Binary.hiddenBit := Nat.mod_lt _ (by decide)
  split at h
  · cases h
  · split at h
    · obtain rfl := Option.some.inj h
      exact ⟨fraction.trans (by decide), le_refl _, by norm_num⟩
    · obtain rfl := Option.some.inj h
      simp only
      omega

theorem digits_shortest_pos {x : Float} {b : Binary} (h : Binary.ofFloat? x = some b)
    (nonzero : b.mantissa ≠ 0) : 0 < (shortest b).digits := by
  obtain ⟨size, low, high⟩ := Binary.bounds h
  have value : 0 < (Interval.of b).value := by
    simp only [Interval.of]
    omega
  have log : Nat.log2 (Interval.of b).value < 55 := by
    rw [Nat.log2_lt value.ne']
    simp only [Interval.of]
    omega
  refine Interval.digits_search_pos ?_ (Interval.leading_le value ?_ ?_)
  · simp only [Interval.of]
    split <;> omega
  · simp only [Interval.of] at log ⊢
    omega
  · simp only [Interval.of] at log ⊢
    omega

open Json (digitByte)
open Json.Token (AreDigits IsNumber)

theorem encode_ofList {cs : List Char} (plain : ∀ c ∈ cs, c.toNat < 128) :
    Text.encode (String.ofList cs) = cs.map digitByte := by
  rw [Text.encode, String.toUTF8_eq_toByteArray, String.toByteArray_ofList]
  induction cs with
  | nil => rfl
  | cons c cs ih =>
    have one : c.utf8Size = 1 := by
      rw [Char.utf8Size_eq_one_iff, UInt32.le_iff_toNat_le]
      exact Nat.le_of_lt_succ (plain c (by simp))
    rw [List.utf8Encode_cons, List.utf8Encode_singleton, String.utf8EncodeChar_eq_singleton one,
      ByteArray.data_append, Array.toList_append, ih fun d hd => plain d (by simp [hd])]
    rfl

def Digits (cs : List Char) : Prop := (∀ c ∈ cs, c.isDigit = true) ∧ cs ≠ []

structure Leading (cs : List Char) : Prop where
  digits : Digits cs
  head : cs.head? ≠ some '0'

theorem Digits.bytes {cs : List Char} (h : Digits cs) : AreDigits (cs.map digitByte) := by
  refine ⟨?_, by simpa using h.2⟩
  simp only [List.all_map, List.all_eq_true]
  exact fun c mem => Json.isDigit_digitByte (h.1 c mem)

theorem Digits.plain {cs : List Char} (h : Digits cs) : ∀ c ∈ cs, c.toNat < 128 := by
  intro c mem
  have bounds := (Json.toNat_digitByte (h.1 c mem)).2
  omega

theorem Digits.append {cs ds : List Char} (h : Digits cs) (more : ∀ c ∈ ds, c.isDigit = true) :
    Digits (cs ++ ds) := by
  refine ⟨fun c mem => ?_, by simp [h.2]⟩
  rcases List.mem_append.mp mem with first | second
  · exact h.1 c first
  · exact more c second

theorem isDigit_of_mem_zeros {n : Nat} : ∀ c ∈ List.replicate n '0', c.isDigit = true := by
  intro c mem
  rw [List.eq_of_mem_replicate mem]
  rfl

theorem Leading.isWhole {cs : List Char} (h : Leading cs) :
    Json.Token.IsWhole (cs.map digitByte) := by
  refine ⟨h.digits.bytes, fun zero => ?_⟩
  rw [List.head?_map, Option.map_eq_some_iff] at zero
  obtain ⟨c, first, byte⟩ := zero
  rw [Json.eq_zero_of_digitByte (h.digits.1 c (List.mem_of_head? first)) byte] at first
  exact absurd first h.head

theorem leading_toDigits {n : Nat} (pos : 0 < n) : Leading (Nat.toDigits 10 n) :=
  ⟨⟨fun _ => Numeral.isDigit_of_mem_decimal, Nat.toDigits_ne_nil⟩, Json.head?_toDigits pos⟩

theorem leading_stripZeros {cs : List Char} (h : Leading cs) : Leading (stripZeros cs) := by
  obtain ⟨c, rest, rfl⟩ := List.exists_cons_of_ne_nil h.digits.2
  have nonzero : c ≠ '0' := by simpa using h.head
  have front : stripZeros (c :: rest) = c :: stripZeros rest := by
    rw [stripZeros, List.reverse_cons, List.dropWhile_append, stripZeros]
    split
    · rename_i empty
      simp [List.isEmpty_iff.mp empty, nonzero]
    · simp
  refine ⟨⟨fun d mem => h.digits.1 d ?_, by simp [front]⟩, by simpa [front] using nonzero⟩
  have kept := (List.dropWhile_sublist _).subset (List.mem_reverse.mp mem)
  exact List.mem_reverse.mp kept

inductive Fraction : List Char → Prop
  | absent : Fraction []
  | point {digits : List Char} (h : Digits digits) : Fraction ('.' :: digits)

inductive Exponent : List Char → Prop
  | absent : Exponent []
  | signed {sign : Char} {digits : List Char} (plusMinus : sign = '+' ∨ sign = '-')
      (h : Digits digits) : Exponent ('e' :: sign :: digits)

theorem isNumber_encode {sign whole fraction exponent : List Char}
    (signs : sign = [] ∨ sign = ['-']) (w : whole = ['0'] ∨ Leading whole) (f : Fraction fraction)
    (e : Exponent exponent) :
    IsNumber (Text.encode (String.ofList (sign ++ (whole ++ fraction ++ exponent)))) := by
  have first : (sign.map digitByte = [] ∨ sign.map digitByte = [45]) ∧
      ∀ c ∈ sign, c.toNat < 128 := by
    rcases signs with rfl | rfl
    · exact ⟨Or.inl rfl, by simp⟩
    · exact ⟨Or.inr rfl, List.forall_mem_singleton.mpr (by decide)⟩
  have second : Json.Token.IsWhole (whole.map digitByte) ∧ ∀ c ∈ whole, c.toNat < 128 := by
    rcases w with rfl | leading
    · exact ⟨⟨⟨rfl, by decide⟩, fun _ => rfl⟩, List.forall_mem_singleton.mpr (by decide)⟩
    · exact ⟨leading.isWhole, leading.digits.plain⟩
  have third : Json.Token.IsFraction (fraction.map digitByte) ∧ ∀ c ∈ fraction, c.toNat < 128 := by
    cases f with
    | absent => exact ⟨.absent, by simp⟩
    | point h => exact ⟨.point h.bytes, List.forall_mem_cons.mpr ⟨by decide, h.plain⟩⟩
  have fourth : Json.Token.IsExponent (exponent.map digitByte) ∧ ∀ c ∈ exponent, c.toNat < 128 := by
    cases e with
    | absent => exact ⟨.absent, by simp⟩
    | signed plusMinus h =>
      rcases plusMinus with rfl | rfl
      · exact ⟨.signed (Or.inl rfl) h.bytes, List.forall_mem_cons.mpr ⟨by decide,
          List.forall_mem_cons.mpr ⟨by decide, h.plain⟩⟩⟩
      · exact ⟨.signed (Or.inr rfl) h.bytes, List.forall_mem_cons.mpr ⟨by decide,
          List.forall_mem_cons.mpr ⟨by decide, h.plain⟩⟩⟩
  have plain : ∀ c ∈ sign ++ (whole ++ fraction ++ exponent), c.toNat < 128 := by
    simp only [List.forall_mem_append]
    exact ⟨first.2, ⟨second.2, third.2⟩, fourth.2⟩
  rw [encode_ofList plain, List.map_append, List.map_append, List.map_append]
  exact Json.Token.isNumber_of_parts first.1 second.1 third.1 fourth.1

theorem isNumber_positional {sign digits : List Char} (signs : sign = [] ∨ sign = ['-'])
    (h : Leading digits) (point : Int) :
    IsNumber (Text.encode (String.ofList (sign ++ positional digits point))) := by
  rw [positional]
  split
  · have fraction : Digits (List.replicate (-point).toNat '0' ++ digits) := by
      refine ⟨fun c mem => ?_, by simp [h.digits.2]⟩
      exact (List.mem_append.mp mem).elim (isDigit_of_mem_zeros c) (h.digits.1 c)
    simpa using isNumber_encode signs (Or.inl rfl) (.point fraction) .absent
  · rename_i right
    obtain ⟨n, right⟩ : ∃ n, point.toNat = n + 1 := ⟨point.toNat - 1, by omega⟩
    obtain ⟨c, rest, rfl⟩ := List.exists_cons_of_ne_nil h.digits.2
    have whole : Leading ((c :: rest).take point.toNat ++
        List.replicate (point.toNat - ((c :: rest).take point.toNat).length) '0') := by
      have own : Digits ((c :: rest).take point.toNat) :=
        ⟨fun d mem => h.digits.1 d (List.mem_of_mem_take mem), by simp [right]⟩
      exact ⟨own.append isDigit_of_mem_zeros, by simpa [right] using h.head⟩
    have fraction : Digits (if ((c :: rest).drop point.toNat).isEmpty then ['0']
        else (c :: rest).drop point.toNat) := by
      split
      · exact ⟨by simp, by simp⟩
      · rename_i more
        exact ⟨fun d mem => h.digits.1 d (List.mem_of_mem_drop mem), by simpa using more⟩
    simpa using isNumber_encode signs (Or.inr whole) (.point fraction) .absent

theorem isNumber_scientific {sign digits : List Char} (signs : sign = [] ∨ sign = ['-'])
    (h : Leading digits) (exponent : Int) :
    IsNumber (Text.encode (String.ofList (sign ++ scientific digits exponent))) := by
  have power : Exponent ('e' :: (if exponent < 0 then '-' else '+') ::
      Nat.toDigits 10 exponent.natAbs) := by
    refine .signed ?_ ⟨fun _ => Numeral.isDigit_of_mem_decimal, Nat.toDigits_ne_nil⟩
    split <;> simp
  obtain ⟨c, rest, rfl⟩ := List.exists_cons_of_ne_nil h.digits.2
  have whole : Leading [c] := ⟨⟨by simpa using h.digits.1 c, by simp⟩, by simpa using h.head⟩
  cases rest with
  | nil => simpa [scientific] using isNumber_encode signs (Or.inr whole) .absent power
  | cons d rest =>
    have fraction : Digits (d :: rest) :=
      ⟨fun e mem => h.digits.1 e (List.mem_cons_of_mem c mem), by simp⟩
    simpa [scientific] using isNumber_encode signs (Or.inr whole) (.point fraction) power

/-- Every finite number is written as a JSON number. -/
theorem isNumber_render {x : Float} (finite : (Binary.ofFloat? x).isSome = true) :
    IsNumber (Text.encode (render x)) := by
  obtain ⟨b, parts⟩ := Option.isSome_iff_exists.mp finite
  have signs : (if b.negative then ['-'] else []) = [] ∨
      (if b.negative then ['-'] else []) = ['-'] := by
    split <;> simp
  simp only [render, parts]
  generalize (if b.negative then ['-'] else []) = sign at signs ⊢
  split
  · have zero : Digits ['0'] := ⟨List.forall_mem_singleton.mpr rfl, by decide⟩
    simpa using isNumber_encode signs (Or.inl rfl) (.point zero) .absent
  · rename_i nonzero
    have pos := digits_shortest_pos parts nonzero
    generalize shortest b = d at pos ⊢
    have digits := leading_stripZeros (leading_toDigits pos)
    split
    · exact isNumber_positional signs digits _
    · exact isNumber_scientific signs digits _

end HandlerGraph.Seconds
