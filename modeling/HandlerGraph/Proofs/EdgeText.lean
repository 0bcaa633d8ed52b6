import HandlerGraph.Edge
import HandlerGraph.Proofs.Numeral

/-! Edges as text. An edge text reads back as its edge exactly when both ends fit into 63 bits; larger
ends are refused, never misread. -/
namespace HandlerGraph

namespace Text

theorem split_of_not_mem {mark : Char} {cs : List Char} (absent : mark ∉ cs) :
    split mark cs = [cs] := by
  induction cs with
  | nil => rfl
  | cons c cs ih =>
    rw [List.mem_cons, not_or] at absent
    rw [split, if_neg (Ne.symm absent.1), ih absent.2]

theorem split_append (mark : Char) (before after : List Char) :
    split mark (before ++ mark :: after) = split mark before ++ split mark after := by
  induction before with
  | nil => simp [split]
  | cons c before ih =>
    rw [List.cons_append, split, split, ih]
    have some_piece := split_ne_nil mark before
    split
    · simp
    · cases pieces : split mark before with
      | nil => contradiction
      | cons piece pieces => simp

end Text

namespace Edge

/-- Both ends can be written to a file and read back. -/
def Fits (e : Edge) : Prop := e.source < 0x8000000000000000 ∧ e.target < 0x8000000000000000

instance decidableFits (e : Edge) : Decidable e.Fits := inferInstanceAs (Decidable (_ ∧ _))

theorem number?_decimal (n : Nat) :
    number? (Numeral.decimal n) = if n < 0x8000000000000000 then some n else none := by
  rw [number?, Numeral.natural?_decimal]
  rfl

theorem lt_of_number? {part : List Char} {n : Nat} (h : number? part = some n) :
    n < 0x8000000000000000 := by
  obtain ⟨m, -, fits⟩ := Option.bind_eq_some_iff.mp h
  rw [Numeral.unsigned?] at fits
  split at fits
  · rename_i small
    obtain rfl := Option.some.inj fits
    exact small
  · cases fits

theorem split_render (e : Edge) : Text.split ' ' e.render.toList =
    [Numeral.decimal e.source, Numeral.decimal e.target, Numeral.decimal e.relation.code] := by
  rw [render, String.toList_ofList, Text.split_append, Text.split_append,
    Text.split_of_not_mem (Numeral.space_not_mem_decimal _),
    Text.split_of_not_mem (Numeral.space_not_mem_decimal _),
    Text.split_of_not_mem (Numeral.space_not_mem_decimal _)]
  rfl

theorem parse_render (e : Edge) :
    parse e.render = if e.Fits then .ok e else .error (.malformedEdge e.render) := by
  have code : e.relation.code < 0x8000000000000000 := by
    cases e.relation <;> decide
  simp only [parse, split_render, number?_decimal, if_pos code]
  by_cases source : e.source < 0x8000000000000000
  · by_cases target : e.target < 0x8000000000000000
    · simp [source, target, Fits]
    · simp [source, target, Fits]
  · simp [source, Fits]

end Edge
end HandlerGraph
