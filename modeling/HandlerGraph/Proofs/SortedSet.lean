import HandlerGraph.SortedSet
import Mathlib.Data.Set.Card

/-! Counting the members of an ascending set: its list names each member once. -/
namespace HandlerGraph.SortedSet
variable {α : Type} [Ordered α]

theorem nodup (s : SortedSet α) : s.toList.Nodup := by
  refine s.ascending.imp ?_
  rintro a b less rfl
  exact Ordered.irrefl a less

theorem size_le_length {s : SortedSet α} {l : List α} (h : ∀ a ∈ s, a ∈ l) :
    s.size ≤ l.length :=
  (s.nodup.subperm h).length_le

theorem encard_members (s : SortedSet α) : {a | a ∈ s}.encard = s.size := by
  classical
  have members : {a | a ∈ s} = (s.toList.toFinset : Set α) := (List.coe_toFinset s.toList).symm
  rw [members, Set.encard_coe_eq_coe_finsetCard, List.toFinset_card_of_nodup s.nodup]
  rfl

theorem eq_of_size_le_one {s : SortedSet α} (small : s.size ≤ 1) {a b : α} (ha : a ∈ s)
    (hb : b ∈ s) :
    a = b := by
  have bound : {a | a ∈ s}.encard ≤ 1 := by
    rw [encard_members]
    exact Nat.cast_le_one.mpr small
  exact Set.encard_le_one_iff.mp bound a b ha hb

end HandlerGraph.SortedSet
