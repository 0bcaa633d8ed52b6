/-! Finite sets kept as strictly ascending lists. The list is the only representation of its
members, so two sets with the same members are equal, and the order in which a set is written out
is its order. Insertion is linear; no balancing is attempted. -/
namespace HandlerGraph

/-- A strict linear order that can be decided. -/
class Ordered (α : Type) extends LT α where
  decide_lt : (a b : α) → Decidable (a < b)
  irrefl : (a : α) → ¬ a < a
  trans : {a b c : α} → a < b → b < c → a < c
  connected : {a b : α} → ¬ a < b → ¬ b < a → a = b

instance Ordered.decidableLT {α : Type} [Ordered α] (a b : α) : Decidable (a < b) :=
  Ordered.decide_lt a b

instance : Ordered Nat where
  decide_lt := inferInstance
  irrefl := Nat.lt_irrefl
  trans := Nat.lt_trans
  connected h k := Nat.le_antisymm (Nat.le_of_not_lt k) (Nat.le_of_not_lt h)

instance : Ordered String where
  decide_lt := inferInstance
  irrefl := String.lt_irrefl
  trans := String.lt_trans
  connected h k := String.le_antisymm (String.not_lt.mp k) (String.not_lt.mp h)

instance : Ordered (List String) where
  decide_lt := inferInstance
  irrefl := List.lt_irrefl
  trans := List.lt_trans
  connected h k := List.le_antisymm (List.not_lt.mp k) (List.not_lt.mp h)

@[ext] structure SortedSet (α : Type) [Ordered α] where
  toList : List α
  ascending : toList.Pairwise (· < ·)
  deriving DecidableEq

namespace SortedSet
variable {α : Type} [Ordered α]

instance : Membership α (SortedSet α) where
  mem s a := a ∈ s.toList

theorem mem_def {s : SortedSet α} {a : α} : a ∈ s ↔ a ∈ s.toList := Iff.rfl

instance [DecidableEq α] (s : SortedSet α) (a : α) : Decidable (a ∈ s) :=
  inferInstanceAs (Decidable (a ∈ s.toList))

def empty : SortedSet α := ⟨[], List.Pairwise.nil⟩

instance : EmptyCollection (SortedSet α) := ⟨empty⟩

instance : Inhabited (SortedSet α) := ⟨empty⟩

@[simp] theorem not_mem_empty {a : α} : ¬ a ∈ (empty : SortedSet α) := List.not_mem_nil

def place (a : α) : List α → List α
  | [] => [a]
  | b :: rest => if a < b then a :: b :: rest else if b < a then b :: place a rest else b :: rest

theorem mem_place {a x : α} {l : List α} : x ∈ place a l ↔ x = a ∨ x ∈ l := by
  induction l with
  | nil => simp [place]
  | cons b rest ih =>
    rw [place]
    split
    · simp
    · rename_i above
      split
      · simp only [List.mem_cons, ih]
        grind
      · rename_i below
        have same : a = b := Ordered.connected above below
        simp [same]

theorem place_ascending {a : α} {l : List α} (h : l.Pairwise (· < ·)) :
    (place a l).Pairwise (· < ·) := by
  induction l with
  | nil => simp [place]
  | cons b rest ih =>
    have tail := List.pairwise_cons.mp h
    rw [place]
    split
    · rename_i less
      refine List.pairwise_cons.mpr ⟨fun x hx => ?_, h⟩
      rcases List.mem_cons.mp hx with rfl | hx
      · exact less
      · exact Ordered.trans less (tail.1 x hx)
    · split
      · rename_i less
        refine List.pairwise_cons.mpr ⟨fun x hx => ?_, ih tail.2⟩
        rcases mem_place.mp hx with rfl | hx
        · exact less
        · exact tail.1 x hx
      · exact h

def insert (s : SortedSet α) (a : α) : SortedSet α := ⟨place a s.toList, place_ascending s.ascending⟩

@[simp] theorem mem_insert {s : SortedSet α} {a x : α} : x ∈ s.insert a ↔ x = a ∨ x ∈ s := mem_place

def addAll (s : SortedSet α) (l : List α) : SortedSet α := l.foldl insert s

@[simp] theorem mem_addAll {s : SortedSet α} {l : List α} {x : α} :
    x ∈ s.addAll l ↔ x ∈ l ∨ x ∈ s := by
  induction l generalizing s with
  | nil => simp [addAll]
  | cons a l ih =>
    have step : s.addAll (a :: l) = (s.insert a).addAll l := rfl
    rw [step, ih, mem_insert, List.mem_cons]
    grind

def ofList (l : List α) : SortedSet α := empty.addAll l

@[simp] theorem mem_ofList {l : List α} {x : α} : x ∈ ofList l ↔ x ∈ l := by
  simp [ofList]

def filter (p : α → Bool) (s : SortedSet α) : SortedSet α := ⟨s.toList.filter p, s.ascending.filter p⟩

@[simp] theorem mem_filter {p : α → Bool} {s : SortedSet α} {x : α} :
    x ∈ s.filter p ↔ x ∈ s ∧ p x = true := List.mem_filter

def size (s : SortedSet α) : Nat := s.toList.length

def isEmpty (s : SortedSet α) : Bool := s.toList.isEmpty

theorem ext_mem {s t : SortedSet α} (h : ∀ a, a ∈ s ↔ a ∈ t) : s = t := by
  obtain ⟨l, hl⟩ := s
  obtain ⟨m, hm⟩ := t
  simp only [mem_def] at h
  congr
  induction l generalizing m with
  | nil =>
    cases m with
    | nil => rfl
    | cons b m => exact absurd ((h b).mpr List.mem_cons_self) List.not_mem_nil
  | cons a l ih =>
    cases m with
    | nil => exact absurd ((h a).mp List.mem_cons_self) List.not_mem_nil
    | cons b m =>
      have la := List.pairwise_cons.mp hl
      have mb := List.pairwise_cons.mp hm
      have ab : a = b := by
        rcases List.mem_cons.mp ((h a).mp List.mem_cons_self) with same | inside
        · exact same
        · rcases List.mem_cons.mp ((h b).mpr List.mem_cons_self) with same | within
          · exact same.symm
          · exact absurd (Ordered.trans (mb.1 a inside) (la.1 b within)) (Ordered.irrefl b)
      subst ab
      have tails : l = m := by
        refine ih la.2 m mb.2 fun x => ⟨fun hx => ?_, fun hx => ?_⟩
        · rcases List.mem_cons.mp ((h x).mp (List.mem_cons_of_mem _ hx)) with same | inside
          · exact absurd (la.1 x hx) (same ▸ Ordered.irrefl x)
          · exact inside
        · rcases List.mem_cons.mp ((h x).mpr (List.mem_cons_of_mem _ hx)) with same | inside
          · exact absurd (mb.1 x hx) (same ▸ Ordered.irrefl x)
          · exact inside
      rw [tails]

theorem eq_empty_iff {s : SortedSet α} : s = empty ↔ ∀ a, ¬ a ∈ s := by
  constructor
  · rintro rfl a
    exact not_mem_empty
  · intro absent
    exact ext_mem fun a => iff_of_false (absent a) not_mem_empty

end SortedSet
end HandlerGraph
