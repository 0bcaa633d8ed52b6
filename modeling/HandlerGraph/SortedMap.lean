import HandlerGraph.SortedSet

/-! Finite maps kept as lists of entries with strictly ascending keys. Inserting under a key that
is present replaces its value. Listing order is key order. -/
namespace HandlerGraph

@[ext] structure SortedMap (κ α : Type) [Ordered κ] where
  entries : List (κ × α)
  ascending : entries.Pairwise (fun e f => e.1 < f.1)
  deriving DecidableEq

namespace SortedMap
variable {κ α : Type} [Ordered κ]

def empty : SortedMap κ α := ⟨[], List.Pairwise.nil⟩

instance : EmptyCollection (SortedMap κ α) := ⟨empty⟩

instance : Inhabited (SortedMap κ α) := ⟨empty⟩

def place (k : κ) (v : α) : List (κ × α) → List (κ × α)
  | [] => [(k, v)]
  | e :: rest =>
    if k < e.1 then (k, v) :: e :: rest
    else if e.1 < k then e :: place k v rest
    else (k, v) :: rest

theorem key_mem_place {k : κ} {v : α} {l : List (κ × α)} {e : κ × α} (h : e ∈ place k v l) :
    e.1 = k ∨ ∃ f ∈ l, f.1 = e.1 := by
  induction l with
  | nil =>
    rw [place, List.mem_singleton] at h
    exact Or.inl (h ▸ rfl)
  | cons f rest ih =>
    rw [place] at h
    split at h
    · rcases List.mem_cons.mp h with rfl | h
      · exact Or.inl rfl
      · exact Or.inr ⟨e, h, rfl⟩
    · split at h
      · rcases List.mem_cons.mp h with rfl | h
        · exact Or.inr ⟨e, List.mem_cons_self, rfl⟩
        · rcases ih h with same | ⟨g, hg, same⟩
          · exact Or.inl same
          · exact Or.inr ⟨g, List.mem_cons_of_mem _ hg, same⟩
      · rcases List.mem_cons.mp h with rfl | h
        · exact Or.inl rfl
        · exact Or.inr ⟨e, List.mem_cons_of_mem _ h, rfl⟩

theorem place_ascending {k : κ} {v : α} {l : List (κ × α)}
    (h : l.Pairwise (fun e f => e.1 < f.1)) : (place k v l).Pairwise (fun e f => e.1 < f.1) := by
  induction l with
  | nil => simp [place]
  | cons e rest ih =>
    have tail := List.pairwise_cons.mp h
    rw [place]
    split
    · rename_i less
      refine List.pairwise_cons.mpr ⟨fun f hf => ?_, h⟩
      rcases List.mem_cons.mp hf with rfl | hf
      · exact less
      · exact Ordered.trans less (tail.1 f hf)
    · rename_i above
      split
      · rename_i less
        refine List.pairwise_cons.mpr ⟨fun f hf => ?_, ih tail.2⟩
        rcases key_mem_place hf with same | ⟨g, hg, same⟩
        · exact same ▸ less
        · exact same ▸ tail.1 g hg
      · rename_i below
        have same : k = e.1 := Ordered.connected above below
        exact List.pairwise_cons.mpr ⟨fun f hf => same ▸ tail.1 f hf, tail.2⟩

def insert (m : SortedMap κ α) (k : κ) (v : α) : SortedMap κ α :=
  ⟨place k v m.entries, place_ascending m.ascending⟩

def lookup [DecidableEq κ] (k : κ) : List (κ × α) → Option α
  | [] => none
  | e :: rest => if e.1 = k then some e.2 else lookup k rest

def get? [DecidableEq κ] (m : SortedMap κ α) (k : κ) : Option α := lookup k m.entries

theorem lookup_place [DecidableEq κ] (k x : κ) (v : α) (l : List (κ × α)) :
    lookup x (place k v l) = if x = k then some v else lookup x l := by
  induction l with
  | nil => simp [place, lookup, eq_comm]
  | cons e rest ih =>
    rw [place]
    split
    · simp only [lookup, eq_comm]
    · rename_i above
      split
      · rename_i below
        have differ : e.1 ≠ k := fun same => Ordered.irrefl k (same ▸ below)
        simp only [lookup, ih]
        grind
      · rename_i below
        have same : k = e.1 := Ordered.connected above below
        simp only [lookup]
        grind

theorem get?_insert [DecidableEq κ] (m : SortedMap κ α) (k x : κ) (v : α) :
    (m.insert k v).get? x = if x = k then some v else m.get? x := lookup_place k x v m.entries

def erase [DecidableEq κ] (m : SortedMap κ α) (k : κ) : SortedMap κ α :=
  ⟨m.entries.filter (fun e => e.1 ≠ k), m.ascending.filter _⟩

theorem get?_erase [DecidableEq κ] (m : SortedMap κ α) (k x : κ) :
    (m.erase k).get? x = if x = k then none else m.get? x := by
  obtain ⟨l, h⟩ := m
  simp only [get?, erase]
  clear h
  induction l with
  | nil => simp [lookup]
  | cons e rest ih =>
    by_cases same : e.1 = k
    · simp only [List.filter, same, ne_eq, not_true_eq_false, decide_false, ih, lookup]
      grind
    · simp only [List.filter, same, ne_eq, not_false_eq_true, decide_true, ih, lookup]
      grind

omit [Ordered κ] in
theorem mem_of_lookup [DecidableEq κ] {k : κ} {v : α} {l : List (κ × α)}
    (h : lookup k l = some v) : (k, v) ∈ l := by
  induction l with
  | nil => cases h
  | cons e l ih =>
    rw [lookup] at h
    split at h
    · rename_i here
      obtain rfl := Option.some.inj h
      rw [← here]
      exact List.mem_cons_self
    · exact List.mem_cons_of_mem _ (ih h)

theorem lookup_of_mem [DecidableEq κ] {k : κ} {v : α} {l : List (κ × α)}
    (ascending : l.Pairwise (fun e f => e.1 < f.1)) (h : (k, v) ∈ l) : lookup k l = some v := by
  induction l with
  | nil => cases h
  | cons e l ih =>
    have tail := List.pairwise_cons.mp ascending
    rw [lookup]
    rcases List.mem_cons.mp h with rfl | h
    · rw [if_pos rfl]
    · have less : e.1 < k := tail.1 _ h
      have differ : e.1 ≠ k := fun same => Ordered.irrefl k (same ▸ less)
      rw [if_neg differ, ih tail.2 h]

theorem get?_eq_some_iff [DecidableEq κ] {m : SortedMap κ α} {k : κ} {v : α} :
    m.get? k = some v ↔ (k, v) ∈ m.entries :=
  ⟨mem_of_lookup, lookup_of_mem m.ascending⟩

theorem eq_or_lt_of_find? {m : SortedMap κ α} {p : κ × α → Bool} {e f : κ × α}
    (found : m.entries.find? p = some e) (mem : f ∈ m.entries) (fits : p f = true) :
    f = e ∨ e.1 < f.1 := by
  obtain ⟨-, before, after, whole, none⟩ := List.find?_eq_some_iff_append.mp found
  have ascending := m.ascending
  rw [whole] at mem ascending
  rcases List.mem_append.mp mem with early | late
  · exact absurd fits (by simpa using none f early)
  · rcases List.mem_cons.mp late with same | later
    · exact Or.inl same
    · exact Or.inr ((List.pairwise_cons.mp (List.pairwise_append.mp ascending).2.1).1 f later)

/-- Later entries win over earlier ones with the same key. -/
def ofList (l : List (κ × α)) : SortedMap κ α := l.foldl (fun m e => m.insert e.1 e.2) empty

def size (m : SortedMap κ α) : Nat := m.entries.length

def isEmpty (m : SortedMap κ α) : Bool := m.entries.isEmpty

def keys (m : SortedMap κ α) : List κ := m.entries.map Prod.fst

end SortedMap
end HandlerGraph
