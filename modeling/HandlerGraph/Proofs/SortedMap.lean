import HandlerGraph.SortedMap
import Mathlib.Data.Finset.Card

/-! Maps filled from a list: under each key is the value that came last, and there are as many entries
as distinct keys. -/
namespace HandlerGraph.SortedMap
variable {κ α : Type} [Ordered κ]

theorem nodup_keys (m : SortedMap κ α) : m.keys.Nodup := by
  refine List.pairwise_map.mpr (m.ascending.imp ?_)
  intro e f less same
  exact Ordered.irrefl f.1 (same ▸ less)

theorem ofList_concat (l : List (κ × α)) (e : κ × α) :
    ofList (l ++ [e]) = (ofList l).insert e.1 e.2 := by
  simp only [ofList, List.foldl_append, List.foldl_cons, List.foldl_nil]

variable [DecidableEq κ]

theorem mem_keys_iff {m : SortedMap κ α} {k : κ} : k ∈ m.keys ↔ ∃ v, m.get? k = some v := by
  simp only [keys, List.mem_map, get?_eq_some_iff]
  constructor
  · rintro ⟨e, mem, rfl⟩
    exact ⟨e.2, mem⟩
  · rintro ⟨v, mem⟩
    exact ⟨(k, v), mem, rfl⟩

theorem get?_ofList (l : List (κ × α)) (k : κ) :
    (ofList l).get? k = ((l.filter (·.1 = k)).getLast?).map Prod.snd := by
  induction l using List.reverseRecOn with
  | nil => rfl
  | append_singleton l e ih =>
    rw [ofList_concat, get?_insert, List.filter_append]
    by_cases same : e.1 = k
    · simp [same]
    · simp [same, Ne.symm same, ih]

theorem mem_keys_ofList {l : List (κ × α)} {k : κ} :
    k ∈ (ofList l).keys ↔ k ∈ l.map Prod.fst := by
  have found : (∃ v, (ofList l).get? k = some v) ↔ l.filter (·.1 = k) ≠ [] := by
    rw [get?_ofList, ← Option.isSome_iff_exists, Option.isSome_map, List.getLast?_isSome]
  rw [mem_keys_iff, found, ne_eq, List.filter_eq_nil_iff]
  simp

theorem size_ofList (l : List (κ × α)) : (ofList l).size = (l.map Prod.fst).toFinset.card := by
  have members : (ofList l).keys.toFinset = (l.map Prod.fst).toFinset := by
    ext k
    rw [List.mem_toFinset, List.mem_toFinset, mem_keys_ofList]
  rw [← members, List.toFinset_card_of_nodup (nodup_keys _), keys, List.length_map, size]

end HandlerGraph.SortedMap
