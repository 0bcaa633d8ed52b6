import HandlerGraph.App.Input
import HandlerGraph.Proofs.Desk
import HandlerGraph.Proofs.Extraction
import HandlerGraph.Proofs.RawFile

/-! How large the numbers of a behavior can get. A row takes at least two bytes of its table, every
edge of a behavior goes back to a row, and ids are row numbers; so where files have lengths that a
machine word can say, every extracted behavior fits its file. -/
namespace HandlerGraph

namespace Csv.Reading

/-- Twice the finished records, and one for a record that has begun. -/
def weight (r : Reading) : Nat :=
  2 * r.records.length + if r.place = .startOfRecord then 0 else 1

theorem weight_plain_le (r : Reading) {b : UInt8}
    (begun : r.place = .startOfRecord → isBreak b = false) : (r.plain b).weight ≤ r.weight + 1 := by
  rw [plain]
  split
  · simp only [weight, endField]
    grind
  · split
    · -- A break outside every record ends none.
      rename_i ends
      have inside : r.place ≠ .startOfRecord := fun first => by simp [begun first] at ends
      simp [weight, endRecord, endField, inside]
      omega
    · simp only [weight, append]
      grind

theorem weight_step_le (r : Reading) (b : UInt8) : (r.step b).weight ≤ r.weight + 1 := by
  cases here : r.place with
  | startOfRecord =>
    simp only [step, here]
    split
    · exact Nat.le_succ _
    · split
      · simp [weight]
      · exact r.weight_plain_le fun _ => by simpa using ‹¬ isBreak b = true›
  | startOfField =>
    simp only [step, here]
    split
    · simp [weight, here]
    · exact r.weight_plain_le (by simp [here])
  | inField =>
    simp only [step, here]
    exact r.weight_plain_le (by simp [here])
  | inQuotes =>
    simp only [step, here]
    split <;> simp [weight, append, here]
  | afterQuote =>
    simp only [step, here]
    split
    · simp [weight, append, here]
    · exact r.weight_plain_le (by simp [here])

theorem weight_foldl_step_le (bytes : List UInt8) (r : Reading) :
    (bytes.foldl step r).weight ≤ r.weight + bytes.length := by
  induction bytes generalizing r with
  | nil => exact Nat.le_refl _
  | cons b bytes ih =>
    have first := r.weight_step_le b
    have rest := ih (r.step b)
    simp only [List.foldl_cons, List.length_cons]
    omega

theorem length_finish_le (r : Reading) : 2 * r.finish.length ≤ r.weight + 1 := by
  rw [finish]
  split
  · rename_i here
    simp [weight, here]
  · rename_i begun
    have inside : r.place ≠ .startOfRecord := fun first => begun first
    simp [weight, endRecord, endField, inside]
    omega

end Csv.Reading

theorem Csv.length_records_le (bytes : List UInt8) :
    2 * (records bytes).length ≤ bytes.length + 1 := by
  have finished := Reading.length_finish_le ((dropMark bytes).foldl Reading.step Reading.start)
  have read := Reading.weight_foldl_step_le (dropMark bytes) Reading.start
  have start : Reading.start.weight = 0 := rfl
  have marked : (dropMark bytes).length ≤ bytes.length := by
    rw [dropMark.eq_def]
    split
    · simp only [List.length_cons]
      omega
    · exact Nat.le_refl _
  rw [records]
  omega

theorem Option.length_of_mapM {α β : Type} {f : α → Option β} {l : List α} {l' : List β}
    (h : l.mapM f = some l') : l'.length = l.length := by
  induction l generalizing l' with
  | nil =>
    cases h
    rfl
  | cons a l ih =>
    simp only [List.mapM_cons, Option.bind_eq_bind, Option.bind_eq_some_iff, Option.pure_def] at h
    obtain ⟨b, -, rest, later, same⟩ := h
    rw [← Option.some.inj same, List.length_cons, List.length_cons, ih later]

theorem Except.length_of_mapM {ε α β : Type} {f : α → Except ε β} {l : List α} {l' : List β}
    (h : l.mapM f = .ok l') : l'.length = l.length := by
  induction l generalizing l' with
  | nil =>
    cases h
    rfl
  | cons a l ih =>
    rw [List.mapM_cons] at h
    obtain ⟨b, -, h⟩ := Except.bind_eq_ok h
    obtain ⟨rest, later, same⟩ := Except.bind_eq_ok h
    rw [← Except.ok.inj same, List.length_cons, List.length_cons, ih later]

/-- A row takes two bytes at least, and so does the header. -/
theorem Table.length_rows?_le {α : Type} {known : List String} {read : Row → Option α}
    {bytes : List UInt8} {rows : List α} (h : rows? known read bytes = some rows) :
    2 * rows.length ≤ bytes.length := by
  have all := Csv.length_records_le bytes
  rw [rows?] at h
  split at h
  · obtain rfl := Option.some.inj h
    exact Nat.zero_le _
  · rename_i header records found
    have same := Option.length_of_mapM h
    rw [found, List.length_cons] at all
    omega

namespace Graph
variable {g : Graph} {rule : ExtractionRule} {trackFind : Bool} {nodes : List Node}
  {rows : List Edge} {e : Edge} {b : RawBehavior}

/-- The edge that a row puts into the adjacency of its source; `hold` rows are turned around. -/
def walked (trackFind : Bool) (row : Edge) : Option Edge :=
  (row.entry trackFind).map fun (id, n) => ⟨id, n.target, n.relation⟩

theorem mem_rows_of_mem_outgoing (built : build nodes rows trackFind = .ok g)
    (h : e ∈ g.outgoing e.source) : e ∈ rows.filterMap (walked trackFind) := by
  obtain ⟨n, adjacent, same⟩ := List.mem_map.mp h
  rw [neighbors_build built, entriesOf] at adjacent
  obtain ⟨⟨id, n⟩, listed, rfl⟩ := List.mem_map.mp adjacent
  obtain ⟨listed, source⟩ := List.mem_filter.mp listed
  obtain ⟨row, member, found⟩ := List.mem_filterMap.mp listed
  obtain rfl : id = e.source := of_decide_eq_true source
  refine List.mem_filterMap.mpr ⟨row, member, ?_⟩
  rw [walked, found, Option.map_some, ← same]

theorem mem_outgoing_of_mem_extractAll (built : build nodes rows trackFind = .ok g)
    (h : b ∈ g.extractAll rule) (mem : e ∈ b.edges) : e ∈ g.outgoing e.source := by
  obtain ⟨control, acting, inner⟩ := List.mem_flatMap.mp h
  obtain ⟨callback, fires, found⟩ := List.mem_filterMap.mp inner
  rw [extract_some found] at mem
  rcases SortedSet.mem_insert.mp mem with rfl | reached
  · exact mem_outgoing_of_eventCallback fires
  · rcases mem_reachedEdges.mp reached with link | walked
    · exact List.mem_map.mpr
        ⟨_, mem_neighbors_of_controlEdge built (mem_reachedLinks.mp link).1, rfl⟩
    · exact List.mem_map.mpr ⟨_, ((Walk.sound_whole rule g callback).edges e walked).2.2.1, rfl⟩

theorem inside_of_mem_rows (built : build nodes rows trackFind = .ok g)
    (h : e ∈ rows.filterMap (walked trackFind)) :
    e.source < nodes.length ∧ e.target < nodes.length := by
  obtain ⟨row, member, found⟩ := List.mem_filterMap.mp h
  have inside : row.source < nodes.length ∧ row.target < nodes.length := by
    simpa [start] using (foldlM_addRow built).2 row member
  obtain ⟨source, target, relation⟩ := row
  cases relation with
  | hold =>
    cases found
    exact inside.symm
  | find =>
    cases trackFind with
    | true =>
      cases found
      exact inside
    | false => cases found
  | _ =>
    cases found
    exact inside

theorem inside_of_mem_extractAll (built : build nodes rows trackFind = .ok g)
    (h : b ∈ g.extractAll rule) (mem : e ∈ b.edges) :
    e.source < nodes.length ∧ e.target < nodes.length := by
  have leaves := mem_outgoing_of_mem_extractAll built h mem
  exact inside_of_mem_rows built (mem_rows_of_mem_outgoing built leaves)

/-- A behavior lists controls that it need not have an edge from; they come from the rows. -/
theorem inside_of_mem_subsumed (built : build nodes rows trackFind = .ok g)
    (h : b ∈ g.extractAll rule) {x : Nat} (mem : x ∈ b.subsumed) :
    x ≠ b.control ∧ x < nodes.length := by
  rw [extract_some (extract_of_mem_extractAll h)] at mem
  obtain ⟨apart, ⟨e, link, rfl⟩, -⟩ := mem_subsumed.mp mem
  have row := ((mem_controlEdges_build built).mp link).1
  exact ⟨apart, by simpa [start] using ((foldlM_addRow built).2 e row).1⟩

theorem fits_of_mem_extractAll (built : build nodes rows trackFind = .ok g)
    (ids : nodes.length ≤ 0x8000000000000000) (count : rows.length < 0x10000000000000000)
    (h : b ∈ g.extractAll rule) : b.Fits := by
  have listed : ∀ e ∈ b.edges, e ∈ rows.filterMap (walked trackFind) := fun e mem =>
    mem_rows_of_mem_outgoing built (mem_outgoing_of_mem_extractAll built h mem)
  have inside : ∀ e ∈ b.edges, e.source < nodes.length ∧ e.target < nodes.length :=
    fun e => inside_of_mem_extractAll built h
  have size : b.size = Size.of b.edges := by
    rw [extract_some (extract_of_mem_extractAll h)]
    rfl
  have edges : b.edges.size ≤ rows.length :=
    (SortedSet.size_le_length listed).trans (List.length_filterMap_le _ rows)
  have ends : (endpoints b.edges).size ≤ nodes.length := by
    have below : ∀ x ∈ endpoints b.edges, x ∈ List.range nodes.length := by
      intro x mem
      obtain ⟨e, member, rfl | rfl⟩ := mem_endpoints.mp mem
      · exact List.mem_range.mpr (inside e member).1
      · exact List.mem_range.mpr (inside e member).2
    simpa using SortedSet.size_le_length below
  have control : b.control < nodes.length := (inside _ (trigger_mem_edges h)).1
  have callback : b.callback < nodes.length := (inside _ (trigger_mem_edges h)).2
  refine ⟨by omega, by omega, ?_, fun e mem => ?_, fun x mem => ?_⟩
  · have node : b.size.node = (endpoints b.edges).size := congrArg Size.node size
    have edge : b.size.edge = b.edges.size := congrArg Size.edge size
    exact ⟨by omega, by omega⟩
  · obtain ⟨source, target⟩ := inside e mem
    exact ⟨by omega, by omega⟩
  · have below := (inside_of_mem_subsumed built h mem).2
    omega

end Graph

def Entry.length : Entry → Nat
  | .file bytes => bytes.length
  | .folder => 0

/-- Files have lengths that a machine word can say. -/
def FileTree.Sized (t : FileTree) : Prop :=
  ∀ e ∈ t.entries.entries, e.2.length < 0x10000000000000000

instance FileTree.decidableSized (t : FileTree) : Decidable t.Sized :=
  inferInstanceAs (Decidable (∀ e ∈ t.entries.entries, _))

theorem FileTree.Sized.read {t : FileTree} (sized : t.Sized) {path : String} {bytes : List UInt8}
    (h : t.read path = .ok bytes) : bytes.length < 0x10000000000000000 := by
  obtain ⟨place, -, there⟩ := read_eq_ok h
  exact sized _ (mem_entries_of_get? there (by simp))

theorem FileTree.Sized.fits {t : FileTree} (sized : t.Sized) {a : AppFolder} {trackFind : Bool}
    {g : Graph} (loaded : t.graph a trackFind = .ok g) {rule : ExtractionRule} {b : RawBehavior}
    (h : b ∈ g.extractAll rule) : b.Fits := by
  obtain ⟨nodeBytes, nodes, edgeBytes, rows, edges, nodeTable, readNodes, edgeTable, readRows,
    checked, built⟩ := graph_eq_ok loaded
  have ids := Table.length_rows?_le readNodes
  have count := Table.length_rows?_le readRows
  have nodeSize := sized.read nodeTable
  have edgeSize := sized.read edgeTable
  have same := Except.length_of_mapM checked
  exact Graph.fits_of_mem_extractAll built (by omega) (by omega) h

end HandlerGraph
