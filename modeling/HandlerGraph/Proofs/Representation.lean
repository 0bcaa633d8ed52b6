import HandlerGraph.Proofs.Index

/-! The indices of a graph represent its edge table exactly. Building fails if and only if some row
mentions an id beyond the node table, whether or not the row would count, and the fault names the
first such id. Otherwise every index says of the rows, in their order where it is a list, neither
more nor less than its kind of rows. -/
namespace HandlerGraph

namespace Edge

def mentioned (rows : List Edge) : List Nat := rows.flatMap fun e => [e.source, e.target]

/-- What a row adds to the neighbors of a node. Holds are walked from their target, all other
relations from their source, and `find` only where it is tracked. -/
def neighborAt? (trackFind : Bool) (id : Nat) (e : Edge) : Option Neighbor :=
  if e.relation = .hold then
    if e.target = id then some ⟨e.source, .hold⟩ else none
  else if e.source = id ∧ (e.relation = .call ∨ e.relation.links trackFind = true) then
    some ⟨e.target, e.relation⟩
  else none

theorem neighborAt?_eq_some_iff {trackFind : Bool} {id : Nat} {e : Edge} {n : Neighbor} :
    e.neighborAt? trackFind id = some n ↔ e.entry trackFind = some (id, n) := by
  obtain ⟨source, target, relation⟩ := e
  cases relation with
  | find => cases trackFind <;> simp [neighborAt?, entry, Relation.links]
  | _ => simp [neighborAt?, entry, Relation.links]

end Edge

namespace Graph
variable {g : Graph} {trackFind : Bool} {nodes : List Node} {rows : List Edge} {fault : Fault}

structure Represents (g : Graph) (nodes : List Node) (rows : List Edge) (trackFind : Bool) :
    Prop where
  nodeTable : g.nodes.toList = nodes
  edgeTable : g.edges = rows
  neighbors : ∀ id, g.neighbors id = rows.filterMap (Edge.neighborAt? trackFind id)
  callTargets : ∀ id, g.callTargets id =
    (rows.filter fun e => e.relation = .call ∧ e.source = id).map Edge.target
  controlEdges : ∀ e, e ∈ g.controlEdges ↔ e ∈ rows ∧ e.relation.links trackFind = true
  controls : ∀ id, id ∈ g.controls ↔
    (∃ e ∈ rows, e.relation.links trackFind = true ∧ e.source = id) ∨
      ∃ e ∈ rows, e.relation = .hold ∧ e.target = id
  actingControls : ∀ id, id ∈ g.actingControls ↔ ∃ e ∈ rows, e.relation = .event ∧ e.source = id
  ascendingIds : ∀ name, (g.idsNamed name).Pairwise (· < ·)
  idsNamed : ∀ name id, id ∈ g.idsNamed name ↔ (nodes[id]?).map Node.name = some name

theorem entriesOf_eq_filterMap (trackFind : Bool) (rows : List Edge) (id : Nat) :
    entriesOf trackFind rows id = rows.filterMap (Edge.neighborAt? trackFind id) := by
  rw [entriesOf, List.filter_filterMap, List.map_filterMap]
  congr 1
  funext e
  refine Option.ext fun n => ?_
  rw [Edge.neighborAt?_eq_some_iff]
  simp only [Option.map_eq_some_iff, Option.filter_eq_some_iff, decide_eq_true_eq]
  constructor
  · rintro ⟨⟨_, _⟩, ⟨entry, rfl⟩, rfl⟩
    exact entry
  · intro entry
    exact ⟨(id, n), ⟨entry, rfl⟩, rfl⟩

theorem edges_foldl_enter : (rows.foldl (enter trackFind) g).edges = g.edges := by
  induction rows generalizing g with
  | nil => rfl
  | cons e rows ih =>
    rw [List.foldl_cons, ih]
    obtain ⟨source, target, relation⟩ := e
    cases relation with
    | find => cases trackFind <;> rfl
    | _ => rfl

/-- Rows are checked one after the other, so the first id beyond the table is the one reported. -/
theorem foldlM_addRow_eq_error_iff : rows.foldlM (addRow trackFind) g = .error fault ↔
    ∃ id, (Edge.mentioned rows).find? (g.nodes.size ≤ ·) = some id ∧
      fault = .nodeOutOfRange id g.nodes.size := by
  induction rows generalizing g with
  | nil => simp [Edge.mentioned, pure, Except.pure]
  | cons e rows ih =>
    have split : Edge.mentioned (e :: rows) = e.source :: e.target :: Edge.mentioned rows := rfl
    rw [List.foldlM_cons, addRow, split, List.find?_cons, List.find?_cons]
    by_cases source : g.nodes.size ≤ e.source
    · simp [source, bind, Except.bind, eq_comm]
    · by_cases target : g.nodes.size ≤ e.target
      · simp [source, target, bind, Except.bind, eq_comm]
      · have entered := @ih (enter trackFind g e)
        rw [nodes_enter] at entered
        simpa [source, target, bind, Except.bind] using entered

theorem build_eq_error_iff : build nodes rows trackFind = .error fault ↔
    ∃ id, (Edge.mentioned rows).find? (nodes.length ≤ ·) = some id ∧
      fault = .nodeOutOfRange id nodes.length := by
  rw [build, foldlM_addRow_eq_error_iff]
  simp [start]

theorem represents_build (built : build nodes rows trackFind = .ok g) :
    g.Represents nodes rows trackFind where
  nodeTable := by rw [nodes_build built]
  edgeTable := by
    obtain ⟨rfl, -⟩ := foldlM_addRow built
    exact edges_foldl_enter
  neighbors id := by rw [neighbors_build built, entriesOf_eq_filterMap]
  callTargets id := callTargets_build built id
  controlEdges e := mem_controlEdges_build built
  controls id := by
    rw [mem_controls_build built]
    simp only [and_or_left, exists_or]
  actingControls id := mem_actingControls_build built
  ascendingIds name := ascending_idsNamed built name
  idsNamed name id := by
    rw [idsNamed_build built]
    simp [List.mem_zipIdx_iff_getElem?]

theorem exists_find?_mentioned {size : Nat} :
    (∃ id, (Edge.mentioned rows).find? (size ≤ ·) = some id) ↔
      ∃ e ∈ rows, size ≤ e.source ∨ size ≤ e.target := by
  rw [← Option.isSome_iff_exists, List.find?_isSome]
  simp only [Edge.mentioned, List.mem_flatMap, List.mem_cons, List.not_mem_nil, or_false,
    decide_eq_true_eq]
  constructor
  · rintro ⟨_, ⟨e, row, rfl | rfl⟩, beyond⟩
    · exact ⟨e, row, Or.inl beyond⟩
    · exact ⟨e, row, Or.inr beyond⟩
  · rintro ⟨e, row, beyond | beyond⟩
    · exact ⟨e.source, ⟨e, row, Or.inl rfl⟩, beyond⟩
    · exact ⟨e.target, ⟨e, row, Or.inr rfl⟩, beyond⟩

/-- A graph either reports the first id beyond its node table or represents its rows. -/
theorem build_exact (nodes : List Node) (rows : List Edge) (trackFind : Bool) :
    ((∃ fault, build nodes rows trackFind = .error fault) ↔
      ∃ e ∈ rows, nodes.length ≤ e.source ∨ nodes.length ≤ e.target) ∧
    (∀ fault, build nodes rows trackFind = .error fault →
      ∃ id, (Edge.mentioned rows).find? (nodes.length ≤ ·) = some id ∧
        fault = .nodeOutOfRange id nodes.length) ∧
    ∀ g, build nodes rows trackFind = .ok g → g.Represents nodes rows trackFind := by
  refine ⟨?_, fun fault failed => build_eq_error_iff.mp failed, fun g => represents_build⟩
  rw [← exists_find?_mentioned]
  constructor
  · rintro ⟨fault, failed⟩
    obtain ⟨id, first, -⟩ := build_eq_error_iff.mp failed
    exact ⟨id, first⟩
  · rintro ⟨id, first⟩
    exact ⟨_, build_eq_error_iff.mpr ⟨id, first, rfl⟩⟩

def shelfNodes : List Node :=
  [.widget "LinearLayout" "main.xml" 1, .widget "Button" "main.xml" 2,
    .method "<app.Main: void onClick()>" "-", .method "<app.Main: void log()>" "-",
    .method "<app.Main: void log()>" "-"]

def shelfRows : List Edge :=
  [⟨1, 0, .hold⟩, ⟨1, 2, .event⟩, ⟨1, 3, .find⟩, ⟨2, 4, .call⟩, ⟨0, 3, .use⟩, ⟨2, 2, .call⟩,
    ⟨2, 4, .call⟩]

theorem build_exact_shelf :
    (∃ g, build shelfNodes shelfRows false = .ok g ∧ g.Represents shelfNodes shelfRows false ∧
      g.neighbors 0 = [⟨1, .hold⟩, ⟨3, .use⟩] ∧ g.neighbors 1 = [⟨2, .event⟩] ∧
      g.callTargets 2 = [4, 2, 4]) ∧
    ∃ fault, build shelfNodes (shelfRows ++ [⟨1, 9, .find⟩, ⟨8, 1, .call⟩]) false = .error fault ∧
      fault = .nodeOutOfRange 9 5 := by
  constructor
  · obtain ⟨-, -, represents⟩ := build_exact shelfNodes shelfRows false
    have built : build shelfNodes shelfRows false =
        .ok (shelfRows.foldl (enter false) (start shelfNodes shelfRows)) := rfl
    have exact := represents _ built
    refine ⟨_, built, exact, ?_, ?_, ?_⟩
    · rw [exact.neighbors]
      decide
    · rw [exact.neighbors]
      decide
    · rw [exact.callTargets]
      decide
  · obtain ⟨fails, reports, -⟩ :=
      build_exact shelfNodes (shelfRows ++ [⟨1, 9, .find⟩, ⟨8, 1, .call⟩]) false
    obtain ⟨fault, failed⟩ := fails.mpr ⟨⟨1, 9, .find⟩, by decide, by decide⟩
    obtain ⟨id, first, rfl⟩ := reports fault failed
    refine ⟨_, failed, ?_⟩
    have nine : (some 9 : Option Nat) = some id := first
    rw [← Option.some.inj nine]
    rfl

end Graph
end HandlerGraph
