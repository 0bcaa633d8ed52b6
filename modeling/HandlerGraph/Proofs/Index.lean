import HandlerGraph.Graph

/-! What a graph that was built knows of its edge table. A graph is built where every row stays
inside the node table. Adjacency lists the rows that concern a node in row order, and the links
between controls and code are exactly the rows of those kinds, so each link is also found in the
adjacency of its control; calls are listed in row order too, and controls and acting controls are
known by their members. A name stands for the nodes that have it, in ascending order; rows do not
change that. -/
namespace HandlerGraph

/-- Relations recorded as links from a control; `find` only where it is tracked. -/
def Relation.links (trackFind : Bool) : Relation → Bool
  | .find => trackFind
  | .use | .event => true
  | .call | .hold => false

/-- The node whose adjacency a row extends, and by what. -/
def Edge.entry (trackFind : Bool) (e : Edge) : Option (Nat × Neighbor) :=
  match e.relation with
  | .hold => some (e.target, ⟨e.source, .hold⟩)
  | .find => if trackFind then some (e.source, ⟨e.target, .find⟩) else none
  | r => some (e.source, ⟨e.target, r⟩)

theorem Edge.entry_of_links {trackFind : Bool} {e : Edge} (h : e.relation.links trackFind = true) :
    e.entry trackFind = some (e.source, ⟨e.target, e.relation⟩) := by
  obtain ⟨source, target, relation⟩ := e
  cases relation <;> simp_all [entry, Relation.links]

theorem Edge.entry_inside {trackFind : Bool} {e : Edge} {size id : Nat} {n : Neighbor}
    (source : e.source < size) (target : e.target < size) (h : e.entry trackFind = some (id, n)) :
    id < size := by
  unfold entry at h
  split at h
  · simp_all
  · split at h <;> simp_all
  · simp_all

namespace Graph
variable {g : Graph} {trackFind : Bool} {e : Edge}

theorem adjacency_enter : (enter trackFind g e).adjacency =
    match e.entry trackFind with
    | none => g.adjacency
    | some (id, n) => g.adjacency.modify id (· ++ [n]) := by
  obtain ⟨source, target, relation⟩ := e
  cases relation with
  | find => cases trackFind <;> rfl
  | _ => rfl

theorem nodes_enter : (enter trackFind g e).nodes = g.nodes := by
  obtain ⟨source, target, relation⟩ := e
  cases relation with
  | find => cases trackFind <;> rfl
  | _ => rfl

theorem size_adjacency_enter : (enter trackFind g e).adjacency.size = g.adjacency.size := by
  rw [adjacency_enter]
  split
  · rfl
  · exact Array.size_modify

theorem mem_controlEdges_enter {f : Edge} : f ∈ (enter trackFind g e).controlEdges ↔
    f = e ∧ f.relation.links trackFind = true ∨ f ∈ g.controlEdges := by
  have entered : (enter trackFind g e).controlEdges =
      if e.relation.links trackFind = true then g.controlEdges.insert e else g.controlEdges := by
    obtain ⟨source, target, relation⟩ := e
    cases relation with
    | find => cases trackFind <;> rfl
    | _ => rfl
  rw [entered]
  split
  · rw [SortedSet.mem_insert]
    grind
  · grind

def entriesOf (trackFind : Bool) (rows : List Edge) (id : Nat) : List Neighbor :=
  ((rows.filterMap (Edge.entry trackFind)).filter (·.1 = id)).map Prod.snd

theorem neighbors_enter (source : e.source < g.adjacency.size)
    (target : e.target < g.adjacency.size)
    (id : Nat) :
    (enter trackFind g e).neighbors id = g.neighbors id ++ entriesOf trackFind [e] id := by
  rw [neighbors, adjacency_enter, entriesOf]
  cases entry : e.entry trackFind with
  | none => simp [entry, neighbors]
  | some p =>
    have inside : p.1 < g.adjacency.size := Edge.entry_inside source target entry
    simp only [Array.getElem?_modify, List.filterMap_cons, entry, List.filterMap_nil, neighbors]
    by_cases same : p.1 = id
    · subst same
      simp [inside]
    · simp [same]

theorem neighbors_foldl_enter {rows : List Edge}
    (inside : ∀ e ∈ rows, e.source < g.adjacency.size ∧ e.target < g.adjacency.size) (id : Nat) :
    (rows.foldl (enter trackFind) g).neighbors id =
      g.neighbors id ++ entriesOf trackFind rows id := by
  induction rows generalizing g with
  | nil => simp [entriesOf]
  | cons e rows ih =>
    obtain ⟨source, target⟩ := inside e List.mem_cons_self
    have parts : entriesOf trackFind (e :: rows) id =
        entriesOf trackFind [e] id ++ entriesOf trackFind rows id := by
      rw [entriesOf, ← List.singleton_append, List.filterMap_append, List.filter_append,
        List.map_append]
      rfl
    rw [List.foldl_cons, ih, neighbors_enter source target, parts, List.append_assoc]
    intro f hf
    rw [size_adjacency_enter]
    exact inside f (List.mem_cons_of_mem _ hf)

theorem mem_controlEdges_foldl_enter {rows : List Edge} {f : Edge} :
    f ∈ (rows.foldl (enter trackFind) g).controlEdges ↔
      f ∈ rows ∧ f.relation.links trackFind = true ∨ f ∈ g.controlEdges := by
  induction rows generalizing g with
  | nil => simp
  | cons e rows ih =>
    rw [List.foldl_cons, ih, mem_controlEdges_enter, List.mem_cons]
    grind

theorem callTargets_enter (source : e.source < g.calls.size) (id : Nat) :
    (enter trackFind g e).callTargets id =
      g.callTargets id ++ if e.relation = .call ∧ e.source = id then [e.target] else [] := by
  obtain ⟨first, target, relation⟩ := e
  cases relation with
  | call =>
    simp only [enter, callTargets, Array.getElem?_modify, true_and]
    by_cases same : first = id
    · subst same
      simp [show first < g.calls.size from source]
    · simp [same]
  | find => cases trackFind <;> simp [enter, addControlEdge, link, callTargets]
  | _ => simp [enter, addControlEdge, link, callTargets]

theorem size_calls_enter : (enter trackFind g e).calls.size = g.calls.size := by
  obtain ⟨source, target, relation⟩ := e
  cases relation with
  | call => exact Array.size_modify
  | find => cases trackFind <;> rfl
  | _ => rfl

def callsFrom (rows : List Edge) (id : Nat) : List Nat :=
  (rows.filter fun e => e.relation = .call ∧ e.source = id).map Edge.target

theorem callTargets_foldl_enter {rows : List Edge} (inside : ∀ e ∈ rows, e.source < g.calls.size)
    (id : Nat) :
    (rows.foldl (enter trackFind) g).callTargets id = g.callTargets id ++ callsFrom rows id := by
  induction rows generalizing g with
  | nil => simp [callsFrom]
  | cons e rows ih =>
    have rest : ∀ f ∈ rows, f.source < (enter trackFind g e).calls.size := fun f hf => by
      rw [size_calls_enter]
      exact inside f (List.mem_cons_of_mem _ hf)
    rw [List.foldl_cons, ih rest, callTargets_enter (inside e List.mem_cons_self),
      List.append_assoc, callsFrom, callsFrom, List.filter_cons]
    by_cases call : e.relation = .call ∧ e.source = id
    · simp [call]
    · simp [call]

theorem mem_controls_enter {id : Nat} : id ∈ (enter trackFind g e).controls ↔
    (e.relation.links trackFind = true ∧ e.source = id ∨ e.relation = .hold ∧ e.target = id) ∨
      id ∈ g.controls := by
  obtain ⟨source, target, relation⟩ := e
  cases relation with
  | find => cases trackFind <;> simp [enter, addControlEdge, link, Relation.links, eq_comm]
  | _ => simp [enter, addControlEdge, link, Relation.links, eq_comm]

theorem mem_controls_foldl_enter {rows : List Edge} {id : Nat} :
    id ∈ (rows.foldl (enter trackFind) g).controls ↔
      (∃ e ∈ rows, e.relation.links trackFind = true ∧ e.source = id ∨
        e.relation = .hold ∧ e.target = id) ∨ id ∈ g.controls := by
  induction rows generalizing g with
  | nil => simp
  | cons e rows ih =>
    rw [List.foldl_cons, ih, mem_controls_enter]
    simp only [List.mem_cons, exists_eq_or_imp]
    grind

theorem mem_actingControls_enter {id : Nat} : id ∈ (enter trackFind g e).actingControls ↔
    e.relation = .event ∧ e.source = id ∨ id ∈ g.actingControls := by
  obtain ⟨source, target, relation⟩ := e
  cases relation with
  | event => simp [enter, addControlEdge, link, eq_comm]
  | find => cases trackFind <;> simp [enter, addControlEdge, link]
  | _ => simp [enter, addControlEdge, link]

theorem mem_actingControls_foldl_enter {rows : List Edge} {id : Nat} :
    id ∈ (rows.foldl (enter trackFind) g).actingControls ↔
      (∃ e ∈ rows, e.relation = .event ∧ e.source = id) ∨ id ∈ g.actingControls := by
  induction rows generalizing g with
  | nil => simp
  | cons e rows ih =>
    rw [List.foldl_cons, ih, mem_actingControls_enter]
    simp only [List.mem_cons, exists_eq_or_imp]
    grind

theorem nodes_foldl_enter {rows : List Edge} :
    (rows.foldl (enter trackFind) g).nodes = g.nodes := by
  induction rows generalizing g with
  | nil => rfl
  | cons e rows ih => rw [List.foldl_cons, ih, nodes_enter]

theorem foldlM_addRow {rows : List Edge} {built : Graph}
    (h : rows.foldlM (addRow trackFind) g = .ok built) :
    built = rows.foldl (enter trackFind) g ∧
      ∀ e ∈ rows, e.source < g.nodes.size ∧ e.target < g.nodes.size := by
  induction rows generalizing g with
  | nil =>
    cases h
    exact ⟨rfl, fun e he => absurd he List.not_mem_nil⟩
  | cons e rows ih =>
    rw [List.foldlM_cons, addRow] at h
    split at h
    · contradiction
    · split at h
      · contradiction
      · rename_i source target
        obtain ⟨entered, inside⟩ := ih h
        refine ⟨entered, fun f hf => ?_⟩
        rcases List.mem_cons.mp hf with rfl | hf
        · exact ⟨Nat.lt_of_not_le source, Nat.lt_of_not_le target⟩
        · rw [← nodes_enter]
          exact inside f hf

theorem foldlM_addRow_of_inside {rows : List Edge}
    (inside : ∀ e ∈ rows, e.source < g.nodes.size ∧ e.target < g.nodes.size) :
    rows.foldlM (addRow trackFind) g = .ok (rows.foldl (enter trackFind) g) := by
  induction rows generalizing g with
  | nil => rfl
  | cons e rows ih =>
    obtain ⟨source, target⟩ := inside e List.mem_cons_self
    have entered : addRow trackFind g e = .ok (enter trackFind g e) := by
      rw [addRow, if_neg (Nat.not_le_of_lt source), if_neg (Nat.not_le_of_lt target)]
    rw [List.foldlM_cons, entered]
    refine ih fun f hf => ?_
    rw [nodes_enter]
    exact inside f (List.mem_cons_of_mem _ hf)

variable {nodes : List Node} {rows : List Edge}

theorem neighbors_build (built : build nodes rows trackFind = .ok g) (id : Nat) :
    g.neighbors id = entriesOf trackFind rows id := by
  obtain ⟨rfl, inside⟩ := foldlM_addRow built
  have blank : (start nodes rows).neighbors id = [] := by
    simp only [neighbors, start, Array.getElem?_replicate]
    split <;> rfl
  rw [neighbors_foldl_enter _ id, blank, List.nil_append]
  intro e he
  simpa [start] using inside e he

theorem mem_controlEdges_build (built : build nodes rows trackFind = .ok g) {e : Edge} :
    e ∈ g.controlEdges ↔ e ∈ rows ∧ e.relation.links trackFind = true := by
  obtain ⟨rfl, _⟩ := foldlM_addRow built
  rw [mem_controlEdges_foldl_enter]
  simp [start]

theorem mem_neighbors_of_controlEdge (built : build nodes rows trackFind = .ok g) {e : Edge}
    (h : e ∈ g.controlEdges) : ⟨e.target, e.relation⟩ ∈ g.neighbors e.source := by
  obtain ⟨row, links⟩ := (mem_controlEdges_build built).mp h
  rw [neighbors_build built, entriesOf]
  refine List.mem_map.mpr
    ⟨(e.source, ⟨e.target, e.relation⟩), List.mem_filter.mpr ⟨?_, by simp⟩, rfl⟩
  exact List.mem_filterMap.mpr ⟨e, row, Edge.entry_of_links links⟩

theorem getD_get?_indexNames (first : Nat) (nodes : List Node) (index : SortedMap String (List Nat))
    (name : String) :
    ((indexNames first nodes index).get? name).getD [] = (index.get? name).getD [] ++
      ((nodes.zipIdx first).filter (·.1.name = name)).map Prod.snd := by
  induction nodes generalizing first index with
  | nil => simp [indexNames]
  | cons n nodes ih =>
    rw [indexNames, ih, SortedMap.get?_insert, List.zipIdx_cons, List.filter_cons]
    by_cases same : n.name = name
    · simp [same]
    · simp [same, Ne.symm same]

theorem idsByName_foldl_enter {rows : List Edge} :
    (rows.foldl (enter trackFind) g).idsByName = g.idsByName := by
  induction rows generalizing g with
  | nil => rfl
  | cons e rows ih =>
    rw [List.foldl_cons, ih]
    obtain ⟨source, target, relation⟩ := e
    cases relation with
    | find => cases trackFind <;> rfl
    | _ => rfl

theorem idsByName_build (built : build nodes rows trackFind = .ok g) :
    g.idsByName = indexNames 0 nodes .empty := by
  obtain ⟨rfl, _⟩ := foldlM_addRow built
  exact idsByName_foldl_enter

theorem idsNamed_build (built : build nodes rows trackFind = .ok g) (name : String) :
    g.idsNamed name = (nodes.zipIdx.filter (·.1.name = name)).map Prod.snd := by
  rw [idsNamed, idsByName_build built, getD_get?_indexNames]
  rfl

theorem ascending_idsNamed (built : build nodes rows trackFind = .ok g) (name : String) :
    (g.idsNamed name).Pairwise (· < ·) := by
  rw [idsNamed_build built]
  refine List.Pairwise.sublist ((List.filter_sublist).map Prod.snd) ?_
  rw [List.zipIdx_map_snd]
  exact List.pairwise_lt_range'

theorem nodes_build (built : build nodes rows trackFind = .ok g) : g.nodes = nodes.toArray := by
  obtain ⟨rfl, _⟩ := foldlM_addRow built
  exact nodes_foldl_enter

theorem mem_neighbors_build (built : build nodes rows trackFind = .ok g) {id : Nat} {n : Neighbor} :
    n ∈ g.neighbors id ↔ ∃ e ∈ rows, e.entry trackFind = some (id, n) := by
  rw [neighbors_build built, entriesOf]
  simp only [List.mem_map, List.mem_filter, List.mem_filterMap, decide_eq_true_eq, Prod.exists]
  grind

theorem event_mem_neighbors_build (built : build nodes rows trackFind = .ok g) {id target : Nat} :
    ⟨target, .event⟩ ∈ g.neighbors id ↔ ⟨id, target, .event⟩ ∈ rows := by
  rw [mem_neighbors_build built]
  constructor
  · rintro ⟨⟨source, _, relation⟩, row, entry⟩
    cases relation with
    | event =>
      cases entry
      exact row
    | find => cases trackFind <;> cases entry
    | _ => cases entry
  · intro row
    exact ⟨_, row, rfl⟩

theorem callTargets_build (built : build nodes rows trackFind = .ok g) (id : Nat) :
    g.callTargets id = callsFrom rows id := by
  obtain ⟨rfl, inside⟩ := foldlM_addRow built
  have blank : (start nodes rows).callTargets id = [] := by
    simp only [callTargets, start, Array.getElem?_replicate]
    split <;> rfl
  rw [callTargets_foldl_enter _ id, blank, List.nil_append]
  intro e he
  simpa [start] using (inside e he).1

theorem mem_callTargets_build (built : build nodes rows trackFind = .ok g) {id target : Nat} :
    target ∈ g.callTargets id ↔ ⟨id, target, .call⟩ ∈ rows := by
  rw [callTargets_build built, callsFrom]
  simp only [List.mem_map, List.mem_filter, decide_eq_true_eq]
  constructor
  · rintro ⟨⟨source, callee, relation⟩, ⟨row, rfl, rfl⟩, rfl⟩
    exact row
  · intro row
    exact ⟨_, ⟨row, rfl, rfl⟩, rfl⟩

theorem mem_controls_build (built : build nodes rows trackFind = .ok g) {id : Nat} :
    id ∈ g.controls ↔ ∃ e ∈ rows, e.relation.links trackFind = true ∧ e.source = id ∨
      e.relation = .hold ∧ e.target = id := by
  obtain ⟨rfl, _⟩ := foldlM_addRow built
  rw [mem_controls_foldl_enter]
  simp [start]

theorem mem_actingControls_build (built : build nodes rows trackFind = .ok g) {id : Nat} :
    id ∈ g.actingControls ↔ ∃ e ∈ rows, e.relation = .event ∧ e.source = id := by
  obtain ⟨rfl, _⟩ := foldlM_addRow built
  rw [mem_actingControls_foldl_enter]
  simp [start]

/-- A graph is built exactly where every row stays inside the node table. -/
theorem exists_build_iff : (∃ g, build nodes rows trackFind = .ok g) ↔
    ∀ e ∈ rows, e.source < nodes.length ∧ e.target < nodes.length := by
  constructor
  · rintro ⟨g, built⟩ e mem
    simpa [start] using (foldlM_addRow built).2 e mem
  · intro inside
    refine ⟨rows.foldl (enter trackFind) (start nodes rows), foldlM_addRow_of_inside ?_⟩
    simpa [start] using inside

end Graph
end HandlerGraph
