import HandlerGraph.DeadLeaf

/-! What the search for dead leaves finds. A node is dead when a candidate call leads to it and each
of its own calls in the graph is a candidate that leads to a dead node. The search drops exactly the
candidates with a dead target, so neither the order of the candidates nor the number of passes shows
in its result, and fewer candidates never make more nodes dead. Hence what the search leaves behind
has no dead leaf, although its calls are judged by all that the graph calls. -/
namespace HandlerGraph

/-- Derivations are finite, so calls that run in a circle are never dead. -/
inductive Graph.Dead (g : Graph) (calls : List Edge) : Nat → Prop
  | intro {id : Nat} (called : ∃ e ∈ calls, e.target = id)
      (listed : ∀ t ∈ g.callTargets id, ⟨id, t, .call⟩ ∈ calls)
      (below : ∀ t ∈ g.callTargets id, g.Dead calls t) : g.Dead calls id

theorem Graph.Dead.mono {g : Graph} {few many : List Edge} (sub : ∀ e ∈ few, e ∈ many) {id : Nat}
    (h : g.Dead few id) : g.Dead many id := by
  induction h with
  | intro called listed _ ih =>
    obtain ⟨e, mem, target⟩ := called
    exact .intro ⟨e, sub e mem, target⟩ (fun t ht => sub _ (listed t ht)) ih

def Graph.ownCalls (g : Graph) (edges : SortedSet Edge) : List Edge :=
  edges.toList.filter g.isOwnCall

theorem Graph.mem_ownCalls {g : Graph} {edges : SortedSet Edge} {e : Edge} :
    e ∈ g.ownCalls edges ↔ e ∈ edges ∧ g.isOwnCall e = true := List.mem_filter

theorem Graph.call_of_mem_ownCalls {g : Graph} {edges : SortedSet Edge} {e : Edge}
    (h : e ∈ g.ownCalls edges) : e.relation = .call := by
  have own := (mem_ownCalls.mp h).2
  simp only [isOwnCall, Bool.and_eq_true, decide_eq_true_eq] at own
  exact own.1.1

theorem Graph.ownCalls_mono {g : Graph} {few many : SortedSet Edge} (sub : ∀ e ∈ few, e ∈ many)
    {e : Edge} (h : e ∈ g.ownCalls few) : e ∈ g.ownCalls many := by
  obtain ⟨inside, own⟩ := mem_ownCalls.mp h
  exact mem_ownCalls.mpr ⟨sub e inside, own⟩

namespace LeafSearch

theorem isLeaf_iff {g : Graph} {s : LeafSearch} {id : Nat} :
    s.isLeaf g id = true ↔ ∀ t ∈ g.callTargets id, ⟨id, t, .call⟩ ∈ s.dropped := by
  have spent : s.isLeaf g id = true ↔
      g.callsBeyond id (fun t => decide (⟨id, t, .call⟩ ∈ s.dropped)) = [] := by
    simp only [isLeaf, Graph.calleeKind, List.isEmpty_iff, decide_eq_true_eq]
    split
    · simp_all
    · split <;> simp_all
  rw [spent, Graph.callsBeyond, List.filter_eq_nil_iff]
  simp

/-- What holds between two candidates of a pass; `pending` are those the pass has not come to. -/
structure Sound (g : Graph) (calls pending : List Edge) (s : LeafSearch) : Prop where
  listed : ∀ e ∈ pending ++ s.alive, e ∈ calls
  covered : ∀ e ∈ calls, e ∈ pending ++ s.alive ∨ e ∈ s.dropped
  dropped : ∀ e ∈ s.dropped, e ∈ calls ∧ g.Dead calls e.target
  dead : ∀ id, id ∈ s.dead ↔ ∃ e ∈ s.dropped, e.target = id

theorem Sound.start (g : Graph) (calls : List Edge) : Sound g calls [] ⟨calls, .empty, .empty⟩ where
  listed e h := h
  covered e h := Or.inl h
  dropped e h := absurd h SortedSet.not_mem_empty
  dead id := by simp

theorem dead_of_isLeaf {g : Graph} {calls pending : List Edge} {s : LeafSearch} {e : Edge}
    (sound : Sound g calls pending s) (mem : e ∈ calls) (leaf : s.isLeaf g e.target = true) :
    g.Dead calls e.target := by
  have spent := isLeaf_iff.mp leaf
  exact .intro ⟨e, mem, rfl⟩ (fun t ht => (sound.dropped _ (spent t ht)).1)
    fun t ht => (sound.dropped _ (spent t ht)).2

theorem Sound.visit {g : Graph} {calls pending : List Edge} {s : LeafSearch} {e : Edge}
    (only : ∀ c ∈ calls, c.relation = .call) (sound : Sound g calls (e :: pending) s) :
    Sound g calls pending (s.visit g e) := by
  have mem : e ∈ calls := sound.listed e (by simp)
  have same : (⟨e.source, e.target, .call⟩ : Edge) = e := by rw [← only e mem]
  rw [LeafSearch.visit, same]
  split
  · rename_i leaf
    refine ⟨fun c hc => sound.listed c (List.mem_cons_of_mem _ hc), fun c hc => ?_, fun c hc => ?_,
      fun id => ?_⟩
    · rcases sound.covered c hc with waiting | gone
      · rcases List.mem_cons.mp waiting with rfl | waiting
        · exact Or.inr (by simp)
        · exact Or.inl waiting
      · exact Or.inr (SortedSet.mem_insert.mpr (Or.inr gone))
    · rcases SortedSet.mem_insert.mp hc with rfl | gone
      · exact ⟨mem, dead_of_isLeaf sound mem leaf⟩
      · exact sound.dropped c gone
    · simp only [SortedSet.mem_insert, sound.dead]
      grind
  · refine ⟨fun c hc => sound.listed c ?_, fun c hc => ?_, sound.dropped, sound.dead⟩
    · simp only [List.mem_append, List.mem_cons, List.not_mem_nil, or_false] at hc ⊢
      grind
    · have before := sound.covered c hc
      simp only [List.mem_append, List.mem_cons, List.not_mem_nil, or_false] at before ⊢
      grind

theorem Sound.visits {g : Graph} {calls pending : List Edge} {s : LeafSearch}
    (only : ∀ c ∈ calls, c.relation = .call) (sound : Sound g calls pending s) :
    Sound g calls [] (pending.foldl (LeafSearch.visit g) s) := by
  induction pending generalizing s with
  | nil => exact sound
  | cons e pending ih => exact ih (sound.visit only)

theorem Sound.pass {g : Graph} {calls : List Edge} {s : LeafSearch}
    (only : ∀ c ∈ calls, c.relation = .call) (sound : Sound g calls [] s) :
    Sound g calls [] (s.pass g) := by
  have restart : Sound g calls s.alive { s with alive := [] } := by
    refine ⟨fun c hc => sound.listed c ?_, fun c hc => ?_, sound.dropped, sound.dead⟩
    · simpa using hc
    · simpa using sound.covered c hc
  exact restart.visits only

theorem length_visits_le (g : Graph) (pending : List Edge) (s : LeafSearch) :
    (pending.foldl (visit g) s).alive.length ≤ s.alive.length + pending.length := by
  induction pending generalizing s with
  | nil => simp
  | cons e pending ih =>
    have rest := ih (s.visit g e)
    have one : (s.visit g e).alive.length ≤ s.alive.length + 1 := by
      rw [visit]
      split <;> simp
    simp only [List.foldl_cons, List.length_cons]
    omega

theorem visits_of_length_eq {g : Graph} {pending : List Edge} {s : LeafSearch}
    (full : (pending.foldl (visit g) s).alive.length = s.alive.length + pending.length) :
    pending.foldl (visit g) s = { s with alive := s.alive ++ pending } ∧
      ∀ e ∈ pending, ¬ s.isLeaf g e.target = true := by
  induction pending generalizing s with
  | nil => simp
  | cons e pending ih =>
    have bound := length_visits_le g pending (s.visit g e)
    simp only [List.foldl_cons, List.length_cons] at full
    by_cases leaf : s.isLeaf g e.target = true
    · have shorter : (s.visit g e).alive.length = s.alive.length := by simp [visit, leaf]
      omega
    · have kept : s.visit g e = { s with alive := s.alive ++ [e] } := by simp [visit, leaf]
      rw [kept] at full
      have longer : (s.alive ++ [e]).length = s.alive.length + 1 := List.length_append
      obtain ⟨whole, busy⟩ := ih (full.trans (by rw [longer]; omega))
      refine ⟨?_, fun c hc => ?_⟩
      · rw [List.foldl_cons, kept, whole]
        simp
      · rcases List.mem_cons.mp hc with rfl | hc
        · exact leaf
        · exact busy c hc

theorem Sound.settle {g : Graph} {calls : List Edge} {s : LeafSearch}
    (only : ∀ c ∈ calls, c.relation = .call) (sound : Sound g calls [] s) :
    Sound g calls [] (s.settle g) := by
  fun_induction LeafSearch.settle g s with
  | case1 s next shorter ih => exact ih (sound.pass only)
  | case2 s next full => exact sound.pass only

theorem settle_stable (g : Graph) (s : LeafSearch) :
    ∀ e ∈ (s.settle g).alive, ¬ (s.settle g).isLeaf g e.target = true := by
  fun_induction LeafSearch.settle g s with
  | case1 s next shorter ih => exact ih
  | case2 s next full =>
    have bound := length_visits_le g s.alive { s with alive := [] }
    simp only [List.length_nil] at bound
    have same : (s.alive.foldl (visit g) { s with alive := [] }).alive.length =
        ([] : List Edge).length + s.alive.length := by
      simp only [next, pass, List.length_nil] at full ⊢
      omega
    obtain ⟨whole, busy⟩ := visits_of_length_eq same
    have unchanged : next = s := by simpa [next, pass] using whole
    rw [unchanged]
    exact busy

/-- Every candidate with a dead target is dropped: its target's own calls go first. -/
theorem mem_dropped_of_dead {g : Graph} {calls : List Edge} {s : LeafSearch}
    (sound : Sound g calls [] s) (stable : ∀ e ∈ s.alive, ¬ s.isLeaf g e.target = true) {id : Nat}
    (h : g.Dead calls id) : ∀ e ∈ calls, e.target = id → e ∈ s.dropped := by
  induction h with
  | intro called listed below ih =>
    rintro e mem rfl
    have leaf : s.isLeaf g e.target = true :=
      isLeaf_iff.mpr fun t ht => ih t ht _ (listed t ht) rfl
    rcases sound.covered e mem with alive | gone
    · exact absurd leaf (stable e (by simpa using alive))
    · exact gone

theorem mem_dead_settle {g : Graph} {calls : List Edge} (only : ∀ c ∈ calls, c.relation = .call)
    {id : Nat} : id ∈ (settle g ⟨calls, .empty, .empty⟩).dead ↔ g.Dead calls id := by
  have sound := (Sound.start g calls).settle only
  rw [sound.dead]
  constructor
  · rintro ⟨e, gone, rfl⟩
    exact (sound.dropped e gone).2
  · intro dead
    have found := mem_dropped_of_dead sound (settle_stable g _) dead
    cases dead with
    | intro called _ _ =>
      obtain ⟨e, mem, target⟩ := called
      exact ⟨e, found e mem target, target⟩

end LeafSearch

theorem Graph.mem_deadLeaves {g : Graph} {edges : SortedSet Edge} {e : Edge} :
    e ∈ g.deadLeaves edges ↔ e ∈ edges ∧ g.Dead (g.ownCalls edges) e.target := by
  have dead := @LeafSearch.mem_dead_settle g (g.ownCalls edges) (fun _ => call_of_mem_ownCalls)
  simp only [deadLeaves, SortedSet.mem_filter, decide_eq_true_eq]
  exact and_congr_right fun _ => dead

theorem Graph.Dead.exists_idle {g : Graph} {calls : List Edge} {id : Nat} (h : g.Dead calls id) :
    ∃ e ∈ calls, g.callTargets e.target = [] := by
  induction h with
  | intro called listed below ih =>
    obtain ⟨e, mem, rfl⟩ := called
    by_cases idle : g.callTargets e.target = []
    · exact ⟨e, mem, idle⟩
    · obtain ⟨t, calls⟩ := List.exists_mem_of_ne_nil _ idle
      exact ih t calls

theorem Graph.mem_deadLeaves_mono {g : Graph} {few many : SortedSet Edge}
    (sub : ∀ e ∈ few, e ∈ many) {e : Edge} (h : e ∈ g.deadLeaves few) : e ∈ g.deadLeaves many := by
  obtain ⟨mem, dead⟩ := mem_deadLeaves.mp h
  exact mem_deadLeaves.mpr ⟨sub e mem, dead.mono fun _ => ownCalls_mono sub⟩

theorem Graph.deadLeaves_eq_empty_iff {g : Graph} {edges : SortedSet Edge} :
    g.deadLeaves edges = .empty ↔ ∀ e ∈ g.ownCalls edges, g.callTargets e.target ≠ [] := by
  rw [SortedSet.eq_empty_iff]
  constructor
  · intro nothing e own idle
    have dead : g.Dead (g.ownCalls edges) e.target :=
      .intro ⟨e, own, rfl⟩ (by simp [idle]) (by simp [idle])
    exact nothing e (mem_deadLeaves.mpr ⟨(mem_ownCalls.mp own).1, dead⟩)
  · intro busy e leaf
    obtain ⟨c, own, idle⟩ := (mem_deadLeaves.mp leaf).2.exists_idle
    exact busy c own idle

def Graph.liveEdges (g : Graph) (edges : SortedSet Edge) : SortedSet Edge :=
  edges.filter fun e => decide (¬ e ∈ g.deadLeaves edges)

theorem Graph.mem_liveEdges {g : Graph} {edges : SortedSet Edge} {e : Edge} :
    e ∈ g.liveEdges edges ↔ e ∈ edges ∧ ¬ e ∈ g.deadLeaves edges := by
  rw [liveEdges, SortedSet.mem_filter, decide_eq_true_eq]

theorem Graph.liveEdges_eq_iff {g : Graph} {edges : SortedSet Edge} :
    g.liveEdges edges = edges ↔ g.deadLeaves edges = .empty := by
  rw [SortedSet.eq_empty_iff]
  constructor
  · intro same e leaf
    have live : e ∈ g.liveEdges edges := by
      rw [same]
      exact (mem_deadLeaves.mp leaf).1
    exact (mem_liveEdges.mp live).2 leaf
  · intro nothing
    refine SortedSet.ext_mem fun e => ?_
    rw [mem_liveEdges]
    exact and_iff_left (nothing e)

/-- One elimination finds everything: neither what it leaves nor any part of that has a dead leaf.
It leaves all edges exactly where no candidate leads to a node without calls. -/
theorem Graph.deadLeaves_liveEdges (g : Graph) (edges : SortedSet Edge) :
    g.deadLeaves (g.liveEdges edges) = .empty ∧
      (∀ part : SortedSet Edge, (∀ e ∈ part, e ∈ g.liveEdges edges) → g.deadLeaves part = .empty) ∧
      (g.liveEdges edges = edges ↔
        ∀ e ∈ edges, g.isOwnCall e = true → g.callTargets e.target ≠ []) := by
  have nothing : ∀ part : SortedSet Edge, (∀ e ∈ part, e ∈ g.liveEdges edges) →
      g.deadLeaves part = .empty := by
    intro part sub
    refine SortedSet.eq_empty_iff.mpr fun e leaf => ?_
    have live := mem_liveEdges.mp (sub e (mem_deadLeaves.mp leaf).1)
    have within : ∀ f ∈ part, f ∈ edges := fun f mem => (mem_liveEdges.mp (sub f mem)).1
    exact live.2 (mem_deadLeaves_mono within leaf)
  refine ⟨nothing _ fun _ live => live, nothing, ?_⟩
  rw [liveEdges_eq_iff, deadLeaves_eq_empty_iff]
  simp only [mem_ownCalls, and_imp]

end HandlerGraph
