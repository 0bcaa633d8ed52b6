import HandlerGraph.Proofs.Listing
import HandlerGraph.Proofs.Reduction

/-! The order and the repetition of edge rows. Two edge tables with the same rows give graphs whose
indices list the same entries, though in another order and number. Nodes and names are the same,
and what extraction and reduction find is determined by members alone, so every behavior is the same
too; only the order of a control's own behaviors may differ. That holds where extraction is a matter
of reachability: under a positive hop limit what a walk records depends on the order of its
neighbors. -/
namespace HandlerGraph

namespace Graph

structure Alike (g g' : Graph) : Prop where
  nodes : g'.nodes = g.nodes
  names : g'.idsByName = g.idsByName
  neighbors : ∀ id n, n ∈ g'.neighbors id ↔ n ∈ g.neighbors id
  calls : ∀ id target, target ∈ g'.callTargets id ↔ target ∈ g.callTargets id
  links : g'.controlEdges = g.controlEdges
  acting : g'.actingControls = g.actingControls

theorem alike_build {nodes : List Node} {rows rows' : List Edge} {trackFind : Bool} {g g' : Graph}
    (same : ∀ e, e ∈ rows' ↔ e ∈ rows) (built : build nodes rows trackFind = .ok g)
    (built' : build nodes rows' trackFind = .ok g') : Alike g g' where
  nodes := by rw [nodes_build built, nodes_build built']
  names := by rw [idsByName_build built, idsByName_build built']
  neighbors id n := by simp only [mem_neighbors_build built, mem_neighbors_build built', same]
  calls id target := by rw [mem_callTargets_build built, mem_callTargets_build built', same]
  links := SortedSet.ext_mem fun e => by
    rw [mem_controlEdges_build built, mem_controlEdges_build built', same]
  acting := SortedSet.ext_mem fun id => by
    simp only [mem_actingControls_build built, mem_actingControls_build built', same]

namespace Alike
variable {g g' : Graph} {rule : ExtractionRule}

theorem symm (alike : Alike g g') : Alike g' g where
  nodes := alike.nodes.symm
  names := alike.names.symm
  neighbors id n := (alike.neighbors id n).symm
  calls id target := (alike.calls id target).symm
  links := alike.links.symm
  acting := alike.acting.symm

theorem node? (alike : Alike g g') : g'.node? = g.node? := by
  funext id
  rw [Graph.node?, Graph.node?, alike.nodes]

theorem nameOf (alike : Alike g g') : g'.nameOf = g.nameOf := by
  funext id
  rw [Graph.nameOf, Graph.nameOf, alike.node?]

theorem isAppDefined (alike : Alike g g') : g'.isAppDefined = g.isAppDefined := by
  funext id
  rw [Graph.isAppDefined, Graph.isAppDefined, alike.node?]

theorem idsNamed (alike : Alike g g') : g'.idsNamed = g.idsNamed := by
  funext name
  rw [Graph.idsNamed, Graph.idsNamed, alike.names]

theorem leads (alike : Alike g g') {id : Nat} {n : Neighbor} :
    rule.Leads g' id n ↔ rule.Leads g id n := by
  simp only [ExtractionRule.Leads, ExtractionRule.Within, alike.neighbors, alike.nameOf,
    alike.isAppDefined]

theorem reaches (alike : Alike g g') : rule.Reaches g' = rule.Reaches g := by
  simp only [ExtractionRule.Reaches, alike.leads]

theorem eventEdges (alike : Alike g g') (control callback : Nat) :
    g'.eventEdges rule control callback = g.eventEdges rule control callback := by
  simp only [Graph.eventEdges, alike.reaches, alike.leads, alike.links]

theorem behaviorEdges (alike : Alike g g') (limit : rule.hop = none ∨ rule.hop = some 0)
    (control callback : Nat) :
    g'.behaviorEdges rule control callback = g.behaviorEdges rule control callback := by
  refine SortedSet.ext_mem fun e => ?_
  rw [mem_behaviorEdges limit, mem_behaviorEdges limit, alike.eventEdges]

theorem subsumed (alike : Alike g g') (limit : rule.hop = none ∨ rule.hop = some 0)
    (control callback : Nat) :
    (g'.subsumedControls (g'.reachedEdges rule callback)).filter (· ≠ control) =
      (g.subsumedControls (g.reachedEdges rule callback)).filter (· ≠ control) := by
  have busy : ∀ x, g'.neighbors x ≠ [] ↔ g.neighbors x ≠ [] := by
    intro x
    simp only [ne_eq, List.eq_nil_iff_forall_not_mem, alike.neighbors]
  have outgoing : ∀ x e, e ∈ g'.outgoing x ↔ e ∈ g.outgoing x := by
    intro x e
    simp only [Graph.outgoing, List.mem_map, alike.neighbors]
  refine SortedSet.ext_mem fun x => ?_
  rw [mem_subsumed, mem_subsumed]
  simp only [alike.links, busy, outgoing, alike.behaviorEdges limit]

theorem extract (alike : Alike g g') (limit : rule.hop = none ∨ rule.hop = some 0) (control : Nat) :
    g'.extract rule control = g.extract rule control := by
  funext callback
  rw [extract_eq, extract_eq, alike.behaviorEdges limit, alike.subsumed limit]

theorem eventCallbacks (alike : Alike g g') (control : Nat) :
    (g'.eventCallbacks control).Perm (g.eventCallbacks control) := by
  refine (List.perm_ext_iff_of_nodup (nodup_eraseDups _) (nodup_eraseDups _)).mpr fun callback => ?_
  simp only [List.mem_eraseDups, List.mem_map, List.mem_filter, alike.neighbors]

theorem extractAll (alike : Alike g g') (limit : rule.hop = none ∨ rule.hop = some 0) :
    (g'.extractAll rule).Perm (g.extractAll rule) := by
  rw [Graph.extractAll, Graph.extractAll, alike.acting]
  refine List.Perm.flatMap_left _ fun control _ => ?_
  rw [alike.extract limit]
  exact (alike.eventCallbacks control).filterMap _

theorem taken (alike : Alike g g') (raw : SortedSet Edge) (cases : List SwitchCase) :
    TakenCases.ofCases g' raw cases = TakenCases.ofCases g raw cases := by
  have add : TakenCases.add g' raw = TakenCases.add g raw := by
    funext t c
    simp only [TakenCases.add, TakenCases.callee?, TakenCases.inheritedCallee?, alike.idsNamed,
      alike.nameOf]
  rw [TakenCases.ofCases, TakenCases.ofCases, add]

theorem switchNoise (alike : Alike g g') (coverage : Coverage) (resources : Resources)
    (raw : RawBehavior) (base : SortedSet Edge) :
    g'.switchNoise coverage resources raw base = g.switchNoise coverage resources raw base := by
  have cases : g'.switchCases coverage resources = g.switchCases coverage resources := by
    funext control callback
    simp only [Graph.switchCases, alike.node?, alike.nameOf]
  simp only [Graph.switchNoise, alike.taken, cases]

theorem dead (alike : Alike g g') {calls : List Edge} {id : Nat} (h : g.Dead calls id) :
    g'.Dead calls id := by
  induction h with
  | intro called listed _ ih =>
    exact .intro called (fun t ht => listed t ((alike.calls _ t).mp ht))
      fun t ht => ih t ((alike.calls _ t).mp ht)

theorem deadLeaves (alike : Alike g g') (edges : SortedSet Edge) :
    g'.deadLeaves edges = g.deadLeaves edges := by
  have own : g'.ownCalls edges = g.ownCalls edges := by
    refine List.filter_congr fun e _ => ?_
    simp only [Graph.isOwnCall, alike.isAppDefined]
  refine SortedSet.ext_mem fun e => ?_
  rw [mem_deadLeaves, mem_deadLeaves, own]
  exact and_congr_right fun _ => ⟨alike.symm.dead, alike.dead⟩

theorem interests (alike : Alike g g') (aux : Auxiliary) (rule : ReductionRule)
    (raw : RawBehavior) : g'.interests aux rule raw = g.interests aux rule raw := by
  simp only [Graph.interests, Interest.keeps, Interest.keepsControl, Interest.keepsMethods,
    alike.node?]

theorem reduce (alike : Alike g g') (aux : Auxiliary) (rule : ReductionRule) (time : Seconds)
    (raw : RawBehavior) : g'.reduce aux rule time raw = g.reduce aux rule time raw := by
  simp only [Graph.reduce, Graph.strip, alike.interests, alike.switchNoise, alike.deadLeaves]

end Alike

theorem ascending_extractAll (g : Graph) (rule : ExtractionRule) :
    (g.extractAll rule).Pairwise fun b c => b.control ≤ c.control := by
  have own : ∀ control, ∀ b ∈ (g.eventCallbacks control).filterMap (g.extract rule control),
      b.control = control := by
    intro control b mem
    obtain ⟨callback, _, found⟩ := List.mem_filterMap.mp mem
    rw [extract_some found]
    rfl
  refine List.pairwise_flatMap.mpr ⟨fun control _ => ?_, ?_⟩
  · refine List.pairwise_of_forall_mem_list fun b hb c hc => ?_
    rw [own control b hb, own control c hc]
  · refine g.actingControls.ascending.imp fun {x y} less b hb c hc => ?_
    rw [own x b hb, own y c hc]
    exact Nat.le_of_lt less

/-- Order and repetition of the edge rows decide neither whether a graph is built nor which
behaviors it has, raw or reduced. -/
theorem perm_behaviors_of_same_rows (nodes : List Node) (trackFind : Bool) {rows rows' : List Edge}
    (same : ∀ e, e ∈ rows' ↔ e ∈ rows) :
    ((∃ g, build nodes rows trackFind = .ok g) ↔ ∃ g', build nodes rows' trackFind = .ok g') ∧
    ∀ g g', build nodes rows trackFind = .ok g → build nodes rows' trackFind = .ok g' →
      ∀ rule : ExtractionRule, rule.hop = none ∨ rule.hop = some 0 →
        (g'.extractAll rule).Perm (g.extractAll rule) ∧
        (g.extractAll rule).Pairwise (fun b c => b.control ≤ c.control) ∧
        (g'.extractAll rule).Pairwise (fun b c => b.control ≤ c.control) ∧
        ∀ (aux : Auxiliary) (reduction : ReductionRule) (watch watch' : Stopwatch),
          (g'.reduceAll aux reduction watch' (g'.extractAll rule)).untimed.behaviors.Perm
            (g.reduceAll aux reduction watch (g.extractAll rule)).untimed.behaviors := by
  constructor
  · rw [exists_build_iff, exists_build_iff]
    simp only [same]
  · intro g g' built built' rule limit
    have alike := alike_build same built built'
    have raws := alike.extractAll limit
    refine ⟨raws, g.ascending_extractAll rule, g'.ascending_extractAll rule, ?_⟩
    intro aux reduction watch watch'
    rw [behaviors_untimed_reduceAll, behaviors_untimed_reduceAll]
    simp only [alike.reduce]
    exact raws.filterMap _

/-- A table read backwards, with every row twice. -/
theorem perm_behaviors_of_same_rows_sample :
    ∃ g' b, build sampleNodes (sampleRows.reverse ++ sampleRows) false = .ok g' ∧
      sample.extract sampleRule 0 1 = some b ∧ b ∈ g'.extractAll sampleRule ∧
      (g'.reduceAll .empty ⟨true, none⟩ .stopped (g'.extractAll sampleRule)).untimed.behaviors.Perm
        (sample.reduceAll .empty ⟨true, none⟩ .stopped
          (sample.extractAll sampleRule)).untimed.behaviors := by
  have same : ∀ e, e ∈ sampleRows.reverse ++ sampleRows ↔ e ∈ sampleRows := by simp
  have limit : sampleRule.hop = none ∨ sampleRule.hop = some 0 := Or.inr rfl
  obtain ⟨both, perm⟩ := perm_behaviors_of_same_rows sampleNodes false same
  obtain ⟨g', built'⟩ := both.mp ⟨sample, rfl⟩
  obtain ⟨raws, -, -, reduced⟩ := perm sample g' rfl built' sampleRule limit
  obtain ⟨b, found⟩ := exists_extract ((mem_behaviorEdges limit).mpr call_mem_sample) (by decide)
  have listed : b ∈ sample.extractAll sampleRule :=
    List.mem_flatMap.mpr ⟨0, by decide, List.mem_filterMap.mpr ⟨1, by decide, found⟩⟩
  exact ⟨g', b, built', found, raws.mem_iff.mpr listed, reduced _ _ _ _⟩

end Graph
end HandlerGraph
