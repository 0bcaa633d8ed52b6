import HandlerGraph.Proofs.Index
import HandlerGraph.Proofs.SortedSet
import HandlerGraph.Proofs.Walk

/-! What extraction finds, without reference to a walk. For an unlimited walk and for a limit of
zero a behavior is the reachable part of the graph with the links into it and the trigger, and there
is none exactly where that is the trigger alone. From this follows that a subsumed control adds
nothing: its own behaviors lie inside the one that subsumes it. -/
namespace HandlerGraph

namespace Graph

def reachedEdges (g : Graph) (rule : ExtractionRule) (callback : Nat) : SortedSet Edge :=
  (Walk.whole rule g callback).edges.addAll
    (g.reachedLinks (Walk.whole rule g callback).visited).toList

def behaviorEdges (g : Graph) (rule : ExtractionRule) (control callback : Nat) : SortedSet Edge :=
  (g.reachedEdges rule callback).insert ⟨control, callback, .event⟩

/-- The edges of an event: those that lead on from what the callback reaches, the links into it, and
the trigger. -/
def eventEdges (g : Graph) (rule : ExtractionRule) (control callback : Nat) : Set Edge :=
  {e | rule.Reaches g callback e.source ∧ rule.Leads g e.source ⟨e.target, e.relation⟩} ∪
    {e | e ∈ g.controlEdges ∧ (e.relation = .use ∨ e.relation = .event) ∧
      rule.Reaches g callback e.target} ∪
    {⟨control, callback, .event⟩}

variable {g : Graph} {rule : ExtractionRule} {control callback : Nat}

theorem extract_eq (g : Graph) (rule : ExtractionRule) (control callback : Nat) :
    g.extract rule control callback =
      if (g.behaviorEdges rule control callback).size ≤ 1 then none
      else some (.ofEdges control callback (g.behaviorEdges rule control callback)
        ((g.subsumedControls (g.reachedEdges rule callback)).filter (· ≠ control))) := rfl

theorem extract_some {b : RawBehavior} (h : g.extract rule control callback = some b) :
    b = .ofEdges control callback (g.behaviorEdges rule control callback)
      ((g.subsumedControls (g.reachedEdges rule callback)).filter (· ≠ control)) := by
  rw [extract_eq] at h
  split at h
  · contradiction
  · exact (Option.some.inj h).symm

theorem exists_extract {e : Edge} (mem : e ∈ g.behaviorEdges rule control callback)
    (apart : e ≠ ⟨control, callback, .event⟩) : ∃ b, g.extract rule control callback = some b := by
  rw [extract_eq, if_neg fun small =>
    apart (SortedSet.eq_of_size_le_one small mem (SortedSet.mem_insert.mpr (Or.inl rfl)))]
  exact ⟨_, rfl⟩

theorem mem_reachedLinks {visited : SortedSet Nat} {e : Edge} : e ∈ g.reachedLinks visited ↔
    e ∈ g.controlEdges ∧ (e.relation = .use ∨ e.relation = .event) ∧ e.target ∈ visited := by
  have kinds : e.relation.tiesCode = true ↔ e.relation = .use ∨ e.relation = .event := by
    cases e.relation <;> simp [Relation.tiesCode]
  simp only [reachedLinks, SortedSet.mem_filter, Bool.and_eq_true, decide_eq_true_eq, kinds]

theorem mem_reachedEdges {e : Edge} : e ∈ g.reachedEdges rule callback ↔
    e ∈ g.reachedLinks (Walk.whole rule g callback).visited ∨
      e ∈ (Walk.whole rule g callback).edges := SortedSet.mem_addAll

theorem mem_subsumedControls {edges : SortedSet Edge} {x : Nat} : x ∈ g.subsumedControls edges ↔
    (∃ e ∈ g.controlEdges, e.source = x) ∧ g.neighbors x ≠ [] ∧ ∀ e ∈ g.outgoing x, e ∈ edges := by
  simp only [subsumedControls, SortedSet.mem_ofList, List.mem_filter, List.mem_map,
    Bool.and_eq_true, Bool.not_eq_true', List.isEmpty_eq_false_iff, List.all_eq_true,
    decide_eq_true_eq, ← SortedSet.mem_def]

theorem source_of_mem_outgoing {x : Nat} {e : Edge} (h : e ∈ g.outgoing x) : e.source = x := by
  obtain ⟨n, _, rfl⟩ := List.mem_map.mp h
  rfl

/-- The trigger is added after subsumption is judged; for other controls that changes nothing. -/
theorem mem_subsumed {x : Nat} :
    x ∈ (g.subsumedControls (g.reachedEdges rule callback)).filter (· ≠ control) ↔
      x ≠ control ∧ (∃ e ∈ g.controlEdges, e.source = x) ∧ g.neighbors x ≠ [] ∧
        ∀ e ∈ g.outgoing x, e ∈ g.behaviorEdges rule control callback := by
  rw [SortedSet.mem_filter, mem_subsumedControls, decide_eq_true_eq, and_comm]
  refine and_congr_right fun other => and_congr_right fun _ => and_congr_right fun _ => ?_
  refine forall₂_congr fun e leaves => ?_
  rw [behaviorEdges, SortedSet.mem_insert]
  refine ⟨Or.inr, fun h => h.resolve_left ?_⟩
  rintro rfl
  exact other (source_of_mem_outgoing leaves).symm

theorem mem_behaviorEdges (limit : rule.hop = none ∨ rule.hop = some 0) {e : Edge} :
    e ∈ g.behaviorEdges rule control callback ↔ e ∈ g.eventEdges rule control callback := by
  rw [behaviorEdges, SortedSet.mem_insert, mem_reachedEdges, mem_reachedLinks,
    Walk.mem_visited_whole limit, Walk.mem_edges_whole limit]
  simp only [eventEdges, Set.mem_union, Set.mem_ofPred_eq, Set.mem_singleton_iff]
  grind

theorem mem_endpoints {edges : SortedSet Edge} {x : Nat} :
    x ∈ endpoints edges ↔ ∃ e ∈ edges, x = e.source ∨ x = e.target := by
  simp only [endpoints, SortedSet.mem_ofList, List.mem_flatMap, List.mem_cons, List.not_mem_nil,
    or_false, ← SortedSet.mem_def]

/-- Extraction finds the reachable part of the graph, and nothing only where that is the trigger
alone. -/
theorem extract_spec {nodes : List Node} {rows : List Edge} {trackFind : Bool}
    (built : build nodes rows trackFind = .ok g)
    (limit : rule.hop = none ∨ rule.hop = some 0) (control callback : Nat) :
    (g.extract rule control callback = none ↔ (g.eventEdges rule control callback).encard ≤ 1) ∧
    (¬ (g.eventEdges rule control callback).encard ≤ 1 →
      ∃ b, g.extract rule control callback = some b ∧
        b.control = control ∧ b.callback = callback ∧
        {e | e ∈ b.edges} = g.eventEdges rule control callback ∧
        {x | x ∈ b.subsumed} = {x | x ≠ control ∧ (∃ e ∈ g.controlEdges, e.source = x) ∧
          ∀ e ∈ g.outgoing x, e ∈ g.eventEdges rule control callback} ∧
        b.size.node = {x | ∃ e ∈ g.eventEdges rule control callback,
          x = e.source ∨ x = e.target}.encard ∧
        b.size.edge = (g.eventEdges rule control callback).encard) := by
  have edges : {e | e ∈ g.behaviorEdges rule control callback} =
      g.eventEdges rule control callback := Set.ext fun e => mem_behaviorEdges limit
  have count : (g.eventEdges rule control callback).encard =
      (g.behaviorEdges rule control callback).size := by
    rw [← edges, SortedSet.encard_members]
  have small : (g.eventEdges rule control callback).encard ≤ 1 ↔
      (g.behaviorEdges rule control callback).size ≤ 1 := by
    rw [count]
    exact Nat.cast_le_one
  rw [extract_eq, small]
  refine ⟨by simp, fun large => ?_⟩
  refine ⟨_, if_neg large, rfl, rfl, edges, Set.ext fun x => ?_, ?_, count.symm⟩
  · refine mem_subsumed.trans (and_congr_right fun _ => ?_)
    simp only [mem_behaviorEdges limit]
    refine and_congr_right fun linked => and_iff_right ?_
    obtain ⟨e, link, rfl⟩ := linked
    exact List.ne_nil_of_mem (mem_neighbors_of_controlEdge built link)
  · have ends : {x | ∃ e ∈ g.eventEdges rule control callback, x = e.source ∨ x = e.target} =
        {x | x ∈ endpoints (g.behaviorEdges rule control callback)} := by
      ext x
      simp only [Set.mem_ofPred_eq, mem_endpoints, mem_behaviorEdges limit]
    rw [ends, SortedSet.encard_members]
    rfl

def sampleNodes : List Node :=
  [.widget "Button" "main.xml" 7, .method "<app.Main: void onClick()>" "-",
    .method "<app.Main: void show()>" "-", .method "<java.io.File: void open()>" "java.io",
    .method "<java.io.File: void close()>" "java.io", .widget "Label" "main.xml" 8]

def sampleRows : List Edge :=
  [⟨0, 1, .event⟩, ⟨1, 2, .call⟩, ⟨2, 1, .call⟩, ⟨1, 3, .call⟩, ⟨3, 4, .call⟩, ⟨5, 2, .use⟩,
    ⟨5, 2, .event⟩]

def sample : Graph := sampleRows.foldl (enter false) (start sampleNodes sampleRows)

def sampleRule : ExtractionRule := ⟨.permissive, some 0, true⟩

theorem call_mem_sample : ⟨1, 3, .call⟩ ∈ sample.eventEdges sampleRule 0 1 :=
  Or.inl (Or.inl ⟨Relation.ReflTransGen.refl, by decide⟩)

theorem label_mem_sample : ∀ e ∈ sample.outgoing 5, e ∈ sample.eventEdges sampleRule 0 1 := by
  have listed : sample.outgoing 5 = [⟨5, 2, .use⟩, ⟨5, 2, .event⟩] := rfl
  have reached : sampleRule.Reaches sample 1 2 := .single ⟨.call, by decide⟩
  intro e leaves
  rw [listed] at leaves
  rcases List.mem_cons.mp leaves with rfl | leaves
  · exact Or.inl (Or.inr ⟨by decide, Or.inl rfl, reached⟩)
  · obtain rfl := List.mem_singleton.mp leaves
    exact Or.inl (Or.inr ⟨by decide, Or.inr rfl, reached⟩)

/-- The limit of zero stops the walk at the first library method, which it still records. -/
theorem extract_spec_sample :
    build sampleNodes sampleRows false = .ok sample ∧ sampleRule.hop = some 0 ∧
      ∃ b, sample.extract sampleRule 0 1 = some b ∧
        ⟨1, 3, .call⟩ ∈ b.edges ∧ ¬ ⟨3, 4, .call⟩ ∈ b.edges ∧ 5 ∈ b.subsumed := by
  obtain ⟨_, found⟩ := @extract_spec sample sampleRule sampleNodes sampleRows false rfl
    (Or.inr rfl) 0 1
  have large : ¬ (sample.eventEdges sampleRule 0 1).encard ≤ 1 := by
    intro small
    have same := Set.encard_le_one_iff.mp small _ _ call_mem_sample (Or.inr rfl)
    contradiction
  obtain ⟨b, extracted, _, _, edges, subsumed, _⟩ := found large
  refine ⟨rfl, rfl, b, extracted, ?_, ?_, ?_⟩
  · exact (Set.ext_iff.mp edges _).mpr call_mem_sample
  · intro deep
    rcases (Set.ext_iff.mp edges _).mp deep with (⟨_, leads⟩ | ⟨_, kind, _⟩) | trigger
    · revert leads
      decide
    · simp at kind
    · contradiction
  · exact (Set.ext_iff.mp subsumed 5).mpr
      ⟨by decide, ⟨⟨5, 2, .use⟩, by decide, rfl⟩, label_mem_sample⟩

theorem reaches_target_of_mem_eventEdges {e : Edge} (h : e ∈ g.eventEdges rule control callback) :
    rule.Reaches g callback e.target := by
  rcases h with (⟨reached, leads⟩ | ⟨_, _, reached⟩) | rfl
  · exact reached.next leads
  · exact reached
  · exact Relation.ReflTransGen.refl

theorem eventEdges_subset {inner handler : Nat}
    (trigger : ⟨inner, handler, .event⟩ ∈ g.eventEdges rule control callback) :
    g.eventEdges rule inner handler ⊆ g.eventEdges rule control callback := by
  have first := reaches_target_of_mem_eventEdges trigger
  rintro e ((⟨reached, leads⟩ | ⟨link, kind, reached⟩) | rfl)
  · exact Or.inl (Or.inl ⟨first.trans reached, leads⟩)
  · exact Or.inl (Or.inr ⟨link, kind, first.trans reached⟩)
  · exact trigger

theorem mem_outgoing_of_eventCallback {x handler : Nat} (h : handler ∈ g.eventCallbacks x) :
    ⟨x, handler, .event⟩ ∈ g.outgoing x := by
  simp only [eventCallbacks, List.mem_eraseDups, List.mem_map, List.mem_filter,
    decide_eq_true_eq] at h
  obtain ⟨n, ⟨adjacent, event⟩, rfl⟩ := h
  exact List.mem_map.mpr ⟨n, adjacent, by rw [event]⟩

/-- The behaviors of a subsumed control lie inside the behavior that subsumes it. -/
theorem extract_within_of_subsumed (limit : rule.hop = none ∨ rule.hop = some 0)
    {b : RawBehavior} (found : g.extract rule control callback = some b) {inner handler : Nat}
    (inside : inner ∈ b.subsumed) (fires : handler ∈ g.eventCallbacks inner) :
    g.extract rule inner handler = none ∨
      ∃ c, g.extract rule inner handler = some c ∧ (∀ e ∈ c.edges, e ∈ b.edges) ∧
        ∀ x ∈ c.subsumed, x ≠ control → x ∈ b.subsumed := by
  cases other : g.extract rule inner handler with
  | none => exact Or.inl rfl
  | some c =>
    obtain rfl := extract_some found
    obtain rfl := extract_some other
    obtain ⟨_, _, _, covered⟩ := mem_subsumed.mp inside
    have trigger := (mem_behaviorEdges limit).mp (covered _ (mem_outgoing_of_eventCallback fires))
    have edges : ∀ e ∈ g.behaviorEdges rule inner handler,
        e ∈ g.behaviorEdges rule control callback := by
      intro e h
      rw [mem_behaviorEdges limit] at h ⊢
      exact eventEdges_subset trigger h
    refine Or.inr ⟨_, rfl, edges, fun x h apart => ?_⟩
    obtain ⟨_, linked, busy, within⟩ := mem_subsumed.mp h
    exact mem_subsumed.mpr ⟨apart, linked, busy, fun e leaves => edges e (within e leaves)⟩

theorem extract_within_of_subsumed_sample :
    ∃ b, sample.extract sampleRule 0 1 = some b ∧ 5 ∈ b.subsumed ∧ 2 ∈ sample.eventCallbacks 5 ∧
      ∃ c, sample.extract sampleRule 5 2 = some c ∧ (∀ e ∈ c.edges, e ∈ b.edges) ∧
        ∀ x ∈ c.subsumed, x ≠ 0 → x ∈ b.subsumed := by
  have limit : sampleRule.hop = none ∨ sampleRule.hop = some 0 := Or.inr rfl
  obtain ⟨b, found⟩ := exists_extract ((mem_behaviorEdges limit).mpr call_mem_sample) (by decide)
  have inside : 5 ∈ b.subsumed := by
    rw [extract_some found]
    exact mem_subsumed.mpr ⟨by decide, ⟨⟨5, 2, .use⟩, by decide, rfl⟩, by decide,
      fun e leaves => (mem_behaviorEdges limit).mpr (label_mem_sample e leaves)⟩
  have back : ⟨2, 1, .call⟩ ∈ sample.eventEdges sampleRule 5 2 :=
    Or.inl (Or.inl ⟨Relation.ReflTransGen.refl, by decide⟩)
  obtain ⟨c, other⟩ := exists_extract ((mem_behaviorEdges limit).mpr back) (by decide)
  have fires : 2 ∈ sample.eventCallbacks 5 := by decide
  rcases extract_within_of_subsumed limit found inside fires with nothing | within
  · rw [other] at nothing
    contradiction
  · exact ⟨b, found, inside, fires, within⟩

theorem reaches_target_of_mem_behaviorEdges {e : Edge}
    (h : e ∈ g.behaviorEdges rule control callback) : rule.Reaches g callback e.target := by
  have sound := Walk.sound_whole rule g callback
  rcases SortedSet.mem_insert.mp h with rfl | reached
  · exact Relation.ReflTransGen.refl
  · rcases mem_reachedEdges.mp reached with link | walked
    · exact sound.visited _ (mem_reachedLinks.mp link).2.2
    · exact sound.visited _ (sound.edges e walked).2.1

theorem extract_of_mem_extractAll {b : RawBehavior} (h : b ∈ g.extractAll rule) :
    g.extract rule b.control b.callback = some b := by
  obtain ⟨control, _, inner⟩ := List.mem_flatMap.mp h
  obtain ⟨callback, _, found⟩ := List.mem_filterMap.mp inner
  have shape := extract_some found
  rw [shape] at found ⊢
  exact found

theorem trigger_mem_edges {b : RawBehavior} (extracted : b ∈ g.extractAll rule) :
    ⟨b.control, b.callback, .event⟩ ∈ b.edges := by
  have edges := congrArg RawBehavior.edges (extract_some (extract_of_mem_extractAll extracted))
  rw [edges]
  exact SortedSet.mem_insert.mpr (Or.inl rfl)

/-- A widget whose name is no signature is noise, so with the filter on no edge of its own behavior
enters it. -/
theorem target_ne_control {b : RawBehavior} (filtered : rule.filter = true)
    (extracted : b ∈ g.extractAll rule) (plain : ¬ '(' ∈ (g.nameOf b.control).toList)
    (apart : b.callback ≠ b.control) {e : Edge} (h : e ∈ b.edges) : e.target ≠ b.control := by
  intro enters
  have shape := extract_some (extract_of_mem_extractAll extracted)
  have mem : e ∈ g.behaviorEdges rule b.control b.callback := by
    rw [shape] at h
    exact h
  have noisy : rule.noise.isNoise (g.nameOf b.control) = true := by
    simp [NoiseRule.isNoise, plain]
  rcases (reaches_target_of_mem_behaviorEdges mem).quiet filtered with same | quiet
  · exact apart (same.symm.trans enters)
  · rw [enters, noisy] at quiet
    contradiction

end Graph
end HandlerGraph
