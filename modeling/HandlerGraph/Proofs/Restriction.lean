import HandlerGraph.Proofs.Expansion
import HandlerGraph.Proofs.Extraction

/-! What a less strict extraction finds. Without a hop limit, and with nothing taken for noise that
was not noise before, a behavior keeps its edges and its subsumed controls. Fewer keywords alone are
not enough: a filter that is on takes names that are no signatures for noise without any keyword,
and one that is off takes nothing for noise. -/
namespace HandlerGraph

theorem Keywords.occurIn_mono {few many : Keywords} {text : String}
    (sub : ∀ w ∈ few.words, w ∈ many.words) (h : few.occurIn text = true) : many.occurIn text = true := by
  simp only [occurIn, List.any_eq_true] at h ⊢
  obtain ⟨w, mem, occurs⟩ := h
  exact ⟨w, sub w mem, occurs⟩

namespace ExtractionRule

def unlimited (rule : ExtractionRule) : ExtractionRule := { rule with hop := none }

/-- The filter is off, or it was on before and has no new keywords. -/
def Quieter (rule old : ExtractionRule) : Prop :=
  rule.filter = false ∨ old.filter = true ∧
    (∀ w ∈ rule.noise.calls.words, w ∈ old.noise.calls.words) ∧
    ∀ w ∈ rule.noise.classes.words, w ∈ old.noise.classes.words

variable {rule old : ExtractionRule} {g : Graph} {id first : Nat} {n : Neighbor}

theorem Quieter.skips (quieter : rule.Quieter old) (h : rule.skips g id = true) :
    old.skips g id = true := by
  simp only [ExtractionRule.skips, NoiseRule.isNoise, Bool.and_eq_true, Bool.or_eq_true] at h ⊢
  obtain ⟨filtered, noise⟩ := h
  rcases quieter with off | ⟨on, calls, classes⟩
  · simp [off] at filtered
  · exact ⟨on, noise.imp (Or.imp_right (Keywords.occurIn_mono calls))
      (Keywords.occurIn_mono classes)⟩

theorem Leads.widen (quieter : rule.Quieter old) (h : old.Leads g id n) :
    rule.unlimited.Leads g id n := by
  refine ⟨h.1, skips_eq_false_iff.mp (Bool.of_not_eq_true fun noise => ?_), nofun⟩
  have before := skips_eq_false_iff.mpr h.2.1
  have skipped : old.skips g n.target = true := quieter.skips noise
  simp [before] at skipped

theorem Reaches.widen (quieter : rule.Quieter old) (h : old.Reaches g first id) :
    rule.unlimited.Reaches g first id := by
  induction h with
  | refl => exact Relation.ReflTransGen.refl
  | tail _ step ih =>
    obtain ⟨r, leads⟩ := step
    exact ih.next (leads.widen quieter)

end ExtractionRule

namespace Graph
variable {g : Graph} {rule old : ExtractionRule} {control callback : Nat} {b few : RawBehavior}

theorem edges_of_extract (h : g.extract rule control callback = some b) :
    b.edges = g.behaviorEdges rule control callback :=
  congrArg RawBehavior.edges (extract_some h)

theorem one_lt_of_extract (h : g.extract rule control callback = some b) : 1 < b.edges.size := by
  rw [edges_of_extract h]
  by_contra small
  rw [extract_eq, if_pos (Nat.le_of_not_lt small)] at h
  contradiction

theorem exists_beyond_trigger (h : g.extract rule control callback = some b) :
    ∃ e ∈ g.behaviorEdges rule control callback, e ≠ ⟨control, callback, .event⟩ := by
  by_contra none_beyond
  simp only [not_exists, not_and, not_not] at none_beyond
  have small : (g.behaviorEdges rule control callback).size ≤ 1 :=
    SortedSet.size_le_length (l := [⟨control, callback, .event⟩])
      fun e mem => List.mem_singleton.mpr (none_beyond e mem)
  rw [← edges_of_extract h] at small
  exact Nat.not_le_of_lt (one_lt_of_extract h) small

theorem behaviorEdges_mono
    (visited : ∀ x ∈ (Walk.whole old g callback).visited, x ∈ (Walk.whole rule g callback).visited)
    (recorded : ∀ e ∈ (Walk.whole old g callback).edges, e ∈ (Walk.whole rule g callback).edges) :
    ∀ e ∈ g.behaviorEdges old control callback, e ∈ g.behaviorEdges rule control callback := by
  intro e mem
  refine SortedSet.mem_insert.mpr ((SortedSet.mem_insert.mp mem).imp_right fun reached => ?_)
  refine mem_reachedEdges.mpr ((mem_reachedEdges.mp reached).imp (fun link => ?_) (recorded e))
  obtain ⟨listed, kind, target⟩ := mem_reachedLinks.mp link
  exact mem_reachedLinks.mpr ⟨listed, kind, visited _ target⟩

/-- Whatever the limit was, without one and with no more noise nothing is lost. -/
theorem extract_widens (quieter : rule.Quieter old)
    (found : g.extract old control callback = some few) :
    ∃ many, g.extract rule.unlimited control callback = some many ∧
      (∀ e ∈ few.edges, e ∈ many.edges) ∧ ∀ x ∈ few.subsumed, x ∈ many.subsumed := by
  have sound := Walk.sound_whole old g callback
  have reached : ∀ x ∈ (Walk.whole old g callback).visited,
      rule.unlimited.Reaches g callback x := fun x mem => (sound.visited x mem).widen quieter
  have edges : ∀ e ∈ g.behaviorEdges old control callback,
      e ∈ g.behaviorEdges rule.unlimited control callback := by
    refine behaviorEdges_mono (fun x mem => ?_) fun e mem => ?_
    · exact (Walk.mem_visited_whole (Or.inl rfl)).mpr (reached x mem)
    · obtain ⟨source, -, leads⟩ := sound.edges e mem
      exact (Walk.mem_edges_whole (Or.inl rfl)).mpr ⟨reached _ source, leads.widen quieter⟩
  obtain ⟨e, mem, apart⟩ := exists_beyond_trigger found
  obtain ⟨many, wider⟩ := exists_extract (edges e mem) apart
  obtain rfl := extract_some found
  obtain rfl := extract_some wider
  refine ⟨_, wider, edges, fun x inside => ?_⟩
  obtain ⟨apart, linked, busy, within⟩ := mem_subsumed.mp inside
  exact mem_subsumed.mpr ⟨apart, linked, busy, fun e leaves => edges e (within e leaves)⟩

def strictRule : ExtractionRule := ⟨⟨.ofList ["open"], .none⟩, some 0, true⟩

def strictBehavior : RawBehavior :=
  .ofEdges 0 1
    (.ofList [⟨0, 1, .event⟩, ⟨1, 2, .call⟩, ⟨2, 1, .call⟩, ⟨5, 2, .use⟩, ⟨5, 2, .event⟩])
    (.ofList [5])

theorem extract_strict : sample.extract strictRule 0 1 = some strictBehavior := by
  rw [extract_eq_gather 3 (by decide +kernel)]
  decide +kernel

theorem extract_widens_sample :
    sampleRule.Quieter strictRule ∧ sample.extract strictRule 0 1 = some strictBehavior ∧
      5 ∈ strictBehavior.subsumed ∧ ¬ ⟨3, 4, .call⟩ ∈ strictBehavior.edges ∧
      ∃ many, sample.extract sampleRule.unlimited 0 1 = some many ∧
        (∀ e ∈ strictBehavior.edges, e ∈ many.edges) ∧ 5 ∈ many.subsumed := by
  have quieter : sampleRule.Quieter strictRule := Or.inr (by decide)
  have inside : 5 ∈ strictBehavior.subsumed := by decide
  obtain ⟨many, wider, edges, subsumed⟩ := extract_widens quieter extract_strict
  exact ⟨quieter, extract_strict, inside, by decide, many, wider, edges, subsumed 5 inside⟩

def bareNodes : List Node :=
  [.widget "Button" "main.xml" 7, .method "<app.Main: void onClick()>" "-", .method "helper" "-"]

def bareRows : List Edge := [⟨0, 1, .event⟩, ⟨1, 2, .call⟩]

def bare : Graph := bareRows.foldl (enter false) (start bareNodes bareRows)

def uncheckedRule : ExtractionRule := ⟨.permissive, none, false⟩

def signaturesRule : ExtractionRule := ⟨.permissive, none, true⟩

/-- With the filter switched on a behavior is lost, though there is no keyword at all. -/
theorem filter_loses_bare :
    (∀ w ∈ signaturesRule.noise.calls.words, w ∈ uncheckedRule.noise.calls.words) ∧
      (∀ w ∈ signaturesRule.noise.classes.words, w ∈ uncheckedRule.noise.classes.words) ∧
      build bareNodes bareRows false = .ok bare ∧
      (∃ few, bare.extract uncheckedRule 0 1 = some few ∧ ⟨1, 2, .call⟩ ∈ few.edges) ∧
      bare.extract signaturesRule.unlimited 0 1 = none := by
  have kept : bare.extract uncheckedRule 0 1 =
      some (.ofEdges 0 1 (.ofList [⟨0, 1, .event⟩, ⟨1, 2, .call⟩]) .empty) := by
    rw [extract_eq_gather 2 (by decide +kernel)]
    decide +kernel
  have lost : bare.extract signaturesRule.unlimited 0 1 = none := by
    rw [extract_eq_gather 1 (by decide +kernel)]
    decide +kernel
  exact ⟨fun _ mem => mem, fun _ mem => mem, rfl, ⟨_, kept, by decide⟩, lost⟩

end Graph
end HandlerGraph
