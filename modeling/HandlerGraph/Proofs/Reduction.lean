import HandlerGraph.Proofs.DeadLeaf
import HandlerGraph.Proofs.Extraction
import HandlerGraph.Proofs.SwitchNoise
import HandlerGraph.Reduction

/-! What reduction keeps of a behavior. It leaves a settled behavior as it is and settles every
other, so a second reduction changes nothing: with fewer edges no record finds a caller that it did
not find before, and no further leaf is dead. The number of dead leaves is not covered: an edge of
the control itself to a dead node comes back each time, and is counted each time. Of the events in
an extracted behavior those of its control stay, since no edge enters the control and so no sweep
does. -/
namespace HandlerGraph

def RawBehavior.base (raw : RawBehavior) : SortedSet Edge := raw.edges.filter (·.relation ≠ .event)

theorem RawBehavior.mem_base {raw : RawBehavior} {e : Edge} :
    e ∈ raw.base ↔ e ∈ raw.edges ∧ e.relation ≠ .event := by
  simp [base]

def ReducedBehavior.untimed (b : ReducedBehavior) : ReducedBehavior :=
  { b with report := { b.report with time := 0 } }

def ReducedBehaviors.untimed (r : ReducedBehaviors) : ReducedBehaviors :=
  ⟨0, r.behaviors.map ReducedBehavior.untimed⟩

theorem ReducedBehaviors.length_of_untimed {r r' : ReducedBehaviors} (h : r.untimed = r'.untimed) :
    r.behaviors.length = r'.behaviors.length := by
  have lengths := congrArg (fun r => r.behaviors.length) h
  simpa [untimed] using lengths

namespace Graph

def noise (g : Graph) (aux : Auxiliary) (raw : RawBehavior) : SwitchNoise :=
  g.switchNoise aux.coverage aux.resources raw raw.base

def leaves (g : Graph) (rule : ReductionRule) (raw : RawBehavior) : SortedSet Edge :=
  if rule.removeLeaves then g.deadLeaves raw.base else .empty

def surviving (g : Graph) (rule : ReductionRule) (raw : RawBehavior) : SortedSet Edge :=
  (raw.base.filter fun e => decide (¬ e ∈ g.leaves rule raw)).addAll
    (raw.edges.toList.filter (·.source = raw.control))

def keptEdges (g : Graph) (aux : Auxiliary) (rule : ReductionRule) (raw : RawBehavior) :
    SortedSet Edge :=
  (g.surviving rule raw).filter fun e => decide (¬ e ∈ (g.noise aux raw).removed)

variable {g : Graph} {aux : Auxiliary} {rule : ReductionRule} {time : Seconds} {raw : RawBehavior}

theorem edges_strip : (g.strip aux rule time raw).edges = g.keptEdges aux rule raw := rfl

theorem mem_surviving {e : Edge} : e ∈ g.surviving rule raw ↔
    e ∈ raw.edges ∧ (e.source = raw.control ∨ e.relation ≠ .event ∧ ¬ e ∈ g.leaves rule raw) := by
  simp only [surviving, SortedSet.mem_addAll, List.mem_filter, SortedSet.mem_filter,
    RawBehavior.mem_base, decide_eq_true_eq, ← SortedSet.mem_def]
  grind

theorem mem_keptEdges {e : Edge} : e ∈ g.keptEdges aux rule raw ↔
    e ∈ g.surviving rule raw ∧ ¬ e ∈ (g.noise aux raw).removed := by
  simp only [keptEdges, SortedSet.mem_filter, decide_eq_true_eq]

theorem mem_raw_of_mem_kept {e : Edge} (h : e ∈ g.keptEdges aux rule raw) : e ∈ raw.edges :=
  (mem_surviving.mp (mem_keptEdges.mp h).1).1

theorem mem_leaves {e : Edge} : e ∈ g.leaves rule raw ↔
    rule.removeLeaves = true ∧ e ∈ raw.base ∧ g.Dead (g.ownCalls raw.base) e.target := by
  rw [leaves]
  split
  · rename_i looked
    rw [mem_deadLeaves]
    exact (and_iff_right looked).symm
  · rename_i ignored
    exact ⟨fun h => absurd h SortedSet.not_mem_empty, fun h => absurd h.1 ignored⟩

theorem own_of_event_mem_kept {e : Edge} (h : e ∈ g.keptEdges aux rule raw)
    (event : e.relation = .event) : e.source = raw.control := by
  rcases (mem_surviving.mp (mem_keptEdges.mp h).1).2 with own | ⟨kind, _⟩
  · exact own
  · exact absurd event kind

theorem taken_of_mem_kept {e : Edge} (h : e ∈ g.keptEdges aux rule raw) (kind : e.relation ≠ .event)
    (caller : e.source ∈ (g.taken aux.coverage aux.resources raw).callers) :
    e ∈ (g.taken aux.coverage aux.resources raw).calls := by
  have base : e ∈ raw.base := RawBehavior.mem_base.mpr ⟨mem_raw_of_mem_kept h, kind⟩
  refine Decidable.byContradiction fun other => (mem_keptEdges.mp h).2 ?_
  exact mem_removed_of_untaken (mem_untakenCases.mpr ⟨base, caller, other⟩)

theorem not_dead_of_mem_kept {e : Edge} (looked : rule.removeLeaves = true)
    (h : e ∈ g.keptEdges aux rule raw) (kind : e.relation ≠ .event)
    (other : e.source ≠ raw.control) : ¬ g.Dead (g.ownCalls raw.base) e.target := by
  intro dead
  have base : e ∈ raw.base := RawBehavior.mem_base.mpr ⟨mem_raw_of_mem_kept h, kind⟩
  rcases (mem_surviving.mp (mem_keptEdges.mp h).1).2 with own | ⟨_, alive⟩
  · exact other own
  · exact alive (mem_leaves.mpr ⟨looked, base, dead⟩)

/-- Nothing is left that reduction takes away: no event of another control, no untaken case, and no
edge into a dead leaf but from the control itself. -/
structure Settled (g : Graph) (aux : Auxiliary) (rule : ReductionRule) (raw : RawBehavior) :
    Prop where
  events : ∀ e ∈ raw.edges, e.relation = .event → e.source = raw.control
  cases : ∀ e ∈ raw.base, e.source ∈ (g.taken aux.coverage aux.resources raw).callers →
    e ∈ (g.taken aux.coverage aux.resources raw).calls
  leaves : rule.removeLeaves = true → ∀ e ∈ raw.base, e.source ≠ raw.control →
    ¬ g.Dead (g.ownCalls raw.base) e.target

theorem Settled.surviving (settled : g.Settled aux rule raw) :
    g.surviving rule raw = raw.edges := by
  refine SortedSet.ext_mem fun e => ?_
  rw [mem_surviving]
  refine and_iff_left_of_imp fun mem => ?_
  by_cases own : e.source = raw.control
  · exact Or.inl own
  · refine Or.inr ⟨fun event => own (settled.events e mem event), fun dead => ?_⟩
    obtain ⟨looked, base, target⟩ := mem_leaves.mp dead
    exact settled.leaves looked e base own target

theorem Settled.removed (settled : g.Settled aux rule raw) :
    (g.noise aux raw).removed = .empty := by
  have nothing : untakenCases (g.taken aux.coverage aux.resources raw) raw.base = [] := by
    refine List.eq_nil_iff_forall_not_mem.mpr fun e untaken => ?_
    obtain ⟨mem, caller, other⟩ := mem_untakenCases.mp untaken
    exact other (settled.cases e mem caller)
  rw [noise, removed_switchNoise, nothing]
  rfl

theorem keptEdges_eq_iff : g.keptEdges aux rule raw = raw.edges ↔ g.Settled aux rule raw := by
  constructor
  · intro same
    have kept : ∀ e ∈ raw.edges, e ∈ g.keptEdges aux rule raw := by
      rw [same]
      exact fun _ mem => mem
    refine ⟨fun e mem => own_of_event_mem_kept (kept e mem), fun e base => ?_,
      fun looked e base => ?_⟩
    · obtain ⟨mem, kind⟩ := RawBehavior.mem_base.mp base
      exact taken_of_mem_kept (kept e mem) kind
    · obtain ⟨mem, kind⟩ := RawBehavior.mem_base.mp base
      exact not_dead_of_mem_kept looked (kept e mem) kind
  · intro settled
    refine SortedSet.ext_mem fun e => ?_
    rw [mem_keptEdges, settled.removed, settled.surviving]
    simp

def stripped (g : Graph) (aux : Auxiliary) (rule : ReductionRule) (raw : RawBehavior) :
    RawBehavior :=
  .ofEdges raw.control raw.callback (g.keptEdges aux rule raw) raw.subsumed

theorem mem_base_stripped {e : Edge} : e ∈ (g.stripped aux rule raw).base ↔
    e ∈ g.keptEdges aux rule raw ∧ e.relation ≠ .event := RawBehavior.mem_base

theorem mem_base_of_mem_stripped {e : Edge} (h : e ∈ (g.stripped aux rule raw).base) :
    e ∈ raw.base := by
  obtain ⟨mem, kind⟩ := mem_base_stripped.mp h
  exact RawBehavior.mem_base.mpr ⟨mem_raw_of_mem_kept mem, kind⟩

theorem taken_stripped : g.taken aux.coverage aux.resources (g.stripped aux rule raw) =
    .ofCases g (g.keptEdges aux rule raw)
      (g.switchCases aux.coverage aux.resources raw.control raw.callback) := rfl

theorem settled_stripped (g : Graph) (aux : Auxiliary) (rule : ReductionRule) (raw : RawBehavior) :
    g.Settled aux rule (g.stripped aux rule raw) where
  events e mem event := by
    have own : e.source = raw.control := own_of_event_mem_kept mem event
    exact own
  cases e base caller := by
    obtain ⟨mem, kind⟩ := mem_base_stripped.mp base
    rw [taken_stripped] at caller ⊢
    have sub : ∀ f ∈ g.keptEdges aux rule raw, f ∈ raw.edges := fun _ => mem_raw_of_mem_kept
    exact TakenCases.calls_of_callers_mono sub mem (taken_of_mem_kept mem kind) caller
  leaves looked e base other dead := by
    obtain ⟨mem, kind⟩ := mem_base_stripped.mp base
    have before : g.Dead (g.ownCalls raw.base) e.target :=
      dead.mono fun _ => ownCalls_mono fun _ => mem_base_of_mem_stripped
    exact not_dead_of_mem_kept looked mem kind other before

theorem inherited_noise_stripped (g : Graph) (aux : Auxiliary) (rule : ReductionRule)
    (raw : RawBehavior) :
    (g.noise aux (g.stripped aux rule raw)).inherited = (g.noise aux raw).inherited := by
  rw [noise, noise, inherited_switchNoise, inherited_switchNoise]
  exact TakenCases.inherited_ofCases_congr g _ _ _

theorem switchNoise_strip : (g.strip aux rule time raw).report.switchNoise =
    (g.surviving rule raw).size - (g.keptEdges aux rule raw).size := rfl

theorem inheritedMethods_strip : (g.strip aux rule time raw).inheritedMethods =
    if (g.noise aux raw).inherited.isEmpty then none else some (g.noise aux raw).inherited := rfl

/-- Without an interest to meet, a reduced behavior is reduced to itself, and a raw one keeps all its
edges only if it is settled. -/
theorem reduce_reduce (g : Graph) (aux : Auxiliary) (removeLeaves : Bool) (time again : Seconds)
    (raw : RawBehavior) :
    ∃ once twice : ReducedBehavior,
      g.reduce aux ⟨removeLeaves, none⟩ time raw = some once ∧
      g.reduce aux ⟨removeLeaves, none⟩ again
        (.ofEdges once.control once.callback once.edges once.subsumed) = some twice ∧
      twice.edges = once.edges ∧ twice.report.switchNoise = 0 ∧
      twice.inheritedMethods = once.inheritedMethods ∧ twice.size = once.size ∧
      (once.edges = raw.edges ↔ g.Settled aux ⟨removeLeaves, none⟩ raw) := by
  have settled := settled_stripped g aux ⟨removeLeaves, none⟩ raw
  have edges : g.keptEdges aux ⟨removeLeaves, none⟩ (g.stripped aux ⟨removeLeaves, none⟩ raw) =
      g.keptEdges aux ⟨removeLeaves, none⟩ raw := keptEdges_eq_iff.mpr settled
  refine ⟨g.strip aux ⟨removeLeaves, none⟩ time raw,
    g.strip aux ⟨removeLeaves, none⟩ again (g.stripped aux ⟨removeLeaves, none⟩ raw),
    rfl, rfl, edges, ?_, ?_, congrArg Size.of edges, keptEdges_eq_iff⟩
  · rw [switchNoise_strip, settled.surviving, edges]
    exact Nat.sub_self _
  · rw [inheritedMethods_strip, inheritedMethods_strip, inherited_noise_stripped]

theorem reduce_some {d : ReducedBehavior} (h : g.reduce aux rule time raw = some d) :
    d = g.strip aux rule time raw := by
  rw [reduce] at h
  split at h
  · exact (Option.some.inj h).symm
  · contradiction

theorem behaviors_untimed_reduceAll (g : Graph) (aux : Auxiliary) (rule : ReductionRule)
    (watch : Stopwatch) (raws : List RawBehavior) :
    (g.reduceAll aux rule watch raws).untimed.behaviors =
      raws.filterMap fun raw => (g.reduce aux rule 0 raw).map ReducedBehavior.untimed := by
  have each : ∀ (time : Seconds) (raw : RawBehavior),
      (g.reduce aux rule time raw).map ReducedBehavior.untimed =
        (g.reduce aux rule 0 raw).map ReducedBehavior.untimed := by
    intro time raw
    simp only [reduce]
    split <;> rfl
  simp only [ReducedBehaviors.untimed, reduceAll, List.map_filterMap, each]
  rw [← List.zipIdx_map_fst 0 raws, List.filterMap_map, List.zipIdx_map_fst]
  rfl

theorem untimed_reduceAll (g : Graph) (aux : Auxiliary) (rule : ReductionRule)
    (watch watch' : Stopwatch) (raws : List RawBehavior) :
    (g.reduceAll aux rule watch raws).untimed = (g.reduceAll aux rule watch' raws).untimed := by
  have same := (g.behaviors_untimed_reduceAll aux rule watch raws).trans
    (g.behaviors_untimed_reduceAll aux rule watch' raws).symm
  exact congrArg (ReducedBehaviors.mk 0) same

/-- A sweep only enters nodes that some edge enters, so an event of a node that no edge enters is
not swept; nor is it a case of a switch. -/
theorem event_not_mem_removed {e : Edge} (closed : ∀ f ∈ raw.edges, f.target ≠ e.source)
    (event : e.relation = .event) : ¬ e ∈ (g.noise aux raw).removed := by
  intro h
  rcases untaken_or_open_of_mem_removed h with untaken | ⟨_, c, untaken, path⟩
  · exact (RawBehavior.mem_base.mp (mem_untakenCases.mp untaken).1).2 event
  · rcases path.last with first | ⟨f, mem, enters⟩
    · exact closed c (RawBehavior.mem_base.mp (mem_untakenCases.mp untaken).1).1 first.symm
    · exact closed f mem enters

/-- Of the events in an extracted behavior, those of its own control survive reduction and no
others. -/
theorem event_mem_reduced {extraction : ExtractionRule} {d : ReducedBehavior}
    (filtered : extraction.filter = true) (extracted : raw ∈ g.extractAll extraction)
    (plain : ¬ '(' ∈ (g.nameOf raw.control).toList) (apart : raw.callback ≠ raw.control)
    (reduced : g.reduce aux rule time raw = some d) :
    (∀ e : Edge, e.relation = .event →
      (e ∈ d.edges ↔ e ∈ raw.edges ∧ e.source = raw.control)) ∧
    ⟨raw.control, raw.callback, .event⟩ ∈ d.edges := by
  have events : ∀ e : Edge, e.relation = .event →
      (e ∈ d.edges ↔ e ∈ raw.edges ∧ e.source = raw.control) := by
    intro e event
    rw [reduce_some reduced, edges_strip]
    constructor
    · intro kept
      exact ⟨mem_raw_of_mem_kept kept, own_of_event_mem_kept kept event⟩
    · rintro ⟨mem, own⟩
      have closed : ∀ f ∈ raw.edges, f.target ≠ e.source := by
        rw [own]
        exact fun f => target_ne_control filtered extracted plain apart
      exact mem_keptEdges.mpr
        ⟨mem_surviving.mpr ⟨mem, Or.inl own⟩, event_not_mem_removed closed event⟩
  exact ⟨events, (events _ rfl).mpr ⟨trigger_mem_edges extracted, rfl⟩⟩

def sampleAux : Auxiliary where
  coverage := ⟨SortedMap.empty.insert "7$1"
    [⟨"<app.Main: void onClick()>", "<app.Main: void show()>"⟩]⟩
  resources := Resources.empty.insert "main" 1
  widgetTexts := .empty

theorem confirms_sample {edges : SortedSet Edge} {caller callee : Nat} :
    (⟨"<app.Main: void onClick()>", "<app.Main: void show()>"⟩ : SwitchCase).Confirms
      sample edges caller callee ↔ caller = 1 ∧ callee = 2 := by
  have built : build sampleNodes sampleRows false = .ok sample := rfl
  have span : enclosingSignature "<app.Main: void show()>" =
      some "<app.Main: void show()>" := by decide
  have first : (sample.idsNamed "<app.Main: void onClick()>").head? = some 1 := by
    rw [idsNamed_build built]
    decide
  have second : (sample.idsNamed "<app.Main: void show()>").head? = some 2 := by
    rw [idsNamed_build built]
    decide
  simp only [SwitchCase.Confirms, span, first, Option.some.injEq, exists_eq_left',
    TakenCases.callee?, second]
  exact and_congr eq_comm eq_comm

theorem untaken_sample {raw : RawBehavior} (control : raw.control = 0) (callback : raw.callback = 1)
    (mem : ⟨1, 3, .call⟩ ∈ raw.edges) :
    ⟨1, 3, .call⟩ ∈
      untakenCases (sample.taken sampleAux.coverage sampleAux.resources raw) raw.base := by
  have located :
      sample.switchCases sampleAux.coverage sampleAux.resources raw.control raw.callback =
        [⟨"<app.Main: void onClick()>", "<app.Main: void show()>"⟩] := by
    rw [control, callback]
    rfl
  refine mem_untakenCases.mpr ⟨RawBehavior.mem_base.mpr ⟨mem, by decide⟩, ?_⟩
  rw [taken, located, TakenCases.mem_callers_ofCases, TakenCases.mem_calls_ofCases]
  simp [confirms_sample]

/-- The case that is not taken goes, and so does the other control's event; the trigger stays. -/
theorem event_mem_reduced_sample :
    ∃ raw ∈ sample.extractAll sampleRule, raw.control = 0 ∧ raw.callback = 1 ∧
      ⟨1, 3, .call⟩ ∈ raw.edges ∧ ⟨5, 2, .event⟩ ∈ raw.edges ∧
      ∃ d, sample.reduce sampleAux ⟨true, none⟩ 0 raw = some d ∧ ¬ ⟨1, 3, .call⟩ ∈ d.edges ∧
        ¬ ⟨5, 2, .event⟩ ∈ d.edges ∧ ⟨0, 1, .event⟩ ∈ d.edges := by
  have limit : sampleRule.hop = none ∨ sampleRule.hop = some 0 := Or.inr rfl
  have call := (mem_behaviorEdges limit).mpr call_mem_sample
  have other := (mem_behaviorEdges limit).mpr (label_mem_sample ⟨5, 2, .event⟩ (by decide))
  obtain ⟨raw, found⟩ := exists_extract call (by decide)
  have listed : raw ∈ sample.extractAll sampleRule :=
    List.mem_flatMap.mpr ⟨0, by decide, List.mem_filterMap.mpr ⟨1, by decide, found⟩⟩
  have shape := extract_some found
  have control : raw.control = 0 := congrArg RawBehavior.control shape
  have callback : raw.callback = 1 := congrArg RawBehavior.callback shape
  have edges : raw.edges = sample.behaviorEdges sampleRule 0 1 := congrArg RawBehavior.edges shape
  rw [← edges] at call other
  have reduced : sample.reduce sampleAux ⟨true, none⟩ 0 raw =
      some (sample.strip sampleAux ⟨true, none⟩ 0 raw) := rfl
  have plain : ¬ '(' ∈ (sample.nameOf raw.control).toList := by
    rw [control]
    decide
  obtain ⟨events, trigger⟩ := event_mem_reduced rfl listed plain (by rw [control, callback]; decide)
    reduced
  rw [control, callback] at trigger
  refine ⟨raw, listed, control, callback, call, other, _, reduced, fun kept => ?_, fun kept => ?_,
    trigger⟩
  · exact (mem_keptEdges.mp kept).2 (mem_removed_of_untaken (untaken_sample control callback call))
  · have own := ((events _ rfl).mp kept).2
    rw [control] at own
    contradiction

end Graph
end HandlerGraph
