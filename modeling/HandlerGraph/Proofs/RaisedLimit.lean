import HandlerGraph.Proofs.HopLimit

/-! What a larger hop limit changes. It does not only add edges: a longer chain that the smaller
limit cut off may come back to a node that still waits, and its depth is then raised, so that calls
of that node are refused although they lie near the app. Nothing is lost exactly if no call that the
smaller limit follows leaves a node that the larger limit expands too deep. That is so from a limit
of zero, and wherever each library node that calls another lies at one depth only. -/
namespace HandlerGraph

namespace ExtractionRule
variable {rule : ExtractionRule} {g : Graph} {limit low high : Nat} {e : Edge} {d : Int}

theorem quieter_upTo (rule : ExtractionRule) (limit : Nat) : rule.Quieter (rule.upTo limit) := by
  cases filtered : rule.filter with
  | false => exact Or.inl filtered
  | true => exact Or.inr ⟨filtered, fun _ mem => mem, fun _ mem => mem⟩

theorem Follows.raise (le : low ≤ high) (h : (rule.upTo low).Follows g d e) :
    (rule.upTo high).Follows g d e := by
  obtain ⟨adjacent, heard, room⟩ := h
  refine ⟨adjacent, heard, fun limit found inner => ?_⟩
  obtain rfl : high = limit := Option.some.inj found
  have below : d + (rule.upTo high).selfCallsBefore g e < low := room low rfl inner
  omega

end ExtractionRule

namespace Graph

def openEdges (g : Graph) (rule : ExtractionRule) (callback : Nat) : Set Edge :=
  {e | rule.unlimited.Reaches g callback e.source ∧
    rule.unlimited.Leads g e.source ⟨e.target, e.relation⟩}

/-- All ways to a library node that calls another have the same number of calls in the library. -/
def HasOneDepth (g : Graph) (rule : ExtractionRule) (callback : Nat) : Prop :=
  ∀ e ∈ g.openEdges rule callback, g.IsInner e → ∀ j k,
    g.LiesAt (g.openEdges rule callback) callback j e.source →
    g.LiesAt (g.openEdges rule callback) callback k e.source → j = k

end Graph

namespace Walk
variable {rule : ExtractionRule} {g : Graph} {callback limit low high : Nat} {x : Nat} {d : Int}

theorem mem_openEdges {e : Edge} (h : e ∈ (whole (rule.upTo limit) g callback).edges) :
    e ∈ g.openEdges rule callback := by
  have sound := sound_whole (rule.upTo limit) g callback
  obtain ⟨source, -, leads⟩ := sound.edges e h
  have quieter := rule.quieter_upTo limit
  exact ⟨(sound.visited _ source).widen quieter, leads.widen quieter⟩

theorem liesAt_open (library : g.isAppDefined x = false)
    (h : Expands (rule.upTo limit) g (Walk.start callback) x d) :
    ∃ k : Nat, d = k ∧ g.LiesAt (g.openEdges rule callback) callback k x := by
  refine h.liesAt (fun _ => True) rfl (fun _ _ => trivial) (orderly_start callback)
    (Placed.start ..) (fun e mem => mem_openEdges mem)
    (fun id visited n adjacent heard _ _ _ => ?_) library trivial
  have reached := (sound_whole (rule.upTo limit) g callback).visited id visited
  exact ⟨reached.widen (rule.quieter_upTo limit), adjacent,
    ExtractionRule.skips_eq_false_iff.mp heard, nofun⟩

theorem first_recorded_of_le (le : low ≤ high) {y : Nat} {r : Relation}
    (h : ⟨callback, y, r⟩ ∈ (whole (rule.upTo low) g callback).edges) :
    ⟨callback, y, r⟩ ∈ (whole (rule.upTo high) g callback).edges := by
  obtain ⟨d, expanded, follows⟩ := mem_edges_iff_expands.mp h
  obtain rfl := expanded.unique (orderly_start callback) (expands_start ..)
  exact mem_edges_iff_expands.mpr ⟨0, expands_start .., follows.raise le⟩

theorem exists_first_recorded (h : x ∈ (whole rule g callback).visited) :
    x = callback ∨ ∃ y r, y ≠ callback ∧ ⟨callback, y, r⟩ ∈ (whole rule g callback).edges := by
  refine visited_induction (P := fun x => x = callback ∨ _) (Or.inl rfl)
    (fun e mem before => ?_) x h
  refine or_iff_not_imp_left.mpr fun away => ?_
  rcases before with here | further
  · exact ⟨e.target, e.relation, away, here ▸ mem⟩
  · exact further

theorem whole_mono (room : ∀ e ∈ (whole (rule.upTo low) g callback).edges, g.IsInner e →
      ∀ d, Expands (rule.upTo high) g (Walk.start callback) e.source d →
        d + rule.selfCallsBefore g e < high) :
    (∀ x ∈ (whole (rule.upTo low) g callback).visited,
      x ∈ (whole (rule.upTo high) g callback).visited) ∧
    ∀ e ∈ (whole (rule.upTo low) g callback).edges,
      e ∈ (whole (rule.upTo high) g callback).edges := by
  have sound := sound_whole (rule.upTo high) g callback
  have step : ∀ e ∈ (whole (rule.upTo low) g callback).edges,
      e.source ∈ (whole (rule.upTo high) g callback).visited →
      e ∈ (whole (rule.upTo high) g callback).edges := by
    intro e mem source
    obtain ⟨_, _, adjacent, heard, _⟩ := mem_edges_iff_expands.mp mem
    obtain ⟨d, expanded⟩ := mem_visited_iff_expands.mp source
    refine mem_edges_iff_expands.mpr ⟨d, expanded, adjacent, heard, fun limit found inner => ?_⟩
    obtain rfl : high = limit := Option.some.inj found
    exact room e mem inner d expanded
  have visited : ∀ x ∈ (whole (rule.upTo low) g callback).visited,
      x ∈ (whole (rule.upTo high) g callback).visited :=
    visited_induction sound.start fun e mem source => (sound.edges e (step e mem source)).2.1
  refine ⟨visited, fun e mem => step e mem (visited _ ?_)⟩
  exact ((sound_whole (rule.upTo low) g callback).edges e mem).1

end Walk

namespace Graph
variable {g : Graph} {rule : ExtractionRule} {control callback low high : Nat} {few : RawBehavior}

theorem exists_raised (le : low ≤ high)
    (found : g.extract (rule.upTo low) control callback = some few) :
    ∃ many, g.extract (rule.upTo high) control callback = some many := by
  have sound := Walk.sound_whole (rule.upTo low) g callback
  have further : (∃ y r, y ≠ callback ∧
      ⟨callback, y, r⟩ ∈ (Walk.whole (rule.upTo low) g callback).edges) →
      ∃ many, g.extract (rule.upTo high) control callback = some many := by
    rintro ⟨y, r, away, recorded⟩
    refine exists_extract (mem_behaviorEdges_of_recorded (Walk.first_recorded_of_le le recorded)) ?_
    exact fun same => away (congrArg Edge.target same)
  obtain ⟨e, mem, apart⟩ := exists_beyond_trigger found
  rcases mem_reachedEdges.mp ((SortedSet.mem_insert.mp mem).resolve_left apart) with link | recorded
  · obtain ⟨listed, kind, visited⟩ := mem_reachedLinks.mp link
    refine (Walk.exists_first_recorded visited).elim (fun here => ?_) further
    have reached : e ∈ g.reachedEdges (rule.upTo high) callback :=
      mem_reachedEdges.mpr (Or.inl (mem_reachedLinks.mpr ⟨listed, kind,
        here ▸ (Walk.sound_whole (rule.upTo high) g callback).start⟩))
    exact exists_extract (SortedSet.mem_insert.mpr (Or.inr reached)) apart
  · refine (Walk.exists_first_recorded (sound.edges e recorded).1).elim (fun here => ?_) further
    have kept : e ∈ (Walk.whole (rule.upTo high) g callback).edges := by
      obtain ⟨source, target, relation⟩ := e
      obtain rfl : source = callback := here
      exact Walk.first_recorded_of_le le recorded
    exact exists_extract (mem_behaviorEdges_of_recorded kept) apart

/-- A larger limit finds a behavior too. It keeps all edges if and only if it expands no node too
deep whose calls into the library the smaller limit followed, and it does so from a limit of zero
and where every such node has one depth. -/
theorem raised_limit_keeps_iff (le : low ≤ high)
    (found : g.extract (rule.upTo low) control callback = some few) :
    ∃ many, g.extract (rule.upTo high) control callback = some many ∧
      ((∀ e ∈ few.edges, e ∈ many.edges) ↔
        ∀ e ∈ few.edges, g.IsInner e →
          ∀ d, Walk.Expands (rule.upTo high) g (Walk.start callback) e.source d →
            d + rule.selfCallsBefore g e < high) ∧
      (low = 0 ∨ g.HasOneDepth rule callback → ∀ e ∈ few.edges, e ∈ many.edges) := by
  obtain ⟨many, raised⟩ := exists_raised le found
  rw [edges_of_extract found]
  have keeps : (∀ e ∈ g.behaviorEdges (rule.upTo low) control callback, g.IsInner e →
      ∀ d, Walk.Expands (rule.upTo high) g (Walk.start callback) e.source d →
        d + rule.selfCallsBefore g e < high) →
      ∀ e ∈ g.behaviorEdges (rule.upTo low) control callback, e ∈ many.edges := by
    intro room
    rw [edges_of_extract raised]
    obtain ⟨visited, recorded⟩ := Walk.whole_mono fun e mem =>
      room e (mem_behaviorEdges_of_recorded mem)
    exact behaviorEdges_mono visited recorded
  refine ⟨many, raised, ⟨fun kept e mem inner d expanded => ?_, keeps⟩, fun even => keeps ?_⟩
  · have recorded := mem_edges_whole_of_call (edges_of_extract raised ▸ kept e mem) inner.1
    obtain ⟨d', expanded', -, -, room⟩ := Walk.mem_edges_iff_expands.mp recorded
    obtain rfl := expanded.unique (Walk.orderly_start callback) expanded'
    exact room high rfl inner
  · intro e mem inner d expanded
    have recorded := mem_edges_whole_of_call mem inner.1
    obtain ⟨d', expanded', -, -, room⟩ := Walk.mem_edges_iff_expands.mp recorded
    have before : d' + rule.selfCallsBefore g e < low := room low rfl inner
    obtain ⟨j, rfl, deep⟩ := Walk.liesAt_open inner.2.1 expanded
    obtain ⟨k, rfl, lies⟩ := Walk.liesAt_open inner.2.1 expanded'
    rcases even with rfl | same
    · omega
    · have depth := same e (Walk.mem_openEdges recorded) inner j k deep lies
      omega

def detourOne : RawBehavior :=
  .ofEdges 0 1
    (.ofList [⟨0, 1, .event⟩, ⟨1, 2, .call⟩, ⟨1, 3, .call⟩, ⟨2, 6, .call⟩, ⟨3, 4, .call⟩]) .empty

theorem extract_detour_one : detour.extract (sampleRule.upTo 1) 0 1 = some detourOne := by
  rw [extract_eq_gather 5 (by decide +kernel)]
  decide +kernel

theorem expands_detour : Walk.Expands (sampleRule.upTo 4) detour (Walk.start 1) 2 3 ∧
    Walk.Expands (sampleRule.upTo 4) detour (Walk.start 1) 3 0 :=
  ⟨⟨4, [], by decide +kernel, by decide +kernel⟩, ⟨1, [2], by decide +kernel, by decide +kernel⟩⟩

/-- The timer comes back to the open file and leaves it at depth three. With four hops there is room
for one more. -/
theorem raised_limit_keeps_iff_detour :
    1 ≤ 4 ∧ detour.extract (sampleRule.upTo 1) 0 1 = some detourOne ∧
      Walk.Expands (sampleRule.upTo 4) detour (Walk.start 1) 2 3 ∧
      ∃ many, detour.extract (sampleRule.upTo 4) 0 1 = some many ∧
        ∀ e ∈ detourOne.edges, e ∈ many.edges := by
  obtain ⟨many, raised, keeps, -⟩ :=
    raised_limit_keeps_iff (by decide : 1 ≤ 4) extract_detour_one
  refine ⟨by decide, extract_detour_one, expands_detour.1, many, raised, keeps.mpr ?_⟩
  have inner : ∀ e ∈ detourOne.edges.toList, detour.IsInner e →
      e = ⟨2, 6, .call⟩ ∨ e = ⟨3, 4, .call⟩ := by decide
  intro e mem library d expanded
  rcases inner e mem library with rfl | rfl
  · obtain rfl := expanded.unique (Walk.orderly_start 1) expands_detour.1
    decide
  · obtain rfl := expanded.unique (Walk.orderly_start 1) expands_detour.2
    decide

/-- With two hops there is none: the file is no longer read. -/
theorem raised_limit_loses_detour :
    detour.extract (sampleRule.upTo 1) 0 1 = some detourOne ∧
      detour.extract (sampleRule.upTo 2) 0 1 = some detourTwo ∧
      ⟨2, 6, .call⟩ ∈ detourOne.edges ∧ ¬ ⟨2, 6, .call⟩ ∈ detourTwo.edges :=
  ⟨extract_detour_one, extract_detour_two, by decide, by decide⟩

end Graph
end HandlerGraph
