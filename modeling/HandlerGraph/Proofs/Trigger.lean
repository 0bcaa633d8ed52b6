import HandlerGraph.Proofs.Restriction

/-! Triggers. The callback of an event is always visited, so every event that fires it is among the
links that a walk reaches, and the trigger adds nothing that is not there. Hence all controls of a
callback get the same behavior, and apart from these controls they subsume the same ones. It also
means that the number of edges does not tell a trivial behavior from others: where two controls fire
a callback that leads nowhere, both triggers are found and the behavior is kept. -/
namespace HandlerGraph

def Edge.Fires (callback : Nat) (e : Edge) : Prop := e.relation = .event ∧ e.target = callback

instance Edge.decidableFires (callback : Nat) (e : Edge) : Decidable (e.Fires callback) :=
  inferInstanceAs (Decidable (_ ∧ _))

namespace Graph
variable {g : Graph} {rule : ExtractionRule} {trackFind : Bool} {nodes : List Node}
  {rows : List Edge} {control other callback : Nat}

theorem trigger_mem_reachedEdges (built : build nodes rows trackFind = .ok g)
    (fires : ⟨control, callback, .event⟩ ∈ rows) :
    ⟨control, callback, .event⟩ ∈ g.reachedEdges rule callback := by
  refine mem_reachedEdges.mpr (Or.inl (mem_reachedLinks.mpr ⟨?_, Or.inr rfl, ?_⟩))
  · exact (mem_controlEdges_build built).mpr ⟨fires, rfl⟩
  · exact (Walk.sound_whole rule g callback).start

theorem behaviorEdges_of_fires (built : build nodes rows trackFind = .ok g)
    (fires : ⟨control, callback, .event⟩ ∈ rows) (rule : ExtractionRule) :
    g.behaviorEdges rule control callback = g.reachedEdges rule callback := by
  refine SortedSet.ext_mem fun e => ?_
  rw [behaviorEdges, SortedSet.mem_insert]
  refine or_iff_right_of_imp ?_
  rintro rfl
  exact trigger_mem_reachedEdges built fires

/-- There is more to a callback than the events that fire it: it has an edge that is followed, or a
control uses it. -/
def LeadsOn (g : Graph) (rule : ExtractionRule) (callback : Nat) : Prop :=
  (∃ e : Edge, e.source = callback ∧ rule.Follows g 0 e ∧ ¬ e.Fires callback) ∨
    ∃ control, ⟨control, callback, .use⟩ ∈ g.controlEdges

theorem follows_of_first {e : Edge} (h : e ∈ (Walk.whole rule g callback).edges)
    (first : e.source = callback) : rule.Follows g 0 e := by
  obtain ⟨d, expanded, follows⟩ := Walk.mem_edges_iff_expands.mp h
  rw [first] at expanded
  obtain rfl := expanded.unique (Walk.orderly_start callback) (Walk.expands_start ..)
  exact follows

theorem eq_callback_of_visited (alone : ¬ g.LeadsOn rule callback) {x : Nat}
    (h : x ∈ (Walk.whole rule g callback).visited) : x = callback := by
  -- Nothing but an event back to the callback is recorded, and it leads to no new node.
  refine Walk.visited_induction (P := fun x => x = callback) rfl (fun e recorded first => ?_) x h
  have back : e.Fires callback := by
    by_contra further
    exact alone (Or.inl ⟨e, first, follows_of_first recorded first, further⟩)
  exact back.2

theorem exists_beyond_iff : (∃ e ∈ g.reachedEdges rule callback, ¬ e.Fires callback) ↔
    g.LeadsOn rule callback := by
  have sound := Walk.sound_whole rule g callback
  constructor
  · rintro ⟨e, mem, beyond⟩
    by_contra alone
    rcases mem_reachedEdges.mp mem with link | recorded
    · obtain ⟨listed, kind, visited⟩ := mem_reachedLinks.mp link
      have target := eq_callback_of_visited alone visited
      rcases kind with use | event
      · obtain ⟨source, _, _⟩ := e
        subst use target
        exact alone (Or.inr ⟨source, listed⟩)
      · exact beyond ⟨event, target⟩
    · have first := eq_callback_of_visited alone (sound.edges e recorded).1
      exact alone (Or.inl ⟨e, first, follows_of_first recorded first, beyond⟩)
  · rintro (⟨e, rfl, follows, beyond⟩ | ⟨user, listed⟩)
    · have recorded : e ∈ (Walk.whole rule g e.source).edges :=
        Walk.mem_edges_iff_expands.mpr ⟨0, Walk.expands_start .., follows⟩
      exact ⟨e, mem_reachedEdges.mpr (Or.inr recorded), beyond⟩
    · refine ⟨⟨user, callback, .use⟩, mem_reachedEdges.mpr (Or.inl ?_), nofun⟩
      exact mem_reachedLinks.mpr ⟨listed, Or.inl rfl, sound.start⟩

theorem exists_extract_of_leadsOn (leads : g.LeadsOn rule callback) (control : Nat) :
    ∃ b, g.extract rule control callback = some b := by
  obtain ⟨e, mem, beyond⟩ := exists_beyond_iff.mpr leads
  refine exists_extract (SortedSet.mem_insert.mpr (Or.inr mem)) ?_
  rintro rfl
  exact beyond ⟨rfl, rfl⟩

theorem fires_mem_rows (built : build nodes rows trackFind = .ok g) {e : Edge}
    (h : e ∈ g.reachedEdges rule callback) (fires : e.Fires callback) :
    ⟨e.source, callback, .event⟩ ∈ rows := by
  obtain ⟨source, target, relation⟩ := e
  obtain ⟨rfl, rfl⟩ := fires
  rcases mem_reachedEdges.mp h with link | recorded
  · exact ((mem_controlEdges_build built).mp (mem_reachedLinks.mp link).1).1
  · have leads := ((Walk.sound_whole rule g _).edges _ recorded).2.2
    exact (event_mem_neighbors_build built).mp leads.1

/-- Controls that fire the same callback have the same behavior under every rule, and subsume the
same controls apart from themselves. Where the callback leads on, they do have one. -/
theorem extract_of_same_callback (built : build nodes rows trackFind = .ok g)
    (first : ⟨control, callback, .event⟩ ∈ rows) (second : ⟨other, callback, .event⟩ ∈ rows)
    (rule : ExtractionRule) :
    ¬ g.LeadsOn rule callback ∧ g.extract rule control callback = none ∧
        g.extract rule other callback = none ∨
      ∃ b c, g.extract rule control callback = some b ∧ g.extract rule other callback = some c ∧
        b.edges = c.edges ∧ b.size = c.size ∧
        ⟨control, callback, .event⟩ ∈ b.edges ∧ ⟨other, callback, .event⟩ ∈ b.edges ∧
        ∀ x, x ≠ control → x ≠ other → (x ∈ b.subsumed ↔ x ∈ c.subsumed) := by
  have found := extract_eq g rule control callback
  have found' := extract_eq g rule other callback
  rw [behaviorEdges_of_fires built first rule] at found
  rw [behaviorEdges_of_fires built second rule] at found'
  by_cases small : (g.reachedEdges rule callback).size ≤ 1
  · rw [if_pos small] at found found'
    refine Or.inl ⟨fun leads => ?_, found, found'⟩
    obtain ⟨b, something⟩ := exists_extract_of_leadsOn leads control
    cases found.symm.trans something
  · rw [if_neg small] at found found'
    refine Or.inr ⟨_, _, found, found', rfl, rfl, trigger_mem_reachedEdges built first,
      trigger_mem_reachedEdges built second, fun x apart apart' => ?_⟩
    simp only [RawBehavior.ofEdges, SortedSet.mem_filter, apart, apart', ne_eq, not_false_eq_true,
      decide_true]

/-- Two controls with the same two callbacks, of which only a click shows anything; a menu whose
callback does nothing; and an icon that uses what a click shows. -/
def panelNodes : List Node :=
  [.widget "Button" "main.xml" 7, .widget "Label" "main.xml" 8, .widget "Menu" "main.xml" 9,
    .method "<app.Main: void onClick()>" "-", .method "<app.Main: void onTouch()>" "-",
    .method "<app.Main: void onClose()>" "-", .method "<app.Main: void show()>" "-",
    .widget "Icon" "main.xml" 10]

def panelRows : List Edge :=
  [⟨2, 5, .event⟩, ⟨1, 3, .event⟩, ⟨0, 4, .event⟩, ⟨0, 3, .event⟩, ⟨3, 6, .call⟩, ⟨1, 4, .event⟩,
    ⟨0, 4, .event⟩, ⟨7, 6, .use⟩]

def panel : Graph := panelRows.foldl (enter false) (start panelNodes panelRows)

theorem build_panel : build panelNodes panelRows false = .ok panel := rfl

def panelClick : RawBehavior :=
  .ofEdges 0 3 (.ofList [⟨0, 3, .event⟩, ⟨1, 3, .event⟩, ⟨3, 6, .call⟩, ⟨7, 6, .use⟩]) (.ofList [7])

theorem extract_panel_click : panel.extract sampleRule 0 3 = some panelClick := by
  rw [extract_eq_gather 2 (by decide +kernel)]
  decide +kernel

theorem extract_of_same_callback_panel :
    build panelNodes panelRows false = .ok panel ∧ ⟨0, 3, .event⟩ ∈ panelRows ∧
      ⟨1, 3, .event⟩ ∈ panelRows ∧ panel.extract sampleRule 0 3 = some panelClick ∧
      ∃ c, panel.extract sampleRule 1 3 = some c ∧ c.edges = panelClick.edges ∧ 7 ∈ c.subsumed := by
  have first : ⟨0, 3, .event⟩ ∈ panelRows := by decide
  have second : ⟨1, 3, .event⟩ ∈ panelRows := by decide
  refine ⟨build_panel, first, second, extract_panel_click, ?_⟩
  rcases extract_of_same_callback build_panel first second sampleRule with
    ⟨-, nothing, -⟩ | ⟨b, c, found, found', edges, -, -, -, subsumed⟩
  · rw [extract_panel_click] at nothing
    contradiction
  · obtain rfl := Option.some.inj (extract_panel_click.symm.trans found)
    exact ⟨c, found', edges.symm, (subsumed 7 (by decide) (by decide)).mp (by decide)⟩

theorem extract_eq_none_iff (built : build nodes rows trackFind = .ok g)
    (fires : ⟨control, callback, .event⟩ ∈ rows) (rule : ExtractionRule) :
    g.extract rule control callback = none ↔
      (∀ x, ⟨x, callback, .event⟩ ∈ rows → x = control) ∧ ¬ g.LeadsOn rule callback := by
  have edges := behaviorEdges_of_fires built fires rule
  constructor
  · intro nothing
    refine ⟨fun x row => ?_, fun leads => ?_⟩
    · by_contra apart
      have mem : ⟨x, callback, .event⟩ ∈ g.behaviorEdges rule control callback := by
        rw [edges]
        exact trigger_mem_reachedEdges built row
      obtain ⟨b, found⟩ := exists_extract mem fun same => apart (congrArg Edge.source same)
      cases nothing.symm.trans found
    · obtain ⟨b, found⟩ := exists_extract_of_leadsOn leads control
      cases nothing.symm.trans found
  · rintro ⟨single, alone⟩
    by_contra found
    obtain ⟨b, found⟩ := Option.ne_none_iff_exists'.mp found
    obtain ⟨e, mem, apart⟩ := exists_beyond_trigger found
    rw [edges] at mem
    have back : e.Fires callback := by
      by_contra beyond
      exact alone (exists_beyond_iff.mp ⟨e, mem, beyond⟩)
    -- A second edge would fire the callback from a second control.
    have own := single e.source (fires_mem_rows built mem back)
    exact apart (Edge.ext own back.2 back.1)

/-- What is found always has more than triggers if and only if no other control fires the callback
or the callback leads on. Nothing is found exactly where no other control fires it and it does not
lead on. -/
theorem trivial_discarded_iff (built : build nodes rows trackFind = .ok g)
    (fires : ⟨control, callback, .event⟩ ∈ rows) (rule : ExtractionRule) :
    ((∀ b, g.extract rule control callback = some b → ∃ e ∈ b.edges, ¬ e.Fires callback) ↔
      (∀ x, ⟨x, callback, .event⟩ ∈ rows → x = control) ∨ g.LeadsOn rule callback) ∧
    (g.extract rule control callback = none ↔
      (∀ x, ⟨x, callback, .event⟩ ∈ rows → x = control) ∧ ¬ g.LeadsOn rule callback) := by
  have discarded := extract_eq_none_iff built fires rule
  have edges := behaviorEdges_of_fires built fires rule
  refine ⟨⟨fun beyond => ?_, fun either b found => ?_⟩, discarded⟩
  · cases found : g.extract rule control callback with
    | none => exact Or.inl (discarded.mp found).1
    | some b =>
      have further := beyond b found
      rw [edges_of_extract found, edges] at further
      exact Or.inr (exists_beyond_iff.mp further)
  · rw [edges_of_extract found, edges]
    refine exists_beyond_iff.mpr (either.elim (fun single => ?_) fun leads => leads)
    by_contra alone
    rw [discarded.mpr ⟨single, alone⟩] at found
    contradiction

theorem leadsOn_panel : panel.LeadsOn sampleRule 3 :=
  Or.inl ⟨⟨3, 6, .call⟩, rfl, ⟨by decide, by decide, fun _ _ inner => absurd inner (by decide)⟩,
    by decide⟩

theorem closes_alone_panel :
    (∀ x, ⟨x, 5, .event⟩ ∈ panelRows → x = 2) ∧ ¬ panel.LeadsOn sampleRule 5 := by
  refine ⟨by simp [panelRows], ?_⟩
  rintro (⟨e, source, ⟨adjacent, -⟩, -⟩ | ⟨user, listed⟩)
  · have idle : panel.neighbors 5 = [] := rfl
    rw [source, idle] at adjacent
    exact List.not_mem_nil adjacent
  · have row := ((mem_controlEdges_build build_panel).mp listed).1
    simp [panelRows] at row

theorem trivial_discarded_iff_panel :
    build panelNodes panelRows false = .ok panel ∧ ⟨0, 3, .event⟩ ∈ panelRows ∧
      ⟨2, 5, .event⟩ ∈ panelRows ∧ (∃ e ∈ panelClick.edges, ¬ e.Fires 3) ∧
      panel.extract sampleRule 2 5 = none := by
  have click : ⟨0, 3, .event⟩ ∈ panelRows := by decide
  have close : ⟨2, 5, .event⟩ ∈ panelRows := by decide
  have beyond := (trivial_discarded_iff build_panel click sampleRule).1.mpr (Or.inr leadsOn_panel)
  have discarded := (trivial_discarded_iff build_panel close sampleRule).2.mpr closes_alone_panel
  exact ⟨build_panel, click, close, beyond _ extract_panel_click, discarded⟩

def twinNodes : List Node :=
  [.widget "Button" "main.xml" 7, .widget "Label" "main.xml" 8,
    .method "<app.Main: void onClick()>" "-"]

def twinRows : List Edge := [⟨0, 2, .event⟩, ⟨1, 2, .event⟩]

def twin : Graph := twinRows.foldl (enter false) (start twinNodes twinRows)

/-- The trigger of the other control is counted as if it were a step further. -/
theorem trivial_kept_twin :
    build twinNodes twinRows false = .ok twin ∧ ⟨0, 2, .event⟩ ∈ twinRows ∧
      ∃ b, twin.extract sampleRule 0 2 = some b ∧ ∀ e ∈ b.edges, e.Fires 2 := by
  have kept : twin.extract sampleRule 0 2 =
      some (.ofEdges 0 2 (.ofList twinRows) (.ofList [1])) := by
    rw [extract_eq_gather 1 (by decide +kernel)]
    decide +kernel
  have triggers : ∀ e ∈ (SortedSet.ofList twinRows).toList, e.Fires 2 := by decide
  exact ⟨rfl, by decide, _, kept, triggers⟩

end Graph
end HandlerGraph
