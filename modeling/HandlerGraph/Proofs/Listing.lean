import HandlerGraph.Proofs.Bounds
import HandlerGraph.Proofs.Trigger

/-! The list of all behaviors. Each event row gives at most one behavior, however often the table
repeats it, and it gives one exactly where extraction finds something. Behaviors are listed by their
controls, and those of one control in the order in which their rows first come up. Nothing but the
table shows in them: their edges are rows, `hold` rows turned around. -/
namespace HandlerGraph

theorem idxOf_lt_of_filterMap {α β : Type} [DecidableEq α] [DecidableEq β] {f : α → Option β}
    {x y : α} {c d : β} (first : ∀ a, f a = some c ↔ a = x) (second : ∀ a, f a = some d ↔ a = y)
    {l : List α} (h : (l.filterMap f).idxOf c < (l.filterMap f).idxOf d) :
    l.idxOf x < l.idxOf y := by
  induction l with
  | nil => simp at h
  | cons a l ih =>
    cases image : f a with
    | none =>
      have apart : a ≠ x := by
        rintro rfl
        simp [(first a).mpr rfl] at image
      have apart' : a ≠ y := by
        rintro rfl
        simp [(second a).mpr rfl] at image
      rw [List.filterMap_cons_none image] at h
      rw [List.idxOf_cons_ne _ apart, List.idxOf_cons_ne _ apart']
      exact Nat.succ_lt_succ (ih h)
    | some e =>
      have here : e = c ↔ a = x := by rw [← first a, image, Option.some.injEq]
      have here' : e = d ↔ a = y := by rw [← second a, image, Option.some.injEq]
      rw [List.filterMap_cons_some image, List.idxOf_cons, List.idxOf_cons] at h
      rw [List.idxOf_cons, List.idxOf_cons]
      simp only [beq_iff_eq, here, here', cond_eq_ite] at h ⊢
      split at h <;> split at h <;> simp_all

/-- Each entry is kept where it first comes up. -/
theorem pairwise_idxOf_eraseDups {α : Type} [DecidableEq α] (l : List α) :
    l.eraseDups.Pairwise fun a b => l.idxOf a < l.idxOf b := by
  cases l with
  | nil => exact List.Pairwise.nil
  | cons a l =>
    have apart : ∀ b ∈ (l.filter fun b => !b == a).eraseDups, b ≠ a := by
      intro b mem
      simpa using (List.mem_filter.mp (List.mem_eraseDups.mp mem)).2
    have single : ∀ b ≠ a, ∀ x, Option.guard (fun b => !b == a) x = some b ↔ x = b := by
      intro b other x
      rw [Option.guard_eq_some_iff]
      refine and_iff_left_of_imp ?_
      rintro rfl
      simpa using other
    rw [List.eraseDups_cons, List.pairwise_cons]
    refine ⟨fun b mem => ?_, (pairwise_idxOf_eraseDups _).imp_of_mem fun {b c} memb memc less => ?_⟩
    · rw [List.idxOf_cons_self, List.idxOf_cons_ne _ (apart b mem).symm]
      exact Nat.succ_pos _
    · have otherb := apart b memb
      have otherc := apart c memc
      rw [← List.filterMap_eq_filter] at less
      rw [List.idxOf_cons_ne _ otherb.symm, List.idxOf_cons_ne _ otherc.symm]
      exact Nat.succ_lt_succ (idxOf_lt_of_filterMap (single b otherb) (single c otherc) less)
termination_by l.length
decreasing_by exact Nat.lt_succ_of_le (List.length_filter_le _ l)

theorem nodup_eraseDups {α : Type} [DecidableEq α] (l : List α) : l.eraseDups.Nodup := by
  refine (pairwise_idxOf_eraseDups l).imp ?_
  rintro a _ less rfl
  exact Nat.lt_irrefl _ less

def RawBehavior.trigger (b : RawBehavior) : Edge := ⟨b.control, b.callback, .event⟩

/-- By the control, then by where the table first has the row. -/
def Edge.ListedBefore (rows : List Edge) (e f : Edge) : Prop :=
  e.source < f.source ∨ e.source = f.source ∧ rows.idxOf e < rows.idxOf f

namespace Graph
variable {g : Graph} {rule : ExtractionRule} {trackFind : Bool} {nodes : List Node}
  {rows : List Edge} {control callback : Nat} {b : RawBehavior}

def firedBy (control : Nat) (row : Edge) : Option Nat :=
  if row.relation = .event ∧ row.source = control then some row.target else none

theorem firedBy_eq_some {row : Edge} :
    firedBy control row = some callback ↔ row = ⟨control, callback, .event⟩ := by
  obtain ⟨source, target, relation⟩ := row
  simp [firedBy]
  grind

theorem targets_entriesOf (trackFind : Bool) (rows : List Edge) (control : Nat) :
    ((entriesOf trackFind rows control).filter (·.relation = .event)).map Neighbor.target =
      rows.filterMap (firedBy control) := by
  simp only [entriesOf, ← List.filterMap_eq_filter, ← List.filterMap_eq_map',
    List.filterMap_filterMap]
  -- Rows that enter elsewhere or not at all are `hold` and `find` rows, which are no events.
  refine congrArg (List.filterMap · rows) (funext fun row => ?_)
  obtain ⟨source, target, relation⟩ := row
  cases relation with
  | hold => by_cases same : target = control <;> simp [Edge.entry, firedBy, Option.guard, same]
  | find =>
    by_cases same : source = control <;> cases trackFind <;>
      simp [Edge.entry, firedBy, Option.guard, same]
  | _ => by_cases same : source = control <;> simp [Edge.entry, firedBy, Option.guard, same]

theorem eventCallbacks_build (built : build nodes rows trackFind = .ok g) (control : Nat) :
    g.eventCallbacks control = (rows.filterMap (firedBy control)).eraseDups := by
  rw [eventCallbacks, neighbors_build built, targets_entriesOf]

theorem mem_eventCallbacks_build (built : build nodes rows trackFind = .ok g) :
    callback ∈ g.eventCallbacks control ↔ ⟨control, callback, .event⟩ ∈ rows := by
  rw [eventCallbacks_build built, List.mem_eraseDups, List.mem_filterMap]
  simp only [firedBy_eq_some, exists_eq_right]

theorem pairwise_eventCallbacks (built : build nodes rows trackFind = .ok g) (control : Nat) :
    (g.eventCallbacks control).Pairwise fun c d =>
      rows.idxOf ⟨control, c, .event⟩ < rows.idxOf ⟨control, d, .event⟩ := by
  rw [eventCallbacks_build built]
  refine (pairwise_idxOf_eraseDups _).imp fun less => ?_
  exact idxOf_lt_of_filterMap (fun _ => firedBy_eq_some) (fun _ => firedBy_eq_some) less

theorem trigger_of_extract (h : g.extract rule control callback = some b) :
    b.trigger = ⟨control, callback, .event⟩ := by
  rw [extract_some h]
  rfl

theorem pairwise_extractAll (built : build nodes rows trackFind = .ok g) (rule : ExtractionRule) :
    (g.extractAll rule).Pairwise fun b c => b.trigger.ListedBefore rows c.trigger := by
  refine List.pairwise_flatMap.mpr ⟨fun control _ => ?_, ?_⟩
  · refine List.pairwise_filterMap.mpr ((pairwise_eventCallbacks built control).imp ?_)
    intro callback later less b found c found'
    rw [trigger_of_extract found, trigger_of_extract found']
    exact Or.inr ⟨rfl, less⟩
  · refine g.actingControls.ascending.imp fun {x y} less b hb c hc => ?_
    obtain ⟨_, _, found⟩ := List.mem_filterMap.mp hb
    obtain ⟨_, _, found'⟩ := List.mem_filterMap.mp hc
    rw [trigger_of_extract found, trigger_of_extract found']
    exact Or.inl less

theorem mem_extractAll_iff (built : build nodes rows trackFind = .ok g) : b ∈ g.extractAll rule ↔
    b.trigger ∈ rows ∧ g.extract rule b.control b.callback = some b := by
  constructor
  · intro listed
    obtain ⟨control, _, inner⟩ := List.mem_flatMap.mp listed
    obtain ⟨callback, fires, found⟩ := List.mem_filterMap.mp inner
    rw [trigger_of_extract found]
    exact ⟨(mem_eventCallbacks_build built).mp fires, extract_of_mem_extractAll listed⟩
  · rintro ⟨row, found⟩
    refine List.mem_flatMap.mpr ⟨b.control, ?_, List.mem_filterMap.mpr ⟨b.callback, ?_, found⟩⟩
    · exact (mem_actingControls_build built).mpr ⟨b.trigger, row, rfl, rfl⟩
    · exact (mem_eventCallbacks_build built).mpr row

/-- The triggers of the listed behaviors are the event rows that have a behavior, each once, by
control and then by first occurrence; and every listed behavior is made of rows. -/
theorem extractAll_spec (built : build nodes rows trackFind = .ok g) (rule : ExtractionRule) :
    ((g.extractAll rule).map RawBehavior.trigger).Pairwise (Edge.ListedBefore rows) ∧
    ((g.extractAll rule).map RawBehavior.trigger).Nodup ∧
    (∀ e, e ∈ (g.extractAll rule).map RawBehavior.trigger ↔
      e ∈ rows ∧ e.relation = .event ∧ g.extract rule e.source e.target ≠ none) ∧
    ∀ b ∈ g.extractAll rule, g.extract rule b.control b.callback = some b ∧
      b.trigger ∈ b.edges ∧ 2 ≤ b.edges.size ∧
      (∀ e ∈ b.edges, e.source < nodes.length ∧ e.target < nodes.length ∧
        e ∈ g.outgoing e.source ∧ e ∈ rows.filterMap (walked trackFind)) ∧
      (∀ x ∈ b.subsumed, x < nodes.length) ∧ ¬ b.control ∈ b.subsumed := by
  have ordered := List.pairwise_map.mpr (pairwise_extractAll built rule)
  refine ⟨ordered, ordered.imp ?_, fun e => ?_, fun b listed => ?_⟩
  · rintro e f (less | ⟨_, less⟩) rfl
    · exact Nat.lt_irrefl _ less
    · exact Nat.lt_irrefl _ less
  · rw [List.mem_map]
    constructor
    · rintro ⟨b, listed, rfl⟩
      obtain ⟨row, found⟩ := (mem_extractAll_iff built).mp listed
      refine ⟨row, rfl, fun nothing => ?_⟩
      cases found.symm.trans nothing
    · rintro ⟨row, event, something⟩
      obtain ⟨b, found⟩ := Option.ne_none_iff_exists'.mp something
      have trigger : b.trigger = e := by
        rw [trigger_of_extract found, ← event]
      refine ⟨b, (mem_extractAll_iff built).mpr ⟨trigger ▸ row, ?_⟩, trigger⟩
      subst trigger
      exact found
  · have found := extract_of_mem_extractAll listed
    refine ⟨found, trigger_mem_edges listed, one_lt_of_extract found, fun e mem => ?_,
      fun x mem => (inside_of_mem_subsumed built listed mem).2,
      fun own => (inside_of_mem_subsumed built listed own).1 rfl⟩
    obtain ⟨source, target⟩ := inside_of_mem_extractAll built listed mem
    have leaves := mem_outgoing_of_mem_extractAll built listed mem
    exact ⟨source, target, leaves, mem_rows_of_mem_outgoing built leaves⟩

/-- The button's touch comes before its click, as in the table, although the table has the touch
again later. The menu comes first there and is not listed, since nothing comes of closing it. -/
theorem extractAll_spec_panel :
    build panelNodes panelRows false = .ok panel ∧
      ((panel.extractAll sampleRule).map RawBehavior.trigger).Pairwise
        (Edge.ListedBefore panelRows) ∧
      ⟨0, 3, .event⟩ ∈ (panel.extractAll sampleRule).map RawBehavior.trigger ∧
      ⟨0, 4, .event⟩ ∈ (panel.extractAll sampleRule).map RawBehavior.trigger ∧
      Edge.ListedBefore panelRows ⟨0, 4, .event⟩ ⟨0, 3, .event⟩ ∧
      ¬ ⟨2, 5, .event⟩ ∈ (panel.extractAll sampleRule).map RawBehavior.trigger ∧
      ∀ e ∈ panelClick.edges, e ∈ panelRows.filterMap (walked false) := by
  obtain ⟨ordered, -, triggers, formed⟩ := extractAll_spec build_panel sampleRule
  have click : panel.extract sampleRule 0 3 ≠ none := by simp [extract_panel_click]
  have touch : panel.extract sampleRule 0 4 ≠ none := by
    intro nothing
    have single := ((extract_eq_none_iff build_panel (by decide) sampleRule).mp nothing).1
    exact absurd (single 1 (by decide)) (by decide)
  have close : panel.extract sampleRule 2 5 = none :=
    (extract_eq_none_iff build_panel (by decide) sampleRule).mpr closes_alone_panel
  have listed : panelClick ∈ panel.extractAll sampleRule :=
    (mem_extractAll_iff build_panel).mpr ⟨by decide, extract_panel_click⟩
  refine ⟨build_panel, ordered, (triggers _).mpr ⟨by decide, rfl, click⟩,
    (triggers _).mpr ⟨by decide, rfl, touch⟩, Or.inr ⟨rfl, by decide⟩,
    fun mem => ((triggers _).mp mem).2.2 close, fun e mem => ?_⟩
  exact ((formed panelClick listed).2.2.2.1 e mem).2.2.2

end Graph
end HandlerGraph
