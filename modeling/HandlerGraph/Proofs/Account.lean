import HandlerGraph.Proofs.Reduction

/-! Whether a report accounts for the edges that reduction dropped. What is gone is an event of
another control, a dead leaf or switch noise. Switch noise is counted by what is really gone, but
dead leaves are counted before the edges of the control itself come back. So the numbers add up
exactly if no edge of the control leads to a dead leaf, and otherwise the report counts such an edge
as dropped although it is still there. -/
namespace HandlerGraph

theorem SortedSet.size_filter_add {α : Type} [Ordered α] (s : SortedSet α) (p : α → Bool) :
    (s.filter p).size + (s.filter fun a => !p a).size = s.size :=
  (List.length_eq_length_filter_add p).symm

def RawBehavior.foreignEvents (raw : RawBehavior) : SortedSet Edge :=
  raw.edges.filter fun e => decide (e.relation = .event ∧ e.source ≠ raw.control)

namespace Graph

def ownLeaves (g : Graph) (rule : ReductionRule) (raw : RawBehavior) : SortedSet Edge :=
  (g.leaves rule raw).filter fun e => decide (e.source = raw.control)

variable {g : Graph} {aux : Auxiliary} {rule : ReductionRule} {time : Seconds} {raw : RawBehavior}

theorem mem_ownLeaves {e : Edge} : e ∈ g.ownLeaves rule raw ↔
    e ∈ g.leaves rule raw ∧ e.source = raw.control := by
  simp [ownLeaves]

theorem mem_base_of_mem_leaves {e : Edge} (h : e ∈ g.leaves rule raw) :
    e ∈ raw.edges ∧ e.relation ≠ .event := RawBehavior.mem_base.mp (mem_leaves.mp h).2.1

def dropped (g : Graph) (rule : ReductionRule) (raw : RawBehavior) : SortedSet Edge :=
  raw.edges.filter fun e => !decide (e ∈ g.surviving rule raw)

theorem mem_dropped {e : Edge} : e ∈ g.dropped rule raw ↔ e ∈ raw.edges ∧
    e.source ≠ raw.control ∧ (e.relation = .event ∨ e ∈ g.leaves rule raw) := by
  rw [dropped, SortedSet.mem_filter, Bool.not_eq_true', decide_eq_false_iff_not, mem_surviving]
  grind

theorem size_surviving_add_dropped :
    (g.surviving rule raw).size + (g.dropped rule raw).size = raw.edges.size := by
  have there : raw.edges.filter (fun e => decide (e ∈ g.surviving rule raw)) =
      g.surviving rule raw := by
    refine SortedSet.ext_mem fun e => ?_
    rw [SortedSet.mem_filter, decide_eq_true_eq]
    exact and_iff_right_of_imp fun survives => (mem_surviving.mp survives).1
  have both := raw.edges.size_filter_add fun e => decide (e ∈ g.surviving rule raw)
  rwa [there] at both

theorem dropped_events : (g.dropped rule raw).filter (fun e => decide (e.relation = .event)) =
    raw.foreignEvents := by
  refine SortedSet.ext_mem fun e => ?_
  rw [RawBehavior.foreignEvents, SortedSet.mem_filter, SortedSet.mem_filter, mem_dropped]
  simp only [decide_eq_true_eq]
  grind

theorem dropped_leaves : (g.dropped rule raw).filter (fun e => !decide (e.relation = .event)) =
    (g.leaves rule raw).filter fun e => !decide (e.source = raw.control) := by
  refine SortedSet.ext_mem fun e => ?_
  have leaf : e ∈ g.leaves rule raw → e ∈ raw.edges ∧ e.relation ≠ .event := mem_base_of_mem_leaves
  rw [SortedSet.mem_filter, SortedSet.mem_filter, mem_dropped]
  simp only [Bool.not_eq_true', decide_eq_false_iff_not]
  grind

theorem size_surviving_add : (g.surviving rule raw).size + (g.leaves rule raw).size +
    raw.foreignEvents.size = raw.edges.size + (g.ownLeaves rule raw).size := by
  have gone := (g.dropped rule raw).size_filter_add fun e => decide (e.relation = .event)
  rw [dropped_events, dropped_leaves] at gone
  have leaves := (g.leaves rule raw).size_filter_add fun e => decide (e.source = raw.control)
  have total : (g.surviving rule raw).size + (g.dropped rule raw).size = raw.edges.size :=
    size_surviving_add_dropped
  rw [ownLeaves]
  omega

theorem deadLeaves_strip :
    (g.strip aux rule time raw).report.deadLeaves.getD 0 = (g.leaves rule raw).size := by
  cases looked : rule.removeLeaves with
  | true => simp [strip, leaves, looked, RawBehavior.base]
  | false => simp [strip, leaves, looked, SortedSet.size, SortedSet.empty]

theorem switchNoise_add_size : (g.strip aux rule time raw).size.edge +
    (g.strip aux rule time raw).report.switchNoise = (g.surviving rule raw).size := by
  have fewer : (g.keptEdges aux rule raw).size ≤ (g.surviving rule raw).size :=
    List.length_filter_le ..
  exact Nat.add_sub_cancel' fewer

theorem account_strip (g : Graph) (aux : Auxiliary) (rule : ReductionRule) (time : Seconds)
    (raw : RawBehavior) : (g.strip aux rule time raw).size.edge +
    (g.strip aux rule time raw).report.switchNoise +
    (g.strip aux rule time raw).report.deadLeaves.getD 0 + raw.foreignEvents.size =
      raw.edges.size + (g.ownLeaves rule raw).size := by
  rw [switchNoise_add_size, deadLeaves_strip]
  exact size_surviving_add

theorem ownLeaves_eq_zero_iff : (g.ownLeaves rule raw).size = 0 ↔
    (rule.removeLeaves = true → ∀ e ∈ g.deadLeaves raw.base, e.source ≠ raw.control) := by
  have empty : (g.ownLeaves rule raw).size = 0 ↔ ∀ e, ¬ e ∈ g.ownLeaves rule raw := by
    rw [SortedSet.size, List.length_eq_zero_iff, List.eq_nil_iff_forall_not_mem]
    rfl
  simp only [empty, mem_ownLeaves, leaves]
  cases rule.removeLeaves with
  | true => simp
  | false => simp

/-- The report adds up if and only if no edge of the control itself leads to a dead leaf: such an
edge is counted and stays. -/
theorem report_accounts_iff (g : Graph) (aux : Auxiliary) (removeLeaves : Bool) (time : Seconds)
    (raw : RawBehavior) (counted : raw.size = Size.of raw.edges) :
    ∃ d, g.reduce aux ⟨removeLeaves, none⟩ time raw = some d ∧ (∀ e ∈ d.edges, e ∈ raw.edges) ∧
      raw.size.edge + (g.ownLeaves ⟨removeLeaves, none⟩ raw).size =
        d.size.edge + d.report.switchNoise + d.report.deadLeaves.getD 0 + raw.foreignEvents.size ∧
      (raw.size.edge =
          d.size.edge + d.report.switchNoise + d.report.deadLeaves.getD 0 + raw.foreignEvents.size ↔
        (removeLeaves = true → ∀ e ∈ g.deadLeaves raw.base, e.source ≠ raw.control)) := by
  have account := account_strip g aux ⟨removeLeaves, none⟩ time raw
  have own : (g.ownLeaves ⟨removeLeaves, none⟩ raw).size = 0 ↔
      (removeLeaves = true → ∀ e ∈ g.deadLeaves raw.base, e.source ≠ raw.control) :=
    ownLeaves_eq_zero_iff
  have size : raw.size.edge = raw.edges.size := congrArg Size.edge counted
  refine ⟨_, rfl, fun e => mem_raw_of_mem_kept, ?_, ?_⟩
  · rw [size]
    exact account.symm
  · rw [size, account, ← own]
    omega

def idleNodes : List Node :=
  [.widget "Button" "main.xml" 7, .method "<app.Main: void onClick()>" "-",
    .method "<app.Main: void show()>" "-", .widget "Label" "main.xml" 8]

def idleRows : List Edge := [⟨0, 1, .event⟩, ⟨1, 2, .call⟩, ⟨0, 2, .use⟩, ⟨3, 1, .event⟩]

def idle : Graph := idleRows.foldl (enter false) (start idleNodes idleRows)

def idleBehavior : RawBehavior :=
  .ofEdges 0 1 (.ofList [⟨0, 1, .event⟩, ⟨1, 2, .call⟩, ⟨3, 1, .event⟩]) .empty

/-- Of three edges one stays, one is a dead leaf and one the event of another control. -/
theorem report_accounts_iff_idle :
    idleBehavior.size = Size.of idleBehavior.edges ∧
      (∀ e ∈ idle.deadLeaves idleBehavior.base, e.source ≠ idleBehavior.control) ∧
      ∃ d, idle.reduce .empty ⟨true, none⟩ 0 idleBehavior = some d ∧
        3 = d.size.edge + d.report.switchNoise + d.report.deadLeaves.getD 0 + 1 := by
  have apart : ∀ e ∈ (idle.deadLeaves idleBehavior.base).toList,
      e.source ≠ idleBehavior.control := by decide +kernel
  obtain ⟨d, reduced, -, -, accounts⟩ :=
    report_accounts_iff idle .empty true 0 idleBehavior rfl
  exact ⟨rfl, apart, d, reduced, accounts.mpr fun _ => apart⟩

def idleWhole : RawBehavior := .ofEdges 0 1 (.ofList idleRows) .empty

/-- With that edge the report names two dead leaves, of which one is still there, and so accounts
for five edges where there were four. -/
theorem report_overcounts_idle :
    idleWhole.size = Size.of idleWhole.edges ∧ idleWhole.size.edge = 4 ∧
      ∃ d, idle.reduce .empty ⟨true, none⟩ 0 idleWhole = some d ∧ d.report.deadLeaves = some 2 ∧
        ⟨0, 2, .use⟩ ∈ d.edges ∧
        d.size.edge + d.report.switchNoise + d.report.deadLeaves.getD 0 +
          idleWhole.foreignEvents.size = 5 := by
  refine ⟨rfl, by decide, _, rfl, ?_, ?_, ?_⟩
  all_goals decide +kernel

end Graph
end HandlerGraph
