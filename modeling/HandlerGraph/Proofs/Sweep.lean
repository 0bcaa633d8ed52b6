import HandlerGraph.Proofs.SwitchNoise

/-! A sweep leaves nothing out. Whatever leaves a visited node is marked and leads to a node that is
visited, waits on the stack or is a taken callee, so once the stack is empty the visited nodes are
closed under paths that avoid taken callees. The visited nodes of one case are kept for the next; a
case that starts among them finds its whole way marked already. -/
namespace HandlerGraph

namespace Sweep
variable {raw : SortedSet Edge} {kept : SortedSet Nat} {s : Sweep} {id : Nat} {rest : List Nat}

def Closed (raw : SortedSet Edge) (kept : SortedSet Nat) (s : Sweep) : Prop :=
  ∀ e ∈ raw, e.source ∈ s.visited →
    e ∈ s.removed ∧ (e.target ∈ s.visited ∨ e.target ∈ kept ∨ e.target ∈ s.stack)

theorem visited_or_pushed (visited : SortedSet Nat) {e : Edge} (mem : e ∈ raw) :
    e.target ∈ visited ∨ e.target ∈ pushed raw visited e.source := by
  by_cases seen : e.target ∈ visited
  · exact Or.inl seen
  · exact Or.inr (mem_pushed.mpr ⟨⟨e, mem, rfl, rfl⟩, seen⟩)

theorem Closed.pop (top : s.stack = id :: rest) (closed : Closed raw kept s) :
    Closed raw kept (pop raw kept s id rest) := by
  have before : ∀ e ∈ raw, e.source ∈ s.visited → e ∈ s.removed ∧
      (e.target ∈ s.visited ∨ e.target ∈ kept ∨ e.target = id ∨ e.target ∈ rest) := by
    intro e mem seen
    have onward := closed e mem seen
    rwa [top, List.mem_cons] at onward
  by_cases stop : id ∈ kept
  · rw [pop_of_kept stop]
    intro e mem seen
    obtain ⟨marked, onward⟩ := before e mem seen
    refine ⟨marked, ?_⟩
    rcases onward with visited | taken | rfl | waiting
    · exact Or.inl visited
    · exact Or.inr (Or.inl taken)
    · exact Or.inr (Or.inl stop)
    · exact Or.inr (Or.inr waiting)
  · rw [pop_of_free stop]
    intro e mem seen
    simp only [SortedSet.mem_addAll, List.mem_append, List.mem_reverse]
    rcases SortedSet.mem_insert.mp seen with rfl | seen
    · refine ⟨Or.inl (mem_leaving.mpr ⟨mem, rfl⟩), ?_⟩
      rcases visited_or_pushed (s.visited.insert e.source) mem with visited | new
      · exact Or.inl visited
      · exact Or.inr (Or.inr (Or.inl new))
    · obtain ⟨marked, onward⟩ := before e mem seen
      refine ⟨Or.inr marked, ?_⟩
      rw [SortedSet.mem_insert]
      rcases onward with visited | taken | same | waiting
      · exact Or.inl (Or.inr visited)
      · exact Or.inr (Or.inl taken)
      · exact Or.inl (Or.inl same)
      · exact Or.inr (Or.inr (Or.inr waiting))

theorem Closed.run (closed : Closed raw kept s) : Closed raw kept (run raw kept s) := by
  fun_induction Sweep.run raw kept s with
  | case1 s empty => exact closed
  | case2 s id rest top ih => exact ih (closed.pop top)

theorem stack_run (raw : SortedSet Edge) (kept : SortedSet Nat) (s : Sweep) :
    (run raw kept s).stack = [] := by
  fun_induction Sweep.run raw kept s with
  | case1 s empty => exact empty
  | case2 s id rest top ih => exact ih

theorem visited_pop {x : Nat} (h : x ∈ s.visited) : x ∈ (pop raw kept s id rest).visited := by
  by_cases stop : id ∈ kept
  · rw [pop_of_kept stop]
    exact h
  · rw [pop_of_free stop]
    exact SortedSet.mem_insert.mpr (Or.inr h)

theorem visited_run {x : Nat} (h : x ∈ s.visited) : x ∈ (run raw kept s).visited := by
  fun_induction Sweep.run raw kept s with
  | case1 s empty => exact h
  | case2 s id rest top ih => exact ih (visited_pop h)

theorem visited_run_of_mem_stack {x : Nat} (h : x ∈ s.stack) :
    x ∈ (run raw kept s).visited ∨ x ∈ kept := by
  fun_induction Sweep.run raw kept s with
  | case1 s empty => exact absurd (empty ▸ h) List.not_mem_nil
  | case2 s id rest top ih =>
    rw [top] at h
    rcases List.mem_cons.mp h with rfl | waiting
    · by_cases stop : x ∈ kept
      · exact Or.inr stop
      · refine Or.inl (visited_run ?_)
        rw [pop_of_free stop]
        exact SortedSet.mem_insert.mpr (Or.inl rfl)
    · refine ih ?_
      by_cases stop : id ∈ kept
      · rw [pop_of_kept stop]
        exact waiting
      · rw [pop_of_free stop]
        exact List.mem_append_right _ waiting

structure Swept (raw : SortedSet Edge) (kept : SortedSet Nat) (struck : List Edge) (s : Sweep) :
    Prop where
  idle : s.stack = []
  closed : Closed raw kept s
  targets : ∀ c ∈ struck, c.target ∈ s.visited ∨ c.target ∈ kept

theorem Swept.start (raw : SortedSet Edge) (kept : SortedSet Nat) :
    Swept raw kept [] ⟨.empty, [], .empty⟩ where
  idle := rfl
  closed _ _ seen := absurd seen SortedSet.not_mem_empty
  targets _ listed := absurd listed List.not_mem_nil

theorem Swept.strike {struck : List Edge} (swept : Swept raw kept struck s) (c : Edge) :
    Swept raw kept (c :: struck) (strike raw kept s c) where
  idle := stack_run _ _ _
  closed := by
    refine Closed.run fun e mem seen => ?_
    obtain ⟨marked, onward⟩ := swept.closed e mem seen
    rw [swept.idle] at onward
    refine ⟨SortedSet.mem_insert.mpr (Or.inr marked), onward.imp_right fun onward => ?_⟩
    exact Or.inl (onward.resolve_right List.not_mem_nil)
  targets d listed := by
    rcases List.mem_cons.mp listed with rfl | listed
    · exact visited_run_of_mem_stack List.mem_cons_self
    · exact (swept.targets d listed).imp_left fun seen => visited_run seen

theorem Swept.strikes {struck : List Edge} (swept : Swept raw kept struck s) (cases : List Edge) :
    Swept raw kept (cases.reverse ++ struck) (cases.foldl (Sweep.strike raw kept) s) := by
  induction cases generalizing struck s with
  | nil => exact swept
  | cons c cases ih =>
    rw [List.reverse_cons, List.append_assoc]
    exact ih (swept.strike c)

theorem Swept.visited_of_open {struck : List Edge} (swept : Swept raw kept struck s) {c : Edge}
    (listed : c ∈ struck) (path : Open raw kept c.target id) : id ∈ s.visited := by
  induction path with
  | here free => exact (swept.targets c listed).resolve_right free
  | step path mem free ih =>
    obtain ⟨-, onward⟩ := swept.closed _ mem ih
    rw [swept.idle] at onward
    rcases onward with visited | taken | waiting
    · exact visited
    · exact absurd taken free
    · exact absurd waiting List.not_mem_nil

end Sweep

namespace Graph
variable {g : Graph} {coverage : Coverage} {resources : Resources} {raw : RawBehavior}
  {base : SortedSet Edge}

/-- Switch noise is the untaken cases and whatever leaves a node that an open path reaches from one
of their targets. -/
theorem mem_removed_switchNoise {e : Edge} :
    e ∈ (g.switchNoise coverage resources raw base).removed ↔
      e ∈ untakenCases (g.taken coverage resources raw) base ∨
        e ∈ raw.edges ∧ ∃ c ∈ untakenCases (g.taken coverage resources raw) base,
          Sweep.Open raw.edges (g.taken coverage resources raw).callees c.target e.source := by
  refine ⟨untaken_or_open_of_mem_removed, ?_⟩
  rintro (untaken | ⟨mem, c, untaken, path⟩)
  · exact mem_removed_of_untaken untaken
  · rw [removed_switchNoise]
    have swept := (Sweep.Swept.start raw.edges (g.taken coverage resources raw).callees).strikes
      (untakenCases (g.taken coverage resources raw) base)
    have listed := List.mem_append_left [] (List.mem_reverse.mpr untaken)
    exact (swept.closed e mem (swept.visited_of_open listed path)).1

end Graph
end HandlerGraph
