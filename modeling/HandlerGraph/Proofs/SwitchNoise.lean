import HandlerGraph.Proofs.TakenCases

/-! What a sweep removes. Every untaken case is removed. Any other removed edge leaves a node that a
path along the edges of the behavior reaches from the target of an untaken case, and no node of that
path is a taken callee. -/
namespace HandlerGraph

/-- Paths along `raw` from `first` whose nodes, both ends included, are not in `kept`. -/
inductive Sweep.Open (raw : SortedSet Edge) (kept : SortedSet Nat) (first : Nat) : Nat → Prop
  | here (free : ¬ first ∈ kept) : Open raw kept first first
  | step {e : Edge} (path : Open raw kept first e.source) (mem : e ∈ raw)
      (free : ¬ e.target ∈ kept) : Open raw kept first e.target

namespace Sweep
variable {raw : SortedSet Edge} {kept : SortedSet Nat}

theorem Open.last {first id : Nat} (h : Open raw kept first id) :
    id = first ∨ ∃ e ∈ raw, e.target = id := by
  cases h with
  | here _ => exact Or.inl rfl
  | step _ mem _ => exact Or.inr ⟨_, mem, rfl⟩

theorem mem_leaving {id : Nat} {e : Edge} : e ∈ leaving raw id ↔ e ∈ raw ∧ e.source = id := by
  simp only [leaving, List.mem_filter, decide_eq_true_eq, SortedSet.mem_def]

def pushed (raw : SortedSet Edge) (visited : SortedSet Nat) (id : Nat) : List Nat :=
  ((leaving raw id).map Edge.target).filter fun t => decide (¬ t ∈ visited)

theorem mem_pushed {visited : SortedSet Nat} {id x : Nat} : x ∈ pushed raw visited id ↔
    (∃ e ∈ raw, e.source = id ∧ e.target = x) ∧ ¬ x ∈ visited := by
  simp only [pushed, List.mem_filter, List.mem_map, mem_leaving, decide_eq_true_eq, and_assoc]

theorem pop_of_kept {s : Sweep} {id : Nat} {rest : List Nat} (stop : id ∈ kept) :
    pop raw kept s id rest = { s with stack := rest } := by
  rw [pop, if_pos stop]

theorem pop_of_free {s : Sweep} {id : Nat} {rest : List Nat} (free : ¬ id ∈ kept) :
    pop raw kept s id rest = ⟨s.visited.insert id,
      (pushed raw (s.visited.insert id) id).reverse ++ rest, s.removed.addAll (leaving raw id)⟩ := by
  rw [pop, if_neg free]
  rfl

/-- The stack holds only what open paths from struck cases lead to, taken callees apart. -/
structure Sound (raw : SortedSet Edge) (kept : SortedSet Nat) (struck : List Edge) (s : Sweep) :
    Prop where
  stack : ∀ id ∈ s.stack, ¬ id ∈ kept → ∃ c ∈ struck, Open raw kept c.target id
  removed : ∀ e ∈ s.removed, e ∈ struck ∨
    e ∈ raw ∧ ∃ c ∈ struck, Open raw kept c.target e.source

theorem Sound.pop {struck : List Edge} {s : Sweep} {id : Nat} {rest : List Nat}
    (top : s.stack = id :: rest) (sound : Sound raw kept struck s) :
    Sound raw kept struck (pop raw kept s id rest) := by
  have below : ∀ x ∈ rest, ¬ x ∈ kept → ∃ c ∈ struck, Open raw kept c.target x :=
    fun x hx => sound.stack x (top ▸ List.mem_cons_of_mem _ hx)
  by_cases stop : id ∈ kept
  · rw [pop_of_kept stop]
    exact ⟨below, sound.removed⟩
  · rw [pop_of_free stop]
    obtain ⟨c, mem, path⟩ := sound.stack id (top ▸ List.mem_cons_self) stop
    constructor
    · intro x waits clear
      rcases List.mem_append.mp waits with new | waits
      · obtain ⟨⟨e, inside, rfl, rfl⟩, -⟩ := mem_pushed.mp (List.mem_reverse.mp new)
        exact ⟨c, mem, path.step inside clear⟩
      · exact below x waits clear
    · intro e marked
      rcases SortedSet.mem_addAll.mp marked with leaves | old
      · obtain ⟨inside, rfl⟩ := mem_leaving.mp leaves
        exact Or.inr ⟨inside, c, mem, path⟩
      · exact sound.removed e old

theorem Sound.run {struck : List Edge} {s : Sweep} (sound : Sound raw kept struck s) :
    Sound raw kept struck (run raw kept s) := by
  fun_induction Sweep.run raw kept s with
  | case1 s empty => exact sound
  | case2 s id rest top ih => exact ih (sound.pop top)

theorem Sound.strike {struck : List Edge} {s : Sweep} {c : Edge} (mem : c ∈ struck)
    (sound : Sound raw kept struck s) : Sound raw kept struck (strike raw kept s c) := by
  refine Sound.run ⟨fun id hid free => ?_, fun e he => ?_⟩
  · obtain rfl := List.mem_singleton.mp hid
    exact ⟨c, mem, .here free⟩
  · rcases SortedSet.mem_insert.mp he with rfl | old
    · exact Or.inl mem
    · exact sound.removed e old

theorem Sound.strikes {struck cases : List Edge} {s : Sweep} (listed : ∀ c ∈ cases, c ∈ struck)
    (sound : Sound raw kept struck s) :
    Sound raw kept struck (cases.foldl (Sweep.strike raw kept) s) := by
  induction cases generalizing s with
  | nil => exact sound
  | cons c cases ih =>
    exact ih (fun d hd => listed d (List.mem_cons_of_mem _ hd))
      (sound.strike (listed c List.mem_cons_self))

theorem removed_pop {s : Sweep} {id : Nat} {rest : List Nat} {e : Edge} (h : e ∈ s.removed) :
    e ∈ (pop raw kept s id rest).removed := by
  by_cases stop : id ∈ kept
  · rw [pop_of_kept stop]
    exact h
  · rw [pop_of_free stop]
    exact SortedSet.mem_addAll.mpr (Or.inr h)

theorem removed_run {s : Sweep} {e : Edge} (h : e ∈ s.removed) : e ∈ (run raw kept s).removed := by
  fun_induction Sweep.run raw kept s with
  | case1 s empty => exact h
  | case2 s id rest top ih => exact ih (removed_pop h)

theorem run_of_pop_last {s : Sweep} {id : Nat} {rest : List Nat} (top : s.stack = id :: rest)
    (last : (pop raw kept s id rest).stack = []) : run raw kept s = pop raw kept s id rest := by
  have ended : run raw kept (pop raw kept s id rest) = pop raw kept s id rest := by
    unfold run
    split
    · rfl
    · rename_i more
      cases last.symm.trans more
  unfold run
  split
  · rename_i empty
    cases empty.symm.trans top
  · rename_i more
    obtain ⟨rfl, rfl⟩ := List.cons.inj (more.symm.trans top)
    exact ended

theorem removed_strikes {cases : List Edge} {s : Sweep} {e : Edge} (h : e ∈ s.removed ∨ e ∈ cases) :
    e ∈ (cases.foldl (strike raw kept) s).removed := by
  induction cases generalizing s with
  | nil => simpa using h
  | cons c cases ih =>
    refine ih ?_
    rcases h with old | mem
    · exact Or.inl (removed_run (SortedSet.mem_insert.mpr (Or.inr old)))
    · rcases List.mem_cons.mp mem with rfl | mem
      · exact Or.inl (removed_run (SortedSet.mem_insert.mpr (Or.inl rfl)))
      · exact Or.inr mem

end Sweep

namespace Graph
variable {g : Graph} {coverage : Coverage} {resources : Resources} {raw : RawBehavior}
  {base : SortedSet Edge}

def taken (g : Graph) (coverage : Coverage) (resources : Resources) (raw : RawBehavior) :
    TakenCases :=
  .ofCases g raw.edges (g.switchCases coverage resources raw.control raw.callback)

theorem mem_untakenCases {t : TakenCases} {e : Edge} :
    e ∈ untakenCases t base ↔ e ∈ base ∧ e.source ∈ t.callers ∧ ¬ e ∈ t.calls := by
  simp only [untakenCases, List.mem_filter, Bool.and_eq_true, decide_eq_true_eq, SortedSet.mem_def]

theorem inherited_switchNoise : (g.switchNoise coverage resources raw base).inherited =
    (g.taken coverage resources raw).inherited := by
  rw [switchNoise, taken]
  simp only
  split <;> rfl

theorem removed_switchNoise :
    (g.switchNoise coverage resources raw base).removed =
      ((untakenCases (g.taken coverage resources raw) base).foldl
        (Sweep.strike raw.edges (g.taken coverage resources raw).callees)
        ⟨.empty, [], .empty⟩).removed := by
  rw [switchNoise, ← taken]
  simp only
  split
  · rename_i empty
    -- without a confirmed call there is no confirmed caller, so nothing is struck
    have nothing : untakenCases (g.taken coverage resources raw) base = [] := by
      refine List.eq_nil_iff_forall_not_mem.mpr fun e he => ?_
      obtain ⟨call, mem, _⟩ := TakenCases.mem_callers.mp (mem_untakenCases.mp he).2.1
      rw [SortedSet.mem_def, List.isEmpty_iff.mp empty] at mem
      exact List.not_mem_nil mem
    rw [nothing]
    rfl
  · rfl

theorem mem_removed_of_untaken {e : Edge}
    (h : e ∈ untakenCases (g.taken coverage resources raw) base) :
    e ∈ (g.switchNoise coverage resources raw base).removed := by
  rw [removed_switchNoise]
  exact Sweep.removed_strikes (Or.inr h)

theorem untaken_or_open_of_mem_removed {e : Edge}
    (h : e ∈ (g.switchNoise coverage resources raw base).removed) :
    e ∈ untakenCases (g.taken coverage resources raw) base ∨
      e ∈ raw.edges ∧ ∃ c ∈ untakenCases (g.taken coverage resources raw) base,
        Sweep.Open raw.edges (g.taken coverage resources raw).callees c.target e.source := by
  rw [removed_switchNoise] at h
  have start : Sweep.Sound raw.edges (g.taken coverage resources raw).callees
      (untakenCases (g.taken coverage resources raw) base) ⟨.empty, [], .empty⟩ :=
    ⟨fun _ hid => absurd hid List.not_mem_nil, fun _ he => absurd he SortedSet.not_mem_empty⟩
  exact (start.strikes fun _ mem => mem).removed e h

end Graph
end HandlerGraph
