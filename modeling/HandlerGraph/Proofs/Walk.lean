import HandlerGraph.Extraction
import Mathlib.Logic.Relation

/-! Where walks go. What a walk records is always reachable past noise, and with a hop limit of zero
also without a call between two library nodes. Without a limit, and with a limit of zero, the
converse holds: the walk visits everything reachable and records every edge on the way. For other
limits what is recorded depends on the order of the edges, and only the first half is stated here.
-/
namespace HandlerGraph

namespace ExtractionRule

def Within (rule : ExtractionRule) (g : Graph) (id : Nat) (n : Neighbor) : Prop :=
  rule.hop = some 0 →
    n.relation ≠ .call ∨ g.isAppDefined n.target = true ∨ g.isAppDefined id = true

def Leads (rule : ExtractionRule) (g : Graph) (id : Nat) (n : Neighbor) : Prop :=
  n ∈ g.neighbors id ∧
    (rule.filter = false ∨ rule.noise.isNoise (g.nameOf n.target) = false) ∧ rule.Within g id n

instance decidableLeads (rule : ExtractionRule) (g : Graph) (id : Nat) (n : Neighbor) :
    Decidable (rule.Leads g id n) :=
  inferInstanceAs (Decidable (_ ∧ _ ∧ (rule.hop = some 0 → _)))

def Reaches (rule : ExtractionRule) (g : Graph) : Nat → Nat → Prop :=
  Relation.ReflTransGen fun id next => ∃ r, rule.Leads g id ⟨next, r⟩

theorem Reaches.next {rule : ExtractionRule} {g : Graph} {first id : Nat} {n : Neighbor}
    (h : rule.Reaches g first id) (leads : rule.Leads g id n) : rule.Reaches g first n.target :=
  Relation.ReflTransGen.tail h ⟨n.relation, leads⟩

theorem skips_eq_false_iff {rule : ExtractionRule} {g : Graph} {id : Nat} :
    rule.skips g id = false ↔ rule.filter = false ∨ rule.noise.isNoise (g.nameOf id) = false := by
  rw [skips, Bool.and_eq_false_iff]

theorem Reaches.quiet {rule : ExtractionRule} {g : Graph} {first id : Nat}
    (filtered : rule.filter = true) (h : rule.Reaches g first id) :
    id = first ∨ rule.noise.isNoise (g.nameOf id) = false := by
  rcases Relation.ReflTransGen.cases_tail h with same | ⟨before, _, r, leads⟩
  · exact Or.inl same
  · exact Or.inr (leads.2.1.resolve_left (by simp [filtered]))

end ExtractionRule

namespace Walk
variable {rule : ExtractionRule} {g : Graph} {w : Walk} {id : Nat} {n : Neighbor}

def BelowBorder (g : Graph) (depth : SortedMap Nat Int) : Prop :=
  ∀ id d, g.isAppDefined id = false → depth.get? id = some d → 0 ≤ d

theorem BelowBorder.getD {depth : SortedMap Nat Int} (below : BelowBorder g depth)
    (library : g.isAppDefined id = false) : 0 ≤ (depth.get? id).getD 0 := by
  cases found : depth.get? id with
  | none => simp
  | some d => simpa using below id d library found

theorem BelowBorder.descend (below : BelowBorder g w.depth) (id child : Nat) :
    BelowBorder g (w.descend g id child).1.depth := by
  intro x d library found
  simp only [Walk.descend, SortedMap.get?_insert] at found
  have root : g.isAppDefined id = false → 0 ≤ (w.depth.get? id).getD 0 := below.getD
  split at found
  · split at found
    · simp only [Option.some.injEq] at found
      omega
    · rename_i foreign
      have := root (by simpa using foreign)
      simp only [Option.some.injEq] at found
      omega
  · split at found
    · rename_i same
      subst same
      rw [if_neg (by simp [library]), Option.some.injEq] at found
      have := root library
      omega
    · exact below x d library found

theorem descend_depth_pos (below : BelowBorder g w.depth) (library : g.isAppDefined id = false)
    (child : Nat) : 0 < (w.descend g id child).2 := by
  have root := below.getD library
  simp only [Walk.descend, library, Bool.false_eq_true, if_false]
  omega

theorem descend_depth_app (own : g.isAppDefined id = true) (child : Nat) :
    (w.descend g id child).2 = 0 := by
  simp [Walk.descend, own]

theorem permit_cases (below : BelowBorder g w.depth) (rule : ExtractionRule) (id : Nat)
    (n : Neighbor) :
    ∃ depth, BelowBorder g depth ∧ (w.permit rule g id n).1 = { w with depth } ∧
      ((w.permit rule g id n).2 = true → rule.Within g id n) ∧
      (rule.hop = none ∨ rule.hop = some 0 → rule.Within g id n →
        (w.permit rule g id n).2 = true) := by
  rw [permit]
  cases hop : rule.hop with
  | none =>
    refine ⟨w.depth, below, rfl, fun _ zero => ?_, fun _ _ => rfl⟩
    rw [hop] at zero
    contradiction
  | some hops =>
    simp only
    split
    · rename_i border
      refine ⟨_, below.descend id n.target, rfl, fun allowed zero => ?_, fun limit within => ?_⟩
      · refine Or.inr (Or.inr ?_)
        refine Bool.of_not_eq_false fun library => ?_
        have deep := descend_depth_pos below library n.target
        rw [hop, Option.some.injEq] at zero
        simp only [decide_eq_true_eq, zero] at allowed
        omega
      · have zero : hops = 0 := by simpa using limit
        rcases within (by rw [hop, zero]) with other | other | own
        · exact absurd border.1 other
        · rw [border.2] at other
          contradiction
        · simp [descend_depth_app own, zero]
    · rename_i inner
      refine ⟨w.depth, below, rfl, fun _ _ => ?_, fun _ _ => rfl⟩
      by_cases call : n.relation = .call
      · exact Or.inr (Or.inl (Bool.of_not_eq_false fun library => inner ⟨call, library⟩))
      · exact Or.inl call

theorem follow_cases (below : BelowBorder g w.depth) (adjacent : n ∈ g.neighbors id)
    (rule : ExtractionRule) :
    ∃ depth, BelowBorder g depth ∧
      (rule.Leads g id n ∧ follow rule g id w n = ({ w with depth } : Walk).take id n ∨
        (rule.hop = none ∨ rule.hop = some 0 → ¬ rule.Leads g id n) ∧
          follow rule g id w n = { w with depth }) := by
  rw [follow]
  split
  · rename_i skipped
    refine ⟨w.depth, below, Or.inr ⟨fun _ leads => ?_, rfl⟩⟩
    have := ExtractionRule.skips_eq_false_iff.mpr leads.2.1
    rw [skipped] at this
    contradiction
  · rename_i heard
    have quiet := ExtractionRule.skips_eq_false_iff.mp (Bool.of_not_eq_true heard)
    obtain ⟨depth, deeper, same, sound, complete⟩ := permit_cases below rule id n
    refine ⟨depth, deeper, ?_⟩
    simp only [same]
    split
    · rename_i allowed
      exact Or.inl ⟨⟨adjacent, quiet, sound allowed⟩, rfl⟩
    · rename_i refused
      exact Or.inr ⟨fun limit leads => refused (complete limit leads.2.2), rfl⟩

theorem mem_visited_take {x : Nat} : x ∈ (w.take id n).visited ↔ x = n.target ∨ x ∈ w.visited := by
  rw [take]
  split
  · rename_i seen
    exact ⟨Or.inr, fun h => h.elim (fun same => same ▸ seen) fun old => old⟩
  · exact SortedSet.mem_insert

theorem mem_edges_take {e : Edge} : e ∈ (w.take id n).edges ↔
    e = ⟨id, n.target, n.relation⟩ ∨ e ∈ w.edges := by
  rw [take]
  split <;> exact SortedSet.mem_insert

theorem mem_stack_take {x : Nat} : x ∈ (w.take id n).stack ↔
    x = n.target ∧ ¬ n.target ∈ w.visited ∨ x ∈ w.stack := by
  rw [take]
  split
  · rename_i seen
    simp only at seen
    simp [seen]
  · rename_i fresh
    simp only at fresh
    simp [fresh]

theorem depth_take : (w.take id n).depth = w.depth := by
  rw [take]
  split <;> rfl

/-- What every walk from `callback` keeps true, whatever its rule. -/
structure Sound (rule : ExtractionRule) (g : Graph) (callback : Nat) (w : Walk) : Prop where
  below : BelowBorder g w.depth
  start : callback ∈ w.visited
  visited : ∀ x ∈ w.visited, rule.Reaches g callback x
  stack : ∀ x ∈ w.stack, x ∈ w.visited
  edges : ∀ e ∈ w.edges, e.source ∈ w.visited ∧ e.target ∈ w.visited ∧
    rule.Leads g e.source ⟨e.target, e.relation⟩

variable {callback : Nat}

theorem Sound.initial (rule : ExtractionRule) (g : Graph) (callback : Nat) :
    Sound rule g callback (Walk.start callback) where
  below _ _ _ found := by
    simp [Walk.start, SortedMap.get?, SortedMap.empty, SortedMap.lookup] at found
  start := by simp [Walk.start]
  visited x h := by
    obtain rfl : x = callback := by simpa [Walk.start] using h
    exact Relation.ReflTransGen.refl
  stack x h := by simpa [Walk.start] using h
  edges e h := absurd h SortedSet.not_mem_empty

theorem Sound.take (sound : Sound rule g callback w) (here : id ∈ w.visited)
    (leads : rule.Leads g id n) : Sound rule g callback (w.take id n) where
  below := by
    rw [depth_take]
    exact sound.below
  start := mem_visited_take.mpr (Or.inr sound.start)
  visited x h := by
    rcases mem_visited_take.mp h with rfl | old
    · exact (sound.visited id here).next leads
    · exact sound.visited x old
  stack x h := by
    rcases mem_stack_take.mp h with ⟨rfl, _⟩ | old
    · exact mem_visited_take.mpr (Or.inl rfl)
    · exact mem_visited_take.mpr (Or.inr (sound.stack x old))
  edges e h := by
    rcases mem_edges_take.mp h with rfl | old
    · exact ⟨mem_visited_take.mpr (Or.inr here), mem_visited_take.mpr (Or.inl rfl), leads⟩
    · obtain ⟨source, target, followed⟩ := sound.edges e old
      exact ⟨mem_visited_take.mpr (Or.inr source), mem_visited_take.mpr (Or.inr target), followed⟩

theorem Sound.deepen (sound : Sound rule g callback w) {depth : SortedMap Nat Int}
    (below : BelowBorder g depth) : Sound rule g callback { w with depth } :=
  ⟨below, sound.start, sound.visited, sound.stack, sound.edges⟩

structure Grows (w later : Walk) : Prop where
  visited : ∀ x ∈ w.visited, x ∈ later.visited
  edges : ∀ e ∈ w.edges, e ∈ later.edges
  done : ∀ x ∈ later.visited, ¬ x ∈ later.stack → x ∈ w.visited ∧ ¬ x ∈ w.stack

theorem Grows.refl (w : Walk) : Grows w w := ⟨fun _ h => h, fun _ h => h, fun _ h k => ⟨h, k⟩⟩

theorem Grows.trans {u v w : Walk} (first : Grows u v) (second : Grows v w) : Grows u w where
  visited x h := second.visited x (first.visited x h)
  edges e h := second.edges e (first.edges e h)
  done x h k := first.done x (second.done x h k).1 (second.done x h k).2

theorem Grows.deepen (w : Walk) (depth : SortedMap Nat Int) : Grows w { w with depth } :=
  ⟨fun _ h => h, fun _ h => h, fun _ h k => ⟨h, k⟩⟩

theorem Grows.take (w : Walk) (id : Nat) (n : Neighbor) : Grows w (w.take id n) where
  visited _ h := mem_visited_take.mpr (Or.inr h)
  edges _ h := mem_edges_take.mpr (Or.inr h)
  done x h k := by
    have off : ¬ x ∈ w.stack := fun on => k (mem_stack_take.mpr (Or.inr on))
    refine ⟨?_, off⟩
    rcases mem_visited_take.mp h with rfl | old
    · exact Decidable.byContradiction fun fresh => k (mem_stack_take.mpr (Or.inl ⟨rfl, fresh⟩))
    · exact old

/-- One neighbour after the other: the walk stays sound, and if the rule is exact it records every
edge it is led along. -/
theorem foldl_follow {l : List Neighbor} (adjacent : ∀ n ∈ l, n ∈ g.neighbors id)
    (sound : Sound rule g callback w) (here : id ∈ w.visited) :
    Sound rule g callback (l.foldl (follow rule g id) w) ∧
      Grows w (l.foldl (follow rule g id) w) ∧
      (rule.hop = none ∨ rule.hop = some 0 → ∀ n ∈ l, rule.Leads g id n →
        ⟨id, n.target, n.relation⟩ ∈ (l.foldl (follow rule g id) w).edges) := by
  induction l generalizing w with
  | nil => exact ⟨sound, Grows.refl w, fun _ n h => absurd h List.not_mem_nil⟩
  | cons n l ih =>
    have rest := fun m hm => adjacent m (List.mem_cons_of_mem _ hm)
    obtain ⟨depth, below, ⟨leads, taken⟩ | ⟨refused, passed⟩⟩ :=
      follow_cases sound.below (adjacent n List.mem_cons_self) rule
    · have grown : Grows w (({ w with depth } : Walk).take id n) :=
        (Grows.deepen w depth).trans (Grows.take _ id n)
      obtain ⟨after, more, recorded⟩ := ih rest
        ((sound.deepen below).take here leads) (grown.visited id here)
      rw [List.foldl_cons, taken]
      refine ⟨after, grown.trans more, fun limit m hm led => ?_⟩
      rcases List.mem_cons.mp hm with rfl | hm
      · exact more.edges _ (mem_edges_take.mpr (Or.inl rfl))
      · exact recorded limit m hm led
    · obtain ⟨after, more, recorded⟩ := ih rest (sound.deepen below) here
      rw [List.foldl_cons, passed]
      refine ⟨after, (Grows.deepen w depth).trans more, fun limit m hm led => ?_⟩
      rcases List.mem_cons.mp hm with rfl | hm
      · exact absurd led (refused limit)
      · exact recorded limit m hm led

def Closed (rule : ExtractionRule) (g : Graph) (w : Walk) : Prop :=
  ∀ x ∈ w.visited, ¬ x ∈ w.stack → ∀ n, rule.Leads g x n → ⟨x, n.target, n.relation⟩ ∈ w.edges

theorem Sound.pop {rest : List Nat} (top : w.stack = id :: rest) (sound : Sound rule g callback w) :
    Sound rule g callback { w with stack := rest } ∧ id ∈ w.visited := by
  have below : ∀ x ∈ rest, x ∈ w.visited := by
    intro x h
    exact sound.stack x (top ▸ List.mem_cons_of_mem _ h)
  exact ⟨⟨sound.below, sound.start, sound.visited, below, sound.edges⟩,
    sound.stack id (top ▸ List.mem_cons_self)⟩

theorem Sound.expand {rest : List Nat} (top : w.stack = id :: rest)
    (sound : Sound rule g callback w) :
    Sound rule g callback (({ w with stack := rest } : Walk).expand rule g id) := by
  obtain ⟨popped, here⟩ := sound.pop top
  exact (foldl_follow (fun _ h => h) popped here).1

theorem Closed.expand {rest : List Nat} (limit : rule.hop = none ∨ rule.hop = some 0)
    (top : w.stack = id :: rest) (sound : Sound rule g callback w) (closed : Closed rule g w) :
    Closed rule g (({ w with stack := rest } : Walk).expand rule g id) := by
  obtain ⟨popped, here⟩ := sound.pop top
  obtain ⟨_, more, recorded⟩ := foldl_follow (fun _ h => h) popped here
  intro x visited off n leads
  obtain ⟨old, below⟩ := more.done x visited off
  by_cases same : x = id
  · subst same
    exact recorded limit n leads.1 leads
  · refine more.edges _ (closed x old (fun on => ?_) n leads)
    rw [top] at on
    exact below ((List.mem_cons.mp on).resolve_left same)

theorem Sound.run (sound : Sound rule g callback w) : Sound rule g callback (run rule g w) := by
  fun_induction Walk.run rule g w with
  | case1 w empty => exact sound
  | case2 w id rest top ih => exact ih (sound.expand top)

theorem Closed.run (limit : rule.hop = none ∨ rule.hop = some 0) (sound : Sound rule g callback w)
    (closed : Closed rule g w) : Closed rule g (run rule g w) := by
  fun_induction Walk.run rule g w with
  | case1 w empty => exact closed
  | case2 w id rest top ih => exact ih (sound.expand top) (closed.expand limit top sound)

theorem stack_run (rule : ExtractionRule) (g : Graph) (w : Walk) : (run rule g w).stack = [] := by
  fun_induction Walk.run rule g w with
  | case1 w empty => exact empty
  | case2 w id rest top ih => exact ih

def whole (rule : ExtractionRule) (g : Graph) (callback : Nat) : Walk :=
  run rule g (Walk.start callback)

theorem sound_whole (rule : ExtractionRule) (g : Graph) (callback : Nat) :
    Sound rule g callback (whole rule g callback) := (Sound.initial rule g callback).run

theorem mem_edges_of_leads (limit : rule.hop = none ∨ rule.hop = some 0) {x : Nat}
    (visited : x ∈ (whole rule g callback).visited) (leads : rule.Leads g x n) :
    ⟨x, n.target, n.relation⟩ ∈ (whole rule g callback).edges := by
  have start : Closed rule g (Walk.start callback) := by
    intro y seen off
    simp only [Walk.start, SortedSet.mem_ofList] at seen off
    exact absurd seen off
  refine Closed.run limit (Sound.initial rule g callback) start x visited ?_ n leads
  rw [stack_run]
  exact List.not_mem_nil

theorem mem_visited_whole (limit : rule.hop = none ∨ rule.hop = some 0) {x : Nat} :
    x ∈ (whole rule g callback).visited ↔ rule.Reaches g callback x := by
  have sound := sound_whole rule g callback
  refine ⟨sound.visited x, fun reached => ?_⟩
  induction reached with
  | refl => exact sound.start
  | tail _ step ih =>
    obtain ⟨r, leads⟩ := step
    exact (sound.edges _ (mem_edges_of_leads limit ih leads)).2.1

theorem mem_edges_whole (limit : rule.hop = none ∨ rule.hop = some 0) {e : Edge} :
    e ∈ (whole rule g callback).edges ↔
      rule.Reaches g callback e.source ∧ rule.Leads g e.source ⟨e.target, e.relation⟩ := by
  constructor
  · intro h
    obtain ⟨source, _, leads⟩ := (sound_whole rule g callback).edges e h
    exact ⟨(mem_visited_whole limit).mp source, leads⟩
  · rintro ⟨reached, leads⟩
    exact mem_edges_of_leads limit ((mem_visited_whole limit).mpr reached) leads

end Walk
end HandlerGraph
