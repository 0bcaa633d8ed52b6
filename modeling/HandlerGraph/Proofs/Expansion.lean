import HandlerGraph.Proofs.Walk
import Mathlib.Data.List.Basic
import Mathlib.Logic.Function.Iterate

/-! Walks step by step, for any hop limit. Every visited node is expanded exactly once, and what it
records then depends on the depth it lies at: a limit refuses only calls from library code further
into library code, those for which the depth leaves no room. A call of the node to itself makes the
depth grow while the node is being expanded, so such calls count for what follows them. -/
namespace HandlerGraph

namespace Graph

/-- Calls from library code further into library code, the only edges that a limit counts. -/
def IsInner (g : Graph) (e : Edge) : Prop :=
  e.relation = .call ∧ g.isAppDefined e.source = false ∧ g.isAppDefined e.target = false

instance decidableIsInner (g : Graph) (e : Edge) : Decidable (g.IsInner e) :=
  inferInstanceAs (Decidable (_ ∧ _))

end Graph

namespace ExtractionRule

/-- How often a node meets itself as a callee in `l` before it comes to `n`. -/
def selfCalls (rule : ExtractionRule) (g : Graph) (id : Nat) (n : Neighbor) (l : List Neighbor) :
    Nat :=
  if rule.skips g id then 0 else (l.takeWhile (· ≠ n)).count ⟨id, .call⟩

theorem selfCalls_cons_self {rule : ExtractionRule} {g : Graph} {id : Nat} {n : Neighbor}
    {l : List Neighbor} : rule.selfCalls g id n (n :: l) = 0 := by
  simp [selfCalls]

theorem selfCalls_cons_ne {rule : ExtractionRule} {g : Graph} {id : Nat} {m n : Neighbor}
    {l : List Neighbor} (other : m ≠ n) : rule.selfCalls g id n (m :: l) =
      (if m = ⟨id, .call⟩ ∧ rule.skips g id = false then 1 else 0) + rule.selfCalls g id n l := by
  cases noise : rule.skips g id with
  | true => simp [selfCalls, noise]
  | false =>
    simp [selfCalls, noise, other, List.count_cons, Nat.add_comm]

def selfCallsBefore (rule : ExtractionRule) (g : Graph) (e : Edge) : Nat :=
  rule.selfCalls g e.source ⟨e.target, e.relation⟩ (g.neighbors e.source)

/-- What the source of `e` records if it is expanded at depth `d`. -/
def Follows (rule : ExtractionRule) (g : Graph) (d : Int) (e : Edge) : Prop :=
  ⟨e.target, e.relation⟩ ∈ g.neighbors e.source ∧ rule.skips g e.target = false ∧
    ∀ limit : Nat, rule.hop = some limit → g.IsInner e → d + rule.selfCallsBefore g e < limit

end ExtractionRule

namespace Walk
variable {rule : ExtractionRule} {g : Graph} {w : Walk} {id : Nat} {n : Neighbor} {e : Edge}

def depthOf (w : Walk) (id : Nat) : Int := (w.depth.get? id).getD 0

/-- All that can happen when the expansion of `id` comes to `n`. -/
inductive Meets (rule : ExtractionRule) (g : Graph) (id : Nat) (w : Walk) (n : Neighbor) :
    Walk → Prop
  | skipped (noise : rule.skips g n.target = true) : Meets rule g id w n w
  | free (heard : rule.skips g n.target = false)
      (uncounted : rule.hop = none ∨ ¬ (n.relation = .call ∧ g.isAppDefined n.target = false)) :
      Meets rule g id w n (w.take id n)
  | within (heard : rule.skips g n.target = false) (limit : Nat) (limited : rule.hop = some limit)
      (call : n.relation = .call) (library : g.isAppDefined n.target = false)
      (room : (w.descend g id n.target).2 ≤ limit) :
      Meets rule g id w n ((w.descend g id n.target).1.take id n)
  | refused (heard : rule.skips g n.target = false) (limit : Nat) (limited : rule.hop = some limit)
      (call : n.relation = .call) (library : g.isAppDefined n.target = false)
      (beyond : limit < (w.descend g id n.target).2) :
      Meets rule g id w n (w.descend g id n.target).1

theorem meets_follow (rule : ExtractionRule) (g : Graph) (id : Nat) (w : Walk) (n : Neighbor) :
    Meets rule g id w n (follow rule g id w n) := by
  rw [follow]
  cases noise : rule.skips g n.target with
  | true => exact .skipped noise
  | false =>
    rw [if_neg (by simp), permit]
    cases limited : rule.hop with
    | none => exact .free noise (Or.inl limited)
    | some limit =>
      by_cases counted : n.relation = .call ∧ g.isAppDefined n.target = false
      · simp only [if_pos counted, decide_eq_true_eq]
        split
        · exact .within noise limit limited counted.1 counted.2 ‹_›
        · exact .refused noise limit limited counted.1 counted.2 (Int.not_le.mp ‹_›)
      · simp only [if_neg counted, if_true]
        exact .free noise (Or.inr counted)

theorem edges_descend (id child : Nat) : (w.descend g id child).1.edges = w.edges := rfl

theorem descend_library (library : g.isAppDefined id = false) (child : Nat) :
    (w.descend g id child).2 = w.depthOf id + 1 := by
  simp [descend, library, depthOf]

theorem get?_depth_descend (id child x : Nat) : (w.descend g id child).1.depth.get? x =
    if x = child then some (w.descend g id child).2
    else if x = id then some ((w.descend g id child).2 - 1) else w.depth.get? x := by
  simp only [descend, SortedMap.get?_insert, Int.add_sub_cancel]

theorem mem_edges_follow : e ∈ (follow rule g id w n).edges ↔ e ∈ w.edges ∨
    e = ⟨id, n.target, n.relation⟩ ∧ rule.skips g n.target = false ∧
      ∀ limit : Nat, rule.hop = some limit → g.IsInner e → w.depthOf id < limit := by
  have meets := meets_follow rule g id w n
  generalize follow rule g id w n = after at meets ⊢
  cases meets with
  | skipped noise => simp [noise]
  | free heard uncounted =>
    have allowed : e = ⟨id, n.target, n.relation⟩ →
        ∀ limit : Nat, rule.hop = some limit → g.IsInner e → w.depthOf id < limit := by
      rintro rfl limit limited ⟨call, -, library⟩
      rcases uncounted with unlimited | other
      · simp [unlimited] at limited
      · exact absurd ⟨call, library⟩ other
    rw [mem_edges_take, or_comm]
    refine or_congr_right ⟨fun same => ⟨same, heard, allowed same⟩, And.left⟩
  | within heard limit limited call library room =>
    rw [mem_edges_take, edges_descend, or_comm]
    refine or_congr_right ⟨fun same => ⟨same, heard, fun bound found inner => ?_⟩, And.left⟩
    obtain rfl : limit = bound := Option.some.inj (limited.symm.trans found)
    subst same
    have own : g.isAppDefined id = false := inner.2.1
    rw [descend_library own] at room
    omega
  | refused heard limit limited call library beyond =>
    rw [edges_descend]
    refine (or_iff_left ?_).symm
    rintro ⟨rfl, -, allowed⟩
    cases own : g.isAppDefined id with
    | true =>
      rw [descend_depth_app own] at beyond
      omega
    | false =>
      have shallow := allowed limit limited ⟨call, own, library⟩
      rw [descend_library own] at beyond
      omega

/-- Only a call of a library node to itself changes the depth at which it is being expanded. -/
theorem depthOf_follow {limit : Nat} (limited : rule.hop = some limit)
    (library : g.isAppDefined id = false) : (follow rule g id w n).depthOf id =
      w.depthOf id + if n = ⟨id, .call⟩ ∧ rule.skips g id = false then 1 else 0 := by
  have descended : ∀ child, (w.descend g id child).1.depthOf id =
      w.depthOf id + if id = child then 1 else 0 := by
    intro child
    rw [depthOf, get?_depth_descend, descend_library library]
    split <;> simp
  have meets := meets_follow rule g id w n
  generalize follow rule g id w n = after at meets ⊢
  cases meets with
  | skipped noise =>
    rw [if_neg, Int.add_zero]
    rintro ⟨rfl, heard⟩
    simp [heard] at noise
  | free heard uncounted =>
    rw [if_neg, Int.add_zero, depthOf, depth_take, depthOf]
    rintro ⟨rfl, -⟩
    rcases uncounted with unlimited | other
    · simp [unlimited] at limited
    · exact other ⟨rfl, library⟩
  | within heard _ _ call _ _ =>
    rw [depthOf, depth_take, ← depthOf, descended]
    obtain ⟨target, relation⟩ := n
    grind
  | refused heard _ _ call _ _ =>
    rw [descended]
    obtain ⟨target, relation⟩ := n
    grind

theorem mem_edges_foldl {l : List Neighbor} : e ∈ (l.foldl (follow rule g id) w).edges ↔
    e ∈ w.edges ∨ e.source = id ∧ ⟨e.target, e.relation⟩ ∈ l ∧ rule.skips g e.target = false ∧
      ∀ limit : Nat, rule.hop = some limit → g.IsInner e →
        w.depthOf id + rule.selfCalls g id ⟨e.target, e.relation⟩ l < limit := by
  induction l generalizing w with
  | nil => simp
  | cons n l ih =>
    rw [List.foldl_cons, ih, mem_edges_follow]
    by_cases same : n = ⟨e.target, e.relation⟩
    · -- the first time the edge comes up decides, since the depth of `id` never falls
      subst same
      rw [ExtractionRule.selfCalls_cons_self, Int.natCast_zero, Int.add_zero]
      constructor
      · rintro ((old | ⟨here, heard, room⟩) | ⟨here, -, heard, room⟩)
        · exact Or.inl old
        · exact Or.inr ⟨congrArg Edge.source here, List.mem_cons_self, heard, room⟩
        · refine Or.inr ⟨here, List.mem_cons_self, heard, fun limit limited inner => ?_⟩
          have later := room limit limited inner
          rw [depthOf_follow limited (here ▸ inner.2.1)] at later
          split at later <;> omega
      · rintro (old | ⟨rfl, -, heard, room⟩)
        · exact Or.inl (Or.inl old)
        · exact Or.inl (Or.inr ⟨rfl, heard, room⟩)
    · have apart : e ≠ ⟨id, n.target, n.relation⟩ := by
        rintro rfl
        exact same rfl
      have listed : ⟨e.target, e.relation⟩ ∈ n :: l ↔ ⟨e.target, e.relation⟩ ∈ l := by
        simp [Ne.symm same]
      have unchanged : ∀ p : Prop, e ∈ w.edges ∨ e = ⟨id, n.target, n.relation⟩ ∧ p ↔ e ∈ w.edges :=
        fun p => or_iff_left fun new => apart new.1
      rw [unchanged, listed]
      refine or_congr_right (and_congr_right fun here => and_congr_right fun _ =>
        and_congr_right fun _ => forall₃_congr fun limit limited inner => ?_)
      rw [depthOf_follow limited (here ▸ inner.2.1), ExtractionRule.selfCalls_cons_ne same]
      split <;> omega

theorem mem_edges_expand : e ∈ (w.expand rule g id).edges ↔
    e ∈ w.edges ∨ e.source = id ∧ rule.Follows g (w.depthOf id) e := by
  rw [expand, mem_edges_foldl]
  refine or_congr_right (and_congr_right ?_)
  rintro rfl
  rfl

def advance (rule : ExtractionRule) (g : Graph) (w : Walk) : Walk :=
  match w.stack with
  | [] => w
  | id :: rest => ({ w with stack := rest } : Walk).expand rule g id

theorem advance_cons {rest : List Nat} (top : w.stack = id :: rest) :
    w.advance rule g = ({ w with stack := rest } : Walk).expand rule g id := by
  rw [advance, top]

theorem advance_nil (empty : w.stack = []) : w.advance rule g = w := by
  rw [advance, empty]

theorem run_advance (rule : ExtractionRule) (g : Graph) (w : Walk) :
    run rule g (w.advance rule g) = run rule g w := by
  cases top : w.stack with
  | nil => rw [advance_nil top]
  | cons id rest =>
    rw [advance_cons top]
    conv => rhs; rw [run]
    split
    · rename_i empty
      simp [top] at empty
    · rename_i other others found
      obtain ⟨rfl, rfl⟩ := List.cons.inj (top.symm.trans found)
      rfl

theorem run_nil (empty : w.stack = []) : run rule g w = w := by
  rw [run]
  split
  · rfl
  · rename_i found
    simp [empty] at found

theorem run_eq_iterate {k : Nat} (ended : ((advance rule g)^[k] w).stack = []) :
    run rule g w = (advance rule g)^[k] w := by
  induction k generalizing w with
  | zero => exact run_nil ended
  | succ k ih =>
    rw [← run_advance]
    exact ih ended

/-- Nothing waits twice, and only visited nodes wait. -/
structure Orderly (w : Walk) : Prop where
  nodup : w.stack.Nodup
  seen : ∀ x ∈ w.stack, x ∈ w.visited

def IsDone (w : Walk) (x : Nat) : Prop := x ∈ w.visited ∧ ¬ x ∈ w.stack

theorem Orderly.take (orderly : Orderly w) : Orderly (w.take id n) where
  nodup := by
    rw [Walk.take]
    split
    · exact orderly.nodup
    · rename_i fresh
      exact List.nodup_cons.mpr ⟨fun waits => fresh (orderly.seen _ waits), orderly.nodup⟩
  seen x waits := by
    rcases mem_stack_take.mp waits with ⟨rfl, -⟩ | old
    · exact mem_visited_take.mpr (Or.inl rfl)
    · exact mem_visited_take.mpr (Or.inr (orderly.seen x old))

theorem Orderly.follow (orderly : Orderly w) : Orderly (follow rule g id w n) := by
  have deeper : Orderly (w.descend g id n.target).1 := ⟨orderly.nodup, orderly.seen⟩
  have meets := meets_follow rule g id w n
  generalize Walk.follow rule g id w n = after at meets ⊢
  cases meets with
  | skipped => exact orderly
  | free => exact orderly.take
  | within => exact deeper.take
  | refused => exact deeper

theorem mem_visited_follow {x : Nat} (h : x ∈ w.visited) :
    x ∈ (follow rule g id w n).visited := by
  have meets := meets_follow rule g id w n
  generalize follow rule g id w n = after at meets ⊢
  cases meets with
  | skipped => exact h
  | free => exact mem_visited_take.mpr (Or.inr h)
  | within => exact mem_visited_take.mpr (Or.inr h)
  | refused => exact h

theorem isDone_take {x : Nat} : IsDone (w.take id n) x ↔ IsDone w x := by
  simp only [IsDone, mem_visited_take, mem_stack_take]
  grind

theorem isDone_follow {x : Nat} : IsDone (follow rule g id w n) x ↔ IsDone w x := by
  have meets := meets_follow rule g id w n
  generalize follow rule g id w n = after at meets ⊢
  cases meets with
  | skipped => rfl
  | free => exact isDone_take
  | within => exact isDone_take
  | refused => rfl

theorem isDone_foldl {l : List Neighbor} {x : Nat} :
    IsDone (l.foldl (follow rule g id) w) x ↔ IsDone w x := by
  induction l generalizing w with
  | nil => rfl
  | cons n l ih => exact ih.trans isDone_follow

theorem Orderly.advance (orderly : Orderly w) : Orderly (w.advance rule g) := by
  cases top : w.stack with
  | nil => rwa [advance_nil top]
  | cons id rest =>
    have popped : Orderly { w with stack := rest } :=
      ⟨(List.nodup_cons.mp (top ▸ orderly.nodup)).2,
        fun x waits => orderly.seen x (top ▸ List.mem_cons_of_mem _ waits)⟩
    rw [advance_cons top]
    exact List.foldlRecOn _ _ popped fun _ orderly _ _ => orderly.follow

theorem isDone_advance {rest : List Nat} {x : Nat} (orderly : Orderly w)
    (top : w.stack = id :: rest) : IsDone (w.advance rule g) x ↔ x = id ∨ IsDone w x := by
  have apart : ¬ id ∈ rest := (List.nodup_cons.mp (top ▸ orderly.nodup)).1
  have here : id ∈ w.visited := orderly.seen id (top ▸ List.mem_cons_self)
  rw [advance_cons top, expand, isDone_foldl]
  simp only [IsDone, top, List.mem_cons]
  grind

/-- In the course of the walk from `w` the node `id` is expanded, and lies at depth `d` then. -/
def Expands (rule : ExtractionRule) (g : Graph) (w : Walk) (id : Nat) (d : Int) : Prop :=
  ∃ k rest, ((advance rule g)^[k] w).stack = id :: rest ∧ ((advance rule g)^[k] w).depthOf id = d

theorem not_expands (empty : w.stack = []) (x : Nat) (d : Int) : ¬ Expands rule g w x d := by
  rintro ⟨k, rest, top, -⟩
  rw [Function.iterate_fixed (advance_nil empty), empty] at top
  contradiction

theorem expands_iff {rest : List Nat} {x : Nat} {d : Int} (top : w.stack = id :: rest) :
    Expands rule g w x d ↔ x = id ∧ w.depthOf id = d ∨ Expands rule g (w.advance rule g) x d := by
  constructor
  · rintro ⟨_ | k, waiting, first, depth⟩
    · obtain ⟨rfl, -⟩ := List.cons.inj (top.symm.trans first)
      exact Or.inl ⟨rfl, depth⟩
    · exact Or.inr ⟨k, waiting, first, depth⟩
  · rintro (⟨rfl, depth⟩ | ⟨k, waiting, first, depth⟩)
    · exact ⟨0, rest, top, depth⟩
    · exact ⟨k + 1, waiting, first, depth⟩

theorem IsDone.not_expands {x : Nat} {d : Int} (orderly : Orderly w) (done : IsDone w x) :
    ¬ Expands rule g w x d := by
  induction w using Walk.run.induct rule g with
  | case1 w empty => exact Walk.not_expands empty x d
  | case2 w id rest top ih =>
    rw [← advance_cons top] at ih
    rw [expands_iff top]
    rintro (⟨rfl, -⟩ | later)
    · exact done.2 (top ▸ List.mem_cons_self)
    · exact ih orderly.advance ((isDone_advance orderly top).mpr (Or.inr done)) later

theorem Expands.unique {x : Nat} {d d' : Int} (orderly : Orderly w) (h : Expands rule g w x d)
    (h' : Expands rule g w x d') : d = d' := by
  induction w using Walk.run.induct rule g with
  | case1 w empty => exact absurd h (not_expands empty x d)
  | case2 w id rest top ih =>
    have ended : x = id → IsDone (w.advance rule g) x :=
      fun same => (isDone_advance orderly top).mpr (Or.inl same)
    rw [← advance_cons top] at ih
    rcases (expands_iff top).mp h with ⟨here, depth⟩ | later
    · rcases (expands_iff top).mp h' with ⟨-, depth'⟩ | later'
      · exact depth.symm.trans depth'
      · exact absurd later' ((ended here).not_expands orderly.advance)
    · rcases (expands_iff top).mp h' with ⟨here, -⟩ | later'
      · exact absurd later ((ended here).not_expands orderly.advance)
      · exact ih orderly.advance later later'

theorem isDone_run {x : Nat} (orderly : Orderly w) :
    IsDone (run rule g w) x ↔ IsDone w x ∨ ∃ d, Expands rule g w x d := by
  fun_induction Walk.run rule g w with
  | case1 w empty => simp [not_expands empty]
  | case2 w id rest top ih =>
    rw [← advance_cons top] at ih ⊢
    rw [ih orderly.advance, isDone_advance orderly top]
    simp only [expands_iff top]
    grind

theorem mem_edges_run : e ∈ (run rule g w).edges ↔
    e ∈ w.edges ∨ ∃ d, Expands rule g w e.source d ∧ rule.Follows g d e := by
  fun_induction Walk.run rule g w with
  | case1 w empty => simp [not_expands empty]
  | case2 w id rest top ih =>
    have step : e ∈ (w.advance rule g).edges ↔
        e ∈ w.edges ∨ e.source = id ∧ rule.Follows g (w.depthOf id) e := by
      rw [advance_cons top, mem_edges_expand]
      rfl
    rw [← advance_cons top] at ih ⊢
    rw [ih, step]
    simp only [expands_iff top]
    grind

theorem orderly_start (callback : Nat) : Orderly (Walk.start callback) where
  nodup := by simp [Walk.start]
  seen x waits := by simpa [Walk.start] using waits

variable {callback : Nat}

theorem mem_visited_iff_expands {x : Nat} : x ∈ (whole rule g callback).visited ↔
    ∃ d, Expands rule g (Walk.start callback) x d := by
  have ended : IsDone (whole rule g callback) x ↔ x ∈ (whole rule g callback).visited := by
    rw [IsDone, whole, stack_run]
    exact and_iff_left List.not_mem_nil
  have fresh : ¬ IsDone (Walk.start callback) x := by simp [IsDone, Walk.start]
  rw [← ended, whole, isDone_run (orderly_start callback)]
  exact or_iff_right fresh

theorem mem_edges_iff_expands : e ∈ (whole rule g callback).edges ↔
    ∃ d, Expands rule g (Walk.start callback) e.source d ∧ rule.Follows g d e := by
  rw [whole, mem_edges_run]
  exact or_iff_right SortedSet.not_mem_empty

theorem expands_start (rule : ExtractionRule) (g : Graph) (callback : Nat) :
    Expands rule g (Walk.start callback) callback 0 := ⟨0, [], rfl, rfl⟩

theorem recorded_of_mem_visited_follow {x : Nat} (h : x ∈ (follow rule g id w n).visited) :
    x ∈ w.visited ∨ ∃ r, ⟨id, x, r⟩ ∈ (follow rule g id w n).edges := by
  have taken : ∀ v : Walk, v.visited = w.visited → x ∈ (v.take id n).visited →
      x ∈ w.visited ∨ ∃ r, ⟨id, x, r⟩ ∈ (v.take id n).edges := by
    intro v same visited
    rcases mem_visited_take.mp visited with rfl | old
    · exact Or.inr ⟨n.relation, mem_edges_take.mpr (Or.inl rfl)⟩
    · exact Or.inl (same ▸ old)
  have meets := meets_follow rule g id w n
  generalize follow rule g id w n = after at meets h ⊢
  cases meets with
  | skipped => exact Or.inl h
  | free => exact taken w rfl h
  | within => exact taken _ rfl h
  | refused => exact Or.inl h

theorem recorded_of_mem_visited_foldl {l : List Neighbor} {x : Nat}
    (h : x ∈ (l.foldl (follow rule g id) w).visited) :
    x ∈ w.visited ∨ ∃ r, ⟨id, x, r⟩ ∈ (l.foldl (follow rule g id) w).edges := by
  induction l generalizing w with
  | nil => exact Or.inl h
  | cons n l ih =>
    rw [List.foldl_cons] at h ⊢
    rcases ih h with earlier | recorded
    · refine (recorded_of_mem_visited_follow earlier).imp_right ?_
      rintro ⟨r, recorded⟩
      exact ⟨r, mem_edges_foldl.mpr (Or.inl recorded)⟩
    · exact Or.inr recorded

theorem visited_run_induction {P : Nat → Prop} (orderly : Orderly w) (first : ∀ x ∈ w.visited, P x)
    (next : ∀ e ∈ (run rule g w).edges, P e.source → P e.target) :
    ∀ x ∈ (run rule g w).visited, P x := by
  fun_induction Walk.run rule g w with
  | case1 w empty => exact first
  | case2 w id rest top ih =>
    rw [← advance_cons top] at ih next ⊢
    refine ih orderly.advance (fun x visited => ?_) next
    rw [advance_cons top] at visited
    rcases recorded_of_mem_visited_foldl visited with old | ⟨r, recorded⟩
    · exact first x old
    · have kept : ⟨id, x, r⟩ ∈ (run rule g (w.advance rule g)).edges := by
        rw [advance_cons top]
        exact mem_edges_run.mpr (Or.inl recorded)
      exact next _ kept (first id (orderly.seen id (top ▸ List.mem_cons_self)))

/-- What holds of the callback and passes along recorded edges holds of everything visited. -/
theorem visited_induction {P : Nat → Prop} (first : P callback)
    (next : ∀ e ∈ (whole rule g callback).edges, P e.source → P e.target) :
    ∀ x ∈ (whole rule g callback).visited, P x := by
  refine visited_run_induction (orderly_start callback) (fun x visited => ?_) next
  obtain rfl : x = callback := by simpa [Walk.start] using visited
  exact first

end Walk

namespace Graph

def gather (g : Graph) (control callback : Nat) (walk : Walk) : Option RawBehavior :=
  let reached := walk.edges.addAll (g.reachedLinks walk.visited).toList
  let edges := reached.insert ⟨control, callback, .event⟩
  if edges.size ≤ 1 then none
  else
    some (RawBehavior.ofEdges control callback edges
      ((g.subsumedControls reached).filter (· ≠ control)))

/-- Extraction, evaluated by so many steps as the walk takes. -/
theorem extract_eq_gather {g : Graph} {rule : ExtractionRule} {control callback : Nat} (k : Nat)
    (ended : ((Walk.advance rule g)^[k] (Walk.start callback)).stack = []) :
    g.extract rule control callback =
      g.gather control callback ((Walk.advance rule g)^[k] (Walk.start callback)) := by
  rw [← Walk.run_eq_iterate ended]
  rfl

theorem extractAll_eq_gather {g : Graph} {rule : ExtractionRule} (k : Nat)
    (ended : ∀ control ∈ g.actingControls.toList, ∀ callback ∈ g.eventCallbacks control,
      ((Walk.advance rule g)^[k] (Walk.start callback)).stack = []) :
    g.extractAll rule = g.actingControls.toList.flatMap fun control =>
      (g.eventCallbacks control).filterMap fun callback =>
        g.gather control callback ((Walk.advance rule g)^[k] (Walk.start callback)) :=
  List.flatMap_congr fun control acting =>
    List.filterMap_congr fun callback fires => extract_eq_gather k (ended control acting callback fires)

end Graph
end HandlerGraph
