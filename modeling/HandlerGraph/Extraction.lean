import HandlerGraph.Behavior
import HandlerGraph.Graph
import HandlerGraph.Noise

/-! Extraction of raw behaviors. From the callback of an event, a depth-first walk follows the
adjacency of the graph past everything that is not noise. With a hop limit, calls that lead from
library code further into library code count from the first library callee, and a call that lies
deeper than the limit is not followed. The walk ends because every node is put on the stack at most
once. -/
namespace HandlerGraph

/-- `hop` is the number of calls followed past the first library callee, without bound when
absent. Without `filter` nothing counts as noise. -/
structure ExtractionRule where
  noise : NoiseRule
  hop : Option Nat
  filter : Bool
  deriving DecidableEq, Inhabited

def ExtractionRule.skips (rule : ExtractionRule) (g : Graph) (id : Nat) : Bool :=
  rule.filter && rule.noise.isNoise (g.nameOf id)

/-- The state of a walk; the top of the stack comes first, and `depth` is how far library nodes lie
past the border of the app. -/
structure Walk where
  visited : SortedSet Nat
  stack : List Nat
  edges : SortedSet Edge
  depth : SortedMap Nat Int

theorem length_filter_lt {α : Type} {p q : α → Bool} {l : List α} {a : α}
    (weaker : ∀ x, q x = true → p x = true) (mem : a ∈ l) (had : p a = true) (lost : q a = false) :
    (l.filter q).length < (l.filter p).length := by
  induction l with
  | nil => simp at mem
  | cons b l ih =>
    rcases List.mem_cons.mp mem with rfl | mem
    · have rest : (l.filter q).length ≤ (l.filter p).length := by
        rw [← List.countP_eq_length_filter, ← List.countP_eq_length_filter]
        exact List.countP_mono_left fun x _ => weaker x
      simp only [List.filter_cons, had, lost, if_true, List.length_cons]
      exact Nat.lt_succ_of_le rest
    · have below := ih mem
      have keep := weaker b
      simp only [List.filter_cons]
      split
      · rename_i kept
        rw [if_pos (keep kept)]
        exact Nat.succ_lt_succ below
      · split
        · exact Nat.lt_succ_of_lt below
        · exact below

namespace Walk

def start (callback : Nat) : Walk := ⟨SortedSet.ofList [callback], [callback], .empty, .empty⟩

def descend (g : Graph) (w : Walk) (id child : Nat) : Walk × Int :=
  let above := if g.isAppDefined id then -1 else (w.depth.get? id).getD 0
  ({ w with depth := (w.depth.insert id above).insert child (above + 1) }, above + 1)

/-- Whether a call may be followed, and the walk with the depth it had to record for that. -/
def permit (rule : ExtractionRule) (g : Graph) (w : Walk) (id : Nat) (n : Neighbor) : Walk × Bool :=
  match rule.hop with
  | none => (w, true)
  | some limit =>
    if n.relation = .call ∧ g.isAppDefined n.target = false then
      let (w, depth) := w.descend g id n.target
      (w, decide (depth ≤ limit))
    else (w, true)

def take (w : Walk) (id : Nat) (n : Neighbor) : Walk :=
  let w := { w with edges := w.edges.insert ⟨id, n.target, n.relation⟩ }
  if n.target ∈ w.visited then w
  else { w with visited := w.visited.insert n.target, stack := n.target :: w.stack }

def follow (rule : ExtractionRule) (g : Graph) (id : Nat) (w : Walk) (n : Neighbor) : Walk :=
  if rule.skips g n.target then w
  else
    let (w, allowed) := w.permit rule g id n
    if allowed then w.take id n else w

def expand (rule : ExtractionRule) (g : Graph) (w : Walk) (id : Nat) : Walk :=
  (g.neighbors id).foldl (follow rule g id) w

def unvisited (g : Graph) (visited : SortedSet Nat) : Nat :=
  (g.targets.filter fun id => decide (¬ id ∈ visited)).length

/-- Each new node costs two and is worth one on the stack, so every pop lowers the sum. -/
def remaining (g : Graph) (w : Walk) : Nat := 2 * unvisited g w.visited + w.stack.length

theorem unvisited_insert_lt {g : Graph} {visited : SortedSet Nat} {id : Nat} (mem : id ∈ g.targets)
    (fresh : ¬ id ∈ visited) : unvisited g (visited.insert id) < unvisited g visited := by
  refine length_filter_lt (fun x hx => ?_) mem (by simpa using fresh) (by simp)
  simp only [SortedSet.mem_insert, not_or, decide_eq_true_eq] at hx ⊢
  exact hx.2

theorem remaining_take_le {g : Graph} {w : Walk} {id : Nat} {n : Neighbor}
    (mem : n.target ∈ g.targets) : remaining g (w.take id n) ≤ remaining g w := by
  rw [take]
  split
  · exact Nat.le_refl _
  · rename_i fresh
    have less := unvisited_insert_lt mem fresh
    simp only [remaining, List.length_cons]
    simp only at less
    omega

theorem remaining_permit (rule : ExtractionRule) (g : Graph) (w : Walk) (id : Nat) (n : Neighbor) :
    remaining g (w.permit rule g id n).1 = remaining g w := by
  rw [permit]
  split
  · rfl
  · split <;> rfl

theorem remaining_follow_le {rule : ExtractionRule} {g : Graph} {w : Walk} {id : Nat}
    {n : Neighbor} (mem : n.target ∈ g.targets) :
    remaining g (follow rule g id w n) ≤ remaining g w := by
  rw [follow]
  split
  · exact Nat.le_refl _
  · have same := remaining_permit rule g w id n
    split
    rename_i found
    rw [found] at same
    split
    · exact Nat.le_trans (remaining_take_le mem) (Nat.le_of_eq same)
    · exact Nat.le_of_eq same

theorem remaining_foldl_le {rule : ExtractionRule} {g : Graph} {id : Nat} {l : List Neighbor}
    {w : Walk} (mem : ∀ n ∈ l, n.target ∈ g.targets) :
    remaining g (l.foldl (follow rule g id) w) ≤ remaining g w := by
  induction l generalizing w with
  | nil => exact Nat.le_refl _
  | cons n l ih =>
    exact Nat.le_trans (ih fun m hm => mem m (List.mem_cons_of_mem _ hm))
      (remaining_follow_le (mem n List.mem_cons_self))

theorem remaining_expand_le (rule : ExtractionRule) (g : Graph) (w : Walk) (id : Nat) :
    remaining g (w.expand rule g id) ≤ remaining g w :=
  remaining_foldl_le fun _ h => Graph.target_mem_targets h

def run (rule : ExtractionRule) (g : Graph) (w : Walk) : Walk :=
  match _top : w.stack with
  | [] => w
  | id :: rest => run rule g (({ w with stack := rest } : Walk).expand rule g id)
termination_by remaining g w
decreasing_by
  refine Nat.lt_of_le_of_lt (remaining_expand_le rule g _ id) ?_
  simp only [remaining, _top, List.length_cons]
  omega

end Walk

namespace Graph

def eventCallbacks (g : Graph) (control : Nat) : List Nat :=
  (((g.neighbors control).filter (·.relation = .event)).map Neighbor.target).eraseDups

def reachedLinks (g : Graph) (visited : SortedSet Nat) : SortedSet Edge :=
  g.controlEdges.filter fun e => e.relation.tiesCode && decide (e.target ∈ visited)

def subsumedControls (g : Graph) (edges : SortedSet Edge) : SortedSet Nat :=
  .ofList ((g.controlEdges.toList.map Edge.source).filter fun control =>
    !(g.neighbors control).isEmpty && (g.outgoing control).all fun e => decide (e ∈ edges))

/-- The behavior of `control` firing `callback`, unless there is nothing beyond the trigger. -/
def extract (g : Graph) (rule : ExtractionRule) (control callback : Nat) : Option RawBehavior :=
  let walk := Walk.run rule g (Walk.start callback)
  let reached := walk.edges.addAll (g.reachedLinks walk.visited).toList
  let edges := reached.insert ⟨control, callback, .event⟩
  if edges.size ≤ 1 then none
  else
    some (RawBehavior.ofEdges control callback edges
      ((g.subsumedControls reached).filter (· ≠ control)))

def extractAll (g : Graph) (rule : ExtractionRule) : List RawBehavior :=
  g.actingControls.toList.flatMap fun control =>
    (g.eventCallbacks control).filterMap (g.extract rule control)

end Graph
end HandlerGraph
