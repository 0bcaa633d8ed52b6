import HandlerGraph.Proofs.DeadLeaf
import Mathlib.Data.Fintype.Card
import Mathlib.Data.Set.Finite.Basic
import Mathlib.Data.Set.Finite.List

/-! Dead leaves without reference to a search or to derivations. A callee is dead when every call
that the graph makes from it on is a candidate and none of these calls runs in a circle: the calls
it leads to then end after finitely many steps, since only finitely many edges are candidates. What
reaches library code, or calls outside the behavior, stays. -/
namespace HandlerGraph.Graph

def Calls (g : Graph) (caller callee : Nat) : Prop := callee ∈ g.callTargets caller

def CallsOn (g : Graph) : Nat → Nat → Prop := Relation.ReflTransGen g.Calls

/-- From a node on the graph calls only methods of the app, and only by the given edges. -/
def StaysAmong (g : Graph) (edges : SortedSet Edge) (first : Nat) : Prop :=
  ∀ caller, g.CallsOn first caller → ∀ callee, g.Calls caller callee →
    g.isAppDefined callee = true ∧ ⟨caller, callee, .call⟩ ∈ edges

variable {g : Graph} {edges : SortedSet Edge} {calls : List Edge} {first id : Nat}

theorem Dead.of_calls (h : g.Dead calls first) (path : g.CallsOn first id) :
    g.Dead calls id := by
  induction path with
  | refl => exact h
  | tail _ step ih =>
    cases ih with
    | intro _ _ below => exact below _ step

theorem Dead.no_circle (h : g.Dead calls id) : ¬ Relation.TransGen g.Calls id id := by
  induction h with
  | intro called listed below ih =>
    intro circle
    -- a circle through a node is also one through the callee it starts with
    obtain ⟨callee, step, back⟩ := Relation.TransGen.head'_iff.mp circle
    exact ih callee step (Relation.TransGen.tail' back step)

theorem mem_ownCalls_iff {e : Edge} : e ∈ g.ownCalls edges ↔ e ∈ edges ∧ e.relation = .call ∧
    g.isAppDefined e.source = true ∧ g.isAppDefined e.target = true := by
  rw [mem_ownCalls]
  simp only [isOwnCall, Bool.and_eq_true, decide_eq_true_eq, and_assoc]

theorem StaysAmong.finite (h : g.StaysAmong edges first) : {id | g.CallsOn first id}.Finite := by
  refine (List.finite_toSet (first :: edges.toList.map Edge.target)).subset fun id path => ?_
  rcases path.cases_tail with rfl | ⟨caller, before, step⟩
  · exact List.mem_cons_self
  · exact List.mem_cons_of_mem _ (List.mem_map.mpr ⟨_, (h caller before id step).2, rfl⟩)

/-- Calls that stay among finitely many edges and run in no circle come to an end. -/
theorem StaysAmong.acc (h : g.StaysAmong edges first)
    (straight : ∀ id, g.CallsOn first id → ¬ Relation.TransGen g.Calls id id) :
    Acc (fun callee caller => g.Calls caller callee) first := by
  let Reached := {id // g.CallsOn first id}
  let later : Reached → Reached → Prop := fun y x => Relation.TransGen g.Calls x.1 y.1
  have : Finite Reached := h.finite
  have : IsTrans Reached later := ⟨fun _ _ _ back front => front.trans back⟩
  have : Std.Irrefl later := ⟨fun x circle => straight x.1 x.2 circle⟩
  have ends : WellFounded later := Finite.wellFounded_of_trans_of_irrefl later
  have sooner : Subrelation (InvImage (fun callee caller => g.Calls caller callee) Subtype.val)
      later := fun step => Relation.TransGen.single step
  have start : Acc later ⟨first, .refl⟩ := ends.apply _
  refine Acc.of_downward_closed (f := Subtype.val) (fun {x callee} step => ?_) _
    (sooner.accessible start)
  exact ⟨⟨callee, x.2.tail step⟩, rfl⟩

theorem StaysAmong.dead (h : g.StaysAmong edges first)
    (ends : Acc (fun callee caller => g.Calls caller callee) id)
    (path : g.CallsOn first id) (called : ∃ c ∈ g.ownCalls edges, c.target = id) :
    g.Dead (g.ownCalls edges) id := by
  induction ends with
  | intro id _ ih =>
    obtain ⟨c, own, rfl⟩ := called
    have inside := (mem_ownCalls_iff.mp own).2.2.2
    have onward : ∀ callee, g.Calls c.target callee →
        ⟨c.target, callee, .call⟩ ∈ g.ownCalls edges := by
      intro callee step
      obtain ⟨ours, mem⟩ := h _ path callee step
      exact mem_ownCalls_iff.mpr ⟨mem, rfl, inside, ours⟩
    refine .intro ⟨c, own, rfl⟩ onward fun callee step => ?_
    exact ih callee step (path.tail step) ⟨_, onward callee step, rfl⟩

/-- The edges that go are those into a method called from the app whose calls, followed as far as
the graph goes, stay inside the app and inside the given edges and come to an end. -/
theorem mem_deadLeaves_iff_calls_end (g : Graph) (edges : SortedSet Edge) (e : Edge) :
    e ∈ g.deadLeaves edges ↔ e ∈ edges ∧
      (∃ c ∈ edges, c.relation = .call ∧ g.isAppDefined c.source = true ∧
        g.isAppDefined c.target = true ∧ c.target = e.target) ∧
      g.StaysAmong edges e.target ∧
      ¬ ∃ id, g.CallsOn e.target id ∧ Relation.TransGen g.Calls id id := by
  rw [mem_deadLeaves]
  refine and_congr_right fun _ => ⟨fun dead => ⟨?_, fun caller path callee step => ?_, ?_⟩, ?_⟩
  · cases dead with
    | intro called _ _ =>
      obtain ⟨c, own, target⟩ := called
      obtain ⟨mem, call, source, inside⟩ := mem_ownCalls_iff.mp own
      exact ⟨c, mem, call, source, inside, target⟩
  · cases dead.of_calls path with
    | intro _ listed _ =>
      obtain ⟨mem, -, -, ours⟩ := mem_ownCalls_iff.mp (listed callee step)
      exact ⟨ours, mem⟩
  · rintro ⟨id, path, circle⟩
    exact (dead.of_calls path).no_circle circle
  · rintro ⟨⟨c, mem, call, source, inside, target⟩, stays, straight⟩
    have ends := stays.acc fun id path circle => straight ⟨id, path, circle⟩
    exact stays.dead ends .refl ⟨c, mem_ownCalls_iff.mpr ⟨mem, call, source, inside⟩, target⟩

end HandlerGraph.Graph
