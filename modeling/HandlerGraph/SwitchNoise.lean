import HandlerGraph.Coverage
import HandlerGraph.Extraction
import HandlerGraph.Resources
import HandlerGraph.Signature

/-! Switch noise. The knowledge graph links a switch to every case it could take. Coverage names the
cases that the triggering control takes; the other cases, and what they reach without passing
through a taken one, are noise. A sweep pops a node, marks the edges that leave it and pushes their
unvisited targets. A node may be popped again, but each pop either visits a new target or makes the
stack lighter. -/
namespace HandlerGraph

structure SwitchNoise where
  removed : SortedSet Edge
  inherited : SortedSet String
  deriving DecidableEq

/-- Calls confirmed by coverage, and the signatures whose caller has no node. -/
structure TakenCases where
  calls : SortedSet Edge
  inherited : SortedSet String

namespace TakenCases

def empty : TakenCases := ⟨.empty, .empty⟩

def callers (t : TakenCases) : SortedSet Nat := .ofList (t.calls.toList.map Edge.source)

def callees (t : TakenCases) : SortedSet Nat := .ofList (t.calls.toList.map Edge.target)

/-- The lowest target of an edge leaving `caller` whose name contains the member part of a
signature that has no node of its own. -/
def inheritedCallee? (g : Graph) (raw : SortedSet Edge) (caller : Nat) (signature : String) :
    Option Nat :=
  let member := Text.fromFirst ':' signature.toList
  (((raw.toList.filter (·.source = caller)).map Edge.target).filter fun id =>
    Text.occursIn member (g.nameOf id).toList).min?

def callee? (g : Graph) (raw : SortedSet Edge) (caller : Nat) (signature : String) : Option Nat :=
  match (g.idsNamed signature).head? with
  | some id => some id
  | none => inheritedCallee? g raw caller signature

def add (g : Graph) (raw : SortedSet Edge) (t : TakenCases) (c : SwitchCase) : TakenCases :=
  match enclosingSignature c.callee with
  | none => t
  | some signature =>
    match (g.idsNamed c.caller).head? with
    | none => { t with inherited := t.inherited.insert signature }
    | some caller =>
      match callee? g raw caller signature with
      | none => t
      | some callee => { t with calls := t.calls.insert ⟨caller, callee, .call⟩ }

def ofCases (g : Graph) (raw : SortedSet Edge) (cases : List SwitchCase) : TakenCases :=
  cases.foldl (add g raw) empty

end TakenCases

structure Sweep where
  visited : SortedSet Nat
  stack : List Nat
  removed : SortedSet Edge

namespace Sweep

def leaving (raw : SortedSet Edge) (id : Nat) : List Edge := raw.toList.filter (·.source = id)

def expand (raw : SortedSet Edge) (s : Sweep) (id : Nat) : Sweep :=
  let visited := s.visited.insert id
  let fresh := ((leaving raw id).map Edge.target).filter fun t => decide (¬ t ∈ visited)
  ⟨visited, fresh.reverse ++ s.stack, s.removed.addAll (leaving raw id)⟩

/-- Pops one node; taken callees stop the sweep. -/
def pop (raw : SortedSet Edge) (kept : SortedSet Nat) (s : Sweep) (id : Nat) (rest : List Nat) :
    Sweep :=
  let s := { s with stack := rest }
  if id ∈ kept then s else s.expand raw id

def unseen (raw : SortedSet Edge) (kept visited : SortedSet Nat) : Nat :=
  ((raw.toList.map Edge.target).filter fun t => decide (¬ t ∈ visited ∧ ¬ t ∈ kept)).length

/-- What a stack entry may still push without visiting a new target, and itself. -/
def weight (raw : SortedSet Edge) (kept visited : SortedSet Nat) (id : Nat) : Nat :=
  if id ∈ kept ∨ ¬ id ∈ visited ∧ id ∈ raw.toList.map Edge.target then 1
  else 1 + (leaving raw id).length

def total (f : Nat → Nat) : List Nat → Nat
  | [] => 0
  | id :: rest => f id + total f rest

theorem total_append (f : Nat → Nat) (l k : List Nat) : total f (l ++ k) = total f l + total f k := by
  induction l with
  | nil => simp [total]
  | cons id l ih => rw [List.cons_append, total, total, ih, Nat.add_assoc]

theorem total_reverse (f : Nat → Nat) (l : List Nat) : total f l.reverse = total f l := by
  induction l with
  | nil => rfl
  | cons id l ih => rw [List.reverse_cons, total_append, ih, total, total, total, Nat.add_comm]; rfl

theorem total_congr {f g : Nat → Nat} (same : ∀ id, f id = g id) (l : List Nat) :
    total f l = total g l := by
  induction l with
  | nil => rfl
  | cons id l ih => rw [total, total, same, ih]

def load (raw : SortedSet Edge) (kept : SortedSet Nat) (s : Sweep) : Nat :=
  total (weight raw kept s.visited) s.stack

theorem target_mem_of_leaving {raw : SortedSet Edge} {id : Nat} {e : Edge}
    (h : e ∈ leaving raw id) : e.target ∈ raw.toList.map Edge.target :=
  List.mem_map.mpr ⟨e, (List.mem_filter.mp h).1, rfl⟩

theorem unseen_insert_lt {raw : SortedSet Edge} {kept visited : SortedSet Nat} {id : Nat}
    (mem : id ∈ raw.toList.map Edge.target) (fresh : ¬ id ∈ visited) (free : ¬ id ∈ kept) :
    unseen raw kept (visited.insert id) < unseen raw kept visited := by
  refine length_filter_lt (fun x hx => ?_) mem (by simpa using ⟨fresh, free⟩) (by simp)
  simp only [SortedSet.mem_insert, not_or, decide_eq_true_eq] at hx ⊢
  exact ⟨hx.1.2, hx.2⟩

theorem unseen_insert_eq {raw : SortedSet Edge} {kept visited : SortedSet Nat} {id : Nat}
    (old : id ∈ visited ∨ ¬ id ∈ raw.toList.map Edge.target) :
    unseen raw kept (visited.insert id) = unseen raw kept visited := by
  simp only [unseen]
  congr 1
  refine List.filter_congr fun x hx => ?_
  simp only [SortedSet.mem_insert, decide_eq_decide]
  constructor
  · intro h
    exact ⟨fun k => h.1 (Or.inr k), h.2⟩
  · intro h
    refine ⟨fun k => ?_, h.2⟩
    rcases k with rfl | k
    · rcases old with old | old
      · exact h.1 old
      · exact old hx
    · exact h.1 k

theorem weight_insert_eq {raw : SortedSet Edge} {kept visited : SortedSet Nat} {id : Nat}
    (old : id ∈ visited ∨ ¬ id ∈ raw.toList.map Edge.target) (x : Nat) :
    weight raw kept (visited.insert id) x = weight raw kept visited x := by
  have same : (¬ x ∈ visited.insert id ∧ x ∈ raw.toList.map Edge.target) ↔
      (¬ x ∈ visited ∧ x ∈ raw.toList.map Edge.target) := by
    simp only [SortedSet.mem_insert, not_or]
    constructor
    · rintro ⟨⟨_, h⟩, k⟩
      exact ⟨h, k⟩
    · rintro ⟨h, k⟩
      refine ⟨⟨?_, h⟩, k⟩
      rintro rfl
      rcases old with old | old
      · exact h old
      · exact old k
  simp only [weight, same]

theorem total_fresh_le {raw : SortedSet Edge} {kept visited : SortedSet Nat} {id : Nat} :
    total (weight raw kept visited)
      (((leaving raw id).map Edge.target).filter fun t => decide (¬ t ∈ visited)).reverse ≤
      (leaving raw id).length := by
  have mem : ∀ e ∈ leaving raw id, e.target ∈ raw.toList.map Edge.target :=
    fun _ h => target_mem_of_leaving h
  rw [total_reverse]
  revert mem
  generalize leaving raw id = l
  intro mem
  induction l with
  | nil => exact Nat.le_refl 0
  | cons e l ih =>
    have tail := ih fun f hf => mem f (List.mem_cons_of_mem _ hf)
    rw [List.map_cons, List.filter_cons]
    split
    · rename_i fresh
      have one : weight raw kept visited e.target = 1 := by
        rw [weight, if_pos]
        exact Or.inr ⟨of_decide_eq_true fresh, mem e List.mem_cons_self⟩
      rw [total, one, List.length_cons]
      omega
    · rw [List.length_cons]
      omega

theorem pop_smaller {raw : SortedSet Edge} {kept : SortedSet Nat} {s : Sweep} {id : Nat}
    {rest : List Nat} (top : s.stack = id :: rest) :
    Prod.Lex (· < ·) (· < ·)
      (unseen raw kept (pop raw kept s id rest).visited, load raw kept (pop raw kept s id rest))
      (unseen raw kept s.visited, load raw kept s) := by
  have whole : load raw kept s = weight raw kept s.visited id +
      total (weight raw kept s.visited) rest := by
    rw [load, top, total]
  by_cases stop : id ∈ kept
  · have popped : pop raw kept s id rest = { s with stack := rest } := by simp [pop, stop]
    rw [popped]
    refine Prod.Lex.right _ ?_
    rw [whole, weight, if_pos (Or.inl stop)]
    simp only [load]
    omega
  · have popped : pop raw kept s id rest = ({ s with stack := rest } : Sweep).expand raw id := by
      simp [pop, stop]
    rw [popped]
    by_cases novel : ¬ id ∈ s.visited ∧ id ∈ raw.toList.map Edge.target
    · exact Prod.Lex.left _ _ (unseen_insert_lt novel.2 novel.1 stop)
    · have old : id ∈ s.visited ∨ ¬ id ∈ raw.toList.map Edge.target := by
        by_cases seen : id ∈ s.visited
        · exact Or.inl seen
        · exact Or.inr fun h => novel ⟨seen, h⟩
      have unchanged : unseen raw kept (({ s with stack := rest } : Sweep).expand raw id).visited =
          unseen raw kept s.visited := unseen_insert_eq old
      rw [unchanged]
      refine Prod.Lex.right _ ?_
      have heavy : weight raw kept s.visited id = 1 + (leaving raw id).length := by
        rw [weight, if_neg]
        rintro (h | h)
        · exact stop h
        · exact novel h
      have pushed := @total_fresh_le raw kept (s.visited.insert id) id
      have kind := total_congr (@weight_insert_eq raw kept s.visited id old) rest
      rw [whole, heavy]
      simp only [load, expand, total_append, kind]
      omega

def run (raw : SortedSet Edge) (kept : SortedSet Nat) (s : Sweep) : Sweep :=
  match _top : s.stack with
  | [] => s
  | id :: rest => run raw kept (pop raw kept s id rest)
termination_by (unseen raw kept s.visited, load raw kept s)
decreasing_by exact pop_smaller _top

def strike (raw : SortedSet Edge) (kept : SortedSet Nat) (s : Sweep) (candidate : Edge) : Sweep :=
  run raw kept { s with stack := [candidate.target], removed := s.removed.insert candidate }

end Sweep

namespace Graph

/-- The coverage records for a trigger: those of its own element and layout if there are any, else
those of the first entry for its element with a record whose caller is the callback. -/
def switchCases (g : Graph) (coverage : Coverage) (resources : Resources) (control callback : Nat) :
    List SwitchCase :=
  match (g.node? control).bind Node.elementId with
  | none => []
  | some element =>
    let layout := ((g.node? control).bind Node.layoutName).bind resources.layoutId?
    match layout.bind fun id => coverage.get? (Coverage.compositeKey element id) with
    | some cases => cases
    | none =>
      let name := g.nameOf callback
      ((((coverage.ofElement (String.ofList (Numeral.decimalInt element))).find? fun e =>
        e.2.any (·.caller = name))).map Prod.snd).getD []

def untakenCases (taken : TakenCases) (base : SortedSet Edge) : List Edge :=
  base.toList.filter fun e => decide (e.source ∈ taken.callers) && decide (¬ e ∈ taken.calls)

def switchNoise (g : Graph) (coverage : Coverage) (resources : Resources) (raw : RawBehavior)
    (base : SortedSet Edge) : SwitchNoise :=
  let taken := TakenCases.ofCases g raw.edges
    (g.switchCases coverage resources raw.control raw.callback)
  if taken.calls.isEmpty then ⟨.empty, taken.inherited⟩
  else
    let swept := (untakenCases taken base).foldl (Sweep.strike raw.edges taken.callees)
      ⟨.empty, [], .empty⟩
    ⟨swept.removed, taken.inherited⟩

end Graph
end HandlerGraph
