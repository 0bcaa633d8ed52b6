import HandlerGraph.Proofs.Restriction

/-! How far walks go into libraries. A depth that a walk stores is overwritten whenever another call
to the same node comes up, also by a call that is then refused. Still it is always the number of
calls on some way into the library, and if it does not exceed the limit, all these calls are
recorded. So no call is followed that lies deeper than the limit, and nothing but calls between
library nodes is left out for it. -/
namespace HandlerGraph

def ExtractionRule.upTo (rule : ExtractionRule) (limit : Nat) : ExtractionRule :=
  { rule with hop := some limit }

namespace Graph

/-- Where calls inside libraries are counted from: the callback, what the app calls, and what an
edge other than a call leads to. -/
def IsEntry (g : Graph) (edges : Set Edge) (callback x : Nat) : Prop :=
  x = callback ∨ (∃ id, ⟨id, x, .call⟩ ∈ edges ∧ g.isAppDefined id = true) ∨
    ∃ id r, ⟨id, x, r⟩ ∈ edges ∧ r ≠ .call

/-- A walk along that many calls of `edges`, all of them between library nodes. -/
inductive InnerWalk (g : Graph) (edges : Set Edge) (first : Nat) : Nat → Nat → Prop
  | nil : InnerWalk g edges first 0 first
  | snoc {k id next : Nat} (walk : InnerWalk g edges first k id)
      (mem : ⟨id, next, .call⟩ ∈ edges) (inner : g.IsInner ⟨id, next, .call⟩) :
      InnerWalk g edges first (k + 1) next

def LiesAt (g : Graph) (edges : Set Edge) (callback k x : Nat) : Prop :=
  ∃ first, g.IsEntry edges callback first ∧ g.InnerWalk edges first k x

variable {g : Graph} {edges more : Set Edge} {callback k x : Nat}

theorem IsEntry.mono (sub : edges ⊆ more) (h : g.IsEntry edges callback x) :
    g.IsEntry more callback x := by
  rcases h with first | ⟨id, mem, own⟩ | ⟨id, r, mem, other⟩
  · exact Or.inl first
  · exact Or.inr (Or.inl ⟨id, sub mem, own⟩)
  · exact Or.inr (Or.inr ⟨id, r, sub mem, other⟩)

theorem InnerWalk.mono {first : Nat} (sub : edges ⊆ more) (h : g.InnerWalk edges first k x) :
    g.InnerWalk more first k x := by
  induction h with
  | nil => exact .nil
  | snoc _ mem inner ih => exact ih.snoc (sub mem) inner

theorem LiesAt.mono (sub : edges ⊆ more) (h : g.LiesAt edges callback k x) :
    g.LiesAt more callback k x := by
  obtain ⟨first, entry, walk⟩ := h
  exact ⟨first, entry.mono sub, walk.mono sub⟩

theorem IsEntry.liesAt (h : g.IsEntry edges callback x) : g.LiesAt edges callback 0 x :=
  ⟨x, h, .nil⟩

end Graph

namespace Walk
variable {rule : ExtractionRule} {g : Graph} {w : Walk} {id : Nat} {n : Neighbor}
  {edges : Set Edge} {counts : Int → Prop} {callback limit : Nat}

/-- The stored depths that `counts` admits are lengths of walks along `edges`, and a library node
without one is where such walks begin. -/
structure Placed (g : Graph) (edges : Set Edge) (counts : Int → Prop) (callback : Nat) (w : Walk) :
    Prop where
  stored : ∀ x d, g.isAppDefined x = false → w.depth.get? x = some d → counts d →
    ∃ k : Nat, d = k ∧ g.LiesAt edges callback k x
  unset : ∀ x ∈ w.visited, g.isAppDefined x = false → w.depth.get? x = none →
    g.IsEntry edges callback x

theorem Placed.depthOf {x : Nat} (placed : Placed g edges counts callback w)
    (visited : x ∈ w.visited) (library : g.isAppDefined x = false)
    (counted : counts (w.depthOf x)) :
    ∃ k : Nat, w.depthOf x = k ∧ g.LiesAt edges callback k x := by
  cases found : w.depth.get? x with
  | none =>
    exact ⟨0, by simp [Walk.depthOf, found], (placed.unset x visited library found).liesAt⟩
  | some d =>
    have depth : w.depthOf x = d := by simp [Walk.depthOf, found]
    rw [depth] at counted ⊢
    exact placed.stored x d library found counted

theorem Placed.start (g : Graph) (edges : Set Edge) (counts : Int → Prop) (callback : Nat) :
    Placed g edges counts callback (Walk.start callback) where
  stored _ _ _ found := by
    simp [Walk.start, SortedMap.get?, SortedMap.empty, SortedMap.lookup] at found
  unset x visited _ _ := Or.inl (by simpa [Walk.start] using visited)

theorem Placed.take (placed : Placed g edges counts callback w)
    (target : g.isAppDefined n.target = false → w.depth.get? n.target = none →
      g.IsEntry edges callback n.target) : Placed g edges counts callback (w.take id n) where
  stored x d library found := placed.stored x d library (depth_take ▸ found)
  unset x visited library found := by
    rw [depth_take] at found
    rcases mem_visited_take.mp visited with rfl | old
    · exact target library found
    · exact placed.unset x old library found

theorem Placed.descend (placed : Placed g edges counts callback w) (here : id ∈ w.visited)
    (down : ∀ d, counts (d + 1) → counts d) (call : n.relation = .call)
    (library : g.isAppDefined n.target = false)
    (mem : counts (w.descend g id n.target).2 → ⟨id, n.target, n.relation⟩ ∈ edges) :
    Placed g edges counts callback (w.descend g id n.target).1 where
  stored x d foreign found counted := by
    rw [get?_depth_descend] at found
    split at found
    · rename_i same
      subst same
      obtain rfl := Option.some.inj found
      have mem := call ▸ mem counted
      cases own : g.isAppDefined id with
      | true =>
        have entry : g.IsEntry edges callback n.target := Or.inr (Or.inl ⟨id, mem, own⟩)
        exact ⟨0, descend_depth_app own n.target, entry.liesAt⟩
      | false =>
        rw [descend_library own] at counted ⊢
        obtain ⟨k, depth, first, entry, walk⟩ := placed.depthOf here own (down _ counted)
        refine ⟨k + 1, by omega, first, entry, walk.snoc mem ⟨rfl, own, library⟩⟩
    · split at found
      · rename_i same
        subst same
        obtain rfl := Option.some.inj found
        rw [descend_library foreign, Int.add_sub_cancel] at counted ⊢
        exact placed.depthOf here foreign counted
      · exact placed.stored x d foreign found counted
  unset x visited foreign found := by
    rw [get?_depth_descend] at found
    split at found
    · contradiction
    · split at found
      · contradiction
      · exact placed.unset x visited foreign found

theorem Placed.follow (limited : rule.hop = some limit) (down : ∀ d, counts (d + 1) → counts d)
    (placed : Placed g edges counts callback w) (here : id ∈ w.visited)
    (recorded : ∀ e ∈ (follow rule g id w n).edges, e ∈ edges)
    (beyond : rule.skips g n.target = false → ∀ d : Int, limit < d → counts d →
      ⟨id, n.target, n.relation⟩ ∈ edges) :
    Placed g edges counts callback (follow rule g id w n) := by
  have meets := meets_follow rule g id w n
  generalize Walk.follow rule g id w n = after at meets recorded ⊢
  cases meets with
  | skipped => exact placed
  | free heard uncounted =>
    refine placed.take fun library _ => Or.inr (Or.inr ⟨id, n.relation, ?_, fun call => ?_⟩)
    · exact recorded _ (mem_edges_take.mpr (Or.inl rfl))
    · rcases uncounted with unlimited | other
      · simp [unlimited] at limited
      · exact other ⟨call, library⟩
  | within heard _ _ call library room =>
    have mem := recorded _ (mem_edges_take.mpr (Or.inl rfl))
    refine (placed.descend here down call library fun _ => mem).take fun _ unset => ?_
    simp [get?_depth_descend] at unset
  | refused heard bound found call library deep =>
    obtain rfl : limit = bound := Option.some.inj (limited.symm.trans found)
    exact placed.descend here down call library (beyond heard _ deep)

theorem Placed.foldl {l : List Neighbor} (limited : rule.hop = some limit)
    (down : ∀ d, counts (d + 1) → counts d) (placed : Placed g edges counts callback w)
    (here : id ∈ w.visited) (recorded : ∀ e ∈ (l.foldl (Walk.follow rule g id) w).edges, e ∈ edges)
    (beyond : ∀ n ∈ l, rule.skips g n.target = false → ∀ d : Int, limit < d → counts d →
      ⟨id, n.target, n.relation⟩ ∈ edges) :
    Placed g edges counts callback (l.foldl (Walk.follow rule g id) w) := by
  induction l generalizing w with
  | nil => exact placed
  | cons n l ih =>
    rw [List.foldl_cons] at recorded ⊢
    have first : ∀ e ∈ (Walk.follow rule g id w n).edges, e ∈ edges :=
      fun e mem => recorded e (mem_edges_foldl.mpr (Or.inl mem))
    exact ih (placed.follow limited down here first (beyond n List.mem_cons_self))
      (mem_visited_follow here) recorded fun m mem => beyond m (List.mem_cons_of_mem _ mem)

/-- The depth at which a library node is expanded is the length of a walk along `edges`, if these
have all that is recorded and what `counts` asks for of the calls that are refused. -/
theorem Expands.liesAt {x : Nat} {d : Int} (h : Expands rule g w x d) (counts : Int → Prop)
    (limited : rule.hop = some limit) (down : ∀ d, counts (d + 1) → counts d) (orderly : Orderly w)
    (placed : Placed g edges counts callback w)
    (recorded : ∀ e ∈ (run rule g w).edges, e ∈ edges)
    (beyond : ∀ id ∈ (run rule g w).visited, ∀ n ∈ g.neighbors id, rule.skips g n.target = false →
      ∀ d : Int, limit < d → counts d → ⟨id, n.target, n.relation⟩ ∈ edges)
    (library : g.isAppDefined x = false) (counted : counts d) :
    ∃ k : Nat, d = k ∧ g.LiesAt edges callback k x := by
  fun_induction Walk.run rule g w with
  | case1 w empty => exact absurd h (not_expands empty x d)
  | case2 w id rest top ih =>
    have here : id ∈ w.visited := orderly.seen id (top ▸ List.mem_cons_self)
    rw [← advance_cons top] at ih recorded beyond
    rcases (expands_iff top).mp h with ⟨rfl, rfl⟩ | later
    · exact placed.depthOf here library counted
    · have visited : id ∈ (run rule g (w.advance rule g)).visited :=
        ((isDone_run orderly.advance).mpr
          (Or.inl ((isDone_advance orderly top).mpr (Or.inl rfl)))).1
      have popped : Placed g edges counts callback { w with stack := rest } :=
        ⟨placed.stored, placed.unset⟩
      have step : ∀ e ∈ (w.advance rule g).edges, e ∈ edges :=
        fun e mem => recorded e (mem_edges_run.mpr (Or.inl mem))
      rw [advance_cons top] at step
      have after : Placed g edges counts callback (w.advance rule g) := by
        rw [advance_cons top]
        exact popped.foldl limited down here step (beyond id visited)
      exact ih later orderly.advance after recorded beyond

theorem liesAt_recorded {x : Nat} {d : Int} (library : g.isAppDefined x = false)
    (within : d ≤ limit) (h : Expands (rule.upTo limit) g (Walk.start callback) x d) :
    ∃ k : Nat, d = k ∧
      g.LiesAt {e | e ∈ (whole (rule.upTo limit) g callback).edges} callback k x := by
  refine h.liesAt (· ≤ (limit : Int)) rfl (fun d le => ?_) (orderly_start callback)
    (Placed.start ..) (fun e mem => mem) (fun _ _ _ _ _ d deep le => ?_) library within
  all_goals omega

end Walk

namespace Graph
variable {g : Graph} {rule : ExtractionRule} {control callback limit : Nat} {b : RawBehavior}

theorem mem_edges_whole_of_call {e : Edge} (h : e ∈ g.behaviorEdges rule control callback)
    (call : e.relation = .call) : e ∈ (Walk.whole rule g callback).edges := by
  rcases SortedSet.mem_insert.mp h with rfl | reached
  · contradiction
  · refine (mem_reachedEdges.mp reached).resolve_left fun link => ?_
    have kind := (mem_reachedLinks.mp link).2.1
    simp [call] at kind

theorem mem_behaviorEdges_of_recorded {e : Edge} (h : e ∈ (Walk.whole rule g callback).edges) :
    e ∈ g.behaviorEdges rule control callback :=
  SortedSet.mem_insert.mpr (Or.inr (mem_reachedEdges.mpr (Or.inr h)))

theorem visited_of_leads_to {x : Nat}
    (h : x = callback ∨ ∃ f ∈ g.behaviorEdges rule control callback, f.target = x) :
    x ∈ (Walk.whole rule g callback).visited := by
  have sound := Walk.sound_whole rule g callback
  rcases h with rfl | ⟨f, mem, rfl⟩
  · exact sound.start
  · rcases SortedSet.mem_insert.mp mem with rfl | reached
    · exact sound.start
    · rcases mem_reachedEdges.mp reached with link | recorded
      · exact (mem_reachedLinks.mp link).2.2
      · exact (sound.edges f recorded).2.1

/-- No call is followed further into a library than the limit allows: whichever it is, at most that
many recorded calls between library nodes lead up to it and include it. Edges of other kinds are
never left out. -/
theorem extract_within_limit (found : g.extract (rule.upTo limit) control callback = some b) :
    (∀ e ∈ b.edges, e.relation = .call → g.isAppDefined e.target = false →
      g.isAppDefined e.source = true ∨
        ∃ first k, k + 1 ≤ limit ∧ g.IsEntry {f | f ∈ b.edges} callback first ∧
          g.InnerWalk {f | f ∈ b.edges} first k e.source) ∧
    ∀ x, (x = callback ∨ ∃ f ∈ b.edges, f.target = x) → ∀ n ∈ g.neighbors x,
      (rule.filter = false ∨ rule.noise.isNoise (g.nameOf n.target) = false) →
      ¬ g.IsInner ⟨x, n.target, n.relation⟩ → ⟨x, n.target, n.relation⟩ ∈ b.edges := by
  rw [edges_of_extract found]
  constructor
  · intro e mem call library
    refine or_iff_not_imp_left.mpr fun own => ?_
    have foreign := Bool.of_not_eq_true own
    obtain ⟨d, expanded, -, -, room⟩ :=
      Walk.mem_edges_iff_expands.mp (mem_edges_whole_of_call mem call)
    have shallow := room limit rfl ⟨call, foreign, library⟩
    obtain ⟨k, rfl, lies⟩ := Walk.liesAt_recorded foreign (by omega) expanded
    obtain ⟨first, entry, walk⟩ := lies.mono fun f => mem_behaviorEdges_of_recorded
    exact ⟨first, k, by omega, entry, walk⟩
  · intro x reached n adjacent heard outer
    obtain ⟨d, expanded⟩ := Walk.mem_visited_iff_expands.mp (visited_of_leads_to reached)
    refine mem_behaviorEdges_of_recorded (Walk.mem_edges_iff_expands.mpr ⟨d, expanded, ?_⟩)
    exact ⟨adjacent, ExtractionRule.skips_eq_false_iff.mpr heard,
      fun _ _ inner => absurd inner outer⟩

def detourNodes : List Node :=
  [.widget "Button" "main.xml" 7, .method "<app.Main: void onClick()>" "-",
    .method "<java.io.File: void open()>" "java.io",
    .method "<java.util.Timer: void start()>" "java.util",
    .method "<java.util.Timer: void tick()>" "java.util",
    .method "<java.util.Timer: void fire()>" "java.util",
    .method "<java.io.File: void read()>" "java.io"]

def detourRows : List Edge :=
  [⟨0, 1, .event⟩, ⟨1, 2, .call⟩, ⟨1, 3, .call⟩, ⟨3, 4, .call⟩, ⟨4, 5, .call⟩, ⟨5, 2, .call⟩,
    ⟨2, 6, .call⟩]

def detour : Graph := detourRows.foldl (enter false) (start detourNodes detourRows)

def detourTwo : RawBehavior :=
  .ofEdges 0 1
    (.ofList [⟨0, 1, .event⟩, ⟨1, 2, .call⟩, ⟨1, 3, .call⟩, ⟨3, 4, .call⟩, ⟨4, 5, .call⟩]) .empty

theorem extract_detour_two : detour.extract (sampleRule.upTo 2) 0 1 = some detourTwo := by
  rw [extract_eq_gather 5 (by decide +kernel)]
  decide +kernel

/-- With two hops the walk gets from the start of the timer to its end. -/
theorem extract_within_limit_detour :
    detour.extract (sampleRule.upTo 2) 0 1 = some detourTwo ∧ ⟨4, 5, .call⟩ ∈ detourTwo.edges ∧
      ∃ first k, k + 1 ≤ 2 ∧ detour.IsEntry {f | f ∈ detourTwo.edges} 1 first ∧
        detour.InnerWalk {f | f ∈ detourTwo.edges} first k 4 := by
  have mem : ⟨4, 5, .call⟩ ∈ detourTwo.edges := by decide
  have within := (extract_within_limit extract_detour_two).1 _ mem rfl (by decide)
  exact ⟨extract_detour_two, mem, within.resolve_left (by decide)⟩

end Graph
end HandlerGraph
