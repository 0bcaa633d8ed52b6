import HandlerGraph.Proofs.Sweep

/-! How long a sweep takes. Nodes are marked when they are popped, so a node can wait on the stack
many times over, and each of its copies is expanded. The copy that is popped first lies above all
others, and so does what it pushes: when another copy comes up, the targets of its edges are visited
by then, taken callees apart, which are never marked and are pushed anew. So each edge pushes its
target once, and again for a further copy of its source only if it leads to a taken callee. This
gives a bound on the pops from any node with any nodes visited before; it is linear in the edges if
none leads to a taken callee, and quadratic at worst. -/
namespace HandlerGraph.Sweep

inductive Pops (raw : SortedSet Edge) (kept : SortedSet Nat) : Nat → Sweep → Sweep → Prop
  | none {s : Sweep} : Pops raw kept 0 s s
  | next {n : Nat} {s t : Sweep} {id : Nat} {rest : List Nat} (top : s.stack = id :: rest)
      (more : Pops raw kept n (pop raw kept s id rest) t) : Pops raw kept (n + 1) s t

variable {raw : SortedSet Edge} {kept visited : SortedSet Nat} {s : Sweep} {id : Nat}
  {rest : List Nat}

theorem exists_pops_run (raw : SortedSet Edge) (kept : SortedSet Nat) (s : Sweep) :
    ∃ n, Pops raw kept n s (run raw kept s) := by
  fun_induction Sweep.run raw kept s with
  | case1 s empty => exact ⟨0, .none⟩
  | case2 s id rest top ih =>
    obtain ⟨n, more⟩ := ih
    exact ⟨n + 1, .next top more⟩

/-- A visited node on the stack lies below all that its edges lead to and that is still to be
visited, taken callees apart. -/
def Layered (raw : SortedSet Edge) (kept : SortedSet Nat) (s : Sweep) : Prop :=
  ∀ above x below, s.stack = above ++ x :: below → x ∈ s.visited →
    ∀ e ∈ raw, e.source = x → e.target ∈ s.visited ∨ e.target ∈ kept ∨ e.target ∈ above

theorem mem_front_or_under {front above below : List Nat} {x : Nat}
    (split : front ++ rest = above ++ x :: below) :
    x ∈ front ∨ ∃ between, above = front ++ between ∧ rest = between ++ x :: below := by
  rcases List.append_eq_append_iff.mp split with ⟨between, whole, under⟩ | ⟨between, whole, under⟩
  · exact Or.inr ⟨between, whole, under⟩
  · cases between with
    | nil => exact Or.inr ⟨[], by simpa using whole.symm, by simpa using under.symm⟩
    | cons y between =>
      obtain ⟨rfl, -⟩ := List.cons.inj under
      exact Or.inl (by simp [whole])

theorem Layered.pop (top : s.stack = id :: rest) (layered : Layered raw kept s) :
    Layered raw kept (pop raw kept s id rest) := by
  have before : ∀ above x below, rest = above ++ x :: below → x ∈ s.visited →
      ∀ e ∈ raw, e.source = x →
        e.target ∈ s.visited ∨ e.target ∈ kept ∨ e.target = id ∨ e.target ∈ above := by
    intro above x below split seen e mem leaves
    have whole : s.stack = (id :: above) ++ x :: below := by rw [top, split, List.cons_append]
    have onward := layered _ x below whole seen e mem leaves
    rwa [List.mem_cons] at onward
  by_cases stop : id ∈ kept
  · rw [pop_of_kept stop]
    intro above x below split seen e mem leaves
    rcases before above x below split seen e mem leaves with old | taken | rfl | waits
    · exact Or.inl old
    · exact Or.inr (Or.inl taken)
    · exact Or.inr (Or.inl stop)
    · exact Or.inr (Or.inr waits)
  · rw [pop_of_free stop]
    intro above x below split seen e mem leaves
    rcases mem_front_or_under split with new | ⟨between, rfl, under⟩
    · exact absurd seen (mem_pushed.mp (List.mem_reverse.mp new)).2
    rw [List.mem_append, List.mem_reverse, SortedSet.mem_insert]
    rcases SortedSet.mem_insert.mp seen with rfl | seen
    · -- a copy of the node just expanded: what it leads to was pushed now
      subst leaves
      rcases visited_or_pushed (s.visited.insert e.source) mem with old | new
      · exact Or.inl (SortedSet.mem_insert.mp old)
      · exact Or.inr (Or.inr (Or.inl new))
    · rcases before between x below under seen e mem leaves with old | taken | same | waits
      · exact Or.inl (Or.inr old)
      · exact Or.inr (Or.inl taken)
      · exact Or.inl (Or.inl same)
      · exact Or.inr (Or.inr (Or.inr waits))

def exits (raw : SortedSet Edge) (kept : SortedSet Nat) (id : Nat) : List Edge :=
  (leaving raw id).filter fun e => decide (e.target ∈ kept)

/-- What an entry of the stack costs: its own pop, and one for each taken callee that a copy of a
visited node pushes. -/
def charge (raw : SortedSet Edge) (kept : SortedSet Nat) (id : Nat) : Nat :=
  if id ∈ kept then 1 else 1 + (exits raw kept id).length

theorem charge_of_kept (stop : id ∈ kept) : charge raw kept id = 1 := if_pos stop

theorem charge_of_free (free : ¬ id ∈ kept) :
    charge raw kept id = 1 + (exits raw kept id).length := if_neg free

theorem charge_le (raw : SortedSet Edge) (kept : SortedSet Nat) (id : Nat) :
    charge raw kept id ≤ 1 + (raw.filter fun e => decide (e.target ∈ kept)).size := by
  have fewer : (exits raw kept id).length ≤ (raw.filter fun e => decide (e.target ∈ kept)).size :=
    (List.filter_sublist.filter _).length_le
  rw [charge]
  split <;> omega

theorem total_filter_le (f : Nat → Nat) (p : Nat → Bool) (l : List Nat) :
    total f (l.filter p) ≤ total f l := by
  induction l with
  | nil => exact Nat.le_refl 0
  | cons x l ih =>
    rw [List.filter_cons]
    split
    · rw [total, total]
      omega
    · rw [total]
      omega

theorem total_le_mul {f : Nat → Nat} {most : Nat} {l : List Nat} (bound : ∀ x ∈ l, f x ≤ most) :
    total f l ≤ l.length * most := by
  induction l with
  | nil => exact Nat.zero_le _
  | cons x l ih =>
    have first := bound x List.mem_cons_self
    have others := ih fun y listed => bound y (List.mem_cons_of_mem _ listed)
    rw [total, List.length_cons, Nat.add_mul, Nat.one_mul]
    omega

theorem total_pushed_le (f : Nat → Nat) (raw : SortedSet Edge) (visited : SortedSet Nat) (id : Nat) :
    total f (pushed raw visited id) ≤ total f ((leaving raw id).map Edge.target) :=
  total_filter_le f _ _

def ahead (raw : SortedSet Edge) (visited : SortedSet Nat) : List Nat :=
  (raw.toList.filter fun e => decide (¬ e.source ∈ visited)).map Edge.target

theorem total_ahead_le (raw : SortedSet Edge) (kept visited : SortedSet Nat) :
    total (charge raw kept) (ahead raw visited) ≤
      raw.size * (1 + (raw.filter fun e => decide (e.target ∈ kept)).size) := by
  have fewer : (ahead raw visited).length ≤ raw.size := by
    rw [ahead, List.length_map]
    exact List.length_filter_le _ _
  calc total (charge raw kept) (ahead raw visited)
      ≤ (ahead raw visited).length * (1 + (raw.filter fun e => decide (e.target ∈ kept)).size) :=
        total_le_mul fun x _ => charge_le raw kept x
    _ ≤ raw.size * (1 + (raw.filter fun e => decide (e.target ∈ kept)).size) :=
        Nat.mul_le_mul_right _ fewer

theorem total_leaving_add_ahead_le (raw : SortedSet Edge) (f : Nat → Nat)
    {earlier later : SortedSet Nat} (new : ¬ id ∈ earlier) (seen : id ∈ later)
    (grown : ∀ x ∈ earlier, x ∈ later) :
    total f ((leaving raw id).map Edge.target) + total f (ahead raw later) ≤
      total f (ahead raw earlier) := by
  rw [leaving, ahead, ahead]
  induction raw.toList with
  | nil => exact Nat.le_refl 0
  | cons e l ih =>
    simp only [List.filter_cons, decide_eq_true_eq]
    by_cases leaves : e.source = id
    · rw [if_pos leaves, if_neg (by simpa [leaves] using seen), if_pos (by simpa [leaves] using new)]
      simp only [List.map_cons, total]
      omega
    · rw [if_neg leaves]
      by_cases old : e.source ∈ later
      · rw [if_neg (not_not_intro old)]
        refine Nat.le_trans ih ?_
        split
        · simp only [List.map_cons, total]
          omega
        · exact Nat.le_refl _
      · rw [if_pos old, if_pos (fun h => old (grown _ h))]
        simp only [List.map_cons, total]
        omega

theorem total_pushed_le_exits
    (done : ∀ e ∈ raw, e.source = id → e.target ∈ visited ∨ e.target ∈ kept) :
    total (charge raw kept) (pushed raw visited id) ≤ (exits raw kept id).length := by
  have taken : ∀ e ∈ leaving raw id, ¬ e.target ∈ visited → e.target ∈ kept := by
    intro e leaves new
    obtain ⟨mem, source⟩ := mem_leaving.mp leaves
    exact (done e mem source).resolve_left new
  have single : ∀ x ∈ pushed raw visited id, charge raw kept x ≤ 1 := by
    intro x listed
    obtain ⟨⟨e, mem, source, rfl⟩, new⟩ := mem_pushed.mp listed
    exact Nat.le_of_eq (charge_of_kept (taken e (mem_leaving.mpr ⟨mem, source⟩) new))
  have fewer : (pushed raw visited id).length ≤ (exits raw kept id).length := by
    rw [pushed, exits, List.filter_map, List.length_map, ← List.countP_eq_length_filter,
      ← List.countP_eq_length_filter]
    exact List.countP_mono_left fun e leaves new =>
      decide_eq_true (taken e leaves (of_decide_eq_true new))
  calc total (charge raw kept) (pushed raw visited id)
      ≤ (pushed raw visited id).length * 1 := total_le_mul single
    _ = (pushed raw visited id).length := Nat.mul_one _
    _ ≤ (exits raw kept id).length := fewer

/-- What the stack costs, and what the edges that are still ahead can put there. -/
def dues (raw : SortedSet Edge) (kept : SortedSet Nat) (s : Sweep) : Nat :=
  total (charge raw kept) s.stack + total (charge raw kept) (ahead raw s.visited)

theorem dues_of_top (top : s.stack = id :: rest) : dues raw kept s =
    charge raw kept id + total (charge raw kept) rest +
      total (charge raw kept) (ahead raw s.visited) := by
  rw [dues, top, total]

theorem dues_pop_of_free (free : ¬ id ∈ kept) : dues raw kept (pop raw kept s id rest) =
    total (charge raw kept) (pushed raw (s.visited.insert id) id) +
      total (charge raw kept) rest +
        total (charge raw kept) (ahead raw (s.visited.insert id)) := by
  rw [dues, pop_of_free free, total_append, total_reverse]

theorem dues_pop_lt (top : s.stack = id :: rest) (layered : Layered raw kept s) :
    dues raw kept (pop raw kept s id rest) < dues raw kept s := by
  rw [dues_of_top top]
  by_cases stop : id ∈ kept
  · rw [pop_of_kept stop, charge_of_kept stop, dues]
    simp only
    omega
  rw [dues_pop_of_free stop, charge_of_free stop]
  by_cases seen : id ∈ s.visited
  · have same : s.visited.insert id = s.visited :=
      SortedSet.ext_mem fun x => by
        rw [SortedSet.mem_insert]
        exact or_iff_right_of_imp fun h => h ▸ seen
    have done : ∀ e ∈ raw, e.source = id → e.target ∈ s.visited ∨ e.target ∈ kept := by
      intro e mem leaves
      have onward := layered [] id rest top seen e mem leaves
      simpa using onward
    have pushes := total_pushed_le_exits done
    rw [same]
    omega
  · have first := total_leaving_add_ahead_le raw (charge raw kept) seen
      (SortedSet.mem_insert.mpr (Or.inl rfl)) fun x h => SortedSet.mem_insert.mpr (Or.inr h)
    have pushes := total_pushed_le (charge raw kept) raw (s.visited.insert id) id
    omega

theorem Pops.add_dues_le {n : Nat} {t : Sweep} (pops : Pops raw kept n s t)
    (layered : Layered raw kept s) : n + dues raw kept t ≤ dues raw kept s := by
  induction pops with
  | none => exact Nat.le_of_eq (Nat.zero_add _)
  | next top more ih =>
    have less := dues_pop_lt top layered
    have later := ih (layered.pop top)
    omega

theorem layered_pop_start (raw : SortedSet Edge) (kept visited : SortedSet Nat)
    (removed : SortedSet Edge) (start : Nat) :
    Layered raw kept (pop raw kept ⟨visited, [start], removed⟩ start []) := by
  by_cases stop : start ∈ kept
  · rw [pop_of_kept stop]
    intro above x below split
    exact absurd split (by simp)
  · rw [pop_of_free stop]
    intro above x below split seen
    rcases mem_front_or_under split with new | ⟨between, -, under⟩
    · exact absurd seen (mem_pushed.mp (List.mem_reverse.mp new)).2
    · exact absurd under (by simp)

theorem dues_pop_start_le (raw : SortedSet Edge) (kept visited : SortedSet Nat)
    (removed : SortedSet Edge) (start : Nat) :
    dues raw kept (pop raw kept ⟨visited, [start], removed⟩ start []) ≤
      raw.size * (1 + (raw.filter fun e => decide (e.target ∈ kept)).size) := by
  by_cases stop : start ∈ kept
  · rw [pop_of_kept stop, dues, total, Nat.zero_add]
    exact total_ahead_le raw kept visited
  · have pushes := total_pushed_le (charge raw kept) raw (visited.insert start) start
    have once := total_leaving_add_ahead_le raw (charge raw kept) SortedSet.not_mem_empty
      (SortedSet.mem_insert.mpr (Or.inl rfl) : start ∈ visited.insert start)
      fun x h => absurd h SortedSet.not_mem_empty
    have most := total_ahead_le raw kept .empty
    rw [dues_pop_of_free stop, total]
    simp only
    omega

theorem Pops.length_le {visited : SortedSet Nat} {removed : SortedSet Edge} {start n : Nat}
    {t : Sweep} (pops : Pops raw kept n ⟨visited, [start], removed⟩ t) :
    n ≤ 1 + raw.size * (1 + (raw.filter fun e => decide (e.target ∈ kept)).size) := by
  cases pops with
  | none => exact Nat.zero_le _
  | next top more =>
    obtain ⟨rfl, rfl⟩ := List.cons.inj top
    have later := more.add_dues_le (layered_pop_start raw kept visited removed start)
    have most := dues_pop_start_le raw kept visited removed start
    omega

/-- A sweep ends: from any node, whatever is visited before, so many pops leave the stack empty. -/
theorem stack_empties (raw : SortedSet Edge) (kept visited : SortedSet Nat) (removed : SortedSet Edge)
    (start : Nat) :
    ∃ n t, Pops raw kept n ⟨visited, [start], removed⟩ t ∧ t.stack = [] ∧
      t = run raw kept ⟨visited, [start], removed⟩ ∧
        n ≤ 1 + raw.size * (1 + (raw.filter fun e => decide (e.target ∈ kept)).size) := by
  obtain ⟨n, pops⟩ := exists_pops_run raw kept ⟨visited, [start], removed⟩
  exact ⟨n, _, pops, stack_run raw kept _, rfl, pops.length_le⟩

-- Two edges lead to 2, so it is expanded twice and pushes the taken callees 3 and 4 each time.
example : ∃ t, Pops (.ofList [⟨1, 2, .call⟩, ⟨1, 2, .use⟩, ⟨2, 3, .call⟩, ⟨2, 4, .call⟩])
    (.ofList [3, 4]) 7 ⟨.empty, [1], .empty⟩ t ∧ t.stack = [] :=
  ⟨_, .next rfl (.next rfl (.next rfl (.next rfl (.next rfl (.next rfl (.next rfl .none)))))), rfl⟩

end HandlerGraph.Sweep
