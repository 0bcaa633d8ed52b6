import HandlerGraph.Proofs.Index
import HandlerGraph.Proofs.Reduction
import HandlerGraph.Proofs.Sweep
import Mathlib.Order.Bounds.Basic

/-! Switch noise without reference to a sweep. A record confirms a call between two nodes that are
the lowest ones its texts can stand for. The edges that leave a confirmed caller otherwise are the
untaken cases; noise is these and what leaves the nodes that paths reach from them without passing
through a confirmed callee. Such a path may come back to a switch or enter code that a taken case
needs as well. What the taken cases need is therefore safe only where no untaken case reaches it,
and the tangled behavior at the end shows both ways to lose it. -/
namespace HandlerGraph

theorem head?_eq_some_iff_isLeast {l : List Nat} (ascending : l.Pairwise (· < ·)) {id : Nat} :
    l.head? = some id ↔ IsLeast {x | x ∈ l} id := by
  cases l with
  | nil => simp [IsLeast]
  | cons first rest =>
    have least : IsLeast {x | x ∈ first :: rest} first := by
      refine ⟨List.mem_cons_self, fun x mem => ?_⟩
      rcases List.mem_cons.mp mem with rfl | mem
      · exact Nat.le_refl _
      · exact Nat.le_of_lt ((List.pairwise_cons.mp ascending).1 x mem)
    rw [List.head?_cons, Option.some.injEq]
    constructor
    · rintro rfl
      exact least
    · exact least.unique

namespace Graph

def HasName (g : Graph) (name : String) (id : Nat) : Prop :=
  ∃ n, g.node? id = some n ∧ n.name = name

section names
variable {g : Graph} {nodes : List Node} {rows : List Edge} {trackFind : Bool} {name : String}
  {id : Nat}

theorem mem_idsNamed_build (built : build nodes rows trackFind = .ok g) :
    id ∈ g.idsNamed name ↔ g.HasName name id := by
  rw [idsNamed_build built, HasName, node?, nodes_build built]
  simp [List.mem_zipIdx_iff_getElem?]

theorem head?_idsNamed_eq_some (built : build nodes rows trackFind = .ok g) :
    (g.idsNamed name).head? = some id ↔ IsLeast {id | g.HasName name id} id := by
  rw [head?_eq_some_iff_isLeast (ascending_idsNamed built name)]
  simp only [mem_idsNamed_build built]

theorem head?_idsNamed_eq_none (built : build nodes rows trackFind = .ok g) :
    (g.idsNamed name).head? = none ↔ ∀ id, ¬ g.HasName name id := by
  rw [List.head?_eq_none_iff, List.eq_nil_iff_forall_not_mem]
  simp only [mem_idsNamed_build built]

end names

/-- What a signature stands for where `caller` calls it: the lowest node with that name or, if there
is none, the lowest target of an edge leaving the caller whose name contains the member part. -/
def StandsFor (g : Graph) (edges : SortedSet Edge) (caller : Nat) (signature : String)
    (callee : Nat) : Prop :=
  IsLeast {id | g.HasName signature id} callee ∨
    (∀ id, ¬ g.HasName signature id) ∧
      IsLeast {id | (∃ e ∈ edges, e.source = caller ∧ e.target = id) ∧
        Text.fromFirst ':' signature.toList <:+: (g.nameOf id).toList} callee

def Confirmed (g : Graph) (coverage : Coverage) (resources : Resources) (raw : RawBehavior)
    (caller callee : Nat) : Prop :=
  ∃ c ∈ g.switchCases coverage resources raw.control raw.callback, ∃ signature,
    enclosingSignature c.callee = some signature ∧ IsLeast {id | g.HasName c.caller id} caller ∧
      g.StandsFor raw.edges caller signature callee

def Untaken (g : Graph) (coverage : Coverage) (resources : Resources) (raw : RawBehavior)
    (base : SortedSet Edge) (e : Edge) : Prop :=
  e ∈ base ∧ (∃ callee, g.Confirmed coverage resources raw e.source callee) ∧
    ¬ (e.relation = .call ∧ g.Confirmed coverage resources raw e.source e.target)

def ReachesOpenly (g : Graph) (coverage : Coverage) (resources : Resources) (raw : RawBehavior)
    (first last : Nat) : Prop :=
  (¬ ∃ caller, g.Confirmed coverage resources raw caller first) ∧
    Relation.ReflTransGen (fun id next => (∃ e ∈ raw.edges, e.source = id ∧ e.target = next) ∧
      ¬ ∃ caller, g.Confirmed coverage resources raw caller next) first last

section spec
variable {g : Graph} {nodes : List Node} {rows : List Edge} {trackFind : Bool}
  {coverage : Coverage} {resources : Resources} {raw : RawBehavior} {base : SortedSet Edge}
  {e : Edge} {id : Nat}

theorem callee?_eq_some_iff (built : build nodes rows trackFind = .ok g) {edges : SortedSet Edge}
    {caller callee : Nat} {signature : String} :
    TakenCases.callee? g edges caller signature = some callee ↔
      g.StandsFor edges caller signature callee := by
  have member : ∀ id, TakenCases.Matches g edges caller signature id ↔
      (∃ e ∈ edges, e.source = caller ∧ e.target = id) ∧
        Text.fromFirst ':' signature.toList <:+: (g.nameOf id).toList := by
    intro id
    rw [TakenCases.Matches, Text.occursIn_iff]
  rw [TakenCases.callee?, StandsFor]
  cases named : (g.idsNamed signature).head? with
  | some lowest =>
    have least := (head?_idsNamed_eq_some built).mp named
    simp only [Option.some.injEq]
    constructor
    · rintro rfl
      exact Or.inl least
    · rintro (other | ⟨unknown, -⟩)
      · exact least.unique other
      · exact absurd least.1 (unknown lowest)
  | none =>
    have unknown := (head?_idsNamed_eq_none built).mp named
    have nameless : ¬ IsLeast {id | g.HasName signature id} callee := fun least =>
      unknown callee least.1
    rw [or_iff_right nameless, and_iff_right unknown]
    simp only [TakenCases.inheritedCallee?_eq_some_iff, member]
    rfl

theorem confirmed_iff (built : build nodes rows trackFind = .ok g) {caller callee : Nat} :
    g.Confirmed coverage resources raw caller callee ↔
      ∃ c ∈ g.switchCases coverage resources raw.control raw.callback,
        c.Confirms g raw.edges caller callee := by
  simp only [Confirmed, SwitchCase.Confirms, head?_idsNamed_eq_some built,
    callee?_eq_some_iff built]

theorem mem_calls_taken (built : build nodes rows trackFind = .ok g) :
    e ∈ (g.taken coverage resources raw).calls ↔
      e.relation = .call ∧ g.Confirmed coverage resources raw e.source e.target := by
  rw [taken, TakenCases.mem_calls_ofCases, confirmed_iff built, and_comm]

theorem mem_callers_taken (built : build nodes rows trackFind = .ok g) :
    id ∈ (g.taken coverage resources raw).callers ↔
      ∃ callee, g.Confirmed coverage resources raw id callee := by
  rw [taken, TakenCases.mem_callers_ofCases]
  simp only [confirmed_iff built]
  grind

theorem mem_callees_taken (built : build nodes rows trackFind = .ok g) :
    id ∈ (g.taken coverage resources raw).callees ↔
      ∃ caller, g.Confirmed coverage resources raw caller id := by
  rw [TakenCases.mem_callees]
  constructor
  · rintro ⟨e, call, rfl⟩
    exact ⟨e.source, ((mem_calls_taken built).mp call).2⟩
  · rintro ⟨caller, confirmed⟩
    exact ⟨⟨caller, id, .call⟩, (mem_calls_taken built).mpr ⟨rfl, confirmed⟩, rfl⟩

theorem mem_untakenCases_taken (built : build nodes rows trackFind = .ok g) :
    e ∈ untakenCases (g.taken coverage resources raw) base ↔
      g.Untaken coverage resources raw base e := by
  rw [mem_untakenCases, mem_callers_taken built, mem_calls_taken built, Untaken]

theorem open_iff_reachesOpenly (built : build nodes rows trackFind = .ok g) {first last : Nat} :
    Sweep.Open raw.edges (g.taken coverage resources raw).callees first last ↔
      g.ReachesOpenly coverage resources raw first last := by
  constructor
  · intro path
    induction path with
    | here free => exact ⟨fun taken => free ((mem_callees_taken built).mpr taken), .refl⟩
    | step _ mem free ih =>
      exact ⟨ih.1, ih.2.tail ⟨⟨_, mem, rfl, rfl⟩, fun taken =>
        free ((mem_callees_taken built).mpr taken)⟩⟩
  · rintro ⟨free, path⟩
    induction path with
    | refl => exact .here fun taken => free ((mem_callees_taken built).mp taken)
    | tail _ step ih =>
      obtain ⟨⟨e, mem, rfl, rfl⟩, free⟩ := step
      exact ih.step mem fun taken => free ((mem_callees_taken built).mp taken)

theorem ReachesOpenly.last_free {first last : Nat}
    (h : g.ReachesOpenly coverage resources raw first last) :
    ¬ ∃ caller, g.Confirmed coverage resources raw caller last := by
  rcases h.2.cases_tail with rfl | ⟨_, _, _, free⟩
  · exact h.1
  · exact free

theorem mem_removed_iff (built : build nodes rows trackFind = .ok g) :
    e ∈ (g.switchNoise coverage resources raw base).removed ↔
      g.Untaken coverage resources raw base e ∨
        e ∈ raw.edges ∧ ∃ c, g.Untaken coverage resources raw base c ∧
          g.ReachesOpenly coverage resources raw c.target e.source := by
  rw [mem_removed_switchNoise]
  simp only [mem_untakenCases_taken built, open_iff_reachesOpenly built]

/-- The removed edges are the untaken cases and what they reach openly, none without a confirmed
call; the inherited methods are the signatures of the records whose caller has no node. -/
theorem switchNoise_spec (built : build nodes rows trackFind = .ok g) (coverage : Coverage)
    (resources : Resources) (raw : RawBehavior) (base : SortedSet Edge) :
    ((¬ ∃ caller callee, g.Confirmed coverage resources raw caller callee) →
      (g.switchNoise coverage resources raw base).removed = .empty) ∧
    {e | e ∈ (g.switchNoise coverage resources raw base).removed} =
      {e | g.Untaken coverage resources raw base e} ∪
        {e | e ∈ raw.edges ∧ ∃ c, g.Untaken coverage resources raw base c ∧
          g.ReachesOpenly coverage resources raw c.target e.source} ∧
    {signature | signature ∈ (g.switchNoise coverage resources raw base).inherited} =
      {signature | ∃ c ∈ g.switchCases coverage resources raw.control raw.callback,
        enclosingSignature c.callee = some signature ∧ ∀ id, ¬ g.HasName c.caller id} := by
  refine ⟨fun unconfirmed => SortedSet.ext_mem fun e => ?_, Set.ext fun e => mem_removed_iff built,
    Set.ext fun signature => ?_⟩
  · have taken : ∀ c, ¬ g.Untaken coverage resources raw base c := by
      rintro c ⟨-, ⟨callee, confirmed⟩, -⟩
      exact unconfirmed ⟨c.source, callee, confirmed⟩
    simp [mem_removed_iff built, taken]
  · rw [Set.mem_ofPred_eq, inherited_switchNoise, taken, TakenCases.mem_inherited_ofCases]
    simp only [SwitchCase.Inherits, head?_idsNamed_eq_none built, Set.mem_ofPred_eq]

end spec

/-- A switch with two cases that share a helper. The case that hides also comes back to the
switch. -/
def tangledNodes : List Node :=
  [.widget "Button" "main.xml" 7, .method "<app.Main: void onClick()>" "-",
    .method "<app.Main: void show()>" "-", .method "<app.Main: void hide()>" "-",
    .method "<app.Main: void log()>" "-", .method "<android.util.Log: void d()>" "android.util"]

def tangledRows : List Edge :=
  [⟨0, 1, .event⟩, ⟨1, 2, .call⟩, ⟨1, 3, .call⟩, ⟨2, 4, .call⟩, ⟨3, 1, .call⟩, ⟨3, 4, .call⟩,
    ⟨4, 5, .call⟩]

def tangled : Graph := tangledRows.foldl (enter false) (start tangledNodes tangledRows)

theorem build_tangled : build tangledNodes tangledRows false = .ok tangled := rfl

def tangledRaw (edges : List Edge) : RawBehavior := .ofEdges 0 1 (.ofList edges) .empty

theorem confirmed_tangled {edges : List Edge} {caller callee : Nat} :
    tangled.Confirmed sampleAux.coverage sampleAux.resources (tangledRaw edges) caller callee ↔
      caller = 1 ∧ callee = 2 := by
  have located : tangled.switchCases sampleAux.coverage sampleAux.resources
      (tangledRaw edges).control (tangledRaw edges).callback =
        [⟨"<app.Main: void onClick()>", "<app.Main: void show()>"⟩] := rfl
  have span : enclosingSignature "<app.Main: void show()>" =
      some "<app.Main: void show()>" := by decide
  have first : (tangled.idsNamed "<app.Main: void onClick()>").head? = some 1 := by
    rw [idsNamed_build build_tangled]
    decide
  have second : (tangled.idsNamed "<app.Main: void show()>").head? = some 2 := by
    rw [idsNamed_build build_tangled]
    decide
  rw [confirmed_iff build_tangled, located]
  simp only [List.mem_singleton, exists_eq_left, SwitchCase.Confirms, span, first,
    Option.some.injEq, exists_eq_left', TakenCases.callee?, second]
  exact and_congr eq_comm eq_comm

theorem untaken_tangled {edges : List Edge} {e : Edge} :
    tangled.Untaken sampleAux.coverage sampleAux.resources (tangledRaw edges)
        (tangledRaw edges).base e ↔
      e ∈ (tangledRaw edges).base ∧ e.source = 1 ∧ ¬ (e.relation = .call ∧ e.target = 2) := by
  simp only [Untaken, confirmed_tangled]
  grind

theorem reachesOpenly_tangled {edges : List Edge} {e : Edge} (mem : e ∈ (tangledRaw edges).edges)
    (source : e.source ≠ 2) (target : e.target ≠ 2) :
    tangled.ReachesOpenly sampleAux.coverage sampleAux.resources (tangledRaw edges) e.source
      e.target := by
  refine ⟨?_, .single ⟨⟨e, mem, rfl, rfl⟩, ?_⟩⟩
  · simpa [confirmed_tangled] using source
  · simpa [confirmed_tangled] using target

theorem switchNoise_spec_tangled :
    build tangledNodes tangledRows false = .ok tangled ∧
      ⟨4, 5, .call⟩ ∈ (tangled.noise sampleAux (tangledRaw tangledRows)).removed ∧
      ¬ ⟨2, 4, .call⟩ ∈ (tangled.noise sampleAux (tangledRaw tangledRows)).removed := by
  obtain ⟨-, removed, -⟩ := switchNoise_spec build_tangled sampleAux.coverage sampleAux.resources
    (tangledRaw tangledRows) (tangledRaw tangledRows).base
  simp only [Set.ext_iff, Set.mem_union, Set.mem_ofPred_eq] at removed
  simp only [noise, removed]
  refine ⟨build_tangled, Or.inr ⟨by decide, ⟨1, 3, .call⟩, ?_, ?_⟩, ?_⟩
  · exact untaken_tangled.mpr (by decide)
  · exact @reachesOpenly_tangled tangledRows ⟨3, 4, .call⟩ (by decide) (by decide) (by decide)
  · rintro (untaken | ⟨-, c, -, path⟩)
    · exact absurd (untaken_tangled.mp untaken) (by decide)
    · exact path.last_free ⟨1, confirmed_tangled.mpr ⟨rfl, rfl⟩⟩

def FollowsTaken (g : Graph) (coverage : Coverage) (resources : Resources) (raw : RawBehavior)
    (id : Nat) : Prop :=
  ∃ caller callee, g.Confirmed coverage resources raw caller callee ∧
    Relation.ReflTransGen (fun x next => ∃ e ∈ raw.edges,
      ¬ g.Untaken coverage resources raw raw.base e ∧ e.source = x ∧ e.target = next) callee id

/-- What the taken cases need: the confirmed calls, and the edges that lead on from them. -/
def Needed (g : Graph) (coverage : Coverage) (resources : Resources) (raw : RawBehavior)
    (e : Edge) : Prop :=
  e ∈ raw.edges ∧ (e.relation = .call ∧ g.Confirmed coverage resources raw e.source e.target ∨
    ¬ g.Untaken coverage resources raw raw.base e ∧ g.FollowsTaken coverage resources raw e.source)

theorem Needed.not_untaken {g : Graph} {coverage : Coverage} {resources : Resources}
    {raw : RawBehavior} {e : Edge} (h : g.Needed coverage resources raw e) :
    ¬ g.Untaken coverage resources raw raw.base e := by
  rcases h.2 with call | ⟨other, -⟩
  · exact fun untaken => untaken.2.2 call
  · exact other

/-- What leaves a confirmed callee stays unless it is itself an untaken case. All that the taken
cases need stays exactly where no untaken case openly reaches a node that it leaves. -/
theorem needed_stays_iff {g : Graph} {nodes : List Node} {rows : List Edge} {trackFind : Bool}
    (built : build nodes rows trackFind = .ok g) (coverage : Coverage) (resources : Resources)
    (raw : RawBehavior) :
    (∀ e ∈ raw.edges, ¬ g.Untaken coverage resources raw raw.base e →
      (∃ caller, g.Confirmed coverage resources raw caller e.source) →
        ¬ e ∈ (g.switchNoise coverage resources raw raw.base).removed) ∧
    ((∀ e, g.Needed coverage resources raw e →
        ¬ e ∈ (g.switchNoise coverage resources raw raw.base).removed) ↔
      ∀ e, g.Needed coverage resources raw e → ∀ c,
        g.Untaken coverage resources raw raw.base c →
          ¬ g.ReachesOpenly coverage resources raw c.target e.source) := by
  have kept : ∀ e ∈ raw.edges, ¬ g.Untaken coverage resources raw raw.base e →
      (¬ e ∈ (g.switchNoise coverage resources raw raw.base).removed ↔
        ∀ c, g.Untaken coverage resources raw raw.base c →
          ¬ g.ReachesOpenly coverage resources raw c.target e.source) := by
    intro e mem taken
    rw [mem_removed_iff built, or_iff_right taken, and_iff_right mem]
    simp only [not_exists, not_and]
  constructor
  · intro e mem taken callee
    exact (kept e mem taken).mpr fun c _ path => path.last_free callee
  · exact forall₂_congr fun e needed => kept e needed.1 needed.not_untaken

theorem needed_stays_iff_tangled :
    build tangledNodes tangledRows false = .ok tangled ∧
      ∀ e, tangled.Needed sampleAux.coverage sampleAux.resources
          (tangledRaw (tangledRows.filter (·.source ≠ 3))) e →
        ¬ e ∈ (tangled.noise sampleAux
          (tangledRaw (tangledRows.filter (·.source ≠ 3)))).removed := by
  simp only [noise]
  refine ⟨build_tangled, (needed_stays_iff build_tangled _ _ _).2.mpr ?_⟩
  intro e needed c untaken path
  have hides : ∀ c ∈ (tangledRaw (tangledRows.filter (·.source ≠ 3))).base.toList,
      c.source = 1 → ¬ (c.relation = .call ∧ c.target = 2) → c.target = 3 := by decide
  have stops : ∀ e ∈ (tangledRaw (tangledRows.filter (·.source ≠ 3))).edges.toList,
      e.source ≠ 3 := by decide
  obtain ⟨base, source, other⟩ := untaken_tangled.mp untaken
  have target := hides c base source other
  rcases path.2.cases_head with same | ⟨_, ⟨⟨f, mem, first, -⟩, -⟩, -⟩
  · exact stops e needed.1 (same.symm.trans target)
  · exact stops f mem (first.trans target)

/-- The confirmed call goes, since hiding comes back to the switch, and so does the way on from the
helper, although the taken case calls it as well. -/
theorem needed_removed_tangled :
    build tangledNodes tangledRows false = .ok tangled ∧
      ∀ e ∈ [(⟨1, 2, .call⟩ : Edge), ⟨4, 5, .call⟩],
        tangled.Needed sampleAux.coverage sampleAux.resources (tangledRaw tangledRows) e ∧
          e ∈ (tangled.noise sampleAux (tangledRaw tangledRows)).removed := by
  have hides : tangled.Untaken sampleAux.coverage sampleAux.resources (tangledRaw tangledRows)
      (tangledRaw tangledRows).base ⟨1, 3, .call⟩ := untaken_tangled.mpr (by decide)
  have back := @reachesOpenly_tangled tangledRows ⟨3, 1, .call⟩ (by decide) (by decide)
    (by decide)
  have shared := @reachesOpenly_tangled tangledRows ⟨3, 4, .call⟩ (by decide) (by decide)
    (by decide)
  simp only [noise, mem_removed_iff build_tangled]
  refine ⟨build_tangled, List.forall_mem_cons.mpr ⟨⟨?_, ?_⟩, List.forall_mem_singleton.mpr ⟨?_, ?_⟩⟩⟩
  · exact ⟨by decide, Or.inl ⟨rfl, confirmed_tangled.mpr ⟨rfl, rfl⟩⟩⟩
  · exact Or.inr ⟨by decide, _, hides, back⟩
  · have helper : ¬ tangled.Untaken sampleAux.coverage sampleAux.resources (tangledRaw tangledRows)
        (tangledRaw tangledRows).base ⟨2, 4, .call⟩ := mt untaken_tangled.mp (by decide)
    refine ⟨by decide, Or.inr ⟨mt untaken_tangled.mp (by decide), 1, 2, ?_, ?_⟩⟩
    · exact confirmed_tangled.mpr ⟨rfl, rfl⟩
    · exact .single ⟨⟨2, 4, .call⟩, by decide, helper, rfl, rfl⟩
  · exact Or.inr ⟨by decide, _, hides, shared⟩

end Graph
end HandlerGraph
