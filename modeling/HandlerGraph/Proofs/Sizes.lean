import HandlerGraph.Proofs.ReducedFile
import HandlerGraph.Proofs.Repetition

/-! What the recorded sizes say. The size of a reduced behavior is counted when it is made. The size
before reduction is not: it is copied from the raw behavior, and what is read from a raw file is
taken as it stands. So after a run all sizes are true if the raw behaviors were extracted; if they
were found in their file, exactly if the sizes there are true of every behavior of interest. -/
namespace HandlerGraph

def Size.Counts (s : Size) (edges : SortedSet Edge) : Prop :=
  s.edge = {e | e ∈ edges}.encard ∧ s.node = {x | ∃ e ∈ edges, x = e.source ∨ x = e.target}.encard

theorem Size.counts_iff {s : Size} {edges : SortedSet Edge} :
    s.Counts edges ↔ s = Size.of edges := by
  have ends : {x | ∃ e ∈ edges, x = e.source ∨ x = e.target} = {x | x ∈ endpoints edges} :=
    Set.ext fun _ => Graph.mem_endpoints.symm
  rw [Counts, ends, SortedSet.encard_members, SortedSet.encard_members, Nat.cast_inj, Nat.cast_inj]
  obtain ⟨node, edge⟩ := s
  simp only [Size.of, mk.injEq]
  exact and_comm

theorem Size.of_le {few many : SortedSet Edge} (sub : ∀ e ∈ few, e ∈ many) :
    (Size.of few).edge ≤ (Size.of many).edge ∧ (Size.of few).node ≤ (Size.of many).node := by
  refine ⟨SortedSet.size_le_length sub, SortedSet.size_le_length fun x mem => ?_⟩
  obtain ⟨e, inside, ends⟩ := Graph.mem_endpoints.mp mem
  exact Graph.mem_endpoints.mpr ⟨e, sub e inside, ends⟩

/-- Both sizes of a reduced behavior count what they are said to count, so neither grew. -/
structure ReducedBehavior.Truthful (b : ReducedBehavior) (raw : RawBehavior) : Prop where
  size : b.size.Counts b.edges
  oldSize : b.oldSize.Counts raw.edges
  edge_le : b.size.edge ≤ b.oldSize.edge
  node_le : b.size.node ≤ b.oldSize.node

namespace Graph
variable {g : Graph} {aux : Auxiliary} {rule : ReductionRule} {time : Seconds} {raw : RawBehavior}

theorem counts_strip : (g.strip aux rule time raw).size.Counts (g.strip aux rule time raw).edges :=
  Size.counts_iff.mpr rfl

theorem truthful_strip_iff :
    (g.strip aux rule time raw).Truthful raw ↔ raw.size.Counts raw.edges := by
  refine ⟨fun truthful => truthful.oldSize, fun counts => ?_⟩
  have old : (g.strip aux rule time raw).oldSize = Size.of raw.edges := Size.counts_iff.mp counts
  obtain ⟨edge, node⟩ := Size.of_le fun e (mem : e ∈ g.keptEdges aux rule raw) =>
    mem_raw_of_mem_kept mem
  exact ⟨counts_strip, counts, old ▸ edge, old ▸ node⟩

theorem forall₂_reduceAll (g : Graph) (aux : Auxiliary) (rule : ReductionRule) (watch : Stopwatch)
    (raws : List RawBehavior) :
    List.Forall₂ (fun raw b => ∃ time, b = g.strip aux rule time raw)
      (raws.filter (g.interests aux rule)) (g.reduceAll aux rule watch raws).behaviors := by
  rw [reduceAll]
  dsimp only
  generalize 0 = first
  induction raws generalizing first with
  | nil => exact .nil
  | cons raw raws ih =>
    rw [List.zipIdx_cons]
    cases kept : g.interests aux rule raw with
    | false =>
      have dropped : g.reduce aux rule (watch.each first) raw = none := by simp [reduce, kept]
      rw [List.filter_cons_of_neg (by simp [kept]), List.filterMap_cons, dropped]
      exact ih (first + 1)
    | true =>
      have reduced : g.reduce aux rule (watch.each first) raw = some _ := if_pos kept
      rw [List.filter_cons_of_pos kept, List.filterMap_cons, reduced]
      exact .cons ⟨_, rfl⟩ (ih (first + 1))

theorem counts_of_mem_extractAll {extraction : ExtractionRule}
    (h : raw ∈ g.extractAll extraction) : raw.size.Counts raw.edges := by
  rw [extract_some (extract_of_mem_extractAll h)]
  exact Size.counts_iff.mpr rfl

end Graph

namespace AppFolder
variable {a : AppFolder} {s : Settings} {lists : KeywordLists} {watch : Stopwatch} {t : FileTree}
  {g : Graph} {raws : List RawBehavior} {reused : Bool} {steps : List Mutation}

def ofInterest (a : AppFolder) (s : Settings) (lists : KeywordLists) (t : FileTree) (g : Graph)
    (raws : List RawBehavior) : List RawBehavior :=
  raws.filter
    (g.interests (t.auxiliary a s.maxAuxiliaryBytes s.useFilter) (s.reductionRule lists))

def ReducesTo (a : AppFolder) (s : Settings) (lists : KeywordLists) (t : FileTree) (g : Graph)
    (raw : RawBehavior) (b : ReducedBehavior) : Prop :=
  ∃ time, b =
    g.strip (t.auxiliary a s.maxAuxiliaryBytes s.useFilter) (s.reductionRule lists) time raw

variable {raw : RawBehavior} {b : ReducedBehavior} {behaviors : List ReducedBehavior}

theorem ReducesTo.sizes (h : a.ReducesTo s lists t g raw b) :
    b.size.Counts b.edges ∧ b.oldSize = raw.size := by
  obtain ⟨time, rfl⟩ := h
  exact ⟨Graph.counts_strip, rfl⟩

theorem ReducesTo.truthful_iff (h : a.ReducesTo s lists t g raw b) :
    b.Truthful raw ↔ raw.size.Counts raw.edges := by
  obtain ⟨time, rfl⟩ := h
  exact Graph.truthful_strip_iff

theorem forall₂_truthful_iff (h : List.Forall₂ (a.ReducesTo s lists t g) raws behaviors) :
    List.Forall₂ (fun raw b => b.Truthful raw) raws behaviors ↔
      ∀ raw ∈ raws, raw.size.Counts raw.edges := by
  induction h with
  | nil => simp
  | cons first _ ih => rw [List.forall₂_cons, List.forall_mem_cons, first.truthful_iff, ih]

theorem forall₂_reducedOf (a : AppFolder) (s : Settings) (lists : KeywordLists)
    (watch : Stopwatch) (t : FileTree) (g : Graph) (raws : List RawBehavior) :
    List.Forall₂ (a.ReducesTo s lists t g) (a.ofInterest s lists t g raws)
      (a.reducedOf s lists watch t g raws).behaviors :=
  Graph.forall₂_reduceAll ..

theorem reduced_of_find {r : ReducedBehaviors}
    (found : t.find a.reducedBehaviors = .ok (.file r.write)) (fits : r.Fits) :
    a.reduced t = .ok r := by
  have whole : ReducedBehaviors.read? r.write = some r := by
    rw [ReducedBehaviors.read?, ReducedBehaviors.readAll?_write fits, Option.map_some,
      ReducedBehaviors.ofEntries_toEntries]
  rw [reduced, found]
  simp only [whole]

/-- After a run that processed its app, the result has one behavior for each raw behavior of
interest. The size of each is counted and its size before reduction is the one recorded for the raw
behavior. So all sizes are true if and only if those of the raw behaviors of interest were, which
they are if this run extracted them. -/
theorem truthful_sizes_iff {n m : Nat} {d : Disk}
    (done : Disk.run (a.run s lists watch) t = (.ok (.processed n m reused), d)) :
    ∃ (g : Graph) (raws : List RawBehavior) (r : ReducedBehaviors),
      t.graph a s.trackFind = .ok g ∧
      (if reused then a.cachedRaw? t = some raws
        else raws = g.extractAll (s.extractionRule lists)) ∧
      d.tree.find a.reducedBehaviors = .ok (.file r.write) ∧
      (r.Fits → a.reduced d.tree = .ok r) ∧
      List.Forall₂
        (fun raw b => a.ReducesTo s lists t g raw b ∧ b.size.Counts b.edges ∧ b.oldSize = raw.size)
        (a.ofInterest s lists t g raws) r.behaviors ∧
      (List.Forall₂ (fun raw b => b.Truthful raw) (a.ofInterest s lists t g raws) r.behaviors ↔
        ∀ raw ∈ a.ofInterest s lists t g raws, raw.size.Counts raw.edges) ∧
      (reused = false →
        List.Forall₂ (fun raw b => b.Truthful raw) (a.ofInterest s lists t g raws)
          r.behaviors) := by
  obtain ⟨g, raws, steps, processes, -, -, rfl⟩ := processes_of_run done
  have pairs := forall₂_reducedOf a s lists watch t g raws
  have source := processes.supply.source
  rw [Disk.tree_performAll]
  refine ⟨g, raws, _, processes.loaded, source, processes.find_reduced,
    fun fits => reduced_of_find processes.find_reduced fits,
    pairs.imp fun raw b reduces => ⟨reduces, reduces.sizes⟩, forall₂_truthful_iff pairs, ?_⟩
  rintro rfl
  refine (forall₂_truthful_iff pairs).mpr fun raw mem => ?_
  have extracted : raw ∈ g.extractAll (s.extractionRule lists) :=
    source ▸ (List.mem_filter.mp mem).1
  exact Graph.counts_of_mem_extractAll extracted

def recorded (size : Size) : RawBehavior :=
  ⟨0, 1, size, .ofList [⟨0, 1, .event⟩, ⟨1, 2, .call⟩], .empty⟩

def recordedTree (size : Size) : FileTree where
  entries := .ofList [(["shop"], .folder), (["shop", "encoding"], .folder),
    (["shop", "encoding", "node.csv"], .file (Text.encode "Name,UI\nButton,1\nclick,\nshow,\n")),
    (["shop", "encoding", "edge.csv"], .file (Text.encode "From,To,Type\n0,1,4\n1,2,0\n")),
    (["shop", "encoding", "uhg_full.json"], .file (RawBehavior.writeAll [recorded size]))]
  home := []

def recordedResult (size : Size) : ReducedBehaviors :=
  ⟨0, [⟨0, 1, ⟨3, 2⟩, size, ⟨0, 0, none⟩, (recorded size).edges, .empty, none⟩]⟩

theorem processes_recorded {size : Size} (h : size ∈ [(⟨1, 1⟩ : Size), ⟨3, 2⟩]) : ∃ g,
    sample.Processes .default default (recordedTree size) g [recorded size] true [] ∧
    sample.reducedOf .default default .stopped (recordedTree size) g [recorded size] =
      recordedResult size := by
  have loads : ∀ size ∈ [(⟨1, 1⟩ : Size), ⟨3, 2⟩],
      ((recordedTree size).graph sample Settings.default.trackFind).toOption.map (fun g =>
        sample.reducedOf .default default .stopped (recordedTree size) g [recorded size]) =
          some (recordedResult size) := by decide +kernel
  have finds : ∀ size ∈ [(⟨1, 1⟩ : Size), ⟨3, 2⟩], (recordedTree size).find sample.rawBehaviors =
      .ok (.file (RawBehavior.writeAll [recorded size])) ∧ (recorded size).Fits := by
    decide +kernel
  have free : ∀ size ∈ [(⟨1, 1⟩ : Size), ⟨3, 2⟩], ∀ name ∈ outputNames,
      sample.IsFree (recordedTree size) name := by decide +kernel
  obtain ⟨found, fits⟩ := finds size h
  have cached : sample.cachedRaw? (recordedTree size) = some [recorded size] := by
    rw [cachedRaw?_of_find found, RawBehavior.readAll?_writeAll,
      if_pos (List.forall_mem_singleton.mpr fits)]
  have loads := loads size h
  cases loaded : (recordedTree size).graph sample Settings.default.trackFind with
  | error f =>
    rw [loaded] at loads
    cases loads
  | ok g =>
    rw [loaded] at loads
    exact ⟨g, ⟨unfinished_of_raw found, loaded, .cached (usableRaw?_eq_some.mpr ⟨rfl, cached⟩),
      free size h _ (by decide), free size h _ (by decide)⟩, Option.some.inj loads⟩

theorem run_recorded {size : Size} (h : size ∈ [(⟨1, 1⟩ : Size), ⟨3, 2⟩]) : ∃ d,
    Disk.run (sample.run .default default .stopped) (recordedTree size) =
      (.ok (.processed 1 1 true), d) ∧
    sample.cachedRaw? (recordedTree size) = some [recorded size] ∧
    d.tree.find sample.reducedBehaviors = .ok (.file (recordedResult size).write) := by
  obtain ⟨g, processes, result⟩ := processes_recorded h
  refine ⟨(Disk.ofTree (recordedTree size)).performAll
    (sample.course .default default .stopped (recordedTree size)).steps, ?_,
    processes.supply.source, ?_⟩
  · rw [run_eq_course, processes.course_eq, result]
    rfl
  · rw [Disk.tree_performAll, ← result]
    exact processes.find_reduced

theorem truthful_sizes_iff_recorded :
    ∃ (d : Disk) (r : ReducedBehaviors),
      Disk.run (sample.run .default default .stopped) (recordedTree ⟨3, 2⟩) =
        (.ok (.processed 1 1 true), d) ∧
      d.tree.find sample.reducedBehaviors = .ok (.file r.write) ∧
      List.Forall₂ (fun raw b => b.Truthful raw) [recorded ⟨3, 2⟩] r.behaviors := by
  obtain ⟨d, done, cached, -⟩ := @run_recorded ⟨3, 2⟩ (by decide)
  obtain ⟨g, raws, r, -, source, found, -, -, truthful, -⟩ := truthful_sizes_iff done
  obtain rfl : [recorded ⟨3, 2⟩] = raws := Option.some.inj (cached.symm.trans source)
  have all : sample.ofInterest .default default (recordedTree ⟨3, 2⟩) g [recorded ⟨3, 2⟩] =
      [recorded ⟨3, 2⟩] := rfl
  rw [all] at truthful
  refine ⟨d, r, done, found, truthful.mpr (List.forall_mem_singleton.mpr ?_)⟩
  exact Size.counts_iff.mpr (by decide)

/-- With another size, the run reports a size before reduction that the behavior never had and that
is less than the size after. -/
theorem size_grows_recorded :
    ∃ d, Disk.run (sample.run .default default .stopped) (recordedTree ⟨1, 1⟩) =
        (.ok (.processed 1 1 true), d) ∧
      sample.cachedRaw? (recordedTree ⟨1, 1⟩) = some [recorded ⟨1, 1⟩] ∧
      sample.reduced d.tree = .ok (recordedResult ⟨1, 1⟩) ∧
      ∀ b ∈ (recordedResult ⟨1, 1⟩).behaviors, ¬ b.oldSize.Counts (recorded ⟨1, 1⟩).edges ∧
        b.oldSize.edge < b.size.edge ∧ b.oldSize.node < b.size.node := by
  obtain ⟨d, done, cached, found⟩ := @run_recorded ⟨1, 1⟩ (by decide)
  have fits : (recordedResult ⟨1, 1⟩).Fits := by
    refine ⟨?_, ?_, ?_⟩
    all_goals decide +kernel
  refine ⟨d, done, cached, reduced_of_find found fits, ?_⟩
  simp only [Size.counts_iff]
  decide

end AppFolder
end HandlerGraph
