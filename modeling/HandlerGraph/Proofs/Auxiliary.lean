import HandlerGraph.Proofs.Footprint
import HandlerGraph.Proofs.Locality

/-! Auxiliary data never decides how a run goes. It is looked at only when behaviors are reduced, and
what it can change there is which edges and how many behaviors are left, not whether there is a
result. In two trees that differ at most in the auxiliary files of an app, runs end the same way up
to the number of reduced behaviors and leave the same raw file. A file that its reader rejects might
as well be absent: without it everything is the same up to the recorded times. -/
namespace HandlerGraph

def Outcome.unreduced : Outcome → Option (Nat × Bool)
  | processed raw _ reused => some (raw, reused)
  | skipped => none

namespace FileTree
variable {t t' : FileTree} {place target : Place} {parts : List String}

/-- Without parent signs a path only leads down. -/
theorem prefix_of_follow (plain : ".." ∉ parts) (h : t.follow place parts = .ok target) :
    place <+: target := by
  induction parts generalizing place with
  | nil =>
    obtain rfl := Except.ok.inj h
    exact List.prefix_rfl
  | cons part parts ih =>
    rw [List.mem_cons, not_or] at plain
    obtain ⟨-, -, further⟩ := follow_cons_ok h
    have down : place <+: next place part := by
      rw [next]
      split
      · exact List.prefix_rfl
      · rw [if_neg (Ne.symm plain.1)]
        exact List.prefix_append place [part]
    exact down.trans (ih plain.2 further)

theorem follow_of_prefixes (plain : ".." ∉ parts) (h : t.follow place parts = .ok target)
    (same : ∀ q, q <+: target → t'.get? q = t.get? q) : t'.follow place parts = .ok target := by
  induction parts generalizing place with
  | nil => exact h
  | cons part parts ih =>
    have here := same place (prefix_of_follow plain h)
    obtain ⟨there, fits, further⟩ := follow_cons_ok h
    rw [List.mem_cons, not_or] at plain
    rw [follow, here, there]
    simp only [fits, if_true]
    exact ih plain.2 further

theorem follow_congr (same : ∀ q, t'.get? q = t.get? q) :
    t'.follow place parts = t.follow place parts := by
  induction parts generalizing place with
  | nil => rfl
  | cons part parts ih =>
    rw [follow, follow, same]
    simp only [ih]

end FileTree

namespace AppFolder
variable {a : AppFolder} {s : Settings} {lists : KeywordLists} {watch watch' : Stopwatch}
  {t t' : FileTree} {root p : Place} {name : String}

def auxiliaryNames : List String := ["add_info.json", "values", "ui_context.json"]

def IsAuxiliary (a : AppFolder) (t : FileTree) (p : Place) : Prop :=
  ∃ root, t.reach a.root = .ok root ∧ ∃ name ∈ auxiliaryNames, root ++ [name] <+: p

/-- Two trees in which an app lies in one place, and which differ in its auxiliary files at most. -/
structure AuxiliaryOnly (a : AppFolder) (t t' : FileTree) : Prop where
  root : t'.reach a.root = t.reach a.root
  entries : ∀ p, ¬ a.IsAuxiliary t p → t'.get? p = t.get? p

theorem not_isAuxiliary_above (h : t.reach a.root = .ok root) (above : p <+: root) :
    ¬ a.IsAuxiliary t p := by
  rintro ⟨other, reached, name, -, below⟩
  obtain rfl := Except.ok.inj (h.symm.trans reached)
  have longer := (below.trans above).length_le
  simp at longer

theorem not_isAuxiliary_of_name (h : t.reach a.root = .ok root) (other : name ∉ auxiliaryNames)
    (below : Place) : ¬ a.IsAuxiliary t (root ++ name :: below) := by
  rintro ⟨_, reached, n, listed, inside⟩
  obtain rfl := Except.ok.inj (h.symm.trans reached)
  rw [List.prefix_append_right_inj, List.cons_prefix_cons] at inside
  obtain ⟨rfl, -⟩ := inside
  exact other listed

theorem auxiliaryOnly_of_plain (plain : ".." ∉ Path.parts a.root) (home : t'.home = t.home)
    (entries : ∀ p, ¬ a.IsAuxiliary t p → t'.get? p = t.get? p) : a.AuxiliaryOnly t t' := by
  refine ⟨?_, entries⟩
  have origin : t'.origin a.root = t.origin a.root := by simp [FileTree.origin, home]
  cases reached : t.reach a.root with
  | ok root =>
    rw [FileTree.reach, origin]
    exact FileTree.follow_of_prefixes plain reached fun q above =>
      entries q (not_isAuxiliary_above reached above)
  | error trouble =>
    -- An app that is nowhere has no auxiliary files, so the trees do not differ at all.
    have everywhere : ∀ p, t'.get? p = t.get? p := by
      refine fun p => entries p ?_
      rintro ⟨root, found, -⟩
      cases reached.symm.trans found
    rw [FileTree.reach, origin, FileTree.follow_congr everywhere]
    exact reached

theorem AuxiliaryOnly.encoding (only : a.AuxiliaryOnly t t') : FileTree.SameFrom t t' a.encoding :=
  FileTree.sameFrom_join (by decide) only.root
    (fun p h => only.entries p (not_isAuxiliary_above h List.prefix_rfl))
    fun p h below => only.entries _ (not_isAuxiliary_of_name h (by decide) below)

theorem Opens.not_isAuxiliary (opens : a.Opens t) (name : String) :
    ¬ a.IsAuxiliary t (a.place t name) := by
  obtain ⟨root, reached, -, desk⟩ := opens.root
  rw [place, desk, List.append_assoc]
  exact not_isAuxiliary_of_name reached (by decide) [name]

theorem reducedWith_auxiliary (a : AppFolder) (s : Settings) (lists : KeywordLists)
    (watch watch' : Stopwatch) (aux aux' : Auxiliary) (t : FileTree) (g : Graph)
    (raw : List RawBehavior) (reused : Bool) :
    (a.reducedWith s lists watch aux t g raw reused).result.map Outcome.unreduced =
        (a.reducedWith s lists watch' aux' t g raw reused).result.map Outcome.unreduced ∧
      ∀ u : FileTree,
        (u.applyAll (a.reducedWith s lists watch aux t g raw reused).steps).get?
            (a.place t rawName) =
          (u.applyAll (a.reducedWith s lists watch' aux' t g raw reused).steps).get?
            (a.place t rawName) := by
  let r := g.reduceAll aux (s.reductionRule lists) watch raw
  let r' := g.reduceAll aux' (s.reductionRule lists) watch' raw
  have results := a.saving_result t reducedName r.write r'.write
  have kept : ∀ (u : FileTree) (bytes : List UInt8),
      (u.applyAll (a.saving t reducedName bytes).steps).get? (a.place t rawName) =
        u.get? (a.place t rawName) := fun u bytes => get?_saving_other raw_apart.1 raw_apart.2
  simp only [reducedWith, Course.andThen]
  rw [← results]
  cases (a.saving t reducedName r.write).result with
  | error f => exact ⟨rfl, fun u => by rw [kept, kept]⟩
  | ok done =>
    refine ⟨by simp only [Except.map, Outcome.unreduced], fun u => ?_⟩
    rw [FileTree.applyAll_append, FileTree.applyAll_append, get?_dropped, get?_dropped, kept, kept]

theorem courseWith_auxiliary (a : AppFolder) (s : Settings) (lists : KeywordLists)
    (watch watch' : Stopwatch) (aux aux' : Auxiliary) (t : FileTree) :
    (a.courseWith s lists watch aux t).result.map Outcome.unreduced =
        (a.courseWith s lists watch' aux' t).result.map Outcome.unreduced ∧
      (t.applyAll (a.courseWith s lists watch aux t).steps).get? (a.place t rawName) =
        (t.applyAll (a.courseWith s lists watch' aux' t).steps).get? (a.place t rawName) := by
  rw [courseWith, courseWith]
  split
  · exact ⟨rfl, rfl⟩
  · cases t.graph a s.trackFind with
    | error f => cases f <;> exact ⟨rfl, rfl⟩
    | ok g =>
      cases supplied : (a.rawCourse s lists t g).result with
      | error f =>
        simp only [Course.andThen, supplied]
        exact ⟨trivial, trivial⟩
      | ok pair =>
        obtain ⟨results, trees⟩ :=
          a.reducedWith_auxiliary s lists watch watch' aux aux' t g pair.1 pair.2
        simp only [Course.andThen, supplied, FileTree.applyAll_append]
        exact ⟨results, trees _⟩

/-- A file is as it was, or its reader rejected it and now it is absent. -/
def Dropped {α : Type} (read : FileTree → Except Fault α) (path : String) (t t' : FileTree) : Prop :=
  t'.read path = t.read path ∨ (read t).isOk = false ∧ t'.find path = .error .missing

/-- Of its auxiliary files an app has lost at most some that their readers rejected. -/
structure RejectsDropped (a : AppFolder) (s : Settings) (t t' : FileTree) : Prop where
  coverage : Dropped (·.coverage s.maxAuxiliaryBytes a.coverage) a.coverage t t'
  resources : Dropped (·.resources a.resources) a.resources t t'
  widgetTexts : Dropped (·.widgetTexts s.maxAuxiliaryBytes a.widgetTexts) a.widgetTexts t t'

theorem Dropped.toOption_eq {α : Type} {read : FileTree → Except Fault α} {path : String}
    (dropped : Dropped read path t t')
    (same : t'.read path = t.read path → read t' = read t)
    (absent : t'.read path = .error .missing → (read t').isOk = false) :
    (read t').toOption = (read t).toOption := by
  rcases dropped with kept | ⟨rejected, missing⟩
  · rw [same kept]
  · have gone := absent (by rw [FileTree.read, missing]; rfl)
    cases later : read t' with
    | ok value => simp [later, Except.isOk, Except.toBool] at gone
    | error f =>
      cases first : read t with
      | ok value => simp [first, Except.isOk, Except.toBool] at rejected
      | error f => rfl

theorem RejectsDropped.auxiliary_eq (dropped : a.RejectsDropped s t t') :
    t'.auxiliary a s.maxAuxiliaryBytes s.useFilter =
      t.auxiliary a s.maxAuxiliaryBytes s.useFilter := by
  have coverage := dropped.coverage.toOption_eq
    (fun same => by simp only [FileTree.coverage, FileTree.capped, FileTree.bytes, same])
    (fun missing => by simp only [FileTree.coverage, FileTree.capped, FileTree.bytes, missing]; rfl)
  have resources := dropped.resources.toOption_eq
    (fun same => by simp only [FileTree.resources, FileTree.text, FileTree.bytes, same])
    (fun missing => by simp only [FileTree.resources, FileTree.text, FileTree.bytes, missing]; rfl)
  have texts := dropped.widgetTexts.toOption_eq
    (fun same => by simp only [FileTree.widgetTexts, FileTree.capped, FileTree.bytes, same])
    (fun missing => by
      simp only [FileTree.widgetTexts, FileTree.capped, FileTree.bytes, missing]; rfl)
  simp only [FileTree.auxiliary, coverage, resources, texts]

theorem find_reduced_of_unprocessed
    (h : ∀ n m reused, (a.course s lists watch t).result ≠ .ok (.processed n m reused)) :
    (t.applyAll (a.course s lists watch t).steps).find a.reducedBehaviors =
      t.find a.reducedBehaviors := by
  cases result : (a.course s lists watch t).result with
  | error f => exact (spares_of_error result).reduced
  | ok outcome =>
    cases outcome with
    | skipped =>
      rw [steps_of_skipped result]
      rfl
    | processed n m reused => exact absurd result (h n m reused)

section only
variable (only : a.AuxiliaryOnly t t')
include only

theorem AuxiliaryOnly.get?_after (outside : ¬ a.IsAuxiliary t p) :
    (t'.applyAll (a.course s lists watch t').steps).get? p =
      (t.applyAll (a.course s lists watch t').steps).get? p := by
  refine FileTree.get?_applyAll_congr (fun m member q touched => ?_) only.entries outside
  obtain ⟨opens, n, -, rfl⟩ := places_of_mem_course member touched
  refine ⟨place_ne_nil, ?_⟩
  rw [place_congr only.encoding]
  exact ((opens_congr only.encoding).mp opens).not_isAuxiliary n

theorem AuxiliaryOnly.find_file (s : Settings) (lists : KeywordLists) (watch watch' : Stopwatch)
    (h : name ∈ outputNames) :
    let after := t.applyAll (a.course s lists watch t).steps
    let after' := t'.applyAll (a.course s lists watch' t').steps
    after'.find (a.file name) = after.find (a.file name) ∨
      ¬ a.IsAuxiliary t (a.place t name) ∧
        after.find (a.file name) = (after.get? (a.place t name)).elim (.error .missing) .ok ∧
        after'.find (a.file name) = (after'.get? (a.place t name)).elim (.error .missing) .ok := by
  intro after after'
  by_cases opens : a.Opens t
  · have opens' := (opens_congr only.encoding).mpr opens
    have found := opens.find_file (a.beside_course s lists watch t) h
    have found' := opens'.find_file (a.beside_course s lists watch' t') h
    rw [place_congr only.encoding] at found'
    by_cases usable : Path.isUsable (a.file name) = true
    · rw [if_pos usable] at found found'
      refine Or.inr ⟨opens.not_isAuxiliary name, found.trans ?_, found'.trans ?_⟩
      · cases after.get? (a.place t name) <;> rfl
      · cases after'.get? (a.place t name) <;> rfl
    · rw [if_neg usable] at found found'
      exact Or.inl (found'.trans found.symm)
  · -- Where the encoding folder does not open, a run writes nothing.
    have closed' : ¬ a.Opens t' := mt (opens_congr only.encoding).mp opens
    have still : after = t := congrArg t.applyAll (steps_of_not_opens opens)
    have still' : after' = t' := congrArg t'.applyAll (steps_of_not_opens closed')
    rw [still, still']
    exact Or.inl (only.encoding.join (isName_of_mem_outputNames h).1).find

theorem AuxiliaryOnly.course_eq : a.course s lists watch t' =
    a.courseWith s lists watch (t'.auxiliary a s.maxAuxiliaryBytes s.useFilter) t := by
  rw [course_eq_courseWith, courseWith_congr only.encoding]

theorem AuxiliaryOnly.course_of_rejectsDropped (dropped : a.RejectsDropped s t t')
    (lists : KeywordLists) (watch : Stopwatch) :
    a.course s lists watch t' = a.course s lists watch t := by
  rw [only.course_eq, dropped.auxiliary_eq, ← course_eq_courseWith]

theorem AuxiliaryOnly.rejectsDropped (dropped : a.RejectsDropped s t t') (lists : KeywordLists)
    (watch watch' : Stopwatch) :
    (a.course s lists watch' t').result = (a.course s lists watch t).result ∧
      ∀ p, ¬ a.IsAuxiliary t p →
        SameButTimes ((t.applyAll (a.course s lists watch t).steps).get? p)
          ((t'.applyAll (a.course s lists watch' t').steps).get? p) := by
  have course := only.course_of_rejectsDropped dropped lists watch'
  obtain ⟨results, entries⟩ := a.course_watch s lists watch watch' t
  refine ⟨by rw [course, results], fun p outside => ?_⟩
  rw [only.get?_after outside, course]
  exact entries p

/-- Without rejected files the reduced file is left alone, or made of the same raw behaviors. -/
theorem AuxiliaryOnly.reduced_file (dropped : a.RejectsDropped s t t') (lists : KeywordLists)
    (watch watch' : Stopwatch) :
    let after := t.applyAll (a.course s lists watch t).steps
    let after' := t'.applyAll (a.course s lists watch' t').steps
    after'.find a.reducedBehaviors = after.find a.reducedBehaviors ∨
      ∃ n m reused g raw, (a.course s lists watch t).result = .ok (.processed n m reused) ∧
        t.graph a s.trackFind = .ok g ∧
        (if reused then a.cachedRaw? t = some raw
          else raw = g.extractAll (s.extractionRule lists)) ∧
        after.find a.reducedBehaviors = .ok (.file (a.reducedOf s lists watch t g raw).write) ∧
        after'.find a.reducedBehaviors = .ok (.file (a.reducedOf s lists watch' t g raw).write) ∧
        (a.reducedOf s lists watch t g raw).untimed =
          (a.reducedOf s lists watch' t g raw).untimed := by
  intro after after'
  have output : reducedName ∈ outputNames := by decide
  have results := (only.rejectsDropped dropped lists watch watch').1
  by_cases processed : ∃ n m reused,
      (a.course s lists watch t).result = .ok (.processed n m reused)
  · obtain ⟨n, m, reused, done⟩ := processed
    obtain ⟨g, raw, steps, h, -⟩ := processes_of_run ((run_eq_course ..).trans (by rw [done]))
    have written : after.find a.reducedBehaviors = _ := h.find_reduced
    rcases only.find_file s lists watch watch' output with same | ⟨outside, -, found'⟩
    · exact Or.inl same
    · have content : after'.get? (a.place t reducedName) =
          some (.file (a.reducedOf s lists watch' t g raw).write) := by
        rw [only.get?_after outside, only.course_of_rejectsDropped dropped, h.get?_reduced]
      rw [content] at found'
      exact Or.inr ⟨n, m, reused, g, raw, done, h.loaded, h.supply.source, written, found',
        g.untimed_reduceAll _ _ _ _ raw⟩
  · have left : after.find a.reducedBehaviors = t.find a.reducedBehaviors :=
      find_reduced_of_unprocessed fun n m reused done => processed ⟨n, m, reused, done⟩
    have left' : after'.find a.reducedBehaviors = t'.find a.reducedBehaviors :=
      find_reduced_of_unprocessed fun n m reused done =>
        processed ⟨n, m, reused, results.symm.trans done⟩
    exact Or.inl (left'.trans ((only.encoding.join (isName_of_mem_outputNames output).1).find.trans
      left.symm))

end only

/-- Runs in trees that differ in auxiliary files only end alike and leave the same raw file. Where
only rejected files are dropped, everything is alike up to the recorded times. -/
theorem run_of_auxiliaryOnly (only : a.AuxiliaryOnly t t') {result result' : Except Fault Outcome}
    {d d' : Disk} (ran : Disk.run (a.run s lists watch) t = (result, d))
    (ran' : Disk.run (a.run s lists watch') t' = (result', d')) :
    result'.map Outcome.unreduced = result.map Outcome.unreduced ∧
      d'.tree.find a.rawBehaviors = d.tree.find a.rawBehaviors ∧
      (a.RejectsDropped s t t' →
        result' = result ∧
        (d'.tree.find a.reducedBehaviors = d.tree.find a.reducedBehaviors ∨
          ∃ n m reused g raw, result = .ok (.processed n m reused) ∧
            t.graph a s.trackFind = .ok g ∧
            (if reused then a.cachedRaw? t = some raw
              else raw = g.extractAll (s.extractionRule lists)) ∧
            d.tree.find a.reducedBehaviors =
              .ok (.file (a.reducedOf s lists watch t g raw).write) ∧
            d'.tree.find a.reducedBehaviors =
              .ok (.file (a.reducedOf s lists watch' t g raw).write) ∧
            (a.reducedOf s lists watch t g raw).untimed =
              (a.reducedOf s lists watch' t g raw).untimed) ∧
        ∀ p, ¬ a.IsAuxiliary t p → SameButTimes (d.tree.get? p) (d'.tree.get? p)) := by
  rw [run_eq_course] at ran ran'
  obtain ⟨rfl, rfl⟩ := Prod.mk.inj ran
  obtain ⟨rfl, rfl⟩ := Prod.mk.inj ran'
  simp only [Disk.tree_performAll]
  obtain ⟨results, raw⟩ := a.courseWith_auxiliary s lists watch watch'
    (t.auxiliary a s.maxAuxiliaryBytes s.useFilter)
    (t'.auxiliary a s.maxAuxiliaryBytes s.useFilter) t
  rw [← only.course_eq, ← course_eq_courseWith] at results raw
  refine ⟨results.symm, ?_, fun dropped => ?_⟩
  · rcases only.find_file s lists watch watch' (show rawName ∈ outputNames by decide) with
      same | ⟨outside, found, found'⟩
    · exact same
    · rw [only.get?_after outside, ← raw] at found'
      exact found'.trans found.symm
  · obtain ⟨results, entries⟩ := only.rejectsDropped dropped lists watch watch'
    exact ⟨results, only.reduced_file dropped lists watch watch', entries⟩

/-- Two auxiliary files that are read and rejected: a byte that is no text, and an array without its
end. -/
def clutter : List Mutation :=
  [.makeFolder ["shop", "values"], .write ["shop", "values", "public.xml"] [255],
    .write ["shop", "ui_context.json"] (Text.encode "[1")]

theorem auxiliaryOnly_clutter : sample.AuxiliaryOnly (sampleTree.applyAll clutter) sampleTree := by
  have reached : (sampleTree.applyAll clutter).reach sample.root = .ok ["shop"] := by
    decide +kernel
  have kind : ∀ m ∈ clutter, ∀ q ∈ m.places,
      q ≠ [] ∧ ∃ name ∈ auxiliaryNames, ["shop"] ++ [name] <+: q := by decide +kernel
  refine auxiliaryOnly_of_plain (by decide +kernel) (FileTree.home_applyAll ..).symm
    fun p outside => (FileTree.get?_applyAll_outside kind ?_).symm
  exact fun inside => outside ⟨["shop"], reached, inside⟩

theorem rejectsDropped_clutter :
    sample.RejectsDropped filtering (sampleTree.applyAll clutter) sampleTree where
  coverage := Or.inl (by decide +kernel)
  resources := Or.inr (by decide +kernel)
  widgetTexts := Or.inr (by decide +kernel)

/-- There is coverage, so the resources are looked at, and with a filter so are the texts. -/
theorem run_of_auxiliaryOnly_sample :
    ((sampleTree.applyAll clutter).coverage filtering.maxAuxiliaryBytes sample.coverage).toOption.any
        (!·.isEmpty) = true ∧
    ∃ (d d' : Disk),
      Disk.run (sample.run filtering default .stopped) (sampleTree.applyAll clutter) =
        (.ok (.processed 1 1 false), d) ∧
      Disk.run (sample.run filtering default .stopped) sampleTree =
        (.ok (.processed 1 1 false), d') ∧
      d'.tree.find sample.rawBehaviors = d.tree.find sample.rawBehaviors ∧
      d.tree.find sample.reducedBehaviors = .ok (.file sampleResult.write) ∧
      d'.tree.find sample.reducedBehaviors = .ok (.file sampleResult.write) := by
  refine ⟨by decide +kernel, ?_⟩
  obtain ⟨g, h, result⟩ := processes_sample (s := filtering) (by decide)
  have done := h.run_eq .stopped
  rw [result] at done
  have stored : (Disk.run (sample.run filtering default .stopped) sampleTree).2.tree.find
      sample.reducedBehaviors = .ok (.file sampleResult.write) := by
    rw [run_eq_course, ← result]
    simp only [Disk.tree_performAll]
    exact h.find_reduced
  rcases ran : Disk.run (sample.run filtering default .stopped) (sampleTree.applyAll clutter) with
    ⟨result, d⟩
  obtain ⟨-, raw, rejects⟩ := run_of_auxiliaryOnly auxiliaryOnly_clutter ran done
  obtain ⟨rfl, reduced, -⟩ := rejects rejectsDropped_clutter
  rw [done] at stored
  refine ⟨d, _, rfl, done, raw, ?_, stored⟩
  rcases reduced with same | ⟨-, -, -, g, raw, -, -, -, written, written', -⟩
  · exact same ▸ stored
  · exact written.trans (written'.symm.trans stored)

end AppFolder
end HandlerGraph
