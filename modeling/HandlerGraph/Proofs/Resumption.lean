import HandlerGraph.Proofs.Footprint
import HandlerGraph.Proofs.RawFile
import HandlerGraph.Proofs.Reduction

/-! Runs that are stopped and started again. A stopped run leaves each behavior file as it was or
complete, and the next run ends as the first would have, up to the recorded times. Raw behaviors
that were saved before the stop are read back as they were or, if a number in them is too large to
be read, extracted once more, which gives the same. -/
namespace HandlerGraph

namespace AppFolder
variable {a : AppFolder} {s : Settings} {lists : KeywordLists} {watch watch' : Stopwatch}
  {t t' u : FileTree} {g : Graph} {name : String} {bytes : List UInt8} {raw : List RawBehavior}
  {reused : Bool} {steps : List Mutation}

theorem isFinished_congr (raw : t'.find a.rawBehaviors = t.find a.rawBehaviors)
    (reduced : t'.find a.reducedBehaviors = t.find a.reducedBehaviors) :
    a.isFinished s t' = a.isFinished s t := by
  simp only [isFinished, hasRaw, hasReduced, FileTree.contains, FileTree.hasContent, raw, reduced]

theorem cachedRaw?_congr (h : t'.find a.rawBehaviors = t.find a.rawBehaviors) :
    a.cachedRaw? t' = a.cachedRaw? t := by
  have content : t'.hasContent a.rawBehaviors = t.hasContent a.rawBehaviors := by
    rw [FileTree.hasContent, FileTree.hasContent, h]
  have read : t'.read a.rawBehaviors = t.read a.rawBehaviors := by
    rw [FileTree.read, FileTree.read, h]
  rw [cachedRaw?, cachedRaw?, content, read]

/-- The raw file as it is when reduction begins: another run reads it as the same behaviors or
extracts them again. -/
theorem Supply.resume (opens : a.Opens t) (supply : a.Supply s lists t g raw reused steps)
    (beside : a.Beside t t')
    (content : t'.get? (a.place t rawName) = t.get? (a.place t rawName) ∨
      t'.get? (a.place t rawName) = (t.applyAll steps).get? (a.place t rawName)) :
    ∃ steps', a.Supply s lists t' g raw (a.usableRaw? s t').isSome steps' ∧
      (t'.applyAll steps').get? (a.place t rawName) =
        (t.applyAll steps).get? (a.place t rawName) := by
  have output : rawName ∈ outputNames := by decide
  have usable_of_same (same : t'.get? (a.place t rawName) = t.get? (a.place t rawName)) :
      a.usableRaw? s t' = a.usableRaw? s t := by
    rw [usableRaw?, usableRaw?, cachedRaw?_congr (find_eq_of_get? opens beside output same)]
  cases supply with
  | cached found =>
    have same : t'.get? (a.place t rawName) = t.get? (a.place t rawName) := content.elim id id
    have found' := (usable_of_same same).trans found
    exact ⟨[], by rw [found']; exact .cached found', same⟩
  | extracted needed savable =>
    have stored : ∀ u : FileTree, (u.applyAll (FileTree.saveSteps (a.place t (draftOf rawName))
        (a.place t rawName) (RawBehavior.writeAll (g.extractAll (s.extractionRule lists))))).get?
        (a.place t rawName) =
        some (.file (RawBehavior.writeAll (g.extractAll (s.extractionRule lists)))) := by
      intro u
      rw [FileTree.get?_saved place_ne_nil place_ne_nil, if_pos rfl]
    rw [stored] at content ⊢
    cases used : a.usableRaw? s t' with
    | none =>
      have savable' : a.Savable t' rawName := ⟨(isFree_beside opens beside).mpr savable.draft,
        (isFree_beside opens beside).mpr savable.target⟩
      refine ⟨_, .extracted used savable', ?_⟩
      rw [opens.place_eq beside, opens.place_eq beside, stored]
    | some raw' =>
      -- The file in the way cannot be the old one, which was of no use.
      have written : t'.get? (a.place t rawName) = _ := content.resolve_left fun same => by
        rw [usable_of_same same, needed] at used
        cases used
      obtain ⟨bytes, found, -, read⟩ := cachedRaw?_some (usableRaw?_eq_some.mp used).2
      obtain ⟨-, entry⟩ := ((opens.beside beside).find_file_ok output).mp found
      rw [opens.place_eq beside, written, Option.some_inj, Entry.file.injEq] at entry
      rw [← entry] at read
      rw [RawBehavior.eq_of_readAll?_writeAll read] at used ⊢
      exact ⟨[], .cached used, written⟩

theorem get?_resultSteps_raw : (u.applyAll (a.resultSteps s lists watch t g raw)).get?
    (a.place t rawName) = u.get? (a.place t rawName) := by
  rw [resultSteps, FileTree.get?_saved place_ne_nil place_ne_nil,
    if_neg (mt place_inj.mp raw_apart.1), if_neg (mt place_inj.mp raw_apart.2)]

theorem get?_resultSteps_reduced : (u.applyAll (a.resultSteps s lists watch t g raw)).get?
    (a.place t reducedName) = some (.file (a.reducedOf s lists watch t g raw).write) := by
  rw [resultSteps, FileTree.get?_saved place_ne_nil place_ne_nil, if_pos rfl]

theorem Processes.get?_raw (h : a.Processes s lists t g raw reused steps) (watch : Stopwatch) :
    (t.applyAll (a.course s lists watch t).steps).get? (a.place t rawName) =
      if s.keepRaw then (t.applyAll steps).get? (a.place t rawName) else none := by
  rw [h.course_eq, FileTree.applyAll_append, FileTree.applyAll_append, dropSteps]
  split
  · exact get?_resultSteps_raw
  · exact (FileTree.get?_apply_remove place_ne_nil).trans (if_pos rfl)

theorem Processes.get?_reduced (h : a.Processes s lists t g raw reused steps) :
    (t.applyAll (a.course s lists watch t).steps).get? (a.place t reducedName) =
      some (.file (a.reducedOf s lists watch t g raw).write) := by
  rw [h.course_eq, FileTree.applyAll_append, FileTree.applyAll_append, dropSteps]
  split
  · exact get?_resultSteps_reduced
  · refine (FileTree.get?_apply_remove place_ne_nil).trans ?_
    rw [if_neg (mt place_inj.mp reduced_apart.1)]
    exact get?_resultSteps_reduced

theorem Processes.find_reduced (h : a.Processes s lists t g raw reused steps) :
    (t.applyAll (a.course s lists watch t).steps).find a.reducedBehaviors =
      .ok (.file (a.reducedOf s lists watch t g raw).write) := by
  have opens := opens_of_graph h.loaded
  exact find_of_get? opens h.beside (by decide) h.savable.target.1 h.get?_reduced

theorem Processes.rerun (h : a.Processes s lists t g raw reused steps) (beside : a.Beside t t')
    (unfinished : a.isFinished s t' = false)
    (content : t'.get? (a.place t rawName) = t.get? (a.place t rawName) ∨
      t'.get? (a.place t rawName) = (t.applyAll steps).get? (a.place t rawName))
    (watch watch' : Stopwatch) :
    ∃ d' : Disk,
      Disk.run (a.run s lists watch') t' = (.ok (.processed raw.length
        (a.reducedOf s lists watch t g raw).behaviors.length (a.usableRaw? s t').isSome), d') ∧
      d'.tree.find a.rawBehaviors =
        (t.applyAll (a.course s lists watch t).steps).find a.rawBehaviors ∧
      d'.tree.find a.reducedBehaviors = .ok (.file (a.reducedOf s lists watch' t g raw).write) ∧
      (a.reducedOf s lists watch' t g raw).untimed =
        (a.reducedOf s lists watch t g raw).untimed := by
  have opens := opens_of_graph h.loaded
  obtain ⟨steps', supply, same⟩ := h.supply.resume opens beside content
  have again : a.Processes s lists t' g raw (a.usableRaw? s t').isSome steps' :=
    { unfinished
      loaded := (graph_eq opens beside s.trackFind).trans h.loaded
      supply
      savable := ⟨(isFree_beside opens beside).mpr h.savable.draft,
        (isFree_beside opens beside).mpr h.savable.target⟩ }
  have reduced : a.reducedOf s lists watch' t' g raw = a.reducedOf s lists watch' t g raw := by
    rw [reducedOf, reducedOf, auxiliary_eq opens beside]
  have times : (a.reducedOf s lists watch' t g raw).untimed =
      (a.reducedOf s lists watch t g raw).untimed := g.untimed_reduceAll _ _ _ _ raw
  have files : (t'.applyAll (a.course s lists watch' t').steps).find (a.file rawName) =
      (t.applyAll (a.course s lists watch t).steps).find (a.file rawName) := by
    have output : rawName ∈ outputNames := by decide
    have after := again.get?_raw watch'
    rw [opens.place_eq beside, same, ← h.get?_raw watch] at after
    rw [opens.find_file (beside.trans opens again.beside) output, opens.find_file h.beside output,
      after]
  refine ⟨(Disk.ofTree t').performAll (a.course s lists watch' t').steps, ?_, ?_, ?_, times⟩
  · rw [run_eq_course, ← ReducedBehaviors.length_of_untimed times, ← reduced]
    exact congrArg (·, _) (congrArg Course.result again.course_eq)
  · rw [Disk.tree_performAll]
    exact files
  · rw [Disk.tree_performAll, ← reduced]
    exact again.find_reduced

theorem unfinished_of_raw {e : Entry} (h : t.find a.rawBehaviors = .ok e) :
    a.isFinished s t = false := by
  simp [isFinished, hasRaw, FileTree.contains, h, Except.toOption]

/-- Where a run that would process its app can be stopped: while it saves the raw behaviors, while
it saves the reduced ones, or before it drops the raw file. -/
theorem Processes.stopped (h : a.Processes s lists t g raw reused steps)
    (stopped : t.StoppedIn (a.course s lists watch t).steps t') :
    a.Beside t t' ∧ a.isFinished s t' = false ∧
      (t'.get? (a.place t rawName) = t.get? (a.place t rawName) ∨
        t'.get? (a.place t rawName) = (t.applyAll steps).get? (a.place t rawName)) ∧
      (t'.get? (a.place t reducedName) = t.get? (a.place t reducedName) ∨
        t'.get? (a.place t reducedName) =
          some (.file (a.reducedOf s lists watch t g raw).write)) := by
  have opens := opens_of_graph h.loaded
  obtain ⟨usable, content, there⟩ := raw_of_supply opens h.supply
  have unfinished (beside : a.Beside t t')
      (same : t'.get? (a.place t rawName) = (t.applyAll steps).get? (a.place t rawName)) :
      a.isFinished s t' = false :=
    unfinished_of_raw (find_of_get? opens beside (by decide) usable (same.trans there))
  rw [h.course_eq, ← List.append_assoc] at stopped
  rcases stopped.split with early | late
  · rw [h.resultSteps_eq] at early
    obtain ⟨beside, reduced, content⟩ := h.supply.stopped opens early
    refine ⟨beside, ?_, content, Or.inl reduced⟩
    rcases content with raw | raw
    · rw [isFinished_congr (find_eq_of_get? opens beside (by decide) raw)
        (find_eq_of_get? opens beside (by decide) reduced), h.unfinished]
    · exact unfinished beside raw
  · have stored : t' = (t.applyAll steps).applyAll (a.resultSteps s lists watch t g raw) := by
      rw [dropSteps, FileTree.applyAll_append] at late
      split at late
      · cases late
      · cases late with
        | before => rfl
        | after later => cases later
    have beside : a.Beside t t' := by
      rw [stored, h.resultSteps_eq]
      exact (beside_supply opens h.supply).saving opens (by decide) _
    have raw : t'.get? (a.place t rawName) = (t.applyAll steps).get? (a.place t rawName) := by
      rw [stored, get?_resultSteps_raw]
    refine ⟨beside, unfinished beside raw, Or.inr raw, Or.inr ?_⟩
    rw [stored, get?_resultSteps_reduced]

/-- However a run that would process its app is stopped, each behavior file is as before or
complete, and the next run ends with the counts and the files of the run that was not stopped, up to
the recorded times. -/
theorem rerun_of_stopped {n m : Nat} {d : Disk}
    (done : Disk.run (a.run s lists watch) t = (.ok (.processed n m reused), d))
    (stopped : t.StoppedIn d.history.reverse t') :
    ∃ g raw, t.graph a s.trackFind = .ok g ∧
      (if reused then a.cachedRaw? t = some raw
        else raw = g.extractAll (s.extractionRule lists)) ∧
      (t'.find a.rawBehaviors = t.find a.rawBehaviors ∨ t'.find a.rawBehaviors =
        .ok (.file (RawBehavior.writeAll (g.extractAll (s.extractionRule lists))))) ∧
      (t'.find a.reducedBehaviors = t.find a.reducedBehaviors ∨ t'.find a.reducedBehaviors =
        .ok (.file (a.reducedOf s lists watch t g raw).write)) ∧
      d.tree.find a.reducedBehaviors = .ok (.file (a.reducedOf s lists watch t g raw).write) ∧
      ∀ watch', ∃ (reused' : Bool) (d' : Disk),
        Disk.run (a.run s lists watch') t' = (.ok (.processed n m reused'), d') ∧
        d'.tree.find a.rawBehaviors = d.tree.find a.rawBehaviors ∧
        d'.tree.find a.reducedBehaviors = .ok (.file (a.reducedOf s lists watch' t g raw).write) ∧
        (a.reducedOf s lists watch' t g raw).untimed =
          (a.reducedOf s lists watch t g raw).untimed := by
  obtain ⟨g, raw, steps, h, rfl, rfl, rfl⟩ := processes_of_run done
  have opens := opens_of_graph h.loaded
  rw [Disk.reverse_history_performAll] at stopped
  obtain ⟨beside, unfinished, rawContent, reducedContent⟩ := h.stopped stopped
  rw [Disk.tree_performAll]
  refine ⟨g, raw, h.loaded, h.supply.source, ?_, ?_, h.find_reduced, fun watch' => ?_⟩
  · exact h.supply.find_raw opens beside rawContent
  · refine reducedContent.imp (find_eq_of_get? opens beside (by decide)) fun written => ?_
    exact find_of_get? opens beside (by decide) h.savable.target.1 written
  · exact ⟨_, h.rerun beside unfinished rawContent watch watch'⟩

/-- The run is stopped when one byte of the raw draft is written. -/
theorem rerun_of_stopped_sample :
    ∃ d draft bytes rest, Disk.run (sample.run .default default .stopped) sampleTree =
        (.ok (.processed 1 1 false), d) ∧
      d.history.reverse = .create draft :: .write draft bytes :: rest ∧
      d.tree.find sample.reducedBehaviors = .ok (.file sampleResult.write) ∧
      ∀ watch', ∃ (reused' : Bool) (d' : Disk) (r' : ReducedBehaviors),
        Disk.run (sample.run .default default watch')
          ((sampleTree.apply (.create draft)).apply (.write draft (bytes.take 1))) =
            (.ok (.processed 1 1 reused'), d') ∧
        d'.tree.find sample.rawBehaviors = d.tree.find sample.rawBehaviors ∧
        d'.tree.find sample.reducedBehaviors = .ok (.file r'.write) ∧
        r'.untimed = sampleResult.untimed := by
  obtain ⟨g, h, result⟩ := processes_sample (s := .default) (by decide)
  have done := h.run_eq .stopped
  rw [result] at done
  obtain ⟨draft, bytes, rest, steps⟩ : ∃ draft bytes rest,
      FileTree.saveSteps (sample.place sampleTree (draftOf rawName))
        (sample.place sampleTree rawName) (RawBehavior.writeAll [sampleRaw]) ++
        (sample.resultSteps .default default .stopped sampleTree g [sampleRaw] ++
          sample.dropSteps .default sampleTree) =
        .create draft :: .write draft bytes :: rest := ⟨_, _, _, rfl⟩
  rw [steps] at done
  have history :=
    Disk.reverse_history_performAll sampleTree (.create draft :: .write draft bytes :: rest)
  have stopped :=
    FileTree.StoppedIn.after (.within (sampleTree.apply (.create draft)) draft bytes rest 1)
  rw [← history] at stopped
  obtain ⟨g', raw, loaded, source, -, -, stored, again⟩ := rerun_of_stopped done stopped
  obtain rfl := Except.ok.inj (loaded.symm.trans h.loaded)
  obtain rfl : raw = [sampleRaw] := source.trans h.supply.source.symm
  rw [result] at stored again
  refine ⟨_, draft, bytes, rest, done, history, stored, fun watch' => ?_⟩
  obtain ⟨reused', d', processed, raw, reduced, times⟩ := again watch'
  exact ⟨reused', d', _, processed, raw, reduced, times⟩

end AppFolder
end HandlerGraph
