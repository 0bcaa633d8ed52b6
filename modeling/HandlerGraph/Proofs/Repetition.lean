import HandlerGraph.Proofs.Bounds
import HandlerGraph.Proofs.Resumption

/-! Runs that are repeated. A second run with the same settings skips the app when nothing is to be
kept or rebuilt. Where the raw file is kept it finds what the first one left, extracted or not, and
ends with the same counts and the same files up to the recorded times. -/
namespace HandlerGraph.AppFolder
variable {a : AppFolder} {s : Settings} {lists : KeywordLists} {watch : Stopwatch} {t : FileTree}
  {g : Graph} {bytes : List UInt8} {raw : List RawBehavior} {reused : Bool}
  {steps : List Mutation}

theorem hasReduced_of_find {r : ReducedBehaviors}
    (h : t.find a.reducedBehaviors = .ok (.file r.write)) : a.hasReduced t = true := by
  have begins : r.write = 91 :: (r.write.tail) := rfl
  rw [hasReduced, FileTree.hasContent, h, begins]

theorem cachedRaw?_of_find {bs : List RawBehavior}
    (h : t.find a.rawBehaviors = .ok (.file (RawBehavior.writeAll bs))) :
    a.cachedRaw? t = RawBehavior.readAll? (RawBehavior.writeAll bs) := by
  have begins : RawBehavior.writeAll bs = 91 :: (RawBehavior.writeAll bs).tail := rfl
  have content : t.hasContent a.rawBehaviors = true := by
    rw [FileTree.hasContent, h, begins]
  have read : t.read a.rawBehaviors = .ok (RawBehavior.writeAll bs) := by
    rw [FileTree.read, h]
    rfl
  rw [cachedRaw?, if_pos content, read]
  rfl

theorem Processes.finished (h : a.Processes s lists t g raw reused steps)
    (rebuild : s.rebuildReduced = false) (drop : s.keepRaw = false) (watch : Stopwatch) :
    a.isFinished s (t.applyAll (a.course s lists watch t).steps) = true := by
  have opens := opens_of_graph h.loaded
  have gone := h.get?_raw watch
  rw [drop] at gone
  have missing : (t.applyAll (a.course s lists watch t).steps).find (a.file rawName) =
      .error .missing ∨
      (t.applyAll (a.course s lists watch t).steps).find (a.file rawName) = .error .blocked := by
    rw [opens.find_file h.beside (by decide), gone]
    split
    · exact Or.inl rfl
    · exact Or.inr rfl
  have absent : a.hasRaw (t.applyAll (a.course s lists watch t).steps) = false := by
    rw [hasRaw, FileTree.contains]
    rcases missing with none_there | long
    · exact congrArg (·.toOption.isSome) none_there
    · exact congrArg (·.toOption.isSome) long
  simp [isFinished, rebuild, drop, absent, hasReduced_of_find h.find_reduced]

theorem Processes.usableRaw?_isSome (h : a.Processes s lists t g raw reused steps)
    (keep : s.keepRaw = true) (sized : t.Sized) :
    (a.usableRaw? s (t.applyAll (a.course s lists watch t).steps)).isSome = !s.rebuildRaw := by
  have opens := opens_of_graph h.loaded
  have kept := h.get?_raw watch
  rw [keep, if_pos rfl] at kept
  cases rebuild : s.rebuildRaw with
  | true => simp [usableRaw?, rebuild]
  | false =>
    have cached :
        ∃ raw', a.cachedRaw? (t.applyAll (a.course s lists watch t).steps) = some raw' := by
      cases h.supply with
      | cached found =>
        have same := find_eq_of_get? opens h.beside (by decide) kept
        exact ⟨raw, (cachedRaw?_congr same).trans (usableRaw?_eq_some.mp found).2⟩
      | extracted needed savable =>
        -- What was written can be read back only because its numbers are not too large.
        rw [FileTree.get?_saved place_ne_nil place_ne_nil, if_pos rfl] at kept
        have written := find_of_get? opens h.beside (by decide) savable.target.1 kept
        have fits : ∀ b ∈ g.extractAll (s.extractionRule lists), b.Fits := fun b mem =>
          sized.fits h.loaded mem
        rw [cachedRaw?_of_find written, RawBehavior.readAll?_writeAll, if_pos fits]
        exact ⟨_, rfl⟩
    obtain ⟨raw', cached⟩ := cached
    simp [usableRaw?, rebuild, cached]

theorem run_of_finished (h : a.isFinished s t = true) :
    Disk.run (a.run s lists watch) t = (.ok .skipped, .ofTree t) := by
  rw [run_eq_course, course, if_pos h]
  rfl

/-- A second run with the same settings skips the app if nothing is to be kept or rebuilt. If the
raw file is kept, it ends with the same counts and files up to the recorded times. -/
theorem run_again {n m : Nat} {d : Disk}
    (done : Disk.run (a.run s lists watch) t = (.ok (.processed n m reused), d))
    (watch' : Stopwatch) :
    (s.rebuildReduced = false → s.keepRaw = false →
      Disk.run (a.run s lists watch') d.tree = (.ok .skipped, .ofTree d.tree)) ∧
    (s.keepRaw = true → t.Sized →
      ∃ (d' : Disk) (bytes : List UInt8) (g : Graph) (raw : List RawBehavior),
        t.graph a s.trackFind = .ok g ∧
        (if reused then a.cachedRaw? t = some raw
          else raw = g.extractAll (s.extractionRule lists)) ∧
        Disk.run (a.run s lists watch') d.tree = (.ok (.processed n m (!s.rebuildRaw)), d') ∧
        d.tree.find a.rawBehaviors = .ok (.file bytes) ∧
        d'.tree.find a.rawBehaviors = .ok (.file bytes) ∧
        d.tree.find a.reducedBehaviors = .ok (.file (a.reducedOf s lists watch t g raw).write) ∧
        d'.tree.find a.reducedBehaviors = .ok (.file (a.reducedOf s lists watch' t g raw).write) ∧
        (a.reducedOf s lists watch' t g raw).untimed =
          (a.reducedOf s lists watch t g raw).untimed) := by
  obtain ⟨g, raw, steps, h, rfl, rfl, rfl⟩ := processes_of_run done
  have opens := opens_of_graph h.loaded
  rw [Disk.tree_performAll]
  refine ⟨fun rebuild drop => ?_, fun keep sized => ?_⟩
  · exact run_of_finished (h.finished rebuild drop watch)
  · have kept := h.get?_raw watch
    rw [keep, if_pos rfl] at kept
    have unfinished : a.isFinished s (t.applyAll (a.course s lists watch t).steps) = false := by
      simp [isFinished, keep]
    obtain ⟨d', again, same, reduced, times⟩ :=
      h.rerun h.beside unfinished (Or.inr kept) watch watch'
    rw [h.usableRaw?_isSome keep sized] at again
    obtain ⟨usable, bytes, there⟩ := raw_of_supply opens h.supply
    have written := find_of_get? opens h.beside (by decide) usable (kept.trans there)
    exact ⟨d', bytes, g, raw, h.loaded, h.supply.source, again, written, same.trans written,
      h.find_reduced, reduced, times⟩

theorem run_again_sample :
    (∃ d, Disk.run (sample.run .default default .stopped) sampleTree =
        (.ok (.processed 1 1 false), d) ∧
      Disk.run (sample.run .default default .stopped) d.tree = (.ok .skipped, .ofTree d.tree)) ∧
    ∃ d d', Disk.run (sample.run keeping default .stopped) sampleTree =
        (.ok (.processed 1 1 false), d) ∧
      Disk.run (sample.run keeping default .stopped) d.tree = (.ok (.processed 1 1 true), d') ∧
      d'.tree.find sample.rawBehaviors = d.tree.find sample.rawBehaviors ∧
      d.tree.find sample.reducedBehaviors = .ok (.file sampleResult.write) ∧
      d'.tree.find sample.reducedBehaviors = .ok (.file sampleResult.write) := by
  obtain ⟨g, h, result⟩ := processes_sample (s := .default) (by decide)
  obtain ⟨g', h', result'⟩ := processes_sample (s := keeping) (by decide)
  have done := h.run_eq .stopped
  have done' := h'.run_eq .stopped
  rw [result] at done
  rw [result'] at done'
  obtain ⟨skipped, -⟩ := run_again done .stopped
  obtain ⟨-, processed⟩ := run_again done' .stopped
  have sized : sampleTree.Sized := by decide +kernel
  obtain ⟨d', bytes, g, raw, loaded, source, again, stored, stored', reduced, reduced', -⟩ :=
    processed rfl sized
  obtain rfl := Except.ok.inj (loaded.symm.trans h'.loaded)
  obtain rfl : raw = [sampleRaw] := source.trans h'.supply.source.symm
  rw [result'] at reduced reduced'
  exact ⟨⟨_, done, skipped rfl rfl⟩, _, d', done', again, stored'.trans stored.symm, reduced,
    reduced'⟩

end HandlerGraph.AppFolder
