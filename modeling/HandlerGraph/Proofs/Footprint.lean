import HandlerGraph.Proofs.Expansion
import HandlerGraph.Proofs.RunCourse

/-! What a run can change. Whatever way it ends, only the two behavior files and their drafts can
differ afterwards; a run that skips its app does nothing at all; and one that fails, be it that a
file cannot be put in place or that the device fails a mutation, has left the reduced file alone and
the raw file either alone or complete. -/
namespace HandlerGraph

namespace FileTree
variable {t t' : FileTree}

theorem StoppedIn.append {front : List Mutation} (h : StoppedIn t front t') (back : List Mutation) :
    StoppedIn t (front ++ back) t' := by
  induction h with
  | before => exact .before ..
  | within => exact .within ..
  | after _ ih => exact .after ih

/-- Saving that is stopped has touched the draft at most. -/
theorem StoppedIn.save {draft target : Place} {bytes : List UInt8} (outside : draft ≠ [])
    (h : StoppedIn t (saveSteps draft target bytes) t') :
    t' = t ∨ t'.home = t.home ∧ ∃ content, ∀ p,
      t'.get? p = if p = draft then some (.file content) else t.get? p := by
  cases h with
  | before => exact Or.inl rfl
  | after later =>
    refine Or.inr ?_
    cases later with
    | before => exact ⟨home_apply .., [], fun p => get?_apply_create outside⟩
    | within _ _ _ _ n =>
      exact ⟨by simp only [home_apply], bytes.take n, fun p => get?_drafted outside⟩
    | after later =>
      cases later with
      | before => exact ⟨by simp only [home_apply], bytes, fun p => get?_drafted outside⟩
      | after later => cases later

end FileTree

namespace AppFolder

variable {a : AppFolder} {s : Settings} {lists : KeywordLists} {watch : Stopwatch}
  {t t' u : FileTree} {d d' : Disk} {g : Graph} {name : String} {bytes : List UInt8}
  {raw : List RawBehavior} {reused : Bool} {steps : List Mutation} {device : Device}
  {failed : Mutation × Mishap}

theorem beside_dropped (opens : a.Opens t) (beside : a.Beside t t')
    (usable : Path.isUsable (a.file rawName) = true)
    (there : t'.get? (a.place t rawName) = some (.file bytes)) :
    a.Beside t (t'.applyAll (a.dropSteps s t)) := by
  rw [dropSteps]
  split
  · exact beside
  · have free : a.IsFree t' rawName := ⟨usable, by
      simp [FileTree.isFolder, opens.place_eq beside, there]⟩
    have dropped : t'.applyAll [.remove (a.place t rawName)] =
        t'.apply (.remove (a.place t' rawName)) := by rw [opens.place_eq beside]; rfl
    rw [dropped]
    exact beside.trans opens (beside_of_change (opens.beside beside) (by decide) free (by simp)
      (FileTree.home_apply ..) fun _ => FileTree.get?_apply_remove place_ne_nil)

theorem Opens.find_file (opens : a.Opens t) (beside : a.Beside t t') (h : name ∈ outputNames) :
    t'.find (a.file name) =
      if Path.isUsable (a.file name) then
        match t'.get? (a.place t name) with
        | none => .error .missing
        | some e => .ok e
      else .error .blocked := by
  rw [FileTree.find, (opens.beside beside).locate_file h, opens.place_eq beside]
  split <;> rfl

theorem find_of_get? {e : Entry} (opens : a.Opens t) (beside : a.Beside t t')
    (h : name ∈ outputNames) (usable : Path.isUsable (a.file name) = true)
    (there : t'.get? (a.place t name) = some e) : t'.find (a.file name) = .ok e := by
  rw [opens.find_file beside h, if_pos usable, there]

theorem find_eq_of_get? (opens : a.Opens t) (beside : a.Beside t t') (h : name ∈ outputNames)
    (same : t'.get? (a.place t name) = t.get? (a.place t name)) :
    t'.find (a.file name) = t.find (a.file name) := by
  rw [opens.find_file beside h, opens.find_file (.refl a t) h, same]

theorem get?_saving_taken (h : name ∈ saved) (taken : ¬ a.Savable t name) :
    (t'.applyAll (a.saving t name bytes).steps).get? (a.place t name) =
      t'.get? (a.place t name) := by
  obtain ⟨-, -, apart⟩ := mem_outputNames_of_saved h
  rw [saving]
  split
  · rename_i draft
    split
    · rename_i target
      exact absurd ⟨draft, target⟩ taken
    · rw [FileTree.get?_drafted place_ne_nil, if_neg (by simpa using apart.symm)]
  · rfl

theorem get?_supply_reduced (supply : a.Supply s lists t g raw reused steps) :
    (t.applyAll steps).get? (a.place t reducedName) = t.get? (a.place t reducedName) := by
  cases supply with
  | cached found => rfl
  | extracted needed savable =>
    rw [FileTree.get?_saved place_ne_nil place_ne_nil, if_neg (mt place_inj.mp reduced_apart.1),
      if_neg (mt place_inj.mp reduced_apart.2)]

theorem get?_supply_raw (supply : a.Supply s lists t g raw reused steps) :
    (t.applyAll steps).get? (a.place t rawName) = t.get? (a.place t rawName) ∨
      Path.isUsable (a.file rawName) = true ∧ (t.applyAll steps).get? (a.place t rawName) =
        some (.file (RawBehavior.writeAll (g.extractAll (s.extractionRule lists)))) := by
  cases supply with
  | cached found => exact Or.inl rfl
  | extracted needed savable =>
    refine Or.inr ⟨savable.target.1, ?_⟩
    rw [FileTree.get?_saved place_ne_nil place_ne_nil, if_pos rfl]

theorem stoppedIn_saveSteps (stopped : u.StoppedIn (a.saving t name bytes).steps t') :
    a.IsFree t (draftOf name) ∧
      u.StoppedIn (FileTree.saveSteps (a.place t (draftOf name)) (a.place t name) bytes) t' := by
  rw [saving] at stopped
  split at stopped
  · rename_i free
    split at stopped
    · exact ⟨free, stopped⟩
    · exact ⟨free, stopped.append [.rename (a.place t (draftOf name)) (a.place t name)]⟩
  · cases stopped

theorem beside_stopped (opens : a.Opens t) (beside : a.Beside t u) (h : name ∈ saved)
    (stopped : u.StoppedIn (a.saving t name bytes).steps t') :
    a.Beside t t' ∧ ∀ other, other ≠ draftOf name →
      t'.get? (a.place t other) = u.get? (a.place t other) := by
  obtain ⟨free, stopped⟩ := stoppedIn_saveSteps stopped
  rcases stopped.save place_ne_nil with rfl | ⟨home, content, entries⟩
  · exact ⟨beside, fun _ _ => rfl⟩
  · have draft : a.IsFree u (draftOf name) := (isFree_beside opens beside).mpr free
    refine ⟨beside.trans opens ?_, fun other apart => ?_⟩
    · rw [← opens.place_eq beside] at entries
      exact beside_of_change (opens.beside beside) (mem_outputNames_of_saved h).2.1 draft (by simp)
        home entries
    · rw [entries, if_neg (mt place_inj.mp apart)]

/-- A run that is stopped before the result is in place has at most supplied the raw behaviors. -/
theorem Supply.stopped (opens : a.Opens t) (supply : a.Supply s lists t g raw reused steps)
    (stopped : t.StoppedIn (steps ++ (a.saving t reducedName bytes).steps) t') :
    a.Beside t t' ∧ t'.get? (a.place t reducedName) = t.get? (a.place t reducedName) ∧
      (t'.get? (a.place t rawName) = t.get? (a.place t rawName) ∨
        t'.get? (a.place t rawName) = (t.applyAll steps).get? (a.place t rawName)) := by
  rcases stopped.split with early | later
  · cases supply with
    | cached found => cases early
    | extracted needed savable =>
      have early : t.StoppedIn (a.saving t rawName
          (RawBehavior.writeAll (g.extractAll (s.extractionRule lists)))).steps t' := by
        rw [saving_of_savable savable]
        exact early
      obtain ⟨beside, others⟩ := beside_stopped opens (.refl a t) (by decide) early
      exact ⟨beside, others reducedName reduced_apart.2, Or.inl (others rawName (by decide))⟩
  · obtain ⟨beside, others⟩ :=
      beside_stopped opens (beside_supply opens supply) (by decide) later
    refine ⟨beside, ?_, Or.inr (others rawName raw_apart.2)⟩
    rw [others reducedName (by decide), get?_supply_reduced supply]

theorem Supply.find_raw (opens : a.Opens t) (supply : a.Supply s lists t g raw reused steps)
    (beside : a.Beside t t')
    (content : t'.get? (a.place t rawName) = t.get? (a.place t rawName) ∨
      t'.get? (a.place t rawName) = (t.applyAll steps).get? (a.place t rawName)) :
    t'.find a.rawBehaviors = t.find a.rawBehaviors ∨ t'.find a.rawBehaviors =
      .ok (.file (RawBehavior.writeAll (g.extractAll (s.extractionRule lists)))) := by
  rcases content with same | supplied
  · exact Or.inl (find_eq_of_get? opens beside (by decide) same)
  · refine (get?_supply_raw supply).imp (fun same => ?_) fun ⟨usable, written⟩ => ?_
    · exact find_eq_of_get? opens beside (by decide) (supplied.trans same)
    · exact find_of_get? opens beside (by decide) usable (supplied.trans written)

/-- The reduced file is as it was, and the raw file is as it was or complete. -/
structure Spares (a : AppFolder) (s : Settings) (lists : KeywordLists) (t t' : FileTree) : Prop where
  reduced : t'.find a.reducedBehaviors = t.find a.reducedBehaviors
  raw : t'.find a.rawBehaviors = t.find a.rawBehaviors ∨
    ∃ g, t.graph a s.trackFind = .ok g ∧ t'.find a.rawBehaviors =
      .ok (.file (RawBehavior.writeAll (g.extractAll (s.extractionRule lists))))

theorem Supply.spares (loaded : t.graph a s.trackFind = .ok g)
    (supply : a.Supply s lists t g raw reused steps) (beside : a.Beside t t')
    (reduced : t'.get? (a.place t reducedName) = t.get? (a.place t reducedName))
    (content : t'.get? (a.place t rawName) = t.get? (a.place t rawName) ∨
      t'.get? (a.place t rawName) = (t.applyAll steps).get? (a.place t rawName)) :
    a.Spares s lists t t' := by
  have opens := opens_of_graph loaded
  exact ⟨find_eq_of_get? opens beside (by decide) reduced,
    (supply.find_raw opens beside content).imp_right fun written => ⟨g, loaded, written⟩⟩

theorem Supply.spares_of_stopped (loaded : t.graph a s.trackFind = .ok g)
    (supply : a.Supply s lists t g raw reused steps)
    (stopped : t.StoppedIn (steps ++ (a.saving t reducedName bytes).steps) t') :
    a.Beside t t' ∧ a.Spares s lists t t' := by
  obtain ⟨beside, reduced, content⟩ := supply.stopped (opens_of_graph loaded) stopped
  exact ⟨beside, supply.spares loaded beside reduced content⟩

theorem Processes.beside (h : a.Processes s lists t g raw reused steps) :
    a.Beside t (t.applyAll (a.course s lists watch t).steps) := by
  have opens := opens_of_graph h.loaded
  obtain ⟨usable, content, there⟩ := raw_of_supply opens h.supply
  have reduced : reducedName ∈ saved := by decide
  have stored := (beside_supply opens h.supply).saving opens reduced
    (a.reducedOf s lists watch t g raw).write
  rw [← get?_saving_other raw_apart.1 raw_apart.2] at there
  rw [h.course_eq, FileTree.applyAll_append, FileTree.applyAll_append, h.resultSteps_eq]
  exact beside_dropped opens stored usable there

theorem beside_course (a : AppFolder) (s : Settings) (lists : KeywordLists) (watch : Stopwatch)
    (t : FileTree) : a.Beside t (t.applyAll (a.course s lists watch t).steps) := by
  have ends := a.ends_course s lists watch t
  generalize course : a.course s lists watch t = c at ends ⊢
  cases ends with
  | skipped => exact .refl a t
  | unloaded f => exact .refl a t
  | rawUnsaved loaded taken =>
    exact (Beside.refl a t).saving (opens_of_graph loaded) (by decide) _
  | reducedUnsaved loaded supply taken =>
    have opens := opens_of_graph loaded
    rw [FileTree.applyAll_append]
    exact (beside_supply opens supply).saving opens (by decide) _
  | processed processes => exact course ▸ processes.beside

theorem spares_of_error {f : Fault} (h : (a.course s lists watch t).result = .error f) :
    a.Spares s lists t (t.applyAll (a.course s lists watch t).steps) := by
  have beside := a.beside_course s lists watch t
  have ends := a.ends_course s lists watch t
  generalize a.course s lists watch t = c at beside ends h ⊢
  cases ends with
  | skipped => cases h
  | unloaded f => exact ⟨rfl, Or.inl rfl⟩
  | rawUnsaved loaded taken =>
    have opens := opens_of_graph loaded
    refine ⟨find_eq_of_get? opens beside (by decide) ?_,
      Or.inl (find_eq_of_get? opens beside (by decide) ?_)⟩
    · exact get?_saving_other reduced_apart.1 reduced_apart.2
    · exact get?_saving_taken (by decide) taken
  | reducedUnsaved loaded supply taken =>
    refine supply.spares loaded beside ?_ (Or.inr ?_)
    · rw [FileTree.applyAll_append, get?_saving_taken (by decide) taken, get?_supply_reduced supply]
    · rw [FileTree.applyAll_append, get?_saving_other raw_apart.1 raw_apart.2]
  | processed processes => cases h

theorem steps_of_skipped (h : (a.course s lists watch t).result = .ok .skipped) :
    (a.course s lists watch t).steps = [] := by
  have ends := a.ends_course s lists watch t
  generalize a.course s lists watch t = c at ends h ⊢
  cases ends with
  | skipped => rfl
  | _ => cases h

/-- The raw file can be dropped, so a mutation that fails comes before. -/
theorem proceed_of_drop (removes : device.Removes)
    (h : device.proceed d (steps ++ a.dropSteps s t) = (some failed, d')) :
    device.proceed d steps = (some failed, d') := by
  have dropped (e : Disk) : device.proceed e (a.dropSteps s t) =
      (none, e.performAll (a.dropSteps s t)) := by
    refine Device.proceed_of_none_fails fun e m member => ?_
    rw [dropSteps] at member
    split at member
    · cases member
    · obtain rfl := List.mem_singleton.mp member
      exact removes e _
  rw [Device.proceed_append] at h
  rcases early : device.proceed d steps with ⟨_ | _, e⟩
  · rw [early] at h
    cases (dropped e).symm.trans h
  · rw [early] at h
    exact h

theorem spares_of_failed (removes : device.Removes)
    (h : device.proceed (.ofTree t) (a.course s lists watch t).steps = (some failed, d)) :
    a.Beside t d.tree ∧ a.Spares s lists t d.tree := by
  have ends := a.ends_course s lists watch t
  generalize a.course s lists watch t = c at ends h
  cases ends with
  | skipped => cases h
  | unloaded f => cases h
  | rawUnsaved loaded taken =>
    have opens := opens_of_graph loaded
    obtain ⟨beside, others⟩ :=
      beside_stopped opens (.refl a t) (by decide) (Device.stoppedIn_of_proceed h)
    exact ⟨beside, find_eq_of_get? opens beside (by decide) (others _ reduced_apart.2),
      Or.inl (find_eq_of_get? opens beside (by decide) (others _ (by decide)))⟩
  | reducedUnsaved loaded supply taken =>
    exact supply.spares_of_stopped loaded (Device.stoppedIn_of_proceed h)
  | processed processes =>
    rw [← List.append_assoc] at h
    have early := Device.stoppedIn_of_proceed (proceed_of_drop removes h)
    rw [processes.resultSteps_eq] at early
    exact processes.supply.spares_of_stopped processes.loaded early

theorem Beside.locate_of_ne {p : Place} (beside : a.Beside t t') (changed : t'.get? p ≠ t.get? p) :
    ∃ path ∈ a.outputs, t.locate path = .ok p := by
  by_contra none_leads
  exact changed (beside.entries p fun path output located => none_leads ⟨path, output, located⟩)

/-- A run changes nothing but the two behavior files and their drafts. If it skips the app it does
nothing; if it fails, the reduced file is as before and the raw file is as before or complete. This
holds on every device, whichever mutations it fails and however much of a write is done by then, as
long as files that are there can be removed. -/
theorem run_footprint (removes : device.Removes) {result : Except Fault Outcome}
    (ran : Disk.runOn device (a.run s lists watch) t = (result, d)) :
    d.tree.home = t.home ∧
      (∀ p, d.tree.get? p ≠ t.get? p → ∃ path ∈ a.outputs, t.locate path = .ok p) ∧
      (result = .ok .skipped → d = .ofTree t) ∧
      (∀ f, result = .error f → d.tree.find a.reducedBehaviors = t.find a.reducedBehaviors ∧
        (d.tree.find a.rawBehaviors = t.find a.rawBehaviors ∨
          ∃ g, t.graph a s.trackFind = .ok g ∧ d.tree.find a.rawBehaviors =
            .ok (.file (RawBehavior.writeAll (g.extractAll (s.extractionRule lists)))))) := by
  have ended : (a.course s lists watch t).EndsOn device (.ofTree t) (result, d) :=
    ran ▸ a.takes_run s lists watch (.ofTree t) device removes
  cases ended with
  | broken path stopped =>
    obtain ⟨beside, spares⟩ := spares_of_failed removes stopped
    exact ⟨beside.home, fun p => beside.locate_of_ne, fun skipped => (nomatch skipped),
      fun _ _ => ⟨spares.reduced, spares.raw⟩⟩
  | whole went =>
    obtain rfl := Device.eq_performAll_of_proceed went
    have beside := a.beside_course s lists watch t
    simp only [Disk.tree_performAll]
    refine ⟨beside.home, fun p => beside.locate_of_ne, fun skipped => ?_, fun f failed => ?_⟩
    · rw [steps_of_skipped skipped]
      rfl
    · have spares := spares_of_error failed
      exact ⟨spares.reduced, spares.raw⟩

def sample : AppFolder := ⟨"/shop"⟩

/-- An app with a malformed table, one without tables, and one with an event, some coverage and what
is left of a raw file that was cut off. -/
def sampleTree : FileTree where
  entries := .ofList [(["bank"], .folder), (["bank", "encoding"], .folder),
    (["bank", "encoding", "node.csv"], .file (Text.encode "Name,UI\nButton,1\n")),
    (["bank", "encoding", "edge.csv"], .file (Text.encode "From,To,Type\n0,none,4\n")),
    (["news"], .folder), (["shop"], .folder),
    (["shop", "add_info.json"], .file (Text.encode "\x7b\"switchEdges\":\x7b\"7$1\":[]\x7d\x7d")),
    (["shop", "encoding"], .folder),
    (["shop", "encoding", "node.csv"], .file (Text.encode
      "Name,UI,Package\nButton,1,-\n<Shop: void click()>,,-\n<Cart: void show()>,,-\n")),
    (["shop", "encoding", "edge.csv"], .file (Text.encode "From,To,Type\n0,1,4\n1,2,0\n")),
    (["shop", "encoding", "uhg_full.json"], .file (Text.encode "["))]
  home := []

def sampleRaw : RawBehavior := .ofEdges 0 1 (.ofList [⟨0, 1, .event⟩, ⟨1, 2, .call⟩]) .empty

def sampleResult : ReducedBehaviors :=
  ⟨0, [⟨0, 1, ⟨3, 2⟩, ⟨3, 2⟩, ⟨0, 0, none⟩, sampleRaw.edges, .empty, none⟩]⟩

def keeping : Settings := { Settings.default with keepRaw := true }

def filtering : Settings := { keeping with useFilter := true }

theorem loads_sample (h : s ∈ [Settings.default, keeping, filtering]) :
    ∃ g, sampleTree.graph sample s.trackFind = .ok g ∧
      g.extractAll (s.extractionRule default) = [sampleRaw] ∧
      sample.reducedOf s default .stopped sampleTree g [sampleRaw] = sampleResult := by
  have loads : ∀ s ∈ [Settings.default, keeping, filtering],
      ∃ g ∈ (sampleTree.graph sample s.trackFind).toOption,
        (∀ control ∈ g.actingControls.toList, ∀ callback ∈ g.eventCallbacks control,
          ((Walk.advance (s.extractionRule default) g)^[2] (Walk.start callback)).stack = []) ∧
        (g.actingControls.toList.flatMap fun control =>
          (g.eventCallbacks control).filterMap fun callback => g.gather control callback
            ((Walk.advance (s.extractionRule default) g)^[2] (Walk.start callback))) =
          [sampleRaw] ∧
        sample.reducedOf s default .stopped sampleTree g [sampleRaw] = sampleResult := by
    decide +kernel
  obtain ⟨g, loaded, ended, raws, reduced⟩ := loads s h
  refine ⟨g, ?_, (Graph.extractAll_eq_gather 2 ended).trans raws, reduced⟩
  cases found : sampleTree.graph sample s.trackFind with
  | error f =>
    rw [found] at loaded
    cases loaded
  | ok g' =>
    rw [found] at loaded
    exact congrArg Except.ok (Option.some.inj loaded)

theorem processes_sample (h : s ∈ [Settings.default, keeping, filtering]) :
    ∃ g, sample.Processes s default sampleTree g [sampleRaw] false
        (FileTree.saveSteps (sample.place sampleTree (draftOf rawName))
          (sample.place sampleTree rawName) (RawBehavior.writeAll [sampleRaw])) ∧
      sample.reducedOf s default .stopped sampleTree g [sampleRaw] = sampleResult := by
  have unused : ∀ s ∈ [Settings.default, keeping, filtering],
      sample.isFinished s sampleTree = false ∧ sample.usableRaw? s sampleTree = none := by
    decide +kernel
  have free : ∀ name ∈ outputNames, sample.IsFree sampleTree name := by decide +kernel
  obtain ⟨g, loaded, extracted, reduced⟩ := loads_sample h
  have supply : sample.Supply s default sampleTree g _ false _ :=
    .extracted (unused s h).2 ⟨free _ (by decide), free _ (by decide)⟩
  rw [extracted] at supply
  exact ⟨g, ⟨(unused s h).1, loaded, supply, free _ (by decide), free _ (by decide)⟩, reduced⟩

/-- No more than one byte of the reduced draft can be stored. -/
def fullDevice : Device where
  fails := fun _ m =>
    match m with
    | .write place _ =>
      if place = ["shop", "encoding", "uhg.json.tmp"] then some ⟨.blocked, 1, false⟩ else none
    | _ => none

theorem run_footprint_full :
    ∃ d, Disk.runOn fullDevice (sample.run .default default .stopped) sampleTree =
        (.error (.unreadable "/shop/encoding/uhg.json.tmp"), d) ∧
      d.tree.find "/shop/encoding/uhg.json.tmp" = .ok (.file [91]) ∧
      d.tree.find sample.reducedBehaviors = .error .missing ∧
      d.tree.find sample.rawBehaviors = .ok (.file (RawBehavior.writeAll [sampleRaw])) := by
  have removes : fullDevice.Removes := fun _ _ => rfl
  have failed :
      let r := Disk.runOn fullDevice (sample.run .default default .stopped) sampleTree
      r.1 = .error (.unreadable "/shop/encoding/uhg.json.tmp") ∧
        r.2.tree.find "/shop/encoding/uhg.json.tmp" = .ok (.file [91]) ∧
        r.2.tree.find sample.rawBehaviors ≠ sampleTree.find sample.rawBehaviors := by
    decide +kernel
  rcases ran : Disk.runOn fullDevice (sample.run .default default .stopped) sampleTree with ⟨r, d⟩
  rw [ran] at failed
  obtain ⟨rfl, draft, changed⟩ := failed
  obtain ⟨-, -, -, files⟩ := run_footprint removes ran
  obtain ⟨reduced, raw⟩ := files _ rfl
  obtain ⟨g, loaded, written⟩ := raw.resolve_left changed
  obtain ⟨g', loaded', extracted, -⟩ := loads_sample (s := .default) (by decide)
  obtain rfl := Except.ok.inj (loaded.symm.trans loaded')
  rw [extracted] at written
  exact ⟨d, rfl, draft, reduced.trans (by decide +kernel), written⟩

end AppFolder
end HandlerGraph
