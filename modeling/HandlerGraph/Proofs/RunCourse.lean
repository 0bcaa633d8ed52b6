import HandlerGraph.Proofs.Course
import HandlerGraph.Proofs.Desk

/-! The course of a run over an app. A run reads nothing that it has written itself, except to find
the raw file it is about to drop, so its whole course is known from the tree it starts on. -/
namespace HandlerGraph.AppFolder
open DiskM

variable {a : AppFolder} {t t' : FileTree} {d : Disk} {name : String} {bytes : List UInt8}

def saved : List String := [rawName, reducedName]

theorem mem_outputNames_of_saved (h : name ∈ saved) :
    name ∈ outputNames ∧ draftOf name ∈ outputNames ∧ draftOf name ≠ name := by
  have all : ∀ n ∈ saved, n ∈ outputNames ∧ draftOf n ∈ outputNames ∧ draftOf n ≠ n := by
    decide +kernel
  exact all name h

/-- A file can be put in place where its path is short enough and no folder stands. -/
def IsFree (a : AppFolder) (t : FileTree) (name : String) : Prop :=
  Path.isUsable (a.file name) = true ∧ t.isFolder (a.place t name) = false

instance decidableIsFree (a : AppFolder) (t : FileTree) (name : String) :
    Decidable (a.IsFree t name) :=
  inferInstanceAs (Decidable (_ ∧ _))

theorem IsFree.not_folder (free : a.IsFree t name) : t.get? (a.place t name) ≠ some .folder := by
  simpa [FileTree.isFolder] using free.2

theorem Opens.locate_free (opens : a.Opens t) (h : name ∈ outputNames) (free : a.IsFree t name) :
    ∃ path ∈ a.outputs, t.locate path = .ok (a.place t name) :=
  ⟨a.file name, mem_outputs.mpr ⟨name, h, rfl⟩, by rw [opens.locate_file h, if_pos free.1]⟩

theorem isFree_beside (opens : a.Opens t) (beside : a.Beside t t') :
    a.IsFree t' name ↔ a.IsFree t name := by
  rw [IsFree, IsFree, opens.place_eq beside, beside.isFolder]

structure Savable (a : AppFolder) (t : FileTree) (name : String) : Prop where
  draft : a.IsFree t (draftOf name)
  target : a.IsFree t name

/-- How saving a file goes. Trouble with the draft comes before anything is written. -/
def saving (a : AppFolder) (t : FileTree) (name : String) (bytes : List UInt8) : Course Unit :=
  let draft := a.place t (draftOf name)
  let target := a.place t name
  if a.IsFree t (draftOf name) then
    if a.IsFree t name then ⟨FileTree.saveSteps draft target bytes, .ok ()⟩
    else ⟨[.create draft, .write draft bytes], .error (.unreadable (a.file name))⟩
  else .fail (.unreadable (a.file (draftOf name)))

theorem saving_of_savable (h : a.Savable t name) :
    a.saving t name bytes =
      ⟨FileTree.saveSteps (a.place t (draftOf name)) (a.place t name) bytes, .ok ()⟩ := by
  simp [saving, h.draft, h.target]

theorem savable_of_saving {u : Unit} (h : (a.saving t name bytes).result = .ok u) :
    a.Savable t name := by
  rw [saving] at h
  split at h
  · split at h
    · exact ⟨‹_›, ‹_›⟩
    · cases h
  · cases h

theorem saving_beside (opens : a.Opens t) (beside : a.Beside t t') :
    a.saving t' name bytes = a.saving t name bytes := by
  simp only [saving, isFree_beside opens beside, opens.place_eq beside]

/-- Where a file can be put, it may also be removed. -/
theorem beside_of_change {e : Option Entry} (opens : a.Opens t) (output : name ∈ outputNames)
    (free : a.IsFree t name) (plain : e ≠ some .folder) (home : t'.home = t.home)
    (entries : ∀ p, t'.get? p = if p = a.place t name then e else t.get? p) : a.Beside t t' := by
  refine beside_of_changes home fun p changed => ?_
  rw [entries] at changed ⊢
  split at changed
  · rename_i here
    subst here
    exact ⟨opens.locate_free output free, free.not_folder, by simpa using plain⟩
  · exact absurd rfl changed

theorem beside_drafted (opens : a.Opens t) (h : name ∈ saved) (free : a.IsFree t (draftOf name))
    (bytes : List UInt8) :
    a.Beside t (t.applyAll [.create (a.place t (draftOf name)),
      .write (a.place t (draftOf name)) bytes]) :=
  beside_of_change opens (mem_outputNames_of_saved h).2.1 free (by simp) (FileTree.home_applyAll ..)
    fun _ => FileTree.get?_drafted place_ne_nil

theorem beside_saved (opens : a.Opens t) (h : name ∈ saved) (savable : a.Savable t name) :
    a.Beside t
      (t.applyAll (FileTree.saveSteps (a.place t (draftOf name)) (a.place t name) bytes)) := by
  obtain ⟨output, draft, -⟩ := mem_outputNames_of_saved h
  refine beside_of_changes (FileTree.home_applyAll ..) fun p changed => ?_
  rw [FileTree.get?_saved place_ne_nil place_ne_nil] at changed ⊢
  split at changed
  · rename_i here
    subst here
    exact ⟨opens.locate_free output savable.target, savable.target.not_folder, by simp⟩
  · split at changed
    · rename_i apart here
      subst here
      exact ⟨opens.locate_free draft savable.draft, savable.draft.not_folder, by simp [apart]⟩
    · exact absurd rfl changed

theorem Beside.saving (opens : a.Opens t) (beside : a.Beside t t') (h : name ∈ saved)
    (bytes : List UInt8) : a.Beside t (t'.applyAll (a.saving t name bytes).steps) := by
  refine beside.trans opens ?_
  rw [← saving_beside opens beside, AppFolder.saving]
  split
  · split
    · exact beside_saved (opens.beside beside) h ⟨‹_›, ‹_›⟩
    · exact beside_drafted (opens.beside beside) h ‹_› bytes
  · exact .refl a t'

theorem get?_saving_other {other : String} (target : other ≠ name) (draft : other ≠ draftOf name) :
    (t'.applyAll (a.saving t name bytes).steps).get? (a.place t other) =
      t'.get? (a.place t other) := by
  have apart : a.place t other ≠ a.place t name := by simpa using target
  have apart' : a.place t other ≠ a.place t (draftOf name) := by simpa using draft
  rw [saving]
  split
  · split
    · rw [FileTree.get?_saved place_ne_nil place_ne_nil, if_neg apart, if_neg apart']
    · rw [FileTree.get?_drafted place_ne_nil, if_neg apart']
  · rfl

theorem takes_filePlace (opens : a.Opens d.tree) (h : name ∈ outputNames)
    (free : a.IsFree d.tree name) :
    (blaming (a.file name) (filePlace · (a.file name))).Takes d (.done (a.place d.tree name)) := by
  refine takes_blaming ?_
  rw [filePlace, opens.locate_file h, free.1]
  simp [bind, Except.bind, free.2]

theorem takes_filePlace_blocked (opens : a.Opens d.tree) (h : name ∈ outputNames)
    (taken : ¬ a.IsFree d.tree name) :
    (blaming (a.file name) (filePlace · (a.file name))).Takes d
      (.fail (Trouble.blocked.fault (a.file name))) := by
  have blocked : filePlace d.tree (a.file name) = .error .blocked := by
    rw [filePlace, opens.locate_file h]
    split
    · rename_i usable
      have folder : d.tree.isFolder (a.place d.tree name) = true := by
        simpa [IsFree, usable] using taken
      simp [bind, Except.bind, folder]
    · rfl
  exact takes_blaming_trouble blocked

theorem takes_save (opens : a.Opens d.tree) (h : name ∈ saved) (bytes : List UInt8) :
    (save a.encoding (a.file name) bytes).Takes d (a.saving d.tree name bytes) := by
  obtain ⟨output, draftOutput, -⟩ := mem_outputNames_of_saved h
  refine (takes_makeFolders opens.usable opens.reach opens.folder).bind_done ?_
  rw [draft_file, saving]
  split
  · rename_i free
    refine (takes_filePlace opens draftOutput free).bind_done ?_
    -- The target is looked for when the draft is written, which is beside the tree at the start.
    have beside := beside_drafted opens h free bytes
    let drafted := (d.perform (.create (a.place d.tree (draftOf name)))).perform
      (.write (a.place d.tree (draftOf name)) bytes)
    have opens' : a.Opens drafted.tree := opens.beside beside
    have same : a.place drafted.tree name = a.place d.tree name := opens.place_eq beside
    have free' : a.IsFree drafted.tree name ↔ a.IsFree d.tree name := isFree_beside opens beside
    rw [FileTree.saveSteps]
    split
    · rename_i target
      have found := takes_filePlace opens' output (free'.mpr target)
      rw [same] at found
      refine Takes.mutate_bind (Takes.mutate_bind ?_)
      refine found.bind_done ?_
      exact takes_mutate _ _ _
    · rename_i target
      have lost := takes_filePlace_blocked opens' output (mt free'.mp target)
      refine Takes.mutate_bind (Takes.mutate_bind ?_)
      exact lost.bind_fail _
  · rename_i taken
    exact (takes_filePlace_blocked opens draftOutput taken).bind_fail _

def usableRaw? (a : AppFolder) (s : Settings) (t : FileTree) : Option (List RawBehavior) :=
  if s.rebuildRaw then none else a.cachedRaw? t

def rawCourse (a : AppFolder) (s : Settings) (lists : KeywordLists) (t : FileTree) (g : Graph) :
    Course (List RawBehavior × Bool) :=
  match a.usableRaw? s t with
  | some raw => .done (raw, true)
  | none =>
    let raw := g.extractAll (s.extractionRule lists)
    (a.saving t rawName (RawBehavior.writeAll raw)).andThen fun _ => .done (raw, false)

def reducedOf (a : AppFolder) (s : Settings) (lists : KeywordLists) (watch : Stopwatch)
    (t : FileTree) (g : Graph) (raw : List RawBehavior) : ReducedBehaviors :=
  g.reduceAll (t.auxiliary a s.maxAuxiliaryBytes s.useFilter) (s.reductionRule lists) watch raw

def dropSteps (a : AppFolder) (s : Settings) (t : FileTree) : List Mutation :=
  if s.keepRaw then [] else [.remove (a.place t rawName)]

def reducedCourse (a : AppFolder) (s : Settings) (lists : KeywordLists) (watch : Stopwatch)
    (t : FileTree) (g : Graph) (raw : List RawBehavior) (reused : Bool) : Course Outcome :=
  let reduced := a.reducedOf s lists watch t g raw
  (a.saving t reducedName reduced.write).andThen fun _ =>
    ⟨a.dropSteps s t, .ok (.processed raw.length reduced.behaviors.length reused)⟩

def course (a : AppFolder) (s : Settings) (lists : KeywordLists) (watch : Stopwatch)
    (t : FileTree) : Course Outcome :=
  if a.isFinished s t then .done .skipped
  else
    match t.graph a s.trackFind with
    | .error (.missingInput _) => .done .skipped
    | .error f => .fail f
    | .ok g => (a.rawCourse s lists t g).andThen fun (raw, reused) =>
      a.reducedCourse s lists watch t g raw reused

section takes
variable {s : Settings} {lists : KeywordLists} {watch : Stopwatch} {g : Graph}
  {raw : List RawBehavior} {reused : Bool} {steps : List Mutation}

/-- Where the raw behaviors of a run come from, and the mutations that takes. -/
inductive Supply (a : AppFolder) (s : Settings) (lists : KeywordLists) (t : FileTree) (g : Graph) :
    List RawBehavior → Bool → List Mutation → Prop
  | cached {raw : List RawBehavior} (found : a.usableRaw? s t = some raw) :
      Supply a s lists t g raw true []
  | extracted (needed : a.usableRaw? s t = none) (savable : a.Savable t rawName) :
      Supply a s lists t g (g.extractAll (s.extractionRule lists)) false
        (FileTree.saveSteps (a.place t (draftOf rawName)) (a.place t rawName)
          (RawBehavior.writeAll (g.extractAll (s.extractionRule lists))))

theorem rawCourse_of_supply (supply : a.Supply s lists t g raw reused steps) :
    a.rawCourse s lists t g = ⟨steps, .ok (raw, reused)⟩ := by
  cases supply with
  | cached found => simp [rawCourse, found, Course.done]
  | extracted needed savable =>
    simp [rawCourse, needed, saving_of_savable savable, Course.andThen, Course.done]

theorem supply_of_rawCourse (h : (a.rawCourse s lists t g).result = .ok (raw, reused)) :
    a.Supply s lists t g raw reused (a.rawCourse s lists t g).steps := by
  cases used : a.usableRaw? s t with
  | some cached =>
    have supply : a.Supply s lists t g cached true [] := .cached used
    rw [rawCourse_of_supply supply] at h ⊢
    obtain ⟨rfl, rfl⟩ := Prod.mk.inj (Except.ok.inj h)
    exact supply
  | none =>
    have savable : a.Savable t rawName := by
      simp only [rawCourse, used, Course.andThen] at h
      split at h
      · cases h
      · exact savable_of_saving ‹_›
    have supply : a.Supply s lists t g _ false _ := .extracted used savable
    rw [rawCourse_of_supply supply] at h ⊢
    obtain ⟨rfl, rfl⟩ := Prod.mk.inj (Except.ok.inj h)
    exact supply

theorem takes_rawBehaviorsOf (opens : a.Opens d.tree) :
    (a.rawBehaviorsOf s lists g).Takes d (a.rawCourse s lists d.tree g) := by
  refine takes_tree_bind ?_
  change (match a.usableRaw? s d.tree with
    | some raw => pure (raw, true)
    | none => _ : DiskM _).Takes d _
  rw [rawCourse]
  cases a.usableRaw? s d.tree with
  | some raw => exact takes_pure _ d
  | none =>
    have fresh : rawName ∈ saved := by decide
    exact (takes_save opens fresh _).bind _ fun _ _ => takes_pure _ _

theorem beside_supply (opens : a.Opens t) (supply : a.Supply s lists t g raw reused steps) :
    a.Beside t (t.applyAll steps) := by
  cases supply with
  | cached found => exact .refl a t
  | extracted needed savable => exact beside_saved opens (by decide) savable

theorem usableRaw?_eq_some : a.usableRaw? s t = some raw ↔
    s.rebuildRaw = false ∧ a.cachedRaw? t = some raw := by
  rw [usableRaw?]
  cases s.rebuildRaw <;> simp

theorem Supply.source (h : a.Supply s lists t g raw reused steps) :
    if reused then a.cachedRaw? t = some raw else raw = g.extractAll (s.extractionRule lists) := by
  cases h with
  | cached found => exact (usableRaw?_eq_some.mp found).2
  | extracted => rfl

theorem cachedRaw?_some {a : AppFolder} (h : a.cachedRaw? t = some raw) :
    ∃ bytes, t.find a.rawBehaviors = .ok (.file bytes) ∧ bytes ≠ [] ∧
      RawBehavior.readAll? bytes = some raw := by
  rw [cachedRaw?] at h
  split at h
  · rename_i content
    simp only [FileTree.hasContent] at content
    split at content
    · rename_i b rest found
      refine ⟨b :: rest, found, by simp, ?_⟩
      simpa [FileTree.read, found, bind, Except.bind, Except.toOption] using h
    · cases content
  · cases h

theorem Opens.find_file_ok (opens : a.Opens t) (h : name ∈ outputNames) {e : Entry} :
    t.find (a.file name) = .ok e ↔
      Path.isUsable (a.file name) = true ∧ t.get? (a.place t name) = some e := by
  rw [FileTree.find, opens.locate_file h]
  split
  · rename_i usable
    simp only [bind, Except.bind, usable, true_and]
    split <;> simp_all
  · rename_i long
    simp [bind, Except.bind, long]

/-- By the time the raw file may be dropped it is there. -/
theorem raw_of_supply (opens : a.Opens t) (supply : a.Supply s lists t g raw reused steps) :
    Path.isUsable (a.file rawName) = true ∧
      ∃ bytes, (t.applyAll steps).get? (a.place t rawName) = some (.file bytes) := by
  cases supply with
  | cached found =>
    obtain ⟨bytes, there, -⟩ := cachedRaw?_some (usableRaw?_eq_some.mp found).2
    obtain ⟨usable, entry⟩ := (opens.find_file_ok (by decide)).mp there
    exact ⟨usable, bytes, entry⟩
  | extracted needed savable =>
    refine ⟨savable.target.1, RawBehavior.writeAll (g.extractAll (s.extractionRule lists)), ?_⟩
    rw [FileTree.get?_saved place_ne_nil place_ne_nil, if_pos rfl]

theorem takes_removeRaw (opens : a.Opens d.tree) (usable : Path.isUsable (a.file rawName) = true)
    (there : d.tree.get? (a.place d.tree rawName) = some (.file bytes)) :
    a.removeRaw.Takes d ⟨[.remove (a.place d.tree rawName)], .ok ()⟩ := by
  have located : d.tree.locate a.rawBehaviors = .ok (a.place d.tree rawName) := by
    have output : rawName ∈ outputNames := by decide
    have h := opens.locate_file output
    rwa [usable] at h
  refine takes_tree_bind ?_
  rw [located]
  refine takes_tree_bind ?_
  rw [there]
  exact (takes_attempt_remove _ d).bind (fun _ => .done ()) fun _ kept =>
    Except.ok.inj kept ▸ takes_pure () _

theorem takes_process (opens : a.Opens d.tree) :
    (a.process s lists watch g).Takes d ((a.rawCourse s lists d.tree g).andThen
      fun (raw, reused) => a.reducedCourse s lists watch d.tree g raw reused) := by
  refine (takes_rawBehaviorsOf opens).bind _ fun (raw, reused) h => ?_
  have supply := supply_of_rawCourse h
  have beside := beside_supply opens supply
  obtain ⟨usable, content, raw_there⟩ := raw_of_supply opens supply
  revert beside raw_there
  rw [← Disk.tree_performAll]
  generalize d.performAll (a.rawCourse s lists d.tree g).steps = e
  intro beside raw_there
  refine takes_tree_bind ?_
  rw [auxiliary_eq opens beside]
  have reduced : reducedName ∈ saved := by decide
  have stored := takes_save (opens.beside beside) reduced
    (a.reducedOf s lists watch d.tree g raw).write
  rw [saving_beside opens beside] at stored
  refine stored.bind _ fun _ _ => ?_
  rw [dropSteps]
  cases s.keepRaw with
  | true => exact takes_pure _ _
  | false =>
    have beside' := beside.saving opens reduced (a.reducedOf s lists watch d.tree g raw).write
    rw [← get?_saving_other raw_apart.1 raw_apart.2, ← Disk.tree_performAll] at raw_there
    rw [← Disk.tree_performAll] at beside'
    rw [← opens.place_eq beside'] at raw_there ⊢
    have removed := takes_removeRaw (opens.beside beside') usable raw_there
    exact removed.bind (fun _ => .done _) fun _ _ => takes_pure _ _

theorem takes_run (a : AppFolder) (s : Settings) (lists : KeywordLists) (watch : Stopwatch)
    (d : Disk) : (a.run s lists watch).Takes d (a.course s lists watch d.tree) := by
  refine takes_tree_bind ?_
  rw [course]
  split
  · exact takes_pure _ d
  · refine takes_tree_bind ?_
    cases loaded : d.tree.graph a s.trackFind with
    | error f =>
      cases f with
      | missingInput _ => exact takes_pure _ d
      | _ => exact takes_throw _ d
    | ok g => exact takes_process (opens_of_graph loaded)

theorem run_eq_course (a : AppFolder) (s : Settings) (lists : KeywordLists) (watch : Stopwatch)
    (t : FileTree) :
    Disk.run (a.run s lists watch) t = ((a.course s lists watch t).result,
      (Disk.ofTree t).performAll (a.course s lists watch t).steps) :=
  (takes_run a s lists watch (.ofTree t)).exec_eq

/-- What a run needs in order to process an app from a tree, and what it takes the raw behaviors
from. -/
structure Processes (a : AppFolder) (s : Settings) (lists : KeywordLists) (t : FileTree) (g : Graph)
    (raw : List RawBehavior) (reused : Bool) (steps : List Mutation) : Prop where
  unfinished : a.isFinished s t = false
  loaded : t.graph a s.trackFind = .ok g
  supply : a.Supply s lists t g raw reused steps
  savable : a.Savable t reducedName

def resultSteps (a : AppFolder) (s : Settings) (lists : KeywordLists) (watch : Stopwatch)
    (t : FileTree) (g : Graph) (raw : List RawBehavior) : List Mutation :=
  FileTree.saveSteps (a.place t (draftOf reducedName)) (a.place t reducedName)
    (a.reducedOf s lists watch t g raw).write

theorem Processes.resultSteps_eq (h : a.Processes s lists t g raw reused steps)
    (watch : Stopwatch) : a.resultSteps s lists watch t g raw =
      (a.saving t reducedName (a.reducedOf s lists watch t g raw).write).steps := by
  rw [saving_of_savable h.savable, resultSteps]

theorem Processes.course_eq (h : a.Processes s lists t g raw reused steps) :
    a.course s lists watch t =
      ⟨steps ++ (a.resultSteps s lists watch t g raw ++ a.dropSteps s t),
        .ok (.processed raw.length (a.reducedOf s lists watch t g raw).behaviors.length reused)⟩ := by
  simp [course, h.unfinished, h.loaded, rawCourse_of_supply h.supply, Course.andThen, reducedCourse,
    saving_of_savable h.savable, resultSteps]

theorem Processes.run_eq (h : a.Processes s lists t g raw reused steps) (watch : Stopwatch) :
    Disk.run (a.run s lists watch) t =
      (.ok (.processed raw.length (a.reducedOf s lists watch t g raw).behaviors.length reused),
        (Disk.ofTree t).performAll
          (steps ++ (a.resultSteps s lists watch t g raw ++ a.dropSteps s t))) := by
  rw [run_eq_course, h.course_eq]

inductive Ends (a : AppFolder) (s : Settings) (lists : KeywordLists) (watch : Stopwatch)
    (t : FileTree) : Course Outcome → Prop
  | skipped : Ends a s lists watch t (.done .skipped)
  | unloaded (f : Fault) : Ends a s lists watch t (.fail f)
  | rawUnsaved {g : Graph} {f : Fault} (loaded : t.graph a s.trackFind = .ok g)
      (taken : ¬ a.Savable t rawName) :
      Ends a s lists watch t
        ⟨(a.saving t rawName (RawBehavior.writeAll (g.extractAll (s.extractionRule lists)))).steps,
          .error f⟩
  | reducedUnsaved {g : Graph} {raw : List RawBehavior} {reused : Bool} {steps : List Mutation}
      {f : Fault} (loaded : t.graph a s.trackFind = .ok g)
      (supply : a.Supply s lists t g raw reused steps) (taken : ¬ a.Savable t reducedName) :
      Ends a s lists watch t
        ⟨steps ++ (a.saving t reducedName (a.reducedOf s lists watch t g raw).write).steps,
          .error f⟩
  | processed {g : Graph} {raw : List RawBehavior} {reused : Bool} {steps : List Mutation}
      (processes : a.Processes s lists t g raw reused steps) :
      Ends a s lists watch t
        ⟨steps ++ (a.resultSteps s lists watch t g raw ++ a.dropSteps s t),
          .ok (.processed raw.length (a.reducedOf s lists watch t g raw).behaviors.length reused)⟩

theorem not_savable_of_saving {f : Fault} (h : (a.saving t name bytes).result = .error f) :
    ¬ a.Savable t name := by
  intro savable
  rw [saving_of_savable savable] at h
  cases h

theorem rawCourse_error {f : Fault} (h : (a.rawCourse s lists t g).result = .error f) :
    ¬ a.Savable t rawName ∧ (a.rawCourse s lists t g).steps =
      (a.saving t rawName (RawBehavior.writeAll (g.extractAll (s.extractionRule lists)))).steps := by
  cases used : a.usableRaw? s t with
  | some cached =>
    simp only [rawCourse, used] at h
    cases h
  | none =>
    simp only [rawCourse, used, Course.andThen] at h ⊢
    split at h
    · rename_i stored
      exact ⟨not_savable_of_saving stored, rfl⟩
    · cases h

theorem ends_course (a : AppFolder) (s : Settings) (lists : KeywordLists) (watch : Stopwatch)
    (t : FileTree) : a.Ends s lists watch t (a.course s lists watch t) := by
  cases finished : a.isFinished s t with
  | true =>
    rw [course, if_pos finished]
    exact .skipped
  | false =>
    cases loaded : t.graph a s.trackFind with
    | error f =>
      simp only [course, finished, loaded]
      cases f with
      | missingInput _ => exact .skipped
      | _ => exact .unloaded _
    | ok g =>
      cases supplied : (a.rawCourse s lists t g).result with
      | error f =>
        obtain ⟨taken, steps⟩ := rawCourse_error supplied
        simp only [course, finished, loaded, Course.andThen, supplied, steps]
        exact .rawUnsaved loaded taken
      | ok pair =>
        have supply := supply_of_rawCourse supplied
        cases stored :
          (a.saving t reducedName (a.reducedOf s lists watch t g pair.1).write).result with
        | error f =>
          simp only [course, finished, loaded, Course.andThen, supplied, reducedCourse, stored]
          exact .reducedUnsaved loaded supply (not_savable_of_saving stored)
        | ok u =>
          have processes : a.Processes s lists t g pair.1 pair.2 _ :=
            ⟨finished, loaded, supply, savable_of_saving stored⟩
          rw [processes.course_eq]
          exact .processed processes

theorem processes_of_run {n m : Nat}
    (h : Disk.run (a.run s lists watch) t = (.ok (.processed n m reused), d)) :
    ∃ g raw steps, a.Processes s lists t g raw reused steps ∧ n = raw.length ∧
      m = (a.reducedOf s lists watch t g raw).behaviors.length ∧
      d = (Disk.ofTree t).performAll (a.course s lists watch t).steps := by
  rw [run_eq_course, Prod.mk.injEq] at h
  obtain ⟨result, rfl⟩ := h
  have ends := a.ends_course s lists watch t
  generalize a.course s lists watch t = c at ends result ⊢
  cases ends with
  | processed processes =>
    cases result
    exact ⟨_, _, _, processes, rfl, rfl, rfl⟩
  | _ => cases result

end takes

end HandlerGraph.AppFolder
