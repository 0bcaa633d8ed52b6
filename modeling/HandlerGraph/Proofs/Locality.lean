import HandlerGraph.Proofs.Resumption

/-! What a run can see. All its mutations are at outputs of its app, and its course depends on
nothing but the folder of the app: in two trees that look the same from there, runs take the same
course. Of what lies outside the encoding folder only the auxiliary data counts. The stopwatch shows
in the recorded times only. -/
namespace HandlerGraph

/-- The places whose entries a mutation reads or changes. -/
def Mutation.places : Mutation → List Place
  | .makeFolder place | .create place | .write place _ | .remove place => [place]
  | .rename source target => [source, target]

/-- The same entry, or two files of reduced behaviors that differ in the recorded times only. -/
def SameButTimes (e e' : Option Entry) : Prop :=
  e = e' ∨ ∃ r r' : ReducedBehaviors, e = some (.file r.write) ∧ e' = some (.file r'.write) ∧
    r.untimed = r'.untimed

namespace FileTree
variable {t u : FileTree} {m : Mutation} {p : Place} {steps : List Mutation}
  {inside : Place → Prop}

theorem apply_rename_of_none {source target : Place} (h : source ≠ [])
    (missing : t.get? source = none) : t.apply (.rename source target) = t := by
  have entry : t.entries.get? source = none := by simpa [FileTree.get?, h] using missing
  simp only [apply, entry]

theorem get?_apply_outside (below : ∀ q ∈ m.places, q ≠ []) (outside : p ∉ m.places) :
    (t.apply m).get? p = t.get? p := by
  have top : (if p = [] then some .folder else t.get? p) = t.get? p := by
    split <;> simp_all [FileTree.get?]
  cases m with
  | makeFolder place => rw [get?_makeFolder, if_neg (List.ne_of_not_mem_cons outside), top]
  | create place => rw [get?_create, if_neg (List.ne_of_not_mem_cons outside), top]
  | write place bytes => rw [get?_write, if_neg (List.ne_of_not_mem_cons outside), top]
  | remove place => rw [get?_remove, if_neg (List.ne_of_not_mem_cons outside), top]
  | rename source target =>
    have first : source ≠ [] := below source (by simp [Mutation.places])
    have second : target ≠ [] := below target (by simp [Mutation.places])
    simp only [Mutation.places, List.mem_cons, List.not_mem_nil, or_false, not_or] at outside
    cases there : t.get? source with
    | none => rw [apply_rename_of_none first there]
    | some e => rw [get?_apply_rename first second there, if_neg outside.2, if_neg outside.1]

theorem get?_apply_congr (same : ∀ q ∈ m.places, q ≠ [] ∧ u.get? q = t.get? q)
    (here : u.get? p = t.get? p) : (u.apply m).get? p = (t.apply m).get? p := by
  cases m with
  | makeFolder place => rw [get?_makeFolder, get?_makeFolder, here]
  | create place => rw [get?_create, get?_create, here]
  | write place bytes => rw [get?_write, get?_write, here]
  | remove place => rw [get?_remove, get?_remove, here]
  | rename source target =>
    obtain ⟨first, entry⟩ := same source (by simp [Mutation.places])
    obtain ⟨second, -⟩ := same target (by simp [Mutation.places])
    cases there : t.get? source with
    | none =>
      rw [apply_rename_of_none first there, apply_rename_of_none first (entry.trans there), here]
    | some e =>
      rw [get?_apply_rename first second there, get?_apply_rename first second (entry.trans there),
        here]

theorem get?_applyAll_outside (kind : ∀ m ∈ steps, ∀ q ∈ m.places, q ≠ [] ∧ inside q)
    (outside : ¬ inside p) : (t.applyAll steps).get? p = t.get? p := by
  induction steps generalizing t with
  | nil => rfl
  | cons m steps ih =>
    obtain ⟨first, rest⟩ := List.forall_mem_cons.mp kind
    refine (ih rest).trans (get?_apply_outside (fun q h => (first q h).1) fun h => ?_)
    exact outside (first p h).2

theorem get?_applyAll_congr (kind : ∀ m ∈ steps, ∀ q ∈ m.places, q ≠ [] ∧ inside q)
    (agree : ∀ q, inside q → u.get? q = t.get? q) (here : inside p) :
    (u.applyAll steps).get? p = (t.applyAll steps).get? p := by
  induction steps generalizing t u with
  | nil => exact agree p here
  | cons m steps ih =>
    obtain ⟨first, rest⟩ := List.forall_mem_cons.mp kind
    refine ih rest fun q h => get?_apply_congr (fun r member => ?_) (agree q h)
    exact ⟨(first r member).1, agree r (first r member).2⟩

end FileTree

namespace AppFolder
variable {a : AppFolder} {s : Settings} {lists : KeywordLists} {watch watch' : Stopwatch}
  {t t' u : FileTree} {g : Graph} {name : String} {bytes : List UInt8} {raw : List RawBehavior}
  {reused : Bool} {steps : List Mutation} {m : Mutation} {p : Place}

theorem places_of_mem_saveSteps (h : name ∈ saved) (touched : p ∈ m.places)
    (member : m ∈ FileTree.saveSteps (a.place t (draftOf name)) (a.place t name) bytes) :
    ∃ n ∈ outputNames, p = a.place t n := by
  obtain ⟨output, draft, -⟩ := mem_outputNames_of_saved h
  have listed : p = a.place t (draftOf name) ∨ p = a.place t name := by
    simp only [FileTree.saveSteps, List.mem_cons, List.not_mem_nil, or_false] at member
    rcases member with rfl | rfl | rfl <;> simp_all [Mutation.places]
  rcases listed with rfl | rfl
  · exact ⟨_, draft, rfl⟩
  · exact ⟨_, output, rfl⟩

theorem places_of_mem_saving (h : name ∈ saved) (touched : p ∈ m.places)
    (member : m ∈ (a.saving t name bytes).steps) : ∃ n ∈ outputNames, p = a.place t n := by
  refine places_of_mem_saveSteps h touched (?_ : m ∈ FileTree.saveSteps _ _ bytes)
  rw [saving] at member
  split at member
  · split at member
    · exact member
    · exact List.mem_append_left [_] member
  · cases member

theorem places_of_mem_supply (supply : a.Supply s lists t g raw reused steps)
    (touched : p ∈ m.places) (member : m ∈ steps) : ∃ n ∈ outputNames, p = a.place t n := by
  cases supply with
  | cached found => cases member
  | extracted needed savable => exact places_of_mem_saveSteps (by decide) touched member

/-- Every mutation of a run is at an output of the app. -/
theorem places_of_mem_course (member : m ∈ (a.course s lists watch t).steps)
    (touched : p ∈ m.places) : a.Opens t ∧ ∃ n ∈ outputNames, p = a.place t n := by
  have ends := a.ends_course s lists watch t
  generalize a.course s lists watch t = c at ends member
  cases ends with
  | skipped => cases member
  | unloaded f => cases member
  | rawUnsaved loaded taken =>
    exact ⟨opens_of_graph loaded, places_of_mem_saving (by decide) touched member⟩
  | reducedUnsaved loaded supply taken =>
    refine ⟨opens_of_graph loaded, ?_⟩
    rcases List.mem_append.mp member with first | second
    · exact places_of_mem_supply supply touched first
    · exact places_of_mem_saving (by decide) touched second
  | processed processes =>
    refine ⟨opens_of_graph processes.loaded, ?_⟩
    rcases List.mem_append.mp member with first | later
    · exact places_of_mem_supply processes.supply touched first
    · rcases List.mem_append.mp later with second | dropped
      · exact places_of_mem_saveSteps (by decide) touched second
      · rw [dropSteps] at dropped
        split at dropped
        · cases dropped
        · obtain rfl := List.mem_singleton.mp dropped
          obtain rfl := List.mem_singleton.mp touched
          exact ⟨rawName, by decide, rfl⟩

theorem steps_of_not_opens (closed : ¬ a.Opens t) : (a.course s lists watch t).steps = [] := by
  refine List.eq_nil_iff_forall_not_mem.mpr fun m member => closed ?_
  cases m with
  | _ => exact (places_of_mem_course member (List.mem_cons_self ..)).1

def reducedWith (a : AppFolder) (s : Settings) (lists : KeywordLists) (watch : Stopwatch)
    (aux : Auxiliary) (t : FileTree) (g : Graph) (raw : List RawBehavior) (reused : Bool) :
    Course Outcome :=
  let reduced := g.reduceAll aux (s.reductionRule lists) watch raw
  (a.saving t reducedName reduced.write).andThen fun _ =>
    ⟨a.dropSteps s t, .ok (.processed raw.length reduced.behaviors.length reused)⟩

def courseWith (a : AppFolder) (s : Settings) (lists : KeywordLists) (watch : Stopwatch)
    (aux : Auxiliary) (t : FileTree) : Course Outcome :=
  if a.isFinished s t then .done .skipped
  else
    match t.graph a s.trackFind with
    | .error (.missingInput _) => .done .skipped
    | .error f => .fail f
    | .ok g => (a.rawCourse s lists t g).andThen fun (raw, reused) =>
      a.reducedWith s lists watch aux t g raw reused

theorem course_eq_courseWith (a : AppFolder) (s : Settings) (lists : KeywordLists)
    (watch : Stopwatch) (t : FileTree) : a.course s lists watch t =
      a.courseWith s lists watch (t.auxiliary a s.maxAuxiliaryBytes s.useFilter) t := rfl

section same
variable (same : FileTree.SameFrom t t' a.encoding)
include same

theorem desk_congr : a.desk t' = a.desk t := by rw [desk, desk, same.reach]

theorem place_congr : a.place t' name = a.place t name := by rw [place, place, desk_congr same]

theorem opens_congr : a.Opens t' ↔ a.Opens t := by
  have here (h : t.reach a.encoding = .ok (a.desk t)) : t'.get? (a.desk t) = t.get? (a.desk t) := by
    simpa using same.entries _ h []
  constructor
  · rintro ⟨reach, folder, usable⟩
    rw [same.reach, desk_congr same] at reach
    rw [desk_congr same, here reach] at folder
    exact ⟨reach, folder, usable⟩
  · rintro ⟨reach, folder, usable⟩
    exact ⟨by rw [same.reach, desk_congr same, reach], by rw [desk_congr same, here reach, folder],
      usable⟩

theorem saving_congr (opens : a.Opens t) : a.saving t' name bytes = a.saving t name bytes := by
  have free : ∀ n, a.IsFree t' n ↔ a.IsFree t n := by
    intro n
    have entry := same.entries _ opens.reach [n]
    rw [IsFree, IsFree, place_congr same, FileTree.isFolder, FileTree.isFolder, place, entry]
  simp only [saving, free, place_congr same]

theorem rawCourse_congr (opens : a.Opens t) :
    a.rawCourse s lists t' g = a.rawCourse s lists t g := by
  have raw : t'.find a.rawBehaviors = t.find a.rawBehaviors := (same.join (by decide)).find
  simp only [rawCourse, usableRaw?, cachedRaw?_congr raw, saving_congr same opens]

/-- Given the auxiliary data, a run sees nothing but the encoding folder. -/
theorem courseWith_congr (aux : Auxiliary) :
    a.courseWith s lists watch aux t' = a.courseWith s lists watch aux t := by
  have finished : a.isFinished s t' = a.isFinished s t :=
    isFinished_congr (same.join (by decide)).find (same.join (by decide)).find
  have graph : t'.graph a s.trackFind = t.graph a s.trackFind :=
    FileTree.graph_congr (same.join (by decide)).read (same.join (by decide)).read _
  rw [courseWith, courseWith, finished, graph]
  cases loaded : t.graph a s.trackFind with
  | error f => cases f <;> rfl
  | ok g =>
    have opens := opens_of_graph loaded
    simp only [rawCourse_congr same opens, reducedWith, saving_congr same opens, dropSteps,
      place_congr same]

end same

theorem course_congr (same : FileTree.SameFrom t t' a.root) :
    a.course s lists watch t' = a.course s lists watch t := by
  have values : FileTree.SameFrom t t' (Path.join a.root "values") := same.join (by decide)
  have auxiliary : t'.auxiliary a s.maxAuxiliaryBytes s.useFilter =
      t.auxiliary a s.maxAuxiliaryBytes s.useFilter :=
    FileTree.auxiliary_congr (same.join (by decide)).read (values.join (by decide)).read
      (same.join (by decide)).read _ _
  rw [course_eq_courseWith, course_eq_courseWith, auxiliary, courseWith_congr (same.join (by decide))]

theorem saving_result (a : AppFolder) (t : FileTree) (name : String) (bytes bytes' : List UInt8) :
    (a.saving t name bytes).result = (a.saving t name bytes').result := by
  simp only [saving]
  split
  · split <;> rfl
  · rfl

theorem get?_saving_bytes (a : AppFolder) (t u : FileTree) (name : String)
    (bytes bytes' : List UInt8) (p : Place) :
    (u.applyAll (a.saving t name bytes).steps).get? p =
        (u.applyAll (a.saving t name bytes').steps).get? p ∨
      (u.applyAll (a.saving t name bytes).steps).get? p = some (.file bytes) ∧
        (u.applyAll (a.saving t name bytes').steps).get? p = some (.file bytes') := by
  simp only [saving]
  split
  · split
    · simp only [FileTree.get?_saved place_ne_nil place_ne_nil]
      split
      · exact Or.inr ⟨rfl, rfl⟩
      · exact Or.inl rfl
    · simp only [FileTree.get?_drafted place_ne_nil]
      split
      · exact Or.inr ⟨rfl, rfl⟩
      · exact Or.inl rfl
  · exact Or.inl rfl

theorem get?_dropped (a : AppFolder) (s : Settings) (t u : FileTree) (p : Place) :
    (u.applyAll (a.dropSteps s t)).get? p =
      if s.keepRaw = false ∧ p = a.place t rawName then none else u.get? p := by
  have removed : (u.applyAll [.remove (a.place t rawName)]).get? p =
      if p = a.place t rawName then none else u.get? p := FileTree.get?_apply_remove place_ne_nil
  rw [dropSteps]
  cases s.keepRaw with
  | true => simp [FileTree.applyAll]
  | false => simpa using removed

theorem reducedCourse_watch (a : AppFolder) (s : Settings) (lists : KeywordLists)
    (watch watch' : Stopwatch) (t : FileTree) (g : Graph) (raw : List RawBehavior) (reused : Bool) :
    (a.reducedCourse s lists watch t g raw reused).result =
        (a.reducedCourse s lists watch' t g raw reused).result ∧
      ∀ (u : FileTree) (p : Place),
        SameButTimes ((u.applyAll (a.reducedCourse s lists watch t g raw reused).steps).get? p)
          ((u.applyAll (a.reducedCourse s lists watch' t g raw reused).steps).get? p) := by
  let r := a.reducedOf s lists watch t g raw
  let r' := a.reducedOf s lists watch' t g raw
  have times : r.untimed = r'.untimed := g.untimed_reduceAll _ _ _ _ raw
  have results := a.saving_result t reducedName r.write r'.write
  have stored (u : FileTree) (p : Place) :
      SameButTimes ((u.applyAll (a.saving t reducedName r.write).steps).get? p)
        ((u.applyAll (a.saving t reducedName r'.write).steps).get? p) :=
    (a.get?_saving_bytes t u reducedName r.write r'.write p).imp id fun written =>
      ⟨r, r', written.1, written.2, times⟩
  simp only [reducedCourse, Course.andThen]
  rw [← results]
  cases (a.saving t reducedName r.write).result with
  | error f => exact ⟨rfl, stored⟩
  | ok done =>
    refine ⟨?_, fun u p => ?_⟩
    · rw [ReducedBehaviors.length_of_untimed times]
    · rw [FileTree.applyAll_append, FileTree.applyAll_append]
      rw [get?_dropped, get?_dropped]
      split
      · exact Or.inl rfl
      · exact stored u p

theorem course_watch (a : AppFolder) (s : Settings) (lists : KeywordLists)
    (watch watch' : Stopwatch) (t : FileTree) :
    (a.course s lists watch t).result = (a.course s lists watch' t).result ∧
      ∀ p, SameButTimes ((t.applyAll (a.course s lists watch t).steps).get? p)
        ((t.applyAll (a.course s lists watch' t).steps).get? p) := by
  rw [course, course]
  split
  · exact ⟨rfl, fun p => Or.inl rfl⟩
  · cases t.graph a s.trackFind with
    | error f => cases f <;> exact ⟨rfl, fun p => Or.inl rfl⟩
    | ok g =>
      cases supplied : (a.rawCourse s lists t g).result with
      | error f =>
        simp only [Course.andThen, supplied]
        exact ⟨trivial, fun p => Or.inl rfl⟩
      | ok pair =>
        -- No time is recorded before this point, so both begin reduction in the same tree.
        obtain ⟨results, trees⟩ :=
          a.reducedCourse_watch s lists watch watch' t g pair.1 pair.2
        simp only [Course.andThen, supplied, FileTree.applyAll_append]
        exact ⟨results, trees _⟩

end AppFolder
end HandlerGraph
