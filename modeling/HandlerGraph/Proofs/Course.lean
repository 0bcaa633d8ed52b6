import HandlerGraph.FileTree.Disk
import HandlerGraph.Proofs.FileTree

/-! The course of a program on a disk: what it does from a given tree is a list of mutations and a
result, and courses follow one another as programs do. On a device that fails a mutation the course
is followed up to there. -/
namespace HandlerGraph

/-- What a program does from a tree: its mutations in order, and how it ends. -/
structure Course (α : Type) where
  steps : List Mutation
  result : Except Fault α

namespace Disk

@[simp] theorem tree_performAll (d : Disk) (steps : List Mutation) :
    (d.performAll steps).tree = d.tree.applyAll steps := by
  induction steps generalizing d with
  | nil => rfl
  | cons m steps ih => exact ih (d.perform m)

@[simp] theorem history_performAll (d : Disk) (steps : List Mutation) :
    (d.performAll steps).history = steps.reverse ++ d.history := by
  induction steps generalizing d with
  | nil => rfl
  | cons m steps ih =>
    rw [List.reverse_cons, List.append_assoc]
    exact ih (d.perform m)

theorem reverse_history_performAll (t : FileTree) (steps : List Mutation) :
    ((ofTree t).performAll steps).history.reverse = steps := by
  rw [history_performAll, ofTree, List.append_nil, List.reverse_reverse]

end Disk

namespace FileTree
variable {t t' : FileTree} {front back : List Mutation}

/-- The trees in which a list of mutations can be stopped before its end: before one of them, or in
a write that has stored only some of the bytes. -/
inductive StoppedIn : FileTree → List Mutation → FileTree → Prop
  | before (t : FileTree) (m : Mutation) (rest : List Mutation) : StoppedIn t (m :: rest) t
  | within (t : FileTree) (place : Place) (bytes : List UInt8) (rest : List Mutation) (n : Nat) :
      StoppedIn t (.write place bytes :: rest) (t.apply (.write place (bytes.take n)))
  | after {t t' : FileTree} {m : Mutation} {rest : List Mutation}
      (later : StoppedIn (t.apply m) rest t') : StoppedIn t (m :: rest) t'

theorem StoppedIn.split (h : StoppedIn t (front ++ back) t') :
    StoppedIn t front t' ∨ StoppedIn (t.applyAll front) back t' := by
  induction front generalizing t with
  | nil => exact Or.inr h
  | cons m front ih =>
    cases h with
    | before => exact Or.inl (.before ..)
    | within => exact Or.inl (.within ..)
    | after later => exact (ih later).imp .after id

end FileTree

namespace Device
variable {device : Device} {d d' : Disk} {steps front back : List Mutation}

theorem removes_sound : sound.Removes := fun _ _ => rfl

/-- Makes mutations one after another up to the first that fails. -/
def proceed (device : Device) (d : Disk) : List Mutation → Option (Mutation × Mishap) × Disk
  | [] => (none, d)
  | m :: rest =>
    match device.fails d m with
    | none => device.proceed (d.perform m) rest
    | some mishap => (some (m, mishap), d.performAll (mishap.left m))

theorem proceed_append (device : Device) (d : Disk) (front back : List Mutation) :
    device.proceed d (front ++ back) = match device.proceed d front with
      | (none, d') => device.proceed d' back
      | (some failed, d') => (some failed, d') := by
  induction front generalizing d with
  | nil => rfl
  | cons m front ih =>
    rw [List.cons_append, proceed, proceed]
    split
    · exact ih (d.perform m)
    · rfl

theorem eq_performAll_of_proceed (h : device.proceed d steps = (none, d')) :
    d' = d.performAll steps := by
  induction steps generalizing d with
  | nil => exact (Prod.mk.inj h).2.symm
  | cons m steps ih =>
    rw [proceed] at h
    split at h
    · exact ih h
    · cases h

theorem proceed_of_none_fails (h : ∀ d, ∀ m ∈ steps, device.fails d m = none) :
    device.proceed d steps = (none, d.performAll steps) := by
  induction steps generalizing d with
  | nil => rfl
  | cons m steps ih =>
    rw [proceed, h d m (by simp)]
    exact ih fun d m member => h d m (List.mem_cons_of_mem _ member)

theorem stoppedIn_of_proceed {failed : Mutation × Mishap}
    (h : device.proceed d steps = (some failed, d')) : d.tree.StoppedIn steps d'.tree := by
  induction steps generalizing d with
  | nil => cases h
  | cons m steps ih =>
    rw [proceed] at h
    split at h
    · exact .after (ih h)
    · obtain ⟨-, rfl⟩ := Prod.mk.inj h
      rw [Disk.tree_performAll]
      cases m with
      | write place bytes => exact .within ..
      | _ => exact .before ..

end Device

namespace Course
variable {α β : Type}

def done (a : α) : Course α := ⟨[], .ok a⟩

def fail (f : Fault) : Course α := ⟨[], .error f⟩

def andThen (c : Course α) (next : α → Course β) : Course β :=
  match c.result with
  | .error f => ⟨c.steps, .error f⟩
  | .ok a => ⟨c.steps ++ (next a).steps, (next a).result⟩

/-- The ends of a course on a device: its own end, or the first mutation that fails. -/
inductive EndsOn (c : Course α) (device : Device) (d : Disk) : Except Fault α × Disk → Prop
  | whole {d' : Disk} (went : device.proceed d c.steps = (none, d')) :
      EndsOn c device d (c.result, d')
  | broken {m : Mutation} {mishap : Mishap} {d' : Disk} (path : String)
      (stopped : device.proceed d c.steps = (some (m, mishap), d')) :
      EndsOn c device d (.error (mishap.fault path m), d')

theorem EndsOn.andThen_broken {c : Course α} {device : Device} {d d' : Disk} {m : Mutation}
    {mishap : Mishap} (stopped : device.proceed d c.steps = (some (m, mishap), d')) (path : String)
    (next : α → Course β) :
    (c.andThen next).EndsOn device d (.error (mishap.fault path m), d') := by
  refine .broken path ?_
  rw [andThen]
  split
  · exact stopped
  · rw [Device.proceed_append, stopped]

theorem EndsOn.andThen {c : Course α} {device : Device} {d d' : Disk} {a : α}
    {next : α → Course β} {r : Except Fault β × Disk}
    (went : device.proceed d c.steps = (none, d')) (ended : c.result = .ok a)
    (second : (next a).EndsOn device d' r) : (c.andThen next).EndsOn device d r := by
  have steps : c.andThen next = ⟨c.steps ++ (next a).steps, (next a).result⟩ := by
    rw [Course.andThen, ended]
  rw [steps]
  have both : device.proceed d (c.steps ++ (next a).steps) = device.proceed d' (next a).steps := by
    rw [Device.proceed_append, went]
  cases second with
  | whole went' => exact .whole (both.trans went')
  | broken path stopped => exact .broken path (both.trans stopped)

end Course

namespace DiskM
variable {α β : Type} {d : Disk} {t : FileTree}

theorem execOn_bind (device : Device) (program : DiskM α) (next : α → DiskM β) (d : Disk) :
    (program >>= next).execOn device d = match program.execOn device d with
      | (.ok a, d') => (next a).execOn device d'
      | (.error f, d') => (.error f, d') := by
  have split : (program >>= next).execOn device d =
      (ExceptT.bindCont (fun a => (next a).run device) (program.execOn device d).1).run
        (program.execOn device d).2 := rfl
  rw [split]
  rcases program.execOn device d with ⟨_ | _, _⟩ <;> rfl

theorem exec_bind (program : DiskM α) (next : α → DiskM β) (d : Disk) :
    (program >>= next).exec d = match program.exec d with
      | (.ok a, d') => (next a).exec d'
      | (.error f, d') => (.error f, d') := execOn_bind .sound program next d

/-- From a disk, the program takes this course on every device that can remove files. -/
def Takes (program : DiskM α) (d : Disk) (c : Course α) : Prop :=
  ∀ device : Device, device.Removes → c.EndsOn device d (program.execOn device d)

theorem Takes.exec_eq {program : DiskM α} {c : Course α} (taken : program.Takes d c) :
    program.exec d = (c.result, d.performAll c.steps) := by
  have sound := taken .sound Device.removes_sound
  have went : Device.sound.proceed d c.steps = (none, d.performAll c.steps) :=
    Device.proceed_of_none_fails fun _ _ _ => rfl
  change c.EndsOn .sound d (program.exec d) at sound
  generalize program.exec d = r at sound
  cases sound with
  | whole went' => rw [Device.eq_performAll_of_proceed went']
  | broken path stopped =>
    rw [went] at stopped
    cases stopped

theorem Takes.bind {program : DiskM α} {next : α → DiskM β} {c : Course α}
    (first : program.Takes d c) (after : α → Course β)
    (second : ∀ a, c.result = .ok a → (next a).Takes (d.performAll c.steps) (after a)) :
    (program >>= next).Takes d (c.andThen after) := by
  intro device removes
  have first := first device removes
  rw [execOn_bind]
  generalize program.execOn device d = r at first
  cases first with
  | broken path stopped => exact .andThen_broken stopped path after
  | whole went =>
    cases ended : c.result with
    | error f =>
      have same : c.andThen after = ⟨c.steps, .error f⟩ := by rw [Course.andThen, ended]
      rw [same]
      exact .whole went
    | ok a =>
      refine .andThen went ended ?_
      obtain rfl := Device.eq_performAll_of_proceed went
      exact second a ended device removes

theorem takes_pure (a : α) (d : Disk) : (pure a : DiskM α).Takes d (.done a) :=
  fun _ _ => .whole rfl

theorem takes_throw (f : Fault) (d : Disk) : (throw f : DiskM α).Takes d (.fail f) :=
  fun _ _ => .whole rfl

theorem execOn_attempt (device : Device) (m : Mutation) (d : Disk) :
    (attempt m).execOn device d = match device.fails d m with
      | none => (.ok none, d.perform m)
      | some mishap => (.ok (some mishap), d.performAll (mishap.left m)) := by
  have shape : (attempt m).execOn device d = DiskM.execOn device (match device.fails d m with
      | none => do set (d.perform m); return none
      | some mishap => do set (d.performAll (mishap.left m)); return some mishap) d := rfl
  rw [shape]
  split <;> rfl

theorem takes_mutate (path : String) (m : Mutation) (d : Disk) :
    (mutate path m).Takes d ⟨[m], .ok ()⟩ := by
  intro device removes
  rw [mutate, execOn_bind, execOn_attempt]
  cases fails : device.fails d m with
  | none => exact .whole (by rw [Device.proceed, fails]; rfl)
  | some mishap => exact .broken path (by rw [Device.proceed, fails])

theorem takes_attempt_remove (place : Place) (d : Disk) :
    (attempt (.remove place)).Takes d ⟨[.remove place], .ok none⟩ := by
  intro device removes
  rw [execOn_attempt, removes d place]
  exact .whole (by rw [Device.proceed, removes d place]; rfl)

theorem Takes.bind_done {program : DiskM α} {next : α → DiskM β} {a : α} {c : Course β}
    (first : program.Takes d (.done a)) (second : (next a).Takes d c) :
    (program >>= next).Takes d c :=
  first.bind (fun _ => c) fun _ h => Except.ok.inj h ▸ second

theorem Takes.bind_fail {program : DiskM α} {f : Fault} (first : program.Takes d (.fail f))
    (next : α → DiskM β) : (program >>= next).Takes d (.fail f) :=
  first.bind (fun _ => .fail f) fun _ h => nomatch h

theorem Takes.mutate_bind {next : Unit → DiskM β} {path : String} {m : Mutation}
    {steps : List Mutation} {result : Except Fault β}
    (second : (next ()).Takes (d.perform m) ⟨steps, result⟩) :
    (mutate path m >>= next).Takes d ⟨m :: steps, result⟩ :=
  (takes_mutate path m d).bind (fun _ => ⟨steps, result⟩) fun _ _ => second

theorem takes_tree_bind {next : FileTree → DiskM α} {c : Course α}
    (h : (next d.tree).Takes d c) : (tree >>= next).Takes d c := h

theorem takes_blaming {path : String} {find : FileTree → Except Trouble α} {a : α}
    (found : find d.tree = .ok a) : (blaming path find).Takes d (.done a) := by
  refine takes_tree_bind ?_
  simp only [found]
  exact takes_pure a d

theorem takes_blaming_trouble {path : String} {find : FileTree → Except Trouble α}
    {trouble : Trouble} (found : find d.tree = .error trouble) :
    (blaming path find).Takes d (.fail (trouble.fault path)) := by
  refine takes_tree_bind ?_
  simp only [found]
  exact takes_throw _ d

end DiskM

theorem FileTree.makeFolders_of_follow {t : FileTree} {place target : Place} {parts : List String}
    (h : t.follow place parts = .ok target) (there : t.get? target = some .folder) :
    t.makeFolders place parts = ([], none) := by
  induction parts generalizing place with
  | nil =>
    obtain rfl : place = target := by simpa [follow] using h
    simp [makeFolders, isFolder, there]
  | cons part parts ih =>
    obtain ⟨here, fits, h⟩ := follow_cons_ok h
    have further : ∃ e, t.get? (next place part) = some e := by
      cases parts with
      | nil =>
        obtain rfl : next place part = target := by simpa [follow] using h
        exact ⟨_, there⟩
      | cons _ _ => exact ⟨_, (follow_cons_ok h).1⟩
    obtain ⟨e, found⟩ := further
    simp [makeFolders, isFolder, here, fits, found, ih h]

theorem DiskM.takes_makeFolders {d : Disk} {path : String} {target : Place}
    (usable : Path.isUsable path = true) (h : d.tree.reach path = .ok target)
    (there : d.tree.get? target = some .folder) : (makeFolders path).Takes d (.done ()) := by
  have steps : d.tree.makeFolders (d.tree.origin path) (Path.parts path) = ([], none) :=
    FileTree.makeFolders_of_follow h there
  rw [makeFolders, usable]
  refine takes_tree_bind ?_
  rw [steps]
  exact takes_pure () d

end HandlerGraph
