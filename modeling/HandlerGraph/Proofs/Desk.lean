import HandlerGraph.App.Run
import HandlerGraph.Proofs.FileTree

/-! Where a run writes. The four files it may touch lie in the encoding folder of the app, which is
there once the graph has been loaded. A tree stands beside another when it differs from it in these
files only and in no folder: then every input reads the same in both. -/
namespace HandlerGraph

namespace Path
variable {folder name : String}

theorem exists_join_eq (folder name : String) :
    ∃ between, join folder name = folder ++ between := by
  rw [join]
  split
  · rename_i none_given
    exact ⟨name, by rw [none_given, String.empty_append]⟩
  · split
    · exact ⟨name, rfl⟩
    · exact ⟨"/" ++ name, String.append_assoc ..⟩

theorem isUsable_of_append {front back : String} (h : isUsable (front ++ back) = true) :
    isUsable front = true := by
  simp only [isUsable, String.utf8ByteSize_append, String.toList_append, Bool.and_eq_true,
    decide_eq_true_eq, Bool.not_eq_true', List.contains_eq_mem, List.mem_append,
    decide_eq_false_iff_not, not_or] at h ⊢
  exact ⟨by omega, h.2.1⟩

theorem isUsable_of_join (h : isUsable (join folder name) = true) : isUsable folder = true := by
  obtain ⟨between, joined⟩ := exists_join_eq folder name
  exact isUsable_of_append (joined ▸ h)

theorem join_append (folder name extension : String) :
    join folder name ++ extension = join folder (name ++ extension) := by
  simp only [join]
  split
  · rfl
  · split <;> simp only [String.append_assoc]

end Path

theorem Except.bind_eq_ok {ε α β : Type} {x : Except ε α} {next : α → Except ε β} {b : β}
    (h : x >>= next = .ok b) : ∃ a, x = .ok a ∧ next a = .ok b := by
  cases x with
  | error e => cases h
  | ok a => exact ⟨a, rfl, h⟩

theorem FileTree.read_of_table {t : FileTree} {path : String} {content : List UInt8}
    (h : t.table path = .ok content) : t.read path = .ok content := by
  obtain ⟨bytes, opened, h⟩ := Except.bind_eq_ok h
  rw [FileTree.bytes] at opened
  split at h
  · cases h
  · obtain rfl := Except.ok.inj h
    cases found : t.read path with
    | error trouble => simp [found, Except.mapError] at opened
    | ok content => simpa [found, Except.mapError] using opened

theorem FileTree.read_eq_ok {t : FileTree} {path : String} {content : List UInt8}
    (h : t.read path = .ok content) :
    ∃ place, t.locate path = .ok place ∧ t.get? place = some (.file content) := by
  obtain ⟨entry, found, h⟩ := Except.bind_eq_ok h
  obtain ⟨place, located, found⟩ := Except.bind_eq_ok found
  refine ⟨place, located, ?_⟩
  split at found
  · cases found
  · rename_i there
    obtain rfl := Except.ok.inj found
    split at h
    · obtain rfl := Except.ok.inj h
      exact there
    · cases h

theorem FileTree.graph_eq_ok {t : FileTree} {a : AppFolder} {trackFind : Bool} {g : Graph}
    (h : t.graph a trackFind = .ok g) :
    ∃ nodeBytes nodes edgeBytes rows edges, t.read a.nodeTable = .ok nodeBytes ∧
      Table.nodes? nodeBytes = some nodes ∧ t.read a.edgeTable = .ok edgeBytes ∧
      Table.edgeRows? edgeBytes = some rows ∧
      rows.mapM (fun (source, target, code) => Edge.ofRow source target code) = .ok edges ∧
      Graph.build nodes edges trackFind = .ok g := by
  obtain ⟨nodes, loaded, h⟩ := Except.bind_eq_ok h
  obtain ⟨edges, linked, built⟩ := Except.bind_eq_ok h
  obtain ⟨nodeBytes, nodeTable, loaded⟩ := Except.bind_eq_ok loaded
  obtain ⟨edgeBytes, edgeTable, linked⟩ := Except.bind_eq_ok linked
  split at loaded
  · split at linked
    · obtain rfl := Except.ok.inj loaded
      exact ⟨nodeBytes, _, edgeBytes, _, edges, read_of_table nodeTable, ‹_›,
        read_of_table edgeTable, ‹_›, linked, built⟩
    · cases linked
  · cases loaded

section congruence
variable {t t' : FileTree} {a : AppFolder}

theorem FileTree.graph_congr (nodes : t'.read a.nodeTable = t.read a.nodeTable)
    (edges : t'.read a.edgeTable = t.read a.edgeTable) (trackFind : Bool) :
    t'.graph a trackFind = t.graph a trackFind := by
  simp only [graph, FileTree.nodes, FileTree.edges, table, bytes, nodes, edges]

theorem FileTree.auxiliary_congr (coverage : t'.read a.coverage = t.read a.coverage)
    (resources : t'.read a.resources = t.read a.resources)
    (texts : t'.read a.widgetTexts = t.read a.widgetTexts) (limit : Nat) (withTexts : Bool) :
    t'.auxiliary a limit withTexts = t.auxiliary a limit withTexts := by
  have covered : t'.coverage limit a.coverage = t.coverage limit a.coverage := by
    simp only [FileTree.coverage, capped, bytes, coverage]
  have named : t'.resources a.resources = t.resources a.resources := by
    simp only [FileTree.resources, text, bytes, resources]
  have labelled : t'.widgetTexts limit a.widgetTexts = t.widgetTexts limit a.widgetTexts := by
    simp only [widgetTexts, capped, bytes, texts]
  simp only [auxiliary, covered, named, labelled]

end congruence

namespace AppFolder
variable {a : AppFolder} {t t' u : FileTree} {name : String}

def rawName : String := "uhg_full.json"

def reducedName : String := "uhg.json"

/-- A file that is not yet complete has the name of the file with this extension. -/
def draftOf (name : String) : String := name ++ ".tmp"

def outputNames : List String := [rawName, draftOf rawName, reducedName, draftOf reducedName]

theorem isName_of_mem_outputNames (h : name ∈ outputNames) :
    Path.IsName name ∧ Path.nameFits name = true := by
  have all : ∀ n ∈ outputNames, Path.IsName n ∧ Path.nameFits n = true := by decide +kernel
  exact all name h

theorem raw_apart : rawName ≠ reducedName ∧ rawName ≠ draftOf reducedName := by decide

theorem reduced_apart : reducedName ≠ rawName ∧ reducedName ≠ draftOf rawName := by decide

def file (a : AppFolder) (name : String) : String := Path.join a.encoding name

theorem draft_file (a : AppFolder) (name : String) :
    a.file name ++ ".tmp" = a.file (draftOf name) := Path.join_append ..

/-- Everything a run may write. -/
def outputs (a : AppFolder) : List String :=
  [a.rawBehaviors, a.rawBehaviors ++ ".tmp", a.reducedBehaviors, a.reducedBehaviors ++ ".tmp"]

theorem mem_outputs {path : String} : path ∈ a.outputs ↔ ∃ n ∈ outputNames, a.file n = path := by
  have all : a.outputs = outputNames.map a.file := by
    have raw : a.rawBehaviors ++ ".tmp" = a.file (draftOf rawName) := a.draft_file rawName
    have reduced : a.reducedBehaviors ++ ".tmp" = a.file (draftOf reducedName) :=
      a.draft_file reducedName
    rw [outputs, raw, reduced]
    rfl
  rw [all, List.mem_map]

def desk (a : AppFolder) (t : FileTree) : Place := (t.reach a.encoding).toOption.getD []

def place (a : AppFolder) (t : FileTree) (name : String) : Place := a.desk t ++ [name]

@[simp] theorem place_ne_nil : a.place t name ≠ [] := by simp [place]

@[simp] theorem place_inj {other : String} : a.place t name = a.place t other ↔ name = other := by
  simp [place]

/-- The encoding folder is there and its path can be used. -/
structure Opens (a : AppFolder) (t : FileTree) : Prop where
  reach : t.reach a.encoding = .ok (a.desk t)
  folder : t.get? (a.desk t) = some .folder
  usable : Path.isUsable a.encoding = true

theorem Opens.reach_file (opens : a.Opens t) (named : Path.IsName name)
    (fits : Path.nameFits name = true) : t.reach (a.file name) = .ok (a.place t name) := by
  rw [file, FileTree.reach_join named.2.2.2, opens.reach]
  exact FileTree.follow_name named fits opens.folder

theorem Opens.locate_file (opens : a.Opens t) (h : name ∈ outputNames) :
    t.locate (a.file name) =
      if Path.isUsable (a.file name) then .ok (a.place t name) else .error .blocked := by
  obtain ⟨named, fits⟩ := isName_of_mem_outputNames h
  have given : a.file name ≠ "" := Path.join_ne_empty named.1
  rw [FileTree.locate_eq, if_neg given, opens.reach_file named fits]

theorem Opens.place_of_locate (opens : a.Opens t) {path : String} {p : Place}
    (h : path ∈ a.outputs) (located : t.locate path = .ok p) :
    ∃ n ∈ outputNames, p = a.place t n := by
  obtain ⟨n, output, rfl⟩ := mem_outputs.mp h
  rw [opens.locate_file output] at located
  split at located
  · exact ⟨n, output, (Except.ok.inj located).symm⟩
  · cases located

theorem opens_of_graph {trackFind : Bool} {g : Graph} (h : t.graph a trackFind = .ok g) :
    a.Opens t := by
  obtain ⟨_, _, _, _, _, read, -⟩ := FileTree.graph_eq_ok h
  obtain ⟨place, located, -⟩ := FileTree.read_eq_ok read
  obtain ⟨usable, reached⟩ := FileTree.usable_of_locate located
  rw [nodeTable, FileTree.reach_join (by decide)] at reached
  obtain ⟨desk, arrived, further⟩ := Except.bind_eq_ok reached
  have here : a.desk t = desk := by
    rw [AppFolder.desk, arrived]
    rfl
  have folder := (FileTree.follow_cons_ok further).1
  exact ⟨by rw [here, arrived], by rw [here, folder], Path.isUsable_of_join usable⟩

theorem Opens.root (opens : a.Opens t) :
    ∃ root, t.reach a.root = .ok root ∧ t.get? root = some .folder ∧
      a.desk t = root ++ ["encoding"] := by
  have reached := opens.reach
  rw [encoding, FileTree.reach_join (by decide)] at reached
  obtain ⟨root, arrived, further⟩ := Except.bind_eq_ok reached
  have folder := (FileTree.follow_cons_ok further).1
  refine ⟨root, arrived, folder, ?_⟩
  rw [FileTree.follow_name (by decide) (by decide) folder] at further
  exact (Except.ok.inj further).symm

/-- The same tree up to the files that a run may write. -/
structure Beside (a : AppFolder) (t t' : FileTree) : Prop where
  home : t'.home = t.home
  folders : ∀ p, t'.get? p = some .folder ↔ t.get? p = some .folder
  entries : ∀ p, (∀ path ∈ a.outputs, t.locate path ≠ .ok p) → t'.get? p = t.get? p

theorem Beside.keeps (beside : a.Beside t t') : FileTree.Keeps t t' :=
  ⟨beside.home, fun p h => (beside.folders p).mpr h⟩

theorem Beside.isFolder (beside : a.Beside t t') (p : Place) : t'.isFolder p = t.isFolder p := by
  simp only [FileTree.isFolder, beside.folders p]

theorem Opens.desk_eq (opens : a.Opens t) (beside : a.Beside t t') : a.desk t' = a.desk t := by
  rw [desk, beside.keeps.reach opens.reach]
  rfl

theorem Opens.place_eq (opens : a.Opens t) (beside : a.Beside t t') :
    a.place t' name = a.place t name := by rw [place, place, opens.desk_eq beside]

theorem Opens.beside (opens : a.Opens t) (beside : a.Beside t t') : a.Opens t' := by
  have same := opens.desk_eq beside
  refine ⟨?_, ?_, opens.usable⟩
  · rw [same, beside.keeps.reach opens.reach]
  · rw [same, beside.folders, opens.folder]

theorem Opens.locate_eq (opens : a.Opens t) (beside : a.Beside t t') {path : String}
    (h : path ∈ a.outputs) : t'.locate path = t.locate path := by
  obtain ⟨n, output, rfl⟩ := mem_outputs.mp h
  rw [opens.locate_file output, (opens.beside beside).locate_file output, opens.place_eq beside]

theorem Beside.refl (a : AppFolder) (t : FileTree) : a.Beside t t :=
  ⟨rfl, fun _ => Iff.rfl, fun _ _ => rfl⟩

theorem Beside.trans (opens : a.Opens t) (first : a.Beside t t') (second : a.Beside t' u) :
    a.Beside t u := by
  refine ⟨second.home.trans first.home, fun p => (second.folders p).trans (first.folders p), ?_⟩
  intro p other
  rw [second.entries p fun path h => ?_, first.entries p other]
  rw [opens.locate_eq first h]
  exact other path h

theorem beside_of_changes (home : t'.home = t.home)
    (changes : ∀ p, t'.get? p ≠ t.get? p → (∃ path ∈ a.outputs, t.locate path = .ok p) ∧
      t.get? p ≠ some .folder ∧ t'.get? p ≠ some .folder) : a.Beside t t' := by
  refine ⟨home, fun p => ?_, fun p other => ?_⟩
  · by_cases same : t'.get? p = t.get? p
    · rw [same]
    · obtain ⟨-, before, after⟩ := changes p same
      exact iff_of_false after before
  · by_contra changed
    obtain ⟨⟨path, h, here⟩, -⟩ := changes p changed
    exact other path h here

section inputs
variable (opens : a.Opens t) (beside : a.Beside t t')
include opens beside

theorem sameFrom_file (named : Path.IsName name) (fits : Path.nameFits name = true)
    (other : name ∉ outputNames) : FileTree.SameFrom t t' (a.file name) := by
  have reached := opens.reach_file named fits
  refine ⟨?_, fun p h below => ?_⟩
  · rw [reached, (opens.beside beside).reach_file named fits, opens.place_eq beside]
  · rw [reached] at h
    obtain rfl := Except.ok.inj h
    refine beside.entries _ fun path output here => other ?_
    obtain ⟨n, member, place_eq⟩ := opens.place_of_locate output here
    obtain ⟨rfl, -⟩ : name = n ∧ below = [] := by simpa [place] using place_eq
    exact member

theorem sameFrom_root (named : Path.IsName name) (fits : Path.nameFits name = true)
    (other : name ≠ "encoding") : FileTree.SameFrom t t' (Path.join a.root name) := by
  obtain ⟨root, reached, folder, desk⟩ := opens.root
  have flat := named.2.2.2
  have here : t.reach (Path.join a.root name) = .ok (root ++ [name]) := by
    rw [FileTree.reach_join flat, reached]
    exact FileTree.follow_name named fits folder
  have there : t'.reach (Path.join a.root name) = .ok (root ++ [name]) := by
    rw [FileTree.reach_join flat, beside.keeps.reach reached]
    exact FileTree.follow_name named fits ((beside.folders root).mpr folder)
  refine ⟨there.trans here.symm, fun p h below => ?_⟩
  rw [here] at h
  obtain rfl := Except.ok.inj h
  refine beside.entries _ fun path output here => other ?_
  obtain ⟨n, -, place_eq⟩ := opens.place_of_locate output here
  simp only [place, desk, List.append_assoc, List.append_cancel_left_eq, List.cons_append,
    List.nil_append, List.cons.injEq] at place_eq
  exact place_eq.1

theorem graph_eq (trackFind : Bool) : t'.graph a trackFind = t.graph a trackFind :=
  FileTree.graph_congr
    (sameFrom_file opens beside (by decide) (by decide) (by decide)).read
    (sameFrom_file opens beside (by decide) (by decide) (by decide)).read trackFind

theorem auxiliary_eq (limit : Nat) (withTexts : Bool) :
    t'.auxiliary a limit withTexts = t.auxiliary a limit withTexts := by
  have values : FileTree.SameFrom t t' (Path.join a.root "values") :=
    sameFrom_root opens beside (by decide) (by decide) (by decide)
  exact FileTree.auxiliary_congr
    (sameFrom_root opens beside (by decide) (by decide) (by decide)).read
    (values.join (by decide)).read
    (sameFrom_root opens beside (by decide) (by decide) (by decide)).read limit withTexts

end inputs

end AppFolder
end HandlerGraph
