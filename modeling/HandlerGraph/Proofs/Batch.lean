import HandlerGraph.Batch
import HandlerGraph.Proofs.Locality

/-! Batches. The apps of a batch lie in different folders, and a run stays in its own, so in any
order every app does what it would do alone. The summary lists each app once, in the order of
names. -/
namespace HandlerGraph

theorem Path.fileName?_join (folder : String) {name : String} (named : IsName name) :
    fileName? (join folder name) = some name := by
  have last : ∃ before, parts (join folder name) = before ++ [name] := by
    rcases parts_join named.2.2.2 with joined | ⟨before, -, joined⟩
    · exact ⟨_, joined⟩
    · exact ⟨before, joined⟩
  obtain ⟨before, parts⟩ := last
  obtain ⟨given, dot, parent, -⟩ := named
  simp [fileName?, parts, given, dot, parent]

namespace FileTree
variable {t : FileTree} {place : Place} {name : String}

def WellNamed (t : FileTree) : Prop := ∀ e ∈ t.entries.entries, ∀ name ∈ e.1, Path.IsName name

instance decidableWellNamed (t : FileTree) : Decidable t.WellNamed :=
  inferInstanceAs (Decidable (∀ e ∈ t.entries.entries, ∀ name ∈ e.1, _))

def folderName? (place : Place) : Place × Entry → Option String
  | (p, .folder) => if p.dropLast = place then p.getLast? else none
  | (_, .file _) => none

theorem foldersIn_eq (t : FileTree) (place : Place) :
    t.foldersIn place = t.entries.entries.filterMap (folderName? place) := by
  rw [foldersIn]
  congr 1
  funext e
  rcases e with ⟨p, _ | _⟩ <;> rfl

theorem folderName?_eq_some {e : Place × Entry} (h : folderName? place e = some name) :
    e = (place ++ [name], .folder) := by
  rcases e with ⟨p, bytes | _⟩
  · cases h
  · rw [folderName?] at h
    split at h
    · rename_i above
      obtain ⟨before, rfl⟩ := List.getLast?_eq_some_iff.mp h
      rw [List.dropLast_concat] at above
      rw [above]
    · cases h

theorem isName_of_mem_foldersIn (named : t.WellNamed) (h : name ∈ t.foldersIn place) :
    Path.IsName name := by
  rw [foldersIn_eq] at h
  obtain ⟨e, member, found⟩ := List.mem_filterMap.mp h
  obtain rfl := folderName?_eq_some found
  exact named _ member name (List.mem_append_right _ List.mem_cons_self)

theorem last_lt_of_lt {n n' : String} (h : place ++ [n] < place ++ [n']) : n < n' := by
  induction place with
  | nil =>
    rcases List.cons_lt_cons_iff.mp h with less | ⟨-, nothing⟩
    · exact less
    · exact absurd nothing (List.not_lt_nil [])
  | cons first place ih =>
    rcases List.cons_lt_cons_iff.mp h with less | ⟨-, later⟩
    · exact absurd less (String.lt_irrefl first)
    · exact ih later

theorem foldersIn_ascending (t : FileTree) (place : Place) :
    (t.foldersIn place).Pairwise (· < ·) := by
  rw [foldersIn_eq]
  refine List.pairwise_filterMap.mpr (t.entries.ascending.imp ?_)
  intro e f less n found n' found'
  obtain rfl := folderName?_eq_some found
  obtain rfl := folderName?_eq_some found'
  exact last_lt_of_lt less

end FileTree

namespace AppFolder

def Holds (a : AppFolder) (t : FileTree) (p : Place) : Prop :=
  ∃ base, t.locate a.root = .ok base ∧ base <+: p

end AppFolder

namespace Batch
variable {t u : FileTree} {root : String} {place p : Place} {a b : AppFolder} {s : Settings}
  {lists : KeywordLists} {watch : AppFolder → Stopwatch} {done : List AppFolder}

inductive Member (root : String) : AppFolder → Prop
  | intro {name : String} (named : Path.IsName name) : Member root ⟨Path.join root name⟩

section members
variable (reached : t.reach root = .ok place) (folder : t.get? place = some .folder)
include reached folder

theorem reach_member {name : String} (named : Path.IsName name) :
    t.reach (Path.join root name) =
      if Path.nameFits name then .ok (place ++ [name]) else .error .blocked := by
  rw [FileTree.reach_join named.2.2.2, reached]
  change t.follow place [name] = _
  rw [FileTree.follow, folder, FileTree.next_of_isName named]
  rfl

theorem prefix_of_holds {name : String} (named : Path.IsName name)
    (h : (⟨Path.join root name⟩ : AppFolder).Holds t p) : place ++ [name] <+: p := by
  obtain ⟨base, located, inside⟩ := h
  have arrived := (FileTree.usable_of_locate located).2
  rw [reach_member reached folder named] at arrived
  split at arrived
  · obtain rfl := Except.ok.inj arrived
    exact inside
  · cases arrived

theorem eq_of_prefix {name : String} (named : Path.IsName name) (inside : place ++ [name] <+: p)
    (member : Member root b) (h : b.Holds t p) : b = ⟨Path.join root name⟩ := by
  obtain @⟨name', named'⟩ := member
  have inside' := prefix_of_holds reached folder named' h
  have same : place ++ [name'] = place ++ [name] :=
    (List.prefix_of_prefix_length_le inside' inside (by simp)).eq_of_length (by simp)
  obtain rfl : name' = name := by simpa using same
  rfl

theorem eq_of_holds (first : Member root a) (second : Member root b) (h : a.Holds t p)
    (h' : b.Holds t p) : b = a := by
  obtain ⟨named⟩ := first
  exact eq_of_prefix reached folder named (prefix_of_holds reached folder named h) second h'

end members

/-- A run from the start tree writes in its own folder only. -/
theorem holds_of_course (member : Member root a) (s : Settings) (lists : KeywordLists)
    (w : Stopwatch) (t : FileTree) :
    ∀ m ∈ (a.course s lists w t).steps, ∀ q ∈ m.places, q ≠ [] ∧ a.Holds t q := by
  intro m step q touched
  obtain ⟨opens, n, -, rfl⟩ := AppFolder.places_of_mem_course step touched
  obtain ⟨base, arrived, -, desk⟩ := opens.root
  obtain ⟨named⟩ := member
  refine ⟨AppFolder.place_ne_nil, base, ?_, ?_⟩
  · rw [FileTree.locate_eq, if_neg (Path.join_ne_empty named.1),
      if_pos (Path.isUsable_of_join opens.usable), arrived]
  · rw [AppFolder.place, desk, List.append_assoc]
    exact List.prefix_append ..

/-- How far a batch has come: the apps that are done have left in their folders what each leaves
when it runs alone, and nothing else has changed. -/
structure Progress (t u : FileTree) (s : Settings) (lists : KeywordLists)
    (watch : AppFolder → Stopwatch) (done : List AppFolder) : Prop where
  home : u.home = t.home
  folders : ∀ p, u.get? p = some .folder ↔ t.get? p = some .folder
  own : ∀ a ∈ done, ∀ p, a.Holds t p →
    u.get? p = (t.applyAll (a.course s lists (watch a) t).steps).get? p
  others : ∀ p, (∀ a ∈ done, ¬ a.Holds t p) → u.get? p = t.get? p

theorem Progress.start (t : FileTree) (s : Settings) (lists : KeywordLists)
    (watch : AppFolder → Stopwatch) : Progress t t s lists watch [] :=
  ⟨rfl, fun _ => Iff.rfl, fun _ h => absurd h List.not_mem_nil, fun _ _ => rfl⟩

section step
variable (reached : t.reach root = .ok place) (folder : t.get? place = some .folder)
  (progress : Progress t u s lists watch done) (members : ∀ b ∈ done, Member root b)
  (member : Member root a) (new : a ∉ done)
include reached folder progress members member new

theorem Progress.sameFrom : FileTree.SameFrom t u a.root := by
  obtain ⟨named⟩ := member
  have keeps : FileTree.Keeps t u := ⟨progress.home, fun p h => (progress.folders p).mpr h⟩
  have reached' := keeps.reach reached
  have folder' := (progress.folders place).mpr folder
  refine ⟨by rw [reach_member reached folder named, reach_member reached' folder' named], ?_⟩
  intro q arrived below
  rw [reach_member reached folder named] at arrived
  split at arrived
  · obtain rfl := Except.ok.inj arrived
    refine progress.others _ fun b h held => new ?_
    rw [← eq_of_prefix reached folder named (List.prefix_append ..) (members b h) held]
    exact h
  · cases arrived

theorem Progress.step :
    Progress t (u.applyAll (a.course s lists (watch a) u).steps) s lists watch (a :: done) := by
  have course : a.course s lists (watch a) u = a.course s lists (watch a) t :=
    AppFolder.course_congr (progress.sameFrom reached folder members member new)
  have beside := a.beside_course s lists (watch a) u
  rw [course] at beside ⊢
  have inside := holds_of_course member s lists (watch a) t
  refine ⟨beside.home.trans progress.home, fun p => (beside.folders p).trans (progress.folders p),
    fun b h p held => ?_, fun p free => ?_⟩
  · rcases List.mem_cons.mp h with rfl | earlier
    · -- Nothing was written yet where this app lies, so it finds there what was there at the start.
      refine FileTree.get?_applyAll_congr inside (fun q here => ?_) held
      refine progress.others q fun c h other => new ?_
      rw [← eq_of_holds reached folder member (members c h) here other]
      exact h
    · have apart : ¬ a.Holds t p := fun here => new <| by
        rw [← eq_of_holds reached folder member (members b earlier) here held]
        exact earlier
      rw [FileTree.get?_applyAll_outside inside apart, progress.own b earlier p held]
  · obtain ⟨apart, rest⟩ := List.forall_mem_cons.mp free
    rw [FileTree.get?_applyAll_outside inside apart, progress.others p rest]

end step

def reportOn (s : Settings) (lists : KeywordLists) (w : Stopwatch) (t : FileTree) (a : AppFolder) :
    AppReport := ⟨a.name, (a.course s lists w t).result⟩

theorem runApp_eq (s : Settings) (lists : KeywordLists) (w : Stopwatch) (d : Disk) (a : AppFolder) :
    runApp s lists w d a =
      (reportOn s lists w d.tree a, d.performAll (a.course s lists w d.tree).steps) := by
  rw [runApp, (a.takes_run s lists w d).exec_eq]
  rfl

theorem Progress.runApps (reached : t.reach root = .ok place) (folder : t.get? place = some .folder)
    {order : List AppFolder} {d : Disk} (progress : Progress t d.tree s lists watch done)
    (members : ∀ b ∈ done, Member root b) (new : ∀ a ∈ order, Member root a ∧ a ∉ done)
    (distinct : order.Nodup) :
    (Batch.runApps s lists watch d order).1 = order.map (fun a => reportOn s lists (watch a) t a) ∧
      Progress t (Batch.runApps s lists watch d order).2.tree s lists watch
        (order.reverse ++ done) := by
  -- What is done grows with every app; the trees in between are known through `Progress` only.
  induction order generalizing d done with
  | nil => exact ⟨rfl, progress⟩
  | cons a order ih =>
    obtain ⟨⟨member, fresh⟩, rest⟩ := List.forall_mem_cons.mp new
    obtain ⟨once, distinct⟩ := List.nodup_cons.mp distinct
    have course : a.course s lists (watch a) d.tree = a.course s lists (watch a) t :=
      AppFolder.course_congr (progress.sameFrom reached folder members member fresh)
    have report : reportOn s lists (watch a) d.tree a = reportOn s lists (watch a) t a := by
      rw [reportOn, reportOn, course]
    have next := progress.step reached folder members member fresh
    rw [← Disk.tree_performAll] at next
    have later : ∀ b ∈ order, Member root b ∧ b ∉ a :: done := by
      intro b h
      refine ⟨(rest b h).1, fun earlier => ?_⟩
      rcases List.mem_cons.mp earlier with rfl | earlier
      · exact once h
      · exact (rest b h).2 earlier
    obtain ⟨reports, final⟩ := ih next (List.forall_mem_cons.mpr ⟨member, members⟩) later distinct
    rw [Batch.runApps, runApp_eq, report, List.map_cons, List.reverse_cons, List.append_assoc,
      ← reports]
    exact ⟨rfl, final⟩

end Batch

namespace BatchSummary

theorem perm_reports (s : BatchSummary) :
    (s.processed.map AppReport.app ++ (s.skipped ++ s.failed.map Prod.fst)).Perm
      (s.reports.map AppReport.app) := by
  obtain ⟨reports⟩ := s
  simp only [processed, skipped, failed]
  induction reports with
  | nil => exact .nil
  | cons r reports ih =>
    obtain ⟨app, result⟩ := r
    match result with
    | .ok (.processed ..) => exact .cons app ih
    | .ok .skipped => exact List.perm_middle.trans (.cons app ih)
    | .error f =>
      refine (List.Perm.append_left _ List.perm_middle).trans ?_
      exact List.perm_middle.trans (.cons app ih)

theorem total_eq (s : BatchSummary) : s.total = s.reports.length := by
  have lengths := s.perm_reports.length_eq
  simp only [List.length_append, List.length_map] at lengths
  rw [total]
  omega

theorem sublist_reports (s : BatchSummary) :
    (s.processed.map AppReport.app).Sublist (s.reports.map AppReport.app) ∧
      s.skipped.Sublist (s.reports.map AppReport.app) ∧
      (s.failed.map Prod.fst).Sublist (s.reports.map AppReport.app) := by
  refine ⟨List.filter_sublist.map _, List.filter_sublist.map _, ?_⟩
  obtain ⟨reports⟩ := s
  simp only [failed]
  induction reports with
  | nil => exact .slnil
  | cons r reports ih =>
    obtain ⟨app, result⟩ := r
    match result with
    | .ok _ => exact .cons app ih
    | .error f => exact .cons_cons app ih

/-- The summary of reports that came in any order: they are put in the order of the apps. -/
def collect (apps : List AppFolder) (reports : List AppReport) : BatchSummary where
  reports := apps.filterMap fun a => reports.find? (·.app = a.name)

theorem collect_of_perm {apps order : List AppFolder} {report : AppFolder → AppReport}
    (permuted : order.Perm apps) (distinct : (apps.map AppFolder.name).Nodup)
    (named : ∀ a, (report a).app = a.name) :
    collect apps (order.map report) = ⟨apps.map report⟩ := by
  have found : ∀ a ∈ apps, (order.map report).find? (·.app = a.name) = some (report a) := by
    intro a listed
    have there : report a ∈ order.map report := List.mem_map_of_mem (permuted.mem_iff.mpr listed)
    cases first : (order.map report).find? (·.app = a.name) with
    | none => exact absurd (named a) (by simpa using List.find?_eq_none.mp first _ there)
    | some r =>
      obtain ⟨b, run, rfl⟩ := List.mem_map.mp (List.mem_of_find?_eq_some first)
      have same : b.name = a.name := by simpa [named] using List.find?_some first
      rw [List.inj_on_of_nodup_map distinct (permuted.mem_iff.mp run) listed same]
  rw [collect, List.filterMap_congr found, List.filterMap_eq_map']

theorem allFailed_iff (s : BatchSummary) :
    s.allFailed = true ↔ s.reports ≠ [] ∧ ∀ r ∈ s.reports, ∃ f, r.result = .error f := by
  have single : ∀ r : AppReport,
      r.isProcessed = false ∧ r.isSkipped = false ↔ ∃ f, r.result = .error f := by
    rintro ⟨app, _ | _ | _⟩ <;> simp [AppReport.isProcessed, AppReport.isSkipped]
  have none_else : s.processed = [] ∧ s.skipped = [] ↔
      ∀ r ∈ s.reports, ∃ f, r.result = .error f := by
    simp only [processed, skipped, List.filter_eq_nil_iff, List.map_eq_nil_iff, ← single,
      Bool.not_eq_true]
    grind
  have rest : s.processed = [] ∧ s.skipped = [] → (s.failed = [] ↔ s.reports = []) := by
    rintro ⟨processed, skipped⟩
    have count := s.total_eq
    simp only [total, processed, skipped, List.length_nil, Nat.zero_add] at count
    rw [← List.length_eq_zero_iff, count, List.length_eq_zero_iff]
  simp only [allFailed, Bool.and_eq_true, Bool.not_eq_true', List.isEmpty_eq_false_iff,
    List.isEmpty_iff, and_assoc]
  rw [← none_else, and_congr_left fun h => not_congr (rest h)]

end BatchSummary

namespace FileTree
variable {t : FileTree} {root : String} {apps : List AppFolder}

theorem apps_eq_ok (h : t.apps root = .ok apps) :
    ∃ place, t.reach root = .ok place ∧ t.get? place = some .folder ∧
      apps = (t.foldersIn place).map fun name => ⟨Path.join root name⟩ := by
  rw [FileTree.apps] at h
  cases located : t.locate root with
  | error f =>
    rw [located] at h
    cases h
  | ok place =>
    rw [located] at h
    dsimp only at h
    split at h
    · rename_i folder
      exact ⟨place, (usable_of_locate located).2, of_decide_eq_true folder, (Except.ok.inj h).symm⟩
    · cases h

section named
variable (named : t.WellNamed) (listed : t.apps root = .ok apps)
include named listed

theorem member_of_apps : ∀ a ∈ apps, Batch.Member root a := by
  obtain ⟨place, -, -, rfl⟩ := apps_eq_ok listed
  intro a h
  obtain ⟨name, found, rfl⟩ := List.mem_map.mp h
  exact .intro (isName_of_mem_foldersIn named found)

theorem names_ascending : (apps.map AppFolder.name).Pairwise (· < ·) := by
  obtain ⟨place, -, -, rfl⟩ := apps_eq_ok listed
  have names : ∀ name ∈ t.foldersIn place,
      (AppFolder.name ∘ fun name => ⟨Path.join root name⟩) name = id name := by
    intro name found
    have last := Path.fileName?_join root (isName_of_mem_foldersIn named found)
    simp only [Function.comp, AppFolder.name, last, Option.getD_some, id]
  rw [List.map_map, List.map_congr_left names, List.map_id]
  exact t.foldersIn_ascending place

theorem apps_nodup : apps.Nodup := by
  have names := names_ascending named listed
  refine List.Pairwise.of_map AppFolder.name (fun a b less same => ?_) names
  rw [same] at less
  exact String.lt_irrefl _ less

end named
end FileTree

namespace Batch
variable {t : FileTree} {root : String} {apps order : List AppFolder}

theorem runApp_ofTree (s : Settings) (lists : KeywordLists) (w : Stopwatch) (t : FileTree)
    (a : AppFolder) : runApp s lists w (.ofTree t) a =
      (⟨a.name, (Disk.run (a.run s lists w) t).1⟩, (Disk.run (a.run s lists w) t).2) := rfl

theorem runApp_fst (s : Settings) (lists : KeywordLists) (w w' : Stopwatch) (t : FileTree)
    (a : AppFolder) : (runApp s lists w (.ofTree t) a).1 = reportOn s lists w' t a := by
  rw [runApp_eq]
  simp only [reportOn, Disk.ofTree, (a.course_watch s lists w w' t).1]

theorem runApps_of_perm (named : t.WellNamed) (listed : t.apps root = .ok apps)
    (permuted : order.Perm apps) (s : Settings) (lists : KeywordLists)
    (watch alone : AppFolder → Stopwatch) :
    (runApps s lists watch (.ofTree t) order).1 =
        order.map (fun a => (runApp s lists (alone a) (.ofTree t) a).1) ∧
      Progress t (runApps s lists watch (.ofTree t) order).2.tree s lists watch order.reverse := by
  obtain ⟨place, reached, folder, -⟩ := FileTree.apps_eq_ok listed
  have new : ∀ a ∈ order, Member root a ∧ a ∉ [] := fun a h =>
    ⟨FileTree.member_of_apps named listed a (permuted.mem_iff.mp h), List.not_mem_nil⟩
  have distinct : order.Nodup := permuted.nodup_iff.mpr (FileTree.apps_nodup named listed)
  obtain ⟨reports, final⟩ := Progress.runApps reached folder (d := .ofTree t)
    (Progress.start t s lists watch) (fun b h => absurd h List.not_mem_nil) new distinct
  rw [List.append_nil] at final
  refine ⟨reports.trans (List.map_congr_left fun a _ => ?_), final⟩
  exact (runApp_fst s lists (alone a) (watch a) t a).symm

theorem run_eq {d : Disk} (listed : d.tree.apps root = .ok apps) (s : Settings)
    (lists : KeywordLists) (watch : AppFolder → Stopwatch) :
    Batch.run s lists watch root d =
      (.ok ⟨(runApps s lists watch d apps).1⟩, (runApps s lists watch d apps).2) := by
  rw [Batch.run, listed]

/-- In any order, every app of a batch reports and leaves in its folder what it would alone, up to
the recorded times, and nothing else changes. The summary is the same for every order and has each
app in one of its lists. -/
theorem apps_independent (named : t.WellNamed) (listed : t.apps root = .ok apps)
    (permuted : order.Perm apps) (s : Settings) (lists : KeywordLists)
    (watch alone : AppFolder → Stopwatch) :
    (∃ d, runApps s lists watch (.ofTree t) order =
        (order.map fun a => (runApp s lists (alone a) (.ofTree t) a).1, d) ∧
      d.tree.home = t.home ∧
      (∀ a ∈ apps, ∀ p, a.Holds t p → SameButTimes (d.tree.get? p)
        ((runApp s lists (alone a) (.ofTree t) a).2.tree.get? p)) ∧
      ∀ p, (∀ a ∈ apps, ¬ a.Holds t p) → d.tree.get? p = t.get? p) ∧
    ∃ summary, Batch.run s lists watch root (.ofTree t) =
        (.ok summary, (runApps s lists watch (.ofTree t) apps).2) ∧
      BatchSummary.collect apps (runApps s lists watch (.ofTree t) order).1 = summary ∧
      summary.reports = apps.map (fun a => (runApp s lists (alone a) (.ofTree t) a).1) ∧
      (summary.processed.map AppReport.app ++
        (summary.skipped ++ summary.failed.map Prod.fst)).Perm (apps.map AppFolder.name) ∧
      (summary.processed.map AppReport.app).Pairwise (· < ·) ∧
      summary.skipped.Pairwise (· < ·) ∧
      (summary.failed.map Prod.fst).Pairwise (· < ·) ∧
      summary.total = apps.length ∧
      (summary.allFailed = true ↔ apps ≠ [] ∧
        ∀ a ∈ apps, ∃ f, (runApp s lists (alone a) (.ofTree t) a).1.result = .error f) := by
  have names := FileTree.names_ascending named listed
  constructor
  · obtain ⟨reports, final⟩ := runApps_of_perm named listed permuted s lists watch alone
    have done : ∀ a, a ∈ order.reverse ↔ a ∈ apps := fun a => by
      rw [List.mem_reverse, permuted.mem_iff]
    simp only [← reports]
    refine ⟨_, rfl, final.home, fun a h p held => ?_, fun p free => ?_⟩
    · rw [final.own a ((done a).mpr h) p held, runApp_eq, Disk.tree_performAll]
      exact (a.course_watch s lists (watch a) (alone a) t).2 p
    · exact final.others p fun a h => free a ((done a).mp h)
  · obtain ⟨reports, -⟩ := runApps_of_perm named listed (.refl apps) s lists watch alone
    have ran := run_eq (d := .ofTree t) listed s lists watch
    rw [reports] at ran
    have collected : BatchSummary.collect apps (runApps s lists watch (.ofTree t) order).1 =
        ⟨apps.map fun a => (runApp s lists (alone a) (.ofTree t) a).1⟩ := by
      rw [(runApps_of_perm named listed permuted s lists watch alone).1]
      exact BatchSummary.collect_of_perm permuted (names.imp String.ne_of_lt) fun _ => rfl
    obtain ⟨summary, shown⟩ : ∃ summary : BatchSummary, summary.reports =
        apps.map (fun a => (runApp s lists (alone a) (.ofTree t) a).1) := ⟨⟨_⟩, rfl⟩
    have listing : summary.reports.map AppReport.app = apps.map AppFolder.name := by
      rw [shown, List.map_map]
      exact List.map_congr_left fun a _ => rfl
    obtain ⟨processed, skipped, failed⟩ := summary.sublist_reports
    rw [listing] at processed skipped failed
    refine ⟨summary, ran.trans (by rw [← shown]), collected.trans (by rw [← shown]), shown, ?_,
      names.sublist processed, names.sublist skipped, names.sublist failed, ?_, ?_⟩
    · rw [← listing]
      exact summary.perm_reports
    · rw [summary.total_eq, shown, List.length_map]
    · rw [summary.allFailed_iff, shown, List.forall_mem_map, ne_eq, List.map_eq_nil_iff]

def bankFault : Fault :=
  .badTable ⟨"/bank/encoding/edge.csv", Text.encode "From,To,Type\n0,none,4\n"⟩

/-- The apps are run in descending order: one is processed, one skipped, one fails. -/
theorem apps_independent_sample :
    ∃ d, runApps .default default (fun _ => .stopped) (.ofTree AppFolder.sampleTree)
        [⟨"/shop"⟩, ⟨"/news"⟩, ⟨"/bank"⟩] =
        ([⟨"shop", .ok (.processed 1 1 false)⟩, ⟨"news", .ok .skipped⟩,
          ⟨"bank", .error bankFault⟩], d) ∧
      ∃ summary d', Batch.run .default default (fun _ => .stopped) "/"
          (.ofTree AppFolder.sampleTree) = (.ok summary, d') ∧
        summary.processed = [⟨"shop", .ok (.processed 1 1 false)⟩] ∧ summary.skipped = ["news"] ∧
        summary.failed = [("bank", bankFault)] ∧ summary.total = 3 ∧
        summary.allFailed = false := by
  have listed : AppFolder.sampleTree.apps "/" = .ok [⟨"/bank"⟩, ⟨"/news"⟩, ⟨"/shop"⟩] := by rfl
  have permuted : [⟨"/shop"⟩, ⟨"/news"⟩, ⟨"/bank"⟩].Perm
      ([⟨"/bank"⟩, ⟨"/news"⟩, ⟨"/shop"⟩] : List AppFolder) := by decide
  obtain ⟨⟨d, ran, -⟩, ⟨reports⟩, ran', -, rfl, -⟩ := apps_independent (by decide +kernel) listed
    permuted .default default (fun _ => .stopped) (fun _ => .stopped)
  have bank : (runApp .default default .stopped (.ofTree AppFolder.sampleTree) ⟨"/bank"⟩).1 =
      ⟨"bank", .error bankFault⟩ := by rfl
  have news : (runApp .default default .stopped (.ofTree AppFolder.sampleTree) ⟨"/news"⟩).1 =
      ⟨"news", .ok .skipped⟩ := by rfl
  have shop : (runApp .default default .stopped (.ofTree AppFolder.sampleTree) ⟨"/shop"⟩).1 =
      ⟨"shop", .ok (.processed 1 1 false)⟩ := by
    obtain ⟨g, processes, result⟩ := AppFolder.processes_sample (s := .default) (by decide)
    have alone := runApp_ofTree .default default .stopped AppFolder.sampleTree AppFolder.sample
    rw [processes.run_eq, result, show AppFolder.sample.name = "shop" from rfl] at alone
    exact congrArg Prod.fst alone
  simp only [List.map_cons, List.map_nil, bank, news, shop] at ran ran'
  exact ⟨d, ran, _, _, ran', rfl, rfl, rfl, rfl, rfl⟩

end Batch
end HandlerGraph
