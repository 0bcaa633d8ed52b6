import HandlerGraph.Proofs.ReducedFile
import HandlerGraph.Proofs.Repetition

/-! What saving leaves behind. A file that was saved without a fault is found with the bytes that
were given, wherever the saving started, and a behavior file can be saved wherever the folder of the
app is there and no folder is in the way. Together with the formats of the files: saved behaviors
are loaded as they were. -/
namespace HandlerGraph

namespace FileTree
variable {t : FileTree} {place target : Place} {folder name : String}

theorem makeFolders_last {parts : List String} (h : t.follow place parts = .ok target)
    (there : t.get? target = some .folder) (named : Path.IsName name)
    (fits : Path.nameFits name = true) (absent : t.get? (target ++ [name]) = none) :
    t.makeFolders place (parts ++ [name]) = ([.makeFolder (target ++ [name])], none) := by
  induction parts generalizing place with
  | nil =>
    obtain rfl : place = target := by simpa [follow] using h
    simp [makeFolders, isFolder, there, fits, next_of_isName named, absent, get?_makeFolder]
  | cons part parts ih =>
    obtain ⟨here, short, h⟩ := follow_cons_ok h
    have further : ∃ e, t.get? (next place part) = some e := by
      cases parts with
      | nil =>
        obtain rfl : next place part = target := by simpa [follow] using h
        exact ⟨_, there⟩
      | cons _ _ => exact ⟨_, (follow_cons_ok h).1⟩
    obtain ⟨e, found⟩ := further
    simp [makeFolders, isFolder, here, short, found, ih h]

theorem makeFolders_join (h : t.reach folder = .ok target) (there : t.get? target = some .folder)
    (named : Path.IsName name) (fits : Path.nameFits name = true)
    (absent : t.get? (target ++ [name]) = none) :
    t.makeFolders (t.origin (Path.join folder name)) (Path.parts (Path.join folder name)) =
      ([.makeFolder (target ++ [name])], none) := by
  have flat := named.2.2.2
  rw [reach] at h
  rw [origin_join flat]
  rcases Path.parts_join flat with joined | ⟨before, ended, joined⟩
  · rw [joined]
    exact makeFolders_last h there named fits absent
  · rw [ended, follow_append] at h
    obtain ⟨last, reached, stays⟩ := Except.bind_eq_ok h
    obtain rfl : last = target := by
      have arrived := (follow_cons_ok stays).2.2
      simpa [next, follow] using arrived
    rw [joined]
    exact makeFolders_last reached there named fits absent

theorem Keeps.locate {t' : FileTree} {path : String} (keeps : Keeps t t')
    (h : t.locate path = .ok place) : t'.locate path = .ok place := by
  obtain ⟨usable, reached⟩ := usable_of_locate h
  have given : path ≠ "" := by
    rintro rfl
    cases h
  rw [locate_eq, if_neg given, if_pos usable, keeps.reach reached]

end FileTree

namespace DiskM
variable {α β : Type} {d d' : Disk} {folder path : String} {bytes : List UInt8}

theorem exec_bind_ok {program : DiskM α} {next : α → DiskM β} {b : β}
    (h : (program >>= next).exec d = (.ok b, d')) :
    ∃ a between, program.exec d = (.ok a, between) ∧ (next a).exec between = (.ok b, d') := by
  rw [exec_bind] at h
  rcases first : program.exec d with ⟨f | a, between⟩
  · rw [first] at h
    cases h
  · rw [first] at h
    exact ⟨a, between, rfl, h⟩

theorem exec_blaming_ok {find : FileTree → Except Trouble α} {a : α}
    (h : (blaming path find).exec d = (.ok a, d')) : find d.tree = .ok a ∧ d' = d := by
  cases found : find d.tree with
  | error trouble =>
    rw [(takes_blaming_trouble found).exec_eq] at h
    cases h
  | ok other =>
    rw [(takes_blaming found).exec_eq] at h
    obtain ⟨same, rfl⟩ := Prod.mk.inj h
    exact ⟨Except.ok.inj same ▸ rfl, rfl⟩

theorem filePlace_ok {t : FileTree} {place : Place} (h : filePlace t path = .ok place) :
    t.locate path = .ok place ∧ t.get? place ≠ some .folder ∧ place ≠ [] := by
  obtain ⟨located, found, free⟩ := Except.bind_eq_ok h
  split at free
  · cases free
  · rename_i other
    obtain rfl := Except.ok.inj free
    have unfolded : t.get? located ≠ some .folder := by simpa [FileTree.isFolder] using other
    refine ⟨found, unfolded, ?_⟩
    rintro rfl
    exact unfolded rfl

theorem exec_mutate_bind (path : String) (m : Mutation) (next : Unit → DiskM β) (d : Disk) :
    (mutate path m >>= next).exec d = (next ()).exec (d.perform m) := rfl

theorem exec_save_ok (h : (save folder path bytes).exec d = (.ok (), d')) :
    ∃ t draft target, filePlace t (path ++ ".tmp") = .ok draft ∧
      filePlace (t.applyAll [.create draft, .write draft bytes]) path = .ok target ∧
      d'.tree = t.applyAll (FileTree.saveSteps draft target bytes) := by
  obtain ⟨-, made, -, prepared⟩ := exec_bind_ok h
  obtain ⟨draft, between, drafting, begun⟩ := exec_bind_ok prepared
  obtain ⟨drafts, same⟩ := exec_blaming_ok drafting
  subst same
  rw [exec_mutate_bind, exec_mutate_bind] at begun
  obtain ⟨target, after, targeting, ended⟩ := exec_bind_ok begun
  obtain ⟨targets, same⟩ := exec_blaming_ok targeting
  subst same
  exact ⟨between.tree, draft, target, drafts, targets, (congrArg (·.2.tree) ended).symm⟩

theorem find_of_save (h : (save folder path bytes).exec d = (.ok (), d')) :
    d'.tree.find path = .ok (.file bytes) := by
  obtain ⟨t, draft, target, drafts, targets, saved⟩ := exec_save_ok h
  obtain ⟨-, -, outside⟩ := filePlace_ok drafts
  obtain ⟨located, unfolded, inside⟩ := filePlace_ok targets
  rw [saved]
  have keeps : FileTree.Keeps (t.applyAll [.create draft, .write draft bytes])
      (t.applyAll (FileTree.saveSteps draft target bytes)) := by
    refine ⟨by simp, fun p folder => ?_⟩
    have elsewhere : p ≠ target := by
      rintro rfl
      exact unfolded folder
    rw [FileTree.get?_drafted outside] at folder
    split at folder
    · cases folder
    · rename_i apart
      rw [FileTree.get?_saved outside inside, if_neg elsewhere, if_neg apart, folder]
  rw [FileTree.find_of_locate (keeps.locate located), FileTree.get?_saved outside inside, if_pos rfl]

theorem takes_makeFolders_join {name : String} {target : Place}
    (usable : Path.isUsable (Path.join folder name) = true)
    (h : d.tree.reach folder = .ok target) (there : d.tree.get? target = some .folder)
    (named : Path.IsName name) (fits : Path.nameFits name = true)
    (absent : d.tree.get? (target ++ [name]) = none) :
    (makeFolders (Path.join folder name)).Takes d ⟨[.makeFolder (target ++ [name])], .ok ()⟩ := by
  have steps := FileTree.makeFolders_join h there named fits absent
  rw [makeFolders, usable]
  refine takes_tree_bind ?_
  rw [steps]
  have made : ([.makeFolder (target ++ [name])].forM (mutate (Path.join folder name))).Takes d
      ⟨[.makeFolder (target ++ [name])], .ok ()⟩ := Takes.mutate_bind (takes_pure () _)
  exact made.bind (fun _ => .done ()) fun _ _ => takes_pure () _

end DiskM

namespace AppFolder
variable {a : AppFolder} {t : FileTree} {d : Disk} {name : String} {root : Place}

/-- A file in the encoding folder can be saved: the folder of the app is there, the encoding folder
is there or can be made, and no folder stands in the place of the file or of its draft. -/
structure HasRoom (a : AppFolder) (t : FileTree) (name : String) (root : Place) : Prop where
  reach : t.reach a.root = .ok root
  folder : t.get? root = some .folder
  encoding : t.get? (root ++ ["encoding"]) ∈ [none, some .folder]
  draft : t.isFolder (root ++ ["encoding", draftOf name]) = false
  target : t.isFolder (root ++ ["encoding", name]) = false
  usable : Path.isUsable (a.file (draftOf name)) = true

theorem HasRoom.usable_file (room : a.HasRoom t name root) :
    Path.isUsable (a.file name) = true := by
  have usable := room.usable
  rw [← draft_file] at usable
  exact Path.isUsable_of_append usable

theorem HasRoom.savable (room : a.HasRoom t name root)
    (there : t.get? (root ++ ["encoding"]) = some .folder) : a.Opens t ∧ a.Savable t name := by
  have reached : t.reach a.encoding = .ok (root ++ ["encoding"]) := by
    rw [AppFolder.encoding, FileTree.reach_join (by decide), room.reach]
    exact FileTree.follow_name (by decide) (by decide) room.folder
  have desk : a.desk t = root ++ ["encoding"] := by
    rw [AppFolder.desk, reached]
    rfl
  have place : ∀ n, a.place t n = root ++ ["encoding", n] := by simp [AppFolder.place, desk]
  refine ⟨⟨by rw [desk, reached], by rw [desk, there], Path.isUsable_of_join room.usable⟩, ?_, ?_⟩
  · exact ⟨room.usable, by rw [place, room.draft]⟩
  · exact ⟨room.usable_file, by rw [place, room.target]⟩

theorem HasRoom.makeFolder (room : a.HasRoom t name root) :
    a.HasRoom (t.apply (.makeFolder (root ++ ["encoding"]))) name root where
  reach := by
    have keeps : FileTree.Keeps t (t.apply (.makeFolder (root ++ ["encoding"]))) := by
      refine ⟨rfl, fun p folder => ?_⟩
      simp [FileTree.get?_makeFolder, folder]
    exact keeps.reach room.reach
  folder := by simp [FileTree.get?_makeFolder, room.folder]
  encoding := by simp [FileTree.get?_makeFolder]
  draft := by
    have free := room.draft
    simpa [FileTree.isFolder, FileTree.get?_makeFolder] using free
  target := by
    have free := room.target
    simpa [FileTree.isFolder, FileTree.get?_makeFolder] using free
  usable := room.usable

theorem HasRoom.exec_save_there (room : a.HasRoom d.tree name root) (h : name ∈ saved)
    (bytes : List UInt8) (there : d.tree.get? (root ++ ["encoding"]) = some .folder) :
    ∃ d', (DiskM.save a.encoding (a.file name) bytes).exec d = (.ok (), d') := by
  obtain ⟨opens, savable⟩ := room.savable there
  have taken := takes_save opens h bytes
  rw [saving_of_savable savable] at taken
  exact ⟨_, taken.exec_eq⟩

theorem HasRoom.exec_save (room : a.HasRoom d.tree name root) (h : name ∈ saved)
    (bytes : List UInt8) :
    ∃ d', (DiskM.save a.encoding (a.file name) bytes).exec d = (.ok (), d') := by
  have encoding := room.encoding
  simp only [List.mem_cons, List.not_mem_nil, or_false] at encoding
  rcases encoding with absent | there
  · -- once the folder is made, saving from there is what it is when the folder was there before
    let made := d.perform (.makeFolder (root ++ ["encoding"]))
    have usable := Path.isUsable_of_join room.usable
    have first := DiskM.takes_makeFolders_join usable room.reach room.folder (by decide) (by decide)
      absent
    have there : made.tree.get? (root ++ ["encoding"]) = some .folder := by
      simp [made, Disk.perform, FileTree.get?_makeFolder]
    have room' : a.HasRoom made.tree name root := room.makeFolder
    obtain ⟨opens, -⟩ := room'.savable there
    have idle := DiskM.takes_makeFolders usable opens.reach opens.folder
    obtain ⟨d', stored⟩ := room'.exec_save_there h bytes there
    refine ⟨d', ?_⟩
    rw [DiskM.save, DiskM.exec_bind] at stored ⊢
    rw [idle.exec_eq] at stored
    rw [AppFolder.encoding, first.exec_eq]
    exact stored
  · exact room.exec_save_there h bytes there

/-- Saved raw behaviors are loaded as they were if their numbers fit, and whatever could be loaded
once is saved as a text that loads again and does not change any more. -/
theorem cachedRaw?_saveRaw (a : AppFolder) :
    (∀ behaviors : List RawBehavior, (∀ b ∈ behaviors, b.Fits) → ∀ t d,
      Disk.run (a.saveRaw behaviors) t = (.ok (), d) → a.cachedRaw? d.tree = some behaviors) ∧
    (∀ old loaded, a.cachedRaw? old = some loaded → ∀ t d,
      Disk.run (a.saveRaw loaded) t = (.ok (), d) →
        a.cachedRaw? d.tree = some loaded ∧
        ∃ text, d.tree.find a.rawBehaviors = .ok (.file text) ∧
          ∀ again t' d', a.cachedRaw? d.tree = some again →
            Disk.run (a.saveRaw again) t' = (.ok (), d') →
              d'.tree.find a.rawBehaviors = .ok (.file text)) ∧
    ∀ behaviors t root, a.HasRoom t rawName root →
      ∃ d, Disk.run (a.saveRaw behaviors) t = (.ok (), d) := by
  have loads : ∀ behaviors : List RawBehavior, (∀ b ∈ behaviors, b.Fits) → ∀ t d,
      Disk.run (a.saveRaw behaviors) t = (.ok (), d) → a.cachedRaw? d.tree = some behaviors := by
    intro behaviors fits t d stored
    rw [cachedRaw?_of_find (DiskM.find_of_save stored), RawBehavior.readAll?_writeAll, if_pos fits]
  refine ⟨loads, fun old loaded cached t d stored => ?_, fun behaviors t root room => ?_⟩
  · obtain ⟨bytes, -, -, read⟩ := cachedRaw?_some cached
    have reloads := loads loaded (RawBehavior.fits_of_readAll? read) t d stored
    refine ⟨reloads, _, DiskM.find_of_save stored, fun again t' d' cached' restored => ?_⟩
    obtain rfl : loaded = again := Option.some.inj (reloads.symm.trans cached')
    exact DiskM.find_of_save restored
  · exact @HasRoom.exec_save a (.ofTree t) rawName root room (by decide)
      (RawBehavior.writeAll behaviors)

def bareTree : FileTree := ⟨.ofList [(["shop"], .folder)], []⟩

def extremeBehavior : RawBehavior :=
  .ofEdges 7 0xffffffffffffffff (.ofList [⟨7, 1, .event⟩, ⟨1, 0x7fffffffffffffff, .call⟩])
    (.ofList [3, 0xffffffffffffffff])

theorem hasRoom_bareTree {name : String} (h : name ∈ saved) :
    sample.HasRoom bareTree name ["shop"] := by
  have all : ∀ n ∈ saved, bareTree.isFolder ["shop", "encoding", draftOf n] = false ∧
      bareTree.isFolder ["shop", "encoding", n] = false ∧
      Path.isUsable (sample.file (draftOf n)) = true := by decide +kernel
  obtain ⟨draft, target, usable⟩ := all name h
  exact ⟨by decide +kernel, by decide +kernel, by decide +kernel, draft, target, usable⟩

theorem cachedRaw?_saveRaw_sample :
    ∃ d, Disk.run (sample.saveRaw [extremeBehavior]) bareTree = (.ok (), d) ∧
      sample.cachedRaw? d.tree = some [extremeBehavior] := by
  obtain ⟨loads, -, saves⟩ := cachedRaw?_saveRaw sample
  obtain ⟨d, stored⟩ := saves [extremeBehavior] bareTree ["shop"] (hasRoom_bareTree (by decide))
  exact ⟨d, stored, loads _ (by decide +kernel) _ _ stored⟩

/-- Reduced behaviors are read back entry by entry as they were written, and loaded as they were
saved. -/
theorem reduced_saveReduced (a : AppFolder) {r : ReducedBehaviors} (fits : r.Fits) :
    ReducedEntry.readAll? r.write = some r.toEntries ∧ ReducedBehaviors.read? r.write = some r ∧
    (∀ t d, Disk.run (a.saveReduced r) t = (.ok (), d) → a.reduced d.tree = .ok r) ∧
    ∀ t root, a.HasRoom t reducedName root → ∃ d, Disk.run (a.saveReduced r) t = (.ok (), d) := by
  have entries := ReducedBehaviors.readAll?_write fits
  have whole : ReducedBehaviors.read? r.write = some r := by
    rw [ReducedBehaviors.read?, entries, Option.map_some, ReducedBehaviors.ofEntries_toEntries]
  refine ⟨entries, whole, fun t d stored => ?_, fun t root room => ?_⟩
  · rw [reduced, DiskM.find_of_save stored]
    simp only [whole]
  · exact @HasRoom.exec_save a (.ofTree t) reducedName root room (by decide) r.write

/-- One behavior with every option, present but empty, and one with none. -/
def extremeBehaviors : ReducedBehaviors where
  time := 1.25
  behaviors :=
    [⟨7, 1, ⟨2, 1⟩, ⟨4, 0xffffffffffffffff⟩, ⟨0.5, 2, some 0⟩, .ofList [⟨7, 1, .event⟩], .empty,
      some .empty⟩,
    ⟨7, 1, ⟨2, 1⟩, ⟨2, 1⟩, ⟨0.5, 0, none⟩, .ofList [⟨0x7fffffffffffffff, 1, .call⟩], .ofList [3],
      none⟩]

theorem reduced_saveReduced_sample :
    ∃ d, Disk.run (sample.saveReduced extremeBehaviors) bareTree = (.ok (), d) ∧
      sample.reduced d.tree = .ok extremeBehaviors := by
  have fits : extremeBehaviors.Fits := by
    refine ⟨?_, ?_, ?_⟩
    all_goals decide +kernel
  obtain ⟨-, -, loads, saves⟩ := reduced_saveReduced sample fits
  obtain ⟨d, stored⟩ := saves bareTree ["shop"] (hasRoom_bareTree (by decide))
  exact ⟨d, stored, loads _ _ stored⟩

end AppFolder
end HandlerGraph
