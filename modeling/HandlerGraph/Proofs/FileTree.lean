import HandlerGraph.FileTree.Basic
import HandlerGraph.Proofs.EdgeText

/-! Where paths lead, and what changes when a tree does. A path that is joined from a folder and a
name leads from the folder's place to the name in it. Two trees look the same from a path when it
leads to one place in both and everything below that place is the same; then they also look the same
from every path below. A place that a path leads to is reached through folders, so it is still
reached in every tree that keeps them. -/
namespace HandlerGraph

namespace Path

/-- What an entry can be called. -/
def IsName (name : String) : Prop :=
  name ≠ "" ∧ name ≠ "." ∧ name ≠ ".." ∧ '/' ∉ name.toList

instance decidableIsName (name : String) : Decidable (IsName name) :=
  inferInstanceAs (Decidable (_ ∧ _ ∧ _ ∧ _))

theorem parts_of_no_slash {name : String} (flat : '/' ∉ name.toList) : parts name = [name] := by
  rw [parts, Text.split_of_not_mem flat, List.map_singleton, String.ofList_toList]

theorem join_ne_empty {folder name : String} (named : name ≠ "") : join folder name ≠ "" := by
  rw [join]
  split
  · exact named
  · split <;> simp_all

/-- A folder path that ends in a slash has an empty last part, which a joined name replaces. -/
theorem parts_join {folder name : String} (flat : '/' ∉ name.toList) :
    parts (join folder name) = parts folder ++ [name] ∨
      ∃ before, parts folder = before ++ [""] ∧ parts (join folder name) = before ++ [name] := by
  rw [join]
  split
  · rename_i none_given
    subst none_given
    exact Or.inr ⟨[], rfl, parts_of_no_slash flat⟩
  · split
    · rename_i slash
      obtain ⟨before, ends⟩ := List.getLast?_eq_some_iff.mp slash
      refine Or.inr ⟨(Text.split '/' before).map String.ofList, ?_, ?_⟩
      · rw [parts, ends, Text.split_append]
        simp [Text.split]
      · have whole : (folder ++ name).toList = before ++ '/' :: name.toList := by simp [ends]
        rw [parts, whole, Text.split_append, List.map_append, ← parts, parts_of_no_slash flat]
    · have whole : (folder ++ "/" ++ name).toList = folder.toList ++ '/' :: name.toList := by simp
      refine Or.inl ?_
      rw [parts, whole, Text.split_append, List.map_append, ← parts, ← parts,
        parts_of_no_slash flat]

end Path

namespace FileTree
variable {t t' : FileTree} {path folder name : String} {place : Place}

theorem mem_entries_of_get? {e : Entry} (h : t.get? place = some e)
    (below : place = [] → e ≠ .folder) : (place, e) ∈ t.entries.entries := by
  rw [get?] at h
  split at h
  · rename_i top
    exact absurd (Option.some.inj h).symm (below top)
  · exact SortedMap.mem_of_lookup h

def reach (t : FileTree) (path : String) : Except Trouble Place :=
  t.follow (t.origin path) (Path.parts path)

theorem locate_eq (t : FileTree) (path : String) :
    t.locate path = if path = "" then .error .missing
      else if Path.isUsable path then t.reach path else .error .blocked := rfl

theorem follow_append (t : FileTree) (place : Place) (front back : List String) :
    t.follow place (front ++ back) = t.follow place front >>= fun p => t.follow p back := by
  induction front generalizing place with
  | nil => rfl
  | cons part front ih =>
    rw [List.cons_append, follow, follow]
    split
    · rfl
    · rfl
    · split
      · exact ih _
      · rfl

theorem follow_empty_part (t : FileTree) (place : Place) (name : String) :
    t.follow place ["", name] = t.follow place [name] := by
  have fits : Path.nameFits "" = true := by decide
  have stays : next place "" = place := by simp [next]
  rw [follow]
  split
  · rename_i found
    simp [follow, found]
  · rename_i found
    simp [follow, found]
  · rw [if_pos fits, stays]

theorem origin_join (flat : '/' ∉ name.toList) (t : FileTree) (folder : String) :
    t.origin (Path.join folder name) = t.origin folder := by
  have head : (Path.join folder name).toList.head? = some '/' ↔ folder.toList.head? = some '/' := by
    rw [Path.join]
    split
    · rename_i none_given
      subst none_given
      simpa using fun slash => flat (List.mem_of_head? slash)
    · rename_i given
      have some_char : folder.toList ≠ [] := by simpa using given
      split
      · rw [String.toList_append, List.head?_append_of_ne_nil _ some_char]
      · rw [String.toList_append, String.toList_append, List.append_assoc,
          List.head?_append_of_ne_nil _ some_char]
  simp only [origin, head]

theorem reach_join (flat : '/' ∉ name.toList) (t : FileTree) (folder : String) :
    t.reach (Path.join folder name) = t.reach folder >>= fun p => t.follow p [name] := by
  rw [reach, reach, origin_join flat]
  rcases Path.parts_join flat with joined | ⟨before, ended, joined⟩
  · rw [joined, follow_append]
  · have empty : t.follow (t.origin folder) (before ++ [name]) =
        t.follow (t.origin folder) (before ++ [""] ++ [name]) := by
      rw [List.append_assoc, follow_append, follow_append]
      simp only [List.singleton_append, follow_empty_part]
    rw [joined, ended, empty, follow_append]

theorem next_of_isName (named : Path.IsName name) (place : Place) :
    next place name = place ++ [name] := by
  obtain ⟨nonempty, dot, parent, _⟩ := named
  simp [next, nonempty, dot, parent]

theorem follow_name (named : Path.IsName name) (fits : Path.nameFits name = true)
    (there : t.get? place = some .folder) : t.follow place [name] = .ok (place ++ [name]) := by
  rw [follow, there]
  simp only [fits, if_true, next_of_isName named, follow]

theorem follow_cons_ok {part : String} {rest : List String} {target : Place}
    (h : t.follow place (part :: rest) = .ok target) :
    t.get? place = some .folder ∧ Path.nameFits part = true ∧
      t.follow (next place part) rest = .ok target := by
  rw [follow] at h
  split at h
  · cases h
  · cases h
  · split at h
    · exact ⟨‹_›, ‹_›, h⟩
    · cases h

theorem follow_ok_of_folders {parts : List String} {target : Place}
    (folders : ∀ p, t.get? p = some .folder → t'.get? p = some .folder)
    (h : t.follow place parts = .ok target) : t'.follow place parts = .ok target := by
  induction parts generalizing place with
  | nil => exact h
  | cons part parts ih =>
    obtain ⟨here, fits, further⟩ := follow_cons_ok h
    rw [follow, folders place here]
    simp only [fits, if_true]
    exact ih further

/-- A tree with the same working folder and at least the same folders. -/
structure Keeps (t t' : FileTree) : Prop where
  home : t'.home = t.home
  folders : ∀ p, t.get? p = some .folder → t'.get? p = some .folder

theorem Keeps.reach (keeps : Keeps t t') (h : t.reach path = .ok place) :
    t'.reach path = .ok place := by
  have origin : t'.origin path = t.origin path := by simp [FileTree.origin, keeps.home]
  rw [FileTree.reach, origin]
  exact follow_ok_of_folders keeps.folders h

/-- Two trees that look the same from a path on. -/
structure SameFrom (t t' : FileTree) (path : String) : Prop where
  reach : t'.reach path = t.reach path
  entries : ∀ p, t.reach path = .ok p → ∀ below, t'.get? (p ++ below) = t.get? (p ++ below)

theorem sameFrom_join (named : Path.IsName name) (reach : t'.reach folder = t.reach folder)
    (here : ∀ p, t.reach folder = .ok p → t'.get? p = t.get? p)
    (entries : ∀ p, t.reach folder = .ok p →
      ∀ below, t'.get? (p ++ name :: below) = t.get? (p ++ name :: below)) :
    SameFrom t t' (Path.join folder name) := by
  have flat := named.2.2.2
  cases reached : t.reach folder with
  | error trouble =>
    refine ⟨?_, fun p h => ?_⟩
    · rw [reach_join flat, reach_join flat, reach, reached]
      rfl
    · rw [reach_join flat, reached] at h
      contradiction
  | ok p =>
    have step : t'.follow p [name] = t.follow p [name] := by
      rw [follow, follow, here p reached]
      rfl
    refine ⟨?_, fun q h below => ?_⟩
    · rw [reach_join flat, reach_join flat, reach, reached]
      exact step
    · have arrived : t.follow p [name] = .ok q := by
        rw [reach_join flat, reached] at h
        exact h
      have target : p ++ [name] = q := by
        obtain ⟨-, -, further⟩ := follow_cons_ok arrived
        rw [next_of_isName named] at further
        exact Except.ok.inj further
      rw [← target, List.append_assoc]
      exact entries p reached below

theorem SameFrom.join (same : SameFrom t t' folder) (named : Path.IsName name) :
    SameFrom t t' (Path.join folder name) :=
  sameFrom_join named same.reach (fun p h => by simpa using same.entries p h [])
    fun p h below => same.entries p h (name :: below)

theorem SameFrom.locate (same : SameFrom t t' path) : t'.locate path = t.locate path := by
  rw [locate_eq, locate_eq, same.reach]

theorem usable_of_locate (h : t.locate path = .ok place) :
    Path.isUsable path = true ∧ t.reach path = .ok place := by
  rw [locate_eq] at h
  split at h
  · cases h
  · split at h
    · exact ⟨‹_›, h⟩
    · cases h

theorem SameFrom.get? (same : SameFrom t t' path) (h : t.locate path = .ok place) :
    t'.get? place = t.get? place := by
  simpa using same.entries place ((usable_of_locate h).2) []

theorem find_of_locate (h : t.locate path = .ok place) :
    t.find path = match t.get? place with
      | none => .error .missing
      | some e => .ok e := by
  rw [find, h]
  rfl

theorem SameFrom.find (same : SameFrom t t' path) : t'.find path = t.find path := by
  cases located : t.locate path with
  | error trouble =>
    rw [FileTree.find, FileTree.find, same.locate, located]
    rfl
  | ok place =>
    rw [find_of_locate located, find_of_locate (same.locate.trans located), same.get? located]

theorem SameFrom.read (same : SameFrom t t' path) : t'.read path = t.read path := by
  rw [FileTree.read, FileTree.read, same.find]

def applyAll (t : FileTree) (steps : List Mutation) : FileTree := steps.foldl apply t

theorem applyAll_append (t : FileTree) (front back : List Mutation) :
    t.applyAll (front ++ back) = (t.applyAll front).applyAll back := List.foldl_append

@[simp] theorem home_applyAll (t : FileTree) (steps : List Mutation) :
    (t.applyAll steps).home = t.home := by
  induction steps generalizing t with
  | nil => rfl
  | cons m steps ih => exact (ih (t.apply m)).trans (home_apply t m)

section entries
variable {draft target other : Place} {bytes : List UInt8}

theorem get?_apply_create (inside : draft ≠ []) :
    (t.apply (.create draft)).get? other =
      if other = draft then some (.file []) else t.get? other := by
  rw [get?_create]
  split
  · rename_i top
    simp [top, inside.symm, FileTree.get?]
  · rfl

theorem get?_apply_write (inside : draft ≠ []) :
    (t.apply (.write draft bytes)).get? other =
      if other = draft then some (.file bytes) else t.get? other := by
  rw [get?_write]
  split
  · rename_i top
    simp [top, inside.symm, FileTree.get?]
  · rfl

theorem get?_apply_remove (inside : target ≠ []) :
    (t.apply (.remove target)).get? other = if other = target then none else t.get? other := by
  rw [get?_remove]
  split
  · rename_i top
    simp [top, inside.symm, FileTree.get?]
  · rfl

theorem get?_apply_rename (outside : draft ≠ []) (inside : target ≠ []) {e : Entry}
    (there : t.get? draft = some e) :
    (t.apply (.rename draft target)).get? other =
      if other = target then some e else if other = draft then none else t.get? other := by
  have source : t.entries.get? draft = some e := by simpa [FileTree.get?, outside] using there
  simp only [apply, source, FileTree.get?, SortedMap.get?_insert, SortedMap.get?_erase]
  split
  · rename_i top
    simp [top, inside.symm, outside.symm]
  · rfl

/-- The mutations that put a file in place by way of a draft. -/
def saveSteps (draft target : Place) (bytes : List UInt8) : List Mutation :=
  [.create draft, .write draft bytes, .rename draft target]

theorem get?_drafted (outside : draft ≠ []) :
    (t.applyAll [.create draft, .write draft bytes]).get? other =
      if other = draft then some (.file bytes) else t.get? other := by
  have drafted : t.applyAll [.create draft, .write draft bytes] =
      (t.apply (.create draft)).apply (.write draft bytes) := rfl
  rw [drafted, get?_apply_write outside, get?_apply_create outside]
  split <;> rfl

theorem get?_saved (outside : draft ≠ []) (inside : target ≠ []) :
    (t.applyAll (saveSteps draft target bytes)).get? other =
      if other = target then some (.file bytes) else if other = draft then none
      else t.get? other := by
  have saved : t.applyAll (saveSteps draft target bytes) =
      (t.applyAll [.create draft, .write draft bytes]).apply (.rename draft target) := rfl
  have there :
      (t.applyAll [.create draft, .write draft bytes]).get? draft = some (.file bytes) := by
    rw [get?_drafted outside, if_pos rfl]
  rw [saved, get?_apply_rename outside inside there]
  split
  · rfl
  · rename_i apart
    split
    · rfl
    · rename_i other_place
      rw [get?_drafted outside, if_neg other_place]

end entries

end FileTree
end HandlerGraph
