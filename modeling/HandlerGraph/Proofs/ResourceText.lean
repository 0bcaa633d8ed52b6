import HandlerGraph.Proofs.LayoutId
import HandlerGraph.Proofs.MarkupText
import HandlerGraph.Proofs.SortedMap

/-! Resource descriptors as they are written: `public` elements in an outer element, each with a type,
a name and an id among its attributes. Reading one enters its layouts from first to last, so with ids
in hexadecimal each name has the id that was written last for it. An element whose id cannot be read
makes the whole text an error; an id is read if it has marks, a sign or none and digits, which is more
than ids are meant to be. -/
namespace HandlerGraph.Resources
open Markup Numeral

structure Entry where
  kind : String
  name : String
  id : String

def Entry.addTo (e : Entry) (r : Resources) : Except ResourceFault Resources :=
  if e.kind = "layout" then
    match layoutIdOf? e.id with
    | some value => .ok (r.insert e.name value)
    | none => .error (.badLayoutId e.name e.id)
  else .ok r

/-- An entry as it is written, with its attributes in any order and perhaps with others. -/
structure Element extends Leaf where
  entry : Entry
  isPublic : name = "public".toList
  kind_mem : ⟨"type".toList, entry.kind.toList⟩ ∈ toHead.attributes
  name_mem : ⟨"name".toList, entry.name.toList⟩ ∈ toHead.attributes
  id_mem : ⟨"id".toList, entry.id.toList⟩ ∈ toHead.attributes

structure Wrapping extends Frame where
  outer : name = "resources".toList

def Wrapping.write (w : Wrapping) (elements : List Element) : String :=
  String.ofList (w.around (elements.map fun e => e.toLeaf))

def plainField (key value : String) (word : IsWord key.toList) : Field where
  gap := [' ']
  key := key.toList
  value := value.toList
  quote := '"'
  gap_ne_nil := List.cons_ne_nil _ _
  gap_blank := by decide
  key_word := word
  quote_mark := .inl rfl

def Entry.element (e : Entry) : Element where
  name := "public".toList
  fields := [plainField "type" e.kind (by decide), plainField "name" e.name (by decide),
    plainField "id" e.id (by decide)]
  tail := []
  name_word := by decide
  distinct := by simp [plainField]
  tail_blank := by decide
  lead := []
  content := none
  lead_outside := by decide
  content_outside := by decide
  entry := e
  isPublic := rfl
  kind_mem := by simp [Head.attributes, Field.toAttribute, plainField]
  name_mem := by simp [Head.attributes, Field.toAttribute, plainField]
  id_mem := by simp [Head.attributes, Field.toAttribute, plainField]

def bareWrapping : Wrapping where
  name := "resources".toList
  fields := []
  tail := []
  name_word := by decide
  distinct := List.nodup_nil
  tail_blank := by decide
  declaration := none
  lead := []
  last := []
  trail := []
  declaration_within := by decide
  lead_outside := by decide
  last_outside := by decide
  trail_outside := by decide
  outer := rfl

theorem valueOf?_of_mem {attributes : List Attribute} {key value : String}
    (distinct : (attributes.map Attribute.key).Nodup)
    (mem : ⟨key.toList, value.toList⟩ ∈ attributes) : valueOf? attributes key = some value := by
  have found : attributes.find? (fun a => a.key = key.toList) =
      some ⟨key.toList, value.toList⟩ := by
    induction attributes with
    | nil => cases mem
    | cons a attributes ih =>
      rw [List.map_cons, List.nodup_cons] at distinct
      rw [List.find?_cons]
      rcases List.mem_cons.mp mem with rfl | later
      · simp
      · have other : ¬ a.key = key.toList := by
          intro same
          exact distinct.1 (same ▸ List.mem_map_of_mem later)
        simp only [other, decide_false]
        exact ih distinct.2 later
  rw [valueOf?, found, Option.map_some, String.ofList_toList]

theorem addTag_element (r : Resources) (e : Element) :
    addTag r e.toTag = e.entry.addTo r := by
  have distinct : (e.toHead.attributes.map Attribute.key).Nodup := by
    rw [Head.attributes, List.map_map]
    exact e.distinct
  have kind := valueOf?_of_mem distinct e.kind_mem
  have name := valueOf?_of_mem distinct e.name_mem
  have id := valueOf?_of_mem distinct e.id_mem
  have named : e.toTag.name = "public".toList := e.isPublic
  rw [addTag, if_pos named, e.attributes?_toTag]
  simp only [addEntry, kind, name, id, Option.some.injEq]
  rfl

theorem parse_write (w : Wrapping) (elements : List Element) : parse (w.write elements) =
    elements.foldlM (fun r e => e.entry.addTo r) empty := by
  have outer : addTag empty w.toTag = .ok empty := by
    have named : w.toTag.name = "resources".toList := w.outer
    rw [addTag, named, if_neg (by decide)]
  rw [parse, Wrapping.write, String.toList_ofList, tags_around]
  simp only [List.foldlM_cons, outer, List.map_map, List.foldlM_map, Function.comp_apply,
    addTag_element, if_true]
  exact bind_pure (m := Except ResourceFault) _

theorem parse_write_one (w : Wrapping) (e : Element) :
    parse (w.write [e]) = e.entry.addTo empty := by
  rw [parse_write, List.foldlM_cons]
  exact bind_pure (m := Except ResourceFault) _

def hexText (n : Nat) : String := String.ofList ("0x".toList ++ Nat.toDigits 16 n)

theorem isLayoutId_toDigits {mark : String} (known : mark ∈ ["", "0x", "0X"]) {n : Nat}
    (fits : n < 0x8000000000000000) :
    IsLayoutId (String.ofList (mark.toList ++ Nat.toDigits 16 n)) n := by
  obtain ⟨some_digit, hex, value⟩ :=
    natural?_sixteen_eq_some_iff.mp (hexadecimalDigits.natural?_toDigits n)
  exact ⟨mark, known, Nat.toDigits 16 n, String.toList_ofList, some_digit, hex, value, by omega⟩

structure NumberedElement extends Element where
  number : Nat
  fits : number < 0x8000000000000000
  id_hex : entry.id = hexText number

theorem addTo_numbered (r : Resources) (e : NumberedElement) : e.entry.addTo r =
    pure (if e.entry.kind = "layout" then r.insert e.entry.name e.number else r) := by
  have read : layoutIdOf? e.entry.id = some (e.number : Int) := by
    rw [e.id_hex]
    exact layoutIdOf?_of_isLayoutId (isLayoutId_toDigits (by decide) e.fits)
  rw [Entry.addTo, read]
  split <;> rfl

def layoutsOf (elements : List NumberedElement) : List (String × Int) :=
  (elements.filter (·.entry.kind = "layout")).map fun e => (e.entry.name, (e.number : Int))

theorem foldl_insert (l : List (String × Int)) :
    l.foldl (fun r e => r.insert e.1 e.2) empty = ⟨SortedMap.ofList l⟩ :=
  List.foldl_hom Resources.mk fun _ _ => rfl

theorem parse_write_numbered (w : Wrapping) (elements : List NumberedElement) :
    parse (w.write (elements.map fun e => e.toElement)) =
      .ok ⟨SortedMap.ofList (layoutsOf elements)⟩ := by
  rw [parse_write, List.foldlM_map, ← foldl_insert, layoutsOf, List.foldl_map, List.foldl_filter]
  simp only [addTo_numbered, List.foldlM_pure, decide_eq_true_eq]
  rfl

/-- A name has the id of the last layout entry with that name, and other names have none. -/
theorem parse_written_entries (w : Wrapping) (elements : List NumberedElement) :
    ∃ r, parse (w.write (elements.map fun e => e.toElement)) = .ok r ∧
      (∀ name, r.layoutId? name =
        ((elements.filter fun e => e.entry.kind = "layout" ∧ e.entry.name = name).getLast?).map
          fun e => (e.number : Int)) ∧
      r.size = ((elements.filter fun e => e.entry.kind = "layout").map
        fun e => e.entry.name).toFinset.card := by
  refine ⟨_, parse_write_numbered w elements, fun name => ?_, ?_⟩
  · have both : ∀ e : NumberedElement,
        (decide (e.entry.name = name) && decide (e.entry.kind = "layout")) =
          decide (e.entry.kind = "layout" ∧ e.entry.name = name) := by
      intro e
      rw [Bool.decide_and, Bool.and_comm]
    rw [layoutId?, SortedMap.get?_ofList, layoutsOf, List.filter_map, List.getLast?_map,
      Option.map_map, List.filter_filter]
    simp only [Function.comp_def, both]
  · rw [size, SortedMap.size_ofList, layoutsOf, List.map_map]
    rfl

def noted (name : String) (n : Nat) (fits : n < 0x8000000000000000) : NumberedElement where
  name := "public".toList
  fields := [plainField "note" "<&>" (by decide),
    { gap := [' '], key := "id".toList, value := (hexText n).toList, quote := '\''
      gap_ne_nil := List.cons_ne_nil _ _
      gap_blank := by decide
      key_word := by decide
      quote_mark := .inr rfl },
    { gap := ['\n', '\t'], key := "name".toList, value := name.toList, quote := '"'
      gap_ne_nil := List.cons_ne_nil _ _
      gap_blank := by decide
      key_word := by decide
      quote_mark := .inl rfl },
    plainField "type" "layout" (by decide)]
  tail := [' ']
  name_word := by decide
  distinct := by simp [plainField]
  tail_blank := by decide
  lead := ['\n']
  content := some [' ', '>']
  lead_outside := by decide
  content_outside := by decide
  entry := ⟨"layout", name, hexText n⟩
  isPublic := rfl
  kind_mem := by simp [Head.attributes, Field.toAttribute, plainField]
  name_mem := by simp [Head.attributes, Field.toAttribute, plainField]
  id_mem := by simp [Head.attributes, Field.toAttribute, plainField]
  number := n
  fits := fits
  id_hex := rfl

def numbered (kind name : String) (n : Nat) (fits : n < 0x8000000000000000) : NumberedElement where
  toElement := Entry.element ⟨kind, name, hexText n⟩
  number := n
  fits := fits
  id_hex := rfl

def declaredWrapping : Wrapping :=
  { bareWrapping with
    declaration := some "xml version=\"1.0\" encoding=\"utf-8\"".toList
    lead := ['\n']
    last := ['\n']
    declaration_within := by decide
    lead_outside := by decide
    last_outside := by decide }

def repeatedName : List NumberedElement :=
  [numbered "layout" "a&b" 16 (by decide), noted "a&b" 0x7fffffffffffffff (by decide),
    numbered "id" "a&b" 0 (by decide)]

def repeatedText : String := "<?xml version=\"1.0\" encoding=\"utf-8\"?>
<resources><public type=\"layout\" name=\"a&amp;b\" id=\"0x10\"/>
<public note=\"&lt;&amp;&gt;\" id='0x7fffffffffffffff'
\tname=\"a&amp;b\" type=\"layout\" > ></public><public type=\"id\" name=\"a&amp;b\" id=\"0x0\"/>
</resources>"

set_option maxRecDepth 4000 in
theorem write_repeatedName :
    declaredWrapping.write (repeatedName.map fun e => e.toElement) = repeatedText := by
  rfl

theorem parse_written_entries_repeated : ∃ r, parse repeatedText = .ok r ∧
    r.layoutId? "a&b" = some 0x7fffffffffffffff ∧ r.layoutId? "a" = none ∧ r.size = 1 := by
  obtain ⟨r, ok, lookup, count⟩ := parse_written_entries declaredWrapping repeatedName
  rw [write_repeatedName] at ok
  refine ⟨r, ok, ?_, ?_, ?_⟩
  · rw [lookup]
    decide +kernel
  · rw [lookup]
    decide +kernel
  · rw [count]
    decide +kernel

section Rejection
variable (w : Wrapping) (e : Element)

/-- The id of an element is entered if and only if it is what ids are meant to be. -/
def RejectsMalformed : Prop :=
  ((∃ r, parse (w.write [e]) = .ok r) ↔ ∃ n, IsLayoutId e.entry.id n) ∧
    ∀ n, IsLayoutId e.entry.id n → parse (w.write [e]) = .ok (empty.insert e.entry.name n)

variable {e}

theorem parse_layout_eq_ok_iff (layout : e.entry.kind = "layout") {r : Resources} :
    parse (w.write [e]) = .ok r ↔ ∃ i, layoutIdOf? e.entry.id = some i ∧
      r = empty.insert e.entry.name i := by
  rw [parse_write_one, Entry.addTo, if_pos layout]
  cases read : layoutIdOf? e.entry.id with
  | none => simp
  | some i => simp [eq_comm]

/-- Malformed ids are rejected unless they are several marks or a sign before digits that fit. -/
theorem malformed_rejected_iff (layout : e.entry.kind = "layout") :
    (∀ r, parse (w.write [e]) = .ok r ↔ ∃ p : IdParts, p.text = e.entry.id.toList ∧ p.Fits ∧
      r = empty.insert e.entry.name p.value) ∧
    ((∀ p : IdParts, p.text = e.entry.id.toList → ¬ p.Fits) →
      parse (w.write [e]) = .error (.badLayoutId e.entry.name e.entry.id)) ∧
    (RejectsMalformed w e ↔
      ∀ p : IdParts, p.text = e.entry.id.toList → p.Fits → p.IsPlain) := by
  have accepted : ∀ r, parse (w.write [e]) = .ok r ↔ ∃ p : IdParts, p.text = e.entry.id.toList ∧
      p.Fits ∧ r = empty.insert e.entry.name p.value := by
    intro r
    simp only [parse_layout_eq_ok_iff w layout, layoutIdOf?_eq_some_iff]
    grind
  have entered : ∀ n, IsLayoutId e.entry.id n →
      parse (w.write [e]) = .ok (empty.insert e.entry.name n) := fun n form =>
    (parse_layout_eq_ok_iff w layout).mpr ⟨n, layoutIdOf?_of_isLayoutId form, rfl⟩
  refine ⟨accepted, fun unfit => ?_, fun rejects p text fits => ?_,
    fun plain => ⟨⟨?_, ?_⟩, entered⟩⟩
  · have unread : layoutIdOf? e.entry.id = none := by
      rw [Option.eq_none_iff_forall_ne_some]
      intro i read
      obtain ⟨p, text, -, fits⟩ := layoutIdOf?_eq_some_iff.mp read
      exact unfit p text fits
    rw [parse_write_one, Entry.addTo, if_pos layout, unread]
  · obtain ⟨n, form⟩ := rejects.1.mp ⟨_, (accepted _).mpr ⟨p, text, fits, rfl⟩⟩
    exact form.isPlain text
  · rintro ⟨r, ok⟩
    obtain ⟨p, text, fits, -⟩ := (accepted r).mp ok
    have form := plain p text fits
    exact ⟨_, isLayoutId_iff.mpr ⟨p, form, text, form.value, fits⟩⟩
  · rintro ⟨n, form⟩
    exact ⟨_, entered n form⟩

end Rejection

def largest : Element := Entry.element ⟨"layout", "main", "0X7fffffffffffffff"⟩

theorem isLayoutId_largest : IsLayoutId "0X7fffffffffffffff" 0x7fffffffffffffff := by
  have text : String.ofList ("0X".toList ++ Nat.toDigits 16 0x7fffffffffffffff) =
      "0X7fffffffffffffff" := by rfl
  rw [← text]
  exact isLayoutId_toDigits (by decide) (by decide)

theorem malformed_rejected_iff_largest :
    largest.entry.kind = "layout" ∧ RejectsMalformed bareWrapping largest ∧
      parse (bareWrapping.write [largest]) = .ok (empty.insert "main" 0x7fffffffffffffff) := by
  obtain ⟨-, -, rejects⟩ := malformed_rejected_iff bareWrapping (e := largest) rfl
  have whole := rejects.mpr fun p text _ => isLayoutId_largest.isPlain text
  exact ⟨rfl, whole, whole.2 _ isLayoutId_largest⟩

theorem two_marks_accepted :
    parse "<resources><public type=\"layout\" name=\"a\" id=\"0x0x10\"/></resources>" =
      .ok (empty.insert "a" 16) ∧ ¬ ∃ n, IsLayoutId "0x0x10" n := by
  constructor
  · have text : bareWrapping.write [Entry.element ⟨"layout", "a", "0x0x10"⟩] =
        "<resources><public type=\"layout\" name=\"a\" id=\"0x0x10\"/></resources>" := by
      rfl
    rw [← text]
    exact (parse_layout_eq_ok_iff bareWrapping rfl).mpr ⟨16, by decide +kernel, rfl⟩
  · rintro ⟨n, form⟩
    let twice : IdParts := ⟨2, 0, .none, Nat.toDigits 16 16, Nat.toDigits_ne_nil,
      (hexadecimalDigits.toDigits_spec 16).1⟩
    have plain : twice.IsPlain := form.isPlain rfl
    exact absurd plain.1 (by decide)

end HandlerGraph.Resources
