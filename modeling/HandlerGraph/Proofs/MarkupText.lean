import HandlerGraph.Markup.Attribute
import Mathlib.Data.List.Basic
import Mathlib.Data.List.TakeWhile

/-! Markup as it is written. A value stands in quotes of either kind with the five special characters
by their names, so nothing in it can end the quotes, the tag or an entity; blanks separate the
attributes. Whatever the values are, the tags of such a text are found in order, and each gives back
its attributes. -/
namespace HandlerGraph.Markup

def entities : List (Char × List Char) :=
  [('&', "amp".toList), ('<', "lt".toList), ('>', "gt".toList), ('"', "quot".toList),
    ('\'', "apos".toList)]

def escapeChar (c : Char) : List Char :=
  match entities.find? (·.1 = c) with
  | some e => '&' :: (e.2 ++ [';'])
  | none => [c]

def escape (value : List Char) : List Char := value.flatMap escapeChar

theorem entity?_of_mem : ∀ e ∈ entities, entity? e.2 = some e.1 ∧
    e.2.all (fun d => d ≠ ';' && d ≠ '&') = true := by decide

theorem unescape?_entity {e : Char × List Char} (mem : e ∈ entities) (rest : List Char) :
    unescape? ('&' :: (e.2 ++ ';' :: rest)) = (unescape? rest).map (e.1 :: ·) := by
  obtain ⟨known, plain⟩ := entity?_of_mem e mem
  have name : (e.2 ++ ';' :: rest).takeWhile (fun d => d ≠ ';' && d ≠ '&') = e.2 := by
    rw [List.takeWhile_append_of_pos (List.all_eq_true.mp plain)]
    simp
  rw [unescape?, if_pos rfl]
  simp only [name, List.drop_left, List.head?_cons, if_true, known, Option.bind_some]
  rw [← List.drop_drop, List.drop_left, List.drop_one, List.tail_cons]

theorem unescape?_escapeChar (c : Char) (rest : List Char) :
    unescape? (escapeChar c ++ rest) = (unescape? rest).map (c :: ·) := by
  rw [escapeChar]
  cases found : entities.find? (·.1 = c) with
  | some e =>
    have same : e.1 = c := by simpa using List.find?_some found
    have entity := unescape?_entity (List.mem_of_find?_eq_some found) rest
    simpa [same] using entity
  | none =>
    have other : ¬ c = '&' := by
      rintro rfl
      cases found
    rw [List.singleton_append, unescape?, if_neg other]

theorem unescape?_escape (value : List Char) : unescape? (escape value) = some value := by
  induction value with
  | nil => rw [escape, List.flatMap_nil, unescape?]
  | cons c value ih =>
    rw [escape] at ih
    rw [escape, List.flatMap_cons, unescape?_escapeChar, ih, Option.map_some]

def IsQuote (q : Char) : Prop := q = '"' ∨ q = '\''

theorem quote_not_mem_escape {q : Char} (quote : IsQuote q) (value : List Char) :
    q ∉ escape value := by
  intro mem
  obtain ⟨c, -, inside⟩ := List.mem_flatMap.mp mem
  rw [escapeChar] at inside
  split at inside
  · rename_i e found
    have plain : ∀ e ∈ entities, '"' ∉ '&' :: (e.2 ++ [';']) ∧ '\'' ∉ '&' :: (e.2 ++ [';']) := by
      decide
    obtain ⟨double, single⟩ := plain e (List.mem_of_find?_eq_some found)
    rcases quote with rfl | rfl
    · exact double inside
    · exact single inside
  · rename_i found
    rw [List.mem_singleton] at inside
    subst inside
    rcases quote with rfl | rfl <;> cases found

section TagLength
variable {n : Nat} {rest : List Char}

/-- Text that neither ends a tag nor leaves a quote open. -/
def Passes (cs : List Char) : Prop :=
  ∀ n rest, tagLength none n (cs ++ rest) = tagLength none (n + cs.length) rest

theorem Passes.append {cs ds : List Char} (first : Passes cs) (second : Passes ds) :
    Passes (cs ++ ds) := by
  intro n rest
  rw [List.append_assoc, first, second, List.length_append, Nat.add_assoc]

theorem passes_flatMap {α : Type} {f : α → List Char} {l : List α} (h : ∀ a ∈ l, Passes (f a)) :
    Passes (l.flatMap f) := by
  induction l with
  | nil => exact fun n rest => rfl
  | cons a l ih =>
    rw [List.forall_mem_cons] at h
    exact h.1.append (ih h.2)

theorem passes_plain {cs : List Char} (plain : ∀ c ∈ cs, c ≠ '>' ∧ ¬ IsQuote c) : Passes cs := by
  intro n rest
  induction cs generalizing n with
  | nil => rfl
  | cons c cs ih =>
    rw [List.forall_mem_cons] at plain
    obtain ⟨⟨open_, quote⟩, others⟩ := plain
    rw [IsQuote, not_or] at quote
    rw [List.cons_append, tagLength]
    simp only [open_, quote, decide_false, Bool.or_self, Bool.false_eq_true, if_false]
    rw [ih others, List.length_cons, Nat.add_assoc, Nat.add_comm 1]

theorem tagLength_quoted {q : Char} {value : List Char} (closed : q ∉ value) :
    tagLength (some q) n (value ++ q :: rest) = tagLength none (n + value.length + 1) rest := by
  induction value generalizing n with
  | nil => simp [tagLength]
  | cons c value ih =>
    rw [List.mem_cons, not_or] at closed
    rw [List.cons_append, tagLength]
    simp only [Ne.symm closed.1, if_false]
    rw [ih closed.2, List.length_cons]
    congr 1
    omega

theorem passes_quoted {q : Char} (quote : IsQuote q) {value : List Char} (closed : q ∉ value) :
    Passes (q :: (value ++ [q])) := by
  intro n rest
  have opens : (q = '"' || q = '\'') = true := by simpa [IsQuote] using quote
  have inside : q ≠ '>' := by rcases quote with rfl | rfl <;> decide
  rw [List.cons_append, tagLength]
  simp only [inside, if_false, opens, if_true]
  rw [List.append_assoc, List.singleton_append, tagLength_quoted closed]
  simp only [List.length_cons, List.length_append, List.length_nil]
  congr 1
  omega

end TagLength

def AreBlank (cs : List Char) : Prop := ∀ c ∈ cs, isBlank c = true

instance decidableAreBlank (cs : List Char) : Decidable (AreBlank cs) :=
  decidable_of_iff (cs.all isBlank = true) List.all_eq_true

theorem AreBlank.passes {cs : List Char} (blank : AreBlank cs) : Passes cs := by
  refine passes_plain fun c mem => ?_
  have this := blank c mem
  constructor
  · rintro rfl
    cases this
  · rintro (rfl | rfl) <;> cases this

/-- A name of an element or a key: no blanks, and nothing that belongs to a tag. -/
structure IsWord (word : List Char) : Prop where
  ne_nil : word ≠ []
  plain : ∀ c ∈ word, isBlank c = false ∧ c ∉ ['=', '>', '/', '!', '?', '"', '\'']

instance decidableIsWord (word : List Char) : Decidable (IsWord word) :=
  decidable_of_iff (word ≠ [] ∧ word.all (fun c => isBlank c = false ∧
    c ∉ ['=', '>', '/', '!', '?', '"', '\'']) = true)
    ⟨fun h => ⟨h.1, fun c mem => of_decide_eq_true (List.all_eq_true.mp h.2 c mem)⟩,
      fun h => ⟨h.ne_nil, List.all_eq_true.mpr fun c mem => decide_eq_true (h.plain c mem)⟩⟩

theorem IsWord.passes {word : List Char} (h : IsWord word) : Passes word := by
  refine passes_plain fun c mem => ?_
  have others := (h.plain c mem).2
  simp only [List.mem_cons, List.not_mem_nil, or_false, not_or] at others
  exact ⟨others.2.1, fun quote => by rcases quote with rfl | rfl <;> simp at others⟩

section Attributes
variable {seen : List (List Char)} {input rest raw remaining : List Char} {c : Char}

-- The definition keeps the equations that its termination needs, so its matches are split by hand.
theorem attributes?_blank (blank : AreBlank input) : attributes? seen input = some [] := by
  have nothing : skipBlanks input = [] := List.dropWhile_eq_nil_iff.mpr blank
  rw [attributes?.eq_def]
  split
  · rfl
  · rename_i found
    rw [nothing] at found
    cases found

theorem attributes?_cons (start : skipBlanks input = c :: rest)
    (value : assigned? (rest.dropWhile fun d => d ≠ '=' && !isBlank d) = some (raw, remaining)) :
    attributes? seen input =
      if seen.contains (c :: rest.takeWhile fun d => d ≠ '=' && !isBlank d) then none
      else (unescape? raw).bind fun value =>
        (attributes? ((c :: rest.takeWhile fun d => d ≠ '=' && !isBlank d) :: seen) remaining).map
          (⟨c :: rest.takeWhile fun d => d ≠ '=' && !isBlank d, value⟩ :: ·) := by
  rw [attributes?.eq_def]
  split
  · rename_i nothing
    rw [start] at nothing
    cases nothing
  · rename_i d more found
    rw [start] at found
    obtain ⟨rfl, rfl⟩ := List.cons.inj found
    simp only
    split
    · rename_i missing
      rw [value] at missing
      cases missing
    · rename_i read
      rw [value] at read
      obtain ⟨rfl, rfl⟩ := Prod.mk.inj (Option.some.inj read)
      rfl

end Attributes

structure Field where
  gap : List Char
  key : List Char
  value : List Char
  quote : Char
  gap_ne_nil : gap ≠ []
  gap_blank : AreBlank gap
  key_word : IsWord key
  quote_mark : IsQuote quote

namespace Field
variable (f : Field)

def toAttribute : Attribute := ⟨f.key, f.value⟩

def text : List Char :=
  f.gap ++ (f.key ++ '=' :: f.quote :: (escape f.value ++ [f.quote]))

theorem passes : Passes f.text := by
  have sign : Passes ['='] := passes_plain (by simp [IsQuote])
  have value : Passes (f.quote :: (escape f.value ++ [f.quote])) :=
    passes_quoted f.quote_mark (quote_not_mem_escape f.quote_mark _)
  exact f.gap_blank.passes.append (f.key_word.passes.append (sign.append value))

theorem getLast?_text : f.text.getLast? = some f.quote := by
  have ends : f.text = f.gap ++ (f.key ++ '=' :: f.quote :: escape f.value) ++ [f.quote] := by
    simp [text]
  rw [ends, List.getLast?_concat]

theorem skipBlanks_text (rest : List Char) : skipBlanks (f.text ++ rest) =
    f.key ++ '=' :: f.quote :: (escape f.value ++ f.quote :: rest) := by
  obtain ⟨c, key, first⟩ := List.exists_cons_of_ne_nil f.key_word.ne_nil
  have begins : isBlank c = false := (f.key_word.plain c (by simp [first])).1
  rw [skipBlanks, text, first, List.append_assoc, List.dropWhile_append_of_pos f.gap_blank]
  simp [begins]

theorem assigned?_text (rest : List Char) :
    assigned? ('=' :: f.quote :: (escape f.value ++ f.quote :: rest)) =
      some (escape f.value, rest) := by
  have closed := quote_not_mem_escape f.quote_mark f.value
  have opens : (f.quote = '"' || f.quote = '\'') = true := by
    simpa [IsQuote] using f.quote_mark
  have near : isBlank f.quote = false := by
    rcases f.quote_mark with mark | mark <;> rw [mark] <;> rfl
  have value : (escape f.value ++ f.quote :: rest).takeWhile (· ≠ f.quote) =
      escape f.value := by
    rw [List.takeWhile_append_of_pos]
    · simp
    · intro c mem
      have other : c ≠ f.quote := fun same => closed (same ▸ mem)
      simpa using other
  have sign : skipBlanks ('=' :: f.quote :: (escape f.value ++ f.quote :: rest)) =
      '=' :: f.quote :: (escape f.value ++ f.quote :: rest) := rfl
  have mark : skipBlanks (f.quote :: (escape f.value ++ f.quote :: rest)) =
      f.quote :: (escape f.value ++ f.quote :: rest) := by
    simp [skipBlanks, near]
  rw [assigned?, sign]
  simp only [mark, quotedValue?, opens, if_true, value]
  rw [if_pos (by simp), ← List.drop_drop, List.drop_left]
  rfl

theorem attributes?_text {seen : List (List Char)} (fresh : f.key ∉ seen)
    (rest : List Char) : attributes? seen (f.text ++ rest) =
      (attributes? (f.key :: seen) rest).map (f.toAttribute :: ·) := by
  obtain ⟨c, key, first⟩ := List.exists_cons_of_ne_nil f.key_word.ne_nil
  have begins : skipBlanks (f.text ++ rest) =
      c :: (key ++ '=' :: f.quote :: (escape f.value ++ f.quote :: rest)) := by
    rw [f.skipBlanks_text, first, List.cons_append]
  have plain : ∀ d ∈ key, (d ≠ '=' && !isBlank d) = true := by
    intro d mem
    have word := f.key_word.plain d (by simp [first, mem])
    simp_all
  have ends : (key ++ '=' :: f.quote :: (escape f.value ++ f.quote :: rest)).takeWhile
      (fun d => d ≠ '=' && !isBlank d) = key := by
    rw [List.takeWhile_append_of_pos plain]
    simp
  have after : (key ++ '=' :: f.quote :: (escape f.value ++ f.quote :: rest)).dropWhile
      (fun d => d ≠ '=' && !isBlank d) =
        '=' :: f.quote :: (escape f.value ++ f.quote :: rest) := by
    rw [List.dropWhile_append_of_pos plain]
    simp
  have value := f.assigned?_text rest
  rw [← after] at value
  rw [attributes?_cons begins value, ends, ← first, if_neg (by simpa using fresh), unescape?_escape]
  rfl

end Field

def inside (fields : List Field) (tail : List Char) : List Char :=
  fields.flatMap Field.text ++ tail

section Inside
variable {fields : List Field} {tail : List Char}

theorem attributes?_inside {seen : List (List Char)} (blank : AreBlank tail)
    (distinct : (fields.map Field.key).Nodup) (fresh : ∀ f ∈ fields, f.key ∉ seen) :
    attributes? seen (inside fields tail) = some (fields.map Field.toAttribute) := by
  induction fields generalizing seen with
  | nil => exact attributes?_blank blank
  | cons f fields ih =>
    rw [List.map_cons, List.nodup_cons] at distinct
    rw [List.forall_mem_cons] at fresh
    have later : ∀ g ∈ fields, g.key ∉ f.key :: seen := by
      intro g mem
      rw [List.mem_cons, not_or]
      refine ⟨fun same => distinct.1 ?_, fresh.2 g mem⟩
      rw [← same]
      exact List.mem_map_of_mem mem
    have rest := ih distinct.2 later
    rw [inside] at rest
    rw [inside, List.flatMap_cons, List.append_assoc, f.attributes?_text fresh.1, rest]
    rfl

theorem passes_inside (blank : AreBlank tail) : Passes (inside fields tail) :=
  (passes_flatMap fun f _ => f.passes).append blank.passes

theorem head?_inside (blank : AreBlank tail) :
    ∀ c ∈ (inside fields tail).head?, isBlank c = true := by
  intro c first
  cases fields with
  | nil => exact blank c (List.mem_of_head? first)
  | cons f fields =>
    rw [inside, List.flatMap_cons, Field.text, List.append_assoc, List.append_assoc,
      List.head?_append_of_ne_nil _ f.gap_ne_nil] at first
    exact f.gap_blank c (List.mem_of_head? first)

theorem getLast?_inside (blank : AreBlank tail) :
    ∀ c ∈ (inside fields tail).getLast?, isBlank c = true ∨ IsQuote c := by
  intro c last
  rw [inside, List.getLast?_append] at last
  rcases List.eq_nil_or_concat tail with rfl | ⟨more, d, rfl⟩
  · rcases List.eq_nil_or_concat fields with rfl | ⟨others, f, rfl⟩
    · cases last
    · have quote : f.quote = c := by
        simpa [List.getLast?_append, f.getLast?_text] using last
      exact Or.inr (quote ▸ f.quote_mark)
  · have same : d = c := by simpa using last
    exact Or.inl (blank c (by simp [same]))

end Inside

section Scan
variable {name tail text : List Char} {fields : List Field} {opened : List (List Char)}
  {found : List Tag}

theorem ofContent_inside (word : IsWord name) (blank : AreBlank tail) :
    Tag.ofContent (name ++ inside fields tail) = ⟨name, inside fields tail⟩ := by
  have plain : ∀ c ∈ name, (!isBlank c) = true := fun c mem => by simp [(word.plain c mem).1]
  have stops : ∀ c ∈ (inside fields tail).head?, isBlank c = true := head?_inside blank
  rw [Tag.ofContent, List.takeWhile_append_of_pos plain, List.dropWhile_append_of_pos plain]
  cases shape : inside fields tail with
  | nil => simp
  | cons c rest =>
    rw [shape] at stops
    simp [stops c rfl]

theorem ofElement_inside (word : IsWord name) (blank : AreBlank tail) :
    ofElement (name ++ inside fields tail) = .opening ⟨name, inside fields tail⟩ := by
  have ends : (name ++ inside fields tail).getLast? ≠ some '/' := by
    rw [List.getLast?_append]
    intro slash
    rcases Option.or_eq_some_iff.mp slash with last | ⟨-, last⟩
    · rcases getLast?_inside blank '/' last with h | h | h <;> cases h
    · have plain := (word.plain '/' (List.mem_of_getLast? last)).2
      simp at plain
  rw [ofElement]
  split
  · rename_i slash
    exact absurd slash ends
  · rw [ofContent_inside word blank]

theorem ofElement_slash (word : IsWord name) (blank : AreBlank tail) :
    ofElement (name ++ inside fields tail ++ ['/']) = .empty ⟨name, inside fields tail⟩ := by
  rw [ofElement, List.getLast?_concat, List.dropLast_concat]
  simp only [ofContent_inside word blank]

theorem piece?_tag (word : IsWord name) {more : List Char} (passes : Passes (name ++ more))
    (rest : List Char) : piece? (name ++ more ++ '>' :: rest) =
      some (ofElement (name ++ more), (name ++ more).length + 1) := by
  obtain ⟨c, others, shape⟩ := List.exists_cons_of_ne_nil word.ne_nil
  have plain := (word.plain c (by simp [shape])).2
  simp only [List.mem_cons, List.not_mem_nil, or_false, not_or] at plain
  have element : piece? (name ++ more ++ '>' :: rest) =
      (tagLength none 0 (name ++ more ++ '>' :: rest)).map fun n =>
        (ofElement ((name ++ more ++ '>' :: rest).take n), n + 1) := by
    rw [shape, List.cons_append, List.cons_append, piece?]
    all_goals simp_all
  rw [element, passes, Nat.zero_add, tagLength]
  simp only [if_true, Option.map_some, List.take_left]

theorem scan_text (outside : '<' ∉ text) (rest : List Char) :
    scan opened found (text ++ rest) = scan opened found rest := by
  induction text with
  | nil => rfl
  | cons c text ih =>
    rw [List.mem_cons, not_or] at outside
    rw [List.cons_append, scan, if_pos (Ne.symm outside.1), ih outside.2]

theorem scan_opening (word : IsWord name) (blank : AreBlank tail) (rest : List Char) :
    scan opened found ('<' :: (name ++ inside fields tail ++ '>' :: rest)) =
      scan (name :: opened) (⟨name, inside fields tail⟩ :: found) rest := by
  have passes : Passes (name ++ inside fields tail) := word.passes.append (passes_inside blank)
  rw [scan, if_neg (by simp), piece?_tag word passes, ofElement_inside word blank]
  simp only
  rw [← List.drop_drop, List.drop_left]
  rfl

theorem scan_empty (word : IsWord name) (blank : AreBlank tail) (rest : List Char) :
    scan opened found ('<' :: (name ++ inside fields tail ++ '/' :: '>' :: rest)) =
      scan opened (⟨name, inside fields tail⟩ :: found) rest := by
  have slash : Passes ['/'] := passes_plain (by simp [IsQuote])
  have passes : Passes (name ++ (inside fields tail ++ ['/'])) :=
    word.passes.append ((passes_inside blank).append slash)
  have parts : name ++ inside fields tail ++ '/' :: '>' :: rest =
      name ++ (inside fields tail ++ ['/']) ++ '>' :: rest := by simp
  have element : ofElement (name ++ (inside fields tail ++ ['/'])) =
      .empty ⟨name, inside fields tail⟩ := by
    rw [← List.append_assoc, ofElement_slash word blank]
  rw [scan, if_neg (by simp), parts, piece?_tag word passes, element]
  simp only
  rw [← List.drop_drop, List.drop_left]
  rfl

theorem closingName_word (word : IsWord name) : closingName name = name := by
  have plain : ∀ c ∈ name.reverse, isBlank c = false :=
    fun c mem => (word.plain c (List.mem_reverse.mp mem)).1
  have whole : name.reverse.dropWhile isBlank = name.reverse := by
    cases shape : name.reverse with
    | nil => rfl
    | cons c more =>
      rw [shape] at plain
      simp [plain c List.mem_cons_self]
  rw [closingName, whole, List.reverse_reverse]
  simp

theorem scan_closing (word : IsWord name) (rest : List Char) :
    scan (name :: opened) found ('<' :: '/' :: (name ++ '>' :: rest)) = scan opened found rest := by
  have slash : Passes ['/'] := passes_plain (by simp [IsQuote])
  have length : tagLength none 0 ('/' :: (name ++ '>' :: rest)) = some (name.length + 1) := by
    have passed := (slash.append word.passes) 0 ('>' :: rest)
    rw [List.singleton_append, List.cons_append] at passed
    rw [passed, tagLength]
    simp
  have piece : piece? ('/' :: (name ++ '>' :: rest)) = some (.closing name, name.length + 2) := by
    rw [piece?, length, Option.map_some, List.take_succ_cons, List.take_left, List.drop_one,
      List.tail_cons, closingName_word word]
  rw [scan, if_neg (by simp), piece]
  simp only [if_true]
  rw [List.drop_succ_cons, ← List.drop_drop, List.drop_left]
  rfl

theorem lengthUpTo_append {mark passed cs : List Char} {least : Nat} (within : '>' ∉ cs)
    (rest : List Char) : lengthUpTo mark least passed (cs ++ rest) =
      lengthUpTo mark least (cs.reverse ++ passed) rest := by
  induction cs generalizing passed with
  | nil => rfl
  | cons c cs ih =>
    rw [List.mem_cons, not_or] at within
    rw [List.cons_append, lengthUpTo]
    simp only [Ne.symm within.1, decide_false, Bool.false_and, Bool.false_eq_true, if_false]
    rw [ih within.2, List.reverse_cons, List.append_assoc, List.singleton_append]

theorem scan_instruction (within : '>' ∉ text) (rest : List Char) :
    scan opened found ('<' :: '?' :: (text ++ '?' :: '>' :: rest)) = scan opened found rest := by
  have parts : '?' :: (text ++ '?' :: '>' :: rest) = ('?' :: (text ++ ['?'])) ++ '>' :: rest := by
    simp
  have length : lengthUpTo ['?'] 0 [] ('?' :: (text ++ '?' :: '>' :: rest)) =
      some (text.length + 2) := by
    rw [parts, lengthUpTo_append (by simp [within]), lengthUpTo]
    simp
  have piece : piece? ('?' :: (text ++ '?' :: '>' :: rest)) =
      some (.passedOver, text.length + 2 + 1) := by
    rw [piece?, length, Option.bind_some, passIf, if_pos]
    rw [decide_eq_true_eq, List.length_take]
    simp only [List.length_cons, List.length_append]
    omega
  rw [scan, if_neg (by simp), piece]
  simp only
  rw [parts, ← List.drop_drop, List.drop_left' (by simp)]
  rfl

end Scan

structure Head where
  name : List Char
  fields : List Field
  tail : List Char
  name_word : IsWord name
  distinct : (fields.map Field.key).Nodup
  tail_blank : AreBlank tail

namespace Head
variable (h : Head)

def toTag : Tag := ⟨h.name, inside h.fields h.tail⟩

def text : List Char := h.name ++ inside h.fields h.tail

def attributes : List Attribute := h.fields.map Field.toAttribute

theorem attributes?_toTag : attributes? [] h.toTag.inside = some h.attributes :=
  attributes?_inside h.tail_blank h.distinct fun _ _ => List.not_mem_nil

end Head

/-- An element that holds no others, with the text before it: an empty tag, or two tags around some
text. -/
structure Leaf extends Head where
  lead : List Char
  content : Option (List Char)
  lead_outside : '<' ∉ lead
  content_outside : ∀ text ∈ content, '<' ∉ text

namespace Leaf
variable (e : Leaf)

def ending : List Char :=
  match e.content with
  | none => ['/', '>']
  | some content => '>' :: (content ++ '<' :: '/' :: (e.name ++ ['>']))

def text : List Char := e.lead ++ '<' :: (e.toHead.text ++ e.ending)

variable {opened : List (List Char)} {found : List Tag}

theorem scan_leaf (rest : List Char) :
    scan opened found (e.text ++ rest) = scan opened (e.toTag :: found) rest := by
  rw [text, List.append_assoc, scan_text e.lead_outside, List.cons_append, List.append_assoc,
    Head.text, ending]
  cases content : e.content with
  | none => exact scan_empty e.name_word e.tail_blank rest
  | some inner =>
    simp only [List.cons_append, List.append_assoc, List.nil_append]
    rw [← List.append_assoc, scan_opening e.name_word e.tail_blank,
      scan_text (e.content_outside inner content), scan_closing e.name_word]
    rfl

theorem scan_leaves (leaves : List Leaf) (rest : List Char) :
    scan opened found (leaves.flatMap text ++ rest) =
      scan opened ((leaves.map fun e => e.toTag).reverse ++ found) rest := by
  induction leaves generalizing found with
  | nil => rfl
  | cons e leaves ih =>
    rw [List.flatMap_cons, List.append_assoc, scan_leaf, ih, List.map_cons, List.reverse_cons,
      List.append_assoc, List.singleton_append]

end Leaf

/-- What stands around the elements of a document: perhaps a declaration, and an outer element. -/
structure Frame extends Head where
  declaration : Option (List Char)
  lead : List Char
  last : List Char
  trail : List Char
  declaration_within : ∀ text ∈ declaration, '>' ∉ text
  lead_outside : '<' ∉ lead
  last_outside : '<' ∉ last
  trail_outside : '<' ∉ trail

namespace Frame
variable (f : Frame)

def opening : List Char :=
  match f.declaration with
  | none => f.lead
  | some declaration => '<' :: '?' :: (declaration ++ '?' :: '>' :: f.lead)

def around (leaves : List Leaf) : List Char :=
  f.opening ++ '<' :: (f.toHead.text ++ '>' ::
    (leaves.flatMap Leaf.text ++ (f.last ++ '<' :: '/' :: (f.name ++ '>' :: f.trail))))

theorem scan_opening (rest : List Char) : scan [] [] (f.opening ++ rest) = scan [] [] rest := by
  rw [opening]
  cases declaration : f.declaration with
  | none => exact scan_text f.lead_outside rest
  | some text =>
    simp only [List.cons_append, List.append_assoc]
    rw [scan_instruction (f.declaration_within text declaration), scan_text f.lead_outside]

end Frame

/-- A byte order mark is passed over like other text outside the tags. -/
theorem tags_eq_scan (text : List Char) : tags text = scan [] [] text := by
  cases text with
  | nil => rfl
  | cons c rest =>
    rw [tags]
    split
    · rename_i mark
      have outside : c ≠ '<' := by
        rintro rfl
        cases mark
      rw [scan, if_pos outside]
    · rfl

theorem tags_around (f : Frame) (leaves : List Leaf) :
    tags (f.around leaves) = ⟨f.toTag :: leaves.map fun e => e.toTag, true⟩ := by
  rw [tags_eq_scan, Frame.around, f.scan_opening, Head.text, scan_opening f.name_word f.tail_blank,
    Leaf.scan_leaves, scan_text f.last_outside, scan_closing f.name_word,
    ← List.append_nil f.trail, scan_text f.trail_outside, scan]
  simp [Head.toTag]

end HandlerGraph.Markup
