import HandlerGraph.Signature
import Mathlib.Data.List.TakeWhile

/-! The first balanced span of a text. A scan starts at the first opening bracket with its counter at
zero, counts every bracket up or down, and stops where the counter is back at zero. The counter never
goes below zero, and what the scan has passed when it stops is the shortest non-empty text from the
first opening bracket on with as many opening as closing brackets. -/
namespace HandlerGraph

namespace Brackets

def turn (depth : Int) (c : Char) : Int :=
  if c = '<' then depth + 1 else if c = '>' then depth - 1 else depth

/-- Where a counter that starts at `depth` stands after a whole text. -/
def level (depth : Int) (text : List Char) : Int := depth + text.count '<' - text.count '>'

/-- The values that the counter takes, one for each character passed, and the span that closes. -/
structure Scan where
  counters : List Int
  span? : Option (List Char)

/-- A scan whose counter has a sign, so that nothing keeps it from going below zero. -/
def scan : Int → List Char → Scan
  | _, [] => ⟨[], none⟩
  | depth, c :: rest =>
    if c = '>' ∧ turn depth c = 0 then ⟨[0], some [c]⟩
    else
      let later := scan (turn depth c) rest
      ⟨turn depth c :: later.counters, later.span?.map (c :: ·)⟩

def IsBalanced (text : List Char) : Prop := text ≠ [] ∧ text.count '<' = text.count '>'

/-- The shortest balanced text that `text` starts with. -/
structure IsFirstBalanced (text span : List Char) : Prop where
  start : span <+: text
  balanced : IsBalanced span
  shortest : ∀ other, other <+: text → IsBalanced other → span.length ≤ other.length

@[simp] theorem level_nil (depth : Int) : level depth [] = depth := by
  simp [level]

@[simp] theorem level_cons (depth : Int) (c : Char) (text : List Char) :
    level depth (c :: text) = level (turn depth c) text := by
  unfold level turn
  by_cases opening : c = '<'
  · subst opening
    rw [List.count_cons_self, List.count_cons_of_ne (by decide), if_pos rfl]
    omega
  · by_cases closing : c = '>'
    · subst closing
      rw [List.count_cons_self, List.count_cons_of_ne opening, if_neg opening, if_pos rfl]
      omega
    · rw [List.count_cons_of_ne opening, List.count_cons_of_ne closing, if_neg opening,
        if_neg closing]

theorem level_append (depth : Int) (before after : List Char) :
    level depth (before ++ after) = level (level depth before) after := by
  induction before generalizing depth with
  | nil => simp
  | cons c before ih => simp [ih]

theorem isBalanced_iff {text : List Char} : IsBalanced text ↔ text ≠ [] ∧ level 0 text = 0 := by
  unfold IsBalanced level
  refine and_congr_right fun _ => ?_
  omega

/-- An open counter reaches zero only by a closing bracket, and passes no value in between. -/
theorem turn_pos_or_closes {depth : Int} (opened : 0 < depth) (c : Char) :
    0 < turn depth c ∨ c = '>' ∧ turn depth c = 0 := by
  unfold turn
  split
  · exact Or.inl (by omega)
  · split
    · rename_i closing
      by_cases last : depth = 1
      · exact Or.inr ⟨closing, by omega⟩
      · exact Or.inl (by omega)
    · exact Or.inl opened

theorem scan_closes {depth : Int} {c : Char} (closes : c = '>' ∧ turn depth c = 0)
    (rest : List Char) : scan depth (c :: rest) = ⟨[0], some [c]⟩ := by
  rw [scan, if_pos closes]

theorem scan_open {depth : Int} {c : Char} (inside : 0 < turn depth c) (rest : List Char) :
    scan depth (c :: rest) =
      ⟨turn depth c :: (scan (turn depth c) rest).counters,
        (scan (turn depth c) rest).span?.map (c :: ·)⟩ := by
  rw [scan, if_neg]
  rintro ⟨-, zero⟩
  omega

theorem counters_nonneg {depth : Int} (opened : 0 < depth) (text : List Char) :
    ∀ value ∈ (scan depth text).counters, 0 ≤ value := by
  -- the counter stays above zero up to the step that ends the scan
  induction text generalizing depth with
  | nil => simp [scan]
  | cons c rest ih =>
    rcases turn_pos_or_closes opened c with inside | closes
    · rw [scan_open inside]
      simp only [List.forall_mem_cons]
      exact ⟨by omega, ih inside⟩
    · simp [scan_closes closes]

theorem level_pos_of_span?_none {depth : Int} (opened : 0 < depth) {text : List Char}
    (unclosed : (scan depth text).span? = none) {start : List Char} (h : start <+: text) :
    0 < level depth start := by
  induction text generalizing depth start with
  | nil =>
    rw [List.prefix_nil] at h
    simpa [h] using opened
  | cons c rest ih =>
    rcases turn_pos_or_closes opened c with inside | closes
    · rw [scan_open inside, Option.map_eq_none_iff] at unclosed
      rcases List.prefix_cons_iff.mp h with rfl | ⟨start, rfl, later⟩
      · simpa using opened
      · rw [level_cons]
        exact ih inside unclosed later
    · simp [scan_closes closes] at unclosed

theorem level_of_span?_some {depth : Int} (opened : 0 < depth) {text span : List Char}
    (closed : (scan depth text).span? = some span) :
    span <+: text ∧ level depth span = 0 ∧
      ∀ start, start <+: span → start ≠ span → 0 < level depth start := by
  induction text generalizing depth span with
  | nil => simp [scan] at closed
  | cons c rest ih =>
    rcases turn_pos_or_closes opened c with inside | closes
    · rw [scan_open inside, Option.map_eq_some_iff] at closed
      obtain ⟨tail, closed, rfl⟩ := closed
      obtain ⟨within, zero, before⟩ := ih inside closed
      refine ⟨List.cons_prefix_cons.mpr ⟨rfl, within⟩, by rw [level_cons, zero], ?_⟩
      intro start h proper
      rcases List.prefix_cons_iff.mp h with rfl | ⟨start, rfl, later⟩
      · simpa using opened
      · rw [level_cons]
        exact before start later fun same => proper (by rw [same])
    · rw [scan_closes closes, Option.some.injEq] at closed
      subst closed
      refine ⟨List.cons_prefix_cons.mpr ⟨rfl, List.nil_prefix⟩, by simp [closes.2], ?_⟩
      intro start h proper
      rcases List.prefix_cons_iff.mp h with rfl | ⟨start, rfl, later⟩
      · simpa using opened
      · exact absurd (by rw [List.prefix_nil.mp later]) proper

/-- An unsigned counter that starts above zero does the same: its guard is never reached. -/
theorem closingSpan_eq (depth : Nat) (text : List Char) :
    closingSpan (depth + 1) text = (scan (depth + 1 : Nat) text).span? := by
  induction text generalizing depth with
  | nil => rfl
  | cons c rest ih =>
    unfold closingSpan
    by_cases opening : c = '<'
    · have up : turn ((depth + 1 : Nat) : Int) c = ((depth + 1 + 1 : Nat) : Int) := by
        simp [turn, opening]
      rw [scan_open (by omega), if_pos opening, up, ih]
    · by_cases closing : c = '>'
      · have down : turn ((depth + 1 : Nat) : Int) c = (depth : Int) := by
          simp [turn, closing]
        rw [if_neg opening, if_pos closing]
        cases depth with
        | zero => rw [scan_closes ⟨closing, down⟩]
        | succ depth =>
          rw [scan_open (by omega), down]
          exact congrArg (Option.map (c :: ·)) (ih depth)
      · have level : turn ((depth + 1 : Nat) : Int) c = ((depth + 1 : Nat) : Int) := by
          simp [turn, opening, closing]
        rw [scan_open (by omega), if_neg opening, if_neg closing, level, ih]

def opened (text : String) : List Char := text.toList.dropWhile (· ≠ '<')

theorem opened_eq_nil_iff {text : String} : opened text = [] ↔ '<' ∉ text.toList := by
  simp only [opened, List.dropWhile_eq_nil_iff, decide_eq_true_eq]
  exact ⟨fun h mem => h _ mem rfl, fun h c mem same => h (same ▸ mem)⟩

theorem opened_cases (text : String) : opened text = [] ∨ ∃ rest, opened text = '<' :: rest := by
  cases h : opened text with
  | nil => exact Or.inl rfl
  | cons c rest =>
    have first := List.head?_dropWhile_not (fun c => decide (c ≠ '<')) text.toList
    rw [← opened, h] at first
    exact Or.inr ⟨rest, by simpa using first⟩

theorem opened_append {before : String} (bare : '<' ∉ before.toList) (text : String) :
    opened (before ++ text) = opened text := by
  unfold opened
  rw [String.toList_append, List.dropWhile_append_of_pos]
  intro c mem
  have other : c ≠ '<' := fun same => bare (same ▸ mem)
  simp [other]

theorem opened_of_cons {text : String} {rest : List Char} (first : text.toList = '<' :: rest) :
    opened text = text.toList := by
  simp [opened, first]

theorem span?_some {rest span : List Char} (closed : (scan 0 ('<' :: rest)).span? = some span) :
    span <+: '<' :: rest ∧ IsBalanced span ∧
      ∀ start, start <+: span → start ≠ [] → start ≠ span → 0 < level 0 start := by
  rw [scan_open (by decide), Option.map_eq_some_iff] at closed
  obtain ⟨tail, closed, rfl⟩ := closed
  obtain ⟨within, zero, before⟩ := level_of_span?_some (by decide) closed
  refine ⟨List.cons_prefix_cons.mpr ⟨rfl, within⟩,
    isBalanced_iff.mpr ⟨List.cons_ne_nil _ _, by rw [level_cons, zero]⟩, ?_⟩
  intro start h some_bracket proper
  rcases List.prefix_cons_iff.mp h with rfl | ⟨start, rfl, later⟩
  · contradiction
  · rw [level_cons]
    exact before start later fun same => proper (by rw [same])

theorem not_isBalanced_of_span?_none {rest start : List Char}
    (unclosed : (scan 0 ('<' :: rest)).span? = none) (h : start <+: '<' :: rest) :
    ¬ IsBalanced start := by
  rw [scan_open (by decide), Option.map_eq_none_iff] at unclosed
  rw [isBalanced_iff]
  rintro ⟨some_bracket, zero⟩
  rcases List.prefix_cons_iff.mp h with rfl | ⟨start, rfl, later⟩
  · contradiction
  · have := level_pos_of_span?_none (by decide) unclosed later
    rw [level_cons] at zero
    omega

theorem isFirstBalanced_of_open {text span : List Char} (within : span <+: text)
    (balanced : IsBalanced span)
    (before : ∀ start, start <+: span → start ≠ [] → start ≠ span → 0 < level 0 start) :
    IsFirstBalanced text span := by
  refine ⟨within, balanced, fun other h even => ?_⟩
  by_contra shorter
  have inside : other <+: span := List.prefix_of_prefix_length_le h within (by omega)
  obtain ⟨some_bracket, zero⟩ := isBalanced_iff.mp even
  have := before other inside some_bracket fun same => shorter (by rw [same])
  omega

theorem IsFirstBalanced.unique {text first second : List Char} (h : IsFirstBalanced text first)
    (k : IsFirstBalanced text second) : first = second := by
  have same : first.length = second.length :=
    Nat.le_antisymm (h.shortest second k.start k.balanced) (k.shortest first h.start h.balanced)
  exact (List.prefix_of_prefix_length_le h.start k.start same.le).eq_of_length same

theorem IsFirstBalanced.extend {text span : List Char} (h : IsFirstBalanced text span)
    (after : List Char) : IsFirstBalanced (span ++ after) span := by
  refine ⟨List.prefix_append _ _, h.balanced, fun other k even => ?_⟩
  by_contra shorter
  have inside : other <+: span :=
    List.prefix_of_prefix_length_le k (List.prefix_append _ _) (by omega)
  exact shorter (h.shortest other (inside.trans h.start) even)

theorem counters_opened_nonneg (text : String) :
    ∀ value ∈ (scan 0 (opened text)).counters, 0 ≤ value := by
  rcases opened_cases text with bare | ⟨rest, first⟩
  · simp [bare, scan]
  · rw [first, scan_open (by decide)]
    simp only [List.forall_mem_cons]
    exact ⟨by decide, counters_nonneg (by decide) rest⟩

end Brackets

open Brackets

theorem enclosingSignature_eq_scan (text : String) :
    enclosingSignature text = (scan 0 (opened text)).span?.map String.ofList := by
  unfold enclosingSignature
  rw [← opened]
  rcases opened_cases text with bare | ⟨rest, first⟩
  · rw [bare]
    rfl
  · rw [first, scan_open (by decide)]
    simp only [closingSpan_eq 0 rest, Option.map_map]
    rfl

theorem enclosingSignature_eq_none_iff {text : String} :
    enclosingSignature text = none ↔ ∀ start, start <+: opened text → ¬ IsBalanced start := by
  rw [enclosingSignature_eq_scan, Option.map_eq_none_iff]
  rcases opened_cases text with bare | ⟨rest, first⟩
  · simp [bare, scan, IsBalanced]
  · rw [first]
    constructor
    · exact fun unclosed start h => not_isBalanced_of_span?_none unclosed h
    · intro h
      rw [Option.eq_none_iff_forall_ne_some]
      intro span closed
      obtain ⟨within, balanced, -⟩ := span?_some closed
      exact h span within balanced

theorem isFirstBalanced_of_enclosingSignature {text span : String}
    (h : enclosingSignature text = some span) :
    IsFirstBalanced (opened text) span.toList ∧
      ∀ start, start <+: span.toList → start ≠ [] → start ≠ span.toList → 0 < level 0 start := by
  rw [enclosingSignature_eq_scan, Option.map_eq_some_iff] at h
  obtain ⟨found, closed, rfl⟩ := h
  rw [String.toList_ofList]
  rcases opened_cases text with bare | ⟨rest, first⟩
  · simp [bare, scan] at closed
  · rw [first] at closed ⊢
    obtain ⟨within, balanced, before⟩ := span?_some closed
    exact ⟨isFirstBalanced_of_open within balanced before, before⟩

theorem enclosingSignature_eq_some_iff {text span : String} :
    enclosingSignature text = some span ↔ IsFirstBalanced (opened text) span.toList := by
  constructor
  · exact fun h => (isFirstBalanced_of_enclosingSignature h).1
  · intro h
    cases found : enclosingSignature text with
    | none => exact absurd h.balanced (enclosingSignature_eq_none_iff.mp found _ h.start)
    | some other =>
      have same := (isFirstBalanced_of_enclosingSignature found).1.unique h
      rw [String.toList_inj.mp same]

section Found
variable {text span : String}

theorem starts_enclosingSignature (h : enclosingSignature text = some span) :
    ∃ tail, span.toList = '<' :: tail := by
  obtain ⟨within, ⟨some_bracket, -⟩, -⟩ := enclosingSignature_eq_some_iff.mp h
  rcases opened_cases text with bare | ⟨rest, first⟩
  · rw [bare, List.prefix_nil] at within
    contradiction
  · rw [first] at within
    rcases List.prefix_cons_iff.mp within with empty | ⟨tail, listed, -⟩
    · contradiction
    · exact ⟨tail, listed⟩

theorem ends_enclosingSignature (h : enclosingSignature text = some span) :
    ∃ body, span = body ++ ">" := by
  obtain ⟨first, before⟩ := isFirstBalanced_of_enclosingSignature h
  obtain ⟨some_bracket, zero⟩ := isBalanced_iff.mp first.balanced
  obtain ⟨tail, listed⟩ := starts_enclosingSignature h
  rcases List.eq_nil_or_concat tail with rfl | ⟨body, c, rfl⟩
  · simp [listed, turn] at zero
  · have whole : span.toList = ('<' :: body) ++ [c] := by simp [listed]
    have inside : 0 < level 0 ('<' :: body) := by
      refine before _ (whole ▸ List.prefix_append _ _) (List.cons_ne_nil _ _) ?_
      simp [whole]
    rw [whole, level_append, level_cons, level_nil] at zero
    rcases turn_pos_or_closes inside c with higher | ⟨rfl, -⟩
    · omega
    · refine ⟨String.ofList ('<' :: body), String.toList_inj.mp ?_⟩
      rw [whole, String.toList_append, String.toList_ofList]
      rfl

/-- Neither bracket-free text before the span nor any text after it changes what is found. -/
theorem enclosingSignature_surrounded (h : enclosingSignature text = some span) {before : String}
    (bare : '<' ∉ before.toList) (after : String) :
    enclosingSignature (before ++ span ++ after) = some span := by
  obtain ⟨tail, listed⟩ := starts_enclosingSignature h
  have first : (span ++ after).toList = '<' :: (tail ++ after.toList) := by simp [listed]
  rw [enclosingSignature_eq_some_iff, String.append_assoc, opened_append bare,
    opened_of_cons first, String.toList_append]
  exact (enclosingSignature_eq_some_iff.mp h).extend after.toList

end Found

/-- What is found is the first balanced text from the first opening bracket on, by a scan whose
counter never goes below zero; and it is found again alone and wherever no bracket opens before it. -/
theorem enclosingSignature_first_balanced (text : String) :
    (enclosingSignature text = (scan 0 (opened text)).span?.map String.ofList ∧
      ∀ value ∈ (scan 0 (opened text)).counters, 0 ≤ value) ∧
    (∀ span, enclosingSignature text = some span ↔
      IsFirstBalanced (opened text) span.toList) ∧
    (enclosingSignature text = none ↔
      '<' ∉ text.toList ∨ ∀ start, start <+: opened text → ¬ IsBalanced start) ∧
    ∀ span, enclosingSignature text = some span →
      (∃ body, span = body ++ ">") ∧
      (∀ start, start <+: span.toList → start ≠ [] → start ≠ span.toList →
        start.count '>' < start.count '<') ∧
      (∀ before after : String, '<' ∉ before.toList →
        enclosingSignature (before ++ span ++ after) = some span) ∧
      enclosingSignature span = some span := by
  refine ⟨⟨enclosingSignature_eq_scan text, counters_opened_nonneg text⟩,
    fun span => enclosingSignature_eq_some_iff, ?_, ?_⟩
  · rw [enclosingSignature_eq_none_iff]
    refine ⟨Or.inr, ?_⟩
    rintro (bare | unbalanced)
    · intro start h
      rw [opened_eq_nil_iff.mpr bare, List.prefix_nil] at h
      exact fun balanced => balanced.1 h
    · exact unbalanced
  · intro span h
    refine ⟨ends_enclosingSignature h, ?_,
      fun before after bare => enclosingSignature_surrounded h bare after, ?_⟩
    · intro start within some_bracket proper
      have more := (isFirstBalanced_of_enclosingSignature h).2 start within some_bracket proper
      unfold level at more
      omega
    · have bare : '<' ∉ "".toList := by simp
      simpa using enclosingSignature_surrounded h bare ""

example : enclosingSignature "r0.<A: void <init>(int)>(1 > 0)" = some "<A: void <init>(int)>" := by
  decide

end HandlerGraph
