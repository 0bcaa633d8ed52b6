import HandlerGraph.Interest
import Mathlib.Data.List.Infix

/-! Labels and keywords in normal form. What occurs in a label as it stands occurs in it after both
are normalized, so of the two comparisons only the normalized one counts, unless nothing is left of a
keyword. Widgets whose labels have the same normal forms are therefore judged alike. -/
namespace HandlerGraph

/-- Dropping characters and spelling out each remaining one on its own keeps what is adjacent
adjacent, also where a small letter is longer than its capital. -/
theorem normalize_infix {word label : String} (inside : word.toList <:+: label.toList) :
    normalize word <:+: normalize label := by
  obtain ⟨before, after, whole⟩ := inside
  refine ⟨(before.filter Text.isAlphanumeric).flatMap Text.lowerChar,
    (after.filter Text.isAlphanumeric).flatMap Text.lowerChar, ?_⟩
  unfold normalize
  rw [← whole, List.filter_append, List.filter_append, List.flatMap_append, List.flatMap_append]

def WidgetText.normalForms (w : WidgetText) : List (List Char) := w.labels.map normalize

def Graph.widgetText? (g : Graph) (texts : WidgetTexts) (control : Nat) : Option WidgetText :=
  (g.node? control).bind fun n =>
    n.elementId.bind fun element =>
      texts.lookup n.layoutFile (String.ofList (Numeral.decimalInt element))

namespace Interest
variable {i : Interest}

/-- A keyword of which nothing is left by normalization is looked for as it stands. -/
theorem labelMatches_iff {label : String} : i.labelMatches label = true ↔
    ∃ w ∈ i.texts.words, if normalize w = [] then w.toList <:+: label.toList
      else normalize w <:+: normalize label := by
  unfold labelMatches Keywords.occurIn
  simp only [Bool.or_eq_true, List.any_eq_true, List.mem_map, Bool.and_eq_true,
    Bool.not_eq_true', List.isEmpty_eq_false_iff, Text.occursIn_iff]
  constructor
  · rintro (⟨w, listed, exact⟩ | ⟨_, ⟨w, listed, rfl⟩, worded, inside⟩)
    · refine ⟨w, listed, ?_⟩
      split
      · exact exact
      · exact normalize_infix exact
    · exact ⟨w, listed, by rwa [if_neg worded]⟩
  · rintro ⟨w, listed, inside⟩
    split at inside
    · exact Or.inl ⟨w, listed, inside⟩
    · rename_i worded
      exact Or.inr ⟨_, ⟨w, listed, rfl⟩, worded, inside⟩

theorem keepsControl_eq (g : Graph) (texts : WidgetTexts) (control : Nat) :
    i.keepsControl g texts control =
      (i.texts.isEmpty || (g.widgetText? texts control).any (·.labels.any i.labelMatches)) := by
  unfold keepsControl Graph.widgetText?
  cases g.node? control with
  | none => rfl
  | some n =>
    simp only [Option.bind_some]
    cases n.elementId with
    | none => rfl
    | some element =>
      simp only [Option.bind_some]
      cases texts.lookup n.layoutFile (String.ofList (Numeral.decimalInt element)) <;> rfl

def formMatches (i : Interest) (form : List Char) : Bool :=
  i.texts.words.any fun w => Text.occursIn (normalize w) form

section Worded
variable (worded : ∀ w ∈ i.texts.words, normalize w ≠ [])
include worded

theorem labelMatches_eq_formMatches (label : String) :
    i.labelMatches label = i.formMatches (normalize label) := by
  rw [Bool.eq_iff_iff, labelMatches_iff]
  simp only [formMatches, List.any_eq_true, Text.occursIn_iff]
  refine exists_congr fun w => and_congr_right fun listed => ?_
  rw [if_neg (worded w listed)]

theorem any_labelMatches (w : WidgetText) :
    w.labels.any i.labelMatches = w.normalForms.any i.formMatches := by
  unfold WidgetText.normalForms
  rw [List.any_map]
  congr 1
  funext label
  exact labelMatches_eq_formMatches worded label

theorem keepsControl_eq_formMatches (g : Graph) (texts : WidgetTexts) (control : Nat) :
    i.keepsControl g texts control = (i.texts.isEmpty ||
      ((g.widgetText? texts control).map WidgetText.normalForms).any (·.any i.formMatches)) := by
  rw [keepsControl_eq]
  cases g.widgetText? texts control with
  | none => rfl
  | some w => simp only [Option.map_some, Option.any_some, any_labelMatches worded]

end Worded

/-- If every keyword has a normal form, labels count only by theirs. -/
theorem labels_compared_normalized (i : Interest) (worded : ∀ w ∈ i.texts.words, normalize w ≠ []) :
    (∀ label, i.labelMatches label = true ↔
      ∃ w ∈ i.texts.words, normalize w <:+: normalize label) ∧
    ∀ (g : Graph) (control : Nat) (first second : WidgetTexts),
      (g.widgetText? first control).map WidgetText.normalForms =
        (g.widgetText? second control).map WidgetText.normalForms →
      i.keepsControl g first control = i.keepsControl g second control := by
  constructor
  · intro label
    rw [labelMatches_eq_formMatches worded]
    simp only [formMatches, List.any_eq_true, Text.occursIn_iff]
  · intro g control first second alike
    rw [keepsControl_eq_formMatches worded, keepsControl_eq_formMatches worded, alike]

/-- The first letter of the second word is one character as a capital and two as a small letter. -/
def leaving : Interest := ⟨.ofList ["log out", "İptal"], .none⟩

def leavingGraph : Graph := .start [.widget "Button" "main.xml" 7] []

def leavingTexts (layout label : String) : WidgetTexts :=
  WidgetTexts.empty.insert layout "7" ⟨some label, none⟩

theorem labels_compared_normalized_leaving :
    (∀ w ∈ leaving.texts.words, normalize w ≠ []) ∧
      leaving.texts.occurIn "(İ-P-T-A-L)" = false ∧
      leaving.labelMatches "(İ-P-T-A-L)" = true ∧
      (leavingGraph.widgetText? (leavingTexts "main.xml" "İptal") 0).map WidgetText.normalForms =
        (leavingGraph.widgetText? (leavingTexts "old.xml" "(İ-P-T-A-L)") 0).map
          WidgetText.normalForms ∧
      leaving.keepsControl leavingGraph (leavingTexts "main.xml" "İptal") 0 =
        leaving.keepsControl leavingGraph (leavingTexts "old.xml" "(İ-P-T-A-L)") 0 := by
  have worded : ∀ w ∈ leaving.texts.words, normalize w ≠ [] := by decide +kernel
  have alike : (leavingGraph.widgetText? (leavingTexts "main.xml" "İptal") 0).map
      WidgetText.normalForms =
      (leavingGraph.widgetText? (leavingTexts "old.xml" "(İ-P-T-A-L)") 0).map
        WidgetText.normalForms := by decide +kernel
  obtain ⟨normalized, judged⟩ := labels_compared_normalized leaving worded
  refine ⟨worded, by decide +kernel, (normalized _).mpr ⟨"İptal", ?_, ?_⟩, alike,
    judged _ _ _ _ alike⟩
  · decide +kernel
  · exact Text.occursIn_iff.mp (by decide +kernel)

end Interest
end HandlerGraph
