import HandlerGraph.Proofs.EdgeText
import HandlerGraph.Proofs.SwitchNoise

/-! Coverage by element. The switch noise of a behavior is a function of the records that coverage
has for its trigger, and those are records of the trigger's own element: of the key for its layout if
there is one, else of the least key that has a record of the callback. Keys of other elements, also
of those whose number starts alike, never matter. -/
namespace HandlerGraph

/-- Texts in the order of their code points. -/
def Text.Precedes (a b : String) : Prop :=
  List.Lex (fun c d : Char => c.toNat < d.toNat) a.toList b.toList

theorem Text.Precedes.asymm {a b : String} (h : Precedes a b) (k : Precedes b a) : False :=
  String.lt_irrefl a (String.lt_trans h k)

namespace Coverage

def elementText (element : Int) : String := String.ofList (Numeral.decimalInt element)

def AgreeOn (element : Int) (first second : Coverage) : Prop :=
  ∀ key, elementOf key = elementText element → first.get? key = second.get? key

def Drives (c : Coverage) (element : Int) (callback key : String) : Prop :=
  elementOf key = elementText element ∧
    ∃ cases, c.get? key = some cases ∧ ∃ r ∈ cases, r.caller = callback

/-- The records that count for an element in a layout, known or not, with a callback. -/
inductive Selects (c : Coverage) (element : Int) (layout : Option Int) (callback : String) :
    List SwitchCase → Prop
  | own {id : Int} {cases : List SwitchCase} (known : layout = some id)
      (present : c.get? (compositeKey element id) = some cases) :
      Selects c element layout callback cases
  | substitute {key : String} {cases : List SwitchCase}
      (absent : ∀ id, layout = some id → c.get? (compositeKey element id) = none)
      (drives : c.Drives element callback key)
      (least : ∀ other, c.Drives element callback other → other = key ∨ Text.Precedes key other)
      (present : c.get? key = some cases) : Selects c element layout callback cases
  | nothing (absent : ∀ id, layout = some id → c.get? (compositeKey element id) = none)
      (idle : ∀ key, ¬ c.Drives element callback key) : Selects c element layout callback []

theorem dollar_not_mem_decimalInt (i : Int) : '$' ∉ Numeral.decimalInt i := by
  unfold Numeral.decimalInt
  have digits : '$' ∉ Numeral.decimal i.natAbs := fun h =>
    absurd (Numeral.isDigit_of_mem_decimal h) (by decide)
  split <;> simp [digits]

theorem elementOf_compositeKey (element layout : Int) :
    elementOf (compositeKey element layout) = elementText element := by
  unfold elementOf compositeKey elementText
  rw [String.toList_ofList, List.takeWhile_append_of_pos]
  · simp
  · intro c mem
    have other : c ≠ '$' := fun same => dollar_not_mem_decimalInt element (same ▸ mem)
    simp [other]

theorem Selects.unique {c : Coverage} {element : Int} {layout : Option Int} {callback : String}
    {cases others : List SwitchCase} (h : c.Selects element layout callback cases)
    (k : c.Selects element layout callback others) : cases = others := by
  cases h with
  | own known present =>
    cases k with
    | own known' present' =>
      obtain rfl := Option.some.inj (known.symm.trans known')
      exact Option.some.inj (present.symm.trans present')
    | substitute absent => simp [absent _ known] at present
    | nothing absent => simp [absent _ known] at present
  | substitute absent drives least present =>
    cases k with
    | own known present' => simp [absent _ known] at present'
    | @substitute key' _ _ drives' least' present' =>
      rcases least key' drives' with rfl | before
      · exact Option.some.inj (present.symm.trans present')
      · rcases least' _ drives with rfl | after
        · exact Option.some.inj (present.symm.trans present')
        · exact (before.asymm after).elim
    | nothing _ idle => exact absurd drives (idle _)
  | nothing absent idle =>
    cases k with
    | own known present' => simp [absent _ known] at present'
    | substitute _ drives => exact absurd drives (idle _)
    | nothing => rfl

section Agree
variable {first second : Coverage} {element : Int} (agree : AgreeOn element first second)
include agree

theorem AgreeOn.get?_compositeKey (layout : Int) :
    first.get? (compositeKey element layout) = second.get? (compositeKey element layout) :=
  agree _ (elementOf_compositeKey element layout)

theorem AgreeOn.drives_iff {callback key : String} :
    first.Drives element callback key ↔ second.Drives element callback key := by
  unfold Drives
  refine and_congr_right fun named => ?_
  rw [agree key named]

theorem AgreeOn.selects {layout : Option Int} {callback : String} {cases : List SwitchCase}
    (h : first.Selects element layout callback cases) :
    second.Selects element layout callback cases := by
  cases h with
  | own known present =>
    rw [agree.get?_compositeKey] at present
    exact .own known present
  | substitute absent drives least present =>
    simp only [agree.get?_compositeKey] at absent
    simp only [agree.drives_iff] at drives least
    rw [agree _ drives.1] at present
    exact .substitute absent drives least present
  | nothing absent idle =>
    simp only [agree.get?_compositeKey] at absent
    simp only [agree.drives_iff] at idle
    exact .nothing absent idle

end Agree

theorem agreeOn_of_ofElement {first second : Coverage} {element : Int}
    (same : first.ofElement (elementText element) = second.ofElement (elementText element)) :
    AgreeOn element first second := by
  intro key named
  have listed : ∀ (c : Coverage) (cases : List SwitchCase),
      c.get? key = some cases ↔ (key, cases) ∈ c.ofElement (elementText element) := by
    intro c cases
    simp [get?, SortedMap.get?_eq_some_iff, ofElement, named]
  refine Option.ext fun cases => ?_
  rw [listed, listed, same]

def isDriving (element : Int) (callback : String) (e : String × List SwitchCase) : Bool :=
  decide (elementOf e.1 = elementText element) && e.2.any (·.caller = callback)

theorem drives_iff_isDriving {c : Coverage} {element : Int} {callback key : String} :
    c.Drives element callback key ↔
      ∃ cases, (key, cases) ∈ c.cases.entries ∧ isDriving element callback (key, cases) = true := by
  simp only [Drives, isDriving, get?, SortedMap.get?_eq_some_iff, Bool.and_eq_true,
    decide_eq_true_eq, List.any_eq_true]
  constructor
  · rintro ⟨named, cases, present, fires⟩
    exact ⟨cases, present, named, fires⟩
  · rintro ⟨cases, present, named, fires⟩
    exact ⟨named, cases, present, fires⟩

theorem find?_ofElement (c : Coverage) (element : Int) (callback : String) :
    ((c.ofElement (elementText element)).find? fun e => e.2.any (·.caller = callback)) =
      c.cases.entries.find? (isDriving element callback) := by
  unfold ofElement
  rw [List.find?_filter]
  congr 1
  funext e
  simp only [isDriving, Bool.decide_and, Bool.decide_eq_true]

/-- Without an own key the first entry that drives the callback is taken, which has the least key. -/
theorem selects_find? {c : Coverage} {element : Int} {layout : Option Int} {callback : String}
    (absent : ∀ id, layout = some id → c.get? (compositeKey element id) = none) :
    c.Selects element layout callback
      (((c.cases.entries.find? (isDriving element callback)).map Prod.snd).getD []) := by
  cases found : c.cases.entries.find? (isDriving element callback) with
  | none =>
    refine .nothing absent fun key drives => ?_
    obtain ⟨cases, listed, fits⟩ := drives_iff_isDriving.mp drives
    exact List.find?_eq_none.mp found _ listed fits
  | some e =>
    obtain ⟨key, cases⟩ := e
    have listed := List.mem_of_find?_eq_some found
    have drives := drives_iff_isDriving.mpr ⟨cases, listed, List.find?_some found⟩
    refine .substitute absent drives ?_ (SortedMap.get?_eq_some_iff.mpr listed)
    intro other drives
    obtain ⟨records, listed, fits⟩ := drives_iff_isDriving.mp drives
    rcases SortedMap.eq_or_lt_of_find? found listed fits with same | less
    · exact Or.inl (congrArg Prod.fst same)
    · exact Or.inr less

end Coverage

namespace Graph
open Coverage

def layoutId? (g : Graph) (resources : Resources) (control : Nat) : Option Int :=
  ((g.node? control).bind Node.layoutName).bind resources.layoutId?

theorem selects_switchCases {g : Graph} {control : Nat} {element : Int}
    (trigger : (g.node? control).bind Node.elementId = some element) (c : Coverage)
    (resources : Resources) (callback : Nat) :
    c.Selects element (g.layoutId? resources control) (g.nameOf callback)
      (g.switchCases c resources control callback) := by
  unfold switchCases
  simp only [trigger]
  rw [← layoutId?]
  cases own : (g.layoutId? resources control).bind fun id => c.get? (compositeKey element id) with
  | some cases =>
    obtain ⟨id, known, present⟩ := Option.bind_eq_some_iff.mp own
    exact .own known present
  | none =>
    have absent : ∀ id, g.layoutId? resources control = some id →
        c.get? (compositeKey element id) = none := by
      intro id known
      simpa only [known, Option.bind_some] using own
    have first := @selects_find? c element _ (g.nameOf callback) absent
    rw [← find?_ofElement] at first
    exact first

def noiseOf (g : Graph) (raw : RawBehavior) (base : SortedSet Edge) (cases : List SwitchCase) :
    SwitchNoise :=
  let taken := TakenCases.ofCases g raw.edges cases
  ⟨((untakenCases taken base).foldl (Sweep.strike raw.edges taken.callees)
    ⟨.empty, [], .empty⟩).removed, taken.inherited⟩

theorem switchNoise_eq_noiseOf (g : Graph) (coverage : Coverage) (resources : Resources)
    (raw : RawBehavior) (base : SortedSet Edge) :
    g.switchNoise coverage resources raw base =
      g.noiseOf raw base (g.switchCases coverage resources raw.control raw.callback) := by
  have fields : g.switchNoise coverage resources raw base =
      ⟨(g.switchNoise coverage resources raw base).removed,
        (g.switchNoise coverage resources raw base).inherited⟩ := rfl
  rw [fields, removed_switchNoise, inherited_switchNoise]
  rfl

/-- Coverage counts only by the keys of the trigger's own element, and of those only by the records
selected for its layout and callback. -/
theorem switchNoise_of_own_coverage (g : Graph) (resources : Resources) (raw : RawBehavior)
    (base : SortedSet Edge) (element : Int)
    (trigger : (g.node? raw.control).bind Node.elementId = some element) :
    (∀ first second, AgreeOn element first second →
      g.switchNoise first resources raw base = g.switchNoise second resources raw base) ∧
    ∀ coverage : Coverage,
      (∃ cases, coverage.Selects element (g.layoutId? resources raw.control)
        (g.nameOf raw.callback) cases) ∧
      ∀ cases, coverage.Selects element (g.layoutId? resources raw.control)
          (g.nameOf raw.callback) cases →
        g.switchCases coverage resources raw.control raw.callback = cases ∧
        g.switchNoise coverage resources raw base = g.noiseOf raw base cases := by
  constructor
  · intro first second agree
    have moved := agree.selects (selects_switchCases trigger first resources raw.callback)
    have same := (selects_switchCases trigger second resources raw.callback).unique moved
    rw [switchNoise_eq_noiseOf, switchNoise_eq_noiseOf, same]
  · intro coverage
    have located := selects_switchCases trigger coverage resources raw.callback
    refine ⟨⟨_, located⟩, fun cases selected => ?_⟩
    have used := located.unique selected
    exact ⟨used, by rw [switchNoise_eq_noiseOf, used]⟩

def toolbarNodes : List Node :=
  [.widget "Button" "main.xml" (-7), .method "<app.Main: void onClick()>" "-",
    .method "<app.Main: void show()>" "-", .method "<app.Main: void hide()>" "-"]

def toolbar : Graph := start toolbarNodes []

def toolbarBehavior : RawBehavior :=
  .ofEdges 0 1 (.ofList [⟨0, 1, .event⟩, ⟨1, 2, .call⟩, ⟨1, 3, .call⟩]) .empty

/-- Records of the control under a key without a layout and under two layouts other than its own. -/
def toolbarEntries : List (String × List SwitchCase) :=
  [("-7", [⟨"<app.Main: void show()>", "<app.Main: void hide()>"⟩]),
    ("-7$2", [⟨"<app.Main: void onClick()>", "<app.Main: void show()>"⟩]),
    ("-7$3", [⟨"<app.Main: void onClick()>", "<app.Main: void hide()>"⟩])]

/-- Records of other controls whose keys look alike. -/
def neighborEntries : List (String × List SwitchCase) :=
  [("7$1", [⟨"<app.Main: void onClick()>", "<app.Main: void hide()>"⟩]),
    ("-70$1", [⟨"<app.Main: void onClick()>", "<app.Main: void hide()>"⟩]),
    ("-7 $1", [⟨"<app.Main: void onClick()>", "<app.Main: void hide()>"⟩])]

theorem removed_toolbar : (toolbar.noiseOf toolbarBehavior toolbarBehavior.edges
    [⟨"<app.Main: void onClick()>", "<app.Main: void show()>"⟩]).removed =
      .ofList [⟨1, 3, .call⟩] := by
  have untaken : untakenCases (TakenCases.ofCases toolbar toolbarBehavior.edges
      [⟨"<app.Main: void onClick()>", "<app.Main: void show()>"⟩]) toolbarBehavior.edges =
      [⟨1, 3, .call⟩] := by decide +kernel
  simp only [noiseOf, untaken, List.foldl_cons, List.foldl_nil, Sweep.strike]
  rw [Sweep.run_of_pop_last rfl (by decide +kernel)]
  decide +kernel

theorem switchNoise_of_own_coverage_toolbar :
    let alone : Coverage := ⟨.ofList toolbarEntries⟩
    let crowded : Coverage := ⟨.ofList (neighborEntries ++ toolbarEntries)⟩
    let resources := Resources.empty.insert "main" 1
    (toolbar.node? toolbarBehavior.control).bind Node.elementId = some (-7) ∧
      AgreeOn (-7) alone crowded ∧
      toolbar.switchNoise alone resources toolbarBehavior toolbarBehavior.edges =
        toolbar.switchNoise crowded resources toolbarBehavior toolbarBehavior.edges ∧
      toolbar.switchNoise crowded resources toolbarBehavior toolbarBehavior.edges =
        toolbar.noiseOf toolbarBehavior toolbarBehavior.edges
          [⟨"<app.Main: void onClick()>", "<app.Main: void show()>"⟩] ∧
      (toolbar.switchNoise crowded resources toolbarBehavior toolbarBehavior.edges).removed =
        .ofList [⟨1, 3, .call⟩] := by
  intro alone crowded resources
  have trigger : (toolbar.node? toolbarBehavior.control).bind Node.elementId = some (-7) := rfl
  have agree : AgreeOn (-7) alone crowded := agreeOn_of_ofElement (by decide +kernel)
  have used : toolbar.switchCases crowded resources toolbarBehavior.control
      toolbarBehavior.callback = [⟨"<app.Main: void onClick()>", "<app.Main: void show()>"⟩] := by
    decide +kernel
  obtain ⟨same, records⟩ := switchNoise_of_own_coverage toolbar resources toolbarBehavior
    toolbarBehavior.edges (-7) trigger
  obtain ⟨⟨cases, selected⟩, decided⟩ := records crowded
  obtain ⟨found, noise⟩ := decided cases selected
  rw [← found, used] at noise
  exact ⟨trigger, agree, same alone crowded agree, noise, noise ▸ removed_toolbar⟩

end Graph
end HandlerGraph
