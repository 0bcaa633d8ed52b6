import HandlerGraph.SwitchNoise

/-! Which calls coverage confirms. A record confirms a call from the lowest node with its caller's
name; only where its signature has no node does the callee depend on the edges of the behavior. So a
behavior that has lost edges confirms every call it still has, and no record finds a caller there
that it did not find before. -/
namespace HandlerGraph

namespace SwitchCase

def Confirms (c : SwitchCase) (g : Graph) (raw : SortedSet Edge) (caller callee : Nat) : Prop :=
  ∃ signature, enclosingSignature c.callee = some signature ∧
    (g.idsNamed c.caller).head? = some caller ∧
    TakenCases.callee? g raw caller signature = some callee

def Inherits (c : SwitchCase) (g : Graph) (signature : String) : Prop :=
  enclosingSignature c.callee = some signature ∧ (g.idsNamed c.caller).head? = none

end SwitchCase

namespace TakenCases
variable {g : Graph} {raw kept : SortedSet Edge}

theorem mem_callers {t : TakenCases} {id : Nat} :
    id ∈ t.callers ↔ ∃ e ∈ t.calls, e.source = id := by
  simp only [callers, SortedSet.mem_ofList, List.mem_map]
  exact Iff.rfl

theorem mem_callees {t : TakenCases} {id : Nat} :
    id ∈ t.callees ↔ ∃ e ∈ t.calls, e.target = id := by
  simp only [callees, SortedSet.mem_ofList, List.mem_map]
  exact Iff.rfl

theorem mem_calls_add {t : TakenCases} {c : SwitchCase} {e : Edge} :
    e ∈ (add g raw t c).calls ↔
      e ∈ t.calls ∨ c.Confirms g raw e.source e.target ∧ e.relation = .call := by
  rw [add, SwitchCase.Confirms]
  cases enclosingSignature c.callee with
  | none => simp
  | some signature =>
    cases (g.idsNamed c.caller).head? with
    | none => simp
    | some caller =>
      simp only [Option.some.injEq, exists_eq_left']
      split
      · rename_i unknown
        constructor
        · exact Or.inl
        · rintro (old | ⟨⟨rfl, known⟩, _⟩)
          · exact old
          · rw [unknown] at known
            contradiction
      · rename_i callee known
        rw [SortedSet.mem_insert]
        constructor
        · rintro (rfl | old)
          · exact Or.inr ⟨⟨rfl, known⟩, rfl⟩
          · exact Or.inl old
        · rintro (old | ⟨⟨rfl, found⟩, call⟩)
          · exact Or.inr old
          · rw [known, Option.some.injEq] at found
            exact Or.inl (Edge.ext rfl found.symm call)

theorem mem_inherited_add {t : TakenCases} {c : SwitchCase} {signature : String} :
    signature ∈ (add g raw t c).inherited ↔ signature ∈ t.inherited ∨ c.Inherits g signature := by
  rw [add, SwitchCase.Inherits]
  cases enclosingSignature c.callee with
  | none => simp
  | some found =>
    cases (g.idsNamed c.caller).head? with
    | none => simp [or_comm, eq_comm]
    | some caller =>
      simp only
      split <;> simp

theorem mem_calls_foldl {t : TakenCases} {cases : List SwitchCase} {e : Edge} :
    e ∈ (cases.foldl (add g raw) t).calls ↔
      e ∈ t.calls ∨ (∃ c ∈ cases, c.Confirms g raw e.source e.target) ∧ e.relation = .call := by
  induction cases generalizing t with
  | nil => simp
  | cons c cases ih =>
    rw [List.foldl_cons, ih, mem_calls_add]
    simp only [List.mem_cons, exists_eq_or_imp]
    grind

theorem mem_inherited_foldl {t : TakenCases} {cases : List SwitchCase} {signature : String} :
    signature ∈ (cases.foldl (add g raw) t).inherited ↔
      signature ∈ t.inherited ∨ ∃ c ∈ cases, c.Inherits g signature := by
  induction cases generalizing t with
  | nil => simp
  | cons c cases ih =>
    rw [List.foldl_cons, ih, mem_inherited_add]
    simp only [List.mem_cons, exists_eq_or_imp, or_assoc]

theorem mem_calls_ofCases {cases : List SwitchCase} {e : Edge} :
    e ∈ (ofCases g raw cases).calls ↔
      (∃ c ∈ cases, c.Confirms g raw e.source e.target) ∧ e.relation = .call := by
  rw [ofCases, mem_calls_foldl]
  simp [empty]

theorem mem_inherited_ofCases {cases : List SwitchCase} {signature : String} :
    signature ∈ (ofCases g raw cases).inherited ↔ ∃ c ∈ cases, c.Inherits g signature := by
  rw [ofCases, mem_inherited_foldl]
  simp [empty]

theorem inherited_ofCases_congr (g : Graph) (raw kept : SortedSet Edge) (cases : List SwitchCase) :
    (ofCases g kept cases).inherited = (ofCases g raw cases).inherited := by
  refine SortedSet.ext_mem fun signature => ?_
  rw [mem_inherited_ofCases, mem_inherited_ofCases]

theorem mem_callers_ofCases {cases : List SwitchCase} {id : Nat} :
    id ∈ (ofCases g raw cases).callers ↔ ∃ c ∈ cases, ∃ callee, c.Confirms g raw id callee := by
  simp only [mem_callers, mem_calls_ofCases]
  constructor
  · rintro ⟨e, ⟨⟨c, mem, confirmed⟩, _⟩, rfl⟩
    exact ⟨c, mem, e.target, confirmed⟩
  · rintro ⟨c, mem, callee, confirmed⟩
    exact ⟨⟨id, callee, .call⟩, ⟨⟨c, mem, confirmed⟩, rfl⟩, rfl⟩

def Matches (g : Graph) (raw : SortedSet Edge) (caller : Nat) (signature : String) (id : Nat) :
    Prop :=
  (∃ e ∈ raw, e.source = caller ∧ e.target = id) ∧
    Text.occursIn (Text.fromFirst ':' signature.toList) (g.nameOf id).toList = true

theorem mem_matching {caller id : Nat} {signature : String} :
    id ∈ ((raw.toList.filter (·.source = caller)).map Edge.target).filter (fun id =>
      Text.occursIn (Text.fromFirst ':' signature.toList) (g.nameOf id).toList) ↔
      Matches g raw caller signature id := by
  simp only [List.mem_filter, List.mem_map, decide_eq_true_eq, Matches, SortedSet.mem_def,
    and_assoc]

theorem inheritedCallee?_eq_some_iff {caller id : Nat} {signature : String} :
    inheritedCallee? g raw caller signature = some id ↔
      Matches g raw caller signature id ∧
        ∀ other, Matches g raw caller signature other → id ≤ other := by
  simp only [inheritedCallee?, List.min?_eq_some_iff, mem_matching]

theorem inheritedCallee?_eq_none_iff {caller : Nat} {signature : String} :
    inheritedCallee? g raw caller signature = none ↔ ∀ id, ¬ Matches g raw caller signature id := by
  simp only [inheritedCallee?, List.min?_eq_none_iff, List.eq_nil_iff_forall_not_mem, mem_matching]

theorem Matches.mono (sub : ∀ e ∈ kept, e ∈ raw) {caller id : Nat} {signature : String}
    (h : Matches g kept caller signature id) : Matches g raw caller signature id := by
  obtain ⟨⟨e, mem, ends⟩, occurs⟩ := h
  exact ⟨⟨e, sub e mem, ends⟩, occurs⟩

end TakenCases

namespace SwitchCase
variable {g : Graph} {raw kept : SortedSet Edge} {c : SwitchCase} {caller callee : Nat}

/-- With fewer edges the lowest match may be another node, but there was a match before. -/
theorem Confirms.widen (sub : ∀ e ∈ kept, e ∈ raw) (h : c.Confirms g kept caller callee) :
    ∃ other, c.Confirms g raw caller other := by
  obtain ⟨signature, span, found, resolved⟩ := h
  cases named : (g.idsNamed signature).head? with
  | some id => exact ⟨id, signature, span, found, by rw [TakenCases.callee?, named]⟩
  | none =>
    rw [TakenCases.callee?, named] at resolved
    have here := ((TakenCases.inheritedCallee?_eq_some_iff.mp resolved).1).mono sub
    cases lowest : TakenCases.inheritedCallee? g raw caller signature with
    | none => exact absurd here (TakenCases.inheritedCallee?_eq_none_iff.mp lowest callee)
    | some id => exact ⟨id, signature, span, found, by rw [TakenCases.callee?, named]; exact lowest⟩

theorem Confirms.narrow (sub : ∀ e ∈ kept, e ∈ raw) {e : Edge} (still : e ∈ kept)
    (h : c.Confirms g raw e.source e.target) : c.Confirms g kept e.source e.target := by
  obtain ⟨signature, span, found, resolved⟩ := h
  refine ⟨signature, span, found, ?_⟩
  cases named : (g.idsNamed signature).head? with
  | some id =>
    rw [TakenCases.callee?, named] at resolved ⊢
    exact resolved
  | none =>
    rw [TakenCases.callee?, named] at resolved ⊢
    obtain ⟨here, least⟩ := TakenCases.inheritedCallee?_eq_some_iff.mp resolved
    exact TakenCases.inheritedCallee?_eq_some_iff.mpr
      ⟨⟨⟨e, still, rfl, rfl⟩, here.2⟩, fun other h => least other (h.mono sub)⟩

end SwitchCase

/-- A remaining edge that is confirmed, if its source is a confirmed caller, stays so with fewer
edges. -/
theorem TakenCases.calls_of_callers_mono {g : Graph} {raw kept : SortedSet Edge}
    {cases : List SwitchCase} (sub : ∀ e ∈ kept, e ∈ raw) {e : Edge} (still : e ∈ kept)
    (settled : e.source ∈ (ofCases g raw cases).callers → e ∈ (ofCases g raw cases).calls)
    (caller : e.source ∈ (ofCases g kept cases).callers) : e ∈ (ofCases g kept cases).calls := by
  obtain ⟨c, listed, callee, confirmed⟩ := mem_callers_ofCases.mp caller
  obtain ⟨other, before⟩ := confirmed.widen sub
  have call := settled (mem_callers_ofCases.mpr ⟨c, listed, other, before⟩)
  obtain ⟨⟨d, recorded, taken⟩, relation⟩ := mem_calls_ofCases.mp call
  exact mem_calls_ofCases.mpr ⟨⟨d, recorded, taken.narrow sub still⟩, relation⟩

end HandlerGraph
