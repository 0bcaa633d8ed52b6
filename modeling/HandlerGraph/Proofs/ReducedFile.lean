import HandlerGraph.Proofs.RawFile
import HandlerGraph.Proofs.SecondsText
import Mathlib.Data.List.TakeWhile

/-! Files of reduced behaviors. A written file reads back entry by entry if every number fits its
field and every time survives its own text: the header as a header, each behavior as a behavior, an
absent option as absent and a present one as present. Before an entry is taken apart it is checked as
a whole, numbers and all, and whatever is written passes that check. -/
namespace HandlerGraph

namespace Seconds

/-- A finite number that its text is read back as. -/
def Survives (t : Seconds) : Prop :=
  (Binary.ofFloat? t).isSome = true ∧ ofLexeme? (Text.encode (render t)) = some t

instance decidableSurvives (t : Seconds) : Decidable (Survives t) :=
  inferInstanceAs (Decidable (_ ∧ _))

theorem le_foldl_digits (digits : List UInt8) (n : Nat) :
    n ≤ digits.foldl (fun n b => n * 10 + digitOf b) n := by
  induction digits generalizing n with
  | nil => exact Nat.le_refl n
  | cons b digits ih =>
    have further := ih (n * 10 + digitOf b)
    rw [List.foldl_cons]
    omega

theorem gatherWhole_eq {digits : List UInt8} {s : Significand}
    (fits : digits.foldl (fun n b => n * 10 + digitOf b) s.word < 0x10000000000000000) :
    gatherWhole s digits =
      ⟨digits.foldl (fun n b => n * 10 + digitOf b) s.word, s.exponent⟩ := by
  induction digits generalizing s with
  | nil => rfl
  | cons b digits ih =>
    rw [List.foldl_cons] at fits
    have grows := le_foldl_digits digits (s.word * 10 + digitOf b)
    have room : s.fits (digitOf b) = true := by
      simp only [Significand.fits, decide_eq_true_eq]
      omega
    rw [gatherWhole, if_pos room, ih fits, List.foldl_cons]

theorem ofLexeme?_digitBytes {n : Nat} (fits : n < 0x10000000000000000) :
    ofLexeme? (Json.digitBytes n) = some (UInt64.ofNat n).toFloat := by
  have digits := List.all_eq_true.mp (Json.all_isDigit_digitBytes n)
  have value := Json.foldl_digitBytes n
  have taken : (Json.digitBytes n).takeWhile Json.Token.isDigit = Json.digitBytes n :=
    List.takeWhile_eq_self_iff.mpr digits
  have dropped : (Json.digitBytes n).dropWhile Json.Token.isDigit = [] :=
    List.dropWhile_eq_nil_iff.mpr digits
  have gathered := @gatherWhole_eq (Json.digitBytes n) ⟨0, 0⟩ (by rw [value]; exact fits)
  have unsigned : ofUnsigned? (Json.digitBytes n) = some (UInt64.ofNat n).toFloat := by
    simp [ofUnsigned?, taken, dropped, gathered, value, gatherFraction, scaleByTen]
  rw [ofLexeme?]
  · exact unsigned
  · intro rest sign
    have first := digits 45 (by simp [sign])
    cases first

end Seconds

namespace Json

theorem areSound_iff {depth : Nat} {items : List Json} :
    areSound depth items = true ↔ ∀ v ∈ items, isSound depth v = true := by
  induction items with
  | nil => simp [areSound]
  | cons v items ih => simp [areSound, ih]

theorem isSound_record {depth : Nat} {fields : List (String × Json)} :
    isSound (depth + 1) (record fields) = true ↔ ∀ f ∈ fields, isSound depth f.2 = true := by
  rw [record, isSound]
  induction fields with
  | nil => simp [fieldsAreSound]
  | cons f fields ih => simp [fieldsAreSound, ih]

theorem isSound_map {α : Type} {depth : Nat} {write : α → Json} {l : List α}
    (sound : ∀ a ∈ l, isSound depth (write a) = true) :
    isSound (depth + 1) (array (l.map write)) = true := by
  rw [isSound, areSound_iff]
  simpa using sound

theorem isSound_ofNat {n depth : Nat} (fits : n < 0x10000000000000000) :
    isSound depth (ofNat n) = true := by
  rw [ofNat_eq, isSound, Seconds.ofLexeme?_digitBytes fits]
  rfl

theorem isSound_ofString (s : String) (depth : Nat) : isSound depth (ofString s) = true := by
  rw [ofString, isSound, decodeBody?_escape]
  rfl

end Json

theorem namesOfJson?_namesToJson (names : SortedSet String) :
    namesOfJson? (namesToJson names) = some names := by
  have each : ∀ s : String, (Json.ofString s).text? = if True then some s else none := by simp
  rw [namesOfJson?, namesToJson, Json.arrayOf?, Json.items?, Option.bind_some, Json.mapM_map each,
    if_pos fun _ _ => trivial, Option.map_some, SortedSet.ofList_toList]

theorem seconds?_secondsToJson {t : Seconds} (survives : Seconds.Survives t) :
    (secondsToJson t).seconds? = some t := survives.2

theorem written_secondsToJson {t : Seconds} (survives : Seconds.Survives t) :
    (secondsToJson t).Written := .number (Seconds.isNumber_render survives.1)

theorem isSound_secondsToJson {t : Seconds} (survives : Seconds.Survives t) (depth : Nat) :
    Json.isSound depth (secondsToJson t) = true := by
  rw [secondsToJson, Json.isSound, survives.2]
  rfl

theorem optional?_ofNat {n : Nat} (fits : n < 0x10000000000000000) :
    Json.optional? Json.natural? (.ofNat n) = some (some n) := by
  have present : Json.optional? Json.natural? (.ofNat n) = (Json.ofNat n).natural?.map some := rfl
  rw [present, Json.natural?_ofNat, if_pos fits]
  rfl

theorem optional?_namesToJson (names : SortedSet String) :
    Json.optional? namesOfJson? (namesToJson names) = some (some names) := by
  have present : Json.optional? namesOfJson? (namesToJson names) =
      (namesOfJson? (namesToJson names)).map some := rfl
  rw [present, namesOfJson?_namesToJson]
  rfl

namespace ReductionReport

def Fits (r : ReductionReport) : Prop :=
  r.switchNoise < 0x10000000000000000 ∧ ∀ n ∈ r.deadLeaves, n < 0x10000000000000000

instance decidableFits (r : ReductionReport) : Decidable r.Fits :=
  inferInstanceAs (Decidable (_ ∧ _))

variable {r : ReductionReport}

theorem ofJson?_toJson (fits : r.Fits) (survives : Seconds.Survives r.time) :
    ofJson? r.toJson = some r := by
  obtain ⟨time, switchNoise, deadLeaves⟩ := r
  have clock := seconds?_secondsToJson survives
  have noise := Json.natural?_ofNat switchNoise
  rw [if_pos fits.1] at noise
  rw [ofJson?, toJson, Json.record?_record]
  cases deadLeaves with
  | none => simp [Json.pick?, Json.required?, Json.defaulted?, clock, noise]
  | some n =>
    have leaves := optional?_ofNat (fits.2 n rfl)
    simp [Json.pick?, Json.required?, Json.defaulted?, clock, noise, leaves]

theorem written_toJson (survives : Seconds.Survives r.time) : r.toJson.Written := by
  refine Json.written_record ?_
  simp only [List.mem_append, List.mem_cons, List.not_mem_nil, or_false, List.mem_map]
  rintro f ((rfl | rfl) | ⟨n, -, rfl⟩)
  · exact written_secondsToJson survives
  · exact Json.written_ofNat _
  · exact Json.written_ofNat _

theorem isSound_toJson (fits : r.Fits) (survives : Seconds.Survives r.time) (depth : Nat) :
    r.toJson.isSound (depth + 1) = true := by
  refine Json.isSound_record.mpr ?_
  simp only [List.mem_append, List.mem_cons, List.not_mem_nil, or_false, List.mem_map]
  rintro f ((rfl | rfl) | ⟨n, listed, rfl⟩)
  · exact isSound_secondsToJson survives depth
  · exact Json.isSound_ofNat fits.1
  · exact Json.isSound_ofNat (fits.2 n (Option.mem_toList.mp listed))

end ReductionReport

namespace ReducedBehavior

structure Fits (b : ReducedBehavior) : Prop where
  control : b.control < 0x10000000000000000
  callback : b.callback < 0x10000000000000000
  size : b.size.Fits
  oldSize : b.oldSize.Fits
  report : b.report.Fits
  edges : ∀ e ∈ b.edges, e.Fits
  subsumed : ∀ n ∈ b.subsumed, n < 0x10000000000000000

instance decidableFits (b : ReducedBehavior) : Decidable b.Fits :=
  decidable_of_iff (b.control < 0x10000000000000000 ∧ b.callback < 0x10000000000000000 ∧
      b.size.Fits ∧ b.oldSize.Fits ∧ b.report.Fits ∧ (∀ e ∈ b.edges.toList, e.Fits) ∧
      ∀ n ∈ b.subsumed.toList, n < 0x10000000000000000)
    ⟨fun ⟨h₁, h₂, h₃, h₄, h₅, h₆, h₇⟩ => ⟨h₁, h₂, h₃, h₄, h₅, h₆, h₇⟩,
      fun h => ⟨h.control, h.callback, h.size, h.oldSize, h.report, h.edges, h.subsumed⟩⟩

variable {b : ReducedBehavior}

def sizesToJson (b : ReducedBehavior) : Json :=
  .record [("node", .ofNat b.size.node), ("edge", .ofNat b.size.edge), ("old", b.oldSize.toJson)]

theorem sizesOfJson?_sizesToJson (fits : b.Fits) :
    sizesOfJson? b.sizesToJson = some (b.size, b.oldSize) := by
  have node := Json.natural?_ofNat b.size.node
  have edge := Json.natural?_ofNat b.size.edge
  have old := Size.ofJson?_toJson b.oldSize
  rw [if_pos fits.size.1] at node
  rw [if_pos fits.size.2] at edge
  rw [if_pos fits.oldSize] at old
  rw [sizesOfJson?, sizesToJson, Json.record?_record]
  simp [Json.pick?, Json.required?, node, edge, old]

theorem toJson_eq (b : ReducedBehavior) : b.toJson =
    .record ([("uid", .ofNat b.control), ("eid", .ofNat b.callback), ("size", b.sizesToJson),
      ("reduce", b.report.toJson), ("edges", edgesToJson b.edges), ("cuid", idsToJson b.subsumed)] ++
      b.inheritedMethods.toList.map fun names => ("inherit_methods", namesToJson names)) := rfl

theorem ofJson?_toJson (fits : b.Fits) (survives : Seconds.Survives b.report.time) :
    ofJson? b.toJson = some b := by
  have sizes := sizesOfJson?_sizesToJson fits
  have report := ReductionReport.ofJson?_toJson fits.report survives
  have control := Json.natural?_ofNat b.control
  have callback := Json.natural?_ofNat b.callback
  have edges := edgesOfJson?_edgesToJson b.edges
  have ids := idsOfJson?_idsToJson b.subsumed
  rw [if_pos fits.control] at control
  rw [if_pos fits.callback] at callback
  rw [if_pos fits.edges] at edges
  rw [if_pos fits.subsumed] at ids
  rw [ofJson?, toJson_eq, Json.record?_record]
  generalize b.sizesToJson = sizesJson at sizes ⊢
  obtain ⟨_, _, _, _, _, _, _, inheritedMethods⟩ := b
  cases inheritedMethods with
  | none =>
    simp [Json.pick?, Json.required?, Json.defaulted?, control, callback, sizes, report, edges, ids]
  | some names =>
    have inherited := optional?_namesToJson names
    simp [Json.pick?, Json.required?, Json.defaulted?, control, callback, sizes, report, edges, ids,
      inherited]

theorem written_toJson (survives : Seconds.Survives b.report.time) : b.toJson.Written := by
  have sizes : b.sizesToJson.Written := by
    refine Json.written_record ?_
    simp only [List.mem_cons, List.not_mem_nil, or_false, forall_eq_or_imp, forall_eq]
    exact ⟨Json.written_ofNat _, Json.written_ofNat _, b.oldSize.written_toJson⟩
  rw [toJson_eq]
  refine Json.written_record ?_
  simp only [List.mem_append, List.mem_cons, List.not_mem_nil, or_false, List.mem_map]
  rintro f ((rfl | rfl | rfl | rfl | rfl | rfl) | ⟨names, -, rfl⟩)
  · exact Json.written_ofNat _
  · exact Json.written_ofNat _
  · exact sizes
  · exact ReductionReport.written_toJson survives
  · exact Json.written_map (fun e => Json.written_ofString (Edge.render e)) b.edges.toList
  · exact Json.written_map Json.written_ofNat b.subsumed.toList
  · exact Json.written_map Json.written_ofString names.toList

theorem isSound_toJson (fits : b.Fits) (survives : Seconds.Survives b.report.time) (depth : Nat) :
    b.toJson.isSound (depth + 3) = true := by
  have sizes : b.sizesToJson.isSound (depth + 2) = true := by
    refine Json.isSound_record.mpr ?_
    simp only [List.mem_cons, List.not_mem_nil, or_false, forall_eq_or_imp, forall_eq]
    refine ⟨Json.isSound_ofNat fits.size.1, Json.isSound_ofNat fits.size.2, ?_⟩
    refine Json.isSound_record.mpr ?_
    simp only [List.mem_cons, List.not_mem_nil, or_false, forall_eq_or_imp, forall_eq]
    exact ⟨Json.isSound_ofNat fits.oldSize.1, Json.isSound_ofNat fits.oldSize.2⟩
  rw [toJson_eq]
  refine Json.isSound_record.mpr ?_
  simp only [List.mem_append, List.mem_cons, List.not_mem_nil, or_false, List.mem_map]
  rintro f ((rfl | rfl | rfl | rfl | rfl | rfl) | ⟨names, -, rfl⟩)
  · exact Json.isSound_ofNat fits.control
  · exact Json.isSound_ofNat fits.callback
  · exact sizes
  · exact ReductionReport.isSound_toJson fits.report survives (depth + 1)
  · exact Json.isSound_map fun e _ => Json.isSound_ofString e.render (depth + 1)
  · exact Json.isSound_map fun n mem => Json.isSound_ofNat (fits.subsumed n mem)
  · exact Json.isSound_map fun s _ => Json.isSound_ofString s (depth + 1)

end ReducedBehavior

namespace ReducedEntry

def Fits : ReducedEntry → Prop
  | behavior b => b.Fits ∧ Seconds.Survives b.report.time
  | header time => Seconds.Survives time

theorem ofJson?_toJson {entry : ReducedEntry} (fits : entry.Fits) :
    ofJson? entry.toJson = some entry := by
  cases entry with
  | behavior b =>
    have sound : b.toJson.isSound nestingLimit = true :=
      ReducedBehavior.isSound_toJson fits.1 fits.2 123
    rw [toJson, ofJson?, if_pos sound, ReducedBehavior.ofJson?_toJson fits.1 fits.2]
  | header time =>
    have clock := seconds?_secondsToJson fits
    have sound : (toJson (header time)).isSound nestingLimit = true := by
      refine Json.isSound_record.mpr ?_
      simp only [List.mem_singleton, forall_eq]
      exact isSound_secondsToJson fits 125
    -- a header has none of the fields that a behavior must have
    have other : ReducedBehavior.ofJson? (toJson (header time)) = none := by
      rw [ReducedBehavior.ofJson?, toJson, Json.record?_record]
      simp [Json.pick?, Json.required?]
    have read : headerOfJson? (toJson (header time)) = some time := by
      rw [headerOfJson?, toJson, Json.record?_record]
      simp [Json.pick?, Json.required?, clock]
    rw [ofJson?, if_pos sound, other, read]
    rfl

theorem written_toJson {entry : ReducedEntry} (fits : entry.Fits) : entry.toJson.Written := by
  cases entry with
  | behavior b => exact ReducedBehavior.written_toJson fits.2
  | header time =>
    refine Json.written_record ?_
    simp only [List.mem_singleton, forall_eq]
    exact written_secondsToJson fits

theorem readAll?_writeAll {entries : List ReducedEntry} (fits : ∀ entry ∈ entries, entry.Fits) :
    readAll? (writeAll entries) = some entries := by
  have written : (Json.array (entries.map toJson)).Written := by
    refine .array fun v mem => ?_
    obtain ⟨entry, listed, rfl⟩ := List.mem_map.mp mem
    exact written_toJson (fits entry listed)
  have each : (entries.map toJson).mapM ofJson? = some entries := by
    clear written
    induction entries with
    | nil => rfl
    | cons entry entries ih =>
      have first := ofJson?_toJson (fits entry List.mem_cons_self)
      have rest := ih fun other mem => fits other (List.mem_cons_of_mem _ mem)
      rw [List.map_cons, List.mapM_cons, first, rest]
      rfl
  rw [readAll?, writeAll, Json.parse?_render written, Option.bind_some, Json.arrayOf?, Json.items?,
    Option.bind_some, each]

end ReducedEntry

namespace ReducedBehaviors

/-- Every number fits its field and every time survives its text. -/
structure Fits (r : ReducedBehaviors) : Prop where
  total : Seconds.Survives r.time
  behaviors : ∀ b ∈ r.behaviors, b.Fits
  times : ∀ b ∈ r.behaviors, Seconds.Survives b.report.time

theorem readAll?_write {r : ReducedBehaviors} (fits : r.Fits) :
    ReducedEntry.readAll? r.write = some r.toEntries := by
  refine ReducedEntry.readAll?_writeAll fun entry mem => ?_
  rcases List.mem_cons.mp mem with rfl | mem
  · exact fits.total
  · obtain ⟨b, listed, rfl⟩ := List.mem_map.mp mem
    exact ⟨fits.behaviors b listed, fits.times b listed⟩

end ReducedBehaviors
end HandlerGraph
