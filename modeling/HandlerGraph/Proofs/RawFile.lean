import HandlerGraph.Behavior.File
import HandlerGraph.Proofs.EdgeGrammar
import HandlerGraph.Proofs.NumberText

/-! Files of raw behaviors. Written behaviors read back as they were exactly when every number in
them fits its field: ends of edges into 63 bits, all else into 64. Where one does not fit the file
is refused as a whole, so no file that was written here is ever misread. Everything that can be read
fits, so what was read is never refused when it is written back. -/
namespace HandlerGraph

namespace Json

theorem written_record {fields : List (String × Json)} (written : ∀ f ∈ fields, Written f.2) :
    Written (record fields) := by
  refine .object ?_ ?_
  · rintro _ h
    obtain ⟨f, -, rfl⟩ := List.mem_map.mp h
    exact isBody_escape f.1
  · rintro _ h
    obtain ⟨f, mem, rfl⟩ := List.mem_map.mp h
    exact written f mem

theorem fields?_record (fields : List (String × Json)) : (record fields).fields? = some fields := by
  rw [record, fields?]
  induction fields with
  | nil => rfl
  | cons f fields ih =>
    have first : (decodeBody? (escape f.1)).map (·, f.2) = some f := by
      rw [decodeBody?_escape]
      rfl
    rw [List.map_cons, List.mapM_cons, ih]
    simp only [first]
    rfl

theorem record?_record (names : List (List String)) (fields : List (String × Json)) :
    (record fields).record? names = names.mapM (pick? fields) := by
  have all := fields?_record fields
  rw [record] at all ⊢
  rw [record?, all, Option.bind_some]
  nofun

theorem written_map {α : Type} {write : α → Json} (written : ∀ a, Written (write a)) (l : List α) :
    Written (array (l.map write)) := .array (by simp [written])

theorem bind_ite {α β : Type} {p : Prop} [Decidable p] (a : α) (next : α → Option β) :
    (if p then some a else none).bind next = if p then next a else none := by
  split <;> rfl

theorem mapM_map {α : Type} {read : Json → Option α} {write : α → Json} {fits : α → Prop}
    [DecidablePred fits] (known : ∀ a, read (write a) = if fits a then some a else none)
    (l : List α) : (l.map write).mapM read = if ∀ a ∈ l, fits a then some l else none := by
  induction l with
  | nil => simp
  | cons a l ih =>
    rw [List.map_cons, List.mapM_cons, known, ih]
    by_cases first : fits a
    · by_cases rest : ∀ b ∈ l, fits b
      · have both : ∀ b ∈ a :: l, fits b := List.forall_mem_cons.mpr ⟨first, rest⟩
        rw [if_pos first, if_pos rest, if_pos both]
        rfl
      · have broken : ¬ ∀ b ∈ a :: l, fits b := fun both => rest (List.forall_mem_cons.mp both).2
        rw [if_pos first, if_neg rest, if_neg broken]
        rfl
    · have broken : ¬ ∀ b ∈ a :: l, fits b := fun both => first (both a List.mem_cons_self)
      rw [if_neg first, if_neg broken]
      rfl

theorem lt_of_natural? {v : Json} {n : Nat} (h : v.natural? = some n) :
    n < 0x10000000000000000 := by
  cases v with
  | number lexeme =>
    simp only [natural?] at h
    split at h
    · split at h
      · rename_i small
        obtain rfl := Option.some.inj h
        exact small
      · cases h
    · cases h
  | _ => cases h

theorem exists_of_mem_arrayOf? {α : Type} {read : Json → Option α} {v : Json} {l : List α}
    (h : v.arrayOf? read = some l) {a : α} (mem : a ∈ l) : ∃ item, read item = some a := by
  obtain ⟨items, -, each⟩ := Option.bind_eq_some_iff.mp h
  clear h
  induction items generalizing l with
  | nil =>
    obtain rfl : [] = l := by simpa using each
    cases mem
  | cons item items ih =>
    rw [List.mapM_cons] at each
    obtain ⟨first, here, each⟩ := Option.bind_eq_some_iff.mp each
    obtain ⟨rest, further, each⟩ := Option.bind_eq_some_iff.mp each
    obtain rfl := Option.some.inj each
    rcases List.mem_cons.mp mem with rfl | mem
    · exact ⟨item, here⟩
    · exact ih mem further

end Json

theorem SortedSet.ofList_toList {α : Type} [Ordered α] (s : SortedSet α) :
    SortedSet.ofList s.toList = s := SortedSet.ext_mem fun _ => SortedSet.mem_ofList

theorem edgesOfJson?_edgesToJson (edges : SortedSet Edge) :
    edgesOfJson? (edgesToJson edges) = if ∀ e ∈ edges, e.Fits then some edges else none := by
  have each : ∀ e : Edge, Edge.ofJson? (.ofString e.render) = if e.Fits then some e else none := by
    intro e
    rw [Edge.ofJson?, Json.text?_ofString, Option.bind_some, Edge.parse_render]
    split <;> rfl
  rw [edgesOfJson?, edgesToJson, Json.arrayOf?, Json.items?, Option.bind_some, Json.mapM_map each]
  simp only [SortedSet.mem_def]
  split
  · rw [Option.map_some, SortedSet.ofList_toList]
  · rfl

theorem idsOfJson?_idsToJson (ids : SortedSet Nat) :
    idsOfJson? (idsToJson ids) = if ∀ n ∈ ids, n < 0x10000000000000000 then some ids else none := by
  rw [idsOfJson?, idsToJson, Json.arrayOf?, Json.items?, Option.bind_some,
    Json.mapM_map Json.natural?_ofNat]
  simp only [SortedSet.mem_def]
  split
  · rw [Option.map_some, SortedSet.ofList_toList]
  · rfl

theorem fits_of_edgesOfJson? {v : Json} {edges : SortedSet Edge} (h : edgesOfJson? v = some edges)
    {e : Edge} (mem : e ∈ edges) : e.Fits := by
  obtain ⟨l, read, rfl⟩ := Option.map_eq_some_iff.mp h
  obtain ⟨item, found⟩ := Json.exists_of_mem_arrayOf? read (SortedSet.mem_ofList.mp mem)
  obtain ⟨text, -, parsed⟩ := Option.bind_eq_some_iff.mp found
  cases outcome : Edge.parse text with
  | error f =>
    rw [outcome] at parsed
    cases parsed
  | ok e' =>
    rw [outcome] at parsed
    obtain rfl := Option.some.inj parsed
    exact Edge.fits_of_parse outcome

theorem lt_of_idsOfJson? {v : Json} {ids : SortedSet Nat} (h : idsOfJson? v = some ids) {n : Nat}
    (mem : n ∈ ids) : n < 0x10000000000000000 := by
  obtain ⟨l, read, rfl⟩ := Option.map_eq_some_iff.mp h
  obtain ⟨item, found⟩ := Json.exists_of_mem_arrayOf? read (SortedSet.mem_ofList.mp mem)
  exact Json.lt_of_natural? found

namespace Size

def Fits (s : Size) : Prop := s.node < 0x10000000000000000 ∧ s.edge < 0x10000000000000000

instance decidableFits (s : Size) : Decidable s.Fits := inferInstanceAs (Decidable (_ ∧ _))

theorem ofJson?_toJson (s : Size) : ofJson? s.toJson = if s.Fits then some s else none := by
  have fields : s.toJson.record? [["node"], ["edge"]] =
      some [some (.ofNat s.node), some (.ofNat s.edge)] := by
    rw [toJson, Json.record?_record]
    simp [Json.pick?]
  rw [ofJson?, fields]
  simp only [Json.required?, Option.bind_eq_bind, Option.bind_some, Json.natural?_ofNat,
    Json.bind_ite, ← ite_and, Fits]
  rfl

theorem fits_of_ofJson? {v : Json} {s : Size} (h : ofJson? v = some s) : s.Fits := by
  obtain ⟨fields, -, h⟩ := Option.bind_eq_some_iff.mp h
  split at h
  · obtain ⟨node, first, h⟩ := Option.bind_eq_some_iff.mp h
    obtain ⟨edge, second, h⟩ := Option.bind_eq_some_iff.mp h
    obtain rfl := Option.some.inj h
    obtain ⟨_, -, first⟩ := Option.bind_eq_some_iff.mp first
    obtain ⟨_, -, second⟩ := Option.bind_eq_some_iff.mp second
    exact ⟨Json.lt_of_natural? first, Json.lt_of_natural? second⟩
  · cases h

theorem written_toJson (s : Size) : s.toJson.Written :=
  Json.written_record (by simp [Json.written_ofNat])

end Size

namespace RawBehavior

/-- Every number fits its field. -/
def Fits (b : RawBehavior) : Prop :=
  b.control < 0x10000000000000000 ∧ b.callback < 0x10000000000000000 ∧ b.size.Fits ∧
    (∀ e ∈ b.edges, e.Fits) ∧ ∀ n ∈ b.subsumed, n < 0x10000000000000000

instance decidableFits (b : RawBehavior) : Decidable b.Fits :=
  inferInstanceAs (Decidable (_ ∧ _ ∧ _ ∧ (∀ e ∈ b.edges.toList, _) ∧ ∀ n ∈ b.subsumed.toList, _))

theorem ofJson?_toJson (b : RawBehavior) : ofJson? b.toJson = if b.Fits then some b else none := by
  have fields : b.toJson.record? [["uid"], ["eid"], ["size"], ["edges"], ["cuid"]] =
      some [some (.ofNat b.control), some (.ofNat b.callback), some b.size.toJson,
        some (edgesToJson b.edges), some (idsToJson b.subsumed)] := by
    rw [toJson, Json.record?_record]
    simp [Json.pick?]
  rw [ofJson?, fields]
  simp only [Json.required?, Option.bind_eq_bind, Option.bind_some, Json.natural?_ofNat,
    Size.ofJson?_toJson, edgesOfJson?_edgesToJson, idsOfJson?_idsToJson, Json.bind_ite,
    ← ite_and, Fits]
  rfl

theorem fits_of_ofJson? {v : Json} {b : RawBehavior} (h : ofJson? v = some b) : b.Fits := by
  obtain ⟨fields, -, h⟩ := Option.bind_eq_some_iff.mp h
  split at h
  · simp only [Json.required?, Option.bind_eq_bind, Option.bind_eq_some_iff] at h
    obtain ⟨control, ⟨_, -, first⟩, callback, ⟨_, -, second⟩, size, ⟨_, -, sized⟩, edges,
      ⟨_, -, listed⟩, ids, ⟨_, -, numbered⟩, h⟩ := h
    obtain rfl := Option.some.inj h
    exact ⟨Json.lt_of_natural? first, Json.lt_of_natural? second, Size.fits_of_ofJson? sized,
      fun _ mem => fits_of_edgesOfJson? listed mem, fun _ mem => lt_of_idsOfJson? numbered mem⟩
  · cases h

theorem written_toJson (b : RawBehavior) : b.toJson.Written := by
  refine Json.written_record ?_
  simp only [List.mem_cons, List.not_mem_nil, or_false, forall_eq_or_imp, forall_eq]
  exact ⟨Json.written_ofNat _, Json.written_ofNat _, b.size.written_toJson,
    Json.written_map (fun e => Json.written_ofString (Edge.render e)) b.edges.toList,
    Json.written_map Json.written_ofNat b.subsumed.toList⟩

theorem readAll?_writeAll (behaviors : List RawBehavior) :
    readAll? (writeAll behaviors) = if ∀ b ∈ behaviors, b.Fits then some behaviors else none := by
  rw [readAll?, writeAll, Json.parse?_render (Json.written_map written_toJson behaviors),
    Option.bind_some, Json.arrayOf?, Json.items?, Option.bind_some, Json.mapM_map ofJson?_toJson]

theorem fits_of_readAll? {bytes : List UInt8} {behaviors : List RawBehavior}
    (h : readAll? bytes = some behaviors) : ∀ b ∈ behaviors, b.Fits := by
  intro b mem
  obtain ⟨v, -, listed⟩ := Option.bind_eq_some_iff.mp h
  obtain ⟨item, read⟩ := Json.exists_of_mem_arrayOf? listed mem
  exact fits_of_ofJson? read

theorem eq_of_readAll?_writeAll {behaviors others : List RawBehavior}
    (h : readAll? (writeAll behaviors) = some others) : others = behaviors := by
  rw [readAll?_writeAll] at h
  split at h
  · exact (Option.some.inj h).symm
  · cases h

end RawBehavior
end HandlerGraph
