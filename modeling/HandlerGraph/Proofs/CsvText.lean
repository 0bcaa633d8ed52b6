import HandlerGraph.Csv
import HandlerGraph.Text.Utf8
import Mathlib.Data.List.Basic

/-! Records written with every cell in quotes. Inner quotes are doubled, commas stand between the
cells of a record, and records end with a line feed, a carriage return or both; the last one may go
without. Reading gives back the cells as they were, whatever characters they hold: inside quotes only
a quote has a meaning, and no other character has the byte of a quote in its encoding. -/
namespace HandlerGraph

namespace Text

theorem encode_eq_flatMap (s : String) : encode s = s.toList.flatMap String.utf8EncodeChar := by
  rw [encode, String.toUTF8_eq_toByteArray, ← String.utf8Encode_toList, List.utf8Encode]
  simp

end Text

namespace Csv

inductive LineEnd where
  | feed
  | carriage
  | both
  deriving DecidableEq

def LineEnd.chars : LineEnd → List Char
  | feed => ['\n']
  | carriage => ['\r']
  | both => ['\r', '\n']

def doubled (c : Char) : List Char := if c = '"' then ['"', '"'] else [c]

def quoted (cell : String) : List Char := '"' :: (cell.toList.flatMap doubled ++ ['"'])

def line : List String → List Char
  | [] => []
  | [cell] => quoted cell
  | cell :: next :: cells => quoted cell ++ ',' :: line (next :: cells)

/-- Lines one after the other; `ended` says whether the last one is ended too. -/
def lines (ends : LineEnd) (ended : Bool) : List (List String) → List Char
  | [] => []
  | [cells] => line cells ++ if ended then ends.chars else []
  | cells :: next :: records => line cells ++ ends.chars ++ lines ends ended (next :: records)

def write (ends : LineEnd) (ended : Bool) (records : List (List String)) : String :=
  String.ofList (lines ends ended records)

theorem quote_not_mem_utf8EncodeChar {c : Char} (other : c ≠ '"') :
    34 ∉ String.utf8EncodeChar c := by
  have code : c.val.toNat ≠ 34 := fun same => other (Char.toNat_inj.mp same)
  have quote : (34 : UInt8).toNat = 34 := rfl
  intro mem
  unfold String.utf8EncodeChar at mem
  simp only at mem
  split_ifs at mem <;>
    simp only [List.mem_cons, List.not_mem_nil, or_false, ← UInt8.toNat_inj, UInt8.toNat_ofNat',
      quote] at mem <;>
    omega

namespace Reading

def stepChar (r : Reading) (c : Char) : Reading := (String.utf8EncodeChar c).foldl step r

theorem foldl_step_inQuotes {r : Reading} (here : r.place = .inQuotes) {bytes : List UInt8}
    (plain : 34 ∉ bytes) :
    bytes.foldl step r = { r with field := bytes.reverse ++ r.field } := by
  induction bytes generalizing r with
  | nil => rfl
  | cons b bytes ih =>
    rw [List.mem_cons, not_or] at plain
    have first : r.step b = r.append b .inQuotes := by
      simp [step, here, Ne.symm plain.1]
    rw [List.foldl_cons, first, ih rfl plain.2]
    simp [append, here]

theorem foldl_stepChar_doubled {r : Reading} (here : r.place = .inQuotes) (c : Char) :
    (doubled c).foldl stepChar r =
      { r with field := (String.utf8EncodeChar c).reverse ++ r.field } := by
  rw [doubled]
  split
  · rename_i quote
    subst quote
    obtain ⟨records, fields, field, place⟩ := r
    cases here
    rfl
  · rename_i other
    exact foldl_step_inQuotes here (quote_not_mem_utf8EncodeChar other)

theorem foldl_stepChar_body {r : Reading} (here : r.place = .inQuotes) (cs : List Char) :
    (cs.flatMap doubled).foldl stepChar r =
      { r with field := (cs.flatMap String.utf8EncodeChar).reverse ++ r.field } := by
  induction cs generalizing r with
  | nil => rfl
  | cons c cs ih =>
    rw [List.flatMap_cons, List.foldl_append, foldl_stepChar_doubled here, ih]
    · simp
    · exact here

/-- Where a quote opens a cell. -/
def AtCell (r : Reading) : Prop :=
  r.field = [] ∧ (r.place = .startOfRecord ∨ r.place = .startOfField)

theorem foldl_stepChar_quoted {r : Reading} (here : r.AtCell) (cell : String) :
    (quoted cell).foldl stepChar r =
      { r with field := (Text.encode cell).reverse, place := .afterQuote } := by
  obtain ⟨records, fields, field, place⟩ := r
  obtain ⟨blank, opens⟩ := here
  cases blank
  have opened : stepChar ⟨records, fields, [], place⟩ '"' = ⟨records, fields, [], .inQuotes⟩ := by
    rcases opens with rfl | rfl <;> rfl
  rw [quoted, List.foldl_cons, opened, List.foldl_append, foldl_stepChar_body rfl,
    Text.encode_eq_flatMap]
  simp [stepChar, step, String.utf8EncodeChar]

theorem foldl_stepChar_line {r : Reading} (here : r.AtCell) {cells : List String}
    (some_cell : cells ≠ []) :
    ((line cells).foldl stepChar r).place = .afterQuote ∧
      ((line cells).foldl stepChar r).endField =
        { r with
          fields := (cells.map Text.encode).reverse ++ r.fields
          field := []
          place := .startOfField } := by
  induction cells generalizing r with
  | nil => contradiction
  | cons cell cells ih =>
    cases cells with
    | nil =>
      rw [line, foldl_stepChar_quoted here]
      exact ⟨rfl, by simp [endField]⟩
    | cons next cells =>
      let after : Reading :=
        { r with fields := Text.encode cell :: r.fields, field := [], place := .startOfField }
      have comma : stepChar { r with field := (Text.encode cell).reverse, place := .afterQuote }
          ',' = after := by
        simp [stepChar, step, String.utf8EncodeChar, plain, endField, after]
      obtain ⟨last, whole⟩ := ih (r := after) ⟨rfl, Or.inr rfl⟩ (List.cons_ne_nil next cells)
      rw [line, List.foldl_append, foldl_stepChar_quoted here, List.foldl_cons, comma]
      refine ⟨last, whole.trans ?_⟩
      simp [after]

/-- The records read so far, between two lines. -/
def between (records : List (List (List UInt8))) : Reading := ⟨records, [], [], .startOfRecord⟩

theorem endRecord_line (records : List (List (List UInt8))) {cells : List String}
    (some_cell : cells ≠ []) :
    ((line cells).foldl stepChar (between records)).endRecord =
      between (cells.map Text.encode :: records) := by
  obtain ⟨-, whole⟩ := foldl_stepChar_line (r := between records) ⟨rfl, Or.inl rfl⟩ some_cell
  simp only [endRecord, whole]
  simp [between]

theorem foldl_stepChar_lineEnd {r : Reading} (here : r.place = .afterQuote) (ends : LineEnd) :
    ends.chars.foldl stepChar r = r.endRecord := by
  obtain ⟨records, fields, field, place⟩ := r
  cases here
  cases ends <;> rfl

theorem finish_lines (records : List (List (List UInt8))) (ends : LineEnd) (ended : Bool)
    {rest : List (List String)} (some_cells : ∀ cells ∈ rest, cells ≠ []) :
    ((lines ends ended rest).foldl stepChar (between records)).finish =
      records.reverse ++ rest.map (·.map Text.encode) := by
  induction rest generalizing records with
  | nil => simp [lines, between, finish]
  | cons cells rest ih =>
    have some_cell := some_cells cells List.mem_cons_self
    obtain ⟨last, -⟩ := foldl_stepChar_line (r := between records) ⟨rfl, Or.inl rfl⟩ some_cell
    have whole := endRecord_line records some_cell
    cases rest with
    | nil =>
      rw [lines, List.foldl_append]
      cases ended with
      | true =>
        rw [if_pos rfl, foldl_stepChar_lineEnd last, whole]
        simp [between, finish]
      | false =>
        rw [if_neg Bool.false_ne_true, List.foldl_nil, finish, last, whole]
        simp [between]
    | cons next rest =>
      rw [lines, List.foldl_append, List.foldl_append, foldl_stepChar_lineEnd last, whole, ih]
      · simp
      · exact fun cells mem => some_cells cells (List.mem_cons_of_mem _ mem)

end Reading

theorem exists_line_eq {cells : List String} (some_cell : cells ≠ []) :
    ∃ more, line cells = '"' :: more := by
  obtain ⟨cell, cells, rfl⟩ := List.exists_cons_of_ne_nil some_cell
  cases cells with
  | nil => exact ⟨_, rfl⟩
  | cons next cells => exact ⟨_, rfl⟩

/-- Text that starts with a quote has no mark to drop. -/
theorem dropMark_encode_write (ends : LineEnd) (ended : Bool) {rest : List (List String)}
    (some_cells : ∀ cells ∈ rest, cells ≠ []) :
    dropMark (Text.encode (write ends ended rest)) = Text.encode (write ends ended rest) := by
  rw [Text.encode_eq_flatMap, write, String.toList_ofList]
  cases rest with
  | nil => rfl
  | cons cells rest =>
    obtain ⟨more, starts⟩ := exists_line_eq (some_cells cells List.mem_cons_self)
    have quote : ∃ tail, lines ends ended (cells :: rest) = '"' :: tail := by
      cases rest with
      | nil => exact ⟨_, by rw [lines, starts, List.cons_append]⟩
      | cons next rest => exact ⟨_, by rw [lines, starts, List.cons_append, List.cons_append]⟩
    obtain ⟨tail, begins⟩ := quote
    rw [begins, List.flatMap_cons]
    rfl

theorem records_write (ends : LineEnd) (ended : Bool) {rest : List (List String)}
    (some_cells : ∀ cells ∈ rest, cells ≠ []) :
    records (Text.encode (write ends ended rest)) = rest.map (·.map Text.encode) := by
  have read := Reading.finish_lines [] ends ended some_cells
  rw [records, dropMark_encode_write ends ended some_cells, Text.encode_eq_flatMap, write,
    String.toList_ofList, List.foldl_flatMap]
  exact read

end Csv
end HandlerGraph
