/-! Comma-separated records. A record ends at a line feed or a carriage return, and empty lines are
skipped. A quote is special only at the start of a field; there it protects everything up to the
next quote that is not doubled, text after that quote still belongs to the field, and a quote that
is never closed runs to the end. A byte order mark at the start is dropped. -/
namespace HandlerGraph.Csv

inductive Place where
  | startOfRecord
  | startOfField
  | inField
  | inQuotes
  | afterQuote
  deriving DecidableEq

/-- Finished records, the finished fields of the current one and its current field, all latest
first. -/
structure Reading where
  records : List (List (List UInt8))
  fields : List (List UInt8)
  field : List UInt8
  place : Place

namespace Reading

def start : Reading := ⟨[], [], [], .startOfRecord⟩

def isBreak (b : UInt8) : Bool := b == 10 || b == 13

def endField (r : Reading) : Reading :=
  { r with fields := r.field.reverse :: r.fields, field := [], place := .startOfField }

def endRecord (r : Reading) : Reading :=
  let r := r.endField
  ⟨r.fields.reverse :: r.records, [], [], .startOfRecord⟩

def append (r : Reading) (b : UInt8) (place : Place) : Reading :=
  { r with field := b :: r.field, place }

def plain (r : Reading) (b : UInt8) : Reading :=
  if b == 44 then r.endField
  else if isBreak b then r.endRecord
  else r.append b .inField

def step (r : Reading) (b : UInt8) : Reading :=
  match r.place with
  | .startOfRecord =>
    if isBreak b then r else if b == 34 then { r with place := .inQuotes } else r.plain b
  | .startOfField => if b == 34 then { r with place := .inQuotes } else r.plain b
  | .inField => r.plain b
  | .inQuotes => if b == 34 then { r with place := .afterQuote } else r.append b .inQuotes
  | .afterQuote => if b == 34 then r.append b .inQuotes else r.plain b

def finish (r : Reading) : List (List (List UInt8)) :=
  match r.place with
  | .startOfRecord => r.records.reverse
  | _ => r.endRecord.records.reverse

end Reading

def dropMark : List UInt8 → List UInt8
  | 0xEF :: 0xBB :: 0xBF :: rest => rest
  | bytes => bytes

def records (bytes : List UInt8) : List (List (List UInt8)) :=
  ((dropMark bytes).foldl Reading.step Reading.start).finish

end HandlerGraph.Csv
