import HandlerGraph.Fault
import HandlerGraph.Markup.Attribute
import HandlerGraph.Resources

/-! Resource descriptors. Every `public` element must have attributes in order; those of type layout
that have a name and an id are entered. An id is hexadecimal with an optional sign, after leading
marks of hexadecimal notation are taken off. The first error in the text decides. -/
namespace HandlerGraph.Resources

def stripMarks (second : Char) : List Char → List Char
  | '0' :: x :: rest => if x = second then stripMarks second rest else '0' :: x :: rest
  | cs => cs

def layoutIdOf? (id : String) : Option Int :=
  (Numeral.integer? 16 (stripMarks 'X' (stripMarks 'x' id.toList))).bind (Numeral.signed? 64)

def valueOf? (attributes : List Markup.Attribute) (key : String) : Option String :=
  (attributes.find? fun a => a.key = key.toList).map fun a => String.ofList a.value

def addEntry (r : Resources) (attributes : List Markup.Attribute) : Except ResourceFault Resources :=
  if valueOf? attributes "type" = some "layout" then
    match valueOf? attributes "name", valueOf? attributes "id" with
    | some name, some id =>
      match layoutIdOf? id with
      | some value => .ok (r.insert name value)
      | none => .error (.badLayoutId name id)
    | _, _ => .ok r
  else .ok r

def addTag (r : Resources) (tag : Markup.Tag) : Except ResourceFault Resources :=
  if tag.name = "public".toList then
    match Markup.attributes? [] tag.inside with
    | none => .error .malformed
    | some attributes => addEntry r attributes
  else .ok r

def parse (text : String) : Except ResourceFault Resources := do
  let found := Markup.tags text.toList
  let r ← found.tags.foldlM addTag empty
  if found.wellFormed then .ok r else .error .malformed

end HandlerGraph.Resources
