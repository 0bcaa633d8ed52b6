import HandlerGraph.Coverage
import HandlerGraph.Json.Decode

/-! Coverage files: a record with one map from keys to lists of cases. A key given twice keeps its
last value. -/
namespace HandlerGraph

def SwitchCase.ofJson? (v : Json) : Option SwitchCase := do
  match ← v.record? [["_1", "caller"], ["_2", "callee"]] with
  | [caller, callee] =>
    return ⟨← Json.required? Json.text? caller, ← Json.required? Json.text? callee⟩
  | _ => none

namespace Coverage

def casesOfJson? (v : Json) : Option (SortedMap String (List SwitchCase)) := do
  let fields ← v.fields?
  let entries ← fields.mapM fun (key, v) => (v.arrayOf? SwitchCase.ofJson?).map (key, ·)
  return .ofList entries

def ofJson? (v : Json) : Option Coverage := do
  match ← v.record? [["switchEdges"]] with
  | [cases] => return ⟨← Json.defaulted? casesOfJson? .empty cases⟩
  | _ => none

def read? (bytes : List UInt8) : Option Coverage := (Json.parse? bytes).bind ofJson?

end Coverage
end HandlerGraph
