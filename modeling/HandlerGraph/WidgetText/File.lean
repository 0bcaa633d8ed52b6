import HandlerGraph.Json.Decode
import HandlerGraph.WidgetText

/-! Widget text files: a map from layout files to maps from element ids to records. A key given
twice keeps its last value. -/
namespace HandlerGraph

def WidgetText.ofJson? (v : Json) : Option WidgetText := do
  match ← v.record? [["hint"], ["text"]] with
  | [hint, text] =>
    return ⟨← Json.defaulted? (Json.optional? Json.text?) none hint,
      ← Json.defaulted? (Json.optional? Json.text?) none text⟩
  | _ => none

namespace WidgetTexts

def layoutOfJson? (v : Json) : Option (SortedMap String WidgetText) := do
  let fields ← v.fields?
  let entries ← fields.mapM fun (element, v) => (WidgetText.ofJson? v).map (element, ·)
  return .ofList entries

def ofJson? (v : Json) : Option WidgetTexts := do
  let fields ← v.fields?
  let entries ← fields.mapM fun (layout, v) => (layoutOfJson? v).map (layout, ·)
  return ⟨.ofList entries⟩

def read? (bytes : List UInt8) : Option WidgetTexts := (Json.parse? bytes).bind ofJson?

end WidgetTexts
end HandlerGraph
