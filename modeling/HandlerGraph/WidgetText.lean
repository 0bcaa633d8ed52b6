import HandlerGraph.SortedMap

/-! The words a user sees on widgets, by layout file and element id. -/
namespace HandlerGraph

structure WidgetText where
  hint : Option String
  text : Option String
  deriving DecidableEq, Inhabited

/-- Stands where a string resource could not be resolved. -/
def WidgetText.unresolved : String := "NOT_FOUND"

def WidgetText.labels (w : WidgetText) : List String :=
  (w.hint.toList ++ w.text.toList).filter (· ≠ unresolved)

structure WidgetTexts where
  layouts : SortedMap String (SortedMap String WidgetText)
  deriving DecidableEq, Inhabited

namespace WidgetTexts

def empty : WidgetTexts := ⟨.empty⟩

def insert (t : WidgetTexts) (layout element : String) (w : WidgetText) : WidgetTexts :=
  ⟨t.layouts.insert layout (((t.layouts.get? layout).getD .empty).insert element w)⟩

def lookup (t : WidgetTexts) (layout : Option String) (element : String) : Option WidgetText :=
  match (layout.bind t.layouts.get?).bind (·.get? element) with
  | some w => some w
  | none => t.layouts.entries.findSome? fun e => e.2.get? element

end WidgetTexts
end HandlerGraph
