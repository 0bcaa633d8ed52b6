import HandlerGraph.SortedMap

/-! Numeric ids of layouts by their resource name. -/
namespace HandlerGraph

structure Resources where
  layouts : SortedMap String Int
  deriving DecidableEq, Inhabited

namespace Resources

def empty : Resources := ⟨.empty⟩

def insert (r : Resources) (name : String) (id : Int) : Resources := ⟨r.layouts.insert name id⟩

def layoutId? (r : Resources) (name : String) : Option Int := r.layouts.get? name

def size (r : Resources) : Nat := r.layouts.size

def isEmpty (r : Resources) : Bool := r.layouts.isEmpty

end Resources
end HandlerGraph
