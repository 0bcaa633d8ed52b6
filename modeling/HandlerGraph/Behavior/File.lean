import HandlerGraph.Behavior
import HandlerGraph.Json.Decode
import HandlerGraph.Seconds.Shortest

/-! Behavior files. A file of raw behaviors is an array of records. A file of reduced behaviors is an
array that starts with a header holding the total time. Absent options are left out. An entry of a
reduced file is a behavior if it reads as one, and else a header; before either is tried it must be
sound as a whole, and headers after the first place are passed over. -/
namespace HandlerGraph

namespace Size

def toJson (s : Size) : Json := .record [("node", .ofNat s.node), ("edge", .ofNat s.edge)]

def ofJson? (v : Json) : Option Size := do
  match ← v.record? [["node"], ["edge"]] with
  | [node, edge] =>
    return ⟨← Json.required? Json.natural? node, ← Json.required? Json.natural? edge⟩
  | _ => none

end Size

def Edge.ofJson? (v : Json) : Option Edge := v.text?.bind fun s => (Edge.parse s).toOption

def edgesToJson (edges : SortedSet Edge) : Json :=
  .array (edges.toList.map fun e => .ofString e.render)

def edgesOfJson? (v : Json) : Option (SortedSet Edge) := (v.arrayOf? Edge.ofJson?).map .ofList

def idsToJson (ids : SortedSet Nat) : Json := .array (ids.toList.map .ofNat)

def idsOfJson? (v : Json) : Option (SortedSet Nat) := (v.arrayOf? Json.natural?).map .ofList

def namesToJson (names : SortedSet String) : Json := .array (names.toList.map .ofString)

def namesOfJson? (v : Json) : Option (SortedSet String) := (v.arrayOf? Json.text?).map .ofList

def secondsToJson (t : Seconds) : Json := .number (Text.encode (Seconds.render t))

namespace RawBehavior

def toJson (b : RawBehavior) : Json :=
  .record [("uid", .ofNat b.control), ("eid", .ofNat b.callback), ("size", b.size.toJson),
    ("edges", edgesToJson b.edges), ("cuid", idsToJson b.subsumed)]

def ofJson? (v : Json) : Option RawBehavior := do
  match ← v.record? [["uid"], ["eid"], ["size"], ["edges"], ["cuid"]] with
  | [control, callback, size, edges, subsumed] =>
    return {
      control := ← Json.required? Json.natural? control
      callback := ← Json.required? Json.natural? callback
      size := ← Json.required? Size.ofJson? size
      edges := ← Json.required? edgesOfJson? edges
      subsumed := ← Json.required? idsOfJson? subsumed }
  | _ => none

def writeAll (behaviors : List RawBehavior) : List UInt8 :=
  (Json.array (behaviors.map toJson)).render

def readAll? (bytes : List UInt8) : Option (List RawBehavior) :=
  (Json.parse? bytes).bind (Json.arrayOf? ofJson?)

end RawBehavior

namespace ReductionReport

def toJson (r : ReductionReport) : Json :=
  .record ([("time", secondsToJson r.time), ("switch noise", .ofNat r.switchNoise)] ++
    r.deadLeaves.toList.map fun n => ("sleaf", .ofNat n))

def ofJson? (v : Json) : Option ReductionReport := do
  match ← v.record? [["time"], ["switch noise"], ["sleaf"]] with
  | [time, switchNoise, deadLeaves] =>
    return {
      time := ← Json.required? Json.seconds? time
      switchNoise := ← Json.required? Json.natural? switchNoise
      deadLeaves := ← Json.defaulted? (Json.optional? Json.natural?) none deadLeaves }
  | _ => none

end ReductionReport

namespace ReducedBehavior

def toJson (b : ReducedBehavior) : Json :=
  .record ([("uid", .ofNat b.control), ("eid", .ofNat b.callback),
    ("size", .record [("node", .ofNat b.size.node), ("edge", .ofNat b.size.edge),
      ("old", b.oldSize.toJson)]),
    ("reduce", b.report.toJson), ("edges", edgesToJson b.edges), ("cuid", idsToJson b.subsumed)] ++
    b.inheritedMethods.toList.map fun names => ("inherit_methods", namesToJson names))

def sizesOfJson? (v : Json) : Option (Size × Size) := do
  match ← v.record? [["node"], ["edge"], ["old"]] with
  | [node, edge, old] =>
    return (⟨← Json.required? Json.natural? node, ← Json.required? Json.natural? edge⟩,
      ← Json.required? Size.ofJson? old)
  | _ => none

def ofJson? (v : Json) : Option ReducedBehavior := do
  match ← v.record? [["uid"], ["eid"], ["size"], ["reduce"], ["edges"], ["cuid"],
    ["inherit_methods"]] with
  | [control, callback, size, report, edges, subsumed, inherited] =>
    let control ← Json.required? Json.natural? control
    let callback ← Json.required? Json.natural? callback
    let (size, oldSize) ← Json.required? sizesOfJson? size
    let report ← Json.required? ReductionReport.ofJson? report
    let edges ← Json.required? edgesOfJson? edges
    let subsumed ← Json.required? idsOfJson? subsumed
    let inheritedMethods ← Json.defaulted? (Json.optional? namesOfJson?) none inherited
    return { control, callback, size, oldSize, report, edges, subsumed, inheritedMethods }
  | _ => none

end ReducedBehavior

inductive ReducedEntry where
  | behavior (b : ReducedBehavior)
  | header (time : Seconds)
  deriving DecidableEq

namespace ReducedEntry

def toJson : ReducedEntry → Json
  | behavior b => b.toJson
  | header time => .record [("time", secondsToJson time)]

def headerOfJson? (v : Json) : Option Seconds := do
  match ← v.record? [["time"]] with
  | [time] => Json.required? Json.seconds? time
  | _ => none

/-- The containers that may lie inside one another within an entry. -/
def nestingLimit : Nat := 126

def ofJson? (v : Json) : Option ReducedEntry :=
  if v.isSound nestingLimit then
    match ReducedBehavior.ofJson? v with
    | some b => some (behavior b)
    | none => (headerOfJson? v).map header
  else none

def behavior? : ReducedEntry → Option ReducedBehavior
  | behavior b => some b
  | header _ => none

def readAll? (bytes : List UInt8) : Option (List ReducedEntry) :=
  (Json.parse? bytes).bind (Json.arrayOf? ofJson?)

def writeAll (entries : List ReducedEntry) : List UInt8 :=
  (Json.array (entries.map toJson)).render

end ReducedEntry

namespace ReducedBehaviors

def toEntries (r : ReducedBehaviors) : List ReducedEntry :=
  .header r.time :: r.behaviors.map .behavior

def ofEntries (entries : List ReducedEntry) : ReducedBehaviors where
  time :=
    match entries with
    | .header time :: _ => time
    | _ => 0
  behaviors := entries.filterMap ReducedEntry.behavior?

@[simp] theorem ofEntries_toEntries (r : ReducedBehaviors) : ofEntries r.toEntries = r := by
  have kept : (r.behaviors.map ReducedEntry.behavior).filterMap ReducedEntry.behavior? =
      r.behaviors := by
    rw [List.filterMap_map]
    exact List.filterMap_some
  simp only [toEntries, ofEntries, List.filterMap_cons, ReducedEntry.behavior?, kept]

def write (r : ReducedBehaviors) : List UInt8 := ReducedEntry.writeAll r.toEntries

def read? (bytes : List UInt8) : Option ReducedBehaviors :=
  (ReducedEntry.readAll? bytes).map ofEntries

end ReducedBehaviors
end HandlerGraph
