import HandlerGraph.Json.Token

/-! From tokens to documents. The reader keeps the containers that are still open, innermost first,
and what may come next; each token takes it one step further. Nesting is not limited. -/
namespace HandlerGraph.Json

/-- An open container with its finished parts, latest first. -/
inductive Frame where
  | array (done : List Json)
  | object (done : List (List UInt8 × Json))
  | member (done : List (List UInt8 × Json)) (key : List UInt8)

inductive Expected where
  | value
  | valueOrEnd
  | key
  | keyOrEnd
  | colon (key : List UInt8)
  | separator
  | nothing (document : Json)

structure Reading where
  frames : List Frame
  expected : Expected

namespace Reading

def start : Reading := ⟨[], .value⟩

def place (v : Json) : List Frame → Option Reading
  | [] => some ⟨[], .nothing v⟩
  | .array done :: outer => some ⟨.array (v :: done) :: outer, .separator⟩
  | .member done key :: outer => some ⟨.object ((key, v) :: done) :: outer, .separator⟩
  | .object _ :: _ => none

def beginValue (frames : List Frame) : Token → Option Reading
  | .scalar v => place v frames
  | .beginArray => some ⟨.array [] :: frames, .valueOrEnd⟩
  | .beginObject => some ⟨.object [] :: frames, .keyOrEnd⟩
  | _ => none

def closeArray : List Frame → Option Reading
  | .array done :: outer => place (.array done.reverse) outer
  | _ => none

def closeObject : List Frame → Option Reading
  | .object done :: outer => place (.object done.reverse) outer
  | _ => none

def step (r : Reading) (t : Token) : Option Reading :=
  match r.expected, t with
  | .value, t => beginValue r.frames t
  | .valueOrEnd, .endArray => closeArray r.frames
  | .valueOrEnd, t => beginValue r.frames t
  | .key, .scalar (.text key) => some ⟨r.frames, .colon key⟩
  | .keyOrEnd, .scalar (.text key) => some ⟨r.frames, .colon key⟩
  | .keyOrEnd, .endObject => closeObject r.frames
  | .colon key, .colon =>
    match r.frames with
    | .object done :: outer => some ⟨.member done key :: outer, .value⟩
    | _ => none
  | .separator, .comma =>
    match r.frames with
    | .array _ :: _ => some ⟨r.frames, .value⟩
    | .object _ :: _ => some ⟨r.frames, .key⟩
    | _ => none
  | .separator, .endArray => closeArray r.frames
  | .separator, .endObject => closeObject r.frames
  | _, _ => none

def finish (r : Reading) : Option Json :=
  match r.expected with
  | .nothing document => some document
  | _ => none

end Reading

def ofTokens? (tokens : List Token) : Option Json :=
  (tokens.foldlM Reading.step Reading.start).bind Reading.finish

def parse? (bytes : List UInt8) : Option Json := (Token.scan [] bytes).bind ofTokens?

end HandlerGraph.Json
