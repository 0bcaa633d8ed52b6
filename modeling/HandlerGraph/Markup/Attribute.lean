import HandlerGraph.Markup.Tag
import HandlerGraph.Text.Numeral

/-! Attributes of a tag: a key, an equals sign and a quoted value, with blanks allowed around the sign
and none needed between attributes. No key may come twice. In a value an ampersand begins one of the
five named characters or a character by its number. -/
namespace HandlerGraph.Markup

def numbered? (digits : List Char) : Option Char :=
  let code? :=
    match digits with
    | 'x' :: hex => Numeral.natural? 16 hex
    | _ => Numeral.natural? 10 digits
  code?.bind fun n => if n ≠ 0 && n.isValidChar then some (Char.ofNat n) else none

def entity? (name : List Char) : Option Char :=
  match name with
  | '#' :: digits => numbered? digits
  | _ =>
    if name = "lt".toList then some '<'
    else if name = "gt".toList then some '>'
    else if name = "amp".toList then some '&'
    else if name = "apos".toList then some '\''
    else if name = "quot".toList then some '"'
    else none

def unescape? (input : List Char) : Option (List Char) :=
  match input with
  | [] => some []
  | c :: rest =>
    if c = '&' then
      let name := rest.takeWhile fun d => d ≠ ';' && d ≠ '&'
      if (rest.drop name.length).head? = some ';' then
        (entity? name).bind fun d => (unescape? (rest.drop (name.length + 1))).map (d :: ·)
      else none
    else (unescape? rest).map (c :: ·)
termination_by input.length
decreasing_by
  all_goals simp only [List.length_cons, List.length_drop]
  all_goals omega

structure Attribute where
  key : List Char
  value : List Char
  deriving DecidableEq

def skipBlanks (input : List Char) : List Char := input.dropWhile isBlank

/-- The quoted value at the start of a text, as written, and what follows it. -/
def quotedValue? (input : List Char) : Option (List Char × List Char) :=
  match input with
  | [] => none
  | q :: rest =>
    if q = '"' || q = '\'' then
      let value := rest.takeWhile (· ≠ q)
      if value.length < rest.length then some (value, rest.drop (value.length + 1)) else none
    else none

theorem quotedValue?_shorter {input value rest : List Char}
    (h : quotedValue? input = some (value, rest)) : rest.length < input.length := by
  unfold quotedValue? at h
  split at h
  · simp at h
  · split at h
    · simp only at h
      split at h
      · simp only [Option.some.injEq, Prod.mk.injEq] at h
        rw [← h.2, List.length_drop, List.length_cons]
        omega
      · simp at h
    · simp at h

def assigned? (input : List Char) : Option (List Char × List Char) :=
  match skipBlanks input with
  | '=' :: rest => quotedValue? (skipBlanks rest)
  | _ => none

theorem skipBlanks_le (input : List Char) : (skipBlanks input).length ≤ input.length :=
  (List.dropWhile_sublist isBlank).length_le

theorem assigned?_shorter {input value rest : List Char}
    (h : assigned? input = some (value, rest)) : rest.length < input.length := by
  unfold assigned? at h
  split at h
  · rename_i after found
    have outer := skipBlanks_le input
    have inner := skipBlanks_le after
    have last := quotedValue?_shorter h
    rw [found, List.length_cons] at outer
    omega
  · simp at h

/-- Attributes after those whose keys are in `seen`. -/
def attributes? (seen : List (List Char)) (input : List Char) : Option (List Attribute) :=
  match _start : skipBlanks input with
  | [] => some []
  | c :: rest =>
    let key := c :: rest.takeWhile fun d => d ≠ '=' && !isBlank d
    let after := rest.dropWhile fun d => d ≠ '=' && !isBlank d
    match _value : assigned? after with
    | none => none
    | some (raw, remaining) =>
      if seen.contains key then none
      else
        (unescape? raw).bind fun value =>
          (attributes? (key :: seen) remaining).map (⟨key, value⟩ :: ·)
termination_by input.length
decreasing_by
  have whole := skipBlanks_le input
  have tail := (List.dropWhile_sublist (fun d => d ≠ '=' && !isBlank d) (l := rest)).length_le
  have value := assigned?_shorter _value
  rw [_start, List.length_cons] at whole
  simp only [after] at value
  omega

end HandlerGraph.Markup
