/-! Arguments of a command line. A long option is written with two dashes, a short one with one, and
short ones may share a dash. A value stands in the next argument or follows directly: a long option
takes it after an equals sign, a short one with or without. An argument that looks like an option
is no value, unless the option takes negative numbers. After two dashes alone everything is an
operand. -/
namespace HandlerGraph

structure OptionRule where
  long : String
  short : Option Char := none
  takesValue : Bool := false
  allowsNegative : Bool := false
  deriving DecidableEq

inductive Argument where
  | switch (name : String)
  | option (name value : String)
  | operand (text : String)
  | faulty
  deriving DecidableEq

namespace Argument

/-- What an argument is in itself: complete, or complete but for the value of its last option. -/
inductive Shape where
  | whole (arguments : List Argument)
  | lacking (arguments : List Argument) (option : OptionRule)
  | endOfOptions

def longShape (rules : List OptionRule) (body : List Char) : Shape :=
  let name := String.ofList (body.takeWhile (· ≠ '='))
  match rules.find? (·.long = name), body.dropWhile (· ≠ '=') with
  | none, _ => .whole [.faulty]
  | some rule, [] => if rule.takesValue then .lacking [] rule else .whole [.switch name]
  | some rule, _ :: value =>
    .whole [if rule.takesValue then .option name (String.ofList value) else .faulty]

def clusterShape (rules : List OptionRule) (done : List Argument) : List Char → Shape
  | [] => .whole done
  | c :: rest =>
    match rules.find? (·.short = some c) with
    | none => .whole (done ++ [.faulty])
    | some rule =>
      if rule.takesValue then
        match rest with
        | [] => .lacking done rule
        | '=' :: value => .whole (done ++ [.option rule.long (String.ofList value)])
        | value => .whole (done ++ [.option rule.long (String.ofList value)])
      else clusterShape rules (done ++ [.switch rule.long]) rest

def shape (rules : List OptionRule) (text : String) : Shape :=
  match text.toList with
  | ['-', '-'] => .endOfOptions
  | '-' :: '-' :: body => longShape rules body
  | ['-'] => .whole [.operand text]
  | '-' :: body => clusterShape rules [] body
  | _ => .whole [.operand text]

def isValue (rule : OptionRule) (text : String) : Bool :=
  match text.toList with
  | ['-'] => true
  | '-' :: body => rule.allowsNegative && body.all Char.isDigit
  | _ => true

def scan (rules : List OptionRule) : List String → List Argument
  | [] => []
  | text :: rest =>
    match shape rules text with
    | .endOfOptions => rest.map operand
    | .whole arguments => arguments ++ scan rules rest
    | .lacking arguments rule =>
      match rest with
      | [] => arguments ++ [.faulty]
      | value :: rest =>
        if isValue rule value then arguments ++ .option rule.long value :: scan rules rest
        else arguments ++ [.faulty]

end Argument
end HandlerGraph
