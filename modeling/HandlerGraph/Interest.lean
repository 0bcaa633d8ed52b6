import HandlerGraph.Graph
import HandlerGraph.Keywords
import HandlerGraph.Text.Alphanumeric
import HandlerGraph.Text.LowerCase
import HandlerGraph.WidgetText

/-! Interest: a behavior is kept when the words on its widget or the library methods it touches
mention a keyword. Words are compared exactly, or after everything but letters and numbers is
dropped and each character is put in lower case; method names are compared in lower case. An empty
keyword list keeps everything. -/
namespace HandlerGraph

def normalize (text : String) : List Char :=
  (text.toList.filter Text.isAlphanumeric).flatMap Text.lowerChar

structure Interest where
  texts : Keywords
  methods : Keywords
  deriving DecidableEq, Inhabited

namespace Interest

def labelMatches (i : Interest) (label : String) : Bool :=
  i.texts.occurIn label ||
    (i.texts.words.map normalize).any fun w => !w.isEmpty && Text.occursIn w (normalize label)

def keepsControl (i : Interest) (g : Graph) (texts : WidgetTexts) (control : Nat) : Bool :=
  i.texts.isEmpty ||
    match g.node? control with
    | none => false
    | some n =>
      match n.elementId with
      | none => false
      | some element =>
        match texts.lookup n.layoutFile (String.ofList (Numeral.decimalInt element)) with
        | none => false
        | some widget => widget.labels.any i.labelMatches

def methodMatches (i : Interest) (name : String) : Bool :=
  i.methods.words.any fun w => Text.occursIn (Text.lower w.toList) (Text.lower name.toList)

def keepsMethods (i : Interest) (g : Graph) (ids : List Nat) : Bool :=
  i.methods.isEmpty ||
    (ids.filterMap g.node?).any fun n => !n.isAppDefined && i.methodMatches n.name

def keeps (i : Interest) (g : Graph) (texts : WidgetTexts) (control : Nat) (ids : List Nat) : Bool :=
  i.keepsControl g texts control || i.keepsMethods g ids

end Interest
end HandlerGraph
