import Abacus.Lexer
import Abacus.Machine

/-! The calculator: the value of an expression together with the events on the way to it, which tell
whoever follows them of its progress. -/
namespace Abacus

inductive Event where
  | tokenized (source : String) (count : Nat)
  | reduced (operator : Token)
  | evaluated (count : Nat)
  | failed (expression : Option String) (message : String)
  | inputEnded
  deriving DecidableEq

namespace Event

def channel : Event → String
  | tokenized .. => "intcalc.lexer.lexer"
  | reduced _ | evaluated _ => "intcalc.evaluator.evaluator"
  | failed .. => "intcalc.core"
  | inputEnded => "intcalc.repl"

def text : Event → String
  | tokenized source count =>
    "Tokenized " ++ Text.quoted source ++ " into " ++ Decimal.render count ++ " tokens"
  | reduced operator =>
    "Reduced " ++ Text.quoted operator.lexeme ++ " at " ++ Location.textOrNone operator.location
  | evaluated count => "Evaluated " ++ Decimal.render count ++ " tokens"
  | failed expression message =>
    "Failed to calculate " ++ (expression.map Text.quoted).getD "None" ++ ": " ++ message
  | inputEnded => "End of input, leaving loop"

/-- One line of a log; `stamp` says when, and every event is of the one level there is. -/
def logLine (stamp : String) (e : Event) : String :=
  stamp ++ " - " ++ e.channel ++ " - DEBUG - " ++ e.text

end Event

/-- An answer and what was reported before it was known. -/
structure Traced (α : Type) where
  events : List Event
  answer : Except Fault α

namespace Traced

def andThen {α β : Type} (x : Traced α) (next : α → Traced β) : Traced β :=
  match x.answer with
  | .error f => ⟨x.events, .error f⟩
  | .ok a =>
    let y := next a
    ⟨x.events ++ y.events, y.answer⟩

def reportFault {α : Type} (x : Traced α) (report : Fault → Event) : Traced α :=
  match x.answer with
  | .error f => ⟨x.events ++ [report f], .error f⟩
  | .ok _ => x

end Traced

/-- `filename` names the expressions in every place that is reported. -/
structure Calculator where
  filename : String := "<expression>"

namespace Calculator

/-- A missing or blank expression is a fault before anything is scanned. -/
def tokenize (c : Calculator) (expression : Option String) : Traced (List Token) :=
  match expression with
  | none => ⟨[], .error .emptyExpression⟩
  | some source =>
    if Text.isBlankText source then ⟨[], .error .emptyExpression⟩
    else match Abacus.tokenize c.filename source with
      | .error f => ⟨[], .error f⟩
      | .ok tokens => ⟨[.tokenized source tokens.length], .ok tokens⟩

/-- Every operator that is carried out is reported, also before a fault. -/
def evaluate (tokens : List Token) : Traced Int :=
  match Machine.run tokens with
  | .error h => ⟨h.state.reduced.toList.map .reduced, .error h.fault⟩
  | .ok (v, m) => ⟨m.reduced.toList.map .reduced ++ [.evaluated tokens.length], .ok v⟩

def calculate (c : Calculator) (expression : Option String) : Traced Int :=
  ((c.tokenize expression).andThen evaluate).reportFault fun f => .failed expression f.message

theorem answer_evaluate (tokens : List Token) :
    (evaluate tokens).answer = Abacus.evaluate tokens := by
  unfold evaluate Abacus.evaluate
  cases Machine.run tokens <;> rfl

end Calculator
end Abacus
