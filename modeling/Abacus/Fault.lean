import Abacus.Text.Layout
import Abacus.Text.Uppercase
import Abacus.Token

/-! Faults: the nine causes for which an expression has no value, how each is explained, and runs
that stop at the first fault. -/
namespace Abacus

structure Diagnostic where
  message : String
  location : Option Location := none
  severity : String := "error"
  code : Option String := none
  help : Option String := none
  suggestions : Option (List String) := none
  deriving DecidableEq

namespace Diagnostic

/-- The severity is shown in capitals. An empty code is shown as if there were none. -/
def heading (d : Diagnostic) : String :=
  let label := match d.code with
    | none | some "" => ""
    | some code => "[" ++ code ++ "]"
  Text.uppercase d.severity ++ label ++ ": " ++ d.message

def locationLines (d : Diagnostic) : List String :=
  match d.location with
  | none => []
  | some l => ["  --> " ++ l.text]

def helpLines (d : Diagnostic) : List String :=
  match d.help with
  | none | some "" => []
  | some help => ["  help: " ++ help]

def suggestionLines (d : Diagnostic) : List String :=
  match d.suggestions with
  | none | some [] => []
  | some suggestions => "  suggestions:" :: suggestions.map ("    - " ++ ·)

def lines (d : Diagnostic) : List String :=
  d.heading :: (d.locationLines ++ d.helpLines ++ d.suggestionLines)

def text (d : Diagnostic) : String := Text.joinLines d.lines

end Diagnostic

inductive Cause where
  | invalidCharacter
  | misplacedOperator
  | invalidNumber
  | unmatchedClosing
  | unclosedOpening
  | missingOperand
  | leftoverOperands
  | emptyExpression
  | divisionByZero
  deriving DecidableEq

namespace Cause

def code : Cause → String
  | invalidCharacter => "C001"
  | misplacedOperator => "C002"
  | invalidNumber => "C003"
  | unmatchedClosing => "C004"
  | unclosedOpening => "C005"
  | missingOperand => "C006"
  | leftoverOperands => "C007"
  | emptyExpression => "C008"
  | divisionByZero => "C009"

def title : Cause → String
  | invalidCharacter => "Invalid character"
  | misplacedOperator => "Misplaced operator"
  | invalidNumber => "Invalid numeric literal"
  | unmatchedClosing => "Unbalanced right parenthesis"
  | unclosedOpening => "Unbalanced left parenthesis"
  | missingOperand => "Missing operand"
  | leftoverOperands => "Too many operands"
  | emptyExpression => "Empty expression"
  | divisionByZero => "Division by zero"

def all : List Cause :=
  [invalidCharacter, misplacedOperator, invalidNumber, unmatchedClosing, unclosedOpening,
    missingOperand, leftoverOperands, emptyExpression, divisionByZero]

/-- A division by zero is a matter of values; every other cause is one of form. -/
def isArithmetic (c : Cause) : Bool := c = divisionByZero

theorem mem_all (c : Cause) : c ∈ all := by cases c <;> decide

theorem code_injective {a b : Cause} (h : a.code = b.code) : a = b := by
  have hall : ∀ a ∈ all, ∀ b ∈ all, a.code = b.code → a = b := by decide
  exact hall a (mem_all a) b (mem_all b) h

end Cause

inductive Fault where
  | invalidCharacter (text : String) (location : Option Location)
  | misplacedOperator (lexeme : String) (location : Option Location)
  | invalidNumber (lexeme : String) (location : Option Location) (reason : String)
  | unmatchedClosing (location : Option Location)
  | unclosedOpening (location : Option Location)
  | missingOperand (lexeme : String) (location : Option Location)
  | leftoverOperands (count : Int) (location : Option Location)
  | emptyExpression
  | divisionByZero (location : Option Location)
  deriving DecidableEq

namespace Fault

def cause : Fault → Cause
  | invalidCharacter .. => .invalidCharacter
  | misplacedOperator .. => .misplacedOperator
  | invalidNumber .. => .invalidNumber
  | unmatchedClosing _ => .unmatchedClosing
  | unclosedOpening _ => .unclosedOpening
  | missingOperand .. => .missingOperand
  | leftoverOperands .. => .leftoverOperands
  | emptyExpression => .emptyExpression
  | divisionByZero _ => .divisionByZero

def location : Fault → Option Location
  | invalidCharacter _ l | misplacedOperator _ l | invalidNumber _ l _ | unmatchedClosing l
  | unclosedOpening l | missingOperand _ l | leftoverOperands _ l | divisionByZero l => l
  | emptyExpression => none

def message : Fault → String
  | invalidCharacter text _ => "Invalid character: '" ++ text ++ "'"
  | misplacedOperator lexeme _ => "Operator '" ++ lexeme ++ "' has no left operand"
  | invalidNumber lexeme _ _ => "Invalid numeric literal: '" ++ lexeme ++ "'"
  | unmatchedClosing _ => "Unmatched closing parenthesis ')'"
  | unclosedOpening _ => "Unclosed parenthesis '('"
  | missingOperand lexeme _ => "Operator '" ++ lexeme ++ "' is missing an operand"
  | leftoverOperands count _ =>
    if count = 0 then "Expression has no value"
    else "Expression reduces to " ++ Decimal.render count ++ " values instead of one"
  | emptyExpression => "Expression is empty"
  | divisionByZero _ => "Division by zero"

def codePointText (n : Nat) : String :=
  "U+" ++ String.ofList ((Text.hexadecimal 4 n).map Char.toUpper)

/-- A text that cannot be shown is named by the code point of its first character. -/
def characterHelp (text : String) : String :=
  match Text.isPrintableText text, text.toList with
  | false, c :: _ =>
    "Non-printable character (Unicode: " ++ codePointText c.toNat ++ ") is not allowed."
  | _, _ => "The character '" ++ text ++ "' is not valid in an arithmetic expression."

def help : Fault → String
  | invalidCharacter text _ => characterHelp text
  | misplacedOperator .. =>
    "Only '+' and '-' may appear here, as the sign of the following number."
  | invalidNumber _ _ reason => reason
  | unmatchedClosing _ => "This ')' does not close any open '('."
  | unclosedOpening l => "The opening '(' at " ++ Location.textOrNone l ++ " was never closed."
  | missingOperand .. => "Binary operators need a value on each side."
  | leftoverOperands count _ =>
    if count = 0 then "The expression contains no numbers."
    else "Adjacent values must be joined by an operator; '(2)(3)' is not multiplication."
  | emptyExpression => "Enter an arithmetic expression such as '1+2*3'."
  | divisionByZero _ => "The right-hand side of this '/' evaluates to zero."

def suggestions : Fault → Option (List String)
  | invalidCharacter .. => some ["Use only digits, '+', '-', '*', '/', parentheses and spaces"]
  | misplacedOperator .. => some ["Remove the extra operator", "Add the missing number"]
  | invalidNumber .. => some ["Write one sign directly before the digits of a number"]
  | unmatchedClosing _ => some ["Remove the ')'", "Add the missing '('"]
  | unclosedOpening _ => some ["Add a closing ')'"]
  | missingOperand .. =>
    some ["Check the expression syntax", "Ensure all operators have operands"]
  | leftoverOperands .. => some ["Add the missing operator"]
  | emptyExpression | divisionByZero _ => none

def diagnostic (f : Fault) : Diagnostic where
  message := f.message
  location := f.location
  code := some f.cause.code
  help := some f.help
  suggestions := f.suggestions

end Fault

structure Halt (σ : Type) where
  fault : Fault
  state : σ

def Halt.reached {σ : Type} : Except (Halt σ) σ → σ
  | .ok s => s
  | .error h => h.state

end Abacus
