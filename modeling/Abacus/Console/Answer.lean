import Abacus.Calculator

/-! Answers: what the console puts out for an expression under given settings. -/
namespace Abacus.Console

def standardInstructions (exitCommand : String) : String :=
  "Type expressions to be calculated, or enter '" ++ exitCommand ++ "' to quit.\n"

structure Settings where
  banner : String := "Welcome to calculator!"
  instructions : String := standardInstructions "exit"
  prompt : String := "Please enter an expression: "
  exitCommand : String := "exit"
  resultTemplate : String := "Result = \x7bresult\x7d\n"
  arithmeticErrorMessage : String := "Oops, there is an arithmetic error in the expression"
  semanticErrorMessage : String := "Oops, there is a semantic error in the expression"
  showTokens : Bool := false
  verbose : Bool := false
  deriving DecidableEq

structure Overrides where
  exitCommand : Option String := none
  prompt : Option String := none
  showTokens : Bool := false
  verbose : Bool := false
  deriving DecidableEq

namespace Settings

/-- An empty word cannot be chosen for leaving; a new one brings its instructions with it. -/
def withExitCommand (s : Settings) : Option String → Settings
  | none | some "" => s
  | some word => { s with exitCommand := word, instructions := standardInstructions word }

/-- Switches can only be turned on. -/
def overlay (s : Settings) (o : Overrides) : Settings :=
  { s.withExitCommand o.exitCommand with
    prompt := o.prompt.getD s.prompt
    showTokens := s.showTokens || o.showTokens
    verbose := s.verbose || o.verbose }

end Settings

inductive Emission where
  | out (text : String)
  | err (text : String)
  | log (event : Event)
  deriving DecidableEq

structure Report where
  emissions : List Emission
  status : Nat

namespace Emission

def line (text : String) : Emission := .out (text ++ "\n")

def stdoutText : Emission → String
  | out text => text
  | _ => ""

/-- What the emission adds to the standard error, where the log goes as well. -/
def stderrText (stamp : String) : Emission → String
  | out _ => ""
  | err text => text
  | log e => e.logLine stamp ++ "\n"

def isLog : Emission → Bool
  | log _ => true
  | _ => false

/-- The log is kept only where it is asked for. -/
def visible (verbose : Bool) (es : List Emission) : List Emission :=
  if verbose then es else es.filter (!·.isLog)

def stdout (es : List Emission) : String := String.join (es.map stdoutText)

def stderr (stamp : String) (es : List Emission) : String :=
  String.join (es.map (stderrText stamp))

theorem stdout_append (es fs : List Emission) : stdout (es ++ fs) = stdout es ++ stdout fs := by
  simp [stdout, String.join_append]

end Emission

structure Answer where
  emissions : List Emission
  outcome : Except Fault Int

def tokenLine (tokens : List Token) : String :=
  "Tokens: " ++ " ".intercalate (tokens.map Token.text)

namespace Answer

def ofTraced (t : Traced Int) : Answer := ⟨t.events.map .log, t.answer⟩

/-- To show its tokens an expression is scanned once more, before it is calculated. -/
def ofExpression (s : Settings) (c : Calculator) (expression : String) : Answer :=
  let calculated := ofTraced (c.calculate (some expression))
  if s.showTokens then
    let lexed := c.tokenize (some expression)
    match lexed.answer with
    | .error f => ⟨lexed.events.map .log, .error f⟩
    | .ok tokens =>
      ⟨lexed.events.map .log ++ .line (tokenLine tokens) :: calculated.emissions,
        calculated.outcome⟩
  else calculated

end Answer

namespace Settings

/-- The message for a fault, which does not say more than its kind. -/
def faultMessage (s : Settings) (f : Fault) : String :=
  if f.cause.isArithmetic then s.arithmeticErrorMessage else s.semanticErrorMessage

def faultText (s : Settings) (f : Fault) : String :=
  if s.verbose then s.faultMessage f ++ "\n" ++ f.diagnostic.text else s.faultMessage f

end Settings
end Abacus.Console
