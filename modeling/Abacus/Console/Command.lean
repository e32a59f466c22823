import Abacus.Console.Request

/-! The command: from arguments and input to everything that is put out and the exit status. A
session answers line by line, and a single expression can be answered by itself. -/
namespace Abacus.Console

structure Session where
  settings : Settings := {}
  calculator : Calculator := ⟨"<stdin>"⟩

/-- How the input ends: it is used up, or the user breaks it off. -/
inductive InputEnd where
  | closed
  | interrupted
  deriving DecidableEq

structure Reply where
  emissions : List Emission
  text : String

/-- A session that is over; `unread` is the input after the line that ended it. -/
structure Transcript where
  emissions : List Emission
  status : Nat
  unread : String

namespace Session

def reply (s : Session) (line : String) : Reply :=
  let answer := Answer.ofExpression s.settings s.calculator line
  match answer.outcome with
  | .ok v => ⟨answer.emissions, Text.fillTemplate s.settings.resultTemplate (Decimal.render v)⟩
  | .error f => ⟨answer.emissions, s.settings.faultText f⟩

def greeting (s : Session) : List Emission :=
  [.line s.settings.banner, .line s.settings.instructions]

/-- Even the prompt is a line of its own. -/
def prompt (s : Session) : Emission := .line s.settings.prompt

/-- Blanks around the word for leaving do not count. -/
def isExit (s : Session) (line : String) : Bool :=
  Text.trim (Text.chomp line) = s.settings.exitCommand

def exchange (s : Session) (line : String) : List Emission :=
  let reply := s.reply (Text.chomp line)
  reply.emissions ++ [.line reply.text]

def farewell : InputEnd → List Emission × Nat
  | .closed => ([.log .inputEnded], 0)
  | .interrupted => ([.out "\n"], 130)

def converse (s : Session) (inputEnd : InputEnd) : List String → Transcript
  | [] =>
    let (last, status) := farewell inputEnd
    ⟨s.prompt :: last, status, ""⟩
  | line :: rest =>
    if s.isExit line then ⟨[s.prompt], 0, String.join rest⟩
    else
      let later := s.converse inputEnd rest
      { later with emissions := s.prompt :: s.exchange line ++ later.emissions }

def run (s : Session) (inputEnd : InputEnd) (input : String) : Transcript :=
  let transcript := s.converse inputEnd (Text.lines input)
  { transcript with emissions := s.greeting ++ transcript.emissions }

end Session

def oneShotCalculator : Calculator := ⟨"<command line>"⟩

/-- Faults go to the standard error, the diagnostic with an empty line after it. -/
def faultEmissions (s : Settings) (f : Fault) : List Emission :=
  .err (s.faultMessage f ++ "\n") ::
    if s.verbose then [.err (f.diagnostic.text ++ "\n")] else []

def oneShot (s : Settings) (expression : String) : Report :=
  let answer := Answer.ofExpression s oneShotCalculator expression
  match answer.outcome with
  | .ok v => ⟨answer.emissions ++ [.line (Decimal.render v)], 0⟩
  | .error f => ⟨answer.emissions ++ faultEmissions s f, 1⟩

namespace Refusal

def report : Refusal → Report
  | help => ⟨[.out helpText], 0⟩
  | usage e => ⟨[.err e.text], 2⟩

end Refusal

namespace Request

def settings (r : Request) : Settings := ({} : Settings).overlay r.overrides

/-- An expression on the command line, even an empty one, takes the place of a session. -/
def serve (r : Request) (inputEnd : InputEnd) (input : String) : Report :=
  let report := match r.expression with
    | some e => oneShot r.settings e
    | none =>
      let transcript := ({ settings := r.settings : Session }).run inputEnd input
      ⟨transcript.emissions, transcript.status⟩
  { report with emissions := Emission.visible r.settings.verbose report.emissions }

end Request

def command (arguments : List String) (inputEnd : InputEnd) (input : String) : Report :=
  match Request.ofArguments arguments with
  | .error refusal => refusal.report
  | .ok request => request.serve inputEnd input

end Abacus.Console
