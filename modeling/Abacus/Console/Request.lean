import Abacus.Console.Answer

/-! Requests: what a command line asks for. Its words are read one by one, and its switches carried
out from the left. -/
namespace Abacus.Console

inductive Switch where
  | help
  | expression
  | showTokens
  | exitCommand
  | prompt
  | verbose
  deriving DecidableEq

namespace Switch

def all : List Switch := [help, expression, showTokens, exitCommand, prompt, verbose]

def letter? : Switch → Option Char
  | help => some 'h'
  | expression => some 'e'
  | verbose => some 'v'
  | showTokens | exitCommand | prompt => none

def longName : Switch → String
  | help => "--help"
  | expression => "--expression"
  | showTokens => "--show-tokens"
  | exitCommand => "--exit-command"
  | prompt => "--prompt"
  | verbose => "--verbose"

def takesValue : Switch → Bool
  | expression | exitCommand | prompt => true
  | help | showTokens | verbose => false

def title (s : Switch) : String :=
  match s.letter? with
  | none => s.longName
  | some c => "-" ++ c.toString ++ "/" ++ s.longName

def ofLetter? (c : Char) : Option Switch := all.find? fun s => s.letter? = some c

def ofLongName? (name : String) : Option Switch := all.find? fun s => s.longName = name

def startingWith (stem : String) : List Switch :=
  all.filter fun s => stem.toList.isPrefixOf s.longName.toList

theorem mem_all (s : Switch) : s ∈ all := by cases s <;> decide

end Switch

inductive UsageError where
  | ambiguous (word : String) (candidates : List Switch)
  | missingValue (s : Switch)
  | ignoredValue (s : Switch) (text : String)
  | unrecognized (words : List String)
  deriving DecidableEq

inductive Word where
  | plain (text : String)
  | separator
  | switch (s : Switch) (short : Bool) (attached : Option (List Char))
  | unknown (text : String)
  deriving DecidableEq

namespace Word

def cut (cs : List Char) : List Char × Option (List Char) :=
  match cs.dropWhile (· ≠ '=') with
  | [] => (cs, none)
  | _ :: text => (cs.takeWhile (· ≠ '='), some text)

/-- A minus and then an integer or decimal fraction; a line feed may end it. -/
def looksNegative (cs : List Char) : Bool :=
  let cs := if cs.getLast? = some '\n' then cs.dropLast else cs
  match cs with
  | '-' :: number =>
    match number.dropWhile Text.isDecimalDigit with
    | [] => number ≠ []
    | '.' :: fraction => fraction ≠ [] && fraction.all Text.isDecimalDigit
    | _ => false
  | _ => false

/-- A word that looks like a switch and is none may still be a number, or text with spaces. -/
def ofStray (word : String) : Word :=
  if looksNegative word.toList || ' ' ∈ word.toList then .plain word else .unknown word

/-- A long name may be shortened as long as only one switch begins that way. -/
def ofLong (word : String) : Except UsageError Word :=
  let (stem, attached) := cut word.toList
  match Switch.ofLongName? (String.ofList stem) with
  | some s => .ok (.switch s false attached)
  | none =>
    match Switch.startingWith (String.ofList stem) with
    | [] => .ok (ofStray word)
    | [s] => .ok (.switch s false attached)
    | candidates => .error (.ambiguous word candidates)

/-- What follows the letter of a short switch is attached to it, with or without a `=` between. -/
def attachedToLetter : List Char → Option (List Char)
  | [] => none
  | '=' :: text => some text
  | text => some text

def ofShort (word : String) (letter : Char) (rest : List Char) : Word :=
  match Switch.ofLetter? letter with
  | some s => .switch s true (attachedToLetter rest)
  | none => ofStray word

def read (word : String) : Except UsageError Word :=
  match word.toList with
  | '-' :: '-' :: _ => ofLong word
  | '-' :: letter :: rest => .ok (ofShort word letter rest)
  | _ => .ok (.plain word)

/-- From the word `--` on, nothing is a switch. -/
def readAll : List String → Except UsageError (List Word)
  | [] => .ok []
  | word :: rest =>
    if word = "--" then .ok (.separator :: rest.map .plain)
    else do return (← read word) :: (← readAll rest)

end Word

structure Request where
  expression : Option String := none
  overrides : Overrides := {}
  deriving DecidableEq

/-- Why no request comes of a command line: help was asked for, or it is misused. -/
inductive Refusal where
  | help
  | usage (e : UsageError)
  deriving DecidableEq

inductive Bundle.Remainder where
  | nothing
  | value (s : Switch) (text : String)
  | wanting (s : Switch)
  deriving DecidableEq

/-- A word may hold several short switches; only the last can take a value. -/
structure Bundle where
  flags : List Switch
  remainder : Bundle.Remainder
  deriving DecidableEq

namespace Bundle

def ofBare (s : Switch) : Bundle :=
  if s.takesValue then ⟨[], .wanting s⟩ else ⟨[s], .nothing⟩

/-- A switch with text attached. Without a use for a value, a short switch takes the text for more
letters. From the second letter on a `=` is text like any other, so it can begin a value. -/
def ofAttached (s : Switch) (short : Bool) (text : List Char) : Except UsageError Bundle :=
  if s.takesValue then .ok ⟨[], .value s (String.ofList text)⟩
  else
    let ignored := UsageError.ignoredValue s (String.ofList text)
    match short, text with
    | false, _ | true, [] => .error ignored
    | true, letter :: rest =>
      match Switch.ofLetter? letter, rest with
      | none, _ => .error ignored
      | some t, [] => .ok { ofBare t with flags := s :: (ofBare t).flags }
      | some t, rest => do
        let b ← ofAttached t true rest
        return { b with flags := s :: b.flags }

def ofSwitch (s : Switch) (short : Bool) : Option (List Char) → Except UsageError Bundle
  | none => .ok (ofBare s)
  | some text => ofAttached s short text

end Bundle

namespace Request

def raise (r : Request) : Switch → Except Refusal Request
  | .help => .error .help
  | .showTokens => .ok { r with overrides.showTokens := true }
  | .verbose => .ok { r with overrides.verbose := true }
  | .expression | .exitCommand | .prompt => .ok r

/-- Of several values for one switch the last counts. -/
def assign (r : Request) (s : Switch) (text : String) : Request :=
  match s with
  | .expression => { r with expression := some text }
  | .exitCommand => { r with overrides.exitCommand := some text }
  | .prompt => { r with overrides.prompt := some text }
  | .help | .showTokens | .verbose => r

/-- Carries out words in their order; `strays` are the words without a meaning so far. A value that
is not attached must be the next word, and a plain one. -/
def carryOut (r : Request) (strays : List String) : List Word → Except Refusal Request
  | [] => if strays = [] then .ok r else .error (.usage (.unrecognized strays))
  | .plain text :: rest => carryOut r (strays ++ [text]) rest
  | .unknown text :: rest => carryOut r (strays ++ [text]) rest
  | .separator :: rest => carryOut r (strays ++ ["--"]) rest
  | .switch s short attached :: rest =>
    match Bundle.ofSwitch s short attached with
    | .error e => .error (.usage e)
    | .ok ⟨flags, .nothing⟩ => do carryOut (← flags.foldlM raise r) strays rest
    | .ok ⟨flags, .value t text⟩ => do
      carryOut ((← flags.foldlM raise r).assign t text) strays rest
    | .ok ⟨flags, .wanting t⟩ =>
      match rest with
      | .plain text :: rest => do
        carryOut ((← flags.foldlM raise r).assign t text) strays rest
      | _ => .error (.usage (.missingValue t))

/-- All words are read before the first is carried out. -/
def ofArguments (arguments : List String) : Except Refusal Request :=
  match Word.readAll arguments with
  | .error e => .error (.usage e)
  | .ok words => carryOut {} [] words

end Request

def programName : String := "intcalc"

def usageLines : List String :=
  ["usage: " ++ programName ++ " [-h] [-e EXPRESSION] [--show-tokens] [--exit-command WORD]",
    "               [--prompt TEXT] [-v]"]

def helpText : String :=
  Text.joinLines (usageLines ++
    ["",
      "Integer arithmetic calculator",
      "",
      "options:",
      "  -h, --help            show this help message and exit",
      "  -e EXPRESSION, --expression EXPRESSION",
      "                        Evaluate EXPRESSION, print the result and exit",
      "  --show-tokens         Print the token stream before each result",
      "  --exit-command WORD   Word that ends the interactive session (default: exit)",
      "  --prompt TEXT         Prompt printed before reading each expression",
      "  -v, --verbose         Enable debug logging and full error diagnostics",
      "",
      "Examples:",
      "    intcalc                          # Interactive session",
      "    intcalc -e \"(2*-8)/(-3+1)\"       # Evaluate once and exit",
      "    intcalc --show-tokens -v         # Show tokens and full diagnostics",
      "        "])

namespace UsageError

def message : UsageError → String
  | ambiguous word candidates =>
    "ambiguous option: " ++ word ++ " could match " ++
      ", ".intercalate (candidates.map Switch.longName)
  | missingValue s => "argument " ++ s.title ++ ": expected one argument"
  | ignoredValue s text =>
    "argument " ++ s.title ++ ": ignored explicit argument " ++ Text.quoted text
  | unrecognized words => "unrecognized arguments: " ++ " ".intercalate words

def text (e : UsageError) : String :=
  Text.joinLines (usageLines ++ [programName ++ ": error: " ++ e.message])

end UsageError
end Abacus.Console
