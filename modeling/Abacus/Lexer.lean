import Abacus.Fault

/-! From text to tokens. A scan goes through the glyphs of an expression, which are its characters
that are not blank with their offsets, so blanks can only shift places. A `+` or `-` where an
operand is expected is the sign of the number that follows; elsewhere it is an operator. A lexer
keeps a text with the scan of it. -/
namespace Abacus

structure Glyph where
  char : Char
  offset : Nat
  deriving DecidableEq

inductive Glyph.Role where
  | digit
  | operator (op : Operator)
  | leftParen
  | rightParen
  | foreign
  deriving DecidableEq

namespace Glyph

def ofIndexed (p : Char × Nat) : Option Glyph :=
  if Text.isBlank p.1 then none else some ⟨p.1, p.2⟩

def ofText (source : String) : List Glyph := source.toList.zipIdx.filterMap ofIndexed

def Role.ofChar (c : Char) : Role :=
  if c.isDigit then digit
  else match Operator.ofChar? c with
    | some op => operator op
    | none => if c = '(' then leftParen else if c = ')' then rightParen else foreign

def role (g : Glyph) : Role := Role.ofChar g.char

theorem map_char_filterMap (cs : List Char) (n : Nat) :
    ((cs.zipIdx n).filterMap ofIndexed).map char = cs.filter (!Text.isBlank ·) := by
  induction cs generalizing n with
  | nil => rfl
  | cons c cs ih => cases h : Text.isBlank c <;> simp [ofIndexed, h, ih]

theorem map_char_ofText (source : String) :
    (ofText source).map char = source.toList.filter (!Text.isBlank ·) :=
  map_char_filterMap source.toList 0

theorem getElem?_of_mem_ofText {source : String} {g : Glyph} (h : g ∈ ofText source) :
    source.toList[g.offset]? = some g.char ∧ Text.isBlank g.char = false := by
  obtain ⟨⟨c, i⟩, mem, made⟩ := List.mem_filterMap.mp h
  cases hb : Text.isBlank c <;> simp [ofIndexed, hb] at made
  subst made
  exact ⟨List.mem_zipIdx_iff_getElem?.mp mem, hb⟩

end Glyph

/-- `literal` holds the signs and digits of the number being read and `start` its offset. An operand
is expected at the start, after an operator or a sign, and after an opening parenthesis. -/
structure Scan where
  tokens : Array Token := #[]
  literal : String := ""
  start : Nat := 0
  expectsOperand : Bool := true

namespace Scan

def extend (s : Scan) (g : Glyph) (expectsOperand : Bool) : Scan :=
  { s with
    literal := s.literal.push g.char
    start := if s.literal.isEmpty then g.offset else s.start
    expectsOperand }

def flush (filename : String) (s : Scan) : Except (Halt Scan) Scan :=
  if s.literal.isEmpty then .ok s
  else
    let location := some (Location.ofOffset filename s.start)
    match Literal.read s.literal.toList with
    | .error defect => .error ⟨.invalidNumber s.literal location defect.reason, s⟩
    | .ok value =>
      let number : Token := ⟨.number, s.literal, some value, location⟩
      .ok { s with tokens := s.tokens.push number, literal := "" }

def emit (filename : String) (s : Scan) (g : Glyph) (kind : Token.Kind) (expectsOperand : Bool) :
    Scan :=
  let location := some (Location.ofOffset filename g.offset)
  { s with tokens := s.tokens.push ⟨kind, g.char.toString, none, location⟩, expectsOperand }

/-- A literal ends where an operator or a parenthesis is met; a foreign character ends the scan and
leaves the literal as it is. -/
def step (filename : String) (s : Scan) (g : Glyph) : Except (Halt Scan) Scan :=
  let location := some (Location.ofOffset filename g.offset)
  match g.role with
  | .digit => .ok (s.extend g false)
  | .operator op =>
    if s.expectsOperand then
      if op.isSign then .ok (s.extend g true)
      else .error ⟨.misplacedOperator g.char.toString location, s⟩
    else do return (← s.flush filename).emit filename g (.operator op) true
  | .leftParen => do return (← s.flush filename).emit filename g .leftParen true
  | .rightParen => do return (← s.flush filename).emit filename g .rightParen false
  | .foreign => .error ⟨.invalidCharacter g.char.toString location, s⟩

/-- Reads glyphs up to the end of the text, where a last literal ends too. -/
def read (filename : String) (s : Scan) (glyphs : List Glyph) : Except (Halt Scan) Scan := do
  (← glyphs.foldlM (step filename) s).flush filename

def ofText (filename source : String) : Except (Halt Scan) Scan :=
  read filename {} (Glyph.ofText source)

/-- The tokens that a scan has read, those before a fault included. -/
def tokensRead (filename source : String) : List Token :=
  (Halt.reached (ofText filename source)).tokens.toList

end Scan

/-- The tokens of a text, or the first fault in it. A blank text has no tokens and no fault. -/
def tokenize (filename source : String) : Except Fault (List Token) :=
  match Scan.ofText filename source with
  | .ok s => .ok s.tokens.toList
  | .error h => .error h.fault

/-- `scan` is what the last run has come to. Behind a fault it still holds the literal that was
being read or was rejected. -/
structure Lexer where
  filename : String
  source : String
  scan : Scan := {}

namespace Lexer

def tokens (l : Lexer) : List Token := l.scan.tokens.toList

def reset (l : Lexer) : Lexer := { l with scan := {} }

/-- Every run goes through the whole text, from an empty scan on. -/
def run (l : Lexer) : Except Fault (List Token) × Lexer :=
  let l := l.reset
  match l.scan.read l.filename (Glyph.ofText l.source) with
  | .ok s => (.ok s.tokens.toList, { l with scan := s })
  | .error h => (.error h.fault, { l with scan := h.state })

def runs (l : Lexer) : Nat → List (Except Fault (List Token) × Lexer)
  | 0 => []
  | n + 1 => l.run :: l.run.2.runs n

end Lexer
end Abacus
