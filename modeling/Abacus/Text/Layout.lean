import Abacus.Text.Character

/-! Text as it is put out and read: quoted on one line, cut into lines, filled into templates. -/
namespace Abacus.Text

def hexadecimal (width n : Nat) : List Char := (Nat.toDigits 16 n).leftpad width '0'

/-- Single quotes enclose a text, double quotes one that holds single quotes and no double ones. -/
def enclosingQuote (cs : List Char) : Char :=
  if '\'' ∈ cs ∧ '"' ∉ cs then '"' else '\''

/-- How a character is written between two `quote`s. -/
def escaped (quote c : Char) : List Char :=
  if c = quote ∨ c = '\\' then ['\\', c]
  else if c = '\n' then ['\\', 'n']
  else if c = '\r' then ['\\', 'r']
  else if c = '\t' then ['\\', 't']
  else if isPrintable c then [c]
  else if c.toNat < 0x100 then '\\' :: 'x' :: hexadecimal 2 c.toNat
  else if c.toNat < 0x10000 then '\\' :: 'u' :: hexadecimal 4 c.toNat
  else '\\' :: 'U' :: hexadecimal 8 c.toNat

def quoted (s : String) : String :=
  let quote := enclosingQuote s.toList
  String.ofList (quote :: s.toList.flatMap (escaped quote) ++ [quote])

theorem escaped_eq_self {quote c : Char} (plain : isPrintable c = true) (hq : c ≠ quote)
    (hb : c ≠ '\\') : escaped quote c = [c] := by
  have hn : c ≠ '\n' := by rintro rfl; exact absurd plain (by decide)
  have hr : c ≠ '\r' := by rintro rfl; exact absurd plain (by decide)
  have ht : c ≠ '\t' := by rintro rfl; exact absurd plain (by decide)
  simp [escaped, plain, hq, hb, hn, hr, ht]

def consLine (c : Char) : List (List Char) → List (List Char)
  | [] => [[c]]
  | line :: rest => if c = '\n' then [c] :: line :: rest else (c :: line) :: rest

def cutLines (cs : List Char) : List (List Char) := cs.foldr consLine []

def lines (s : String) : List String := (cutLines s.toList).map String.ofList

theorem flatten_consLine (c : Char) (ls : List (List Char)) :
    (consLine c ls).flatten = c :: ls.flatten := by
  cases ls with
  | nil => rfl
  | cons line rest => by_cases h : c = '\n' <;> simp [consLine, h]

theorem flatten_cutLines (cs : List Char) : (cutLines cs).flatten = cs := by
  induction cs with
  | nil => rfl
  | cons c cs ih => rw [cutLines, List.foldr_cons, flatten_consLine]; exact congrArg _ ih

def joinLines (ls : List String) : String := String.join (ls.map (· ++ "\n"))

def chomp (line : String) : String :=
  String.ofList ((line.toList.reverse.dropWhile fun c => c = '\n' ∨ c = '\r').reverse)

inductive Piece where
  | literal (c : Char)
  | result
  deriving DecidableEq

namespace Piece

/-- A brace that is neither doubled nor part of a place is taken as text. -/
def read : List Char → List Piece
  | [] => []
  | '{' :: '{' :: rest => .literal '{' :: read rest
  | '}' :: '}' :: rest => .literal '}' :: read rest
  | '{' :: 'r' :: 'e' :: 's' :: 'u' :: 'l' :: 't' :: '}' :: rest => .result :: read rest
  | c :: rest => .literal c :: read rest

def fill (result : List Char) : Piece → List Char
  | .literal c => [c]
  | .result => result

end Piece

def fillTemplate (template result : String) : String :=
  String.ofList ((Piece.read template.toList).flatMap (Piece.fill result.toList))

end Abacus.Text
