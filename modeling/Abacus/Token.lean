import Abacus.Decimal
import Abacus.Text.Layout

/-! Tokens: numbers, operators and parentheses with the text they were written as and its place. -/
namespace Abacus

inductive Operator where
  | plus
  | minus
  | times
  | divide
  deriving DecidableEq

inductive Precedence where
  | none
  | term
  | factor
  deriving DecidableEq

/-- The integer quotient, rounded toward zero: it is that of the magnitudes, and negative where just
one of the operands is. -/
def quotient (dividend divisor : Int) : Int :=
  let magnitude : Int := (dividend.natAbs / divisor.natAbs : Nat)
  if decide (dividend < 0) != decide (divisor < 0) then -magnitude else magnitude

theorem natAbs_quotient (a b : Int) : (quotient a b).natAbs = a.natAbs / b.natAbs := by
  unfold quotient
  split
  · exact (Int.natAbs_neg _).trans (Int.natAbs_natCast _)
  · exact Int.natAbs_natCast _

theorem quotient_eq_tdiv (a b : Int) : quotient a b = a.tdiv b := by
  have hof (n : Nat) : decide (Int.ofNat n < 0) = false :=
    decide_eq_false (Int.not_lt.mpr (Int.natCast_nonneg n))
  have hneg (n : Nat) : decide (Int.negSucc n < 0) = true := decide_eq_true (Int.negSucc_lt_zero n)
  unfold quotient
  cases a with
  | ofNat m =>
    cases b with
    | ofNat n => rw [hof, hof]; rfl
    | negSucc n => rw [hof, hneg]; rfl
  | negSucc m =>
    cases b with
    | ofNat n => rw [hneg, hof]; rfl
    | negSucc n => rw [hneg, hneg]; rfl

namespace Precedence

def level : Precedence → Nat
  | none => 0
  | term => 1
  | factor => 2

def name : Precedence → String
  | none => "NONE"
  | term => "TERM"
  | factor => "FACTOR"

end Precedence

namespace Operator

def symbol : Operator → Char
  | plus => '+'
  | minus => '-'
  | times => '*'
  | divide => '/'

def ofChar? : Char → Option Operator
  | '+' => some plus
  | '-' => some minus
  | '*' => some times
  | '/' => some divide
  | _ => none

/-- The operators that may also stand before a number as its sign. -/
def isSign : Operator → Bool
  | plus | minus => true
  | times | divide => false

def precedence : Operator → Precedence
  | plus | minus => .term
  | times | divide => .factor

/-- Whether `op`, met later, leaves a pending `waiting` to be carried out first: operators of one
level group from the left. -/
def yieldsTo (op waiting : Operator) : Bool := op.precedence.level ≤ waiting.precedence.level

def compute? : Operator → Int → Int → Option Int
  | plus, left, right => some (left + right)
  | minus, left, right => some (left - right)
  | times, left, right => some (left * right)
  | divide, left, right => if right = 0 then none else some (quotient left right)

theorem ofChar?_symbol (op : Operator) : ofChar? op.symbol = some op := by cases op <;> rfl

theorem ofChar?_eq_some_iff {c : Char} {op : Operator} : ofChar? c = some op ↔ c = op.symbol := by
  constructor
  · intro h
    unfold ofChar? at h
    split at h <;> cases h <;> rfl
  · rintro rfl
    exact ofChar?_symbol op

theorem compute?_eq_none_iff {op : Operator} {left right : Int} :
    op.compute? left right = none ↔ op = divide ∧ right = 0 := by
  cases op <;> simp [compute?]

end Operator

/-- Lines and columns count from one, offsets from zero. -/
structure Location where
  filename : String
  line : Int
  column : Int
  offset : Int
  deriving DecidableEq

namespace Location

/-- An expression is a single line, so a column tells no more than the offset. -/
def ofOffset (filename : String) (offset : Nat) : Location := ⟨filename, 1, offset + 1, offset⟩

def text (l : Location) : String :=
  l.filename ++ ":" ++ Decimal.render l.line ++ ":" ++ Decimal.render l.column

def textOrNone : Option Location → String
  | none => "None"
  | some l => l.text

end Location

inductive Token.Kind where
  | number
  | operator (op : Operator)
  | leftParen
  | rightParen
  deriving DecidableEq

/-- A token starts at its location; a number carries its value and nothing else needs one. -/
structure Token where
  kind : Token.Kind
  lexeme : String
  value : Option Int
  location : Option Location
  deriving DecidableEq

namespace Token

namespace Kind

def name : Kind → String
  | number => "NUMBER"
  | operator .plus => "PLUS"
  | operator .minus => "MINUS"
  | operator .times => "MULTIPLY"
  | operator .divide => "DIVIDE"
  | leftParen => "LEFT_PAREN"
  | rightParen => "RIGHT_PAREN"

def all : List Kind :=
  [number, operator .plus, operator .minus, operator .times, operator .divide, leftParen,
    rightParen]

def operator? : Kind → Option Operator
  | operator op => some op
  | _ => none

def precedence : Kind → Precedence
  | operator op => op.precedence
  | _ => .none

theorem mem_all (k : Kind) : k ∈ all := by
  cases k with
  | operator op => cases op <;> decide
  | _ => decide

end Kind

/-- The value is shown beside the lexeme where the two differ. -/
def text (t : Token) : String :=
  let shown := match t.value with
    | none => Text.quoted t.lexeme
    | some v =>
      if Decimal.render v = t.lexeme then Text.quoted t.lexeme
      else Text.quoted t.lexeme ++ " -> " ++ Decimal.render v
  t.kind.name ++ "(" ++ shown ++ ")"

def fullText (t : Token) : String :=
  let value := (t.value.map Decimal.render).getD "None"
  let location := match t.location with
    | none => "None"
    | some l =>
      let numbers := [l.line, l.column, l.offset].map Decimal.render
      "SourceLocation(" ++ ", ".intercalate (Text.quoted l.filename :: numbers) ++ ")"
  "Token(" ++ ", ".intercalate [t.kind.name, Text.quoted t.lexeme, value, location] ++ ")"

end Token
end Abacus
