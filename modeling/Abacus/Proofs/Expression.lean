import Abacus.Lexer

/-! # Expressions and their grammar

An expression is a sum of terms, a term a product of factors, and a factor a literal with at most
one sign or an expression in parentheses. Sums and products group from the left. The grammar is one
of glyphs, so it allows blanks everywhere, and its trees know the places of their operators.
-/
namespace Abacus

/-- A binary node keeps the glyph of its operator. -/
inductive Expression where
  | literal (sign : Option Glyph) (digits : List Glyph)
  | group (opening : Glyph) (inner : Expression) (closing : Glyph)
  | binary (op : Operator) (mark : Glyph) (left right : Expression)

def literalValue (sign : Option Glyph) (digits : List Glyph) : Int :=
  let magnitude : Int := Nat.ofDigitChars 10 (digits.map (·.char)) 0
  if sign.map (·.char) = some '-' then -magnitude else magnitude

namespace Expression

/-- The value where no divisor is zero; a quotient by zero counts as zero. -/
def value : Expression → Int
  | literal sign digits => literalValue sign digits
  | group _ inner _ => inner.value
  | binary .plus _ left right => left.value + right.value
  | binary .minus _ left right => left.value - right.value
  | binary .times _ left right => left.value * right.value
  | binary .divide _ left right => left.value.tdiv right.value

/-- The divisions whose divisor is zero, in the order of evaluation: those in the left operand,
those in the right operand, and then the operator's own. -/
def zeroDivisions : Expression → List Glyph
  | literal .. => []
  | group _ inner _ => inner.zeroDivisions
  | binary op mark left right =>
    left.zeroDivisions ++ right.zeroDivisions ++
      if op = .divide ∧ right.value = 0 then [mark] else []

end Expression

/-- One sign at most and at least one digit. -/
structure IsLiteral (sign : Option Glyph) (digits : List Glyph) : Prop where
  sign_char : ∀ g ∈ sign, g.char = '+' ∨ g.char = '-'
  digits_ne_nil : digits ≠ []
  isDigit : ∀ g ∈ digits, g.char.isDigit = true

inductive Phrase where
  | expression
  | term
  | factor
  deriving DecidableEq

/-- `Derives p gs e`: the glyphs `gs` are a phrase of the kind `p`, and `e` is its tree. -/
inductive Derives : Phrase → List Glyph → Expression → Prop where
  | literal {sign : Option Glyph} {digits : List Glyph} (h : IsLiteral sign digits) :
      Derives .factor (sign.toList ++ digits) (.literal sign digits)
  | group {opening closing : Glyph} {gs : List Glyph} {e : Expression} (ho : opening.char = '(')
      (hc : closing.char = ')') (h : Derives .expression gs e) :
      Derives .factor (opening :: gs ++ [closing]) (.group opening e closing)
  | ofFactor {gs : List Glyph} {e : Expression} (h : Derives .factor gs e) : Derives .term gs e
  | product {op : Operator} {mark : Glyph} {gs hs : List Glyph} {l r : Expression}
      (hop : op.precedence = .factor) (hm : mark.char = op.symbol) (hl : Derives .term gs l)
      (hr : Derives .factor hs r) : Derives .term (gs ++ mark :: hs) (.binary op mark l r)
  | ofTerm {gs : List Glyph} {e : Expression} (h : Derives .term gs e) : Derives .expression gs e
  | sum {op : Operator} {mark : Glyph} {gs hs : List Glyph} {l r : Expression}
      (hop : op.precedence = .term) (hm : mark.char = op.symbol) (hl : Derives .expression gs l)
      (hr : Derives .term hs r) : Derives .expression (gs ++ mark :: hs) (.binary op mark l r)

def WellFormed (gs : List Glyph) : Prop := ∃ e, Derives .expression gs e

theorem WellFormed.of_factor {gs : List Glyph} {e : Expression} (h : Derives .factor gs e) :
    WellFormed gs :=
  ⟨e, .ofTerm (.ofFactor h)⟩

/-- An expression stays one with an operator and a factor behind it, although the operator may bind
more tightly than the last one in it. -/
theorem WellFormed.snoc {op : Operator} {mark : Glyph} {gs hs : List Glyph} {r : Expression}
    (h : WellFormed gs) (hm : mark.char = op.symbol) (hr : Derives .factor hs r) :
    WellFormed (gs ++ mark :: hs) := by
  obtain ⟨e, he⟩ := h
  cases hop : op.precedence with
  | none => cases op <;> contradiction
  | term => exact ⟨_, .sum hop hm he (.ofFactor hr)⟩
  | factor =>
    cases he with
    | ofTerm ht => exact ⟨_, .ofTerm (.product hop hm ht hr)⟩
    | sum hop' hm' hl ht =>
      have := Derives.sum hop' hm' hl (.product hop hm ht hr)
      rw [List.append_assoc]
      exact ⟨_, this⟩

end Abacus
