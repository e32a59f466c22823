import Abacus.Proofs.Expression
import Abacus.Lexer

/-! # What a scan reads

A text is read as tokens if its glyphs fall into literals, operators and parentheses such that an
operator comes only where no operand is expected, a sign only where one is, and no two literals
meet. A scan succeeds on exactly the texts that can be read, and its tokens are those read.
-/
namespace Abacus

private theorem foldl_chunks (chunks : List (List Char)) (n : Nat) :
    chunks.foldl
        (fun n chunk => n * Decimal.powerOfTen chunk.length + Decimal.valueOfChunk chunk) n =
      Nat.ofDigitChars 10 chunks.flatten n := by
  induction chunks generalizing n with
  | nil => rfl
  | cons chunk chunks ih =>
    rw [List.foldl_cons, ih, List.flatten_cons, Nat.ofDigitChars_append,
      Nat.ofDigitChars_eq_ofDigitChars_zero (l := chunk), Decimal.valueOfChunk,
      Nat.mul_comm n]
    rfl

/-- Reading in chunks gives the positional value. -/
theorem Decimal.value_eq_ofDigitChars (ds : List Char) : value ds = Nat.ofDigitChars 10 ds 0 := by
  rw [value, foldl_chunks, flatten_chunks]

theorem Literal.isSign_eq_false {c : Char} (h : c.isDigit = true) : isSign c = false := by
  have hplus : c ≠ '+' := by rintro rfl; exact absurd h (by decide)
  have hminus : c ≠ '-' := by rintro rfl; exact absurd h (by decide)
  simp [isSign, hplus, hminus]

theorem Literal.cut_append {ss cs : List Char} (hs : ∀ c ∈ ss, isSign c = true)
    (hc : ∀ c ∈ cs.head?, isSign c = false) : signs (ss ++ cs) = ss ∧ digits (ss ++ cs) = cs := by
  rw [signs, digits, List.takeWhile_append_of_pos hs, List.dropWhile_append_of_pos hs]
  cases cs with
  | nil => simp
  | cons c cs => simp [hc c rfl]

theorem Literal.read_append {ss ds : List Char} (hs : ∀ c ∈ ss, isSign c = true)
    (hd : ∀ c ∈ ds, c.isDigit = true) :
    read (ss ++ ds) = if ds = [] then .error .noDigits
      else if 1 < ss.length then .error .severalSigns
      else .ok (signed ss (Nat.ofDigitChars 10 ds 0)) := by
  obtain ⟨hsigns, hdigits⟩ :=
    cut_append hs fun c hc => isSign_eq_false (hd c (List.mem_of_head? hc))
  rw [read, hsigns, hdigits, Decimal.value_eq_ofDigitChars]

namespace Token

def Kind.endsOperand : Kind → Bool
  | number | rightParen => true
  | operator _ | leftParen => false

/-- The character that a token of the kind is by itself. -/
def Kind.char? : Kind → Option Char
  | number => none
  | operator op => some op.symbol
  | leftParen => some '('
  | rightParen => some ')'

def ofGlyph (filename : String) (kind : Kind) (g : Glyph) : Token :=
  ⟨kind, g.char.toString, none, some (.ofOffset filename g.offset)⟩

def ofLiteral (filename : String) (sign : Option Glyph) (digits : List Glyph) : Token where
  kind := .number
  lexeme := String.ofList ((sign.toList ++ digits).map (·.char))
  value := some (literalValue sign digits)
  location := (sign.toList ++ digits).head?.map (.ofOffset filename ·.offset)

end Token

def Glyph.Role.kind? : Role → Option Token.Kind
  | operator op => some (.operator op)
  | leftParen => some .leftParen
  | rightParen => some .rightParen
  | digit | foreign => none

/-- An operand must come first, and after each token that does not end one. -/
def awaitsOperand (ts : List Token) : Bool := !ts.getLast?.any (·.kind.endsOperand)

def endsInNumber (ts : List Token) : Bool := ts.getLast?.any (·.kind = .number)

@[simp] theorem awaitsOperand_append (ts : List Token) (t : Token) :
    awaitsOperand (ts ++ [t]) = !t.kind.endsOperand := by
  simp [awaitsOperand]

@[simp] theorem endsInNumber_append (ts : List Token) (t : Token) :
    endsInNumber (ts ++ [t]) = decide (t.kind = .number) := by
  simp [endsInNumber]

theorem endsInNumber_eq_false {ts : List Token} (h : awaitsOperand ts = true) :
    endsInNumber ts = false := by
  rw [awaitsOperand] at h
  rw [endsInNumber]
  cases hl : ts.getLast? with
  | none => rfl
  | some t =>
    cases hk : t.kind <;> simp_all [Token.Kind.endsOperand]

/-- `Reads filename gs ts`: the glyphs `gs` are read as the tokens `ts`. -/
inductive Reads (filename : String) : List Glyph → List Token → Prop where
  | nil : Reads filename [] []
  | literal {gs : List Glyph} {ts : List Token} {sign : Option Glyph} {digits : List Glyph}
      (h : Reads filename gs ts) (hl : IsLiteral sign digits)
      (hs : sign ≠ none → awaitsOperand ts = true) (hn : endsInNumber ts = false) :
      Reads filename (gs ++ (sign.toList ++ digits)) (ts ++ [.ofLiteral filename sign digits])
  | mark {gs : List Glyph} {ts : List Token} {g : Glyph} {k : Token.Kind}
      (h : Reads filename gs ts) (hk : g.role.kind? = some k)
      (he : ∀ op, k = .operator op → awaitsOperand ts = false) :
      Reads filename (gs ++ [g]) (ts ++ [.ofGlyph filename k g])

end Abacus
