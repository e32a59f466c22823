import Abacus.Proofs.Composition
import Abacus.Proofs.Meaning
import Abacus.Proofs.Structure

/-! # Subtracting a literal and adding its negative

A literal with the other sign at the head of a term gives the term the other value: multiplication
is odd in its left operand, and so is division that rounds toward zero. So a sign can move from an
operator into the literal behind it, whatever follows the literal and stands around the term.
-/
namespace Abacus

def Operator.opposite : Operator → Operator
  | plus => minus
  | minus => plus
  | op => op

theorem Operator.symbol_injective {a b : Operator} (h : a.symbol = b.symbol) : a = b := by
  have hchar := ofChar?_symbol a
  rw [h, ofChar?_symbol] at hchar
  exact (Option.some.inj hchar).symm

namespace Expression

/-- The second tree has `s` times the value of the first, and both divide by zero or neither. -/
structure Scaled (s : Int) (e e' : Expression) : Prop where
  value : e'.value = s * e.value
  zeroDivisions : e'.zeroDivisions = [] ↔ e.zeroDivisions = []

variable {s : Int} {e e' l l' r r' : Expression} {op : Operator} {mark mark' : Glyph}

theorem Scaled.refl (e : Expression) : Scaled 1 e e := ⟨(Int.one_mul _).symm, Iff.rfl⟩

theorem Scaled.trans {t : Int} {e'' : Expression} (h : Scaled s e e') (h' : Scaled t e' e'') :
    Scaled (t * s) e e'' :=
  ⟨by rw [h'.value, h.value, Int.mul_assoc], h'.zeroDivisions.trans h.zeroDivisions⟩

theorem Scaled.group {opening opening' closing closing' : Glyph} (h : Scaled s e e') :
    Scaled s (.group opening e closing) (.group opening' e' closing') :=
  ⟨h.value, h.zeroDivisions⟩

theorem zeroDivisions_binary_eq_nil :
    (binary op mark l r).zeroDivisions = [] ↔
      l.zeroDivisions = [] ∧ r.zeroDivisions = [] ∧ ¬ (op = .divide ∧ r.value = 0) := by
  by_cases h : op = .divide ∧ r.value = 0
  · simp [zeroDivisions, h]
  · simp [zeroDivisions, h]

theorem Scaled.operands (hl : Scaled 1 l l') (hr : Scaled 1 r r') :
    Scaled 1 (binary op mark l r) (binary op mark' l' r') where
  value := by
    have hlv : l'.value = l.value := hl.value.trans (Int.one_mul _)
    have hrv : r'.value = r.value := hr.value.trans (Int.one_mul _)
    cases op <;> simp only [Expression.value, hlv, hrv, Int.one_mul]
  zeroDivisions := by
    have hrv : r'.value = r.value := hr.value.trans (Int.one_mul _)
    rw [zeroDivisions_binary_eq_nil, zeroDivisions_binary_eq_nil, hl.zeroDivisions,
      hr.zeroDivisions, hrv]

/-- A product is odd in its left operand, and so is a quotient that is rounded toward zero. -/
theorem Scaled.negated (hop : op.precedence = .factor) (hl : Scaled (-1) l l') :
    Scaled (-1) (binary op mark l r) (binary op mark l' r) where
  value := by
    have hlv : l'.value = -l.value := hl.value.trans (Int.neg_one_mul _)
    rw [Int.neg_one_mul]
    cases op with
    | plus | minus => cases hop
    | times => rw [Expression.value, Expression.value, hlv, Int.neg_mul]
    | divide => rw [Expression.value, Expression.value, hlv, Int.neg_tdiv]
  zeroDivisions := by
    rw [zeroDivisions_binary_eq_nil, zeroDivisions_binary_eq_nil, hl.zeroDivisions]

theorem Scaled.opposite (hop : op.isSign = true) (hr : Scaled (-1) r r') :
    Scaled 1 (binary op mark l r) (binary op.opposite mark' l r') where
  value := by
    have hrv : r'.value = -r.value := hr.value.trans (Int.neg_one_mul _)
    rw [Int.one_mul]
    cases op with
    | times | divide => cases hop
    | plus => rw [Operator.opposite, Expression.value, Expression.value, hrv, Int.sub_neg]
    | minus => rw [Operator.opposite, Expression.value, Expression.value, hrv, Int.sub_eq_add_neg]
  zeroDivisions := by
    rw [zeroDivisions_binary_eq_nil, zeroDivisions_binary_eq_nil, hr.zeroDivisions]
    cases op with
    | times | divide => cases hop
    | plus | minus => simp [Operator.opposite]

end Expression

open Expression (Scaled)

variable {p : Phrase} {gs : List Glyph} {e : Expression}

theorem exists_cut_of_map_char {hs before after : List Glyph} {mark : Glyph}
    (h : hs.map Glyph.char = (before ++ mark :: after).map Glyph.char) :
    ∃ left mark' right, hs = left ++ mark' :: right ∧
      left.map Glyph.char = before.map Glyph.char ∧ mark'.char = mark.char ∧
      right.map Glyph.char = after.map Glyph.char := by
  rw [List.map_append, List.map_cons] at h
  obtain ⟨left, rest, rfl, hleft, hrest⟩ := List.map_eq_append_iff.mp h
  obtain ⟨mark', right, rfl, hmark, hright⟩ := List.map_eq_cons_iff.mp hrest
  exact ⟨left, mark', right, rfl, hleft, hmark, hright⟩

/-- Phrases hang on characters alone: with the same ones elsewhere the tree has the same value. -/
theorem Derives.relabel (h : Derives p gs e) {hs : List Glyph}
    (hchars : hs.map Glyph.char = gs.map Glyph.char) : ∃ e', Derives p hs e' ∧ Scaled 1 e e' := by
  induction h generalizing hs with
  | @literal sign digits hl =>
    have hnumeral := hl.isNumeral
    rw [← hchars] at hnumeral
    obtain ⟨sign', digits', rfl, hl'⟩ := exists_isLiteral hnumeral
    have hvalue : literalValue sign' digits' = literalValue sign digits := by
      rw [← hl'.numeralValue_eq, hchars, hl.numeralValue_eq]
    exact ⟨_, .literal hl', hvalue.trans (Int.one_mul _).symm, Iff.rfl⟩
  | ofFactor _ ih =>
    obtain ⟨e', he', hscaled⟩ := ih hchars
    exact ⟨e', .ofFactor he', hscaled⟩
  | ofTerm _ ih =>
    obtain ⟨e', he', hscaled⟩ := ih hchars
    exact ⟨e', .ofTerm he', hscaled⟩
  | group ho hc _ ih =>
    rw [List.map_append, List.map_cons, List.cons_append] at hchars
    obtain ⟨opening', rest, rfl, hopening, hrest⟩ := List.map_eq_cons_iff.mp hchars
    obtain ⟨inner, last, rfl, hinner, hlast⟩ := List.map_eq_append_iff.mp hrest
    obtain ⟨closing', rfl, hclosing⟩ := List.map_eq_singleton_iff.mp hlast
    obtain ⟨e', he', hscaled⟩ := ih hinner
    exact ⟨_, .group (hopening.trans ho) (hclosing.trans hc) he', hscaled.group⟩
  | product hop hm _ _ ihl ihr =>
    obtain ⟨left, mark', right, rfl, hleft, hmark, hright⟩ := exists_cut_of_map_char hchars
    obtain ⟨l', hl', hleft⟩ := ihl hleft
    obtain ⟨r', hr', hright⟩ := ihr hright
    exact ⟨_, .product hop (hmark.trans hm) hl' hr', hleft.operands hright⟩
  | sum hop hm _ _ ihl ihr =>
    obtain ⟨left, mark', right, rfl, hleft, hmark, hright⟩ := exists_cut_of_map_char hchars
    obtain ⟨l', hl', hleft⟩ := ihl hleft
    obtain ⟨r', hr', hright⟩ := ihr hright
    exact ⟨_, .sum hop (hmark.trans hm) hl' hr', hleft.operands hright⟩

/-- A term that begins with a digit has the other value behind a minus sign. -/
theorem Derives.negate (h : Derives p gs e) (hp : p ≠ .expression)
    (hhead : ∃ d ∈ gs.head?, d.char.isDigit = true) {minus : Glyph} (hminus : minus.char = '-') :
    ∃ e', Derives p (minus :: gs) e' ∧ Scaled (-1) e e' := by
  obtain ⟨d, hd, hdigit⟩ := hhead
  induction h with
  | @literal sign digits hl =>
    cases sign with
    | some g =>
      obtain rfl : g = d := Option.some.inj hd
      rcases hl.sign_char g rfl with hc | hc <;> rw [hc] at hdigit <;>
        exact absurd hdigit (by decide)
    | none =>
      have hsigned : IsLiteral (some minus) digits :=
        ⟨fun g hg => .inr (Option.some.inj hg ▸ hminus), hl.digits_ne_nil, hl.isDigit⟩
      refine ⟨_, .literal hsigned, ?_, Iff.rfl⟩
      simp [Expression.value, literalValue, hminus]
  | group ho =>
    obtain rfl := Option.some.inj hd
    rw [ho] at hdigit
    exact absurd hdigit (by decide)
  | ofFactor _ ih =>
    obtain ⟨e', he', hscaled⟩ := ih (by simp) hd
    exact ⟨e', .ofFactor he', hscaled⟩
  | product hop hm hl hr ihl =>
    rw [List.head?_append_of_ne_nil _ hl.ne_nil] at hd
    obtain ⟨l', hl', hscaled⟩ := ihl hp hd
    exact ⟨_, .product hop hm hl' hr, hscaled.negated hop⟩
  | ofTerm | sum => contradiction

/-- Between these glyphs a `+` or `-` is an operator, and its right operand begins with a literal
that has no sign. -/
structure MeetsLiteral (before after : List Glyph) : Prop where
  left : ∃ b ∈ before.getLast?, ¬ LeadsOperand b.char
  right : ∃ d ∈ after.head?, d.char.isDigit = true

variable {before mid after : List Glyph} {mark : Glyph}

theorem MeetsLiteral.inRight (h : MeetsLiteral (before ++ mark :: mid) after)
    (hm : LeadsOperand mark.char) : MeetsLiteral mid after := by
  obtain ⟨b, hb, hlead⟩ := h.left
  cases mid with
  | nil =>
    rw [List.getLast?_concat] at hb
    obtain rfl := Option.some.inj hb
    contradiction
  | cons g mid =>
    rw [List.getLast?_append_cons, List.getLast?_cons_cons] at hb
    exact ⟨⟨b, hb, hlead⟩, h.right⟩

theorem MeetsLiteral.inLeft (h : MeetsLiteral before (mid ++ mark :: after))
    (hm : mark.char.isDigit = false) : MeetsLiteral before mid := by
  obtain ⟨d, hd, hdigit⟩ := h.right
  cases mid with
  | nil =>
    obtain rfl := Option.some.inj hd
    rw [hm] at hdigit
    cases hdigit
  | cons g mid => exact ⟨h.left, d, hd, hdigit⟩

theorem Operator.isDigit_symbol (op : Operator) : op.symbol.isDigit = false := by
  cases op <;> decide

theorem IsLiteral.not_meetsLiteral {sign : Option Glyph} {digits : List Glyph}
    (h : IsLiteral sign digits) (hsplit : sign.toList ++ digits = before ++ mark :: after)
    (hmark : mark.char.isDigit = false) : ¬ MeetsLiteral before after := by
  intro hmeets
  have hdigits : mark ∉ digits := by
    intro hmem
    have hdigit := h.isDigit mark hmem
    rw [hmark] at hdigit
    cases hdigit
  cases sign with
  | none =>
    rw [Option.toList_none, List.nil_append] at hsplit
    exact hdigits (by simp [hsplit])
  | some g =>
    cases before with
    | nil =>
      obtain ⟨b, hb, -⟩ := hmeets.left
      cases hb
    | cons b before =>
      have hrest : digits = before ++ mark :: after := (List.cons.inj hsplit).2
      exact hdigits (by simp [hrest])

/-- An operator before a literal can be taken for the opposite one with a minus sign behind it. It
lies in one of the operands, except in the sum whose own operator it is. -/
theorem Derives.moveSign {op : Operator} (hop : op.isSign = true) {mark' minus : Glyph}
    (h : Derives p gs e) (hgs : gs = before ++ mark :: after) (hmark : mark.char = op.symbol)
    (hmark' : mark'.char = op.opposite.symbol) (hminus : minus.char = '-')
    (hmeets : MeetsLiteral before after) :
    ∃ e', Derives p (before ++ mark' :: minus :: after) e' ∧ Scaled 1 e e' := by
  have hdigit {op : Operator} {m : Glyph} (hm : m.char = op.symbol) : m.char.isDigit = false := by
    rw [hm, op.isDigit_symbol]
  induction h generalizing before after with
  | literal hl => exact absurd hmeets (hl.not_meetsLiteral hgs (hdigit hmark))
  | @group opening closing inner e ho hc _ ih =>
    cases before with
    | nil =>
      obtain ⟨b, hb, -⟩ := hmeets.left
      cases hb
    | cons b before =>
      obtain ⟨rfl, hinner⟩ := List.cons.inj hgs
      have hopening : MeetsLiteral ([] ++ opening :: before) after := hmeets
      have hbehind := hopening.inRight (.inl ho)
      rcases append_cons_cases hinner with ⟨mid, rfl, rfl⟩ | ⟨-, -, rfl⟩ | ⟨mid, -, hnil⟩
      · obtain ⟨e', he', hscaled⟩ := ih rfl (hbehind.inLeft (by rw [hc]; decide))
        have hnew := Derives.group ho hc he'
        rw [List.cons_append, List.append_assoc] at hnew
        exact ⟨_, hnew, hscaled.group⟩
      · obtain ⟨d, hd, -⟩ := hbehind.right
        cases hd
      · simp at hnil
  | ofFactor _ ih =>
    obtain ⟨e', he', hscaled⟩ := ih hgs hmeets
    exact ⟨e', .ofFactor he', hscaled⟩
  | ofTerm _ ih =>
    obtain ⟨e', he', hscaled⟩ := ih hgs hmeets
    exact ⟨e', .ofTerm he', hscaled⟩
  | @product op' m left right l r hop' hm hl hr ihl ihr =>
    rcases append_cons_cases hgs with ⟨mid, rfl, rfl⟩ | ⟨-, rfl, -⟩ | ⟨mid, rfl, rfl⟩
    · obtain ⟨l', hl', hscaled⟩ := ihl rfl (hmeets.inLeft (hdigit hm))
      have hnew := Derives.product hop' hm hl' hr
      rw [List.append_assoc] at hnew
      exact ⟨_, hnew, hscaled.operands (.refl r)⟩
    · obtain rfl : op' = op := Operator.symbol_injective (hm.symm.trans hmark)
      cases op' <;> contradiction
    · obtain ⟨r', hr', hscaled⟩ := ihr rfl (hmeets.inRight (.inr ⟨op', hm⟩))
      have hnew := Derives.product hop' hm hl hr'
      rw [List.append_assoc]
      exact ⟨_, hnew, (Scaled.refl l).operands hscaled⟩
  | @sum op' m left right l r hop' hm hl hr ihl ihr =>
    rcases append_cons_cases hgs with ⟨mid, rfl, rfl⟩ | ⟨rfl, rfl, rfl⟩ | ⟨mid, rfl, rfl⟩
    · obtain ⟨l', hl', hscaled⟩ := ihl rfl (hmeets.inLeft (hdigit hm))
      have hnew := Derives.sum hop' hm hl' hr
      rw [List.append_assoc] at hnew
      exact ⟨_, hnew, hscaled.operands (.refl r)⟩
    · obtain rfl : op' = op := Operator.symbol_injective (hm.symm.trans hmark)
      obtain ⟨r', hr', hscaled⟩ := hr.negate (by simp) hmeets.right hminus
      have hopposite : op'.opposite.precedence = .term := by
        cases op' <;> first | rfl | cases hop
      exact ⟨_, .sum hopposite hmark' hl hr', hscaled.opposite hop⟩
    · obtain ⟨r', hr', hscaled⟩ := ihr rfl (hmeets.inRight (.inr ⟨op', hm⟩))
      have hnew := Derives.sum hop' hm hl hr'
      rw [List.append_assoc]
      exact ⟨_, hnew, (Scaled.refl l).operands hscaled⟩

theorem Derives.answer_calculate (c : Calculator) {source : String}
    (h : Derives .expression (Glyph.ofText source) e) :
    (c.calculate (some source)).answer = evaluate (e.tokens c.filename) := by
  rw [c.answer_calculate h.ne_nil, h.tokenize]
  rfl

/-- Expressions of one value are evaluated alike, up to the place of a division by zero. -/
theorem Expression.Scaled.evaluate_tokens {filename : String} {e e' : Expression}
    {gs gs' : List Glyph} (h : Scaled 1 e e') (he : Derives .expression gs e)
    (he' : Derives .expression gs' e') :
    EndAlike (fun f g => f.cause = .divisionByZero ∧ g.cause = .divisionByZero) Eq
      (evaluate (e.tokens filename)) (evaluate (e'.tokens filename)) := by
  have hvalue : e'.value = e.value := h.value.trans (Int.one_mul _)
  rw [he.evaluate_tokens, he'.evaluate_tokens]
  cases hz : e.zeroDivisions with
  | nil =>
    rw [h.zeroDivisions.mpr hz]
    exact .ok hvalue.symm
  | cons g gs =>
    cases hz' : e'.zeroDivisions with
    | nil =>
      rw [h.zeroDivisions.mp hz'] at hz
      cases hz
    | cons g' gs' => exact .error ⟨rfl, rfl⟩

theorem Glyph.map_char_shifted (n : Nat) (gs : List Glyph) :
    (gs.map (shifted n)).map char = gs.map char := by
  rw [List.map_map]
  rfl

theorem Glyph.ofText_append_minus (a b : String) {c : Char} (h : Text.isBlank c = false) :
    ofText (a ++ c.toString ++ "-" ++ b) =
      ofText a ++ ⟨c, a.length⟩ :: ⟨'-', a.length + 1⟩ ::
        (ofText b).map (shifted (a.length + 2)) := by
  have hlength : (a ++ c.toString).length = a.length + 1 := by simp
  have hfront := ofText_append_char a "" h
  have hminus := ofText_append_char (a ++ c.toString) b (c := '-') (by decide)
  rw [String.append_empty] at hfront
  rw [hfront, hlength, List.append_assoc] at hminus
  exact hminus

theorem meetsLiteral_of_texts {a b : String} (n : Nat)
    (hbinary : ∃ d ∈ (Text.ink a.toList).getLast?, ¬ LeadsOperand d)
    (hliteral : ∃ d ∈ (Text.ink b.toList).head?, d.isDigit = true) :
    MeetsLiteral (Glyph.ofText a) ((Glyph.ofText b).map (.shifted n)) := by
  obtain ⟨d, hd, hlead⟩ := hbinary
  obtain ⟨k, hk, hdigit⟩ := hliteral
  rw [Text.ink, ← Glyph.map_char_ofText, List.getLast?_map] at hd
  rw [Text.ink, ← Glyph.map_char_ofText, ← Glyph.map_char_shifted n, List.head?_map] at hk
  obtain ⟨g, hg, rfl⟩ := Option.map_eq_some_iff.mp hd
  obtain ⟨j, hj, rfl⟩ := Option.map_eq_some_iff.mp hk
  exact ⟨⟨g, hg, hlead⟩, j, hj, hdigit⟩

/-- In an expression a `+` or `-` that is no sign, and has a literal without a sign behind it, can
be replaced by the opposite operator with a minus sign: the value is the same, or both divide by
zero. -/
theorem calculate_opposite (c : Calculator) {op : Operator} (hop : op.isSign = true) {a b : String}
    (hwf : WellFormed (Glyph.ofText (a ++ op.symbol.toString ++ b)))
    (hbinary : ∃ d ∈ (Text.ink a.toList).getLast?, ¬ LeadsOperand d)
    (hliteral : ∃ d ∈ (Text.ink b.toList).head?, d.isDigit = true) :
    EndAlike (fun f g => f.cause = .divisionByZero ∧ g.cause = .divisionByZero) Eq
      (c.calculate (some (a ++ op.symbol.toString ++ b))).answer
      (c.calculate (some (a ++ op.opposite.symbol.toString ++ "-" ++ b))).answer := by
  obtain ⟨e, he⟩ := hwf
  have hblank (o : Operator) : Text.isBlank o.symbol = false :=
    Token.Kind.isBlank_of_char? (k := .operator o) rfl
  have hmeets := meetsLiteral_of_texts (a.length + 2) hbinary hliteral
  have hmoved : (Glyph.ofText a ++ Glyph.mk op.symbol a.length ::
      (Glyph.ofText b).map (Glyph.shifted (a.length + 2))).map Glyph.char =
        (Glyph.ofText (a ++ op.symbol.toString ++ b)).map Glyph.char := by
    rw [Glyph.ofText_append_char a b (hblank op), List.map_append, List.map_append, List.map_cons,
      List.map_cons, Glyph.map_char_shifted, Glyph.map_char_shifted]
  have hmark : (Glyph.mk op.opposite.symbol a.length).char = op.opposite.symbol := rfl
  have hminus : (Glyph.mk '-' (a.length + 1)).char = '-' := rfl
  obtain ⟨d, hd, hed⟩ := he.relabel hmoved
  obtain ⟨e', he', hde'⟩ := hd.moveSign hop rfl rfl hmark hminus hmeets
  rw [← Glyph.ofText_append_minus a b (hblank op.opposite)] at he'
  rw [he.answer_calculate, he'.answer_calculate]
  exact (hed.trans hde').evaluate_tokens he he'

/-- The quotient is rounded toward zero, and so it only changes its sign with its dividend. -/
theorem calculate_opposite_quotient :
    WellFormed (Glyph.ofText "2*(1- 7/2*3)") ∧
      (({} : Calculator).calculate (some "2*(1- 7/2*3)")).answer = .ok (-16) ∧
      (({} : Calculator).calculate (some "2*(1+- 7/2*3)")).answer = .ok (-16) := by
  have hold : "2*(1" ++ Operator.minus.symbol.toString ++ " 7/2*3)" = "2*(1- 7/2*3)" := by decide
  have hnew : "2*(1" ++ Operator.minus.opposite.symbol.toString ++ "-" ++ " 7/2*3)" =
      "2*(1+- 7/2*3)" := by decide
  have hwf : WellFormed (Glyph.ofText "2*(1- 7/2*3)") := by decide +kernel
  have hvalue : (({} : Calculator).calculate (some "2*(1- 7/2*3)")).answer = .ok (-16) := by
    decide +kernel
  have hminus : Operator.minus.isSign = true := rfl
  have hbinary : ∃ d ∈ (Text.ink "2*(1".toList).getLast?, ¬ LeadsOperand d :=
    ⟨'1', by decide +kernel, not_leadsOperand_of_isDigit (by decide)⟩
  have hliteral : ∃ d ∈ (Text.ink " 7/2*3)".toList).head?, d.isDigit = true :=
    ⟨'7', by decide +kernel, by decide⟩
  have hsame := calculate_opposite {} hminus (by rw [hold]; exact hwf) hbinary hliteral
  rw [hold, hnew, hvalue] at hsame
  refine ⟨hwf, hvalue, ?_⟩
  generalize (({} : Calculator).calculate (some "2*(1+- 7/2*3)")).answer = answer at hsame
  cases hsame with
  | ok heq => rw [heq]

end Abacus
