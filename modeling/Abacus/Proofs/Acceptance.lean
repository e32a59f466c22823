import Abacus.Proofs.Accounting
import Abacus.Proofs.Rejection

/-! # Which texts have a value

A text with a value need not be an expression: operands are not kept apart by groups, so one that is
missing in a group can be made up for by one too many before it. Where no operand comes directly
after another, nothing can be made up for, and only expressions have a value. A division by zero is
met as the program runs, whatever is wrong with the tokens otherwise.
-/
namespace Abacus

namespace Calculator

variable {c : Calculator} {source : String}

/-- A blank text has a fault of its own, and so has an empty sequence of tokens. Apart from the two,
calculating is tokenizing and evaluating on every text. -/
theorem answer_calculate_eq_iff {x : Except Fault Int} (hempty : x ≠ .error .emptyExpression)
    (hnone : x ≠ .error (.leftoverOperands 0 none)) :
    (c.calculate (some source)).answer = x ↔
      (Abacus.tokenize c.filename source >>= Abacus.evaluate) = x := by
  by_cases h : Glyph.ofText source = []
  · have hcalculate : (c.calculate (some source)).answer = .error .emptyExpression := by
      rw [calculate, Traced.answer_reportFault, tokenize]
      simp only [ofText_eq_nil_iff.mp h]
      rfl
    have hrun : (Abacus.tokenize c.filename source >>= Abacus.evaluate) =
        .error (.leftoverOperands 0 none) := by
      rw [Abacus.tokenize, Scan.ofText, h]
      rfl
    rw [hcalculate, hrun]
    exact iff_of_false hempty.symm hnone.symm
  · rw [c.answer_calculate h]

theorem answer_calculate_eq_ok_iff {v : Int} : (c.calculate (some source)).answer = .ok v ↔
    ∃ ts, Abacus.tokenize c.filename source = .ok ts ∧ Abacus.evaluate ts = .ok v := by
  rw [answer_calculate_eq_iff (by simp) (by simp), bind_eq_ok_iff]

theorem answer_calculate_eq_divisionByZero_iff {l : Option Location} :
    (c.calculate (some source)).answer = .error (.divisionByZero l) ↔
      ∃ ts, Abacus.tokenize c.filename source = .ok ts ∧
        Abacus.evaluate ts = .error (.divisionByZero l) := by
  rw [answer_calculate_eq_iff (by simp) (by simp), bind_eq_error_iff, or_iff_right]
  intro hl
  exact Bool.false_ne_true (rejects_of_tokenize hl).isLexical

end Calculator

/-- Where no operand comes directly after another, the tokens alternate, or the operands are too few
from the first place on where one is missing. -/
theorem Reads.alternates_or_lacks {filename : String} {gs : List Glyph} {ts : List Token}
    (h : Reads filename gs ts) (hs : Separated ts) :
    (ts.foldlM expect true = some (awaitsOperand ts) ∧
        operands ts = operators ts + (!awaitsOperand ts).toNat) ∨
      operands ts < operators ts + (!awaitsOperand ts).toNat := by
  induction h with
  | nil => exact .inl ⟨rfl, rfl⟩
  | @literal gs ts sign digits h hl _ _ ih =>
    obtain ⟨hts, hawaits⟩ := separated_snoc.mp hs
    have hih := ih hts
    rw [hawaits rfl] at hih
    rw [operands_snoc, operators_snoc, awaitsOperand_append, foldlM_expect_snoc]
    rcases hih with ⟨hfold, hcount⟩ | hcount
    · exact .inl ⟨⟨hfold, rfl⟩, congrArg (· + 1) hcount⟩
    · exact .inr (Nat.add_lt_add_right hcount 1)
  | @mark gs ts g k h hk he ih =>
    obtain ⟨hts, hawaits⟩ := separated_snoc.mp hs
    have hih := ih hts
    rw [operands_snoc, operators_snoc, awaitsOperand_append, foldlM_expect_snoc]
    cases k with
    | number => cases Glyph.kind?_eq_some_iff.mp hk
    | operator op =>
      rw [he op rfl] at hih
      exact hih.imp (fun ⟨hfold, hcount⟩ => ⟨⟨hfold, rfl⟩, hcount⟩) id
    | leftParen =>
      rw [hawaits rfl] at hih
      exact hih.imp (fun ⟨hfold, hcount⟩ => ⟨⟨hfold, rfl⟩, hcount⟩) id
    | rightParen =>
      cases ha : awaitsOperand ts with
      | false =>
        rw [ha] at hih
        exact hih.imp (fun ⟨hfold, hcount⟩ => ⟨⟨hfold, rfl⟩, hcount⟩) id
      | true =>
        rw [ha] at hih
        refine .inr ?_
        rcases hih with ⟨_, hcount⟩ | hcount
        · exact Nat.lt_succ_of_le (Nat.le_of_eq hcount)
        · exact Nat.lt_succ_of_lt hcount

theorem Reads.alternates {filename : String} {gs : List Glyph} {ts : List Token}
    (h : Reads filename gs ts) (hs : Separated ts) (hcount : operands ts = operators ts + 1) :
    Alternates ts := by
  rcases h.alternates_or_lacks hs with ⟨ha, hoperands⟩ | hlacks
  · cases hawaits : awaitsOperand ts with
    | false => rwa [hawaits] at ha
    | true =>
      rw [hawaits, hcount] at hoperands
      simp at hoperands
  · have hle := Bool.toNat_le (!awaitsOperand ts)
    omega

/-- A text that has a value is tokenized into matching parentheses, and it is an expression exactly
when no operand in it comes directly after another. -/
theorem wellFormed_iff_separated_of_value (c : Calculator) {source : String} {v : Int}
    (h : (c.calculate (some source)).answer = .ok v) :
    ∃ ts, tokenize c.filename source = .ok ts ∧ Balanced ts ∧
      (WellFormed (Glyph.ofText source) ↔ Separated ts) := by
  obtain ⟨ts, hts, hv⟩ := Calculator.answer_calculate_eq_ok_iff.mp h
  obtain ⟨hbalanced, hcount⟩ := balanced_of_evaluate hv
  refine ⟨ts, hts, hbalanced, ?_⟩
  rw [wellFormed_iff hts]
  constructor
  · rintro ⟨_, ha⟩
    exact separated_of_foldlM_expect ha
  · intro hs
    exact ⟨hbalanced, (tokenize_eq_ok_iff.mp hts).alternates hs hcount⟩

theorem wellFormed_iff_separated_of_value_zero :
    (({} : Calculator).calculate (some "(1+2)-3")).answer = .ok 0 ∧
      ∃ ts, tokenize "<expression>" "(1+2)-3" = .ok ts ∧ Balanced ts ∧
        (WellFormed (Glyph.ofText "(1+2)-3") ↔ Separated ts) := by
  have hzero : (({} : Calculator).calculate (some "(1+2)-3")).answer = .ok 0 := by decide +kernel
  exact ⟨hzero, wellFormed_iff_separated_of_value {} hzero⟩

/-- The operand that is missing in the group is taken from before it. -/
theorem value_of_not_wellFormed : (({} : Calculator).calculate (some "1(2*)")).answer = .ok 2 ∧
    ¬ WellFormed (Glyph.ofText "1(2*)") := by
  decide +kernel

theorem Instruction.perform_eq_divisionByZero_iff {i : Instruction} {values : List Int}
    {l : Option Location} : i.perform values = .error (.divisionByZero l) ↔
      ∃ q dividend rest, i = .reduce q ∧ values = 0 :: dividend :: rest ∧
        q.operator = .divide ∧ q.token.location = l := by
  constructor
  · intro h
    obtain ⟨q, rfl, hf | ⟨dividend, rest, rfl, hop, hf⟩⟩ := perform_eq_error h
    · cases hf
    · cases hf
      exact ⟨q, dividend, rest, rfl, rfl, hop, rfl⟩
  · rintro ⟨q, dividend, rest, rfl, rfl, hop, rfl⟩
    rw [perform, Operator.compute?_eq_none_iff.mpr ⟨hop, rfl⟩]

/-- The program comes to a division at `l` with the divisor zero on top of its stack. -/
def Postfix.DividesByZero (p : Postfix) (l : Option Location) : Prop :=
  ∃ before q after dividend rest, p.instructions = before ++ .reduce q :: after ∧
    execute [] before = .ok (0 :: dividend :: rest) ∧ q.operator = .divide ∧ q.token.location = l

theorem Ending.settle_ne_divisionByZero (ending : Ending) (values : List Int)
    (l : Option Location) : ending.settle values ≠ .error (.divisionByZero l) := by
  intro h
  cases ending with
  | unmatchedClosing | unclosedOpening => cases h
  | singleValue => rcases values with _ | ⟨v, _ | ⟨u, rest⟩⟩ <;> cases h

theorem Postfix.evaluate_eq_divisionByZero_iff {p : Postfix} {l : Option Location} :
    p.evaluate = .error (.divisionByZero l) ↔ p.DividesByZero l := by
  rw [evaluate, run, bind_eq_error_iff, or_iff_left, execute, foldlM_eq_error_iff]
  · constructor
    · rintro ⟨before, i, after, values, hsplit, hbefore, hi⟩
      obtain ⟨q, dividend, rest, rfl, rfl, hop, hl⟩ :=
        Instruction.perform_eq_divisionByZero_iff.mp hi
      exact ⟨before, q, after, dividend, rest, hsplit, hbefore, hop, hl⟩
    · rintro ⟨before, q, after, dividend, rest, hsplit, hbefore, hop, hl⟩
      exact ⟨before, .reduce q, after, _, hsplit, hbefore,
        Instruction.perform_eq_divisionByZero_iff.mpr ⟨q, dividend, rest, rfl, rfl, hop, hl⟩⟩
  · rintro ⟨values, _, hsettle⟩
    exact Ending.settle_ne_divisionByZero _ _ _ hsettle

/-- A text that fails at a division is tokenized, and its program comes to that division before
anything else fails. It is an expression exactly when its parentheses match and its operands and
operators alternate, behind the division as well as before it. -/
theorem wellFormed_iff_of_divisionByZero (c : Calculator) {source : String} {l : Option Location}
    (h : (c.calculate (some source)).answer = .error (.divisionByZero l)) :
    ∃ ts, tokenize c.filename source = .ok ts ∧ (Postfix.ofTokens ts).DividesByZero l ∧
      (WellFormed (Glyph.ofText source) ↔ Balanced ts ∧ Alternates ts) := by
  obtain ⟨ts, hts, hl⟩ := Calculator.answer_calculate_eq_divisionByZero_iff.mp h
  rw [evaluate_eq_ofTokens, Postfix.evaluate_eq_divisionByZero_iff] at hl
  exact ⟨ts, hts, hl, wellFormed_iff hts⟩

theorem wellFormed_iff_of_divisionByZero_difference :
    (({} : Calculator).calculate (some "4/(2-2)+1")).answer =
        .error (.divisionByZero (some (.ofOffset "<expression>" 1))) ∧
      ∃ ts, tokenize "<expression>" "4/(2-2)+1" = .ok ts ∧
        (Postfix.ofTokens ts).DividesByZero (some (.ofOffset "<expression>" 1)) ∧
        (WellFormed (Glyph.ofText "4/(2-2)+1") ↔ Balanced ts ∧ Alternates ts) := by
  have hfault : (({} : Calculator).calculate (some "4/(2-2)+1")).answer =
      .error (.divisionByZero (some (.ofOffset "<expression>" 1))) := by
    decide +kernel
  exact ⟨hfault, wellFormed_iff_of_divisionByZero {} hfault⟩

/-- The parenthesis that matches none is met only after the division. -/
theorem divisionByZero_of_not_wellFormed :
    (({} : Calculator).calculate (some "1/0)")).answer =
        .error (.divisionByZero (some (.ofOffset "<expression>" 1))) ∧
      ¬ WellFormed (Glyph.ofText "1/0)") := by
  decide +kernel

end Abacus
