import Abacus.Calculator
import Abacus.Proofs.Refinement
import Abacus.Proofs.Scanning

/-! # What an expression means

The tokens of an expression are translated into the postfix order of its tree, and that program
either leaves the value of the tree or fails at the first division by zero in it. So a calculation
answers every text of the grammar as its syntax tree does.
-/
namespace Abacus

namespace Expression

variable (filename : String)

def tokens : Expression → List Token
  | literal sign digits => [.ofLiteral filename sign digits]
  | group opening inner closing =>
    .ofGlyph filename .leftParen opening :: inner.tokens ++ [.ofGlyph filename .rightParen closing]
  | binary op mark left right =>
    left.tokens ++ .ofGlyph filename (.operator op) mark :: right.tokens

/-- Left operand, right operand, operator. -/
def postorder : Expression → List Instruction
  | literal sign digits => [.push (.ofLiteral filename sign digits)]
  | group _ inner _ => inner.postorder
  | binary op mark left right =>
    left.postorder ++ right.postorder ++ [.reduce ⟨op, .ofGlyph filename (.operator op) mark⟩]

/-- The operators that still wait when all tokens are read, the newest first. They are those on the
right edge of the tree. -/
def pending : Expression → List Pending
  | literal .. | group .. => []
  | binary op mark _ right => right.pending ++ [⟨op, .ofGlyph filename (.operator op) mark⟩]

def emitted : Expression → List Instruction
  | literal sign digits => [.push (.ofLiteral filename sign digits)]
  | group _ inner _ => inner.postorder filename
  | binary _ _ left right => left.postorder filename ++ right.emitted

theorem postorder_eq (e : Expression) :
    e.postorder filename = e.emitted filename ++ (e.pending filename).map .reduce := by
  induction e with
  | literal | group => simp [postorder, emitted, pending]
  | binary op mark left right _ ihr => simp [postorder, emitted, pending, ihr]

/-- The postfix order runs as the tree is evaluated, on any stack. -/
theorem execute_postorder (e : Expression) (values : List Int) :
    execute values (e.postorder filename) = match e.zeroDivisions with
      | [] => .ok (e.value :: values)
      | g :: _ => .error (.divisionByZero (some (.ofOffset filename g.offset))) := by
  induction e generalizing values with
  | literal => rfl
  | group _ inner _ ih => exact ih values
  | binary op mark left right ihl ihr =>
    rw [postorder, execute_append, execute_append, ihl, zeroDivisions]
    cases left.zeroDivisions with
    | cons g gs => rfl
    | nil =>
      simp only [List.nil_append]
      change (execute (left.value :: values) _ >>= _) = _
      rw [ihr]
      cases right.zeroDivisions with
      | cons g gs => rfl
      | nil =>
        by_cases hz : right.value = 0
        · cases op <;> simp [execute, Instruction.perform, Operator.compute?, hz, value, bind,
            Except.bind, pure, Except.pure, Token.ofGlyph]
        · cases op <;> simp [execute, Instruction.perform, Operator.compute?, hz, value, bind,
            Except.bind, pure, Except.pure, quotient_eq_tdiv]

end Expression

def Phrase.level : Phrase → Nat
  | expression => 1
  | term => 2
  | factor => 3

/-- The stack is left alone by the operators of a phrase of the kind `p`. -/
def Bears (p : Phrase) (stack : List Waiting) : Prop :=
  ∀ op : Operator, p.level ≤ op.precedence.level → unwind op.yieldsTo stack = ([], stack)

theorem bears_nil (p : Phrase) : Bears p [] := fun _ _ => rfl

theorem bears_opening (p : Phrase) (t : Token) (stack : List Waiting) :
    Bears p (.opening t :: stack) :=
  fun _ _ => rfl

theorem bears_operator {p : Phrase} {w : Pending} (h : w.operator.precedence.level < p.level)
    (stack : List Waiting) : Bears p (.operator w :: stack) := by
  intro op hop
  have hdue : op.yieldsTo w.operator = false := by
    simp only [Operator.yieldsTo, decide_eq_false_iff_not]
    omega
  simp [unwind, hdue]

theorem Bears.mono {p q : Phrase} {stack : List Waiting} (h : Bears p stack)
    (hpq : p.level ≤ q.level) : Bears q stack :=
  fun op hop => h op (Nat.le_trans hpq hop)

variable {filename : String} {p : Phrase} {gs : List Glyph} {e : Expression}

theorem Derives.level_le_pending (h : Derives p gs e) :
    ∀ w ∈ e.pending filename, p.level ≤ w.operator.precedence.level := by
  induction h with
  | literal | group => simp [Expression.pending]
  | ofFactor _ ih | ofTerm _ ih => exact fun w hw => Nat.le_of_lt (ih w hw)
  | product hop _ _ _ _ ihr | sum hop _ _ _ _ ihr =>
    simp only [Expression.pending, List.forall_mem_append, List.forall_mem_singleton, hop]
    exact ⟨fun w hw => Nat.le_of_lt (ihr w hw), Nat.le_refl _⟩

/-- An operator carries out all that its left operand left waiting and nothing below. -/
theorem Derives.unwind_pending (h : Derives p gs e) {stack : List Waiting} (hb : Bears p stack)
    {op : Operator} (hop : op.precedence.level = p.level) :
    unwind op.yieldsTo ((e.pending filename).map .operator ++ stack) =
      (e.pending filename, stack) := by
  have hdue : ∀ w ∈ e.pending filename, op.yieldsTo w.operator = true := by
    intro w hw
    simpa [Operator.yieldsTo, hop] using h.level_le_pending w hw
  rw [unwind_append hdue, hb op (Nat.le_of_eq hop.symm), List.append_nil]

theorem Postfix.prepend_prepend (q : Postfix) (is js : List Instruction) :
    (q.prepend js).prepend is = q.prepend (is ++ js) := by
  simp [prepend]

/-- A binary node is translated as its operands are: its operator comes off the stack after what the
right operand put there. -/
private theorem translate_binary {op : Operator} {mark : Glyph} {l r : Expression}
    {stack : List Waiting} {last : Option Location} {ts : List Token} (hl : Derives p gs l)
    (hop : op.precedence.level = p.level) (hb : Bears p stack)
    (ihl : ∀ us, Postfix.translate last stack (l.tokens filename ++ us) =
      (Postfix.translate last ((l.pending filename).map .operator ++ stack) us).prepend
        (l.emitted filename))
    (ihr : ∀ t, Postfix.translate last (.operator ⟨op, t⟩ :: stack) (r.tokens filename ++ ts) =
      (Postfix.translate last ((r.pending filename).map .operator ++ .operator ⟨op, t⟩ :: stack)
        ts).prepend (r.emitted filename)) :
    Postfix.translate last stack ((Expression.binary op mark l r).tokens filename ++ ts) =
      (Postfix.translate last
        (((Expression.binary op mark l r).pending filename).map .operator ++ stack) ts).prepend
        ((Expression.binary op mark l r).emitted filename) := by
  have hkind : (Token.ofGlyph filename (.operator op) mark).kind = .operator op := rfl
  rw [Expression.tokens, List.append_assoc, ihl, List.cons_append, Postfix.translate, hkind]
  simp only [hl.unwind_pending hb hop, ihr, Postfix.prepend_prepend, Expression.pending,
    Expression.emitted, Expression.postorder_eq, List.map_append, List.map_cons, List.map_nil,
    List.append_assoc, List.singleton_append]

/-- The tokens of an expression are translated into its postfix order; the operators on its right
edge still wait. -/
theorem Derives.translate_tokens (h : Derives p gs e) {stack : List Waiting} (hb : Bears p stack)
    (last : Option Location) (ts : List Token) :
    Postfix.translate last stack (e.tokens filename ++ ts) =
      (Postfix.translate last ((e.pending filename).map .operator ++ stack) ts).prepend
        (e.emitted filename) := by
  induction h generalizing stack ts with
  | literal => rfl
  | @group opening closing gs e _ _ _ ih =>
    have hopen : (Token.ofGlyph filename .leftParen opening).kind = .leftParen := rfl
    have hclose : (Token.ofGlyph filename .rightParen closing).kind = .rightParen := rfl
    rw [Expression.tokens, List.append_assoc, List.cons_append, Postfix.translate, hopen]
    simp only [ih (bears_opening _ _ _)]
    rw [List.singleton_append, Postfix.translate, hclose, unwind_append fun _ _ => rfl]
    simp only [unwind, List.append_nil, Postfix.prepend_prepend, Expression.pending,
      Expression.emitted, Expression.postorder_eq, List.map_nil, List.nil_append]
  | ofFactor _ ih | ofTerm _ ih => exact ih (hb.mono (by decide)) ts
  | product hop _ hl hr ihl ihr | sum hop _ hl hr ihl ihr =>
    have hlevel := congrArg Precedence.level hop
    refine translate_binary hl hlevel hb (ihl hb) fun t => ihr (bears_operator ?_ _) ts
    rw [hlevel]
    decide

/-- The program of an expression is its postfix order and no more. -/
theorem Derives.ofTokens_tokens (h : Derives .expression gs e) :
    Postfix.ofTokens (e.tokens filename) = ⟨e.postorder filename,
      .singleValue ((e.tokens filename).getLast?.bind (·.location))⟩ := by
  have htranslate : Postfix.translate ((e.tokens filename).getLast?.bind (·.location)) []
      (e.tokens filename ++ []) = _ :=
    h.translate_tokens (bears_nil _) _ []
  rw [List.append_nil] at htranslate
  rw [Postfix.ofTokens, htranslate, Postfix.translate, unwind_append fun _ _ => rfl]
  simp [unwind, Postfix.prepend, Expression.postorder_eq]

theorem Derives.evaluate_tokens (h : Derives .expression gs e) :
    evaluate (e.tokens filename) = match e.zeroDivisions with
      | [] => .ok e.value
      | g :: _ => .error (.divisionByZero (some (.ofOffset filename g.offset))) := by
  rw [evaluate_eq_ofTokens, h.ofTokens_tokens, Postfix.evaluate, Postfix.run,
    Expression.execute_postorder]
  cases e.zeroDivisions <;> rfl

theorem awaitsOperand_append_tokens (e : Expression) (ts : List Token) :
    awaitsOperand (ts ++ e.tokens filename) = false := by
  induction e generalizing ts with
  | literal => simp [Expression.tokens, Token.ofLiteral, Token.Kind.endsOperand]
  | group opening inner closing _ =>
    rw [Expression.tokens, ← List.append_assoc, awaitsOperand_append]
    rfl
  | binary op mark left right _ ihr =>
    rw [Expression.tokens, List.append_cons, ← List.append_assoc]
    exact ihr _

theorem Derives.reads (h : Derives p gs e) {hs : List Glyph} {ts : List Token}
    (hr : Reads filename hs ts) (ha : awaitsOperand ts = true) :
    Reads filename (hs ++ gs) (ts ++ e.tokens filename) := by
  induction h generalizing hs ts with
  | literal hl => exact hr.literal hl (fun _ => ha) (endsInNumber_eq_false ha)
  | @group opening closing gs e ho hc _ ih =>
    have hopen : opening.role.kind? = some .leftParen :=
      Glyph.kind?_eq_some_iff.mpr (congrArg some ho.symm)
    have hclose : closing.role.kind? = some .rightParen :=
      Glyph.kind?_eq_some_iff.mpr (congrArg some hc.symm)
    have hinner := ih (hr.mark hopen (by simp)) (awaitsOperand_append _ _)
    simpa [Expression.tokens] using hinner.mark hclose (by simp)
  | ofFactor _ ih | ofTerm _ ih => exact ih hr ha
  | @product op mark _ _ l r _ hm _ _ ihl ihr | @sum op mark _ _ l r _ hm _ _ ihl ihr =>
    have hrole : mark.role.kind? = some (.operator op) :=
      Glyph.kind?_eq_some_iff.mpr (congrArg some hm.symm)
    have hleft := (ihl hr ha).mark hrole fun _ _ => awaitsOperand_append_tokens l ts
    have hright := ihr hleft (awaitsOperand_append _ _)
    simpa [Expression.tokens] using hright

theorem Derives.tokenize {source : String} (h : Derives .expression (Glyph.ofText source) e) :
    tokenize filename source = .ok (e.tokens filename) :=
  tokenize_eq_ok_iff.mpr (h.reads .nil rfl)

theorem Derives.ne_nil (h : Derives p gs e) : gs ≠ [] := by
  induction h with
  | literal hl => simp [hl.digits_ne_nil]
  | group => simp
  | ofFactor _ ih | ofTerm _ ih => exact ih
  | product | sum => simp

theorem ofText_eq_nil_iff {source : String} :
    Glyph.ofText source = [] ↔ Text.isBlankText source = true := by
  rw [← List.map_eq_nil_iff (f := Glyph.char), Glyph.map_char_ofText, List.filter_eq_nil_iff]
  simp [Text.isBlankText]

theorem Traced.answer_reportFault {α : Type} (x : Traced α) (report : Fault → Event) :
    (x.reportFault report).answer = x.answer := by
  unfold reportFault
  cases hx : x.answer <;> simp [hx]

theorem Calculator.answer_calculate (c : Calculator) {source : String}
    (h : Glyph.ofText source ≠ []) :
    (c.calculate (some source)).answer =
      Abacus.tokenize c.filename source >>= Abacus.evaluate := by
  have hblank : Text.isBlankText source = false := by
    simpa using mt ofText_eq_nil_iff.mpr h
  rw [calculate, Traced.answer_reportFault, tokenize]
  simp only [hblank]
  cases Abacus.tokenize c.filename source with
  | error f => rfl
  | ok ts => exact answer_evaluate ts

end Abacus
